import Mathlib.Data.List.Basic
import Mathlib.Order.Lattice

/-!
# The first best member of a list

A scan keeps the best member so far and lets a later one take its place only if it is better.

* `bestFrom`: the scan.
* `bestFrom_mem`, `rank_le_bestFrom`: it ends with a member, of the highest rank.
-/

namespace Selection

variable {α : Type*} {better : α → α → Bool}

/-- The best of `a` and the members of a list, the earlier of two where neither is better. -/
def bestFrom (better : α → α → Bool) (a : α) (xs : List α) : α :=
  xs.foldl (fun best x => if better x best then x else best) a

theorem bestFrom_nil (a : α) : bestFrom better a [] = a := rfl

theorem bestFrom_cons (a x : α) (xs : List α) :
    bestFrom better a (x :: xs) = bestFrom better (if better x a then x else a) xs := rfl

theorem bestFrom_mem (a : α) (xs : List α) : bestFrom better a xs ∈ a :: xs := by
  induction xs generalizing a with
  | nil => exact List.mem_singleton_self a
  | cons x xs ih =>
    rw [bestFrom_cons]
    rcases List.mem_cons.mp (ih (if better x a then x else a)) with hbest | hxs
    · rw [hbest]
      split
      · exact List.mem_cons_of_mem a List.mem_cons_self
      · exact List.mem_cons_self
    · exact List.mem_cons_of_mem a (List.mem_cons_of_mem x hxs)

/-- **Where a higher rank is better and a lower one is not**, no member outranks the best. -/
theorem rank_le_bestFrom {κ : Type*} [LinearOrder κ] {rank : α → κ}
    (hbetter : ∀ x y, rank y < rank x → better x y = true)
    (hworse : ∀ x y, rank x < rank y → better x y = false) (a : α) (xs : List α) :
    ∀ x ∈ a :: xs, rank x ≤ rank (bestFrom better a xs) := by
  induction xs generalizing a with
  | nil => exact fun x hx => (congrArg rank (List.mem_singleton.mp hx)).le
  | cons x xs ih =>
    have hstep : rank a ≤ rank (if better x a then x else a) ∧
        rank x ≤ rank (if better x a then x else a) := by
      cases hx : better x a with
      | true =>
        refine ⟨?_, le_refl _⟩
        by_contra hlt
        exact absurd ((hworse x a (not_le.mp hlt)).symm.trans hx) (by simp)
      | false =>
        refine ⟨le_refl _, ?_⟩
        by_contra hlt
        exact absurd ((hbetter x a (not_le.mp hlt)).symm.trans hx) (by simp)
    have hbest := ih (if better x a then x else a) _ List.mem_cons_self
    rw [bestFrom_cons]
    intro y hy
    rcases List.mem_cons.mp hy with rfl | hy
    · exact hstep.1.trans hbest
    rcases List.mem_cons.mp hy with rfl | hy
    · exact hstep.2.trans hbest
    · exact ih _ y (List.mem_cons_of_mem _ hy)

end Selection
