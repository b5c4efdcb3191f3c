import Mathlib.Data.List.Basic
import Mathlib.Data.List.Count
import Mathlib.Data.List.Nodup

/-!
# Telling equal members apart by a count

Equal members of a list are numbered in the order in which they stand, and a name made of a
member and its number takes the place of every member but the first of its kind.

* `ranked`: each member with the number of equal members before it.
* `mem_ranked`, `nodup_ranked`: the numbers of a member run from zero up to its count.
* `nodup_map_ranked_iff`: the names are distinct exactly if none of the names made is a member.
* `append_sep_inj`: a text is read off its last separator.
-/

namespace Occurrences

variable {α : Type*} [DecidableEq α]

/-- Each member with the number of equal members before it, `seen` of which stand before the
list. -/
def ranked (seen : α → ℕ) : List α → List (α × ℕ)
  | [] => []
  | x :: xs => (x, seen x) :: ranked (Function.update seen x (seen x + 1)) xs

theorem mem_ranked {seen : α → ℕ} {xs : List α} {x : α} {k : ℕ} :
    (x, k) ∈ ranked seen xs ↔ seen x ≤ k ∧ k < seen x + xs.count x := by
  induction xs generalizing seen with
  | nil =>
    rw [ranked, List.count_nil]
    simp only [List.not_mem_nil, false_iff]
    omega
  | cons y xs ih =>
    rw [ranked, List.mem_cons, ih]
    by_cases hxy : x = y
    · subst hxy
      rw [Function.update_self, List.count_cons_self, Prod.mk.injEq]
      simp only [true_and]
      omega
    · rw [Function.update_of_ne hxy, List.count_cons_of_ne (fun h => hxy h.symm), Prod.mk.injEq]
      simp only [hxy, false_and, false_or]

/-- No two members get the same number. -/
theorem nodup_ranked (seen : α → ℕ) (xs : List α) : (ranked seen xs).Nodup := by
  induction xs generalizing seen with
  | nil => exact List.nodup_nil
  | cons x xs ih =>
    rw [ranked, List.nodup_cons]
    refine ⟨fun hmem => ?_, ih _⟩
    have hrank := (mem_ranked.mp hmem).1
    rw [Function.update_self] at hrank
    omega

theorem mem_ranked_zero {xs : List α} {x : α} {k : ℕ} :
    (x, k) ∈ ranked (fun _ => 0) xs ↔ k < xs.count x := by
  rw [mem_ranked]
  omega

/-- A member is the first of its kind somewhere. -/
theorem mem_iff_ranked_zero {xs : List α} {x : α} : x ∈ xs ↔ (x, 0) ∈ ranked (fun _ => 0) xs := by
  rw [mem_ranked_zero, List.count_pos_iff]

section Names

variable {name : α → ℕ → α} (hzero : ∀ x, name x 0 = x)
include hzero

/-- A name made for a later member is not that of a first one. -/
theorem pos_of_name_eq {xs : List α} (h : ∀ x k, 0 < k → k < xs.count x → name x k ∉ xs)
    {x y : α} {j k : ℕ} (hx : (x, j) ∈ ranked (fun _ => 0) xs)
    (hy : (y, k) ∈ ranked (fun _ => 0) xs) (hk : 0 < k) (heq : name x j = name y k) : 0 < j := by
  by_contra hj
  have hj0 : j = 0 := by omega
  subst hj0
  rw [hzero] at heq
  apply h y k hk (mem_ranked_zero.mp hy)
  rw [← heq]
  exact mem_iff_ranked_zero.mpr hx

/-- **When the names are distinct**: a member that came first keeps its own, so the names made for
the others must not be members. -/
theorem nodup_map_ranked_iff
    (hinj : ∀ x y j k, name x (j + 1) = name y (k + 1) → x = y ∧ j = k) (xs : List α) :
    ((ranked (fun _ => 0) xs).map fun e => name e.1 e.2).Nodup ↔
      ∀ x k, 0 < k → k < xs.count x → name x k ∉ xs := by
  rw [List.nodup_map_iff_inj_on (nodup_ranked _ xs)]
  constructor
  · intro h x k hk hcount hx
    -- the member of that name came first somewhere
    have heq := h (x, k) (mem_ranked_zero.mpr hcount) (name x k, 0) (mem_iff_ranked_zero.mp hx)
      (hzero _).symm
    have hk0 : k = 0 := congrArg Prod.snd heq
    omega
  · intro h
    rintro ⟨x, j⟩ hx ⟨y, k⟩ hy heq
    cases j with
    | zero =>
      cases k with
      | zero =>
        have hxy : x = y := by
          rw [← hzero x, ← hzero y]
          exact heq
        rw [hxy]
      | succ k =>
        have hpos := pos_of_name_eq hzero h hx hy (by omega) heq
        omega
    | succ j =>
      cases k with
      | zero =>
        have hpos := pos_of_name_eq hzero h hy hx (by omega) heq.symm
        omega
      | succ k =>
        obtain ⟨hxy, hjk⟩ := hinj x y j k heq
        rw [hxy, hjk]

end Names

omit [DecidableEq α] in
/-- The part after the last separator is read off a list. -/
theorem append_sep_inj {c : α} {s t a b : List α} (hs : c ∉ s) (ht : c ∉ t)
    (h : a ++ c :: s = b ++ c :: t) : a = b ∧ s = t := by
  have hnil : ∀ {u v d : List α}, c ∉ u → c :: u = d ++ c :: v → d = [] := by
    intro u v d hu heq
    cases d with
    | nil => rfl
    | cons x d =>
      have htail : u = d ++ c :: v := (List.cons.inj heq).2
      exact absurd (by rw [htail]; simp) hu
  rcases List.append_eq_append_iff.mp h with ⟨d, hb, heq⟩ | ⟨d, ha, heq⟩
  · have hd := hnil hs heq
    subst hd
    exact ⟨by rw [hb, List.append_nil], (List.cons.inj heq).2⟩
  · have hd := hnil ht heq
    subst hd
    exact ⟨by rw [ha, List.append_nil], (List.cons.inj heq).2.symm⟩

end Occurrences
