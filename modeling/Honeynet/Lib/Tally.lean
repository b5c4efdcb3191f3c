import Honeynet.Lib.Collections
import Mathlib.Algebra.Order.BigOperators.Group.List

/-!
# Counting in a loop

A loop counts into one counter, or into one of several counters under a key.

* `foldlM_tally`: what a loop has counted in the end is the sum of what its steps count.
* `sum_values_set`: one counter of several counts.
* `sum_map_eq_iff`: sums of terms that are no less are equal iff all the terms are.
-/

namespace Tally

open Collections

section Loop

variable {α σ M : Type*} [AddCommMonoid M]

/-- **What a loop counts**: `μ` is the count, `P` what every step keeps. -/
theorem foldlM_tally {step : σ → α → Option σ} {P : σ → Prop} {μ : σ → M} {g : α → M}
    (hstep : ∀ s x, P s → ∃ s', step s x = some s' ∧ P s' ∧ μ s' = μ s + g x) (xs : List α)
    {s : σ} (hs : P s) :
    ∃ s', xs.foldlM step s = some s' ∧ P s' ∧ μ s' = μ s + (xs.map g).sum := by
  induction xs generalizing s with
  | nil => exact ⟨s, rfl, hs, by rw [List.map_nil, List.sum_nil, add_zero]⟩
  | cons x xs ih =>
    obtain ⟨t, ht, hP, hμ⟩ := hstep s x hs
    obtain ⟨u, hu, hP', hμ'⟩ := ih hP
    refine ⟨u, ?_, hP', ?_⟩
    · rw [List.foldlM_cons, ht]
      exact hu
    · rw [hμ', hμ, List.map_cons, List.sum_cons, add_assoc]

theorem sum_flatMap_map {β : Type*} (f : α → List β) (g : β → M) (xs : List α) :
    ((xs.flatMap f).map g).sum = (xs.map fun x => ((f x).map g).sum).sum := by
  induction xs with
  | nil => rfl
  | cons x xs ih =>
    rw [List.flatMap_cons, List.map_append, List.sum_append, ih, List.map_cons, List.sum_cons]

end Loop

section Counters

variable {κ σ M : Type*} [DecidableEq κ] [AddCommMonoid M]

/-- **One counter of several counts**, and so do all of them together. -/
theorem sum_values_set {d : Dict κ σ} {k : κ} {s s' : σ} {μ : σ → M} {x : M}
    (h : d.lookup k = some s) (hμ : μ s' = μ s + x) :
    ((Dict.set d k s').map fun e => μ e.2).sum = (d.map fun e => μ e.2).sum + x := by
  induction d with
  | nil => cases h
  | cons e d ih =>
    rw [lookup_cons_eq] at h
    rw [Dict.set]
    by_cases he : e.1 = k
    · rw [if_pos he.symm] at h
      obtain rfl := Option.some.inj h
      rw [if_pos he, List.map_cons, List.map_cons, List.sum_cons, List.sum_cons, hμ, add_right_comm]
    · rw [if_neg (Ne.symm he)] at h
      rw [if_neg he, List.map_cons, List.map_cons, List.sum_cons, List.sum_cons, ih h, add_assoc]

theorem keys_set_of_lookup {d : Dict κ σ} {k : κ} {s : σ} (h : d.lookup k = some s) (s' : σ) :
    (Dict.set d k s').map Prod.fst = d.map Prod.fst := by
  have hk : k ∈ d.map Prod.fst := lookup_isSome_iff.mp (h ▸ rfl)
  rw [keys_set, addNew, if_pos hk]

end Counters

section Order

variable {α M : Type*} [AddCommMonoid M] [PartialOrder M] [IsOrderedCancelAddMonoid M]

/-- **Sums of terms that are no less** are equal iff all the terms are. -/
theorem sum_map_eq_iff {f g : α → M} {xs : List α} (hle : ∀ x ∈ xs, f x ≤ g x) :
    (xs.map f).sum = (xs.map g).sum ↔ ∀ x ∈ xs, f x = g x := by
  induction xs with
  | nil => exact iff_of_true rfl fun x hx => absurd hx List.not_mem_nil
  | cons x xs ih =>
    have hrest : ∀ y ∈ xs, f y ≤ g y := fun y hy => hle y (List.mem_cons_of_mem x hy)
    rw [List.map_cons, List.map_cons, List.sum_cons, List.sum_cons,
      add_eq_add_iff_eq_and_eq (hle x List.mem_cons_self) (List.sum_le_sum hrest), ih hrest,
      List.forall_mem_cons]

end Order

end Tally
