import Mathlib.Logic.Relation

/-!
# Runs of a transition relation

`Relation.ReflTransGen step` is a run of any length.

* `invariant_of_step`: what each step keeps, each run keeps.
-/

namespace Transition

open Relation

variable {σ : Type*} {step : σ → σ → Prop}

theorem invariant_of_step {P : σ → Prop} (hstep : ∀ s t, step s t → P s → P t) {s t : σ}
    (h : ReflTransGen step s t) (hs : P s) : P t := by
  induction h with
  | refl => exact hs
  | tail _ hlast ih => exact hstep _ _ hlast ih

end Transition
