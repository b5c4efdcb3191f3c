import Honeynet.Common.Value
import Mathlib.Data.List.Basic

/-!
# Places inside a JSON value

A path leads from a value through the keys of objects and the indices of lists.

* `Value.at?`: what stands at a path.
* `Value.substitute`: the value with something else at the path.
* `Value.substitute_inj`: a substitution at a place that is there can be read back.
-/

namespace Honeynet

/-- One step into a JSON value. -/
inductive PathStep
  | key (name : String)
  | index (i : ℕ)
  deriving DecidableEq, Repr

namespace Value

/-- `value[step]`. -/
def child : Value → PathStep → Option Value
  | dict d, .key k => List.lookup k d
  | list xs, .index i => xs[i]?
  | _, _ => Option.none

/-- The value with its part at `step` changed. -/
def modifyChild (f : Value → Value) : Value → PathStep → Value
  | dict d, .key k => dict (d.map fun e => if e.1 = k then (e.1, f e.2) else e)
  | list xs, .index i => list (xs.modify i f)
  | x, _ => x

def at? (x : Value) : List PathStep → Option Value
  | [] => some x
  | step :: path => (x.child step).bind fun y => y.at? path

def substitute (v : Value) : List PathStep → Value → Value
  | [], _ => v
  | step :: path, x => x.modifyChild (substitute v path) step

theorem mem_of_lookup {d : List (String × Value)} {k : String} {y : Value}
    (h : List.lookup k d = some y) : (k, y) ∈ d := by
  obtain ⟨before, after, heq, -⟩ := List.lookup_eq_some_iff.mp h
  rw [heq]
  exact List.mem_append_right _ List.mem_cons_self

/-- Two changes of a part that is there only agree where they make the same of it. -/
theorem modifyChild_inj {f g : Value → Value} {x y : Value} {step : PathStep}
    (hy : x.child step = some y) (h : x.modifyChild f step = x.modifyChild g step) :
    f y = g y := by
  cases x with
  | dict d =>
    cases step with
    | key k =>
      have hmem : (k, y) ∈ d := mem_of_lookup hy
      have hpoint := List.map_inj_left.mp (Value.dict.inj h) (k, y) hmem
      rw [if_pos rfl, if_pos rfl] at hpoint
      exact (Prod.mk.inj hpoint).2
    | index i => exact absurd hy (by simp [child])
  | list xs =>
    cases step with
    | key k => exact absurd hy (by simp [child])
    | index i =>
      have hget : xs[i]? = some y := hy
      have hpoint := congrArg (fun l : List Value => l[i]?) (Value.list.inj h)
      simp only [List.getElem?_modify_eq, hget] at hpoint
      exact Option.some.inj hpoint
  | none => exact absurd hy (by simp [child])
  | bool b => exact absurd hy (by simp [child])
  | int n => exact absurd hy (by simp [child])
  | float q => exact absurd hy (by simp [child])
  | str s => exact absurd hy (by simp [child])

/-- **What is put at a place that is there can be told from the result.** -/
theorem substitute_inj {path : List PathStep} {x : Value} (hpath : (x.at? path).isSome)
    {v w : Value} (h : substitute v path x = substitute w path x) : v = w := by
  induction path generalizing x with
  | nil => exact h
  | cons step path ih =>
    obtain ⟨z, hz⟩ := Option.isSome_iff_exists.mp hpath
    obtain ⟨y, hy, hat⟩ := Option.bind_eq_some_iff.mp hz
    exact ih (Option.isSome_iff_exists.mpr ⟨z, hat⟩) (modifyChild_inj hy h)

end Value

end Honeynet
