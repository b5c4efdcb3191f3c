import Honeynet.Controller.Scoring
import Honeynet.Lib.BlockSelection
import Mathlib.Algebra.Order.Ring.Unbundled.Rat

/-!
# The order of candidates

* `FloatLaws`: what comparing floats promises.
* `candidateBefore_gapOrder`: candidates are compared level by level, and a gain or a telemetry
  value that is not a number compares with nothing.
-/

namespace Honeynet.Controller

open Selection

variable {F : Type}

/-- What the language promises of comparing floats: what is not a number compares with nothing, and
the others are in order, up to equality. -/
structure FloatLaws (fl : Floats F) : Prop where
  eq_symm : ∀ {x y}, fl.eq x y = true → fl.eq y x = true
  eq_trans : ∀ {x y z}, fl.eq x y = true → fl.eq y z = true → fl.eq x z = true
  lt_irrefl : ∀ x, fl.lt x x ≠ true
  lt_trans : ∀ {x y z}, fl.lt x y = true → fl.lt y z = true → fl.lt x z = true
  lt_of_lt_of_eq : ∀ {x y z}, fl.lt x y = true → fl.eq y z = true → fl.lt x z = true
  lt_of_eq_of_lt : ∀ {x y z}, fl.eq x y = true → fl.lt y z = true → fl.lt x z = true
  number_of_lt : ∀ {x y}, fl.lt x y = true → fl.eq x x = true ∧ fl.eq y y = true
  total : ∀ {x y}, fl.eq x x = true → fl.eq y y = true →
    fl.lt x y = true ∨ fl.eq x y = true ∨ fl.lt y x = true

theorem exactFloats_laws : FloatLaws exactFloats where
  eq_symm h := by
    simp only [exactFloats, beq_iff_eq] at h ⊢
    exact h.symm
  eq_trans h h' := by
    simp only [exactFloats, beq_iff_eq] at h h' ⊢
    exact h.trans h'
  lt_irrefl x := by simp [exactFloats]
  lt_trans h h' := by
    simp only [exactFloats, decide_eq_true_eq] at h h' ⊢
    exact h.trans h'
  lt_of_lt_of_eq h h' := by
    simp only [exactFloats, decide_eq_true_eq, beq_iff_eq] at h h' ⊢
    exact h.trans_eq h'
  lt_of_eq_of_lt h h' := by
    simp only [exactFloats, decide_eq_true_eq, beq_iff_eq] at h h' ⊢
    exact h.trans_lt h'
  number_of_lt _ := by simp [exactFloats]
  total _ _ := by
    simp only [exactFloats, decide_eq_true_eq, beq_iff_eq]
    exact lt_trichotomy _ _

/-- Compared by a float. -/
def floatLevel {α : Type} (fl : Floats F) (key : α → F) : Level α where
  same a b := fl.eq (key a) (key b) = true
  less a b := fl.lt (key a) (key b) = true

theorem FloatLaws.lawful {fl : Floats F} (h : FloatLaws fl) {α : Type} (key : α → F) :
    (floatLevel fl key).Lawful where
  symm := h.eq_symm
  same_trans := h.eq_trans
  irrefl a := h.lt_irrefl (key a)
  trans := h.lt_trans
  less_same := h.lt_of_lt_of_eq
  same_less := h.lt_of_eq_of_lt
  same_of_less := h.number_of_lt
  total := h.total

/-- Compared by a count, the higher first. -/
def countLevel {α : Type} (count : α → ℕ) : Level α := Level.ofKey fun a => -(count a : Int)

theorem lawful_countLevel {α : Type} (count : α → ℕ) : (countLevel count).Lawful :=
  Level.lawful_ofKey _

/-- The levels by which candidates are compared. -/
def candidateLevels (ctl : ControllerService F) : CandidateScore F → CandidateScore F → Prop :=
  (countLevel structuralPriorityRank).andThen <|
  (floatLevel ctl.float fun c => ctl.float.neg c.expectedTechniqueGain).andThen <|
  (countLevel CandidateScore.matchedDependencyMarkerCount).andThen <|
  (floatLevel ctl.float fun c => ctl.float.neg c.telemetryValue).andThen
    fun a b => a.exposedAssetId < b.exposedAssetId

theorem candidateBefore_iff {ctl : ControllerService F} (h : FloatLaws ctl.float)
    {a b : CandidateScore F} : candidateBefore ctl a b = true ↔ candidateLevels ctl a b := by
  have hcount : ∀ count : CandidateScore F → ℕ, (countLevel count).same a b ↔ count a = count b :=
    fun count => by
      simp only [countLevel, Level.ofKey]
      omega
  have hless : ∀ count : CandidateScore F → ℕ, (countLevel count).less a b ↔ count b < count a :=
    fun count => by
      simp only [countLevel, Level.ofKey]
      omega
  have hfloat : ∀ key : CandidateScore F → F,
      (floatLevel ctl.float key).same a b ↔ ctl.float.eq (key a) (key b) = true := fun _ => Iff.rfl
  rw [candidateLevels, (lawful_countLevel _).andThen_iff, (h.lawful _).andThen_iff,
    (lawful_countLevel _).andThen_iff, (h.lawful _).andThen_iff, candidateBefore]
  simp only [hcount, hless, hfloat]
  by_cases hrank : structuralPriorityRank a = structuralPriorityRank b
  · cases ctl.float.eq (ctl.float.neg a.expectedTechniqueGain)
        (ctl.float.neg b.expectedTechniqueGain) with
    | false => simp [hrank, floatLevel]
    | true =>
      by_cases hmarkers : a.matchedDependencyMarkerCount = b.matchedDependencyMarkerCount
      · cases ctl.float.eq (ctl.float.neg a.telemetryValue)
            (ctl.float.neg b.telemetryValue) with
        | false => simp [hrank, hmarkers, floatLevel]
        | true => simp [hrank, hmarkers]
      · simp [hrank, hmarkers]
  · simp [hrank]

theorem candidateBefore_gapOrder {ctl : ControllerService F} (h : FloatLaws ctl.float) :
    GapOrder fun a b => candidateBefore ctl a b = true := by
  have hlevels : GapOrder (candidateLevels ctl) :=
    (lawful_countLevel _).gapOrder <| (h.lawful _).gapOrder <| (lawful_countLevel _).gapOrder <|
      (h.lawful _).gapOrder <| gapOrder_key CandidateScore.exposedAssetId
  simpa only [candidateBefore_iff h] using hlevels

/-- A higher rank comes first. -/
theorem candidateBefore_of_rank (ctl : ControllerService F) {a b : CandidateScore F}
    (h : structuralPriorityRank b < structuralPriorityRank a) : candidateBefore ctl a b = true := by
  rw [candidateBefore]
  simp only [if_pos h.ne', decide_eq_true h]

theorem candidateBefore_eq_false_of_rank (ctl : ControllerService F) {a b : CandidateScore F}
    (h : structuralPriorityRank a < structuralPriorityRank b) :
    candidateBefore ctl a b = false := by
  rw [candidateBefore]
  simp only [if_pos h.ne, decide_eq_false h.asymm]

theorem selectCandidate_eq (ctl : ControllerService F) (candidates : List (CandidateScore F)) :
    selectCandidate ctl candidates = best (candidateBefore ctl) candidates := by
  cases candidates <;> rfl

end Honeynet.Controller
