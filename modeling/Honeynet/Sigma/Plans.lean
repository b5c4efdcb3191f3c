import Honeynet.Common.Value
import Honeynet.Lib.Text

/-!
# Selection plans of a Sigma detection

The translator the Cowrie, HTTP and high-interaction mappers share.  It cuts the
text of a condition at `or` and at `and` and reads each term by its first words.

* `sigmaSelectionPlans`: the plans of a detection.
* `exists_accepting_plan_iff`: which valuations some plan of an `and` branch accepts, in terms
  of what its terms are read as.

`lower` is `str.lower` and `render` is `str` of a value that is not a string.
-/

namespace Honeynet.Sigma

open Collections Text

/-- One supported branch of a detection condition. -/
structure SigmaSelectionPlan where
  name : List Char
  positives : List Value
  negatives : List Value

/-- The selections of a detection under their lower-case names. -/
abbrev Selections := Dict (List Char) Value

/-- `isinstance(value, (dict, list))`. -/
def isSelection : Value → Bool
  | .dict _ => true
  | .list _ => true
  | _ => false

def namedSelections (lower : String → String) (detection : Settings) : Selections :=
  (detection.filter fun e => lower e.1 != "condition" && isSelection e.2).foldl
    (fun d e => Dict.set d (lower e.1).toList e.2) []

def normalizeCondition (lower : String → String) (condition : String) : List Char :=
  joinWords (words (blankParens (lower condition).toList))

def isFilterName (name : List Char) : Bool := contains "filter".toList name

def selectionNamesForPattern (pattern : List Char) (selections : Selections)
    (includeFilters : Bool) : List (List Char) :=
  let names := selections.map Prod.fst
  let names := if includeFilters then names else names.filter fun name => !isFilterName name
  if pattern = "them".toList then names
  else if pattern.getLast? = some '*' then
    names.filter fun name => pattern.dropLast.isPrefixOf name
  else if pattern ∈ names ∧ (includeFilters ∨ isFilterName pattern = false) then [pattern]
  else []

def selectionNamesForTerm (term : List Char) (selections : Selections) (includeFilters : Bool) :
    List (List Char) :=
  if "all of ".toList.isPrefixOf term then
    selectionNamesForPattern (strip (removePrefix "all of ".toList term)) selections includeFilters
  else if "1 of ".toList.isPrefixOf term then
    selectionNamesForPattern (strip (removePrefix "1 of ".toList term)) selections includeFilters
  else selectionNamesForPattern term selections includeFilters

def positiveNameOptionsForTerm (term : List Char) (selections : Selections) :
    List (List (List Char)) :=
  if "1 of ".toList.isPrefixOf term then
    (selectionNamesForTerm (strip (removePrefix "1 of ".toList term)) selections false).map
      fun name => [name]
  else [selectionNamesForTerm term selections false]

/-- What one round of the loop over the terms of a branch appends to. -/
inductive TermReading
  | positive (options : List (List (List Char)))
  | negative (name : List Char)

def negativeReading : List (List Char) → Option TermReading
  | [name] => some (.negative name)
  | _ => none

def positiveReading : List (List (List Char)) → Option TermReading
  | [] => none
  | option :: options => some (.positive (option :: options))

/-- One round of that loop; `none` where the source returns no plan. -/
def readTerm (selections : Selections) (term : List Char) : Option TermReading :=
  let term := strip term
  if term = [] then none
  else if "not ".toList.isPrefixOf term then
    negativeReading
      (selectionNamesForTerm (strip (removePrefix "not ".toList term)) selections true)
  else positiveReading (positiveNameOptionsForTerm term selections)

def readTerms (selections : Selections) : List (List Char) → Option (List TermReading)
  | [] => some []
  | term :: terms =>
    match readTerm selections term with
    | none => none
    | some r => (readTerms selections terms).map (r :: ·)

def positiveOptions : List TermReading → List (List (List (List Char)))
  | [] => []
  | .positive options :: rs => options :: positiveOptions rs
  | .negative _ :: rs => positiveOptions rs

def negativeNames : List TermReading → List (List Char)
  | [] => []
  | .positive _ :: rs => negativeNames rs
  | .negative name :: rs => name :: negativeNames rs

/-- The plan of one choice of options.  Its names are keys of the selections. -/
def planOf (selections : Selections) (negatives : List (List Char))
    (optionGroup : List (List (List Char))) : Option SigmaSelectionPlan :=
  let positiveNames := appendNew [] optionGroup.flatten
  if positiveNames = [] then none
  else some {
    name := "_and_".toList.intercalate (positiveNames ++ negatives)
    positives := positiveNames.filterMap fun name => selections.get? name
    negatives := negatives.filterMap fun name => selections.get? name }

def plansFromAndBranch (branch : List Char) (selections : Selections) : List SigmaSelectionPlan :=
  match readTerms selections (reSplit "and".toList branch) with
  | none => []
  | some rs =>
    if positiveOptions rs = [] then []
    else (product (positiveOptions rs)).filterMap (planOf selections (negativeNames rs))

/-- `str(detection.get("condition", ""))`. -/
def conditionText (render : Value → String) (detection : Settings) : String :=
  match detection.lookup "condition" with
  | none => ""
  | some (.str s) => s
  | some v => render v

def sigmaSelectionPlans (lower : String → String) (render : Value → String)
    (detection : Settings) : List SigmaSelectionPlan :=
  let selections := namedSelections lower detection
  let condition := normalizeCondition lower (conditionText render detection)
  if condition = [] then
    (selections.filter fun e => !isFilterName e.1).map fun e => ⟨e.1, [e.2], []⟩
  else (reSplit "or".toList condition).flatMap fun branch => plansFromAndBranch branch selections

/-! ### What a plan accepts -/

/-- All positive selections are true and all negative ones false. -/
def SigmaSelectionPlan.Accepts (truth : Value → Prop) (plan : SigmaSelectionPlan) : Prop :=
  (∀ s ∈ plan.positives, truth s) ∧ ∀ s ∈ plan.negatives, ¬ truth s

/-- The selection called `name` is true. -/
def Selections.True (selections : Selections) (truth : Value → Prop) (name : List Char) : Prop :=
  ∃ s, selections.get? name = some s ∧ truth s

/-- A choice of options whose names are all true and at least one of them. -/
def TrueChoice (selections : Selections) (truth : Value → Prop)
    (choice : List (List (List Char))) : Prop :=
  (∀ option ∈ choice, ∀ name ∈ option, selections.True truth name) ∧
    ∃ option ∈ choice, option ≠ []

section Spec

variable {selections : Selections} {truth : Value → Prop}

theorem selectionNamesForPattern_subset {pattern : List Char} {includeFilters : Bool}
    {name : List Char}
    (h : name ∈ selectionNamesForPattern pattern selections includeFilters) :
    name ∈ selections.map Prod.fst := by
  have hsub : ∀ n ∈ (if includeFilters then selections.map Prod.fst
      else (selections.map Prod.fst).filter fun name => !isFilterName name),
      n ∈ selections.map Prod.fst := by
    intro n hn
    cases includeFilters with
    | false => exact List.mem_of_mem_filter hn
    | true => exact hn
  rw [selectionNamesForPattern] at h
  generalize (if includeFilters then selections.map Prod.fst
      else (selections.map Prod.fst).filter fun name => !isFilterName name) = names at h hsub
  split_ifs at h with h₁ h₂ h₃
  · exact hsub name h
  · exact hsub name (List.mem_of_mem_filter h)
  · exact List.mem_singleton.mp h ▸ hsub pattern h₃.1
  · exact absurd h List.not_mem_nil

theorem selectionNamesForTerm_subset {term : List Char} {includeFilters : Bool} {name : List Char}
    (h : name ∈ selectionNamesForTerm term selections includeFilters) :
    name ∈ selections.map Prod.fst := by
  rw [selectionNamesForTerm] at h
  split_ifs at h <;> exact selectionNamesForPattern_subset h

theorem positiveNameOptionsForTerm_subset {term : List Char} {option : List (List Char)}
    (h : option ∈ positiveNameOptionsForTerm term selections) :
    ∀ name ∈ option, name ∈ selections.map Prod.fst := by
  intro name hname
  rw [positiveNameOptionsForTerm] at h
  split_ifs at h
  · obtain ⟨n, hn, rfl⟩ := List.mem_map.mp h
    rw [List.mem_singleton.mp hname]
    exact selectionNamesForTerm_subset hn
  · rw [List.mem_singleton.mp h] at hname
    exact selectionNamesForTerm_subset hname

theorem negativeReading_ne_positive {names : List (List Char)}
    {options : List (List (List Char))} :
    negativeReading names ≠ some (.positive options) := by
  match names with
  | [] => simp [negativeReading]
  | [name] => simp [negativeReading]
  | _ :: _ :: _ => simp [negativeReading]

theorem eq_of_positiveReading {offered options : List (List (List Char))}
    (h : positiveReading offered = some (.positive options)) : offered = options := by
  cases offered with
  | nil => simp [positiveReading] at h
  | cons o os => simpa [positiveReading] using h

theorem readTerm_positive_subset {term : List Char} {options : List (List (List Char))}
    (h : readTerm selections term = some (.positive options)) :
    ∀ option ∈ options, ∀ name ∈ option, name ∈ selections.map Prod.fst := by
  intro option hoption
  rw [readTerm] at h
  split_ifs at h
  · exact absurd h negativeReading_ne_positive
  · exact positiveNameOptionsForTerm_subset (eq_of_positiveReading h ▸ hoption)

theorem readTerms_positive_subset {terms : List (List Char)} {rs : List TermReading}
    (h : readTerms selections terms = some rs) :
    ∀ options ∈ positiveOptions rs, ∀ option ∈ options, ∀ name ∈ option,
      name ∈ selections.map Prod.fst := by
  induction terms generalizing rs with
  | nil =>
    obtain rfl : [] = rs := by simpa [readTerms] using h
    simp [positiveOptions]
  | cons term terms ih =>
    rw [readTerms] at h
    cases hr : readTerm selections term with
    | none => simp [hr] at h
    | some r =>
      simp only [hr, Option.map_eq_some_iff] at h
      obtain ⟨rs', hrs', rfl⟩ := h
      cases r with
      | negative name =>
        rw [positiveOptions]
        exact ih hrs'
      | positive options =>
        intro o ho
        rcases List.mem_cons.mp ho with rfl | ho
        · exact readTerm_positive_subset hr
        · exact ih hrs' o ho

theorem true_of_key {name : List Char} (h : name ∈ selections.map Prod.fst) :
    selections.True truth name ↔ ∀ s, selections.get? name = some s → truth s := by
  obtain ⟨s, hs⟩ := Option.isSome_iff_exists.mp (lookup_isSome_iff.mpr h)
  constructor
  · rintro ⟨s', hs', ht⟩ s'' hs''
    rwa [← Option.some.inj (hs'.symm.trans hs'')]
  · intro hall
    exact ⟨s, hs, hall s hs⟩

theorem mem_chosenNames {choice : List (List (List Char))} {name : List Char} :
    name ∈ appendNew [] choice.flatten ↔ ∃ option ∈ choice, name ∈ option := by
  simp [List.mem_flatten]

theorem chosenNames_eq_nil {choice : List (List (List Char))} :
    appendNew [] choice.flatten = [] ↔ ¬ ∃ option ∈ choice, option ≠ [] := by
  rw [List.eq_nil_iff_forall_not_mem]
  constructor
  · rintro h ⟨option, ho, hne⟩
    obtain ⟨name, hn⟩ := List.exists_mem_of_ne_nil option hne
    exact h name (mem_chosenNames.mpr ⟨option, ho, hn⟩)
  · intro h name hn
    obtain ⟨option, ho, hno⟩ := mem_chosenNames.mp hn
    exact h ⟨option, ho, List.ne_nil_of_mem hno⟩

/-- The positive selections of a plan are those of its options. -/
theorem positives_true_iff {choice : List (List (List Char))}
    (hkeys : ∀ option ∈ choice, ∀ name ∈ option, name ∈ selections.map Prod.fst) :
    (∀ s ∈ (appendNew [] choice.flatten).filterMap fun n => selections.get? n, truth s) ↔
      ∀ option ∈ choice, ∀ name ∈ option, selections.True truth name := by
  constructor
  · intro h option ho name hn
    rw [true_of_key (hkeys option ho name hn)]
    intro s hs
    exact h s (List.mem_filterMap.mpr ⟨name, mem_chosenNames.mpr ⟨option, ho, hn⟩, hs⟩)
  · intro h s hs
    obtain ⟨name, hn, hl⟩ := List.mem_filterMap.mp hs
    obtain ⟨option, ho, hno⟩ := mem_chosenNames.mp hn
    exact (true_of_key (hkeys option ho name hno)).mp (h option ho name hno) s hl

theorem negatives_false_iff {negatives : List (List Char)} :
    (∀ s ∈ negatives.filterMap fun n => selections.get? n, ¬ truth s) ↔
      ∀ name ∈ negatives, ¬ selections.True truth name := by
  constructor
  · rintro h name hn ⟨s, hs, ht⟩
    exact h s (List.mem_filterMap.mpr ⟨name, hn, hs⟩) ht
  · intro h s hs ht
    obtain ⟨name, hn, hl⟩ := List.mem_filterMap.mp hs
    exact h name hn ⟨s, hl, ht⟩

theorem planOf_accepts_iff {negatives : List (List Char)} {choice : List (List (List Char))}
    (hkeys : ∀ option ∈ choice, ∀ name ∈ option, name ∈ selections.map Prod.fst) :
    (∃ plan, planOf selections negatives choice = some plan ∧ plan.Accepts truth) ↔
      TrueChoice selections truth choice ∧ ∀ name ∈ negatives, ¬ selections.True truth name := by
  rw [planOf]
  by_cases hc : appendNew [] choice.flatten = []
  · simp only [if_pos hc]
    constructor
    · rintro ⟨plan, hplan, _⟩
      exact absurd hplan (by simp)
    · rintro ⟨⟨_, hne⟩, _⟩
      exact absurd hne (chosenNames_eq_nil.mp hc)
  · simp only [if_neg hc, Option.some.injEq, exists_eq_left', SigmaSelectionPlan.Accepts]
    rw [positives_true_iff hkeys, negatives_false_iff, TrueChoice]
    have hsome : ∃ option ∈ choice, option ≠ [] := by
      by_contra hno
      exact hc (chosenNames_eq_nil.mpr hno)
    exact ⟨fun h => ⟨⟨h.1, hsome⟩, h.2⟩, fun h => ⟨h.1.1, h.2⟩⟩

/-- **The valuations an `and` branch accepts**: every term is read, the negated names are false,
and one option of each positive term is true. -/
theorem exists_accepting_plan_iff {branch : List Char} :
    (∃ plan ∈ plansFromAndBranch branch selections, plan.Accepts truth) ↔
      ∃ rs, readTerms selections (reSplit "and".toList branch) = some rs ∧
        (∃ choice, List.Forall₂ (· ∈ ·) choice (positiveOptions rs) ∧
          TrueChoice selections truth choice) ∧
        ∀ name ∈ negativeNames rs, ¬ selections.True truth name := by
  rw [plansFromAndBranch]
  cases hrs : readTerms selections (reSplit "and".toList branch) with
  | none => simp
  | some rs =>
    have hkeys := readTerms_positive_subset hrs
    have hchoice : ∀ choice, List.Forall₂ (· ∈ ·) choice (positiveOptions rs) →
        ∀ option ∈ choice, ∀ name ∈ option, name ∈ selections.map Prod.fst := by
      intro choice hall option ho
      obtain ⟨options, hm, hoo⟩ := mem_of_forall₂ hall ho
      exact hkeys options hm option hoo
    simp only [Option.some.injEq, exists_eq_left']
    constructor
    · rintro ⟨plan, hplan, hacc⟩
      by_cases hne : positiveOptions rs = []
      · simp [hne] at hplan
      · rw [if_neg hne, List.mem_filterMap] at hplan
        obtain ⟨choice, hmem, hof⟩ := hplan
        have hall := mem_product.mp hmem
        obtain ⟨htrue, hneg⟩ := (planOf_accepts_iff (hchoice choice hall)).mp ⟨plan, hof, hacc⟩
        exact ⟨⟨choice, hall, htrue⟩, hneg⟩
    · rintro ⟨⟨choice, hall, htrue⟩, hneg⟩
      obtain ⟨plan, hof, hacc⟩ :=
        (planOf_accepts_iff (hchoice choice hall)).mpr ⟨htrue, hneg⟩
      have hne : positiveOptions rs ≠ [] := by
        intro hnil
        rw [hnil, List.forall₂_nil_right_iff] at hall
        obtain ⟨option, ho, _⟩ := htrue.2
        rw [hall] at ho
        exact absurd ho List.not_mem_nil
      rw [if_neg hne]
      exact ⟨plan, List.mem_filterMap.mpr ⟨choice, mem_product.mpr hall, hof⟩, hacc⟩

end Spec

end Honeynet.Sigma
