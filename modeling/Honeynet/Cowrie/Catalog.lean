import Honeynet.Cowrie.SigmaMapping
import Honeynet.Lib.Occurrences

/-!
# The catalogue of generated rules

The rules of a folder get distinct names, and so do the rules of all folders together; the
catalogue then keeps the first rule of each name and technique.

* `dedupeRuleNames`: a repeated name gets its number at its end.
* `importFromRoots`: the rules of all configured folders, renamed for each folder and once more
  for all of them.
* `ensureLoaded`: the rules of the catalogue.
* `dedupeRuleNames_lossless_iff`: when the names are distinct and no rule is dropped.
* `ensureLoaded_importFromRoots`: rules with distinct names are loaded as they are.
-/

namespace Honeynet.Cowrie

open Collections Occurrences

/-- `f"{name}_{number}"`. -/
def numberedName (name : String) (number : ℕ) : String := name ++ "_" ++ toString number

/-- `seen` says how often a name has come up. -/
def dedupeRuleNamesFrom (seen : String → ℕ) : List CowrieCommandRule → List CowrieCommandRule
  | [] => []
  | rule :: rules =>
    let count := seen rule.name
    (if count = 0 then rule else { rule with name := numberedName rule.name (count + 1) }) ::
      dedupeRuleNamesFrom (Function.update seen rule.name (count + 1)) rules

def dedupeRuleNames (rules : List CowrieCommandRule) : List CowrieCommandRule :=
  dedupeRuleNamesFrom (fun _ => 0) rules

/-- The rules of the files of one folder. -/
def importSigmaCommandRules (files : List (List CowrieCommandRule)) : List CowrieCommandRule :=
  dedupeRuleNames files.flatten

/-- The rules of the folders that exist; one folder is not renamed a second time. -/
def importFromRoots : List (List (List CowrieCommandRule)) → List CowrieCommandRule
  | [files] => importSigmaCommandRules files
  | roots => dedupeRuleNames (roots.flatMap importSigmaCommandRules)

/-- What the catalogue tells rules apart by. -/
def CowrieCommandRule.key (rule : CowrieCommandRule) : String × String :=
  (rule.name, rule.techniqueId)

/-- The rules the catalogue keeps of what was imported. -/
def ensureLoaded (rules : List CowrieCommandRule) : List CowrieCommandRule :=
  dedupeBy CowrieCommandRule.key [] rules

/-! ### Names made -/

/-- The name a rule gets that `count` rules of its name come before. -/
def shownName (name : String) (count : ℕ) : String :=
  if count = 0 then name else numberedName name (count + 1)

/-- The name and the number are read off a name made. -/
theorem numberedName_inj {a b : String} {j k : ℕ} (h : numberedName a j = numberedName b k) :
    a = b ∧ j = k := by
  have hlist : ∀ (s : String) (n : ℕ),
      (numberedName s n).toList = s.toList ++ '_' :: Nat.toDigits 10 n := fun s n => by
    rw [numberedName, String.toList_append, String.toList_append, List.append_assoc,
      Nat.toString_eq_ofList_toDigits, String.toList_ofList, String.toList_ofList]
    rfl
  have hchars := congrArg String.toList h
  rw [hlist, hlist] at hchars
  obtain ⟨hname, hdigits⟩ := append_sep_inj Nat.underscore_not_in_toDigits
    Nat.underscore_not_in_toDigits hchars
  refine ⟨String.toList_inj.mp hname, ?_⟩
  rw [← Nat.ofDigitChars_ten_toDigits (n := j), hdigits, Nat.ofDigitChars_ten_toDigits]

theorem map_name_dedupeRuleNamesFrom (seen : String → ℕ) (rules : List CowrieCommandRule) :
    (dedupeRuleNamesFrom seen rules).map CowrieCommandRule.name =
      (ranked seen (rules.map CowrieCommandRule.name)).map fun e => shownName e.1 e.2 := by
  induction rules generalizing seen with
  | nil => rfl
  | cons rule rules ih =>
    have hname : (if seen rule.name = 0 then rule
        else { rule with name := numberedName rule.name (seen rule.name + 1) }).name =
        shownName rule.name (seen rule.name) := by
      rw [shownName]
      by_cases hcount : seen rule.name = 0
      · rw [if_pos hcount, if_pos hcount]
      · rw [if_neg hcount, if_neg hcount]
    rw [dedupeRuleNamesFrom, List.map_cons, hname, ih, List.map_cons, ranked, List.map_cons]

/-- Every rule stays, under a name of its own or another. -/
theorem length_dedupeRuleNames (rules : List CowrieCommandRule) :
    (dedupeRuleNames rules).length = rules.length := by
  have hfrom : ∀ seen, (dedupeRuleNamesFrom seen rules).length = rules.length := by
    induction rules with
    | nil => intro seen; rfl
    | cons rule rules ih =>
      intro seen
      rw [dedupeRuleNamesFrom, List.length_cons, List.length_cons, ih]
  exact hfrom _

/-- Apart from its name, a rule is not changed. -/
theorem map_match_dedupeRuleNames (rules : List CowrieCommandRule) :
    (dedupeRuleNames rules).map (fun rule => { rule with name := "" }) =
      rules.map fun rule => { rule with name := "" } := by
  have hfrom : ∀ seen, (dedupeRuleNamesFrom seen rules).map (fun rule => { rule with name := "" }) =
      rules.map fun rule => { rule with name := "" } := by
    induction rules with
    | nil => intro seen; rfl
    | cons rule rules ih =>
      intro seen
      rw [dedupeRuleNamesFrom, List.map_cons, List.map_cons, ih]
      by_cases hcount : seen rule.name = 0 <;> simp [hcount]
  exact hfrom _

/-! ### When no rule is lost -/

/-- No name made for a repeated name is a name of the list. -/
def NoNameMade (names : List String) : Prop :=
  ∀ name count, 0 < count → count < names.count name → numberedName name (count + 1) ∉ names

theorem nodup_dedupeRuleNames_iff (rules : List CowrieCommandRule) :
    ((dedupeRuleNames rules).map CowrieCommandRule.name).Nodup ↔
      NoNameMade (rules.map CowrieCommandRule.name) := by
  rw [dedupeRuleNames, map_name_dedupeRuleNamesFrom, nodup_map_ranked_iff]
  · refine forall_congr' fun name => forall_congr' fun count => forall_congr' fun hpos => ?_
    rw [shownName, if_neg (by omega)]
  · intro name
    rw [shownName, if_pos rfl]
  · intro a b j k h
    rw [shownName, shownName, if_neg (by omega), if_neg (by omega)] at h
    obtain ⟨hname, hnumber⟩ := numberedName_inj h
    exact ⟨hname, by omega⟩

theorem nodup_keys {rules : List CowrieCommandRule}
    (h : (rules.map CowrieCommandRule.name).Nodup) :
    (rules.map CowrieCommandRule.key).Nodup := by
  have hfst : (rules.map CowrieCommandRule.key).map Prod.fst =
      rules.map CowrieCommandRule.name := by
    rw [List.map_map]
    rfl
  rw [← hfst] at h
  exact h.of_map _

/-- **No rule is lost** exactly if no name made is a name of the list: then the rules are as many,
their names are distinct, and the catalogue keeps them all. -/
theorem dedupeRuleNames_lossless_iff (rules : List CowrieCommandRule) :
    ((dedupeRuleNames rules).length = rules.length ∧
      ((dedupeRuleNames rules).map CowrieCommandRule.name).Nodup ∧
      ensureLoaded (dedupeRuleNames rules) = dedupeRuleNames rules) ↔
    NoNameMade (rules.map CowrieCommandRule.name) := by
  rw [← nodup_dedupeRuleNames_iff]
  refine ⟨fun h => h.2.1, fun h => ⟨length_dedupeRuleNames rules, h, ?_⟩⟩
  exact dedupeBy_eq_self_iff.mpr ⟨nodup_keys h, fun _ _ => List.not_mem_nil⟩

/-- Distinct names stay. -/
theorem dedupeRuleNames_of_nodup {rules : List CowrieCommandRule}
    (h : (rules.map CowrieCommandRule.name).Nodup) : dedupeRuleNames rules = rules := by
  have hfrom : ∀ seen : String → ℕ, (∀ rule ∈ rules, seen rule.name = 0) →
      dedupeRuleNamesFrom seen rules = rules := by
    induction rules with
    | nil => intro seen _; rfl
    | cons rule rules ih =>
      intro seen hseen
      rw [List.map_cons, List.nodup_cons] at h
      rw [dedupeRuleNamesFrom, if_pos (hseen rule List.mem_cons_self), ih h.2]
      intro other hother
      have hne : other.name ≠ rule.name := fun heq =>
        h.1 (heq ▸ List.mem_map.mpr ⟨other, hother, rfl⟩)
      rw [Function.update_of_ne hne]
      exact hseen other (List.mem_cons_of_mem rule hother)
  exact hfrom _ fun _ _ => rfl

/-- Folders whose rules have distinct names are loaded as they are, each rule of them. -/
theorem ensureLoaded_importFromRoots {roots : List (List (List CowrieCommandRule))}
    (h : (roots.flatten.flatten.map CowrieCommandRule.name).Nodup) :
    ensureLoaded (importFromRoots roots) = roots.flatten.flatten := by
  have hfolders : roots.flatMap importSigmaCommandRules = roots.flatten.flatten := by
    induction roots with
    | nil => rfl
    | cons files roots ih =>
      rw [List.flatten_cons, List.flatten_append, List.map_append, List.nodup_append] at h
      rw [List.flatMap_cons, importSigmaCommandRules, dedupeRuleNames_of_nodup h.1, ih h.2.1,
        List.flatten_cons, List.flatten_append]
  have hrules : importFromRoots roots = roots.flatten.flatten := by
    have hall : dedupeRuleNames (roots.flatMap importSigmaCommandRules) =
        roots.flatten.flatten := by
      rw [hfolders, dedupeRuleNames_of_nodup h]
    match roots with
    | [] => exact hall
    | [files] =>
      show importSigmaCommandRules files = _
      rw [← hfolders, List.flatMap_cons, List.flatMap_nil, List.append_nil]
    | files :: files' :: roots => exact hall
  rw [hrules]
  exact dedupeBy_eq_self_iff.mpr ⟨nodup_keys h, fun _ _ => List.not_mem_nil⟩

/-- A rule that forgets the history of a shell. -/
def clearHistory : CowrieCommandRule where
  name := "clear_history_keywords_t1070_003"
  techniqueId := "T1070.003"
  confidence := "medium"
  «match» := { commandLineContainsAny := ["history -c".toList] }
  sourceRefs := []
  excludeMatch := none

/-- A folder with two rules of one name, and one more rule of that name in another folder. -/
theorem second_folder_lost : ¬ ∀ rules : List CowrieCommandRule,
    (dedupeRuleNames rules).length = rules.length ∧
      ((dedupeRuleNames rules).map CowrieCommandRule.name).Nodup ∧
      ensureLoaded (dedupeRuleNames rules) = dedupeRuleNames rules := by
  intro h
  have hnames := (h (dedupeRuleNames [clearHistory, clearHistory] ++
    dedupeRuleNames [clearHistory])).2.1
  revert hnames
  decide

end Honeynet.Cowrie
