import Honeynet.Cowrie.Command
import Mathlib.Data.Char
import Mathlib.Data.List.Lex
import Mathlib.Data.List.Sort

/-!
# Sigma selections as command matches

A selection that can be evaluated from one command line becomes a match; the matches of a plan
are merged into one rule.

* `matchFromSigmaSelection`: the match of one selection, empty when it cannot be converted.
* `mergeMatchPayloads`, `mergeOrMatchPayloads`: the match of all positive selections, and of any
  filter.
* `sigmaRuleToCommandRules`: the rules of one Sigma rule.
-/

namespace Honeynet.Cowrie

open Collections Text Honeynet.Sigma

/-- `sorted(set(xs))`. -/
def sortedSet (xs : List (List Char)) : List (List Char) :=
  (appendNew [] xs).insertionSort (· ≤ ·)

theorem mem_sortedSet {xs : List (List Char)} {x : List Char} : x ∈ sortedSet xs ↔ x ∈ xs := by
  rw [sortedSet, List.mem_insertionSort, mem_appendNew]
  simp

theorem sortedSet_eq_nil {xs : List (List Char)} : sortedSet xs = [] ↔ xs = [] := by
  rw [List.eq_nil_iff_forall_not_mem, List.eq_nil_iff_forall_not_mem]
  simp only [mem_sortedSet]

def isProcessNameField (field : String) : Bool :=
  field ∈ ["image", "process_name", "process_executable"]

def isCommandLineField (field : String) : Bool :=
  field ∈ ["commandline", "command_line", "process_command_line", "cmdline"]

/-- `re.fullmatch(r"a\d+", field)`, with its index. -/
def auditdArg? (field : String) : Option ℕ :=
  match field.toList with
  | 'a' :: d :: ds =>
    if (d :: ds).all Char.isDigit then
      some ((d :: ds).foldl (fun n d => 10 * n + (d.toNat - '0'.toNat)) 0)
    else none
  | _ => none

/-- One process name; empty when nothing is left of the value. -/
def processNameFromValue (py : Builtins) (value : List Char) : List Char :=
  let cleanValue := ((value.dropWhile (· == '*')).reverse.dropWhile (· == '*')).reverse.map
    fun c => if c = '\\' then '/' else c
  let processName := py.lowerText ((cleanValue.splitOn '/').getLastD [])
  if ".exe".toList.isSuffixOf processName then processName.dropLast.dropLast.dropLast.dropLast
  else processName

def processNamesFromValues (py : Builtins) (values : List (List Char)) : List (List Char) :=
  (values.map (processNameFromValue py)).filter fun name => name != []

def containsAllRegex (py : Builtins) (values : List (List Char)) : List Char :=
  Regex.allAhead (values.map py.lowerText)

def nonempty (values : List (List Char)) : List (List Char) := values.filter fun v => v != []

def containsEachGroupRegex (py : Builtins) (groups : List (List (List Char))) : List Char :=
  Regex.anyAhead ((groups.map fun values =>
    (nonempty values).map fun v => reEscape (py.lowerText v)).filter fun options => options != [])

def caseInsensitiveRegex (value : List Char) : List Char :=
  if Regex.ignoreCaseFlag.isPrefixOf value then value else Regex.ignoreCaseFlag ++ value

def keywordRegexes (py : Builtins) (selection : Value) : List (List Char) :=
  (sigmaStringValues selection).map (sigmaKeywordToRegex py)

/-- What the items of a mapping have collected. -/
structure Buckets where
  processNames : List (List Char) := []
  containsAny : List (List Char) := []
  regexAny : List (List Char) := []
  requiredArgGroups : List (List (List Char)) := []

def Buckets.append (a b : Buckets) : Buckets where
  processNames := a.processNames ++ b.processNames
  containsAny := a.containsAny ++ b.containsAny
  regexAny := a.regexAny ++ b.regexAny
  requiredArgGroups := a.requiredArgGroups ++ b.requiredArgGroups

/-- What a command-line condition adds. -/
def commandLinePart (py : Builtins) (modifiers : List String) (values : List (List Char)) :
    Option Buckets :=
  if "contains" ∈ modifiers ∧ "all" ∈ modifiers then
    some { regexAny := [containsAllRegex py values] }
  else if "contains" ∈ modifiers then some { containsAny := values.map py.lowerText }
  else if "re" ∈ modifiers ∨ "regex" ∈ modifiers then
    some { regexAny := values.map caseInsensitiveRegex }
  else if "startswith" ∈ modifiers then
    some { regexAny := values.map fun v => '^' :: reEscape (py.lowerText v) }
  else if "endswith" ∈ modifiers then
    some { regexAny := values.map fun v => reEscape (py.lowerText v) ++ ['$'] }
  else if modifiers = [] then
    some { regexAny := values.map fun v => '^' :: (reEscape (py.lowerText v) ++ ['$']) }
  else none

/-- What one item of a mapping adds; `none` where the source returns no match. -/
def conditionPart (py : Builtins) (condition : String × Value) : Option Buckets :=
  let (field, modifiers) := splitSigmaField py condition.1
  let values := sigmaValues py condition.2
  if values = [] then none
  else if field = "type" then if "execve".toList ∈ values then some {} else none
  else
    match auditdArg? field with
    | some index =>
      if index = 0 then some { processNames := processNamesFromValues py values }
      else some { requiredArgGroups := [values] }
    | none =>
      if isProcessNameField field then some { processNames := processNamesFromValues py values }
      else if isCommandLineField field then commandLinePart py modifiers values
      else none

def selectionBuckets (py : Builtins) : List (String × Value) → Option Buckets
  | [] => some {}
  | condition :: rest =>
    match conditionPart py condition, selectionBuckets py rest with
    | some part, some buckets => some (part.append buckets)
    | _, _ => none

def matchFromSigmaSelection (py : Builtins) (selection : Value) : CommandMatch :=
  match selection with
  | .dict conditions =>
    match selectionBuckets py conditions with
    | none => {}
    | some b => {
        processNames := sortedSet b.processNames
        commandLineContainsAny := sortedSet b.containsAny
        commandLineRegexAny := sortedSet (b.regexAny ++
          if b.requiredArgGroups = [] then []
          else [containsEachGroupRegex py b.requiredArgGroups]) }
  | _ => { commandLineRegexAny := keywordRegexes py selection }

/-- The match a stored payload is loaded as. -/
def loadMatch (py : Builtins) (payload : CommandMatch) : CommandMatch where
  processNames := payload.processNames.map py.lowerText
  commandLineContainsAny := payload.commandLineContainsAny.map py.lowerText
  commandLineRegexAny := payload.commandLineRegexAny

theorem loadMatch_eq_empty {py : Builtins} {payload : CommandMatch} :
    loadMatch py payload = {} ↔ payload = {} := by
  obtain ⟨names, tokens, patterns⟩ := payload
  simp [loadMatch]

/-! ### Merging -/

def matchesFromSelections (py : Builtins) (selections : List Value) : List CommandMatch :=
  (selections.map (matchFromSigmaSelection py)).filter fun m => m != {}

/-- The names all matches with names allow: `none` before the first of them, and the empty list
once two of them have nothing in common. -/
def intersectNames : Option (List (List Char)) → List CommandMatch → Option (List (List Char))
  | names, [] => names
  | names, m :: ms =>
    if m.processNames = [] then intersectNames names ms
    else
      let common :=
        match names with
        | none => m.processNames
        | some ns => ns.filter fun n => n ∈ m.processNames
      if common = [] then some [] else intersectNames (some common) ms

/-- Make a pattern safe to embed in a larger one. -/
def regexOption (pattern : List Char) : List Char := Regex.localFlag pattern

def combinedCommandLineRegex (py : Builtins)
    (containsGroups regexGroups : List (List (List Char))) :
    List Char :=
  Regex.anyAhead
    ((containsGroups.map fun values =>
        (nonempty values).map fun v => reEscape (py.lowerText v)).filter (fun o => o != []) ++
      (regexGroups.map fun patterns => (nonempty patterns).map regexOption).filter
        (fun o => o != []))

def containsGroups (ms : List CommandMatch) : List (List (List Char)) :=
  (ms.map CommandMatch.commandLineContainsAny).filter fun g => g != []

def regexGroups (ms : List CommandMatch) : List (List (List Char)) :=
  (ms.map CommandMatch.commandLineRegexAny).filter fun g => g != []

/-- The merged match for the process names that are left. -/
def mergeCommandLines (py : Builtins) (ms : List CommandMatch) (processNames : List (List Char)) :
    CommandMatch :=
  if (containsGroups ms).length = 1 ∧ regexGroups ms = [] then {
    processNames
    commandLineContainsAny := sortedSet ((containsGroups ms).headD []) }
  else if containsGroups ms ≠ [] ∨ regexGroups ms ≠ [] then {
    processNames
    commandLineRegexAny :=
      [combinedCommandLineRegex py (containsGroups ms) (regexGroups ms)] }
  else { processNames }

def mergeMatchPayloads (py : Builtins) (ms : List CommandMatch) : CommandMatch :=
  match intersectNames none ms with
  | some [] => {}
  | names => mergeCommandLines py ms (sortedSet (names.getD []))

def mergeOrMatchPayloads (ms : List CommandMatch) : CommandMatch where
  processNames := sortedSet (ms.flatMap CommandMatch.processNames)
  commandLineContainsAny := sortedSet (ms.flatMap CommandMatch.commandLineContainsAny)
  commandLineRegexAny := sortedSet (ms.flatMap CommandMatch.commandLineRegexAny)

/-! ### Rules -/

/-- What the rules of one Sigma rule have in common. -/
structure RuleHead where
  title : List Char
  techniques : List String
  confidence : String
  sourceRefs : List SourceRef

/-- `f"{title}_{selection_name}_{technique_id}"` in lower case with every run of characters that
are not ASCII letters or digits as one `_`. -/
def ruleName (py : Builtins) (title selectionName : List Char) (techniqueId : String) : List Char :=
  let raw := title ++ '_' :: (selectionName ++ '_' :: techniqueId.toList)
  py.lowerText (['_'].intercalate (nonempty (raw.splitOnP fun c => !c.isAlphanum)))

/-- The match and the exclusion of one plan; `none` where no rule is generated. -/
def planMatches (py : Builtins) (plan : SigmaSelectionPlan) :
    Option (CommandMatch × Option CommandMatch) :=
  let positiveMatches := matchesFromSelections py plan.positives
  if positiveMatches.length ≠ plan.positives.length then none
  else
    let merged := mergeMatchPayloads py positiveMatches
    if merged = {} then none
    else
      let negativeMatches := matchesFromSelections py plan.negatives
      if negativeMatches.length ≠ plan.negatives.length then none
      else
        let excluded := mergeOrMatchPayloads negativeMatches
        some (merged, if negativeMatches = [] ∨ excluded = {} then none else some excluded)

def planRules (py : Builtins) (head : RuleHead) (plan : SigmaSelectionPlan) :
    List CowrieCommandRule :=
  match planMatches py plan with
  | none => []
  | some (merged, excluded) =>
    head.techniques.map fun techniqueId => {
      name := String.ofList (ruleName py head.title plan.name techniqueId)
      techniqueId
      confidence := head.confidence
      «match» := loadMatch py merged
      sourceRefs := head.sourceRefs
      excludeMatch := excluded.map (loadMatch py) }

def sigmaRuleToCommandRules (py : Builtins) (head : RuleHead) (detection : Settings) :
    List CowrieCommandRule :=
  (sigmaSelectionPlans py.lower py.render detection).flatMap (planRules py head)

end Honeynet.Cowrie
