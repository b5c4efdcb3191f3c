import Honeynet.Sigma.Fields

/-!
# Commands and command rules

* `normalizeCommand`: a line an attacker typed as a process name and a lower-case text.
* `commandMatches`, `commandMatchesRule`: whether a rule applies to it.
-/

namespace Honeynet.Cowrie

open Text Honeynet.Sigma

/-- Match conditions.  The values of one condition are OR-ed, the conditions AND-ed. -/
structure CommandMatch where
  processNames : List (List Char) := []
  commandLineContainsAny : List (List Char) := []
  commandLineRegexAny : List (List Char) := []
  deriving DecidableEq

/-- A reference to the rule a mapping comes from. -/
structure SourceRef where
  kind : String
  name : String
  url : Option String
  deriving DecidableEq

/-- A mapping from commands to one technique. -/
structure CowrieCommandRule where
  name : String
  techniqueId : String
  confidence : String
  «match» : CommandMatch
  sourceRefs : List SourceRef
  excludeMatch : Option CommandMatch

structure NormalizedCommand where
  commandLine : List Char
  processName : List Char
  args : List (List Char)
  deriving DecidableEq

/-- `Path(text).name`. -/
def pathName (t : List Char) : List Char :=
  ((t.splitOn '/').filter fun part => part != [] && part != ['.']).getLastD []

/-- `shlexSplit` is `shlex.split`, `none` where it raises on broken quoting. -/
def normalizeCommand (py : Builtins) (shlexSplit : List Char → Option (List (List Char)))
    (command : List Char) : Option NormalizedCommand :=
  let commandLine := strip command
  if commandLine = [] then none
  else
    match (shlexSplit commandLine).getD (words commandLine) with
    | [] => none
    | part :: parts => some {
        commandLine := py.lowerText commandLine
        processName := py.lowerText (pathName part)
        args := parts.map py.lowerText }

/-- All conditions of a match pass, and there is one. -/
def commandMatches (py : Builtins) (command : NormalizedCommand) (m : CommandMatch) : Bool :=
  if m.processNames ≠ [] ∧ command.processName ∉ m.processNames then false
  else if m.commandLineContainsAny ≠ [] ∧
      ¬ m.commandLineContainsAny.any fun token => contains token command.commandLine then false
  else if m.commandLineRegexAny ≠ [] ∧
      ¬ m.commandLineRegexAny.any fun pattern => py.search pattern command.commandLine then false
  else m.processNames ≠ [] ∨ m.commandLineContainsAny ≠ [] ∨ m.commandLineRegexAny ≠ []

def commandMatchesRule (py : Builtins) (command : NormalizedCommand) (rule : CowrieCommandRule) :
    Bool :=
  if commandMatches py command rule.match = false then false
  else
    match rule.excludeMatch with
    | some m => !commandMatches py command m
    | none => true

section Spec

variable {py : Builtins} {command : NormalizedCommand} {m : CommandMatch}

/-- The process condition of a match. -/
def ProcessPasses (command : NormalizedCommand) (m : CommandMatch) : Prop :=
  m.processNames = [] ∨ command.processName ∈ m.processNames

/-- The substring condition of a match. -/
def ContainsPasses (command : NormalizedCommand) (m : CommandMatch) : Prop :=
  m.commandLineContainsAny = [] ∨ ∃ token ∈ m.commandLineContainsAny, token <:+: command.commandLine

/-- The pattern condition of a match. -/
def RegexPasses (py : Builtins) (command : NormalizedCommand) (m : CommandMatch) : Prop :=
  m.commandLineRegexAny = [] ∨
    ∃ pattern ∈ m.commandLineRegexAny, py.search pattern command.commandLine = true

/-- **A match accepts a command iff each of its conditions does**, and it has one. -/
theorem commandMatches_iff :
    commandMatches py command m = true ↔ m ≠ {} ∧ ProcessPasses command m ∧
      ContainsPasses command m ∧ RegexPasses py command m := by
  have hempty : m ≠ {} ↔
      m.processNames ≠ [] ∨ m.commandLineContainsAny ≠ [] ∨ m.commandLineRegexAny ≠ [] := by
    rw [← not_iff_not]
    push Not
    constructor
    · rintro rfl
      exact ⟨rfl, rfl, rfl⟩
    · obtain ⟨p, c, r⟩ := m
      rintro ⟨rfl, rfl, rfl⟩
      rfl
  have hany :
      m.commandLineContainsAny.any (fun token => contains token command.commandLine) = true ↔
      ∃ token ∈ m.commandLineContainsAny, token <:+: command.commandLine := by
    simp [contains_iff]
  rw [commandMatches, hempty, ProcessPasses, ContainsPasses, RegexPasses, ← hany]
  split_ifs with h₁ h₂ h₃
  · refine ⟨fun h => absurd h (by simp), ?_⟩
    rintro ⟨_, h | h, _⟩
    · exact absurd h h₁.1
    · exact absurd h h₁.2
  · refine ⟨fun h => absurd h (by simp), ?_⟩
    rintro ⟨_, _, h | h, _⟩
    · exact absurd h h₂.1
    · exact absurd h h₂.2
  · refine ⟨fun h => absurd h (by simp), ?_⟩
    rintro ⟨_, _, _, h | h⟩
    · exact absurd h h₃.1
    · exact absurd (List.any_eq_true.mpr h) h₃.2
  · rw [not_and_or, not_not] at h₁ h₂ h₃
    rw [decide_eq_true_iff]
    refine ⟨fun h => ⟨h, ?_, ?_, ?_⟩, fun h => h.1⟩
    · rcases h₁ with h | h
      · exact Or.inl h
      · exact Or.inr (not_not.mp h)
    · rcases h₂ with h | h
      · exact Or.inl h
      · exact Or.inr (not_not.mp h)
    · rcases h₃ with h | h
      · exact Or.inl h
      · exact Or.inr (List.any_eq_true.mp (not_not.mp h))

theorem commandMatchesRule_iff {rule : CowrieCommandRule} :
    commandMatchesRule py command rule = true ↔ commandMatches py command rule.match = true ∧
      ∀ m ∈ rule.excludeMatch, commandMatches py command m = false := by
  rw [commandMatchesRule]
  by_cases h : commandMatches py command rule.match = false
  · simp [h]
  · rw [if_neg h]
    have h' : commandMatches py command rule.match = true := by simpa using h
    cases hex : rule.excludeMatch with
    | none => simp [h']
    | some m => simp [h']

/-- A normalized command line has no final line break. -/
theorem normalizeCommand_last {shlexSplit : List Char → Option (List (List Char))}
    (hpy : py.Standard) {typed : List Char}
    (h : normalizeCommand py shlexSplit typed = some command) :
    command.commandLine.getLast? ≠ some '\n' := by
  have hline : command.commandLine = py.lowerText (strip typed) := by
    rw [normalizeCommand] at h
    by_cases hnil : strip typed = []
    · simp [hnil] at h
    · simp only [hnil, if_false] at h
      cases hparts : (shlexSplit (strip typed)).getD (words (strip typed)) with
      | nil => simp [hparts] at h
      | cons part parts =>
        simp only [hparts, Option.some.injEq] at h
        rw [← h]
  intro hlast
  rw [hline, Builtins.lowerText] at hlast
  have hstrip := hpy.lower_last _ hlast
  rw [String.toList_ofList] at hstrip
  exact absurd (getLast?_strip hstrip) (by decide)

end Spec

end Honeynet.Cowrie
