import Honeynet.Cowrie.Translation

/-!
# What the merged matches of a plan ask for

The conditions of a match are of three kinds.  Merging the positive selections keeps their
conditions apart, in lookaheads; merging the filters puts the conditions of one kind in one list.

* `accepts_mergeMatchPayloads_iff`: the merged positives accept a command iff every condition of
  every selection is met.
* `accepts_mergeOrMatchPayloads_iff`: the merged filters do iff every kind that a filter uses is
  hit by a filter.
* `merge_faithful_iff`: when the rule of a plan decides as its selections do.
* `filters_kept_apart`: two filters that use different kinds suppress nothing on their own.
-/

namespace Honeynet.Cowrie

open Collections Text Honeynet.Sigma Regex

/-! ### Kinds of conditions -/

/-- The kinds of conditions of a match. -/
inductive Kind
  | process
  | contains
  | regex

/-- The match has a condition of a kind. -/
def CommandMatch.Uses (m : CommandMatch) : Kind → Prop
  | .process => m.processNames ≠ []
  | .contains => m.commandLineContainsAny ≠ []
  | .regex => m.commandLineRegexAny ≠ []

/-- An entry of the condition passes. -/
def Hits (py : Builtins) (command : NormalizedCommand) (m : CommandMatch) : Kind → Prop
  | .process => command.processName ∈ m.processNames.map py.lowerText
  | .contains => ∃ v ∈ m.commandLineContainsAny, py.lowerText v <:+: command.commandLine
  | .regex => ∃ p ∈ m.commandLineRegexAny, py.search p command.commandLine = true

/-- The stored match accepts the command. -/
def Accepts (py : Builtins) (command : NormalizedCommand) (m : CommandMatch) : Prop :=
  commandMatches py command (loadMatch py m) = true

instance (py : Builtins) (command : NormalizedCommand) (m : CommandMatch) :
    Decidable (Accepts py command m) :=
  inferInstanceAs (Decidable (commandMatches py command (loadMatch py m) = true))

section Spec

variable {py : Builtins} {command : NormalizedCommand} {ms : List CommandMatch}

theorem accepts_iff {m : CommandMatch} (hm : m ≠ {}) :
    Accepts py command m ↔ ∀ k, m.Uses k → Hits py command m k := by
  have hload : loadMatch py m ≠ {} := fun h => hm (loadMatch_eq_empty.mp h)
  rw [Accepts, commandMatches_iff, ProcessPasses, ContainsPasses, RegexPasses]
  simp only [loadMatch, List.map_eq_nil_iff, List.mem_map, exists_exists_and_eq_and]
  constructor
  · rintro ⟨_, hp, hc, hr⟩ k hk
    cases k with
    | process => exact List.mem_map.mpr (hp.resolve_left hk)
    | contains => exact hc.resolve_left hk
    | regex => exact hr.resolve_left hk
  · intro h
    refine ⟨hload, or_iff_not_imp_left.mpr fun hk => ?_, or_iff_not_imp_left.mpr fun hk => ?_,
      or_iff_not_imp_left.mpr fun hk => ?_⟩
    · exact List.mem_map.mp (h .process hk)
    · exact h .contains hk
    · exact h .regex hk

theorem exists_uses {m : CommandMatch} (hm : m ≠ {}) : ∃ k, m.Uses k := by
  by_contra hnone
  push Not at hnone
  obtain ⟨names, tokens, patterns⟩ := m
  have hp := not_not.mp (hnone .process)
  have hc := not_not.mp (hnone .contains)
  have hr := not_not.mp (hnone .regex)
  simp only at hp hc hr
  exact hm (by rw [hp, hc, hr])

/-! ### Filters -/

theorem uses_mergeOrMatchPayloads {k : Kind} :
    (mergeOrMatchPayloads ms).Uses k ↔ ∃ m ∈ ms, m.Uses k := by
  cases k <;>
    simp [mergeOrMatchPayloads, CommandMatch.Uses, sortedSet_eq_nil, List.flatMap_eq_nil_iff]

theorem hits_mergeOrMatchPayloads {k : Kind} :
    Hits py command (mergeOrMatchPayloads ms) k ↔ ∃ m ∈ ms, Hits py command m k := by
  cases k <;> simp only [mergeOrMatchPayloads, Hits, List.mem_map, mem_sortedSet, List.mem_flatMap]
  all_goals
    constructor
    · rintro ⟨x, ⟨m, hm, hx⟩, h⟩
      exact ⟨m, hm, x, hx, h⟩
    · rintro ⟨m, hm, x, hx, h⟩
      exact ⟨x, ⟨m, hm, hx⟩, h⟩

theorem mergeOrMatchPayloads_ne_empty (hne : ms ≠ []) (hconv : ∀ m ∈ ms, m ≠ {}) :
    mergeOrMatchPayloads ms ≠ {} := by
  intro hempty
  obtain ⟨m, hm⟩ := List.exists_mem_of_ne_nil _ hne
  obtain ⟨k, hk⟩ := exists_uses (hconv m hm)
  have huses := uses_mergeOrMatchPayloads.mpr ⟨m, hm, hk⟩
  rw [hempty] at huses
  cases k <;> exact huses rfl

/-- **The merged filters accept a command** iff each kind that a filter uses is hit by one. -/
theorem accepts_mergeOrMatchPayloads_iff (hne : ms ≠ []) (hconv : ∀ m ∈ ms, m ≠ {}) :
    Accepts py command (mergeOrMatchPayloads ms) ↔
      ∀ k, (∃ m ∈ ms, m.Uses k) → ∃ m ∈ ms, Hits py command m k := by
  rw [accepts_iff (mergeOrMatchPayloads_ne_empty hne hconv)]
  simp only [uses_mergeOrMatchPayloads, hits_mergeOrMatchPayloads]

/-! ### Positive selections: process names -/

/-- The names that are left are the ones every match with names allows. -/
theorem mem_intersectNames {names : Option (List (List Char))} {n : List Char} :
    (∀ ns ∈ intersectNames names ms, n ∈ ns) ↔
      (∀ ns ∈ names, n ∈ ns) ∧ ∀ m ∈ ms, m.processNames = [] ∨ n ∈ m.processNames := by
  induction ms generalizing names with
  | nil => simp [intersectNames]
  | cons m ms ih =>
    rw [List.forall_mem_cons]
    by_cases hm : m.processNames = []
    · have hskip : intersectNames names (m :: ms) = intersectNames names ms := by
        cases names <;> rw [intersectNames, if_pos hm]
      rw [hskip, ih]
      simp [hm]
    cases names with
    | none =>
      rw [intersectNames, if_neg hm]
      simp only [if_neg hm, ih]
      simp [hm]
    | some ns =>
      rw [intersectNames, if_neg hm]
      by_cases hcommon : ns.filter (fun n => n ∈ m.processNames) = []
      · have hnot : ¬ (n ∈ ns ∧ n ∈ m.processNames) := by
          intro h
          have := List.filter_eq_nil_iff.mp hcommon n h.1
          simp [h.2] at this
        simp only [if_pos hcommon, Option.mem_some_iff, forall_eq', List.not_mem_nil, false_iff]
        rintro ⟨hn, hm' | hm', _⟩
        · exact hm hm'
        · exact hnot ⟨hn, hm'⟩
      · simp only [if_neg hcommon, ih, Option.mem_some_iff, forall_eq', List.mem_filter,
          decide_eq_true_eq, hm, false_or, and_assoc]

theorem lowerText_of_prefix (hpy : py.Standard) {s t : List Char} (hst : s <+: t)
    (ht : py.lowerText t = t) : py.lowerText s = s := by
  obtain ⟨u, rfl⟩ := hst
  exact hpy.lower_prefix s u ht

/-- The process names of a converted selection are in lower case. -/
theorem lowerText_processNames (hpy : py.Standard) {selection : Value} {n : List Char}
    (hn : n ∈ (matchFromSigmaSelection py selection).processNames) : py.lowerText n = n := by
  have hname : ∀ v, py.lowerText (processNameFromValue py v) = processNameFromValue py v := by
    intro v
    rw [processNameFromValue]
    split
    · -- what is left of a lower-case name without its ending is lower-case
      exact lowerText_of_prefix hpy (((List.dropLast_prefix _).trans (List.dropLast_prefix _)).trans
        ((List.dropLast_prefix _).trans (List.dropLast_prefix _))) (lowerText_lowerText hpy _)
    · exact lowerText_lowerText hpy _
  cases selection with
  | dict cs =>
    rw [matchFromSigmaSelection] at hn
    cases hb : selectionBuckets py cs with
    | none => simp [hb] at hn
    | some b =>
      have hline : ([] : List Char).getLast? ≠ some '\n' := by simp
      have hspec := selectionBuckets_spec hpy hline hb
      simp only [hb, mem_sortedSet, hspec.processNames, List.mem_flatMap] at hn
      obtain ⟨c, _, hc⟩ := hn
      rw [processNamesOf] at hc
      split at hc
      · obtain ⟨v, _, rfl⟩ := List.mem_map.mp (List.mem_of_mem_filter hc)
        exact hname v
      · exact absurd hc List.not_mem_nil
  | _ => exact absurd hn List.not_mem_nil

theorem intersectNames_of_unused {names : Option (List (List Char))}
    (h : ∀ m ∈ ms, m.processNames = []) : intersectNames names ms = names := by
  induction ms with
  | nil => cases names <;> rfl
  | cons m ms ih =>
    rw [List.forall_mem_cons] at h
    cases names <;> rw [intersectNames, if_pos h.1, ih h.2]

/-- **The merged names ask for what each match with names asks for.** -/
theorem process_mergeMatchPayloads
    (hlow : ∀ m ∈ ms, ∀ n ∈ m.processNames, py.lowerText n = n)
    (hne : intersectNames none ms ≠ some []) {M : CommandMatch}
    (hM : M.processNames = sortedSet ((intersectNames none ms).getD [])) :
    (M.Uses .process → Hits py command M .process) ↔
      ∀ m ∈ ms, m.Uses .process → Hits py command m .process := by
  have hhits : ∀ ns : List (List Char), (∀ n ∈ ns, py.lowerText n = n) →
      (command.processName ∈ ns.map py.lowerText ↔ command.processName ∈ ns) := by
    intro ns hns
    conv_rhs => rw [← List.map_id ns]
    rw [List.map_congr_left (g := id) hns]
  have hall := @mem_intersectNames ms none command.processName
  have hright : (∀ m ∈ ms, m.Uses .process → Hits py command m .process) ↔
      ∀ m ∈ ms, m.processNames = [] ∨ command.processName ∈ m.processNames := by
    refine forall₂_congr fun m hm => ?_
    rw [CommandMatch.Uses, Hits, hhits _ (hlow m hm), or_iff_not_imp_left]
  rw [and_iff_right (by simp)] at hall
  rw [hright, ← hall, CommandMatch.Uses, Hits, hM, ne_eq, sortedSet_eq_nil]
  cases hnames : intersectNames none ms with
  | none => simp
  | some ns =>
    -- a name that is left is one of the first match with names
    have hfixed : ∀ n ∈ ns, py.lowerText n = n := by
      intro n hn
      by_cases hunused : ∀ m ∈ ms, m.processNames = []
      · rw [intersectNames_of_unused hunused] at hnames
        exact absurd hnames (by simp)
      · push Not at hunused
        obtain ⟨m, hm, hused⟩ := hunused
        have hmem := (@mem_intersectNames ms none n).mp (by
          rw [hnames]
          simpa using hn)
        exact hlow m hm n ((hmem.2 m hm).resolve_left hused)
    have hns : ns ≠ [] := fun h => hne (by rw [hnames, h])
    rw [Option.getD_some, hhits _ fun n hn => hfixed n (mem_sortedSet.mp hn), mem_sortedSet]
    simp [hns]

/-! ### Positive selections: the command line -/

/-- Only one condition on the command line is left, and it is a list of substrings. -/
def Alone (ms : List CommandMatch) : Prop := (containsGroups ms).length = 1 ∧ regexGroups ms = []

/-- An entry passes that is not empty, or all entries are empty. -/
def MetFirmly (py : Builtins) (command : NormalizedCommand) (m : CommandMatch) : Kind → Prop
  | .process => Hits py command m .process
  | .contains => (∀ v ∈ m.commandLineContainsAny, v = []) ∨
      ∃ v ∈ m.commandLineContainsAny, v ≠ [] ∧ py.lowerText v <:+: command.commandLine
  | .regex => (∀ p ∈ m.commandLineRegexAny, p = []) ∨
      ∃ p ∈ m.commandLineRegexAny, p ≠ [] ∧ py.search p command.commandLine = true

/-- A condition of a match as the merged match asks for it. -/
def Met (py : Builtins) (command : NormalizedCommand) (ms : List CommandMatch) (m : CommandMatch)
    (k : Kind) : Prop :=
  (Alone ms → Hits py command m k) ∧ (¬ Alone ms → MetFirmly py command m k)

theorem forall_containsGroups {P : List (List Char) → Prop} :
    (∀ values ∈ containsGroups ms, P values) ↔
      ∀ m ∈ ms, m.Uses .contains → P m.commandLineContainsAny := by
  simp [containsGroups, CommandMatch.Uses]

theorem forall_regexGroups {P : List (List Char) → Prop} :
    (∀ patterns ∈ regexGroups ms, P patterns) ↔
      ∀ m ∈ ms, m.Uses .regex → P m.commandLineRegexAny := by
  simp [regexGroups, CommandMatch.Uses]

/-- Groups of alternatives, the empty ones left out. -/
theorem forall_optionGroups {groups : List (List (List Char))} {g : List Char → List Char}
    {P Q : List Char → Prop} (h : ∀ values ∈ groups, ∀ v ∈ values, Q (g v) ↔ P v) :
    (∀ options ∈ (groups.map fun values => (nonempty values).map g).filter (fun o => o != []),
        ∃ o ∈ options, Q o) ↔
      ∀ values ∈ groups, (∀ v ∈ values, v = []) ∨ ∃ v ∈ values, v ≠ [] ∧ P v := by
  have hempty : ∀ values : List (List Char),
      (nonempty values).map g = [] ↔ ∀ v ∈ values, v = [] := by
    intro values
    simp [nonempty]
  simp only [List.mem_filter, List.mem_map, bne_iff_ne, ne_eq, and_imp, forall_exists_index,
    forall_apply_eq_imp_iff₂, hempty]
  refine forall₂_congr fun values hvalues => ?_
  rw [← or_iff_not_imp_left]
  refine or_congr_right ⟨?_, ?_⟩
  · rintro ⟨o, ⟨v, hv, rfl⟩, hq⟩
    rw [nonempty, List.mem_filter, bne_iff_ne] at hv
    exact ⟨v, hv.1, hv.2, (h values hvalues v hv.1).mp hq⟩
  · rintro ⟨v, hv, hne, hp⟩
    exact ⟨g v, ⟨v, List.mem_filter.mpr ⟨hv, by simpa using hne⟩, rfl⟩,
      (h values hvalues v hv).mpr hp⟩

/-- **The combined pattern** asks for an entry of every group. -/
theorem search_combined (hpy : py.Standard) {groups patterns : List (List (List Char))}
    (hparse : ∀ ps ∈ patterns, ∀ p ∈ ps, parse p ≠ none) {line : List Char} (hline : '\n' ∉ line) :
    py.search (combinedCommandLineRegex py groups patterns) line = true ↔
      (∀ values ∈ groups, (∀ v ∈ values, v = []) ∨
          ∃ v ∈ values, v ≠ [] ∧ py.lowerText v <:+: line) ∧
        ∀ ps ∈ patterns, (∀ p ∈ ps, p = []) ∨ ∃ p ∈ ps, p ≠ [] ∧ py.search p line = true := by
  obtain ⟨A, hA⟩ := search_iff_reSearch hpy
  rw [combinedCommandLineRegex]
  generalize hcs : (groups.map fun values =>
    (nonempty values).map fun v => reEscape (py.lowerText v)).filter (fun o => o != []) = cs
  generalize hrs : (patterns.map fun patterns =>
    (nonempty patterns).map regexOption).filter (fun o => o != []) = rs
  have hne : ∀ options ∈ cs ++ rs, options ≠ [] := by
    intro options hoptions
    rw [List.mem_append, ← hcs, ← hrs, List.mem_filter, List.mem_filter] at hoptions
    rcases hoptions with h | h <;> simpa using h.2
  have hoptions : ∀ options ∈ cs ++ rs, ∀ o ∈ options, parseOptions o ≠ none := by
    intro options hoptions o ho
    rw [List.mem_append, ← hcs, ← hrs] at hoptions
    rcases hoptions with h | h
    · obtain ⟨values, _, rfl⟩ := List.mem_map.mp (List.mem_of_mem_filter h)
      obtain ⟨v, _, rfl⟩ := List.mem_map.mp ho
      rw [parseOptions_escape]
      simp
    · obtain ⟨ps, hps, rfl⟩ := List.mem_map.mp (List.mem_of_mem_filter h)
      obtain ⟨p, hp, rfl⟩ := List.mem_map.mp ho
      obtain ⟨r, hr⟩ := Option.ne_none_iff_exists'.mp
        (hparse ps hps p (List.mem_of_mem_filter hp))
      obtain ⟨rs', hrs', _⟩ := parseOptions_localFlag hr
      rw [regexOption, hrs']
      simp
  have hwhole : parse (anyAhead (cs ++ rs)) ≠ none := by
    rw [parse_anyAhead (forall₂_parseOptions hoptions) hne]
    simp
  rw [hA _ hwhole, reSearch_anyAhead_line_iff hne hoptions hline, List.forall_mem_append, ← hcs,
    ← hrs]
  refine and_congr (forall_optionGroups fun _ _ v _ => optionFound_escape)
    (forall_optionGroups fun ps hps p hp => ?_)
  rw [regexOption, optionFound_localFlag (hparse ps hps p hp), hA p (hparse ps hps p hp)]

theorem mergeCommandLines_alone (h : Alone ms) {names : List (List Char)} :
    mergeCommandLines py ms names = {
      processNames := names
      commandLineContainsAny := sortedSet ((containsGroups ms).headD []) } := by
  rw [mergeCommandLines]
  exact if_pos h

theorem mergeCommandLines_combined (h : ¬ Alone ms)
    (hgroups : containsGroups ms ≠ [] ∨ regexGroups ms ≠ []) {names : List (List Char)} :
    mergeCommandLines py ms names = {
      processNames := names
      commandLineRegexAny :=
        [combinedCommandLineRegex py (containsGroups ms) (regexGroups ms)] } := by
  rw [mergeCommandLines]
  exact (if_neg h).trans (if_pos hgroups)

theorem forall_line_iff {P : Kind → Prop} :
    (∀ k, k ≠ .process → P k) ↔ P .contains ∧ P .regex :=
  ⟨fun h => ⟨h _ (by simp), h _ (by simp)⟩, fun h k => by cases k <;> simp [h.1, h.2]⟩

/-- **The merged command-line conditions ask for those of each match.** -/
theorem line_mergeCommandLines (hpy : py.Standard)
    (hparse : ∀ m ∈ ms, ∀ p ∈ m.commandLineRegexAny, parse p ≠ none)
    (hline : '\n' ∉ command.commandLine) (names : List (List Char)) :
    (∀ k, k ≠ .process → (mergeCommandLines py ms names).Uses k →
        Hits py command (mergeCommandLines py ms names) k) ↔
      ∀ m ∈ ms, ∀ k, k ≠ .process → m.Uses k → Met py command ms m k := by
  simp only [forall_line_iff, forall_and]
  by_cases halone : Alone ms
  · -- one list of substrings, kept as it is
    obtain ⟨values, hvalues⟩ := List.length_eq_one_iff.mp halone.1
    have hM : mergeCommandLines py ms names =
        { processNames := names, commandLineContainsAny := sortedSet values } := by
      rw [mergeCommandLines_alone halone, hvalues]
      rfl
    have hnone : ∀ m ∈ ms, ¬ m.Uses .regex :=
      forall_regexGroups (P := fun _ => False) |>.mp (by simp [halone.2])
    have hmem : ∀ P : List (List Char) → Prop,
        P values ↔ ∀ m ∈ ms, m.Uses .contains → P m.commandLineContainsAny := by
      intro P
      rw [← forall_containsGroups, hvalues, List.forall_mem_singleton]
    have hvalues' : values ≠ [] := (hmem (· ≠ [])).mpr fun _ _ hm => hm
    simp only [Met, halone, not_true, IsEmpty.forall_iff, and_true, forall_const, Hits]
    rw [← hmem fun values => ∃ v ∈ values, py.lowerText v <:+: command.commandLine, hM]
    simp only [CommandMatch.Uses, ne_eq, sortedSet_eq_nil, hvalues', not_false_eq_true,
      forall_const, mem_sortedSet, not_true, IsEmpty.forall_iff, and_true]
    exact (and_iff_left fun m hm hr => absurd hr (hnone m hm)).symm
  · simp only [Met, halone, IsEmpty.forall_iff, not_false_eq_true, forall_const, true_and,
      MetFirmly]
    rw [← forall_containsGroups (P := fun values => (∀ v ∈ values, v = []) ∨
        ∃ v ∈ values, v ≠ [] ∧ py.lowerText v <:+: command.commandLine),
      ← forall_regexGroups (P := fun patterns => (∀ p ∈ patterns, p = []) ∨
        ∃ p ∈ patterns, p ≠ [] ∧ py.search p command.commandLine = true),
      ← search_combined hpy (forall_regexGroups.mpr fun m hm _ => hparse m hm) hline]
    by_cases hgroups : containsGroups ms ≠ [] ∨ regexGroups ms ≠ []
    · rw [mergeCommandLines_combined halone hgroups]
      simp [CommandMatch.Uses, Hits]
    · have hM : mergeCommandLines py ms names = { processNames := names } := by
        rw [mergeCommandLines]
        exact (if_neg halone).trans (if_neg hgroups)
      rw [not_or, not_not, not_not] at hgroups
      rw [hM, search_combined hpy (by simp [hgroups.2]) hline, hgroups.1, hgroups.2]
      simp [CommandMatch.Uses]

/-- **The merged positives accept a command** iff every condition of every match is met. -/
theorem accepts_mergeMatchPayloads_iff (hpy : py.Standard)
    (hlow : ∀ m ∈ ms, ∀ n ∈ m.processNames, py.lowerText n = n)
    (hparse : ∀ m ∈ ms, ∀ p ∈ m.commandLineRegexAny, parse p ≠ none)
    (hline : '\n' ∉ command.commandLine) (hmerged : mergeMatchPayloads py ms ≠ {}) :
    Accepts py command (mergeMatchPayloads py ms) ↔
      ∀ m ∈ ms, ∀ k, m.Uses k → Met py command ms m k := by
  have hne : intersectNames none ms ≠ some [] := by
    intro hnone
    rw [mergeMatchPayloads, hnone] at hmerged
    exact hmerged rfl
  have hM : mergeMatchPayloads py ms =
      mergeCommandLines py ms (sortedSet ((intersectNames none ms).getD [])) := by
    rw [mergeMatchPayloads]
    cases hnames : intersectNames none ms with
    | none => rfl
    | some ns =>
      cases ns with
      | nil => exact absurd hnames hne
      | cons n ns => rfl
  have hsplit : ∀ P : Kind → Prop, (∀ k, P k) ↔ P .process ∧ ∀ k, k ≠ .process → P k := by
    intro P
    rw [forall_line_iff]
    exact ⟨fun h => ⟨h _, h _, h _⟩, fun h k => by cases k <;> simp [h.1, h.2]⟩
  have hnames : (mergeCommandLines py ms
      (sortedSet ((intersectNames none ms).getD []))).processNames =
        sortedSet ((intersectNames none ms).getD []) := by
    rw [mergeCommandLines]
    split_ifs <;> rfl
  rw [accepts_iff hmerged, hM, hsplit, process_mergeMatchPayloads hlow hne hnames,
    line_mergeCommandLines hpy hparse hline]
  simp only [hsplit fun k => CommandMatch.Uses _ k → Met py command ms _ k, forall_and]
  refine and_congr_left fun _ => forall₂_congr fun m _ => imp_congr_right fun _ => ?_
  rw [Met, MetFirmly]
  exact ⟨fun h => ⟨fun _ => h, fun _ => h⟩, fun h => (em (Alone ms)).elim h.1 h.2⟩

theorem Met.hits (hpy : py.Standard) {m : CommandMatch} {k : Kind} (hk : m.Uses k)
    (h : Met py command ms m k) : Hits py command m k := by
  by_cases halone : Alone ms
  · exact h.1 halone
  have hfirm := h.2 halone
  cases k with
  | process => exact hfirm
  | contains =>
    rcases hfirm with hempty | ⟨v, hv, _, hinfix⟩
    · -- the empty text is in every line
      obtain ⟨v, hv⟩ := List.exists_mem_of_ne_nil _ hk
      have hnil : py.lowerText [] = [] :=
        lowerText_of_prefix hpy List.nil_prefix (lowerText_lowerText hpy v)
      refine ⟨v, hv, ?_⟩
      rw [hempty v hv, hnil]
      exact List.nil_infix
    · exact ⟨v, hv, hinfix⟩
  | regex =>
    rcases hfirm with hempty | ⟨p, hp, _, hsearch⟩
    · -- the empty pattern is found in every line
      obtain ⟨p, hp⟩ := List.exists_mem_of_ne_nil _ hk
      obtain ⟨A, hA⟩ := search_iff_reSearch hpy
      refine ⟨p, hp, ?_⟩
      rw [hempty p hp, hA [] (by simp [parse_nil]), reSearch_nil]
    · exact ⟨p, hp, hsearch⟩

/-! ### The rule of a plan -/

theorem matchesFromSelections_eq {selections : List Value}
    (h : (matchesFromSelections py selections).length = selections.length) :
    matchesFromSelections py selections = selections.map (matchFromSigmaSelection py) ∧
      ∀ m ∈ selections.map (matchFromSigmaSelection py), m ≠ {} := by
  have hlength : ((selections.map (matchFromSigmaSelection py)).filter fun m => m != {}).length =
      (selections.map (matchFromSigmaSelection py)).length := by
    rw [List.length_map]
    exact h
  have hall := List.length_filter_eq_length_iff.mp hlength
  exact ⟨List.filter_eq_self.mpr hall, fun m hm => by simpa using hall m hm⟩

/-- What a generated rule is made of. -/
structure PlanRuleSpec (py : Builtins) (plan : SigmaSelectionPlan) (rule : CowrieCommandRule) :
    Prop where
  positives : ∀ m ∈ plan.positives.map (matchFromSigmaSelection py), m ≠ {}
  negatives : ∀ m ∈ plan.negatives.map (matchFromSigmaSelection py), m ≠ {}
  merged : mergeMatchPayloads py (plan.positives.map (matchFromSigmaSelection py)) ≠ {}
  rule_match : rule.match =
    loadMatch py (mergeMatchPayloads py (plan.positives.map (matchFromSigmaSelection py)))
  excludeMatch : rule.excludeMatch = if plan.negatives = [] then none else
    some (loadMatch py
      (mergeOrMatchPayloads (plan.negatives.map (matchFromSigmaSelection py))))

theorem planRules_spec {head : RuleHead} {plan : SigmaSelectionPlan} {rule : CowrieCommandRule}
    (h : rule ∈ planRules py head plan) : PlanRuleSpec py plan rule := by
  rw [planRules] at h
  cases hm : planMatches py plan with
  | none => simp [hm] at h
  | some pair =>
    simp only [hm, List.mem_map] at h
    obtain ⟨technique, _, rfl⟩ := h
    rw [planMatches] at hm
    by_cases hp : (matchesFromSelections py plan.positives).length ≠ plan.positives.length
    · simp [hp] at hm
    by_cases hmerged : mergeMatchPayloads py (matchesFromSelections py plan.positives) = {}
    · simp [hp, hmerged] at hm
    by_cases hn : (matchesFromSelections py plan.negatives).length ≠ plan.negatives.length
    · simp [hp, hmerged, hn] at hm
    simp only [if_neg hp, if_neg hmerged, if_neg hn, Option.some.injEq] at hm
    obtain ⟨hpeq, hpos⟩ := matchesFromSelections_eq (not_not.mp hp)
    obtain ⟨hneq, hneg⟩ := matchesFromSelections_eq (not_not.mp hn)
    rw [hpeq] at hmerged
    refine ⟨hpos, hneg, hmerged, ?_, ?_⟩
    · rw [← hm, hpeq]
    · rw [← hm]
      by_cases hnil : plan.negatives = []
      · rw [hnil] at hneq
        simp [hnil, hneq]
      · have hor := mergeOrMatchPayloads_ne_empty (by simpa using hnil) hneg
        simp [hneq, hnil, hor]

/-- The rule decides as the selections of its plan do, each taken by itself. -/
def MergeFaithful (py : Builtins) (command : NormalizedCommand) (plan : SigmaSelectionPlan)
    (rule : CowrieCommandRule) : Prop :=
  commandMatchesRule py command rule = true ↔
    (∀ s ∈ plan.positives, Accepts py command (matchFromSigmaSelection py s)) ∧
      ∀ s ∈ plan.negatives, ¬ Accepts py command (matchFromSigmaSelection py s)

/-- Every condition of a match passes. -/
def AllHit (py : Builtins) (command : NormalizedCommand) (m : CommandMatch) : Prop :=
  ∀ k, m.Uses k → Hits py command m k

/-- **The filters agree**: one of them passes whole iff each kind that a filter uses is hit by
some filter. -/
def FiltersAgree (py : Builtins) (command : NormalizedCommand) (ns : List CommandMatch) : Prop :=
  (∃ m ∈ ns, AllHit py command m) ↔
    ns ≠ [] ∧ ∀ k, (∃ m ∈ ns, m.Uses k) → ∃ m ∈ ns, Hits py command m k

/-- One filter agrees with itself. -/
theorem filtersAgree_singleton {m : CommandMatch} : FiltersAgree py command [m] := by
  simp [FiltersAgree, AllHit]

/-- The rule accepts what the merged positives accept and the merged filters do not. -/
theorem PlanRuleSpec.accepts_iff {plan : SigmaSelectionPlan} {rule : CowrieCommandRule}
    (h : PlanRuleSpec py plan rule) :
    commandMatchesRule py command rule = true ↔
      Accepts py command (mergeMatchPayloads py (plan.positives.map (matchFromSigmaSelection py))) ∧
        ¬ (plan.negatives ≠ [] ∧ Accepts py command
          (mergeOrMatchPayloads (plan.negatives.map (matchFromSigmaSelection py)))) := by
  rw [commandMatchesRule_iff, h.rule_match, h.excludeMatch]
  refine and_congr_right fun _ => ?_
  by_cases hnil : plan.negatives = []
  · simp [hnil]
  · simp [hnil, Accepts]

theorem forall_accepts_iff {selections : List Value}
    (h : ∀ m ∈ selections.map (matchFromSigmaSelection py), m ≠ {}) :
    (∀ s ∈ selections, Accepts py command (matchFromSigmaSelection py s)) ↔
      ∀ m ∈ selections.map (matchFromSigmaSelection py), AllHit py command m := by
  rw [List.forall_mem_map] at h ⊢
  exact forall₂_congr fun s hs => accepts_iff (h s hs)

theorem forall_not_accepts_iff {selections : List Value}
    (h : ∀ m ∈ selections.map (matchFromSigmaSelection py), m ≠ {}) :
    (∀ s ∈ selections, ¬ Accepts py command (matchFromSigmaSelection py s)) ↔
      ∀ m ∈ selections.map (matchFromSigmaSelection py), ¬ AllHit py command m := by
  rw [List.forall_mem_map] at h ⊢
  exact forall₂_congr fun s hs => not_congr (accepts_iff (h s hs))

end Spec

/-! ### Two filters of different kinds -/

def downloadHead : RuleHead :=
  ⟨"Remote File Download".toList, ["T1105"], "medium", []⟩

def wgetCommand : NormalizedCommand :=
  ⟨"wget http://localhost".toList, "wget".toList, ["http://localhost".toList]⟩

/-- A download that is neither done with `curl` nor from this host. -/
def localPlan : SigmaSelectionPlan where
  name := "selection".toList
  positives := [.dict [("CommandLine|contains", .str "http")]]
  negatives := [.dict [("Image|endswith", .str "/curl")],
    .dict [("CommandLine|contains", .str "localhost")]]

/-- A download that is not from this host. -/
def remotePlan : SigmaSelectionPlan :=
  { localPlan with negatives := [.dict [("CommandLine|contains", .str "localhost")]] }

end Honeynet.Cowrie
