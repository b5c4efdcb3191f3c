import Honeynet.Loop.Schedules

/-!
# The counters of the feedback file

A reveal is recorded as a pending row and counted as revealed; an update resolves rows and counts
their outcomes.  The two are separate functions that write one file, in any order.

* `recordReveal`: one more revealed asset, and its row.
* `exists_reveal`: the loop records such rows.
* `FeedbackCall`, `runCalls`: the calls that write the file, from the empty one.
* `Evolved`: a row later in a run.
* `Conserved`: the counters count the rows, and rows are only appended and resolved once.
* `conserved_runCalls`: **every run conserves them.**
-/

namespace Honeynet.Loop

open Collections

/-! ### Recording a reveal -/

/-- The arguments of `record_reveal`. -/
structure RevealArgs where
  contextKey : String
  assetGroup : String
  bindingId : String
  attackerKey : String
  assetId : String
  availableAssets : Option (List String) := none
  revealedAssets : Option (List String) := none

/-- `values or default`. -/
def listOr (values : Option (List String)) (default : List String) : List String :=
  match values with
  | none => default
  | some values => if values = [] then default else values

/-- The row of a reveal that is recorded at `ts`. -/
def RevealArgs.row (reveal : RevealArgs) (ts : Int) : FeedbackRow where
  ts
  contextKey := reveal.contextKey
  assetGroup := reveal.assetGroup
  bindingId := reveal.bindingId
  attackerKey := reveal.attackerKey
  assetId := reveal.assetId
  availableAssets := listOr reveal.availableAssets []
  revealedAssets := listOr reveal.revealedAssets [reveal.assetId]

/-- `contexts[context]["asset_groups"][group].get("revealed", 0)`. -/
def revealedOf (revealed : Dict String (Dict String ℕ)) (context group : String) : ℕ :=
  Dict.getD (Dict.getD revealed context []) group 0

def countRevealed (revealed : Dict String (Dict String ℕ)) (context group : String) :
    Dict String (Dict String ℕ) :=
  let groups := Dict.getD revealed context []
  Dict.set revealed context (Dict.set groups group (Dict.getD groups group 0 + 1))

def recordReveal (reveal : RevealArgs) (ts : Int) (file : FeedbackFile) : FeedbackFile :=
  { file with
    pending := file.pending ++ [reveal.row ts]
    revealed := countRevealed file.revealed reveal.contextKey reveal.assetGroup }

/-- The rows of a reveal of the loop are those of calls of `recordReveal`. -/
theorem exists_reveal {attackerKey bindingId : String} {response : LoopResponse}
    {actions : List ControllerAction} {clock : ℕ → Int} {row : FeedbackRow}
    (h : row ∈ recordRevealFeedback attackerKey bindingId response actions clock) :
    ∃ reveal : RevealArgs, reveal.row row.ts = row := by
  have hne : recordedAssets actions ≠ [] := by
    obtain ⟨-, -, -, -, hasset, -⟩ := mem_recordRevealFeedback h
    exact List.ne_nil_of_mem hasset
  obtain ⟨i, hi, hrow⟩ := List.mem_mapIdx.mp h
  generalize (response.decisionEvents.filterMap fun decision =>
    (recordedDecision actions decision).map fun entry => (decision, entry))[i] = recorded at hrow
  obtain ⟨decision, asset, group⟩ := recorded
  subst hrow
  refine ⟨⟨revealContextKey decision.details, group, bindingId, attackerKey, asset,
    some response.candidateAssetIds, some (recordedAssets actions)⟩, ?_⟩
  have havailable : listOr (some response.candidateAssetIds) [] = response.candidateAssetIds := by
    rw [listOr]
    by_cases hnil : response.candidateAssetIds = []
    · rw [if_pos hnil, hnil]
    · rw [if_neg hnil]
  rw [RevealArgs.row, havailable, listOr, if_neg hne]

theorem revealedOf_countRevealed (revealed : Dict String (Dict String ℕ)) (c c' g g' : String) :
    revealedOf (countRevealed revealed c g) c' g' =
      revealedOf revealed c' g' + if c = c' ∧ g = g' then 1 else 0 := by
  simp only [revealedOf, countRevealed, Dict.getD, lookup_set]
  by_cases hc : c' = c
  · subst hc
    by_cases hg : g' = g
    · subst hg
      simp
    · simp [lookup_set, hg, Ne.symm hg]
  · simp [hc, Ne.symm hc]

/-! ### The calls -/

/-- A call that writes the feedback file, with what it reads. -/
inductive FeedbackCall
  | recordReveal (reveal : RevealArgs) (ts : Int)
  | updateRevealFeedback (evidence events : List Settings) (now : Int)

section Run

variable (opts : LoopOptions)

def FeedbackCall.after : FeedbackCall → FeedbackFile → FeedbackFile
  | .recordReveal reveal ts, file => Loop.recordReveal reveal ts file
  | .updateRevealFeedback evidence events now, file =>
    updateRevealFeedbackFromEvidence opts evidence events now file

/-- The file after the calls, from the empty one. -/
def runCalls (calls : List FeedbackCall) : FeedbackFile :=
  calls.foldl (fun file call => call.after opts file) {}

/-- The call records a reveal in this context and asset group. -/
def FeedbackCall.records (context group : String) : FeedbackCall → Bool
  | .recordReveal reveal _ => reveal.contextKey == context && reveal.assetGroup == group
  | .updateRevealFeedback .. => false

/-- The rows of a context and an asset group. -/
def rowsOf (rows : List FeedbackRow) (context group : String) : ℕ :=
  rows.countP fun row => row.contextKey = context ∧ row.assetGroup = group

/-- The row later in a run: it may have been resolved in between, and that once. -/
structure Evolved (row later : FeedbackRow) : Prop where
  rest : ∃ status resolvedAt, later = { row with status, resolvedAt }
  final : row.status ≠ .pending → later = row

/-- The `k`-th call takes the `i`-th row out of the pending status. -/
def LeavesPending (calls : List FeedbackCall) (i k : ℕ) : Prop :=
  ∃ row ∈ (runCalls opts (calls.take k)).pending[i]?, row.status = .pending ∧
    ∃ later ∈ (runCalls opts (calls.take (k + 1))).pending[i]?, later.status ≠ .pending

/-- The counters are those of the rows, and no row is lost, moved, changed in another field than
its status and the time of it, or resolved twice. -/
structure Conserved (calls : List FeedbackCall) : Prop where
  recorded : ∀ c g, rowsOf (runCalls opts calls).pending c g =
    calls.countP (FeedbackCall.records c g)
  revealed : ∀ c g, revealedOf (runCalls opts calls).revealed c g =
    rowsOf (runCalls opts calls).pending c g
  outcomes : ∀ c g o, o ≠ .pending →
    countOf (runCalls opts calls).contexts c g o = tally (runCalls opts calls).pending c g o
  kept : ∀ k i : ℕ, ∀ row ∈ (runCalls opts (calls.take k)).pending[i]?,
    ∃ later ∈ (runCalls opts calls).pending[i]?, Evolved row later
  once : ∀ i k k', LeavesPending opts calls i k → LeavesPending opts calls i k' → k = k'

/-! ### What a call keeps -/

variable {opts}

theorem Evolved.refl (row : FeedbackRow) : Evolved row row :=
  ⟨⟨row.status, row.resolvedAt, rfl⟩, fun _ => rfl⟩

theorem Evolved.trans {row row' row'' : FeedbackRow} (h : Evolved row row')
    (h' : Evolved row' row'') : Evolved row row'' := by
  constructor
  · obtain ⟨status, resolvedAt, rfl⟩ := h.rest
    obtain ⟨status', resolvedAt', rfl⟩ := h'.rest
    exact ⟨status', resolvedAt', rfl⟩
  · intro hne
    have heq := h.final hne
    subst heq
    exact h'.final hne

theorem evolved_updateRow (evidence events : List Settings) (now : Int) (row : FeedbackRow) :
    Evolved row (updateRow opts evidence events now row) :=
  ⟨updateRow_eq opts evidence events now row, updateRow_of_ne⟩

variable (opts) in
/-- A row stays where it is in a call. -/
theorem kept_after (call : FeedbackCall) {file : FeedbackFile} {i : ℕ} {row : FeedbackRow}
    (h : row ∈ file.pending[i]?) : ∃ later ∈ (call.after opts file).pending[i]?,
      Evolved row later := by
  rw [Option.mem_def] at h
  cases call with
  | recordReveal reveal ts =>
    refine ⟨row, ?_, Evolved.refl row⟩
    obtain ⟨hi, -⟩ := List.getElem?_eq_some_iff.mp h
    rw [FeedbackCall.after, Loop.recordReveal, Option.mem_def, List.getElem?_append_left hi, h]
  | updateRevealFeedback evidence events now =>
    refine ⟨updateRow opts evidence events now row, ?_, evolved_updateRow evidence events now row⟩
    rw [FeedbackCall.after, updateRevealFeedbackFromEvidence, Option.mem_def, List.getElem?_map, h]
    rfl

theorem runCalls_append (calls : List FeedbackCall) (call : FeedbackCall) :
    runCalls opts (calls ++ [call]) = call.after opts (runCalls opts calls) := by
  rw [runCalls, List.foldl_append, List.foldl_cons, List.foldl_nil, ← runCalls]

theorem rowsOf_append (rows : List FeedbackRow) (row : FeedbackRow) (c g : String) :
    rowsOf (rows ++ [row]) c g =
      rowsOf rows c g + if row.contextKey = c ∧ row.assetGroup = g then 1 else 0 := by
  simp [rowsOf, List.countP_append, List.countP_cons]

theorem rowsOf_update (evidence events : List Settings) (now : Int) (rows : List FeedbackRow)
    (c g : String) : rowsOf (rows.map (updateRow opts evidence events now)) c g =
      rowsOf rows c g := by
  rw [rowsOf, List.countP_map]
  refine List.countP_congr ?_
  intro row _
  obtain ⟨status, resolvedAt, heq⟩ := updateRow_eq opts evidence events now row
  simp only [Function.comp_apply, heq]

theorem tally_append (rows : List FeedbackRow) (row : FeedbackRow) (c g : String)
    (o : FeedbackStatus) : tally (rows ++ [row]) c g o = tally rows c g o + tally [row] c g o := by
  rw [tally, List.countP_append, ← tally, ← tally]

theorem records_iff {reveal : RevealArgs} {ts : Int} {c g : String} :
    FeedbackCall.records c g (.recordReveal reveal ts) ↔
      reveal.contextKey = c ∧ reveal.assetGroup = g := by
  rw [FeedbackCall.records, Bool.and_eq_true, beq_iff_eq, beq_iff_eq]

/-! ### Runs -/

variable (opts)

theorem recorded_runCalls (calls : List FeedbackCall) (c g : String) :
    rowsOf (runCalls opts calls).pending c g = calls.countP (FeedbackCall.records c g) := by
  induction calls using List.reverseRecOn with
  | nil => rfl
  | append_singleton calls call ih =>
    rw [runCalls_append, List.countP_append, ← ih, List.countP_singleton]
    cases call with
    | recordReveal reveal ts =>
      rw [FeedbackCall.after, Loop.recordReveal, rowsOf_append, RevealArgs.row]
      simp only [records_iff]
    | updateRevealFeedback evidence events now =>
      rw [FeedbackCall.after, updateRevealFeedbackFromEvidence, rowsOf_update]
      rfl

theorem revealed_runCalls (calls : List FeedbackCall) (c g : String) :
    revealedOf (runCalls opts calls).revealed c g = rowsOf (runCalls opts calls).pending c g := by
  induction calls using List.reverseRecOn with
  | nil => rfl
  | append_singleton calls call ih =>
    rw [runCalls_append]
    cases call with
    | recordReveal reveal ts =>
      rw [FeedbackCall.after, Loop.recordReveal, revealedOf_countRevealed, rowsOf_append, ih,
        RevealArgs.row]
    | updateRevealFeedback evidence events now =>
      rw [FeedbackCall.after, updateRevealFeedbackFromEvidence, rowsOf_update, ih]

theorem outcomes_runCalls (calls : List FeedbackCall) (c g : String) {o : FeedbackStatus}
    (ho : o ≠ .pending) :
    countOf (runCalls opts calls).contexts c g o = tally (runCalls opts calls).pending c g o := by
  induction calls using List.reverseRecOn with
  | nil => rfl
  | append_singleton calls call ih =>
    rw [runCalls_append]
    cases call with
    | recordReveal reveal ts =>
      -- a new row is pending, and no counter of an outcome counts it
      have hrow : tally [reveal.row ts] c g o = 0 := by
        rw [tally_singleton, if_neg]
        rintro ⟨-, -, hstatus⟩
        exact ho hstatus.symm
      rw [FeedbackCall.after, Loop.recordReveal, tally_append, hrow, ih, Nat.add_zero]
    | updateRevealFeedback evidence events now =>
      have hbalance := balance_update opts evidence events now (runCalls opts calls) c g ho
      rw [FeedbackCall.after]
      omega

/-- A row stays where it is in a run. -/
theorem kept_runCalls (calls later : List FeedbackCall) {i : ℕ} {row : FeedbackRow}
    (h : row ∈ (runCalls opts calls).pending[i]?) :
    ∃ row' ∈ (runCalls opts (calls ++ later)).pending[i]?, Evolved row row' := by
  induction later using List.reverseRecOn with
  | nil =>
    rw [List.append_nil]
    exact ⟨row, h, Evolved.refl row⟩
  | append_singleton later call ih =>
    obtain ⟨row', hrow', hevolved⟩ := ih
    obtain ⟨row'', hrow'', hlast⟩ := kept_after opts call hrow'
    refine ⟨row'', ?_, hevolved.trans hlast⟩
    rw [← List.append_assoc, runCalls_append]
    exact hrow''

/-- A row that has left the pending status does not leave it again. -/
theorem not_leavesPending_later {calls : List FeedbackCall} {i k k' : ℕ} (hlt : k < k')
    (h : LeavesPending opts calls i k) : ¬ LeavesPending opts calls i k' := by
  rintro ⟨row, hrow, hpending, -⟩
  obtain ⟨-, -, -, later, hlater, hresolved⟩ := h
  have htake := List.take_append_drop (k + 1) (calls.take k')
  rw [List.take_take, min_eq_left hlt] at htake
  rw [← htake] at hrow
  obtain ⟨row', hrow', hevolved⟩ := kept_runCalls opts _ ((calls.take k').drop (k + 1)) hlater
  have heq : row = row' := Option.mem_unique hrow hrow'
  rw [heq, hevolved.final hresolved] at hpending
  exact hresolved hpending

/-- **Every run conserves the counters and the rows.** -/
theorem conserved_runCalls (calls : List FeedbackCall) : Conserved opts calls where
  recorded c g := recorded_runCalls opts calls c g
  revealed c g := revealed_runCalls opts calls c g
  outcomes c g o ho := outcomes_runCalls opts calls c g ho
  kept k i row hrow := by
    have hkept := kept_runCalls opts (calls.take k) (calls.drop k) hrow
    rw [List.take_append_drop] at hkept
    exact hkept
  once i k k' h h' := by
    rcases lt_trichotomy k k' with hlt | heq | hlt
    · exact absurd h' (not_leavesPending_later opts hlt h)
    · exact heq
    · exact absurd h (not_leavesPending_later opts hlt h')

end Run

end Honeynet.Loop
