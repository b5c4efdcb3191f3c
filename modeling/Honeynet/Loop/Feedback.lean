import Honeynet.Common.Contracts
import Mathlib.Algebra.Order.Group.Abs
import Mathlib.Algebra.Order.Group.Int
import Mathlib.Data.List.Sort
import Mathlib.Data.String.Basic

/-!
# Reveal feedback

The loop keeps one row for each asset it has revealed and resolves it from later evidence.  A
binding may be given the next reveal once its latest one has an answer.

* `updateRow`: a pending row against the logs of a pass.
* `responseGateDecision`: whether a binding may be given another reveal.
* `recordRevealFeedback`: the rows of a reveal.
-/

namespace Honeynet.Loop

open Collections

inductive FeedbackStatus
  | pending
  | useful
  | shallow
  | ignored
  deriving DecidableEq, Repr

/-- The status says that the attacker has touched the asset. -/
def FeedbackStatus.resolved (s : FeedbackStatus) : Bool := s == .useful || s == .shallow

/-- One row of the feedback file; its time is in microseconds. -/
structure FeedbackRow where
  ts : Int
  contextKey : String
  assetGroup : String
  bindingId : String
  attackerKey : String
  assetId : String
  availableAssets : List String
  revealedAssets : List String
  status : FeedbackStatus := .pending
  resolvedAt : Option Int := none
  deriving DecidableEq

/-- What the loop runs with: `parse_iso_datetime`, `str`, and its options. -/
structure LoopOptions where
  parseIsoDatetime : Value → Option Int
  str : Value → String
  feedbackWindowSeconds : Int
  maxActionsPerTrigger : Int
  keepsLoopState : Bool

def microsPerSecond : Int := 1000000

/-- `string_items(value)`. -/
def stringItems : Value → List String
  | .list items => Value.strings items
  | _ => []

/-! ### Resolving rows -/

section Resolve

variable (opts : LoopOptions)

/-- `ts is not None and other is not None and other < ts`. -/
def before (record : Settings) (row : FeedbackRow) : Bool :=
  match opts.parseIsoDatetime (record.get "ts") with
  | some ts => decide (ts < row.ts)
  | none => false

/-- The asset an evidence record is about. -/
def evidenceAsset (evidence : Settings) : Option String :=
  match evidence.getD "source_ref" (.dict []) with
  | .dict sourceRef => (Settings.get sourceRef "asset_id").str?
  | _ => none

def touches (row : FeedbackRow) (attacker : Value) (asset : Option String) : Bool :=
  attacker.str? == some row.attackerKey && asset == some row.assetId

/-- Useful or shallow if later evidence refers to the asset. -/
def pendingRevealOutcome (row : FeedbackRow) (evidence : List Settings) : Option FeedbackStatus :=
  (evidence.find? fun e =>
    touches row (e.get "attacker_key") (evidenceAsset e) && !before opts e row).map fun e =>
      if (e.get "tech_id").truthy || (e.get "group").truthy then .useful else .shallow

/-- Shallow if a request of the attacker to the asset was logged. -/
def pendingInternalHttpTouchOutcome (row : FeedbackRow) (events : List Settings) :
    Option FeedbackStatus :=
  (events.find? fun e =>
    touches row (e.get "attacker_key") (e.get "asset_id").str? && !before opts e row).map
      fun _ => .shallow

def pendingRevealExpired (row : FeedbackRow) (now : Int) : Bool :=
  decide (opts.feedbackWindowSeconds * microsPerSecond < now - row.ts)

/-- One row against the logs. -/
def updateRow (evidence events : List Settings) (now : Int) (row : FeedbackRow) : FeedbackRow :=
  if row.status ≠ .pending then row
  else
    match (pendingRevealOutcome opts row evidence).or
        (pendingInternalHttpTouchOutcome opts row events) with
    | some outcome => { row with status := outcome, resolvedAt := some now }
    | none =>
      if pendingRevealExpired opts row now then
        { row with status := .ignored, resolvedAt := some now }
      else row

theorem updateRow_of_ne {opts : LoopOptions} {evidence events : List Settings} {now : Int}
    {row : FeedbackRow} (h : row.status ≠ .pending) :
    updateRow opts evidence events now row = row := by
  rw [updateRow, if_pos h]

/-- An update changes the status of a row, and when it was resolved, and nothing else. -/
theorem updateRow_eq (evidence events : List Settings) (now : Int) (row : FeedbackRow) :
    ∃ status resolvedAt, updateRow opts evidence events now row =
      { row with status, resolvedAt } := by
  rw [updateRow]
  by_cases hp : row.status = .pending
  · rw [if_neg (not_not.mpr hp)]
    cases (pendingRevealOutcome opts row evidence).or
        (pendingInternalHttpTouchOutcome opts row events) with
    | some outcome => exact ⟨outcome, some now, rfl⟩
    | none =>
      by_cases hx : pendingRevealExpired opts row now
      · exact ⟨.ignored, some now, if_pos hx⟩
      · exact ⟨row.status, row.resolvedAt, if_neg hx⟩
  · exact ⟨row.status, row.resolvedAt, if_pos hp⟩

end Resolve

/-! ### The gate -/

def feedbackRecordsForBinding (rows : List FeedbackRow) (attackerKey bindingId : String) :
    List FeedbackRow :=
  rows.filter fun row => row.attackerKey == attackerKey && row.bindingId == bindingId

/-- The row with the greatest time, the last of those. -/
def latestFeedbackRecord : List FeedbackRow → Option FeedbackRow
  | [] => none
  | row :: rows => some (rows.foldl (fun best row => if best.ts ≤ row.ts then row else best) row)

def feedbackRevealedAssets (row : FeedbackRow) : List String :=
  if row.revealedAssets = [] then [row.assetId] else row.revealedAssets

def closeFeedbackTs (row latest : FeedbackRow) : Bool :=
  decide (|latest.ts - row.ts| ≤ 5 * microsPerSecond)

/-- Equality of the sets of their members. -/
def sameSet (xs ys : List String) : Bool := decide (xs ⊆ ys ∧ ys ⊆ xs)

/-- The rows that count as one reveal with the latest. -/
def latestRevealBatch (rows : List FeedbackRow) (latest : FeedbackRow) : List FeedbackRow :=
  rows.filter fun row =>
    sameSet (feedbackRevealedAssets row) (feedbackRevealedAssets latest) &&
      closeFeedbackTs row latest

structure GateDecision where
  allowed : Bool
  reason : String
  bindingId : String
  attackerKey : String
  revealedAssets : List String := []
  resolvedAssets : List String := []
  recentTouchedAssets : List String := []
  statuses : Dict String FeedbackStatus := []

/-- `sorted(set(values))`. -/
def sortedAssets (values : List String) : List String :=
  (appendNew [] values).insertionSort (· ≤ ·)

def responseGateDecision (rows : List FeedbackRow) (attackerKey bindingId : String)
    (profile : Settings) : GateDecision :=
  let records := feedbackRecordsForBinding rows attackerKey bindingId
  match latestFeedbackRecord records with
  | none => { allowed := true, reason := "no previous reveal", bindingId, attackerKey }
  | some latest =>
    let latestAssets := feedbackRevealedAssets latest
    let statuses := (latestRevealBatch records latest).foldl
      (fun statuses row => Dict.set statuses row.assetId row.status) []
    let touched := sortedAssets
      ((stringItems (profile.getD "recent_asset_ids" (.list []))).filter (· ∈ latestAssets))
    let resolved := sortedAssets ((statuses.filter fun entry => entry.2.resolved).map Prod.fst)
    let allowed := !resolved.isEmpty || !touched.isEmpty
    { allowed
      reason := if allowed then "reveal response observed"
        else "waiting for response to revealed asset"
      bindingId
      attackerKey
      revealedAssets := sortedAssets latestAssets
      resolvedAssets := resolved
      recentTouchedAssets := touched
      statuses }

/-! ### Recording a reveal -/

/-- What the loop reads of a decision event. -/
structure Decision where
  assetAdded : Option String
  details : Settings

/-- What the loop reads of a controller response. -/
structure LoopResponse where
  actions : List ControllerAction
  decisionEvents : List Decision
  candidateAssetIds : List String

/-- The assets an action names. -/
def namedAssets (action : ControllerAction) : List String :=
  action.assetId.toList ++ action.targetAssetId.toList

/-- The assets whose reveal is recorded: those of the unlocks. -/
def recordedAssets (applied : List ControllerAction) : List String :=
  appendNew [] ((applied.filter fun action => action.actionType == .unlock).flatMap namedAssets)

/-- The technique and the markers of a decision as one text. -/
def revealContextKey (details : Settings) : String :=
  let selected :=
    match details.get "selected_technique" with
    | .str s => if s = "" then "unknown" else s
    | _ => "unknown"
  "|".intercalate (selected ::
    (stringItems (details.getD "matched_dependency_markers" (.list []))).insertionSort (· ≤ ·))

/-- The asset and the group of a decision that is recorded. -/
def recordedDecision (applied : List ControllerAction) (decision : Decision) :
    Option (String × String) :=
  match decision.assetAdded, decision.details.get "asset_group" with
  | some asset, .str group => if asset ∈ recordedAssets applied then some (asset, group) else none
  | _, _ => none

/-- The rows of a reveal, the `i`-th of them written at `clock i`. -/
def recordRevealFeedback (attackerKey bindingId : String) (response : LoopResponse)
    (applied : List ControllerAction) (clock : ℕ → Int) : List FeedbackRow :=
  (response.decisionEvents.filterMap fun decision =>
    (recordedDecision applied decision).map fun entry => (decision, entry)).mapIdx
      fun i (decision, asset, group) => {
        ts := clock i
        contextKey := revealContextKey decision.details
        assetGroup := group
        bindingId
        attackerKey
        assetId := asset
        availableAssets := response.candidateAssetIds
        revealedAssets := recordedAssets applied }

theorem of_recordedDecision {applied : List ControllerAction} {decision : Decision}
    {entry : String × String} (h : recordedDecision applied decision = some entry) :
    decision.assetAdded = some entry.1 ∧ entry.1 ∈ recordedAssets applied := by
  rw [recordedDecision] at h
  split at h
  · rename_i asset group hasset _
    by_cases hin : asset ∈ recordedAssets applied
    · rw [if_pos hin, Option.some.injEq] at h
      exact h ▸ ⟨hasset, hin⟩
    · rw [if_neg hin] at h
      cases h
  · cases h

theorem mem_recordRevealFeedback {attackerKey bindingId : String} {response : LoopResponse}
    {actions : List ControllerAction} {clock : ℕ → Int} {row : FeedbackRow}
    (h : row ∈ recordRevealFeedback attackerKey bindingId response actions clock) :
    row.attackerKey = attackerKey ∧ row.bindingId = bindingId ∧ (∃ i, row.ts = clock i) ∧
      row.revealedAssets = recordedAssets actions ∧ row.assetId ∈ recordedAssets actions ∧
      row.status = .pending := by
  obtain ⟨i, hi, rfl⟩ := List.mem_mapIdx.mp h
  obtain ⟨decision, _, hentry⟩ := List.mem_filterMap.mp (List.getElem_mem hi)
  obtain ⟨⟨asset, group⟩, hrecorded, heq⟩ := Option.map_eq_some_iff.mp hentry
  refine ⟨rfl, rfl, ⟨i, rfl⟩, rfl, ?_, rfl⟩
  rw [← heq]
  exact (of_recordedDecision hrecorded).2

end Honeynet.Loop
