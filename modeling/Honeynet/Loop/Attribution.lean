import Honeynet.Loop.Feedback

/-!
# Whose touch resolves a row

A reveal should be credited only with a touch of the same attacker binding, recorded after the
reveal.  The loop compares the attacker, the asset and, where it can be read, the time.

* `updateRevealFeedbackFromEvidence`: one update of the feedback file, with its counters.
* `Credits`: the record is of the row's binding, about its asset, and not older.
* `attribution_iff`: an update credits rows soundly if and only if no row is `Misleading`.
* `credited_across_bindings`: a touch of another binding resolves a row.
-/

namespace Honeynet.Loop

open Collections

/-! ### The feedback file -/

/-- The outcomes counted for each context and each asset group. -/
abbrev OutcomeCounts := Dict String (Dict String (Dict FeedbackStatus ℕ))

/-- The file; the `revealed` counters stand beside those of the outcomes in each group. -/
structure FeedbackFile where
  contexts : OutcomeCounts := []
  pending : List FeedbackRow := []
  revealed : Dict String (Dict String ℕ) := []

/-- `contexts[context]["asset_groups"][group].get(outcome, 0)`. -/
def countOf (contexts : OutcomeCounts) (context group : String) (outcome : FeedbackStatus) : ℕ :=
  Dict.getD (Dict.getD (Dict.getD contexts context []) group []) outcome 0

def countOutcome (contexts : OutcomeCounts) (context group : String) (outcome : FeedbackStatus) :
    OutcomeCounts :=
  let groups := Dict.getD contexts context []
  let outcomes := Dict.getD groups group []
  Dict.set contexts context (Dict.set groups group
    (Dict.set outcomes outcome (Dict.getD outcomes outcome 0 + 1)))

section Update

variable (opts : LoopOptions) (evidence events : List Settings) (now : Int)

/-- A row that is resolved is counted. -/
def countRow (contexts : OutcomeCounts) (row : FeedbackRow) : OutcomeCounts :=
  let outcome := (updateRow opts evidence events now row).status
  if row.status = .pending ∧ outcome ≠ .pending then
    countOutcome contexts row.contextKey row.assetGroup outcome
  else contexts

def updateRevealFeedbackFromEvidence (file : FeedbackFile) : FeedbackFile where
  contexts := file.pending.foldl (countRow opts evidence events now) file.contexts
  pending := file.pending.map (updateRow opts evidence events now)
  revealed := file.revealed

end Update

/-! ### What resolves a row -/

/-- The asset an internal HTTP event is about. -/
def eventAsset (event : Settings) : Option String := (event.get "asset_id").str?

section Resolve

variable (opts : LoopOptions)

/-- The record is taken for a touch of the row's asset. -/
def accepts (asset : Settings → Option String) (row : FeedbackRow) (record : Settings) : Bool :=
  touches row (record.get "attacker_key") (asset record) && !before opts record row

/-- The evidence is mapped to a technique or a tactic. -/
def mapped (evidence : Settings) : Bool :=
  (evidence.get "tech_id").truthy || (evidence.get "group").truthy

/-- The status a matching evidence record gives. -/
def evidenceOutcome (evidence : Settings) : FeedbackStatus :=
  if mapped evidence then .useful else .shallow

theorem pendingRevealOutcome_eq (row : FeedbackRow) (evidence : List Settings) :
    pendingRevealOutcome opts row evidence =
      (evidence.find? (accepts opts evidenceAsset row)).map evidenceOutcome := rfl

theorem pendingInternalHttpTouchOutcome_eq (row : FeedbackRow) (events : List Settings) :
    pendingInternalHttpTouchOutcome opts row events =
      (events.find? (accepts opts eventAsset row)).map fun _ => .shallow := rfl

theorem resolved_evidenceOutcome (evidence : Settings) : (evidenceOutcome evidence).resolved := by
  rw [evidenceOutcome]
  by_cases h : mapped evidence
  · rw [if_pos h]; rfl
  · rw [if_neg h]; rfl

variable {opts} {evidence events : List Settings} {now : Int} {row : FeedbackRow}

/-- **A pending row is resolved by the records it accepts, and by nothing else.** -/
theorem resolved_updateRow_iff (hp : row.status = .pending) :
    (updateRow opts evidence events now row).status.resolved ↔
      (∃ e ∈ evidence, accepts opts evidenceAsset row e) ∨
        ∃ e ∈ events, accepts opts eventAsset row e := by
  rw [← List.find?_isSome, ← List.find?_isSome, updateRow, if_neg (not_not.mpr hp),
    pendingRevealOutcome_eq, pendingInternalHttpTouchOutcome_eq]
  cases evidence.find? (accepts opts evidenceAsset row) with
  | some e =>
    have hresolved := resolved_evidenceOutcome e
    simpa using hresolved
  | none =>
    cases events.find? (accepts opts eventAsset row) with
    | some e => simp [FeedbackStatus.resolved]
    | none =>
      by_cases hx : pendingRevealExpired opts row now
      · simp [hx, FeedbackStatus.resolved]
      · simp [hx, hp, FeedbackStatus.resolved]

end Resolve

/-! ### Attribution -/

section Attribution

variable (opts : LoopOptions)

/-- The record is of the row's attacker and binding, about its asset, and recorded at or after
the row. -/
structure Credits (asset : Settings → Option String) (row : FeedbackRow) (record : Settings) :
    Prop where
  touch : touches row (record.get "attacker_key") (asset record)
  binding : (record.get "binding_id").str? = some row.bindingId
  dated : ∃ ts, opts.parseIsoDatetime (record.get "ts") = some ts ∧ row.ts ≤ ts

/-- The logs credit the row. -/
def Attributed (evidence events : List Settings) (row : FeedbackRow) : Prop :=
  (∃ e ∈ evidence, Credits opts evidenceAsset row e) ∨ ∃ e ∈ events, Credits opts eventAsset row e

/-- An update resolves a row only where the logs credit it. -/
def AttributionSound (evidence events : List Settings) (now : Int) (file : FeedbackFile) : Prop :=
  ∀ pair ∈ file.pending.zip
      (updateRevealFeedbackFromEvidence opts evidence events now file).pending,
    pair.1.status = .pending → pair.2.status.resolved → Attributed opts evidence events pair.1

/-- The logs name the row's attacker and asset without an older date, but never with the row's
binding and a date that is not older. -/
def Misleading (evidence events : List Settings) (row : FeedbackRow) : Prop :=
  ((∃ e ∈ evidence, touches row (e.get "attacker_key") (evidenceAsset e) ∧ ¬ before opts e row) ∨
    ∃ e ∈ events, touches row (e.get "attacker_key") (eventAsset e) ∧ ¬ before opts e row) ∧
  ¬ Attributed opts evidence events row

variable {opts}

theorem accepts_iff {asset : Settings → Option String} {row : FeedbackRow} {record : Settings} :
    accepts opts asset row record ↔
      touches row (record.get "attacker_key") (asset record) ∧ ¬ before opts record row := by
  rw [accepts, Bool.and_eq_true, Bool.not_eq_true', Bool.not_eq_true]

/-- A pending row is resolved without being credited exactly if it is misleading. -/
theorem misleading_iff {evidence events : List Settings} {now : Int} {row : FeedbackRow}
    (hp : row.status = .pending) :
    Misleading opts evidence events row ↔
      (updateRow opts evidence events now row).status.resolved ∧
        ¬ Attributed opts evidence events row := by
  rw [resolved_updateRow_iff hp, Misleading]
  simp only [accepts_iff]

/-- **An update credits rows soundly if and only if no pending row is misleading.** -/
theorem attribution_iff (evidence events : List Settings) (now : Int) (file : FeedbackFile) :
    AttributionSound opts evidence events now file ↔
      ∀ row ∈ file.pending, row.status = .pending → ¬ Misleading opts evidence events row := by
  rw [AttributionSound, updateRevealFeedbackFromEvidence, ← List.map_prod_left_eq_zip]
  constructor
  · intro h row hrow hp hmisleading
    obtain ⟨hresolved, hnot⟩ := (@misleading_iff opts evidence events now row hp).mp
      hmisleading
    have hpair : (row, updateRow opts evidence events now row) ∈
        file.pending.map fun row => (row, updateRow opts evidence events now row) :=
      List.mem_map_of_mem hrow
    exact hnot (h _ hpair hp hresolved)
  · intro h pair hpair hp hresolved
    obtain ⟨row, hrow, rfl⟩ := List.mem_map.mp hpair
    by_contra hnot
    exact h row hrow hp ((misleading_iff hp).mpr ⟨hresolved, hnot⟩)

end Attribution

/-! ### Two bindings of one attacker -/

/-- The options of the loop, reading the two datetimes of the records below. -/
def sampleOptions : LoopOptions where
  parseIsoDatetime
    | .str "2026-01-01T00:01:00Z" => some 1767225660000000
    | .str "2026-01-01T00:06:40Z" => some 1767226000000000
    | _ => none
  str value := value.str?.getD ""
  feedbackWindowSeconds := 300
  maxActionsPerTrigger := 2
  keepsLoopState := true

/-- The repository, revealed to binding `b-1` at midnight. -/
def sampleRow : FeedbackRow where
  ts := 1767225600000000
  contextKey := "T1046"
  assetGroup := "code"
  bindingId := "b-1"
  attackerKey := "198.51.100.7"
  assetId := "git-internal"
  availableAssets := ["git-internal"]
  revealedAssets := ["git-internal"]

/-- The attacker reaches the repository through binding `b-2`. -/
def otherBindingEvidence : Settings :=
  [("attacker_key", .str "198.51.100.7"), ("binding_id", .str "b-2"),
    ("tech_id", .str "T1213"), ("ts", .str "2026-01-01T00:01:00Z"),
    ("source_ref", .dict [("asset_id", .str "git-internal")])]

/-- A touch through another binding makes the row useful. -/
theorem credited_across_bindings : ¬ AttributionSound sampleOptions [otherBindingEvidence] []
    1767225720000000 { pending := [sampleRow] } := by
  intro h
  have hnot : ¬ Attributed sampleOptions [otherBindingEvidence] [] sampleRow := by
    rintro (⟨record, hrecord, hcredits⟩ | ⟨record, hrecord, -⟩)
    · have hbinding := hcredits.binding
      rw [List.mem_singleton.mp hrecord] at hbinding
      exact absurd hbinding (by decide +kernel)
    · exact absurd hrecord List.not_mem_nil
  exact hnot (h _ List.mem_cons_self rfl (by decide +kernel))

end Honeynet.Loop
