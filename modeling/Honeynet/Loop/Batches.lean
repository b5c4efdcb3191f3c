import Honeynet.Loop.Pacing

/-!
# The latest call that revealed something

The feedback file keeps rows, not calls: the gate takes for the latest reveal the rows that are
close in time to the newest one and name the same assets.  Here every row is kept together with
the number of the call that wrote it.

* `feedbackFile`: the file under calls for one binding, updates of statuses and rows of others.
* `History.run`: the same file with the calls, and the last call that wrote a row.
* `keepsCalls_run`: what the history records of every run.
* `latestRevealBatch_eq`: the gate's batch is the rows of the last call.
* `gate_judges_last_call`: the gate is open if and only if no call wrote a row, or a row of the last
  such call is resolved, or the profile names one of the assets that it revealed.
-/

namespace Honeynet.Loop

open Collections

/-! ### The file and its history -/

/-- What happens to the feedback file, from the point of view of one binding. -/
inductive FeedbackStep
  | record (response : LoopResponse) (applied : List ControllerAction) (clock : ℕ → Int)
  | update (outcome : ℕ → FeedbackStatus × Option Int)
  | other (row : FeedbackRow)

/-- A row with this outcome. -/
def FeedbackRow.resolve (row : FeedbackRow) (outcome : FeedbackStatus × Option Int) :
    FeedbackRow := { row with status := outcome.1, resolvedAt := outcome.2 }

/-- A row, with the number of the call that wrote it if it is a row of the binding. -/
structure TracedRow where
  call : Option ℕ
  row : FeedbackRow

/-- The last call that wrote a row: its number, and the assets that it revealed. -/
structure LastCall where
  number : ℕ
  assets : List String
  deriving DecidableEq

structure History where
  rows : List TracedRow := []
  calls : ℕ := 0
  last : Option LastCall := none

section Steps

variable (attackerKey bindingId : String)

/-- The rows of the file after a step. -/
def feedbackFile (rows : List FeedbackRow) : FeedbackStep → List FeedbackRow
  | .record response applied clock =>
    rows ++ recordRevealFeedback attackerKey bindingId response applied clock
  | .update outcome => rows.mapIdx fun i row => row.resolve (outcome i)
  | .other row => rows ++ [row]

def History.step (h : History) : FeedbackStep → History
  | .record response applied clock =>
    let written := recordRevealFeedback attackerKey bindingId response applied clock
    { rows := h.rows ++ written.map (TracedRow.mk (some h.calls))
      calls := h.calls + 1
      last := if written = [] then h.last else some ⟨h.calls, recordedAssets applied⟩ }
  | .update outcome =>
    { h with rows := h.rows.mapIdx fun i x => { x with row := x.row.resolve (outcome i) } }
  | .other row => { h with rows := h.rows ++ [⟨none, row⟩] }

def History.run (steps : List FeedbackStep) : History :=
  steps.foldl (History.step attackerKey bindingId) {}

/-- The decisions of a call add different assets, and a row of others is not of the binding. -/
def FeedbackStep.Admissible : FeedbackStep → Prop
  | .record response _ _ => (response.decisionEvents.filterMap Decision.assetAdded).Nodup
  | .update _ => True
  | .other row => ¬ (row.attackerKey = attackerKey ∧ row.bindingId = bindingId)

end Steps

/-- The rows of one call are at most five seconds apart, those of two calls are more, and those of
the later call are not older. -/
structure CallsApart (rows : List TracedRow) : Prop where
  ordered : ∀ x ∈ rows, ∀ m ∈ x.call, ∀ y ∈ rows, ∀ n ∈ y.call, m < n → x.row.ts ≤ y.row.ts
  together : ∀ x ∈ rows, ∀ m ∈ x.call, ∀ y ∈ rows, ∀ n ∈ y.call, m = n →
    |x.row.ts - y.row.ts| ≤ 5 * microsPerSecond
  apart : ∀ x ∈ rows, ∀ m ∈ x.call, ∀ y ∈ rows, ∀ n ∈ y.call, m ≠ n →
    5 * microsPerSecond < |x.row.ts - y.row.ts|

/-- The last call that wrote a row, if there is one, has got a response. -/
def LastCallAnswered (h : History) (profile : Settings) : Prop :=
  ∀ last, h.last = some last →
    (∃ x ∈ h.rows, x.call = some last.number ∧ x.row.status.resolved) ∨
      ∃ asset ∈ last.assets, asset ∈ stringItems (profile.getD "recent_asset_ids" (.list []))

section Runs

variable {attackerKey bindingId : String}

/-- The history has the rows of the file. -/
theorem rows_step (h : History) (step : FeedbackStep) :
    (h.step attackerKey bindingId step).rows.map TracedRow.row =
      feedbackFile attackerKey bindingId (h.rows.map TracedRow.row) step := by
  cases step with
  | record response applied clock =>
    rw [History.step, feedbackFile, List.map_append, List.map_map]
    exact congrArg _ (List.map_id _)
  | update outcome =>
    refine List.ext_getElem (by simp [History.step, feedbackFile]) fun i _ _ => ?_
    simp [History.step, feedbackFile]
  | other row => rw [History.step, feedbackFile, List.map_append]; rfl

theorem rows_run (steps : List FeedbackStep) :
    (History.run attackerKey bindingId steps).rows.map TracedRow.row =
      steps.foldl (feedbackFile attackerKey bindingId) [] := by
  induction steps using List.reverseRecOn with
  | nil => rfl
  | append_singleton steps step ih =>
    rw [History.run, List.foldl_append, List.foldl_append, ← ih]
    exact rows_step _ step

/-- The loop's own update of the statuses is such a step. -/
theorem exists_feedbackFile_update (opts : LoopOptions) (evidence events : List Settings)
    (now : Int) (rows : List FeedbackRow) : ∃ outcome,
      feedbackFile attackerKey bindingId rows (.update outcome) =
        rows.map (updateRow opts evidence events now) := by
  refine ⟨fun i => ((rows[i]?.map (updateRow opts evidence events now)).map fun row =>
    (row.status, row.resolvedAt)).getD (.pending, none), ?_⟩
  refine List.ext_getElem (by simp [feedbackFile]) fun i hi _ => ?_
  have hi' : i < rows.length := by simpa [feedbackFile] using hi
  obtain ⟨status, resolvedAt, hrow⟩ := updateRow_eq opts evidence events now rows[i]
  simp [feedbackFile, List.getElem?_eq_getElem hi', hrow, FeedbackRow.resolve]

/-! ### What a run keeps -/

/-- The call has written rows, as no later one has, that name its assets and are about different
ones. -/
structure LastWrote (rows : List TracedRow) (last : LastCall) : Prop where
  written : ∃ x ∈ rows, x.call = some last.number
  latest : ∀ x ∈ rows, ∀ m ∈ x.call, m ≤ last.number
  assets : ∀ x ∈ rows, x.call = some last.number → feedbackRevealedAssets x.row = last.assets
  distinct :
    ((rows.filter fun x => x.call = some last.number).map fun x => x.row.assetId).Nodup

variable (attackerKey bindingId) in
/-- The rows of the binding are those of the calls, and the last call that wrote one is known. -/
structure KeepsCalls (h : History) : Prop where
  own : ∀ x ∈ h.rows,
    x.call.isSome ↔ x.row.attackerKey = attackerKey ∧ x.row.bindingId = bindingId
  numbers : ∀ x ∈ h.rows, ∀ m ∈ x.call, m < h.calls
  none : h.last = none → ∀ x ∈ h.rows, x.call = none
  last : ∀ last, h.last = some last → LastWrote h.rows last

/-- The rows of a call are about different assets if its decisions add different ones. -/
theorem nodup_recordRevealFeedback (response : LoopResponse) (applied : List ControllerAction)
    (clock : ℕ → Int) (h : (response.decisionEvents.filterMap Decision.assetAdded).Nodup) :
    ((recordRevealFeedback attackerKey bindingId response applied clock).map
      FeedbackRow.assetId).Nodup := by
  have hassets : (recordRevealFeedback attackerKey bindingId response applied clock).map
      FeedbackRow.assetId = response.decisionEvents.filterMap fun decision =>
        (recordedDecision applied decision).map Prod.fst := by
    have hmap : (recordRevealFeedback attackerKey bindingId response applied clock).map
        FeedbackRow.assetId = (response.decisionEvents.filterMap fun decision =>
          (recordedDecision applied decision).map fun entry => (decision, entry)).map
            fun entry => entry.2.1 :=
      List.ext_getElem (by simp [recordRevealFeedback]) fun i _ _ => by
        simp [recordRevealFeedback]
    rw [hmap, List.map_filterMap]
    refine List.filterMap_congr fun decision _ => ?_
    rw [Option.map_map]
    rfl
  have hsublist : ((recordRevealFeedback attackerKey bindingId response applied clock).map
      FeedbackRow.assetId).Sublist (response.decisionEvents.filterMap Decision.assetAdded) := by
    rw [hassets]
    refine filterMap_sublist (fun decision asset hasset => ?_) _
    obtain ⟨⟨asset', group⟩, hentry, rfl⟩ := Option.map_eq_some_iff.mp hasset
    exact (of_recordedDecision hentry).1
  exact hsublist.nodup h

section Step

variable {h : History}

theorem keepsCalls_other (hkeeps : KeepsCalls attackerKey bindingId h) {row : FeedbackRow}
    (hrow : ¬ (row.attackerKey = attackerKey ∧ row.bindingId = bindingId)) :
    KeepsCalls attackerKey bindingId (h.step attackerKey bindingId (.other row)) := by
  have hmem {x : TracedRow} (hx : x ∈ h.rows ++ [⟨none, row⟩]) : x ∈ h.rows ∨ x = ⟨none, row⟩ :=
    (List.mem_append.mp hx).imp_right List.mem_singleton.mp
  refine ⟨fun x hx => ?_, fun x hx m hm => ?_, fun hnone x hx => ?_, fun last hlast => ?_⟩
  · rcases hmem hx with hx | rfl
    · exact hkeeps.own x hx
    · exact iff_of_false (by simp) hrow
  · rcases hmem hx with hx | rfl
    · exact hkeeps.numbers x hx m hm
    · cases hm
  · rcases hmem hx with hx | rfl
    · exact hkeeps.none hnone x hx
    · rfl
  · obtain ⟨⟨y, hy, hcall⟩, hlatest, hassets, hdistinct⟩ := hkeeps.last last hlast
    refine ⟨⟨y, List.mem_append_left _ hy, hcall⟩, fun x hx m hm => ?_, fun x hx hcall => ?_, ?_⟩
    · rcases hmem hx with hx | rfl
      · exact hlatest x hx m hm
      · cases hm
    · rcases hmem hx with hx | rfl
      · exact hassets x hx hcall
      · cases hcall
    · rw [History.step, List.filter_append, List.filter_cons_of_neg (by simp), List.filter_nil,
        List.append_nil]
      exact hdistinct

theorem keepsCalls_update (hkeeps : KeepsCalls attackerKey bindingId h)
    (outcome : ℕ → FeedbackStatus × Option Int) :
    KeepsCalls attackerKey bindingId (h.step attackerKey bindingId (.update outcome)) := by
  have hmem {x : TracedRow} (hx : x ∈ (h.step attackerKey bindingId (.update outcome)).rows) :
      ∃ y ∈ h.rows, ∃ i, { y with row := y.row.resolve (outcome i) } = x := by
    obtain ⟨i, hi, rfl⟩ := List.mem_mapIdx.mp hx
    exact ⟨h.rows[i], List.getElem_mem hi, i, rfl⟩
  refine ⟨fun x hx => ?_, fun x hx m hm => ?_, fun hnone x hx => ?_, fun last hlast => ?_⟩
  · obtain ⟨y, hy, i, rfl⟩ := hmem hx
    exact hkeeps.own y hy
  · obtain ⟨y, hy, i, rfl⟩ := hmem hx
    exact hkeeps.numbers y hy m hm
  · obtain ⟨y, hy, i, rfl⟩ := hmem hx
    exact hkeeps.none hnone y hy
  · obtain ⟨⟨y, hy, hcall⟩, hlatest, hassets, hdistinct⟩ := hkeeps.last last hlast
    refine ⟨?_, fun x hx m hm => ?_, fun x hx hcall => ?_, ?_⟩
    · obtain ⟨i, hi, rfl⟩ := List.getElem_of_mem hy
      exact ⟨_, List.mem_mapIdx.mpr ⟨i, hi, rfl⟩, hcall⟩
    · obtain ⟨y, hy, i, rfl⟩ := hmem hx
      exact hlatest y hy m hm
    · obtain ⟨y, hy, i, rfl⟩ := hmem hx
      exact hassets y hy hcall
    · have hmap := map_filter_mapIdx
        (f := fun i (x : TracedRow) => { x with row := x.row.resolve (outcome i) })
        (p := fun x => x.call = some last.number) (k := fun x => x.row.assetId)
        (fun _ _ => rfl) (fun _ _ => rfl) h.rows
      rw [History.step, hmap]
      exact hdistinct

/-- The rows that a call adds are the last. -/
theorem lastWrote_record (hkeeps : KeepsCalls attackerKey bindingId h) {response : LoopResponse}
    (hdistinct : (response.decisionEvents.filterMap Decision.assetAdded).Nodup)
    {applied : List ControllerAction} {clock : ℕ → Int} {written : List FeedbackRow}
    (hwritten : recordRevealFeedback attackerKey bindingId response applied clock = written)
    (hne : written ≠ []) :
    LastWrote (h.rows ++ written.map (TracedRow.mk (some h.calls)))
      ⟨h.calls, recordedAssets applied⟩ := by
  have hnew {x : TracedRow} (hx : x ∈ h.rows) : x.call ≠ some h.calls := fun hcall =>
    lt_irrefl _ (hkeeps.numbers x hx h.calls hcall)
  refine ⟨?_, fun x hx m hm => ?_, fun x hx hcall => ?_, ?_⟩
  · obtain ⟨row, hrow⟩ := List.exists_mem_of_ne_nil written hne
    exact ⟨_, List.mem_append_right _ (List.mem_map_of_mem hrow), rfl⟩
  · rcases List.mem_append.mp hx with hx | hx
    · exact (hkeeps.numbers x hx m hm).le
    · obtain ⟨row, -, rfl⟩ := List.mem_map.mp hx
      exact (Option.some.inj hm).ge
  · rcases List.mem_append.mp hx with hx | hx
    · exact absurd hcall (hnew hx)
    · obtain ⟨row, hrow, rfl⟩ := List.mem_map.mp hx
      exact feedbackRevealedAssets_of_mem_record (hwritten ▸ hrow)
  · have hold : h.rows.filter (fun x => x.call = some h.calls) = [] :=
      List.filter_eq_nil_iff.mpr fun x hx => by simpa using hnew hx
    have hall : (written.map (TracedRow.mk (some h.calls))).filter
        (fun x => x.call = some h.calls) = written.map (TracedRow.mk (some h.calls)) :=
      List.filter_eq_self.mpr fun x hx => by
        obtain ⟨row, -, rfl⟩ := List.mem_map.mp hx
        simp
    rw [List.filter_append, hold, hall, List.nil_append, List.map_map]
    exact hwritten ▸ nodup_recordRevealFeedback response applied clock hdistinct

theorem keepsCalls_record (hkeeps : KeepsCalls attackerKey bindingId h) {response : LoopResponse}
    (hdistinct : (response.decisionEvents.filterMap Decision.assetAdded).Nodup)
    (applied : List ControllerAction) (clock : ℕ → Int) :
    KeepsCalls attackerKey bindingId
      (h.step attackerKey bindingId (.record response applied clock)) := by
  rw [History.step]
  generalize hwritten : recordRevealFeedback attackerKey bindingId response applied clock = written
  have hmem {x : TracedRow} (hx : x ∈ h.rows ++ written.map (TracedRow.mk (some h.calls))) :
      x ∈ h.rows ∨ ∃ row ∈ written, TracedRow.mk (some h.calls) row = x :=
    (List.mem_append.mp hx).imp_right List.mem_map.mp
  refine ⟨fun x hx => ?_, fun x hx m hm => ?_, fun hnone x hx => ?_, fun last hlast => ?_⟩
  · rcases hmem hx with hx | ⟨row, hrow, rfl⟩
    · exact hkeeps.own x hx
    · obtain ⟨hattacker, hbinding, -⟩ := mem_recordRevealFeedback (hwritten ▸ hrow)
      exact iff_of_true rfl ⟨hattacker, hbinding⟩
  · rcases hmem hx with hx | ⟨row, -, rfl⟩
    · exact (hkeeps.numbers x hx m hm).trans (Nat.lt_succ_self _)
    · exact (Option.some.inj hm).ge.trans_lt (Nat.lt_succ_self _)
  · by_cases hnil : written = []
    · subst hnil
      rw [List.map_nil, List.append_nil] at hx
      exact hkeeps.none hnone x hx
    · exact absurd hnone (by simp [hnil])
  · by_cases hnil : written = []
    · subst hnil
      rw [List.map_nil, List.append_nil]
      exact hkeeps.last last hlast
    · rw [show last = ⟨h.calls, recordedAssets applied⟩ by simpa [hnil] using hlast.symm]
      exact lastWrote_record hkeeps hdistinct hwritten hnil

end Step

/-- **A run keeps the calls.** -/
theorem keepsCalls_run {steps : List FeedbackStep}
    (hsteps : ∀ step ∈ steps, step.Admissible attackerKey bindingId) :
    KeepsCalls attackerKey bindingId (History.run attackerKey bindingId steps) := by
  induction steps using List.reverseRecOn with
  | nil =>
    exact ⟨fun _ hx => absurd hx List.not_mem_nil, fun _ hx => absurd hx List.not_mem_nil,
      fun _ _ hx => absurd hx List.not_mem_nil, fun _ hlast => by cases hlast⟩
  | append_singleton steps step ih =>
    have hkeeps := ih fun s hs => hsteps s (List.mem_append_left _ hs)
    have hstep := hsteps step (List.mem_append_right _ (List.mem_singleton_self step))
    rw [History.run, List.foldl_append]
    cases step with
    | record response applied clock => exact keepsCalls_record hkeeps hstep applied clock
    | update outcome => exact keepsCalls_update hkeeps outcome
    | other row => exact keepsCalls_other hkeeps hstep

/-! ### The gate -/

/-- The gate on a batch that names each asset once. -/
theorem allowed_iff {rows : List FeedbackRow} {profile : Settings} {latest : FeedbackRow}
    (hlatest : latestFeedbackRecord (feedbackRecordsForBinding rows attackerKey bindingId) =
      some latest)
    (hnodup : ((latestRevealBatch (feedbackRecordsForBinding rows attackerKey bindingId)
      latest).map FeedbackRow.assetId).Nodup) :
    (responseGateDecision rows attackerKey bindingId profile).allowed = true ↔
      (∃ row ∈ latestRevealBatch (feedbackRecordsForBinding rows attackerKey bindingId) latest,
        row.status.resolved) ∨
      ∃ asset ∈ feedbackRevealedAssets latest,
        asset ∈ stringItems (profile.getD "recent_asset_ids" (.list [])) := by
  generalize hbatch : latestRevealBatch (feedbackRecordsForBinding rows attackerKey bindingId)
    latest = batch at hnodup ⊢
  have hstatuses : batch.foldl (fun statuses row => Dict.set statuses row.assetId row.status) [] =
      batch.map fun row => (row.assetId, row.status) :=
    foldl_set_of_nodup FeedbackRow.assetId FeedbackRow.status batch [] hnodup
  have hempty {values : List String} :
      (!(sortedAssets values).isEmpty) = true ↔ ∃ asset, asset ∈ values := by
    rw [Bool.not_eq_true', List.isEmpty_eq_false_iff_exists_mem]
    exact exists_congr fun asset => mem_sortedAssets
  rw [responseGateDecision, hlatest, Bool.or_eq_true, hbatch, hstatuses, hempty, hempty]
  refine or_congr ?_ ?_
  · simp only [List.mem_map, List.mem_filter]
    constructor
    · rintro ⟨_, _, ⟨⟨row, hrow, rfl⟩, hresolved⟩, -⟩
      exact ⟨row, hrow, hresolved⟩
    · rintro ⟨row, hrow, hresolved⟩
      exact ⟨_, _, ⟨⟨row, hrow, rfl⟩, hresolved⟩, rfl⟩
  · simp only [List.mem_filter, decide_eq_true_eq]
    exact exists_congr fun asset => and_comm

section Gate

variable {h : History}

/-- The rows of the binding are those of the calls. -/
theorem feedbackRecordsForBinding_rows (hkeeps : KeepsCalls attackerKey bindingId h) :
    feedbackRecordsForBinding (h.rows.map TracedRow.row) attackerKey bindingId =
      (h.rows.filter fun x => x.call.isSome).map TracedRow.row := by
  rw [feedbackRecordsForBinding, List.filter_map]
  refine congrArg _ (List.filter_congr fun x hx => ?_)
  rw [Bool.eq_iff_iff, Function.comp_apply, Bool.and_eq_true_iff, beq_iff_eq, beq_iff_eq]
  exact (hkeeps.own x hx).symm

/-- The newest row is one of the last call. -/
theorem call_of_latest {last : LastCall} (hwrote : LastWrote h.rows last)
    (hapart : CallsApart h.rows) {x : TracedRow} (hx : x ∈ h.rows) {m : ℕ} (hcall : x.call = some m)
    (hmax : ∀ y ∈ h.rows, y.call.isSome → y.row.ts ≤ x.row.ts) : m = last.number := by
  by_contra hne
  obtain ⟨y, hy, hlast⟩ := hwrote.written
  have hlt : m < last.number := lt_of_le_of_ne (hwrote.latest x hx m hcall) hne
  have hle : x.row.ts ≤ y.row.ts := hapart.ordered x hx m hcall y hy last.number hlast hlt
  have hge : y.row.ts ≤ x.row.ts := hmax y hy (by rw [hlast]; rfl)
  have hfar := hapart.apart x hx m hcall y hy last.number hlast hne
  rw [le_antisymm hle hge, sub_self, abs_zero, microsPerSecond] at hfar
  omega

/-- **The batch of the gate is what the last call wrote.** -/
theorem latestRevealBatch_eq (hkeeps : KeepsCalls attackerKey bindingId h) {last : LastCall}
    (hwrote : LastWrote h.rows last) (hapart : CallsApart h.rows) {x : TracedRow} (hx : x ∈ h.rows)
    (hcall : x.call = some last.number) :
    latestRevealBatch (feedbackRecordsForBinding (h.rows.map TracedRow.row) attackerKey bindingId)
        x.row =
      (h.rows.filter fun y => y.call = some last.number).map TracedRow.row := by
  rw [feedbackRecordsForBinding_rows hkeeps, latestRevealBatch, List.filter_map, List.filter_filter]
  refine congrArg _ (List.filter_congr fun y hy => ?_)
  rw [Bool.eq_iff_iff, Bool.and_eq_true_iff, decide_eq_true_eq, Function.comp_apply,
    Bool.and_eq_true_iff, closeFeedbackTs, decide_eq_true_eq]
  constructor
  · rintro ⟨⟨-, hclose⟩, hsome⟩
    obtain ⟨n, hn⟩ := Option.isSome_iff_exists.mp hsome
    by_contra hne
    refine absurd hclose (not_le.mpr (hapart.apart x hx last.number hcall y hy n hn ?_))
    rintro rfl
    exact hne hn
  · intro hn
    refine ⟨⟨?_, hapart.together x hx _ hcall y hy _ hn rfl⟩, by rw [hn]; rfl⟩
    rw [hwrote.assets x hx hcall, hwrote.assets y hy hn, sameSet, decide_eq_true_eq]
    exact ⟨List.Subset.refl _, List.Subset.refl _⟩

/-- No row of the binding, and no call that wrote one. -/
theorem last_eq_none (hkeeps : KeepsCalls attackerKey bindingId h)
    (hlatest : latestFeedbackRecord (feedbackRecordsForBinding (h.rows.map TracedRow.row)
      attackerKey bindingId) = none) : h.last = none := by
  by_contra hsome
  obtain ⟨last, hlast⟩ := Option.ne_none_iff_exists'.mp hsome
  obtain ⟨x, hx, hcall⟩ := (hkeeps.last last hlast).written
  have hrecords := latestFeedbackRecord_eq_none.mp hlatest
  rw [feedbackRecordsForBinding_rows hkeeps, List.map_eq_nil_iff, List.filter_eq_nil_iff]
    at hrecords
  exact hrecords x hx (by rw [hcall]; rfl)

/-- The newest row of the binding was written by the last call that wrote any. -/
theorem last_of_latest (hkeeps : KeepsCalls attackerKey bindingId h)
    (hapart : CallsApart h.rows) {latest : FeedbackRow}
    (hlatest : latestFeedbackRecord (feedbackRecordsForBinding (h.rows.map TracedRow.row)
      attackerKey bindingId) = some latest) :
    ∃ last, h.last = some last ∧ ∃ x ∈ h.rows, x.row = latest ∧ x.call = some last.number := by
  obtain ⟨hmem, hmax⟩ := latestFeedbackRecord_spec hlatest
  rw [feedbackRecordsForBinding_rows hkeeps] at hmem hmax
  obtain ⟨x, hx, rfl⟩ := List.mem_map.mp hmem
  obtain ⟨hx, hsome⟩ := List.mem_filter.mp hx
  obtain ⟨m, hcall⟩ := Option.isSome_iff_exists.mp hsome
  obtain ⟨last, hlast⟩ : ∃ last, h.last = some last := by
    refine Option.ne_none_iff_exists'.mp fun hnone => ?_
    rw [hkeeps.none hnone x hx] at hcall
    cases hcall
  obtain rfl : m = last.number := call_of_latest (hkeeps.last last hlast) hapart hx hcall
    fun y hy hy' => hmax y.row (List.mem_map_of_mem (List.mem_filter.mpr ⟨hy, hy'⟩))
  exact ⟨last, hlast, x, hx, rfl, hcall⟩

/-- The gate where the calls are known. -/
theorem allowed_iff_of_keepsCalls (hkeeps : KeepsCalls attackerKey bindingId h)
    (hapart : CallsApart h.rows) (profile : Settings) :
    (responseGateDecision (h.rows.map TracedRow.row) attackerKey bindingId profile).allowed = true ↔
      LastCallAnswered h profile := by
  cases hlatest : latestFeedbackRecord
      (feedbackRecordsForBinding (h.rows.map TracedRow.row) attackerKey bindingId) with
  | none =>
    have hnone := last_eq_none hkeeps hlatest
    rw [responseGateDecision, hlatest]
    exact iff_of_true rfl fun last hlast => by rw [hnone] at hlast; cases hlast
  | some latest =>
    obtain ⟨last, hlast, x, hx, rfl, hcall⟩ := last_of_latest hkeeps hapart hlatest
    have hwrote := hkeeps.last last hlast
    have hbatch := latestRevealBatch_eq hkeeps hwrote hapart hx hcall
    rw [allowed_iff hlatest (by rw [hbatch, List.map_map]; exact hwrote.distinct), hbatch,
      hwrote.assets x hx hcall]
    constructor
    · rintro hanswer last' hlast'
      obtain rfl : last = last' := Option.some.inj (hlast.symm.trans hlast')
      refine hanswer.imp_left ?_
      rintro ⟨row, hrow, hresolved⟩
      obtain ⟨y, hy, rfl⟩ := List.mem_map.mp hrow
      obtain ⟨hy, hycall⟩ := List.mem_filter.mp hy
      exact ⟨y, hy, of_decide_eq_true hycall, hresolved⟩
    · intro hanswer
      refine (hanswer last hlast).imp_left ?_
      rintro ⟨y, hy, hycall, hresolved⟩
      exact ⟨y.row, List.mem_map_of_mem (List.mem_filter.mpr ⟨hy, decide_eq_true hycall⟩),
        hresolved⟩

end Gate

/-- **The gate judges the last call that wrote a row.** -/
theorem gate_judges_last_call {steps : List FeedbackStep}
    (hsteps : ∀ step ∈ steps, step.Admissible attackerKey bindingId)
    (hapart : CallsApart (History.run attackerKey bindingId steps).rows) (profile : Settings) :
    (responseGateDecision (steps.foldl (feedbackFile attackerKey bindingId) []) attackerKey
        bindingId profile).allowed = true ↔
      LastCallAnswered (History.run attackerKey bindingId steps) profile := by
  rw [← rows_run]
  exact allowed_iff_of_keepsCalls (keepsCalls_run hsteps) hapart profile

end Runs

/-- A repository and a share are revealed at this time. -/
def revealAt (time : Int) : FeedbackStep :=
  .record
    { actions := [unlockOf "git-internal", unlockOf "finance-share"]
      decisionEvents :=
        [⟨some "git-internal", [("asset_group", .str "code")]⟩,
          ⟨some "finance-share", [("asset_group", .str "finance")]⟩]
      candidateAssetIds := ["git-internal", "finance-share"] }
    [unlockOf "git-internal", unlockOf "finance-share"] fun i => time + i

/-- Two reveals two minutes apart, of which the repository of the first is requested. -/
def repeatedReveal : List FeedbackStep :=
  [revealAt 1767225600000000, .update fun i => (if i = 0 then .shallow else .pending, none),
    revealAt 1767225720000000]

/-- An answer to an earlier reveal of the same assets does not open the gate, a touch of one of
them does. -/
theorem repeatedReveal_waits :
    (responseGateDecision (repeatedReveal.foldl (feedbackFile "198.51.100.7" "b-1") [])
        "198.51.100.7" "b-1" []).allowed = false ∧
      (responseGateDecision (repeatedReveal.foldl (feedbackFile "198.51.100.7" "b-1") [])
        "198.51.100.7" "b-1"
        [("recent_asset_ids", .list [.str "finance-share"])]).allowed = true := by
  have hsteps : ∀ step ∈ repeatedReveal, step.Admissible "198.51.100.7" "b-1" := by
    intro step hstep
    simp only [repeatedReveal, List.mem_cons, List.not_mem_nil, or_false] at hstep
    rcases hstep with rfl | rfl | rfl
    · exact (by decide : ["git-internal", "finance-share"].Nodup)
    · trivial
    · exact (by decide : ["git-internal", "finance-share"].Nodup)
  have hapart : CallsApart (History.run "198.51.100.7" "b-1" repeatedReveal).rows :=
    ⟨by decide +kernel, by decide +kernel, by decide +kernel⟩
  have hlast : (History.run "198.51.100.7" "b-1" repeatedReveal).last =
      some ⟨1, ["git-internal", "finance-share"]⟩ := by decide +kernel
  constructor
  · rw [Bool.eq_false_iff, ne_eq, gate_judges_last_call hsteps hapart]
    intro hanswered
    exact absurd (hanswered _ hlast) (by decide +kernel)
  · rw [gate_judges_last_call hsteps hapart]
    intro last hlast'
    obtain rfl := Option.some.inj (hlast.symm.trans hlast')
    exact Or.inr ⟨"finance-share", by decide, by decide +kernel⟩

end Honeynet.Loop
