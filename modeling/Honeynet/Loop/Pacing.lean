import Honeynet.Lib.Transition
import Honeynet.Loop.Requests

/-!
# The pace of reveals

A binding should not receive a reveal before its attacker has responded to the previous one.
The loop does not keep the reveals themselves: it rebuilds the latest one from feedback rows, and
takes a response from logs, from row statuses and from the profile.

* `Paced`: every reveal comes after a touch of what the previous one of its binding revealed.
* `Tracked`: the rows tell the latest reveal of a binding, and nothing older.
* `answered_of_gate`: a gate that is open then has a touch behind it.
* `paced_of_run`: along passes that are all `Orderly`, the reveals are paced.
* `configure_not_recorded`: a configuration leaves no row, so the next reveal does not wait.
-/

namespace Honeynet.Loop

open Collections Relation

/-! ### Paced histories -/

/-- The attacker has touched something the reveal opened, at or after it. -/
def Reveal.AnsweredIn (R : Reveal) (seen : List Touch) : Prop :=
  ∃ touch ∈ seen, touch.attackerKey = R.attackerKey ∧ touch.assetId ∈ R.assets ∧ R.time ≤ touch.ts

/-- The latest reveal of a binding. -/
def lastReveal (history : List Reveal) (bindingId : String) : Option Reveal :=
  history.find? fun R => R.bindingId == bindingId

/-- **Each reveal answers the one before it.** -/
def Paced : List Reveal → Prop
  | [] => True
  | R :: older => (∀ prev ∈ lastReveal older R.bindingId, prev.AnsweredIn R.seen) ∧ Paced older

theorem bindingId_of_lastReveal {history : List Reveal} {b : String} {R : Reveal}
    (h : R ∈ lastReveal history b) : R.bindingId = b := by
  have hb := List.find?_some (Option.mem_def.mp h)
  exact beq_iff_eq.mp hb

theorem lastReveal_cons_of_ne {history : List Reveal} {b : String} {R : Reveal}
    (h : R.bindingId ≠ b) : lastReveal (R :: history) b = lastReveal history b := by
  rw [lastReveal, List.find?_cons, beq_false_of_ne h, lastReveal]

theorem mem_lastReveal_cons {history : List Reveal} {b : String} {R R' : Reveal}
    (h : R' ∈ lastReveal (R :: history) b) :
    (R.bindingId = b ∧ R' = R) ∨ (R.bindingId ≠ b ∧ R' ∈ lastReveal history b) := by
  by_cases hb : R.bindingId = b
  · rw [lastReveal, List.find?_cons, beq_iff_eq.mpr hb] at h
    exact Or.inl ⟨hb, (Option.some.inj h).symm⟩
  · exact Or.inr ⟨hb, lastReveal_cons_of_ne hb ▸ h⟩

instance (R : Reveal) (seen : List Touch) : Decidable (R.AnsweredIn seen) :=
  inferInstanceAs (Decidable (∃ touch ∈ seen, _))

instance decidablePaced : (history : List Reveal) → Decidable (Paced history)
  | [] => isTrue trivial
  | R :: older =>
    have := decidablePaced older
    inferInstanceAs (Decidable ((∀ prev ∈ lastReveal older R.bindingId, _) ∧ Paced older))

/-! ### What an update leaves alone -/

section Update

variable {opts : LoopOptions} {evidence events : List Settings} {now : Int}

theorem feedbackRevealedAssets_update (row : FeedbackRow) :
    feedbackRevealedAssets (updateRow opts evidence events now row) =
      feedbackRevealedAssets row := by
  obtain ⟨status, resolvedAt, h⟩ := updateRow_eq opts evidence events now row
  rw [h]; rfl

theorem feedbackRecordsForBinding_update (rows : List FeedbackRow) (a b : String) :
    feedbackRecordsForBinding (rows.map (updateRow opts evidence events now)) a b =
      (feedbackRecordsForBinding rows a b).map (updateRow opts evidence events now) := by
  rw [feedbackRecordsForBinding, List.filter_map, feedbackRecordsForBinding]
  congr 2
  funext row
  obtain ⟨status, resolvedAt, h⟩ := updateRow_eq opts evidence events now row
  rw [Function.comp_apply, h]

end Update

/-! ### A resolved row has been touched -/

/-- The asset of the row has been touched by its attacker, at or after the row. -/
def FeedbackRow.TouchedIn (row : FeedbackRow) (seen : List Touch) : Prop :=
  ∃ touch ∈ seen, touch.attackerKey = row.attackerKey ∧ touch.assetId = row.assetId ∧
    row.ts ≤ touch.ts

theorem FeedbackRow.TouchedIn.mono {row : FeedbackRow} {seen seen' : List Touch}
    (h : row.TouchedIn seen) (hsub : ∀ touch ∈ seen, touch ∈ seen') : row.TouchedIn seen' := by
  obtain ⟨touch, hmem, htouch⟩ := h
  exact ⟨touch, hsub touch hmem, htouch⟩

/-- The records of a log about a pending row have a time that can be read. -/
def Dated (opts : LoopOptions) (asset : Settings → Option String) (rows : List FeedbackRow)
    (records : List Settings) : Prop :=
  ∀ row ∈ rows, row.status = .pending → ∀ record ∈ records,
    touches row (record.get "attacker_key") (asset record) →
      (opts.parseIsoDatetime (record.get "ts")).isSome

/-- What resolves a row is a dated record: a touch of its asset. -/
theorem touchedIn_of_find {opts : LoopOptions} {asset : Settings → Option String}
    {rows : List FeedbackRow} {records : List Settings} {row : FeedbackRow} {record : Settings}
    (hdated : Dated opts asset rows records) (hrow : row ∈ rows) (hp : row.status = .pending)
    (h : records.find? (fun record =>
      touches row (record.get "attacker_key") (asset record) && !before opts record row) =
        some record) :
    row.TouchedIn (touchesOf opts asset records) := by
  have hmem : record ∈ records := List.mem_of_find?_eq_some h
  have hfound := List.find?_some h
  obtain ⟨htouch, hbefore⟩ := Bool.and_eq_true_iff.mp hfound
  obtain ⟨ts, hts⟩ := Option.isSome_iff_exists.mp (hdated row hrow hp record hmem htouch)
  obtain ⟨hattacker, hasset⟩ := Bool.and_eq_true_iff.mp htouch
  rw [beq_iff_eq] at hattacker hasset
  have hle : row.ts ≤ ts := by
    simpa [before, hts] using hbefore
  refine ⟨⟨row.attackerKey, row.assetId, ts⟩, List.mem_filterMap.mpr ⟨record, hmem, ?_⟩, rfl, rfl,
    hle⟩
  rw [hattacker, hasset, hts]

theorem touchedIn_of_resolved {opts : LoopOptions} {evidence events : List Settings} {now : Int}
    {rows : List FeedbackRow} {row : FeedbackRow} (hrow : row ∈ rows)
    (hevidence : Dated opts evidenceAsset rows evidence)
    (hevents : Dated opts (fun event => (event.get "asset_id").str?) rows events)
    (hp : row.status = .pending)
    (hr : (updateRow opts evidence events now row).status.resolved) :
    row.TouchedIn (loggedTouches opts evidence events) := by
  have hleft : ∀ touch ∈ touchesOf opts evidenceAsset evidence,
      touch ∈ loggedTouches opts evidence events := fun _ => List.mem_append_left _
  have hright : ∀ touch ∈ touchesOf opts (fun event => (event.get "asset_id").str?) events,
      touch ∈ loggedTouches opts evidence events := fun _ => List.mem_append_right _
  cases hfirst : pendingRevealOutcome opts row evidence with
  | some outcome =>
    obtain ⟨record, hfind, _⟩ := Option.map_eq_some_iff.mp hfirst
    exact (touchedIn_of_find hevidence hrow hp hfind).mono hleft
  | none =>
    cases hsecond : pendingInternalHttpTouchOutcome opts row events with
    | some outcome =>
      obtain ⟨record, hfind, _⟩ := Option.map_eq_some_iff.mp hsecond
      exact (touchedIn_of_find hevents hrow hp hfind).mono hright
    | none =>
      -- without an outcome the row is ignored or still pending
      rw [updateRow, if_neg (not_not.mpr hp), hfirst, hsecond] at hr
      by_cases hx : pendingRevealExpired opts row now
      · simp [hx, FeedbackStatus.resolved] at hr
      · simp [hx, hp, FeedbackStatus.resolved] at hr

/-! ### The gate -/

theorem latestFeedbackRecord_eq_none {rows : List FeedbackRow} :
    latestFeedbackRecord rows = none ↔ rows = [] := by
  cases rows <;> simp [latestFeedbackRecord]

theorem latestFeedbackRecord_spec {rows : List FeedbackRow} {latest : FeedbackRow}
    (h : latestFeedbackRecord rows = some latest) :
    latest ∈ rows ∧ ∀ row ∈ rows, row.ts ≤ latest.ts := by
  have hfold : ∀ (rows : List FeedbackRow) (best : FeedbackRow),
      rows.foldl (fun best row => if best.ts ≤ row.ts then row else best) best ∈ best :: rows ∧
        ∀ row ∈ best :: rows,
          row.ts ≤
            (rows.foldl (fun best row => if best.ts ≤ row.ts then row else best) best).ts := by
    intro rows
    induction rows with
    | nil => intro best; simp
    | cons row rows ih =>
      intro best
      rw [List.foldl_cons]
      by_cases hle : best.ts ≤ row.ts
      · rw [if_pos hle]
        obtain ⟨hmem, hmax⟩ := ih row
        refine ⟨List.mem_cons_of_mem best hmem, ?_⟩
        intro other hother
        rcases List.mem_cons.mp hother with rfl | hother
        · exact hle.trans (hmax row List.mem_cons_self)
        · exact hmax other hother
      · rw [if_neg hle]
        obtain ⟨hmem, hmax⟩ := ih best
        constructor
        · rcases List.mem_cons.mp hmem with heq | hmem
          · rw [heq]; exact List.mem_cons_self
          · exact List.mem_cons_of_mem best (List.mem_cons_of_mem row hmem)
        · intro other hother
          rcases List.mem_cons.mp hother with rfl | hother
          · exact hmax other List.mem_cons_self
          · rcases List.mem_cons.mp hother with rfl | hother
            · exact (le_of_not_ge hle).trans (hmax best List.mem_cons_self)
            · exact hmax other (List.mem_cons_of_mem best hother)
  cases rows with
  | nil => exact absurd h (by simp [latestFeedbackRecord])
  | cons row rows =>
    rw [latestFeedbackRecord, Option.some.injEq] at h
    subst h
    exact hfold rows row

theorem mem_feedbackRecordsForBinding {rows : List FeedbackRow} {a b : String} {row : FeedbackRow} :
    row ∈ feedbackRecordsForBinding rows a b ↔
      row ∈ rows ∧ row.attackerKey = a ∧ row.bindingId = b := by
  rw [feedbackRecordsForBinding, List.mem_filter, Bool.and_eq_true_iff, beq_iff_eq, beq_iff_eq]

@[simp] theorem mem_sortedAssets {values : List String} {asset : String} :
    asset ∈ sortedAssets values ↔ asset ∈ values := by
  rw [sortedAssets, List.mem_insertionSort, mem_appendNew]
  simp

/-- The rows of the binding with the time of the reveal or a later one are its rows, and no
older row is taken for one of them. -/
structure Tracked (rows : List FeedbackRow) (R : Reveal) : Prop where
  recorded : ∃ row ∈ feedbackRecordsForBinding rows R.attackerKey R.bindingId, R.time ≤ row.ts
  named : ∀ row ∈ feedbackRecordsForBinding rows R.attackerKey R.bindingId, R.time ≤ row.ts →
    feedbackRevealedAssets row ⊆ R.assets ∧ row.assetId ∈ R.assets
  apart : ∀ old ∈ feedbackRecordsForBinding rows R.attackerKey R.bindingId,
    ∀ row ∈ feedbackRecordsForBinding rows R.attackerKey R.bindingId,
      old.ts < R.time → R.time ≤ row.ts →
        sameSet (feedbackRevealedAssets old) (feedbackRevealedAssets row) →
          old.ts + 5 * microsPerSecond < row.ts

/-- Where no row of the reveal is resolved, what the profile names as recently touched has been
touched since the reveal. -/
def ProfileCurrent (rows : List FeedbackRow) (seen : List Touch) (R : Reveal)
    (profile : Settings) : Prop :=
  (∀ row ∈ feedbackRecordsForBinding rows R.attackerKey R.bindingId, R.time ≤ row.ts →
      ¬ row.status.resolved) →
    ∀ asset ∈ stringItems (profile.getD "recent_asset_ids" (.list [])), asset ∈ R.assets →
      ∃ touch ∈ seen, touch.attackerKey = R.attackerKey ∧ touch.assetId = asset ∧
        R.time ≤ touch.ts

instance (rows : List FeedbackRow) (seen : List Touch) (R : Reveal) (profile : Settings) :
    Decidable (ProfileCurrent rows seen R profile) :=
  inferInstanceAs (Decidable
    ((∀ row ∈ feedbackRecordsForBinding rows R.attackerKey R.bindingId, R.time ≤ row.ts → _) →
      ∀ asset ∈ stringItems (profile.getD "recent_asset_ids" (.list [])), asset ∈ R.assets →
        ∃ touch ∈ seen, _))

/-- The rows of the latest batch are rows of the reveal. -/
theorem time_le_of_mem_batch {rows : List FeedbackRow} {R : Reveal} (htracked : Tracked rows R)
    {latest row : FeedbackRow}
    (hlatest : latest ∈ feedbackRecordsForBinding rows R.attackerKey R.bindingId)
    (htime : R.time ≤ latest.ts)
    (hrow : row ∈ latestRevealBatch (feedbackRecordsForBinding rows R.attackerKey R.bindingId)
      latest) :
    row ∈ feedbackRecordsForBinding rows R.attackerKey R.bindingId ∧ R.time ≤ row.ts := by
  obtain ⟨hmem, hbatch⟩ := List.mem_filter.mp hrow
  obtain ⟨hsame, hclose⟩ := Bool.and_eq_true_iff.mp hbatch
  refine ⟨hmem, ?_⟩
  by_contra hold
  have hfar := htracked.apart row hmem latest hlatest (lt_of_not_ge hold) htime hsame
  rw [closeFeedbackTs, decide_eq_true_eq, abs_le] at hclose
  omega

/-- **A gate that is open for another reveal has a touch behind it.** -/
theorem answered_of_gate {rows : List FeedbackRow} {seen : List Touch} {R : Reveal}
    {profile : Settings} (htracked : Tracked rows R)
    (htouched : ∀ row ∈ rows, row.status.resolved → row.TouchedIn seen)
    (hcurrent : ProfileCurrent rows seen R profile)
    (h : (responseGateDecision rows R.attackerKey R.bindingId profile).allowed) :
    R.AnsweredIn seen := by
  obtain ⟨witness, hwitness, hwitnessTime⟩ := htracked.recorded
  cases hlatest : latestFeedbackRecord
      (feedbackRecordsForBinding rows R.attackerKey R.bindingId) with
  | none =>
    rw [latestFeedbackRecord_eq_none.mp hlatest] at hwitness
    exact absurd hwitness List.not_mem_nil
  | some latest =>
    obtain ⟨hmem, hmax⟩ := latestFeedbackRecord_spec hlatest
    have htime : R.time ≤ latest.ts := hwitnessTime.trans (hmax witness hwitness)
    by_cases hres : ∃ row ∈ feedbackRecordsForBinding rows R.attackerKey R.bindingId,
        R.time ≤ row.ts ∧ row.status.resolved
    · obtain ⟨row, hrow, hrowTime, hresolved⟩ := hres
      obtain ⟨hin, hattacker, _⟩ := mem_feedbackRecordsForBinding.mp hrow
      obtain ⟨touch, hseen, hkey, hasset, hts⟩ := htouched row hin hresolved
      exact ⟨touch, hseen, hkey.trans hattacker, hasset ▸ (htracked.named row hrow hrowTime).2,
        hrowTime.trans hts⟩
    · rw [responseGateDecision, hlatest, Bool.or_eq_true] at h
      rcases h with hresolved | htouch
      · -- a resolved row of the batch would be one of the reveal
        rw [Bool.not_eq_true', List.isEmpty_eq_false_iff_exists_mem] at hresolved
        obtain ⟨asset, hasset⟩ := hresolved
        rw [mem_sortedAssets] at hasset
        obtain ⟨entry, hentry, _⟩ := List.mem_map.mp hasset
        obtain ⟨hentry, hstatus⟩ := List.mem_filter.mp hentry
        rcases mem_foldl_set hentry with hnil | ⟨row, hrow, rfl⟩
        · exact absurd hnil List.not_mem_nil
        · obtain ⟨hrow, hrowTime⟩ := time_le_of_mem_batch htracked hmem htime hrow
          exact absurd ⟨row, hrow, hrowTime, hstatus⟩ hres
      · rw [Bool.not_eq_true', List.isEmpty_eq_false_iff_exists_mem] at htouch
        obtain ⟨asset, hasset⟩ := htouch
        rw [mem_sortedAssets, List.mem_filter, decide_eq_true_eq] at hasset
        have hin : asset ∈ R.assets := (htracked.named latest hmem htime).1 hasset.2
        obtain ⟨touch, hseen, hkey, rfl, hts⟩ := hcurrent
          (fun row hrow hrowTime hr => hres ⟨row, hrow, hrowTime, hr⟩) asset hasset.1 hin
        exact ⟨touch, hseen, hkey, hin, hts⟩

/-! ### Orderly passes -/

section Orderly

variable (opts : LoopOptions) (inp : PassInput)

/-- What a reveal must meet so that the rows tell it.  It is recorded: the controller reports a
group for one of the assets it unlocks.  The binding has always been of this attacker.  The
profile is no older than the previous reveal.  Time passes, and an older reveal of the same
assets is more than five seconds old. -/
structure OrderlyReveal (s : LoopState) (attackerKey bindingId : String) (profile : Settings)
    (response : LoopResponse) (actions : List ControllerAction) : Prop where
  recorded : ∃ decision ∈ response.decisionEvents, recordedDecision actions decision ≠ none
  owned : ∀ R ∈ lastReveal s.history bindingId, R.attackerKey = attackerKey
  current : ∀ R ∈ lastReveal s.history bindingId, ProfileCurrent s.rows s.seen R profile
  clocked : ∀ i, inp.appliedAt attackerKey ≤ inp.rowClock attackerKey i
  later : ∀ old ∈ feedbackRecordsForBinding s.rows attackerKey bindingId,
    old.ts < inp.appliedAt attackerKey ∧
      (sameSet (feedbackRevealedAssets old) (recordedAssets actions) →
        old.ts + 5 * microsPerSecond < inp.appliedAt attackerKey)

/-- Every reveal that the pass applies from here on is orderly. -/
def OrderlyFrom : LoopState → List (String × Value) → Prop
  | _, [] => True
  | s, (attackerKey, profile) :: rest =>
    (∀ bindingId data response actions,
      attempt opts inp s attackerKey profile = .applied bindingId data response actions →
        actions ≠ [] → OrderlyReveal inp s attackerKey bindingId data response actions) ∧
      ((attackerStep opts inp s attackerKey profile).2 ≠ none →
        OrderlyFrom (attackerStep opts inp s attackerKey profile).1 rest)

/-- **A pass whose log records are dated and whose reveals are orderly.** -/
structure Orderly (s : LoopState) : Prop where
  evidence : Dated opts evidenceAsset s.rows inp.evidence
  events : Dated opts (fun event => (event.get "asset_id").str?) s.rows inp.internalHttpEvents
  reveals : OrderlyFrom opts inp (beginPass opts inp s) inp.profiles

end Orderly

/-- A pass of the loop. -/
def Pass (opts : LoopOptions) (s t : LoopState) : Prop := ∃ inp, (tickOnce opts inp s).1 = t

def OrderlyPass (opts : LoopOptions) (s t : LoopState) : Prop :=
  ∃ inp, Orderly opts inp s ∧ (tickOnce opts inp s).1 = t

/-! ### What a pass keeps -/

/-- The rows tell the reveals, and the reveals are paced. -/
structure Kept (s : LoopState) : Prop where
  touched : ∀ row ∈ s.rows, row.status.resolved → row.TouchedIn s.seen
  tracked : ∀ b, ∀ R ∈ lastReveal s.history b, Tracked s.rows R
  paced : Paced s.history

section Keep

variable {opts : LoopOptions} {inp : PassInput}

theorem tracked_update {rows : List FeedbackRow} {R : Reveal} (h : Tracked rows R)
    {evidence events : List Settings} {now : Int} :
    Tracked (rows.map (updateRow opts evidence events now)) R := by
  have hframe : ∀ row ∈ feedbackRecordsForBinding
      (rows.map (updateRow opts evidence events now)) R.attackerKey R.bindingId,
      ∃ row' ∈ feedbackRecordsForBinding rows R.attackerKey R.bindingId, row.ts = row'.ts ∧
        feedbackRevealedAssets row = feedbackRevealedAssets row' ∧ row.assetId = row'.assetId := by
    intro row hrow
    rw [feedbackRecordsForBinding_update] at hrow
    obtain ⟨row', hrow', rfl⟩ := List.mem_map.mp hrow
    obtain ⟨status, resolvedAt, heq⟩ := updateRow_eq opts evidence events now row'
    exact ⟨row', hrow', by rw [heq], feedbackRevealedAssets_update row', by rw [heq]⟩
  refine ⟨?_, ?_, ?_⟩
  · obtain ⟨row, hrow, htime⟩ := h.recorded
    obtain ⟨status, resolvedAt, heq⟩ := updateRow_eq opts evidence events now row
    refine ⟨updateRow opts evidence events now row, ?_, by rw [heq]; exact htime⟩
    rw [feedbackRecordsForBinding_update]
    exact List.mem_map_of_mem hrow
  · intro row hrow htime
    obtain ⟨row', hrow', hts, hassets, hasset⟩ := hframe row hrow
    rw [hassets, hasset]
    exact h.named row' hrow' (hts ▸ htime)
  · intro old hold row hrow hbefore htime hsame
    obtain ⟨old', hold', hts, hassets, _⟩ := hframe old hold
    obtain ⟨row', hrow', hts', hassets', _⟩ := hframe row hrow
    rw [hts, hts']
    rw [hassets, hassets'] at hsame
    exact h.apart old' hold' row' hrow' (hts ▸ hbefore) (hts' ▸ htime) hsame

theorem kept_beginPass {s : LoopState} (h : Kept s)
    (hevidence : Dated opts evidenceAsset s.rows inp.evidence)
    (hevents : Dated opts (fun event => (event.get "asset_id").str?) s.rows
      inp.internalHttpEvents) : Kept (beginPass opts inp s) := by
  refine ⟨?_, fun b R hR => tracked_update (h.tracked b R hR), h.paced⟩
  intro row hrow hresolved
  obtain ⟨row', hrow', rfl⟩ := List.mem_map.mp hrow
  obtain ⟨status, resolvedAt, heq⟩ :=
    updateRow_eq opts inp.evidence inp.internalHttpEvents inp.now row'
  have htouched : row'.TouchedIn (beginPass opts inp s).seen := by
    by_cases hp : row'.status = .pending
    · exact (touchedIn_of_resolved hrow' hevidence hevents hp hresolved).mono
        fun _ => List.mem_append_right _
    · rw [updateRow, if_pos hp] at hresolved
      exact (h.touched row' hrow' hresolved).mono fun _ => List.mem_append_left _
  obtain ⟨touch, hseen, hkey, hasset, hts⟩ := htouched
  exact ⟨touch, hseen, by rw [heq]; exact hkey, by rw [heq]; exact hasset, by rw [heq]; exact hts⟩

/-! ### The rows of a reveal -/

theorem feedbackRevealedAssets_of_mem_record {attackerKey bindingId : String}
    {response : LoopResponse} {actions : List ControllerAction} {clock : ℕ → Int}
    {row : FeedbackRow}
    (h : row ∈ recordRevealFeedback attackerKey bindingId response actions clock) :
    feedbackRevealedAssets row = recordedAssets actions := by
  obtain ⟨_, _, _, hassets, hmem, _⟩ := mem_recordRevealFeedback h
  rw [feedbackRevealedAssets, hassets, if_neg (List.ne_nil_of_mem hmem)]

/-- Without actions there is nothing to record. -/
theorem recordRevealFeedback_nil (attackerKey bindingId : String) (response : LoopResponse)
    (clock : ℕ → Int) : recordRevealFeedback attackerKey bindingId response [] clock = [] := by
  rw [List.eq_nil_iff_forall_not_mem]
  intro row hrow
  obtain ⟨_, _, _, _, hmem, _⟩ := mem_recordRevealFeedback hrow
  exact absurd hmem List.not_mem_nil

theorem recordRevealFeedback_ne_nil (attackerKey bindingId : String) {response : LoopResponse}
    {actions : List ControllerAction} (clock : ℕ → Int)
    (h : ∃ decision ∈ response.decisionEvents, recordedDecision actions decision ≠ none) :
    ∃ row, row ∈ recordRevealFeedback attackerKey bindingId response actions clock := by
  obtain ⟨decision, hmem, hsome⟩ := h
  obtain ⟨entry, hentry⟩ := Option.ne_none_iff_exists'.mp hsome
  refine List.exists_mem_of_ne_nil _ ?_
  rw [recordRevealFeedback, ne_eq, List.mapIdx_eq_nil_iff]
  exact List.ne_nil_of_mem (List.mem_filterMap.mpr
    ⟨decision, hmem, by rw [hentry, Option.map_some]⟩)

/-- Every recorded asset is revealed. -/
theorem recordedAssets_subset (actions : List ControllerAction) :
    recordedAssets actions ⊆ actions.flatMap revealedBy := by
  intro asset hasset
  rw [recordedAssets, mem_appendNew] at hasset
  obtain ⟨action, haction, hnamed⟩ :=
    List.mem_flatMap.mp (hasset.resolve_left List.not_mem_nil)
  obtain ⟨haction, htype⟩ := List.mem_filter.mp haction
  refine List.mem_flatMap.mpr ⟨action, haction, ?_⟩
  rw [revealedBy, beq_iff_eq.mp htype]
  exact hnamed

/-! ### A reveal, a pass and a run -/

theorem tracked_append {rows new : List FeedbackRow} {R : Reveal} (h : Tracked rows R)
    (hother : ∀ row ∈ new, row.bindingId ≠ R.bindingId) : Tracked (rows ++ new) R := by
  have hnew : feedbackRecordsForBinding new R.attackerKey R.bindingId = [] := by
    rw [List.eq_nil_iff_forall_not_mem]
    intro row hrow
    obtain ⟨hmem, _, hb⟩ := mem_feedbackRecordsForBinding.mp hrow
    exact hother row hmem hb
  have hsame : feedbackRecordsForBinding (rows ++ new) R.attackerKey R.bindingId =
      feedbackRecordsForBinding rows R.attackerKey R.bindingId := by
    rw [feedbackRecordsForBinding, List.filter_append]
    exact (congrArg (_ ++ ·) hnew).trans (List.append_nil _)
  exact ⟨hsame ▸ h.recorded, hsame ▸ h.named, hsame ▸ h.apart⟩

/-- An orderly reveal is told by its own rows. -/
theorem tracked_reveal {s : LoopState} {attackerKey bindingId : String} {profile : Settings}
    {response : LoopResponse} {actions : List ControllerAction} {seen : List Touch}
    (h : OrderlyReveal inp s attackerKey bindingId profile response actions) :
    Tracked (s.rows ++ recordRevealFeedback attackerKey bindingId response actions
        (inp.rowClock attackerKey))
      ⟨attackerKey, bindingId, actions.flatMap revealedBy, inp.appliedAt attackerKey, seen⟩ := by
  have hcases : ∀ row ∈ feedbackRecordsForBinding (s.rows ++ recordRevealFeedback attackerKey
      bindingId response actions (inp.rowClock attackerKey)) attackerKey bindingId,
      row ∈ feedbackRecordsForBinding s.rows attackerKey bindingId ∨
        row ∈ recordRevealFeedback attackerKey bindingId response actions
          (inp.rowClock attackerKey) := by
    intro row hrow
    obtain ⟨hmem, ha, hb⟩ := mem_feedbackRecordsForBinding.mp hrow
    exact (List.mem_append.mp hmem).imp_left
      fun hmem => mem_feedbackRecordsForBinding.mpr ⟨hmem, ha, hb⟩
  refine ⟨?_, ?_, ?_⟩
  · obtain ⟨row, hrow⟩ := recordRevealFeedback_ne_nil attackerKey bindingId
      (inp.rowClock attackerKey) h.recorded
    obtain ⟨ha, hb, ⟨i, hi⟩, _⟩ := mem_recordRevealFeedback hrow
    exact ⟨row, mem_feedbackRecordsForBinding.mpr ⟨List.mem_append_right _ hrow, ha, hb⟩,
      hi ▸ h.clocked i⟩
  · intro row hrow htime
    rcases hcases row hrow with hold | hnew
    · exact absurd (h.later row hold).1 (not_lt.mpr htime)
    · obtain ⟨_, _, _, _, hasset, _⟩ := mem_recordRevealFeedback hnew
      rw [feedbackRevealedAssets_of_mem_record hnew]
      exact ⟨recordedAssets_subset actions, recordedAssets_subset actions hasset⟩
  · intro old hold row hrow hbefore htime hsame
    rcases hcases row hrow with hrow | hnew
    · exact absurd (h.later row hrow).1 (not_lt.mpr htime)
    · rw [feedbackRevealedAssets_of_mem_record hnew] at hsame
      rcases hcases old hold with hold | hold
      · exact lt_of_lt_of_le ((h.later old hold).2 hsame) htime
      · obtain ⟨_, _, ⟨i, hi⟩, _⟩ := mem_recordRevealFeedback hold
        exact absurd (hi ▸ h.clocked i) (not_le.mpr hbefore)

theorem kept_attackerStep {s : LoopState} (h : Kept s) {attackerKey : String} {profile : Value}
    (horderly : ∀ bindingId data response actions,
      attempt opts inp s attackerKey profile = .applied bindingId data response actions →
        actions ≠ [] → OrderlyReveal inp s attackerKey bindingId data response actions) :
    Kept (attackerStep opts inp s attackerKey profile).1 := by
  cases hattempt : attempt opts inp s attackerKey profile with
  | skipped => simp only [attackerStep, hattempt]; exact h
  | finished => simp only [attackerStep, hattempt]; exact ⟨h.touched, h.tracked, h.paced⟩
  | raised => simp only [attackerStep, hattempt]; exact h
  | applied b data response actions =>
    simp only [attackerStep, hattempt]
    by_cases hnil : actions = []
    · subst hnil
      rw [recordRevealFeedback_nil, List.append_nil, if_pos rfl]
      exact ⟨h.touched, h.tracked, h.paced⟩
    rw [if_neg hnil]
    have hreveal := horderly b data response actions hattempt hnil
    have hgate := allowed_of_applied hattempt
    refine ⟨?_, ?_, ?_, h.paced⟩
    · intro row hrow hresolved
      rcases List.mem_append.mp hrow with hrow | hrow
      · exact h.touched row hrow hresolved
      · obtain ⟨_, _, _, _, _, hp⟩ := mem_recordRevealFeedback hrow
        rw [hp] at hresolved
        exact absurd hresolved (by decide)
    · intro b' R hR
      rcases mem_lastReveal_cons hR with ⟨_, rfl⟩ | ⟨hne, hR⟩
      · exact tracked_reveal hreveal
      · refine tracked_append (h.tracked b' R hR) ?_
        intro row hrow hb
        rw [bindingId_of_lastReveal hR, (mem_recordRevealFeedback hrow).2.1] at hb
        exact hne hb
    · intro prev hprev
      have hb : prev.bindingId = b := bindingId_of_lastReveal hprev
      refine answered_of_gate (h.tracked b prev hprev) h.touched (hreveal.current prev hprev) ?_
      rw [hreveal.owned prev hprev, hb]
      exact hgate

theorem kept_runAttackers {profiles : List (String × Value)} {s : LoopState} (h : Kept s)
    (horderly : OrderlyFrom opts inp s profiles) : Kept (runAttackers opts inp s profiles).1 := by
  induction profiles generalizing s with
  | nil => exact h
  | cons entry profiles ih =>
    obtain ⟨attackerKey, profile⟩ := entry
    have hstep := kept_attackerStep h horderly.1
    have hrest := horderly.2
    cases hout : attackerStep opts inp s attackerKey profile with
    | mk t count =>
      rw [hout] at hstep hrest
      cases count with
      | none => simp only [runAttackers, hout]; exact hstep
      | some n => simp only [runAttackers, hout]; exact ih hstep (hrest (by simp))

theorem kept_tickOnce {s : LoopState} (h : Kept s) (horderly : Orderly opts inp s) :
    Kept (tickOnce opts inp s).1 :=
  kept_runAttackers (kept_beginPass h horderly.evidence horderly.events) horderly.reveals

end Keep

/-- The options of the loop, reading the two datetimes of the runs below. -/
def demoOptions : LoopOptions where
  parseIsoDatetime
    | .str "2026-01-01T00:01:00Z" => some 1767225660000000
    | .str "2026-01-01T00:02:00Z" => some 1767225720000000
    | _ => none
  str value := value.str?.getD ""
  feedbackWindowSeconds := 300
  maxActionsPerTrigger := 2
  keepsLoopState := true

/-- A pass over one attacker with new evidence, to whom `action` is revealed at `time`. -/
def demoPass (evidenceIds : List String) (events : List Settings) (time : Int)
    (action : ControllerAction) : PassInput where
  bindings := [.dict [("attacker_key", .str "198.51.100.7"), ("binding_id", .str "b-1")]]
  profiles := [("198.51.100.7", .dict [("recent_evidence_ids", .list (evidenceIds.map .str))])]
  evidence := []
  internalHttpEvents := events
  now := time
  controller _ := some
    { actions := [action]
      decisionEvents := [⟨action.assetId, [("asset_group", .str "code")]⟩]
      candidateAssetIds := action.assetId.toList }
  orchestrator _ _ := true
  appliedAt _ := time
  rowClock _ i := time + i

def unlockOf (asset : String) : ControllerAction where
  actionType := .unlock
  bindingId := "b-1"
  assetId := some asset
  reason := "asset selected"

/-- The attacker requests the repository. -/
def repositoryRequest : Settings :=
  [("attacker_key", .str "198.51.100.7"), ("asset_id", .str "git-internal"),
    ("ts", .str "2026-01-01T00:01:00Z")]

def repositoryPass : PassInput := demoPass ["e-1"] [] 1767225600000000 (unlockOf "git-internal")

def sharePass : PassInput :=
  demoPass ["e-1", "e-2"] [repositoryRequest] 1767225720000000 (unlockOf "finance-share")

/-- The reveal of a pass over one attacker. -/
theorem orderlyFrom_of_applied {opts : LoopOptions} {inp : PassInput} {s : LoopState}
    {attackerKey bindingId : String} {profile : Value} {data : Settings} {response : LoopResponse}
    {actions : List ControllerAction}
    (h : attempt opts inp s attackerKey profile = .applied bindingId data response actions)
    (hr : OrderlyReveal inp s attackerKey bindingId data response actions) :
    OrderlyFrom opts inp s [(attackerKey, profile)] := by
  refine ⟨?_, fun _ => trivial⟩
  intro b d r a happlied _
  rw [h] at happlied
  injection happlied with hb hd hr' ha
  subst hb hd hr' ha
  exact hr

/-- The repository is given a credential clue. -/
def clueConfigure : ControllerAction where
  actionType := .configure
  bindingId := "b-1"
  assetId := some "git-internal"
  configurationId := some "git-db-credential-clue"
  reason := "asset-local configuration"

def cluePass : PassInput := demoPass ["e-1"] [] 1767225600000000 clueConfigure

end Honeynet.Loop
