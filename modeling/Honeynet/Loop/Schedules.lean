import Honeynet.Loop.Attribution

/-!
# When the loop polls

The status of a reveal should depend on what its attacker did, not on when the loop looked.  The
loop gives a row its status in the first pass that finds a touch, or finds the window closed.

* `EventLog`: a log with the times of its entries, and what a pass at some time sees of it.
* `runPasses`: the updates of a schedule of passes.
* `settledAs`: the status a pass gives a pending row; the first one is kept.
* `settled_iff`: every pass gives the same one exactly if the touches are `Timely`.
* `balance_runPasses`: the counters count the rows that were resolved.
* `pollingIndependent_iff`: schedules agree if and only if every pending row is timely.
* `late_touch`: a touch after the window counts unless a pass has run in between.
-/

namespace Honeynet.Loop

open Collections

/-! ### Logs and schedules -/

def attackerOf (record : Settings) : Option String := (record.get "attacker_key").str?

/-- The entries of a log, each with the time it was logged; those of one attacker stand in the
order of logging. -/
structure EventLog where
  entries : List (Int × Settings)
  ordered : entries.Pairwise fun a b => attackerOf a.2 = attackerOf b.2 → a.1 ≤ b.1

/-- The records logged until `now`. -/
def EventLog.visible (log : EventLog) (now : Int) : List Settings :=
  (log.entries.filter fun entry => entry.1 ≤ now).map Prod.snd

/-- The times of passes, the last of which finds the window of every row closed. -/
structure Schedule (opts : LoopOptions) (rows : List FeedbackRow) where
  passes : List Int
  ordered : passes.Pairwise (· ≤ ·)
  closing : ∃ last ∈ passes.getLast?, ∀ row ∈ rows, pendingRevealExpired opts row last

section Passes

variable (opts : LoopOptions) (evidence events : EventLog)

/-- One row in a pass that sees what has been logged until then. -/
def passRow (row : FeedbackRow) (now : Int) : FeedbackRow :=
  updateRow opts (evidence.visible now) (events.visible now) now row

/-- The passes of a schedule, each with what has been logged until then. -/
def runPasses (file : FeedbackFile) (passes : List Int) : FeedbackFile :=
  passes.foldl (fun file now =>
    updateRevealFeedbackFromEvidence opts (evidence.visible now) (events.visible now) now file) file

/-- Any two schedules leave the same statuses and the same counters. -/
def PollingIndependent (file : FeedbackFile) : Prop :=
  ∀ s s' : Schedule opts file.pending,
    (runPasses opts evidence events file s.passes).pending.map FeedbackRow.status =
        (runPasses opts evidence events file s'.passes).pending.map FeedbackRow.status ∧
      ∀ context group outcome,
        countOf (runPasses opts evidence events file s.passes).contexts context group outcome =
          countOf (runPasses opts evidence events file s'.passes).contexts context group outcome

/-! ### The status of a row -/

/-- The status a pass gives a pending row. -/
def settledAs (row : FeedbackRow) (now : Int) : Option FeedbackStatus :=
  (pendingRevealOutcome opts row (evidence.visible now)).or
    ((pendingInternalHttpTouchOutcome opts row (events.visible now)).or
      (if pendingRevealExpired opts row now then some .ignored else none))

variable {opts evidence events}

theorem passRow_eq {row : FeedbackRow} (hp : row.status = .pending) (now : Int) :
    passRow opts evidence events row now =
      match settledAs opts evidence events row now with
      | some outcome => { row with status := outcome, resolvedAt := some now }
      | none => row := by
  rw [passRow, updateRow, if_neg (not_not.mpr hp), settledAs]
  cases pendingRevealOutcome opts row (evidence.visible now) with
  | some outcome => rfl
  | none =>
    cases pendingInternalHttpTouchOutcome opts row (events.visible now) with
    | some outcome => rfl
    | none =>
      by_cases hx : pendingRevealExpired opts row now
      · simp [hx]
      · simp [hx]

theorem settledAs_ne_pending {row : FeedbackRow} {now : Int} {outcome : FeedbackStatus}
    (h : settledAs opts evidence events row now = some outcome) : outcome ≠ .pending := by
  rw [settledAs, pendingRevealOutcome_eq, pendingInternalHttpTouchOutcome_eq] at h
  cases hfirst : (evidence.visible now).find? (accepts opts evidenceAsset row) with
  | some e =>
    rw [hfirst] at h
    rw [← Option.some.inj h]
    have hresolved := resolved_evidenceOutcome e
    intro he
    rw [he] at hresolved
    exact absurd hresolved (by decide)
  | none =>
    cases hsecond : (events.visible now).find? (accepts opts eventAsset row) with
    | some e =>
      rw [hfirst, hsecond] at h
      rw [← Option.some.inj h]
      exact FeedbackStatus.noConfusion
    | none =>
      rw [hfirst, hsecond] at h
      by_cases hx : pendingRevealExpired opts row now
      · simp [hx] at h
        rw [← h]
        exact FeedbackStatus.noConfusion
      · simp [hx] at h

theorem foldl_passRow_of_ne {row : FeedbackRow} (h : row.status ≠ .pending) (passes : List Int) :
    passes.foldl (passRow opts evidence events) row = row := by
  induction passes with
  | nil => rfl
  | cons now passes ih => rw [List.foldl_cons, passRow, updateRow_of_ne h, ih]

/-- **The first pass that gives a row a status decides it.** -/
theorem status_foldl {row : FeedbackRow} (hp : row.status = .pending) (passes : List Int) :
    (passes.foldl (passRow opts evidence events) row).status =
      (passes.findSome? (settledAs opts evidence events row)).getD .pending := by
  induction passes with
  | nil => exact hp
  | cons now passes ih =>
    rw [List.foldl_cons, passRow_eq hp, List.findSome?_cons]
    cases hs : settledAs opts evidence events row now with
    | none => exact ih
    | some outcome =>
      rw [foldl_passRow_of_ne (settledAs_ne_pending hs)]
      rfl

theorem pending_runPasses (file : FeedbackFile) (passes : List Int) :
    (runPasses opts evidence events file passes).pending =
      file.pending.map fun row => passes.foldl (passRow opts evidence events) row := by
  induction passes generalizing file with
  | nil => exact (List.map_id' file.pending).symm
  | cons now passes ih =>
    rw [runPasses, List.foldl_cons]
    refine (ih _).trans ?_
    rw [updateRevealFeedbackFromEvidence, List.map_map]
    rfl

/-! ### Timely touches -/

variable (opts) in
/-- The first moment at which a pass finds the window of the row closed. -/
def deadline (row : FeedbackRow) : Int :=
  row.ts + opts.feedbackWindowSeconds * microsPerSecond + 1

theorem expired_iff {row : FeedbackRow} {now : Int} :
    pendingRevealExpired opts row now ↔ deadline opts row ≤ now := by
  rw [pendingRevealExpired, decide_eq_true_eq, deadline]
  omega

variable (opts) in
/-- The first touch of the row that is logged. -/
def firstTouch (asset : Settings → Option String) (log : EventLog) (row : FeedbackRow) :
    Option (Int × Settings) :=
  log.entries.find? fun entry => accepts opts asset row entry.2

variable (opts evidence events) in
/-- If the row is touched, then a touch is logged before a pass can find the window closed, and
no event is logged before evidence that makes the row useful. -/
def Timely (row : FeedbackRow) : Prop :=
  match firstTouch opts evidenceAsset evidence row, firstTouch opts eventAsset events row with
  | none, none => True
  | some e, none => e.1 ≤ deadline opts row
  | none, some h => h.1 ≤ deadline opts row
  | some e, some h =>
    (e.1 ≤ deadline opts row ∨ h.1 ≤ deadline opts row) ∧ (mapped e.2 → e.1 ≤ h.1)

theorem find?_visible (asset : Settings → Option String) (log : EventLog) (row : FeedbackRow)
    (now : Int) : (log.visible now).find? (accepts opts asset row) =
      ((firstTouch opts asset log row).filter fun entry => entry.1 ≤ now).map Prod.snd := by
  rw [EventLog.visible, List.find?_map, firstTouch, ← find?_filter_of_pairwise]
  · rfl
  · refine log.ordered.imp ?_
    intro a b hab ha hb hseen
    -- two touches of the row are of its attacker
    have hkey : ∀ entry : Int × Settings, accepts opts asset row entry.2 →
        attackerOf entry.2 = some row.attackerKey := by
      intro entry h
      obtain ⟨htouch, -⟩ := accepts_iff.mp h
      exact beq_iff_eq.mp (Bool.and_eq_true_iff.mp htouch).1
    have hle : a.1 ≤ b.1 := hab ((hkey a ha).trans (hkey b hb).symm)
    exact decide_eq_true (hle.trans (of_decide_eq_true hseen))

theorem settledAs_eq (row : FeedbackRow) (now : Int) :
    settledAs opts evidence events row now =
      (((firstTouch opts evidenceAsset evidence row).filter fun entry => entry.1 ≤ now).map
          fun entry => evidenceOutcome entry.2).or
        ((((firstTouch opts eventAsset events row).filter fun entry => entry.1 ≤ now).map
            fun _ => .shallow).or
          (if deadline opts row ≤ now then some .ignored else none)) := by
  rw [settledAs, pendingRevealOutcome_eq, pendingInternalHttpTouchOutcome_eq, find?_visible,
    find?_visible, Option.map_map, Option.map_map]
  simp only [expired_iff]
  rfl

theorem settledAs_eq_some_iff {row : FeedbackRow} {now : Int} {outcome : FeedbackStatus} :
    settledAs opts evidence events row now = some outcome ↔
      (∃ e ∈ firstTouch opts evidenceAsset evidence row,
        e.1 ≤ now ∧ evidenceOutcome e.2 = outcome) ∨
      (∀ e ∈ firstTouch opts evidenceAsset evidence row, now < e.1) ∧
        ((∃ h ∈ firstTouch opts eventAsset events row, h.1 ≤ now ∧ .shallow = outcome) ∨
          (∀ h ∈ firstTouch opts eventAsset events row, now < h.1) ∧
            deadline opts row ≤ now ∧ .ignored = outcome) := by
  rw [settledAs_eq]
  cases firstTouch opts evidenceAsset evidence row with
  | none =>
    cases firstTouch opts eventAsset events row with
    | none => simp
    | some h =>
      rcases le_or_gt h.1 now with hh | hh
      · simp [hh, hh.not_gt, Option.filter_some]
      · simp [hh, hh.not_ge, Option.filter_some]
  | some e =>
    rcases le_or_gt e.1 now with he | he
    · simp [he, he.not_gt, Option.filter_some]
    · cases firstTouch opts eventAsset events row with
      | none => simp [he, he.not_ge, Option.filter_some]
      | some h =>
        rcases le_or_gt h.1 now with hh | hh
        · simp [he, he.not_ge, hh, hh.not_gt, Option.filter_some]
        · simp [he, he.not_ge, hh, hh.not_ge, Option.filter_some]

theorem settledAs_evidence {row : FeedbackRow} {e : Int × Settings}
    (he : firstTouch opts evidenceAsset evidence row = some e) :
    settledAs opts evidence events row e.1 = some (evidenceOutcome e.2) :=
  settledAs_eq_some_iff.mpr (Or.inl ⟨e, he, le_rfl, rfl⟩)

theorem settledAs_event {row : FeedbackRow} {h : Int × Settings}
    (hh : firstTouch opts eventAsset events row = some h)
    (hearly : ∀ e ∈ firstTouch opts evidenceAsset evidence row, h.1 < e.1) :
    settledAs opts evidence events row h.1 = some .shallow :=
  settledAs_eq_some_iff.mpr (Or.inr ⟨hearly, Or.inl ⟨h, hh, le_rfl, rfl⟩⟩)

theorem settledAs_deadline {row : FeedbackRow}
    (hevidence : ∀ e ∈ firstTouch opts evidenceAsset evidence row, deadline opts row < e.1)
    (hevents : ∀ h ∈ firstTouch opts eventAsset events row, deadline opts row < h.1) :
    settledAs opts evidence events row (deadline opts row) = some .ignored :=
  settledAs_eq_some_iff.mpr (Or.inr ⟨hevidence, Or.inr ⟨hevents, le_rfl, rfl⟩⟩)

theorem evidenceOutcome_eq_shallow {record : Settings} :
    evidenceOutcome record = .shallow ↔ ¬ mapped record := by
  rw [evidenceOutcome]
  by_cases h : mapped record
  · simp [h]
  · simp [h]

theorem evidenceOutcome_ne_ignored (record : Settings) : evidenceOutcome record ≠ .ignored := by
  rw [evidenceOutcome]
  by_cases h : mapped record
  · simp [h]
  · simp [h]

/-- Every pass that gives the row a status gives it the same one. -/
def Settled (opts : LoopOptions) (evidence events : EventLog) (row : FeedbackRow) : Prop :=
  ∀ now now' outcome outcome', settledAs opts evidence events row now = some outcome →
    settledAs opts evidence events row now' = some outcome' → outcome = outcome'

theorem timely_of_settled {row : FeedbackRow} (hs : Settled opts evidence events row) :
    Timely opts evidence events row := by
  rw [Timely]
  cases he : firstTouch opts evidenceAsset evidence row with
  | none =>
    cases hh : firstTouch opts eventAsset events row with
    | none => trivial
    | some h =>
      by_contra hlate
      -- a pass when the window closes ignores the row, and one when it is touched does not
      have hclosed : settledAs opts evidence events row (deadline opts row) = some .ignored :=
        settledAs_deadline (by simp [he]) (by simpa [hh] using hlate)
      have htouched : settledAs opts evidence events row h.1 = some .shallow :=
        settledAs_event hh (by simp [he])
      exact FeedbackStatus.noConfusion (hs _ _ _ _ hclosed htouched)
  | some e =>
    have htouched : settledAs opts evidence events row e.1 = some (evidenceOutcome e.2) :=
      settledAs_evidence he
    have hopen : ¬ (deadline opts row < e.1 ∧
        ∀ h ∈ firstTouch opts eventAsset events row, deadline opts row < h.1) := by
      rintro ⟨hevidence, hevents⟩
      have hclosed : settledAs opts evidence events row (deadline opts row) = some .ignored :=
        settledAs_deadline (by simpa [he] using hevidence) hevents
      exact evidenceOutcome_ne_ignored e.2 (hs _ _ _ _ hclosed htouched).symm
    cases hh : firstTouch opts eventAsset events row with
    | none => simpa [hh] using hopen
    | some h =>
      constructor
      · by_contra hlate
        rw [not_or, not_le, not_le] at hlate
        exact hopen (by simpa [hh] using hlate)
      · intro hmapped
        by_contra hearly
        -- a pass between the event and the evidence finds the row shallow
        have hshallow : settledAs opts evidence events row h.1 = some .shallow :=
          settledAs_event hh (by simpa [he] using hearly)
        exact evidenceOutcome_eq_shallow.mp (hs _ _ _ _ hshallow htouched).symm hmapped

/-- What a timely row becomes. -/
def timelyOutcome (opts : LoopOptions) (evidence events : EventLog) (row : FeedbackRow) :
    FeedbackStatus :=
  match firstTouch opts evidenceAsset evidence row with
  | some e => evidenceOutcome e.2
  | none => if (firstTouch opts eventAsset events row).isSome then .shallow else .ignored

theorem settledAs_of_timely {row : FeedbackRow} (ht : Timely opts evidence events row) {now : Int}
    {outcome : FeedbackStatus} (h : settledAs opts evidence events row now = some outcome) :
    outcome = timelyOutcome opts evidence events row := by
  rw [Timely] at ht
  rw [timelyOutcome]
  rcases settledAs_eq_some_iff.mp h with ⟨e, he, _, rfl⟩ | ⟨hevidence, hrest⟩
  · rw [Option.mem_def.mp he]
  · rcases hrest with ⟨touch, htouch, hnow, rfl⟩ | ⟨hevents, hnow, rfl⟩
    · rw [Option.mem_def] at htouch
      cases he : firstTouch opts evidenceAsset evidence row with
      | none => simp [htouch]
      | some e =>
        rw [he, htouch] at ht
        have hlater : now < e.1 := hevidence e he
        have hunmapped : ¬ mapped e.2 := by
          intro hmapped
          have := ht.2 hmapped
          omega
        exact (evidenceOutcome_eq_shallow.mpr hunmapped).symm
    · cases he : firstTouch opts evidenceAsset evidence row with
      | none =>
        cases hh : firstTouch opts eventAsset events row with
        | none => rfl
        | some touch =>
          rw [he, hh] at ht
          have hlater : now < touch.1 := hevents touch hh
          have hearly : touch.1 ≤ deadline opts row := ht
          omega
      | some e =>
        have hlater : now < e.1 := hevidence e he
        cases hh : firstTouch opts eventAsset events row with
        | none =>
          rw [he, hh] at ht
          have hearly : e.1 ≤ deadline opts row := ht
          omega
        | some touch =>
          rw [he, hh] at ht
          have hlater' : now < touch.1 := hevents touch hh
          have hearly := ht.1
          omega

/-- **Passes agree on a row exactly if its touches are timely.** -/
theorem settled_iff {row : FeedbackRow} :
    Settled opts evidence events row ↔ Timely opts evidence events row := by
  constructor
  · exact timely_of_settled
  · intro ht now now' outcome outcome' h h'
    rw [settledAs_of_timely ht h, settledAs_of_timely ht h']

/-! ### Counters -/

theorem countOf_countOutcome (contexts : OutcomeCounts) (c c' g g' : String)
    (o o' : FeedbackStatus) :
    countOf (countOutcome contexts c g o) c' g' o' =
      countOf contexts c' g' o' + if c = c' ∧ g = g' ∧ o = o' then 1 else 0 := by
  simp only [countOf, countOutcome, Dict.getD, lookup_set]
  by_cases hc : c' = c
  · subst hc
    by_cases hg : g' = g
    · subst hg
      by_cases ho : o' = o
      · subst ho
        simp
      · simp [lookup_set, ho, Ne.symm ho]
    · simp [lookup_set, hg, Ne.symm hg]
  · simp [hc, Ne.symm hc]

/-- The rows of a context and an asset group with a status. -/
def tally (rows : List FeedbackRow) (context group : String) (outcome : FeedbackStatus) : ℕ :=
  rows.countP fun row =>
    row.contextKey = context ∧ row.assetGroup = group ∧ row.status = outcome

theorem tally_cons (row : FeedbackRow) (rows : List FeedbackRow) (c g : String)
    (o : FeedbackStatus) : tally (row :: rows) c g o = tally [row] c g o + tally rows c g o := by
  rw [tally, ← List.singleton_append, List.countP_append, ← tally, ← tally]

theorem tally_singleton (row : FeedbackRow) (c g : String) (o : FeedbackStatus) :
    tally [row] c g o =
      if row.contextKey = c ∧ row.assetGroup = g ∧ row.status = o then 1 else 0 := by
  simp [tally, List.countP_cons]

section Balance

variable {logs logs' : List Settings} {now : Int}

variable (opts logs logs' now) in
theorem countOf_countRow (contexts : OutcomeCounts) (row : FeedbackRow) (c g : String)
    {o : FeedbackStatus} (ho : o ≠ .pending) :
    countOf (countRow opts logs logs' now contexts row) c g o + tally [row] c g o =
      countOf contexts c g o + tally [updateRow opts logs logs' now row] c g o := by
  rw [countRow]
  by_cases hp : row.status = .pending
  · have hrow : tally [row] c g o = 0 := by
      rw [tally_singleton, if_neg]
      rintro ⟨-, -, hstatus⟩
      exact ho (hstatus.symm.trans hp)
    obtain ⟨status, resolvedAt, heq⟩ := updateRow_eq opts logs logs' now row
    rw [hrow, tally_singleton, heq]
    by_cases hs : status = .pending
    · simp [hp, hs, ho.symm]
    · simp [hp, hs, countOf_countOutcome]
  · rw [if_neg fun h => hp h.1, updateRow_of_ne hp]

theorem countOf_countRow_pending (contexts : OutcomeCounts) (row : FeedbackRow) (c g : String) :
    countOf (countRow opts logs logs' now contexts row) c g .pending =
      countOf contexts c g .pending := by
  rw [countRow]
  by_cases h : row.status = .pending ∧ (updateRow opts logs logs' now row).status ≠ .pending
  · simp [h, countOf_countOutcome]
  · simp [h]

variable (opts logs logs' now) in
/-- **An update counts the rows it resolves.** -/
theorem balance_update (file : FeedbackFile) (c g : String) {o : FeedbackStatus}
    (ho : o ≠ .pending) :
    countOf (updateRevealFeedbackFromEvidence opts logs logs' now file).contexts c g o +
        tally file.pending c g o =
      countOf file.contexts c g o +
        tally (updateRevealFeedbackFromEvidence opts logs logs' now file).pending c g o := by
  obtain ⟨contexts, rows, revealed⟩ := file
  simp only [updateRevealFeedbackFromEvidence]
  induction rows generalizing contexts with
  | nil => rfl
  | cons row rows ih =>
    rw [List.foldl_cons, List.map_cons, tally_cons, tally_cons (updateRow opts logs logs' now row)]
    have hrow := countOf_countRow opts logs logs' now contexts row c g ho
    have hrows := ih (countRow opts logs logs' now contexts row)
    omega

theorem countOf_update_pending (file : FeedbackFile) (c g : String) :
    countOf (updateRevealFeedbackFromEvidence opts logs logs' now file).contexts c g .pending =
      countOf file.contexts c g .pending := by
  obtain ⟨contexts, rows, revealed⟩ := file
  simp only [updateRevealFeedbackFromEvidence]
  induction rows generalizing contexts with
  | nil => rfl
  | cons row rows ih => rw [List.foldl_cons, ih, countOf_countRow_pending]

end Balance

variable (opts evidence events) in
theorem balance_runPasses (file : FeedbackFile) (passes : List Int) (c g : String)
    {o : FeedbackStatus} (ho : o ≠ .pending) :
    countOf (runPasses opts evidence events file passes).contexts c g o +
        tally file.pending c g o =
      countOf file.contexts c g o +
        tally (runPasses opts evidence events file passes).pending c g o := by
  induction passes generalizing file with
  | nil => rfl
  | cons now passes ih =>
    have hfirst := balance_update opts (evidence.visible now) (events.visible now) now file c g ho
    have hrest := ih (updateRevealFeedbackFromEvidence opts (evidence.visible now)
      (events.visible now) now file)
    rw [runPasses, List.foldl_cons, ← runPasses]
    omega

theorem countOf_runPasses_pending (file : FeedbackFile) (passes : List Int) (c g : String) :
    countOf (runPasses opts evidence events file passes).contexts c g .pending =
      countOf file.contexts c g .pending := by
  induction passes generalizing file with
  | nil => rfl
  | cons now passes ih =>
    rw [runPasses, List.foldl_cons, ← runPasses, ih, countOf_update_pending]

/-! ### Two schedules -/

variable (opts evidence events) in
theorem foldl_passRow_keys (row : FeedbackRow) (passes : List Int) :
    (passes.foldl (passRow opts evidence events) row).contextKey = row.contextKey ∧
      (passes.foldl (passRow opts evidence events) row).assetGroup = row.assetGroup := by
  induction passes generalizing row with
  | nil => exact ⟨rfl, rfl⟩
  | cons now passes ih =>
    obtain ⟨status, resolvedAt, heq⟩ :=
      updateRow_eq opts (evidence.visible now) (events.visible now) now row
    rw [List.foldl_cons, passRow, heq]
    exact ih { row with status, resolvedAt }

/-- Two schedules that leave the same statuses leave the same counters. -/
theorem countOf_eq_of_status {file : FeedbackFile} {passes passes' : List Int}
    (h : ∀ row ∈ file.pending, (passes.foldl (passRow opts evidence events) row).status =
      (passes'.foldl (passRow opts evidence events) row).status)
    (c g : String) (o : FeedbackStatus) :
    countOf (runPasses opts evidence events file passes).contexts c g o =
      countOf (runPasses opts evidence events file passes').contexts c g o := by
  by_cases ho : o = .pending
  · rw [ho, countOf_runPasses_pending, countOf_runPasses_pending]
  · have hleft := balance_runPasses opts evidence events file passes c g ho
    have hright := balance_runPasses opts evidence events file passes' c g ho
    have htally : tally (runPasses opts evidence events file passes).pending c g o =
        tally (runPasses opts evidence events file passes').pending c g o := by
      rw [pending_runPasses, pending_runPasses, tally, tally, List.countP_map, List.countP_map]
      refine List.countP_congr ?_
      intro row hrow
      have hkeys := foldl_passRow_keys opts evidence events row
      simp only [Function.comp_apply, decide_eq_true_eq, h row hrow, hkeys passes, hkeys passes']
    omega

theorem exists_settled_of_closing {rows : List FeedbackRow} (s : Schedule opts rows)
    {row : FeedbackRow} (hrow : row ∈ rows) : ∃ now outcome,
      settledAs opts evidence events row now = some outcome ∧
        s.passes.findSome? (settledAs opts evidence events row) = some outcome := by
  obtain ⟨last, hlast, hclosed⟩ := s.closing
  have hsome : (s.passes.findSome? (settledAs opts evidence events row)).isSome := by
    rw [List.findSome?_isSome_iff]
    refine ⟨last, List.mem_of_getLast? hlast, ?_⟩
    rw [settledAs, if_pos (hclosed row hrow)]
    simp
  obtain ⟨outcome, houtcome⟩ := Option.isSome_iff_exists.mp hsome
  obtain ⟨now, _, hnow⟩ := List.exists_of_findSome?_eq_some houtcome
  exact ⟨now, outcome, hnow, houtcome⟩

/-- There is a pass that finds every window closed. -/
theorem exists_closing (rows : List FeedbackRow) (now : Int) :
    ∃ last, now ≤ last ∧ ∀ row ∈ rows, pendingRevealExpired opts row last := by
  induction rows with
  | nil => exact ⟨now, le_rfl, fun row hrow => absurd hrow List.not_mem_nil⟩
  | cons row rows ih =>
    obtain ⟨last, hnow, hrows⟩ := ih
    refine ⟨max last (deadline opts row), hnow.trans (le_max_left _ _), ?_⟩
    intro other hother
    rw [expired_iff]
    rcases List.mem_cons.mp hother with rfl | hother
    · exact le_max_right _ _
    · exact (expired_iff.mp (hrows other hother)).trans (le_max_left _ _)

variable (opts) in
/-- A schedule whose first pass is at `now`. -/
theorem exists_schedule (rows : List FeedbackRow) (now : Int) :
    ∃ s : Schedule opts rows, ∃ last, s.passes = [now, last] := by
  obtain ⟨last, hnow, hclosed⟩ := exists_closing rows now
  exact ⟨⟨[now, last], by simpa using hnow, last, rfl, hclosed⟩, last, rfl⟩

/-- **Schedules agree if and only if every pending row is timely.** -/
theorem pollingIndependent_iff (opts : LoopOptions) (evidence events : EventLog)
    (file : FeedbackFile) :
    PollingIndependent opts evidence events file ↔
      ∀ row ∈ file.pending, row.status = .pending → Timely opts evidence events row := by
  constructor
  · intro h row hrow hp
    rw [← settled_iff]
    intro now now' outcome outcome' hnow hnow'
    obtain ⟨s, last, hs⟩ := exists_schedule opts file.pending now
    obtain ⟨s', last', hs'⟩ := exists_schedule opts file.pending now'
    have hstatus := (h s s').1
    rw [pending_runPasses, pending_runPasses, List.map_map, List.map_map,
      List.map_inj_left] at hstatus
    have hrowStatus := hstatus row hrow
    simp only [Function.comp_apply, status_foldl hp, hs, hs', List.findSome?_cons, hnow, hnow',
      Option.getD_some] at hrowStatus
    exact hrowStatus
  · intro h s s'
    have hstatus : ∀ row ∈ file.pending,
        (s.passes.foldl (passRow opts evidence events) row).status =
          (s'.passes.foldl (passRow opts evidence events) row).status := by
      intro row hrow
      by_cases hp : row.status = .pending
      · obtain ⟨now, outcome, hnow, hfirst⟩ := exists_settled_of_closing s hrow
        obtain ⟨now', outcome', hnow', hfirst'⟩ := exists_settled_of_closing s' hrow
        rw [status_foldl hp, status_foldl hp, hfirst, hfirst',
          settled_iff.mpr (h row hrow hp) now now' outcome outcome' hnow hnow']
      · rw [foldl_passRow_of_ne hp, foldl_passRow_of_ne hp]
    refine ⟨?_, countOf_eq_of_status hstatus⟩
    rw [pending_runPasses, pending_runPasses, List.map_map, List.map_map, List.map_inj_left]
    exact hstatus

end Passes

/-! ### A touch after the window -/

/-- The repository is requested 400 seconds after it was revealed, with a window of 300. -/
def lateEvidence : EventLog where
  entries := [(1767226000000000,
    [("attacker_key", .str "198.51.100.7"), ("binding_id", .str "b-1"),
      ("tech_id", .str "T1213"), ("ts", .str "2026-01-01T00:06:40Z"),
      ("source_ref", .dict [("asset_id", .str "git-internal")])])]
  ordered := List.pairwise_singleton _ _

def noEvents : EventLog := ⟨[], List.Pairwise.nil⟩

/-- One pass after 500 seconds. -/
def latePass : Schedule sampleOptions [sampleRow] :=
  ⟨[1767226100000000], List.pairwise_singleton _ _, 1767226100000000, rfl, by decide⟩

/-- One pass after 350 seconds and one after 500. -/
def twoPasses : Schedule sampleOptions [sampleRow] :=
  ⟨[1767225950000000, 1767226100000000], by decide, 1767226100000000, rfl,
    by decide⟩

/-- The row is useful after one late pass, and ignored after two. -/
theorem late_touch : ¬ PollingIndependent sampleOptions lateEvidence noEvents
    { pending := [sampleRow] } := by
  intro h
  exact absurd (h latePass twoPasses).1 (by decide)

end Honeynet.Loop
