import Honeynet.Binding.Lifecycle
import Honeynet.Lib.Padded
import Honeynet.Lib.StableSort
import Honeynet.Loop.Tick

/-!
# The latest binding of an attacker

Three readers take an attacker's binding from `bindings.json`: the repository, for a resolve, and
the loop take the last record of the attacker, and the dashboard the one that was seen last, by the
text of its time.

* `ReadersAgree`: the three take the same record of every attacker.
* `readersAgree_iff`: the record that comes last was seen last.
* `agreement_iff`: the three agree all along a run as long as the times are written in order.
-/

namespace Honeynet.Dashboard

open Collections Binding Loop

/-! ### The records as JSON -/

def statusText : BindingStatus → String
  | .active => "active"
  | .idle => "idle"
  | .recycled => "recycled"
  | .recovered => "recovered"

/-- `record.model_dump(mode="json")`, with the text of a datetime. -/
def modelDump (text : Datetime → String) (r : BindingRecord) : Settings :=
  [("schema_version", .str "v1"), ("binding_id", .str r.bindingId),
    ("attacker_key", .str r.attackerKey), ("backend_instance_id", .str r.backendInstanceId),
    ("status", .str (statusText r.status)), ("first_seen_ts", .str (text r.firstSeenTs)),
    ("last_seen_ts", .str (text r.lastSeenTs)), ("ttl_expires_at", .str (text r.ttlExpiresAt)),
    ("volume_ref", (r.volumeRef.map Value.str).getD .none),
    ("unlocked_assets", .list (r.unlockedAssets.map .str)),
    ("revealed_configurations",
      .dict (r.revealedConfigurations.map fun e => (e.1, .list (e.2.map .str))))]

/-- `_latest_binding`: the attacker's binding with the greatest `last_seen_ts`, the last of them
where several have it. -/
def latestBinding (str : Value → String) (attackerKey : String) (bindings : List Settings) :
    Option Settings :=
  let found := bindings.filter fun item => (item.get "attacker_key").str? == some attackerKey
  (sortedBy (fun item => str (item.getD "last_seen_ts" (.str ""))) found).getLast?

/-! ### Readers of one store -/

section Readers

variable (opts : LoopOptions) (inp : PassInput) (text : Datetime → String)

/-- What a pass of the loop reads while the records are stored. -/
def passInput (records : List BindingRecord) : PassInput :=
  { inp with bindings := records.map fun r => .dict (modelDump text r) }

/-- **The dashboard, the loop and the repository take the same record of every attacker.** -/
structure ReadersAgree (records : List BindingRecord) : Prop where
  dashboard : ∀ attackerKey, latestBinding opts.str attackerKey (records.map (modelDump text)) =
    (getByAttacker records attackerKey).map (modelDump text)
  loop : ∀ attackerKey, (bindingsByAttacker opts (passInput inp text records)).lookup attackerKey =
    (getByAttacker records attackerKey).map (modelDump text)

/-- The record that comes last of an attacker's was seen last, by the text. -/
def CurrentSeenLast (records : List BindingRecord) : Prop :=
  ∀ attackerKey current, getByAttacker records attackerKey = some current →
    ∀ r ∈ records, r.attackerKey = attackerKey → text r.lastSeenTs ≤ text current.lastSeenTs

variable {opts inp text} {records : List BindingRecord}

theorem get_attackerKey (r : BindingRecord) :
    (modelDump text r).get "attacker_key" = .str r.attackerKey := rfl

theorem get_bindingId (r : BindingRecord) :
    (modelDump text r).get "binding_id" = .str r.bindingId := rfl

theorem getD_lastSeenTs (r : BindingRecord) :
    (modelDump text r).getD "last_seen_ts" (.str "") = .str (text r.lastSeenTs) := rfl

theorem bindingsByAttacker_eq (hstr : ∀ s, opts.str (.str s) = s)
    (hkeys : ∀ r ∈ records, r.attackerKey ≠ "") (attackerKey : String) :
    (bindingsByAttacker opts (passInput inp text records)).lookup attackerKey =
      (findLast BindingRecord.attackerKey attackerKey records).map (modelDump text) := by
  have hset : ∀ (d : Dict String Settings), ∀ r ∈ records,
      (if ((modelDump text r).get "attacker_key").truthy then
        Dict.set d (opts.str ((modelDump text r).get "attacker_key")) (modelDump text r)
      else d) = Dict.set d r.attackerKey (modelDump text r) := by
    intro d r hr
    have htruthy : (Value.str r.attackerKey).truthy = true := by
      simpa [Value.truthy] using hkeys r hr
    rw [get_attackerKey, hstr, if_pos htruthy]
  rw [bindingsByAttacker, passInput, List.foldl_map, List.foldl_ext _ _ _ hset,
    lookup_foldl_set_map, List.lookup_nil, Option.or_none]

/-- Where every id is stored once, the current binding is the last record of its attacker. -/
theorem getByAttacker_of_nodup (h : (records.map BindingRecord.bindingId).Nodup)
    (attackerKey : String) : getByAttacker records attackerKey =
      findLast BindingRecord.attackerKey attackerKey records := by
  have hvalues : (recordsByBinding records).map Prod.snd = records := by
    have hdict := foldl_set_of_nodup BindingRecord.bindingId id records [] h
    rw [recordsByBinding, dictBy]
    refine (congrArg (List.map Prod.snd) hdict).trans ?_
    rw [List.nil_append, List.map_map]
    exact List.map_id records
  rw [getByAttacker_eq, hvalues]

/-- The dashboard's choice, on the records themselves. -/
theorem latestBinding_eq (hstr : ∀ s, opts.str (.str s) = s) (attackerKey : String) :
    latestBinding opts.str attackerKey (records.map (modelDump text)) =
      (sortedBy (fun r => text r.lastSeenTs)
        (records.filter fun r => r.attackerKey = attackerKey)).getLast?.map (modelDump text) := by
  have hfound : (records.map (modelDump text)).filter
        (fun item => (item.get "attacker_key").str? == some attackerKey) =
      (records.filter fun r => r.attackerKey = attackerKey).map (modelDump text) := by
    rw [List.filter_map]
    refine congrArg (List.map _) (List.filter_congr fun r _ => ?_)
    rw [Function.comp, get_attackerKey]
    exact Bool.eq_iff_iff.mpr (by simp [Value.str?])
  have hkey : (fun r : BindingRecord =>
      opts.str ((modelDump text r).getD "last_seen_ts" (.str ""))) =
        fun r => text r.lastSeenTs := by
    funext r
    rw [getD_lastSeenTs, hstr]
  rw [latestBinding, hfound, sortedBy_map, hkey, List.getLast?_map]

/-- Stored records are told apart by what is dumped of them. -/
theorem modelDump_inj (h : WellFormed records) {r r' : BindingRecord} (hr : r ∈ records)
    (hr' : r' ∈ records) (hdump : modelDump text r = modelDump text r') : r = r' := by
  have hread := congrArg (fun d => Settings.get d "binding_id") hdump
  rw [get_bindingId, get_bindingId] at hread
  exact List.inj_on_of_nodup_map h.ids hr hr' (Value.str.inj hread)

/-- The dashboard shows the last record of an attacker exactly if it was seen last. -/
theorem latestBinding_eq_some_iff (hstr : ∀ s, opts.str (.str s) = s) (h : WellFormed records)
    {attackerKey : String} {current : BindingRecord}
    (hcurrent : (records.filter fun r => r.attackerKey = attackerKey).getLast? = some current) :
    latestBinding opts.str attackerKey (records.map (modelDump text)) =
        some (modelDump text current) ↔
      ∀ r ∈ records, r.attackerKey = attackerKey → text r.lastSeenTs ≤ text current.lastSeenTs := by
  obtain ⟨first, hfirst⟩ := List.getLast?_eq_some_iff.mp hcurrent
  have hmem : ∀ r, r ∈ first ++ [current] ↔ r ∈ records ∧ r.attackerKey = attackerKey := by
    intro r
    rw [← hfirst, List.mem_filter, decide_eq_true_iff]
  have hsorted : (sortedBy (fun r => text r.lastSeenTs) (first ++ [current])).getLast? =
      some current ↔ ∀ r ∈ first, text r.lastSeenTs ≤ text current.lastSeenTs :=
    getLast?_sortedBy_iff fun r : BindingRecord => text r.lastSeenTs
  rw [latestBinding_eq hstr, hfirst, Option.map_eq_some_iff]
  constructor
  · rintro ⟨latest, hlatest, hdump⟩ r hr hkey
    have hlatestMem := (mem_sortedBy _).mp (List.mem_of_getLast? hlatest)
    obtain rfl := modelDump_inj h ((hmem latest).mp hlatestMem).1
      ((hmem current).mp (List.mem_append_right _ (List.mem_singleton_self _))).1 hdump
    rcases List.mem_append.mp ((hmem r).mpr ⟨hr, hkey⟩) with hbefore | hlast
    · exact hsorted.mp hlatest r hbefore
    · rw [List.mem_singleton.mp hlast]
  · intro hseen
    refine ⟨current, hsorted.mpr fun r hr => ?_, rfl⟩
    obtain ⟨hstored, hkey⟩ := (hmem r).mp (List.mem_append_left _ hr)
    exact hseen r hstored hkey

/-- **The readers agree if and only if the last record of every attacker was seen last.** -/
theorem readersAgree_iff (hstr : ∀ s, opts.str (.str s) = s) (h : WellFormed records)
    (hkeys : ∀ r ∈ records, r.attackerKey ≠ "") :
    ReadersAgree opts inp text records ↔ CurrentSeenLast text records := by
  have hcurrent : ∀ attackerKey, getByAttacker records attackerKey =
      (records.filter fun r => r.attackerKey = attackerKey).getLast? := fun attackerKey => by
    rw [getByAttacker_of_nodup h.ids, findLast_eq_getLast?]
  constructor
  · intro hagree attackerKey current hcur
    have hdashboard := hagree.dashboard attackerKey
    rw [hcur, Option.map_some] at hdashboard
    rw [hcurrent] at hcur
    exact (latestBinding_eq_some_iff hstr h hcur).mp hdashboard
  · intro hseen
    refine ⟨fun attackerKey => ?_, fun attackerKey => ?_⟩
    · cases hcur : getByAttacker records attackerKey with
      | none =>
        rw [hcurrent, List.getLast?_eq_none_iff] at hcur
        rw [latestBinding_eq hstr, hcur]
        rfl
      | some current =>
        have hlast := hseen attackerKey current hcur
        rw [hcurrent] at hcur
        exact (latestBinding_eq_some_iff hstr h hcur).mpr hlast
    · rw [bindingsByAttacker_eq hstr hkeys, getByAttacker_of_nodup h.ids]

end Readers

/-! ### Runs -/

section Runs

variable (text : Datetime → String) (records : List BindingRecord) (request : Request)

/-- The operation is on a binding that is not its attacker's current one. -/
def OnOlder (current : BindingRecord) : Prop :=
  ∃ r, request.op.read records = some r ∧
    getByAttacker records r.attackerKey = some current ∧ current.bindingId ≠ r.bindingId

/-- The operation writes its time in order: not after the current binding's where it is on an older
one, and otherwise not before those of the attacker's other bindings. -/
structure StampsInOrder : Prop where
  older : ∀ current, OnOlder records request current →
    text (request.op.seenAt request.call) ≤ text current.lastSeenTs
  latest : (∀ current, ¬ OnOlder records request current) → ∀ w, request.Returns records w →
    ∀ r ∈ records, r.attackerKey = w.attackerKey → r.bindingId ≠ w.bindingId →
      text r.lastSeenTs ≤ text (request.op.seenAt request.call)

variable {text records request}

/-- Where a record of the attacker is stored, the attacker has a current one. -/
theorem current_of_mem (h : WellFormed records) {r : BindingRecord} (hr : r ∈ records) :
    ∃ current, getByAttacker records r.attackerKey = some current := by
  obtain ⟨current, hcurrent⟩ := findLast_isSome_of_mem BindingRecord.attackerKey hr
  exact ⟨current, (getByAttacker_of_nodup h.ids _).trans hcurrent⟩

/-- A resolve is never on an older binding. -/
theorem OnOlder.not_resolve {current : BindingRecord} (h : OnOlder records request current)
    (attackerKey : String) : request.op ≠ .resolve attackerKey := by
  intro hop
  obtain ⟨r, hread, hcurrent, hne⟩ := h
  rw [hop] at hread
  rw [(getByBinding_of_getByAttacker hread).1] at hcurrent
  obtain rfl := Option.some.inj (hcurrent.symm.trans hread)
  exact hne rfl

/-- An operation on an older binding returns. -/
theorem OnOlder.returns {current : BindingRecord} (h : OnOlder records request current) :
    ∃ out, request.run records = .ok out := by
  have hresolve := h.not_resolve
  obtain ⟨r, hread, -, -⟩ := h
  obtain ⟨w, hwrite⟩ := BindingOp.write_returns hresolve request.call r
  exact ⟨_, run_of_write (by rw [hread]; exact hwrite)⟩

/-- What was written in order was seen last. -/
theorem seenLast_of_stamps (hfresh : request.Fresh records) (h : CurrentSeenLast text records)
    (hstamps : StampsInOrder text records request) :
    CurrentSeenLast text (request.after records) := by
  intro attackerKey last hlast y hy hkey
  have hwritten := written_after records request
  revert hlast hy
  generalize request.after records = records' at hwritten
  intro hlast hy
  cases hwritten with
  | raised => exact h attackerKey last hlast y hy hkey
  | @allocated other hop hrun =>
    rw [current_allocated hfresh] at hlast
    by_cases hother : other = attackerKey
    · rw [if_pos hother] at hlast
      obtain rfl := Option.some.inj hlast
      rcases mem_upsertBy hy with rfl | ⟨hstored, hne⟩
      · exact le_refl _
      · have hle := hstamps.latest (fun _ hon => hon.not_resolve other hop) _ ⟨_, hrun⟩ y hstored
          (hkey.trans hother.symm) hne
        rwa [hop] at hle
    · rw [if_neg hother] at hlast
      rcases mem_upsertBy hy with rfl | ⟨hstored, -⟩
      · exact absurd hkey hother
      · exact h attackerKey last hlast y hstored hkey
  | @updated r status hread hrun =>
    rw [current_updated hread] at hlast
    obtain ⟨x, hx, rfl⟩ := Option.map_eq_some_iff.mp hlast
    by_cases hid : x.bindingId = r.bindingId
    · obtain rfl := current_unique hx (BindingOp.read_spec hread).1 hid
      rw [if_pos rfl]
      rcases mem_upsertBy hy with rfl | ⟨hstored, hne⟩
      · exact le_refl _
      · refine hstamps.latest (fun c hon => ?_) _ ⟨_, hrun⟩ y hstored
          (hkey.trans (getByBinding_of_getByAttacker hx).1.symm) hne
        obtain ⟨r', hread', hc, hnot⟩ := hon
        obtain rfl := Option.some.inj (hread'.symm.trans hread)
        rw [(getByBinding_of_getByAttacker hx).1, hx] at hc
        exact hnot (congrArg BindingRecord.bindingId (Option.some.inj hc).symm)
    · rw [if_neg hid]
      rcases mem_upsertBy hy with rfl | ⟨hstored, -⟩
      · have hr : r.attackerKey = attackerKey := hkey
        exact hstamps.older x ⟨r, hread, hr ▸ hx, hid⟩
      · exact h attackerKey x hx y hstored hkey

/-- What was seen last was written in order. -/
theorem stamps_of_seenLast (hfresh : request.Fresh records) (hwell : WellFormed records)
    (h : CurrentSeenLast text (request.after records)) : StampsInOrder text records request := by
  have hwritten := written_after records request
  generalize request.after records = records' at hwritten h
  cases hwritten with
  | raised hrun =>
    refine ⟨fun current hon => ?_, fun _ w hw => ?_⟩
    · obtain ⟨out, hout⟩ := hon.returns
      exact absurd (hout.symm.trans hrun) (by simp)
    · obtain ⟨records', hout⟩ := hw
      exact absurd (hout.symm.trans hrun) (by simp)
  | @allocated attackerKey hop hrun =>
    refine ⟨fun current hon => absurd hop (hon.not_resolve attackerKey), ?_⟩
    rintro - w ⟨records', hw⟩ r hr hkey hne
    obtain ⟨rfl, -⟩ := Prod.mk.inj (Except.ok.inj (hw.symm.trans hrun))
    have hle := h attackerKey (freshRecord request.call attackerKey)
      ((current_allocated hfresh _ _).trans (if_pos rfl)) r (mem_upsertBy_of_ne hr hne) hkey
    rwa [hop]
  | @updated r status hread hrun =>
    obtain ⟨current, hcurrent⟩ := current_of_mem hwell (mem_of_read hread)
    have hafter : getByAttacker (upsert (request.op.updated request.call status r) records)
        r.attackerKey = _ := current_updated hread r.attackerKey
    rw [hcurrent, Option.map_some] at hafter
    refine ⟨fun c hon => ?_, fun hnone w hw y hy hkey hne => ?_⟩
    · obtain ⟨r', hread', hc, hid⟩ := hon
      obtain rfl := Option.some.inj (hread'.symm.trans hread)
      obtain rfl := Option.some.inj (hcurrent.symm.trans hc)
      rw [if_neg hid] at hafter
      exact h _ _ hafter _ (self_mem_upsertBy _ _) rfl
    · obtain ⟨records', hw⟩ := hw
      obtain ⟨rfl, -⟩ := Prod.mk.inj (Except.ok.inj (hw.symm.trans hrun))
      have hid : current.bindingId = r.bindingId := by
        by_contra hid
        exact hnone current ⟨r, hread, hcurrent, hid⟩
      rw [if_pos hid] at hafter
      exact h _ _ hafter y (mem_upsertBy_of_ne hy hne) hkey

/-! ### Agreement along a run -/

variable {opts : LoopOptions} {inp : PassInput} {requests : List Request}

/-- The request model takes no empty attacker key. -/
def Accepted (request : Request) : Prop := request.op ≠ .resolve ""

theorem keys_step (haccepted : Accepted request) (h : ∀ r ∈ records, r.attackerKey ≠ "") :
    ∀ r ∈ request.after records, r.attackerKey ≠ "" := by
  have hwritten := written_after records request
  generalize request.after records = records' at hwritten
  cases hwritten with
  | raised => exact h
  | @allocated attackerKey hop hrun =>
    intro y hy
    rcases mem_upsertBy hy with rfl | ⟨hstored, -⟩
    · intro hempty
      have hkey : attackerKey = "" := hempty
      exact haccepted (hkey ▸ hop)
    · exact h y hstored
  | @updated r status hread hrun =>
    intro y hy
    rcases mem_upsertBy hy with rfl | ⟨hstored, -⟩
    · exact h r (mem_of_read hread)
    · exact h y hstored

/-- At every moment of the run, the three readers agree. -/
def AlwaysAgree (opts : LoopOptions) (inp : PassInput) (text : Datetime → String)
    (requests : List Request) : Prop :=
  ∀ before after, requests = before ++ after →
    ReadersAgree opts inp text (runRequests [] before)

/-- **The readers agree all along a run if and only if every operation of the run writes its time in
order.** -/
theorem agreement_iff (hstr : ∀ s, opts.str (.str s) = s) (hfresh : FreshRun [] requests)
    (haccepted : ∀ request ∈ requests, Accepted request) :
    AlwaysAgree opts inp text requests ↔ ∀ before request after,
      requests = before ++ request :: after →
        StampsInOrder text (runRequests [] before) request := by
  have hagree : ∀ before after, requests = before ++ after →
      (ReadersAgree opts inp text (runRequests [] before) ↔
        CurrentSeenLast text (runRequests [] before)) := by
    rintro before after rfl
    refine readersAgree_iff hstr (wellFormed_run before wellFormed_nil) ?_
    exact invariant_of_run (I := fun s => ∀ r ∈ s, r.attackerKey ≠ "")
      (freshRun_append.mp hfresh).1
      (fun first request rest heq _ => keys_step (haccepted request (by simp [heq])))
      fun _ h => absurd h (by simp)
  constructor
  · rintro h before request after rfl
    have hseen := (hagree (before ++ [request]) after (by simp)).mp (h _ after (by simp))
    rw [runRequests_append] at hseen
    exact stamps_of_seenLast (freshRun_append.mp hfresh).2.1 (wellFormed_run before wellFormed_nil)
      hseen
  · rintro h before after rfl
    rw [hagree before after rfl]
    refine invariant_of_run (freshRun_append.mp hfresh).1 (fun first request rest heq hf hseen => ?_)
      fun _ _ hcurrent => absurd hcurrent (by simp [getByAttacker_of_nodup, findLast])
    refine seenLast_of_stamps hf hseen ?_
    exact h first request (rest ++ after) (by rw [heq]; simp)

/-- The text of a time in whole seconds on 1 January 1970. -/
def dayText (t : Datetime) : String :=
  let seconds := (t.micros / 1000000).toNat
  "1970-01-01T" ++ String.ofList (Padded.fields [(2, [':']), (2, [':']), (2, ['Z'])]
    [seconds / 3600, seconds / 60 % 60, seconds % 60] [])

def readerOptions : LoopOptions where
  parseIsoDatetime _ := none
  str value := value.str?.getD ""
  feedbackWindowSeconds := 300
  maxActionsPerTrigger := 2
  keepsLoopState := true

def idlePass : PassInput where
  bindings := []
  profiles := []
  evidence := []
  internalHttpEvents := []
  now := 0
  controller _ := none
  orchestrator _ _ := false
  appliedAt _ := 0
  rowClock _ _ := 0

/-- The attacker comes back after two hours, and nothing is heard of the first binding. -/
theorem second_binding_agreed : AlwaysAgree readerOptions idlePass dayText
    [resolveAt 0 "b-1", resolveAt 7200000000 "b-2"] := by
  refine (agreement_iff (fun _ => rfl) (by decide +kernel)
    (by simp [Accepted, resolveAt])).mpr fun before request after heq => ?_
  rcases before with _ | ⟨first, _ | ⟨second, rest⟩⟩
  · obtain ⟨rfl, -⟩ := List.cons.inj heq
    exact ⟨fun c hon => absurd rfl (hon.not_resolve "198.51.100.7"), fun _ w _ r hr =>
      absurd hr (by simp [runRequests])⟩
  · obtain ⟨hfirst, heq⟩ := List.cons.inj heq
    obtain ⟨rfl, -⟩ := List.cons.inj heq
    subst hfirst
    refine ⟨fun c hon => absurd rfl (hon.not_resolve "198.51.100.7"), fun _ w _ r hr _ _ => ?_⟩
    have hall : ∀ r ∈ runRequests [] [resolveAt 0 "b-1"], dayText r.lastSeenTs ≤
        dayText (.utc 7200000000) := by decide +kernel
    exact hall r hr
  · exact absurd heq (by simp)

/-- **A late heartbeat of the first binding makes the dashboard show it again.** -/
theorem late_heartbeat_shown : ¬ ∀ requests, FreshRun [] requests →
    (∀ request ∈ requests, Accepted request) →
    AlwaysAgree readerOptions idlePass dayText requests := by
  intro h
  have hagree := (h [resolveAt 0 "b-1", resolveAt 7200000000 "b-2", heartbeatAt (.utc 7201000000)]
    (by decide +kernel) (by simp [Accepted, resolveAt, heartbeatAt]) _ []
    (List.append_nil _).symm).dashboard "198.51.100.7"
  have hids := congrArg (Option.map fun d => (Settings.get d "binding_id").str?) hagree
  exact absurd hids (by decide +kernel)

end Runs

end Honeynet.Dashboard
