import Honeynet.Orchestrator.Configurations
import Honeynet.Orchestrator.Swap

/-!
# One running record

Starts, configurations and stops write into one list of records, for any bindings and assets.

* `RuntimeCall`, `RuntimeStep`: the calls of the hybrid runtime.
* `Sole`: an id stands for one record, and so does a binding with an asset that runs.
* `sole_started`, `sole_configured`, `sole_stopped`: each call keeps it.
* `StopsAll`: what stopping a binding comes to, if it returns.
* `running_once`: in every state that is reached, at most one record of an asset runs.
-/

namespace Honeynet.Orchestrator

open Collections Effect
open Relation (ReflTransGen)

/-! ### At most one -/

/-- At most one record of a binding and an asset runs. -/
def RunningOnce (w : World) : Prop :=
  ∀ bindingId assetId, (w.runtimes.filter (AssetRuntimeRecord.runs bindingId assetId)).length ≤ 1

/-- An id stands for one record, and so does an asset of a binding among the records that run. -/
structure Sole (w : World) : Prop where
  nodup : (runtimeIds w).Nodup
  unique : ∀ {bindingId assetId : String}, ∀ r ∈ w.runtimes, ∀ r' ∈ w.runtimes,
    r.runs bindingId assetId = true → r'.runs bindingId assetId = true → r = r'

theorem runningOnce_of_sole {w : World} (h : Sole w) : RunningOnce w := by
  intro bindingId assetId
  have hnodup : (w.runtimes.filter (AssetRuntimeRecord.runs bindingId assetId)).Nodup :=
    h.nodup.of_map.filter _
  rw [← Nat.lt_succ_iff, ← not_le]
  intro hlength
  match hfilter : w.runtimes.filter (AssetRuntimeRecord.runs bindingId assetId) with
  | [] => exact absurd hlength (by simp [hfilter])
  | [r] => exact absurd hlength (by simp [hfilter])
  | r :: r' :: rest =>
    have hmem : ∀ x ∈ r :: r' :: rest, x ∈ w.runtimes ∧ x.runs bindingId assetId = true :=
      fun x hx => List.mem_filter.mp (hfilter ▸ hx)
    obtain ⟨hr, hruns⟩ := hmem r (by simp)
    obtain ⟨hr', hruns'⟩ := hmem r' (by simp)
    rw [hfilter, h.unique r hr r' hr' hruns hruns'] at hnodup
    exact (List.nodup_cons.mp hnodup).1 List.mem_cons_self

section Sole

variable {host : Host} {bindingId : String} {s w : World}

/-- A record that runs leaves no room for another one of its asset. -/
theorem sole_upsert {record : AssetRuntimeRecord} (h : Sole w)
    (halone : ∀ {bindingId assetId : String}, record.runs bindingId assetId = true →
      ∀ r ∈ w.runtimes, r.runs bindingId assetId = true → r.runtimeId = record.runtimeId) :
    Sole (w.upsertRuntime record) where
  nodup := nodup_upsert h.nodup record
  unique r hr r' hr' hruns hruns' := by
    rcases mem_upsertRuntime hr with rfl | ⟨hr, hne⟩
    · rcases mem_upsertRuntime hr' with rfl | ⟨hr', hne'⟩
      · rfl
      · exact absurd (halone hruns r' hr' hruns') hne'
    · rcases mem_upsertRuntime hr' with heq | ⟨hr', hne'⟩
      · rw [heq] at hruns'
        exact absurd (halone hruns' r hr hruns) hne
      · exact h.unique r hr r' hr' hruns hruns'

/-- A record that runs is written again. -/
theorem sole_rewritten {old record : AssetRuntimeRecord} (h : Sole w) (hold : old ∈ w.runtimes)
    (hid : record.runtimeId = old.runtimeId) (hruns : ∀ {bindingId assetId : String},
      record.runs bindingId assetId = true → old.runs bindingId assetId = true) :
    Sole (w.upsertRuntime record) :=
  sole_upsert h fun hrecord r hr hr' => by
    rw [h.unique r hr old hold hr' (hruns hrecord), hid]

theorem runs_of_not_running {assetId : String} {record : AssetRuntimeRecord}
    (h : record.status ≠ .running) : record.runs bindingId assetId = false := by
  rw [Bool.eq_false_iff]
  exact fun hruns => h (runs_iff.mp hruns).2.2

theorem sole_idle {record : AssetRuntimeRecord} (h : Sole w) (hidle : record.status ≠ .running) :
    Sole (w.upsertRuntime record) :=
  sole_upsert h fun hruns => absurd hruns (by simp [runs_of_not_running hidle])

theorem sole_vacated {assetId : String} {replaces : Bool} (h : Sole s)
    (hw : Vacated bindingId assetId replaces s w) : Sole w := by
  cases hw with
  | kept => exact ⟨h.nodup, h.unique⟩
  | @stopped old removals _ _ =>
    have hlog : Sole { s with removals } := ⟨h.nodup, h.unique⟩
    exact sole_idle hlog (by simp [AssetRuntimeRecord.stop])

/-- Where the record that ran is stopped, none of the asset runs. -/
theorem none_runs {assetId : String} {replaces : Bool} (h : Sole s)
    (hvacated : Vacated bindingId assetId replaces s w)
    (hdisplaced : Displaced bindingId assetId s w) :
    ∀ r ∈ w.runtimes, r.runs bindingId assetId = false := by
  intro r hr
  cases hexisting : existingRunningRecord s bindingId assetId with
  | none =>
    cases hvacated with
    | kept =>
      rw [existingRunningRecord_eq, List.find?_eq_none] at hexisting
      exact Bool.eq_false_iff.mpr (hexisting r hr)
    | stopped _ hold => exact absurd (hexisting.symm.trans hold) (by simp)
  | some old =>
    obtain ⟨removals, rfl⟩ := hdisplaced old hexisting
    rcases mem_upsertRuntime hr with rfl | ⟨hr, hne⟩
    · exact runs_of_not_running (by simp [AssetRuntimeRecord.stop])
    · rw [Bool.eq_false_iff]
      intro hruns
      obtain ⟨hold, hb, ha, hstatus⟩ := existingRunningRecord_spec hexisting
      obtain rfl := h.unique r hr old hold hruns (runs_iff.mpr ⟨hb, ha, hstatus⟩)
      exact hne rfl

/-- **A start.** -/
theorem sole_started {asset : AssetDefinition} {attacker : Option String}
    {warmStandby replaces : Bool} {t : World} (h : Sole s)
    (hstart : Started host bindingId asset attacker warmStandby replaces s t) : Sole t := by
  cases hstart with
  | reused => exact h
  | routed _ _ _ => exact ⟨h.nodup, h.unique⟩
  | @shown record new hrecord _ _ =>
    obtain ⟨hmem, -, -, -⟩ := existingRunningRecord_spec hrecord
    have hroutes : Sole (s.replaceRoutes new) := ⟨h.nodup, h.unique⟩
    have hstored : record ∈ (s.replaceRoutes new).runtimes := hmem
    exact sole_rewritten hroutes hstored rfl fun hruns => hruns
  | @launched w settings new hvacated hdisplaced _ _ =>
    have hw := sole_vacated h hvacated
    have hroutes : Sole (w.replaceRoutes new) := ⟨hw.nodup, hw.unique⟩
    refine sole_upsert hroutes fun {b a} hruns r hr hr' => ?_
    obtain ⟨rfl, rfl, -⟩ := runs_iff.mp hruns
    exact absurd hr' (by simp [none_runs h hvacated hdisplaced r hr, runtimeRecordFromAsset])
  | failed hvacated _ =>
    exact sole_idle (sole_vacated h hvacated) (by simp [runtimeRecordFromAsset])

/-- **A configuration.** -/
theorem sole_configured {assetId : String} {t : World} (h : Sole s)
    (hconfigured : Configured bindingId assetId s t) : Sole t := by
  cases hconfigured with
  | none => exact h
  | @updated record settings hrecord _ =>
    have hstored : record ∈ s.runtimes := (existingRunningRecord_spec hrecord).1
    exact sole_rewritten h hstored rfl fun hruns => hruns

/-- **A stop.** -/
theorem sole_stopped : KeepsRecycle host bindingId Sole :=
  stopBindingAssets_spec (C := fun _ => True) (fun _ _ _ _ _ => trivial)
    (fun _ _ h => ⟨h.nodup, h.unique⟩)
    fun _ _ h _ => sole_idle h (by simp [AssetRuntimeRecord.stop])

end Sole

/-! ### Calls of the runtime -/

/-- A call of the hybrid runtime. -/
inductive RuntimeCall
  | start (bindingId : String) (asset : AssetDefinition) (attackerKey : Option String)
      (warmStandby : Bool) (runtimeOverride : Option Settings)
  | prewarm (bindingId : String) (asset : AssetDefinition)
  | configure (bindingId assetId configurationId : String) (configuration : Settings)
  | stop (bindingId : String)

/-- The stores after a call, whether it returned or raised. -/
def RuntimeCall.run (host : Host) (w : World) : RuntimeCall → World
  | .start bindingId asset attackerKey warmStandby runtimeOverride =>
    (exec (startAsset host bindingId asset attackerKey warmStandby runtimeOverride) w).2
  | .prewarm bindingId asset => (exec (prewarmAsset host bindingId asset) w).2
  | .configure bindingId assetId configurationId configuration =>
    (exec (applyConfiguration host bindingId assetId configurationId configuration) w).2
  | .stop bindingId => (exec (stopBindingAssets host bindingId) w).2

/-- One call after another, each with whatever the host answers. -/
def RuntimeStep (s t : World) : Prop :=
  ∃ host call, Host.Fresh host ∧ RuntimeCall.run host s call = t

theorem sole_runtimeStep {s t : World} (h : RuntimeStep s t) (hs : Sole s) : Sole t := by
  obtain ⟨host, call, _, rfl⟩ := h
  cases call with
  | start bindingId asset attackerKey warmStandby runtimeOverride =>
    exact (startAsset_keeps sole_started).after hs
  | prewarm bindingId asset => exact (startAsset_keeps sole_started).after hs
  | configure bindingId assetId configurationId configuration =>
    refine (applyConfiguration_spec.conseq (fun _ => id) (fun _ _ => sole_configured hs) ?_).after
      rfl
    rintro _ rfl
    exact hs
  | stop bindingId => exact sole_stopped.after hs

theorem sole_of_runtimeRun {w : World} (h : ReflTransGen RuntimeStep {} w) : Sole w := by
  induction h with
  | refl => exact ⟨List.nodup_nil, fun _ hr => absurd hr (by simp)⟩
  | tail _ hstep ih => exact sole_runtimeStep hstep ih

/-! ### Stopping a binding -/

/-- The records with these ids are stopped. -/
def World.stopIds (w : World) (ids : List String) : World :=
  { w with runtimes := w.runtimes.map fun r => if r.runtimeId ∈ ids then r.stop else r }

/-- The stores are those of `w`, but for records of the binding that are stopped. -/
structure StopsBy (bindingId : String) (w : World) (ids : List String) (t : World) : Prop where
  owned : ∀ r ∈ w.runtimes, r.runtimeId ∈ ids → r.bindingId = bindingId
  state : ∃ removals, t = { w.stopIds ids with removals }

/-- **What stopping a binding comes to**: each of its running records is stopped, and returned
once. -/
structure StopsAll (w : World) (bindingId : String) (stopped : List AssetRuntimeRecord)
    (t : World) : Prop where
  runtimes : t.runtimes = w.runtimes.map fun r =>
    if r.bindingId = bindingId ∧ r.status = .running then r.stop else r
  ids : (stopped.map AssetRuntimeRecord.runtimeId).Nodup
  stopped : ∀ r, r ∈ stopped ↔
    ∃ old ∈ w.runtimes, old.bindingId = bindingId ∧ old.status = .running ∧ r = old.stop

section Stop

variable {host : Host} {bindingId : String} {w t : World} {ids : List String}

theorem stopsBy_nil (bindingId : String) (w : World) : StopsBy bindingId w [] w :=
  ⟨fun _ _ h => absurd h (by simp), w.removals, by simp [World.stopIds]⟩

theorem stopsBy_log (h : StopsBy bindingId w ids t) (name : String) :
    StopsBy bindingId w ids (t.logRemoval name) := by
  obtain ⟨removals, rfl⟩ := h.state
  exact ⟨h.owned, _, rfl⟩

/-- One more record is stopped. -/
theorem stopsBy_upsert (hnodup : (runtimeIds w).Nodup) (h : StopsBy bindingId w ids t)
    {record : AssetRuntimeRecord} (hrecord : record ∈ w.runtimes)
    (hb : record.bindingId = bindingId) :
    StopsBy bindingId w (ids ++ [record.runtimeId]) (t.upsertRuntime record.stop) := by
  constructor
  · intro r hr hid
    rcases List.mem_append.mp hid with hid | hid
    · exact h.owned r hr hid
    · rw [eq_of_runtimeId hnodup hr hrecord (List.mem_singleton.mp hid), hb]
  · obtain ⟨removals, rfl⟩ := h.state
    refine ⟨removals, ?_⟩
    have hkey : ∀ r : AssetRuntimeRecord,
        (if r.runtimeId ∈ ids then r.stop else r).runtimeId = r.runtimeId := by
      intro r
      split
      · rfl
      · rfl
    have hmem : record.stop.runtimeId ∈ ((w.runtimes.map fun r =>
        if r.runtimeId ∈ ids then r.stop else r).map AssetRuntimeRecord.runtimeId) := by
      rw [List.map_map]
      exact List.mem_map.mpr ⟨record, hrecord, hkey record⟩
    have hruntimes : upsertBy AssetRuntimeRecord.runtimeId record.stop
        (w.runtimes.map fun r => if r.runtimeId ∈ ids then r.stop else r) =
          w.runtimes.map fun r => if r.runtimeId ∈ ids ++ [record.runtimeId] then r.stop else r := by
      rw [upsertBy, if_pos hmem, List.map_map]
      refine List.map_congr_left fun r hr => ?_
      rw [Function.comp, hkey]
      by_cases hid : r.runtimeId = record.runtimeId
      · rw [eq_of_runtimeId hnodup hr hrecord hid]
        simp [AssetRuntimeRecord.stop]
      · have hstop : r.runtimeId ≠ record.stop.runtimeId := hid
        rw [if_neg hstop]
        simp [hid]
    rw [World.upsertRuntime, World.stopIds, World.stopIds, ← hruntimes]

/-- The records are told apart by their ids. -/
theorem mem_ids_iff (hnodup : (runtimeIds w).Nodup) {done : List AssetRuntimeRecord}
    (hdone : ∀ r ∈ done, r ∈ w.runtimes) {r : AssetRuntimeRecord} (hr : r ∈ w.runtimes) :
    r.runtimeId ∈ done.map AssetRuntimeRecord.runtimeId ↔ r ∈ done := by
  refine ⟨fun hid => ?_, fun h => List.mem_map_of_mem h⟩
  obtain ⟨r', hr', hid⟩ := List.mem_map.mp hid
  exact eq_of_runtimeId hnodup (hdone r' hr') hr hid ▸ hr'

/-- What one runtime stops of the records it is given. -/
theorem stopEach_exact (mine : AssetRuntimeRecord → Bool)
    {stop : AssetRuntimeRecord → Orchestrate AssetRuntimeRecord}
    (hstop : ∀ record ∈ w.runtimes, record.bindingId = bindingId → ∀ ids,
      Triple (StopsBy bindingId w ids) (stop record)
        (fun r t => StopsBy bindingId w (ids ++ [record.runtimeId]) t ∧ r = record.stop)
        fun t => ∃ ids, StopsBy bindingId w ids t)
    {records : List AssetRuntimeRecord} (hrecords : ∀ record ∈ records, record.status = .running →
      record ∈ w.runtimes ∧ record.bindingId = bindingId) (ids : List String) :
    Triple (StopsBy bindingId w ids) (stopEach mine stop records)
      (fun stopped t =>
        StopsBy bindingId w (ids ++ (records.filter fun r => r.status == .running && mine r).map
          AssetRuntimeRecord.runtimeId) t ∧
        stopped = (records.filter fun r => r.status == .running && mine r).map
          AssetRuntimeRecord.stop)
      fun t => ∃ ids, StopsBy bindingId w ids t := by
  induction records generalizing ids with
  | nil =>
    refine Triple.pure fun t ht => ⟨?_, rfl⟩
    rw [List.filter_nil, List.map_nil, List.append_nil]
    exact ht
  | cons record records ih =>
    have hrest := ih fun r hr => hrecords r (List.mem_cons_of_mem record hr)
    refine Triple.ite (fun hmine => ?_) fun hmine => ?_
    · have hrunning : record.status = .running := beq_iff_eq.mp (Bool.and_eq_true_iff.mp hmine).1
      obtain ⟨hmem, hb⟩ := hrecords record List.mem_cons_self hrunning
      have hfilter : (record :: records).filter (fun r => r.status == .running && mine r) =
          record :: records.filter fun r => r.status == .running && mine r :=
        List.filter_cons_of_pos hmine
      rw [hfilter]
      refine (hstop record hmem hb ids).bind fun r => Triple.of_and fun hr => ?_
      refine (hrest (ids ++ [record.runtimeId])).bind fun rest => Triple.of_and fun hstopped => ?_
      refine Triple.pure fun t ht => ⟨?_, by rw [hr, hstopped, List.map_cons]⟩
      rw [List.map_cons]
      rwa [List.append_assoc] at ht
    · have hfilter : (record :: records).filter (fun r => r.status == .running && mine r) =
          records.filter fun r => r.status == .running && mine r :=
        List.filter_cons_of_neg hmine
      rw [hfilter]
      exact hrest ids

/-- The stops of one runtime: its running records that are not stopped yet. -/
theorem stopPhase (mine : AssetRuntimeRecord → Bool)
    {stop : AssetRuntimeRecord → Orchestrate AssetRuntimeRecord}
    (hstop : ∀ record ∈ w.runtimes, record.bindingId = bindingId → ∀ ids,
      Triple (StopsBy bindingId w ids) (stop record)
        (fun r t => StopsBy bindingId w (ids ++ [record.runtimeId]) t ∧ r = record.stop)
        fun t => ∃ ids, StopsBy bindingId w ids t) (ids : List String) :
    Triple (StopsBy bindingId w ids)
      (do let t ← get; stopEach mine stop (t.listByBinding bindingId))
      (fun stopped t => ∃ done : List AssetRuntimeRecord,
        stopped = done.map AssetRuntimeRecord.stop ∧
        (∀ r, r ∈ done ↔ r ∈ w.runtimes ∧ r.bindingId = bindingId ∧ r.status = .running ∧
          r.runtimeId ∉ ids ∧ mine r = true) ∧
        StopsBy bindingId w (ids ++ done.map AssetRuntimeRecord.runtimeId) t)
      fun t => ∃ ids, StopsBy bindingId w ids t := by
  refine Triple.get_bind fun t ht => ?_
  obtain ⟨removals, hstate⟩ := ht.state
  -- what still runs is as it was, and not among the ids
  have hrunning : ∀ r, r.status = .running → (r ∈ t.listByBinding bindingId ↔
      r ∈ w.runtimes ∧ r.bindingId = bindingId ∧ r.runtimeId ∉ ids) := by
    intro r hr
    rw [World.listByBinding, List.mem_filter, beq_iff_eq, hstate, World.stopIds, List.mem_map]
    constructor
    · rintro ⟨⟨old, hold, rfl⟩, hb⟩
      by_cases hid : old.runtimeId ∈ ids
      · rw [if_pos hid] at hr
        exact absurd hr (by simp [AssetRuntimeRecord.stop])
      · rw [if_neg hid] at hb ⊢
        exact ⟨hold, hb, hid⟩
    · rintro ⟨hmem, hb, hid⟩
      exact ⟨⟨r, hmem, if_neg hid⟩, hb⟩
  have hrecords : ∀ r ∈ t.listByBinding bindingId, r.status = .running →
      r ∈ w.runtimes ∧ r.bindingId = bindingId := fun r hr hstatus =>
    ⟨((hrunning r hstatus).mp hr).1, ((hrunning r hstatus).mp hr).2.1⟩
  refine (stopEach_exact mine hstop hrecords ids).conseq ?_ ?_ fun _ => id
  · rintro _ rfl
    exact ht
  · rintro stopped u ⟨hu, rfl⟩
    refine ⟨_, rfl, fun r => ?_, hu⟩
    rw [List.mem_filter, Bool.and_eq_true, beq_iff_eq]
    constructor
    · rintro ⟨hmem, hstatus, hmine⟩
      obtain ⟨hold, hb, hid⟩ := (hrunning r hstatus).mp hmem
      exact ⟨hold, hb, hstatus, hid, hmine⟩
    · rintro ⟨hold, hb, hstatus, hid, hmine⟩
      exact ⟨(hrunning r hstatus).mpr ⟨hold, hb, hid⟩, hstatus, hmine⟩

theorem composeStop_exact (hnodup : (runtimeIds w).Nodup) {record : AssetRuntimeRecord}
    (hrecord : record ∈ w.runtimes) (hb : record.bindingId = bindingId) (ids : List String) :
    Triple (StopsBy bindingId w ids) (composeStop host record)
      (fun r t => StopsBy bindingId w (ids ++ [record.runtimeId]) t ∧ r = record.stop)
      fun t => ∃ ids, StopsBy bindingId w ids t := by
  refine Triple.get_bind fun t ht => ?_
  refine ((raise?_spec _).conseq (fun _ => id) (fun _ _ => id) ?_).bind fun _ =>
    upsertRuntime_spec ?_
  · rintro _ rfl
    exact ⟨ids, ht⟩
  · rintro _ rfl
    exact ⟨stopsBy_upsert hnodup ht hrecord hb, rfl⟩

theorem stopRuntimeRecord_exact (hnodup : (runtimeIds w).Nodup) {record : AssetRuntimeRecord}
    (hrecord : record ∈ w.runtimes) (hb : record.bindingId = bindingId) (ids : List String) :
    Triple (StopsBy bindingId w ids) (stopRuntimeRecord host record)
      (fun r t => StopsBy bindingId w (ids ++ [record.runtimeId]) t ∧ r = record.stop)
      fun t => ∃ ids, StopsBy bindingId w ids t :=
  ((removeContainers_spec (P := StopsBy bindingId w ids)
    (fun _ name h => stopsBy_log h name) _).conseq (fun _ => id)
    (fun _ _ => id) fun _ h => ⟨ids, h⟩).bind fun _ =>
      upsertRuntime_spec fun _ h => ⟨stopsBy_upsert hnodup h hrecord hb, rfl⟩

/-- If the records that were stopped are those of the binding that ran, all is stopped. -/
theorem stopsAll_of_done (hnodup : (runtimeIds w).Nodup) {done : List AssetRuntimeRecord}
    (hdone : ∀ r, r ∈ done ↔ r ∈ w.runtimes ∧ r.bindingId = bindingId ∧ r.status = .running)
    (h : StopsBy bindingId w (done.map AssetRuntimeRecord.runtimeId) t) :
    StopsAll w bindingId ((dictBy AssetRuntimeRecord.runtimeId
      (done.map AssetRuntimeRecord.stop)).map Prod.snd) t where
  runtimes := by
    obtain ⟨removals, rfl⟩ := h.state
    refine List.map_congr_left fun r hr => ?_
    have hstops : r.runtimeId ∈ done.map AssetRuntimeRecord.runtimeId ↔
        r.bindingId = bindingId ∧ r.status = .running := by
      rw [mem_ids_iff hnodup (fun r hr => ((hdone r).mp hr).1) hr, hdone]
      exact and_iff_right hr
    exact if_congr hstops rfl rfl
  ids := nodup_values_dictBy _
  stopped r := by
    rw [mem_values_dictBy_of_inj, List.mem_map]
    · constructor
      · rintro ⟨old, hold, rfl⟩
        obtain ⟨hr, hb, hstatus⟩ := (hdone old).mp hold
        exact ⟨old, hr, hb, hstatus, rfl⟩
      · rintro ⟨old, hr, hb, hstatus, rfl⟩
        exact ⟨old, (hdone old).mpr ⟨hr, hb, hstatus⟩, rfl⟩
    · intro x hx y hy hid
      obtain ⟨old, hold, rfl⟩ := List.mem_map.mp hx
      obtain ⟨old', hold', rfl⟩ := List.mem_map.mp hy
      rw [eq_of_runtimeId hnodup ((hdone old).mp hold).1 ((hdone old').mp hold').1 hid]

/-- **A stop that returns has stopped and returned every running record of the binding, one that
raises has stopped some of them.** -/
theorem stopBindingAssets_exact (hnodup : (runtimeIds w).Nodup) :
    Triple (· = w) (stopBindingAssets host bindingId)
      (fun stopped t => StopsAll w bindingId stopped t ∧ ∃ ids, StopsBy bindingId w ids t)
      fun t => ∃ ids, StopsBy bindingId w ids t := by
  have hstart : ∀ t, t = w → StopsBy bindingId w [] t := by
    rintro _ rfl
    exact stopsBy_nil bindingId _
  refine ((stopPhase _ (fun record => composeStop_exact hnodup) []).pre hstart).bind fun compose =>
    Triple.of_forall ?_
  rintro t ⟨done₁, rfl, hdone₁, ht⟩
  refine ((stopPhase (fun _ => true) (fun record => stopRuntimeRecord_exact hnodup)
    ([] ++ done₁.map AssetRuntimeRecord.runtimeId)).pre ?_).bind fun docker => Triple.of_forall ?_
  · rintro _ rfl
    exact ht
  rintro t ⟨done₂, rfl, hdone₂, ht⟩
  refine ((stopPhase (fun _ => true) (fun record hrecord hb ids => upsertRuntime_spec
    fun _ h => ⟨stopsBy_upsert hnodup h hrecord hb, rfl⟩)
    ([] ++ done₁.map AssetRuntimeRecord.runtimeId ++
      done₂.map AssetRuntimeRecord.runtimeId)).pre ?_).bind fun mock => Triple.of_forall ?_
  · rintro _ rfl
    exact ht
  rintro t ⟨done₃, rfl, hdone₃, ht⟩
  refine Triple.pure ?_
  rintro _ rfl
  -- together the three have stopped what ran
  have hdone : ∀ r, r ∈ done₁ ++ done₂ ++ done₃ ↔
      r ∈ w.runtimes ∧ r.bindingId = bindingId ∧ r.status = .running := by
    intro r
    rw [List.mem_append, List.mem_append]
    constructor
    · rintro ((hr | hr) | hr)
      · exact ⟨((hdone₁ r).mp hr).1, ((hdone₁ r).mp hr).2.1, ((hdone₁ r).mp hr).2.2.1⟩
      · exact ⟨((hdone₂ r).mp hr).1, ((hdone₂ r).mp hr).2.1, ((hdone₂ r).mp hr).2.2.1⟩
      · exact ⟨((hdone₃ r).mp hr).1, ((hdone₃ r).mp hr).2.1, ((hdone₃ r).mp hr).2.2.1⟩
    · rintro ⟨hr, hb, hstatus⟩
      by_cases hfirst : r ∈ done₁
      · exact Or.inl (Or.inl hfirst)
      · refine Or.inl (Or.inr ((hdone₂ r).mpr ⟨hr, hb, hstatus, ?_, rfl⟩))
        rw [List.nil_append]
        exact fun hid => hfirst ((mem_ids_iff hnodup (fun r hr => ((hdone₁ r).mp hr).1) hr).mp hid)
  rw [List.nil_append, ← List.map_append, ← List.map_append] at ht
  rw [← List.map_append, ← List.map_append]
  exact ⟨stopsAll_of_done hnodup hdone ht, _, ht⟩

/-- The records of other bindings stay as they are, and in their order. -/
theorem others_of_stopsBy (h : StopsBy bindingId w ids t) :
    t.runtimes.filter (fun r => r.bindingId ≠ bindingId) =
      w.runtimes.filter fun r => r.bindingId ≠ bindingId := by
  obtain ⟨removals, rfl⟩ := h.state
  have hmap : ∀ records : List AssetRuntimeRecord,
      (∀ r ∈ records, r.runtimeId ∈ ids → r.bindingId = bindingId) →
      (records.map fun r => if r.runtimeId ∈ ids then r.stop else r).filter
          (fun r => r.bindingId ≠ bindingId) = records.filter fun r => r.bindingId ≠ bindingId := by
    intro records hrecords
    induction records with
    | nil => rfl
    | cons r records ih =>
      obtain ⟨hr, hrest⟩ := List.forall_mem_cons.mp hrecords
      rw [List.map_cons, List.filter_cons, List.filter_cons, ih hrest]
      by_cases hid : r.runtimeId ∈ ids
      · have hb := hr hid
        simp [hid, hb, AssetRuntimeRecord.stop]
      · rw [if_neg hid]
  exact hmap w.runtimes h.owned

end Stop

/-! ### In every state that is reached -/

/-- **At most one record of an asset runs**, and a stop of a binding that returns leaves none of it
running, has returned each record it stopped once, and no stop touches another binding. -/
theorem running_once {w : World} (h : ReflTransGen RuntimeStep {} w) :
    RunningOnce w ∧ ∀ host bindingId,
      (∀ stopped t, exec (stopBindingAssets host bindingId) w = (.ok stopped, t) →
        StopsAll w bindingId stopped t ∧
          ∀ r ∈ t.runtimes, r.bindingId = bindingId → r.status ≠ .running) ∧
      (exec (stopBindingAssets host bindingId) w).2.runtimes.filter
          (fun r => r.bindingId ≠ bindingId) =
        w.runtimes.filter fun r => r.bindingId ≠ bindingId := by
  have hsole := sole_of_runtimeRun h
  refine ⟨runningOnce_of_sole hsole, fun host bindingId => ⟨fun stopped t hstop => ?_, ?_⟩⟩
  · have hall : StopsAll w bindingId stopped t :=
      ((stopBindingAssets_exact hsole.nodup w rfl).1 stopped t hstop).1
    refine ⟨hall, fun r hr hb hstatus => ?_⟩
    rw [hall.runtimes] at hr
    obtain ⟨old, -, rfl⟩ := List.mem_map.mp hr
    by_cases hrunning : old.bindingId = bindingId ∧ old.status = .running
    · rw [if_pos hrunning] at hstatus
      exact absurd hstatus (by simp [AssetRuntimeRecord.stop])
    · rw [if_neg hrunning] at hb hstatus
      exact hrunning ⟨hb, hstatus⟩
  · have hstops : ∃ ids, StopsBy bindingId w ids
        (exec (stopBindingAssets host bindingId) w).2 :=
      ((stopBindingAssets_exact hsole.nodup).post fun _ _ => And.right).after rfl
    obtain ⟨ids, hids⟩ := hstops
    exact others_of_stopsBy hids

/-- A repository is started for a binding. -/
def startedWorld : World :=
  RuntimeCall.run (quietHost gitCatalog) {}
    (.start "b-1" (gitCatalog.headD gitAsset) (some "198.51.100.7") false none)

theorem startedWorld_reached : ReflTransGen RuntimeStep {} startedWorld :=
  .single ⟨_, _, quietHost_fresh gitCatalog, rfl⟩

theorem started_once : RunningOnce startedWorld := (running_once startedWorld_reached).1

/-- A machine on which no container can be removed. -/
def lostHost : Host :=
  { quietHost gitCatalog with
    remove := fun _ _ => some ⟨.osError, "[Errno 2] No such file or directory: 'docker'"⟩ }

/-- **A stop that raises leaves the record running.** -/
theorem interrupted_stop : ¬ ∀ (host : Host) (w : World) (bindingId : String), host.Fresh →
    ReflTransGen RuntimeStep {} w →
    ∀ r ∈ (exec (stopBindingAssets host bindingId) w).2.runtimes,
      r.bindingId = bindingId → r.status ≠ .running := by
  intro h
  have hfresh : lostHost.Fresh := ⟨fun _ => freshId_notMem _, fun _ => freshId_notMem _⟩
  have hall := h lostHost startedWorld "b-1" hfresh startedWorld_reached
  have hleft : (exec (stopBindingAssets lostHost "b-1") startedWorld).2.runtimes.any
      (fun r => r.bindingId == "b-1" && r.status == .running) = true := by decide +kernel
  obtain ⟨r, hr, hruns⟩ := List.any_eq_true.mp hleft
  obtain ⟨hb, hstatus⟩ := Bool.and_eq_true_iff.mp hruns
  exact hall r hr (beq_iff_eq.mp hb) (beq_iff_eq.mp hstatus)

end Honeynet.Orchestrator
