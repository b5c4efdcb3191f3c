import Honeynet.Orchestrator.Launches

/-!
# Configurations that a swap forgets

A configuration with a runtime of its own puts a new container in place of the one that runs, and
is then attached to the record of the new one.  That record starts from the settings of the
catalog, so what the old one listed is not carried over, while the binding goes on to count it as
revealed.

* `runningRecords`, `Running`: the records of an asset that run, in the order of the store.
* `Succeeded`: what runs after the target has been started in place of them.
* `revealTarget_swap`: a target whose start does not fail is left so.
* `swap_retains_iff`: when everything that was listed still is.
* `forgotten_configuration`: a note is lost when the repository is swapped.
-/

namespace Honeynet.Orchestrator

open Collections Binding Effect Relation

/-! ### The records that run -/

/-- The records of the asset that run; the first of them is the one that is read. -/
def runningRecords (w : World) (bindingId assetId : String) : List AssetRuntimeRecord :=
  w.runtimes.filter (AssetRuntimeRecord.runs bindingId assetId)

/-- These are the records of the asset that run. -/
structure Running (bindingId assetId : String) (records : List AssetRuntimeRecord) (w : World) :
    Prop where
  nodup : (runtimeIds w).Nodup
  running : runningRecords w bindingId assetId = records

/-- The settings that are read once the first record has made way for a new one, which comes
last. -/
def settingsAfterSwap (asset : AssetDefinition) (records : List AssetRuntimeRecord) : Settings :=
  (records.tail.head?.map AssetRuntimeRecord.settings).getD asset.defaultSettings

/-- **When a swap forgets nothing**: the target is not in the catalog, or what its record lists is
listed in any case by what is read after it, or is the configuration that comes with the swap. -/
def RetainsActive (host : Host) (s : World) (bindingId assetId configurationId target : String) :
    Prop :=
  ∀ asset, assetById host target = some asset → ∀ active, ListedRunning s bindingId target active →
    active ∈ (activeConfigurations
        (settingsAfterSwap asset (runningRecords s bindingId target))).map Prod.fst ∨
      (assetId = target ∧ active = configurationId)

/-- A new record of the asset has come in place of the first, and lists what the asset does by
default. -/
def Swapped (bindingId : String) (asset : AssetDefinition) (records : List AssetRuntimeRecord)
    (w : World) : Prop :=
  ∃ record : AssetRuntimeRecord,
    activeConfigurations record.settings = activeConfigurations asset.defaultSettings ∧
      Running bindingId asset.assetId (records.tail ++ [record]) w

/-- **What runs once the target has been started in place of `records`**; nothing is started if
the catalog does not have it. -/
inductive Succeeded (host : Host) (bindingId target : String) (records : List AssetRuntimeRecord)
    (w : World) : Prop
  | absent : assetById host target = none → Running bindingId target records w →
      Succeeded host bindingId target records w
  | swapped {asset : AssetDefinition} : assetById host target = some asset →
      Swapped bindingId asset records w → Succeeded host bindingId target records w

/-- **How an attachment that returns ends**: no record of its asset runs, or the one that does has
the configuration active. -/
inductive Attached (bindingId assetId configurationId : String) (configuration : Settings)
    (w : World) : World → Prop
  | skipped : existingRunningRecord w bindingId assetId = none →
      Attached bindingId assetId configurationId configuration w w
  | written {record : AssetRuntimeRecord} {artifact : Settings} :
      existingRunningRecord w bindingId assetId = some record →
      Attached bindingId assetId configurationId configuration w
        (w.upsertRuntime (configuredRecord record configurationId configuration artifact))

section Forgotten

variable {host : Host} {bindingId target : String} {records : List AssetRuntimeRecord} {w t : World}

theorem existing_running (h : Running bindingId target records w) :
    existingRunningRecord w bindingId target = records.head? := by
  rw [existingRunningRecord_eq, ← List.head?_filter, ← h.running]
  rfl

theorem listedRunning_running (h : Running bindingId target records w) {active : String} :
    ListedRunning w bindingId target active ↔ ∃ record, records.head? = some record ∧
      active ∈ (activeConfigurations record.settings).map Prod.fst := by
  rw [ListedRunning, existing_running h]

/-! ### Records that are written -/

/-- A record that does not run for the asset is written under an id that none of its has. -/
theorem running_upsert_other (h : Running bindingId target records w)
    {record : AssetRuntimeRecord} (hnot : record.runs bindingId target = false)
    (hother : ∀ r ∈ w.runtimes, r.runtimeId = record.runtimeId →
      r.runs bindingId target = false) :
    Running bindingId target records (w.upsertRuntime record) := by
  refine ⟨nodup_upsert h.nodup record, ?_⟩
  rw [runningRecords, World.upsertRuntime, filter_upsertBy_of_not hnot, ← h.running]
  refine List.filter_eq_self.mpr fun r hr => ?_
  obtain ⟨hmem, hruns⟩ := List.mem_filter.mp hr
  exact decide_eq_true fun hid => absurd hruns (by rw [hother r hmem hid]; decide)

/-- The record that is read is stopped. -/
theorem running_upsert_stop {old : AssetRuntimeRecord}
    (h : Running bindingId target (old :: records) w) :
    Running bindingId target records (w.upsertRuntime old.stop) := by
  refine ⟨nodup_upsert h.nodup _, ?_⟩
  have hstopped : old.stop.runs bindingId target = false := by
    simp [AssetRuntimeRecord.runs, AssetRuntimeRecord.stop]
  have hrunning := h.running
  rw [runningRecords] at hrunning
  have hsublist : (old :: records).Sublist w.runtimes := hrunning ▸ List.filter_sublist
  have hids : ((old :: records).map AssetRuntimeRecord.runtimeId).Nodup :=
    h.nodup.sublist (hsublist.map _)
  rw [List.map_cons, List.nodup_cons] at hids
  rw [runningRecords, World.upsertRuntime, filter_upsertBy_of_not hstopped, hrunning,
    List.filter_cons_of_neg (by simp [AssetRuntimeRecord.stop])]
  refine List.filter_eq_self.mpr fun r hr => decide_eq_true fun hid => hids.1 ?_
  exact List.mem_map.mpr ⟨r, hr, hid⟩

/-- A new record that runs comes last. -/
theorem running_upsert_new (h : Running bindingId target records w) {record : AssetRuntimeRecord}
    (hnew : record.runtimeId ∉ runtimeIds w) (hruns : record.runs bindingId target = true) :
    Running bindingId target (records ++ [record]) (w.upsertRuntime record) := by
  refine ⟨nodup_upsert h.nodup record, ?_⟩
  rw [runningRecords, World.upsertRuntime, filter_upsertBy_new hnew hruns, ← h.running]
  rfl

/-! ### Starts of other assets -/

/-- **A start of another asset** does not change which records run. -/
theorem running_started_other (hfresh : host.Fresh) {asset : AssetDefinition}
    {attacker : Option String} {replaces : Bool} (h : Running bindingId target records w)
    (hother : asset.assetId ≠ target)
    (hstart : Started host bindingId asset attacker false replaces w t) :
    Running bindingId target records t := by
  have hnot : ∀ {r : AssetRuntimeRecord}, r.assetId = asset.assetId →
      r.runs bindingId target = false :=
    fun hr => Bool.eq_false_iff.mpr fun hruns => hother (hr.symm.trans (runs_iff.mp hruns).2.1)
  refine started_frame h (fun hu => ⟨hu.nodup, hu.running⟩) (fun _ hu => ⟨hu.nodup, hu.running⟩)
    ?_ ?_ hstart
  · intro u old record hold hid hasset hu
    obtain ⟨hmem, _, ha, _⟩ := existingRunningRecord_spec hold
    refine running_upsert_other hu (hnot (hasset.trans ha)) fun r hr hrid => ?_
    -- an id names one record, which is of the other asset
    obtain rfl := eq_of_runtimeId hu.nodup hr hmem (hrid.trans hid)
    exact hnot ha
  · intro u u' status settings hruntimes hu
    refine running_upsert_other hu (hnot rfl) fun r hr hid => ?_
    rw [← hruntimes] at hr
    exact absurd hid (fresh_ne hfresh hr)

/-! ### The start of the target -/

variable {asset : AssetDefinition} {attackerKey : Option String} {runtimeOverride : Settings}

/-- The record that is read is stopped, if one runs. -/
theorem stopExisting_running :
    Triple (Running bindingId target records)
      (stopExisting (stopRuntimeRecord host) records.head?)
      (fun _ => Running bindingId target records.tail) fun _ => True := by
  cases records with
  | nil => exact Triple.pure fun _ h => h
  | cons old others =>
    have hlog : ∀ u name, Running bindingId target (old :: others) u →
        Running bindingId target (old :: others) (u.logRemoval name) :=
      fun _ _ h => ⟨h.nodup, h.running⟩
    have hstop : Triple (Running bindingId target (old :: others)) (stopRuntimeRecord host old)
        (fun _ => Running bindingId target others) fun _ => True :=
      (removeContainers_spec hlog _).any_error.bind fun _ =>
        upsertRuntime_spec fun _ h => running_upsert_stop h
    exact hstop.bind fun _ => Triple.pure fun _ h => h

/-- What is recorded runs after all others, and lists what the asset does by default. -/
theorem recordStarted_running_last (hfresh : host.Fresh) {settings : Settings} {managed : Bool}
    (hkey : "active_configurations" ∉ settings.map Prod.fst) {E : World → Prop} :
    Triple (Running bindingId asset.assetId records)
      (recordStarted host bindingId asset settings managed attackerKey false)
      (fun _ u => ∃ record : AssetRuntimeRecord,
        activeConfigurations record.settings = activeConfigurations asset.defaultSettings ∧
        Running bindingId asset.assetId (records ++ [record]) u) E := by
  refine Triple.get_bind fun u hu => ?_
  refine (routeTo_spec (s := u) fun _ h => h).bind fun _ => upsertRuntime_spec ?_
  rintro _ ⟨new, _, rfl⟩
  refine ⟨_, ?_, running_upsert_new (w := u.replaceRoutes new) ⟨hu.nodup, hu.running⟩
    (hfresh.runtime u) (runs_iff.mpr ⟨rfl, rfl, rfl⟩)⟩
  have hflag : settings ++ standbyFlag false = settings := List.append_nil settings
  rw [runtimeRecordFromAsset, hflag, activeConfigurations, Settings.getD,
    lookup_update_of_notMem hkey]
  rfl

/-- **A container start with a runtime of its own** takes the place of the record that is read. -/
theorem launchContainer_running (hfresh : host.Fresh) :
    Triple (Running bindingId asset.assetId records)
      (launchContainer host bindingId asset attackerKey false records.head? (some runtimeOverride))
      (fun _ => Swapped bindingId asset records) fun _ => True := by
  refine Triple.get_bind fun u hu => ?_
  refine Triple.pre (P := Running bindingId asset.assetId records) ?_ (by rintro _ rfl; exact hu)
  refine (raise?_spec _).any_error.bind fun _ => (raise?_spec _).any_error.bind fun _ => ?_
  refine (answer_spec _).any_error.bind fun runtime => Triple.of_and fun _ => ?_
  refine (answer_spec _).any_error.bind fun image => Triple.of_and fun _ => ?_
  refine stopExisting_running.bind fun _ => ?_
  refine (Triple.modify (Q := fun _ => Running bindingId asset.assetId records.tail)
    fun _ h => ⟨h.nodup, h.running⟩).bind fun _ => ?_
  refine (raise?_spec _).any_error.bind fun _ => ?_
  refine (answer_spec _).any_error.bind fun settings => Triple.of_and fun hsettings => ?_
  refine (raise?_spec _).any_error.bind fun _ => (raise?_spec _).any_error.bind fun _ => ?_
  refine (answer_spec _).any_error.bind fun sidecars => Triple.of_and fun _ => ?_
  refine (answer_spec _).any_error.bind fun ip => Triple.of_and fun _ => ?_
  exact recordStarted_running_last hfresh (notMem_containerSettings hsettings _ _ _ (by decide))

theorem startAsset_running (hfresh : host.Fresh) {E : World → Prop} :
    Triple (Running bindingId asset.assetId records)
      (startAsset host bindingId asset attackerKey false (some runtimeOverride))
      (fun started w => started.status ≠ .failed → Swapped bindingId asset records w) E := by
  have hdocker : Triple (Running bindingId asset.assetId records)
      (dockerStartAsset host bindingId asset attackerKey false (some runtimeOverride))
      (fun _ => Swapped bindingId asset records) fun _ => True := by
    refine Triple.get_bind fun u hu => ?_
    rw [existing_running hu]
    have hlaunch : Triple (· = u) (launchContainer host bindingId asset attackerKey false
        records.head? (some runtimeOverride)) (fun _ => Swapped bindingId asset records)
        fun _ => True := (launchContainer_running hfresh).pre (by rintro _ rfl; exact hu)
    cases hhead : records.head? <;>
      · rw [hhead] at hlaunch
        exact hlaunch
  refine Triple.tryCatch (hdocker.post fun _ _ h _ => h) fun e => ?_
  refine Triple.get_bind fun u _ => upsertRuntime_spec fun _ _ hstarted => ?_
  exact absurd rfl hstarted

/-! ### The starts of a configure action -/

theorem startEach_append (binding : BindingRecord) (override : String → Option Settings)
    (first second : List String) :
    startEach host binding override (first ++ second) = do
      let started ← startEach host binding override first
      let rest ← startEach host binding override second
      return started ++ rest := by
  induction first with
  | nil => simp [startEach]
  | cons assetId assetIds ih =>
    simp only [List.cons_append, startEach, ih, bind_assoc, pure_bind, List.append_assoc]

/-- The target itself, if the catalog has it. -/
theorem startAssetRuntime_running (hfresh : host.Fresh) {binding : BindingRecord}
    (hbinding : binding.bindingId = bindingId) {E : World → Prop} :
    Triple (Running bindingId target records)
      (startAssetRuntime host binding target (some runtimeOverride))
      (fun started w => (∀ record ∈ started, record.status ≠ .failed) →
        Succeeded host bindingId target records w) E := by
  subst hbinding
  cases hasset : assetById host target with
  | none =>
    simp only [startAssetRuntime, hasset]
    exact Triple.pure fun _ h _ => .absent hasset h
  | some asset =>
    simp only [startAssetRuntime, hasset]
    obtain ⟨_, rfl⟩ := assetById_spec hasset
    refine (startAsset_running hfresh).bind fun started => Triple.pure fun _ h hstarted => ?_
    exact .swapped hasset (h (hstarted started (List.mem_singleton_self started)))

/-- The target is started last, and no other asset named before it is the target. -/
theorem startEach_running (hfresh : host.Fresh) {binding : BindingRecord}
    (hbinding : binding.bindingId = bindingId) {before : List String} (hbefore : target ∉ before)
    {E : World → Prop} :
    Triple (Running bindingId target records)
      (startEach host binding
        (fun assetId => if assetId = target then some runtimeOverride else none)
        (before ++ [target]))
      (fun started w => (∀ record ∈ started, record.status ≠ .failed) →
        Succeeded host bindingId target records w) E := by
  rw [startEach_append]
  have hothers : Triple (Running bindingId target records)
      (startEach host binding
        (fun assetId => if assetId = target then some runtimeOverride else none) before)
      (fun _ => Running bindingId target records) E := by
    subst hbinding
    refine startEach_keeps fun _ hmem _ h hstarted => running_started_other hfresh h ?_ hstarted
    exact fun heq => hbefore (heq ▸ hmem)
  have hlast : Triple (Running bindingId target records)
      (startEach host binding
        (fun assetId => if assetId = target then some runtimeOverride else none) [target])
      (fun started w => (∀ record ∈ started, record.status ≠ .failed) →
        Succeeded host bindingId target records w) E := by
    rw [startEach, if_pos rfl]
    refine (startAssetRuntime_running hfresh hbinding).bind fun started => ?_
    rw [startEach, pure_bind]
    exact Triple.pure fun _ h => by rwa [List.append_nil]
  refine hothers.bind fun started => hlast.bind fun rest => Triple.pure ?_
  exact fun _ h hstarted => h fun record hrecord =>
    hstarted record (List.mem_append_right started hrecord)

/-- The update of an asset that was open before. -/
theorem unlockRouteUpdates_open {unlocked : List String} (h : target ∈ unlocked) :
    unlockRouteUpdates bindingId unlocked (appendNew unlocked [target]) [target] =
      [routesUpdate bindingId target] := by
  have hnew : appendNew unlocked [target] = unlocked := if_pos h
  rw [unlockRouteUpdates, hnew]
  simp [h]

/-- However the route update reads, the target is started once, and last. -/
theorem startedIds_eq (bindingId target : String) (unlocked : List String) :
    let named := newAssetIdsFromRouteUpdates
      (unlockRouteUpdates bindingId unlocked (appendNew unlocked [target]) [target])
    ∃ before, target ∉ before ∧
      named ++ (if target ∈ named then [] else [target]) = before ++ [target] := by
  have hone : ∃ update, unlockRouteUpdates bindingId unlocked (appendNew unlocked [target]) [target]
      = [update] := by
    by_cases h : target ∈ unlocked
    · exact ⟨_, unlockRouteUpdates_open h⟩
    · exact ⟨_, unlockRouteUpdates_locked h⟩
  obtain ⟨update, hupdate⟩ := hone
  rw [hupdate, newAssetIdsFromRouteUpdates, List.filterMap_cons, List.filterMap_nil]
  cases newAssetId update with
  | none => exact ⟨[], List.not_mem_nil, rfl⟩
  | some named =>
    by_cases h : target = named
    · exact ⟨[], List.not_mem_nil, by simp [h]⟩
    · exact ⟨[named], by simpa using h, by simp [h]⟩

variable (runtimeOverride) in
/-- **A target whose start does not fail** has a new record in place of the one that ran. -/
theorem revealTarget_swap (hfresh : host.Fresh) {binding : BindingRecord} :
    Triple (fun w => getByBinding w.bindings bindingId = some binding ∧
        Running bindingId target records w)
      (revealTarget host bindingId binding (some target) (some runtimeOverride))
      (fun progress w => progress.binding.bindingId = bindingId ∧
        ((∀ record ∈ progress.runtimeEvents, record.status ≠ .failed) →
          Succeeded host bindingId target records w)) fun _ => False := by
  refine Triple.of_forall fun w hw => ?_
  obtain ⟨hstored, hrunning⟩ := hw
  have hunlock : Triple (· = w) (applyUnlocks host binding bindingId [target])
      (fun out u => out = (unlocked host w binding target,
          unlockRouteUpdates bindingId binding.unlockedAssets
            (appendNew binding.unlockedAssets [target]) [target]) ∧
        Running bindingId target records u) fun _ => False := by
    refine (Triple.of_exec (Q := fun updated u => updated = unlocked host w binding target ∧
      Running bindingId target records u) (exec_unlockAssets hstored)
      ⟨rfl, hrunning.nodup, hrunning.running⟩).bind fun _ => Triple.pure ?_
    rintro u ⟨rfl, hu⟩
    exact ⟨rfl, hu⟩
  refine hunlock.bind fun out => ?_
  refine Triple.conseq (P := fun u => Running bindingId target records u ∧ out = _) ?_
    (fun _ h => ⟨h.2, h.1⟩) (fun _ _ => id) (fun _ => id)
  refine Triple.of_and fun hout => ?_
  subst hout
  obtain ⟨before, hbefore, hids⟩ := startedIds_eq bindingId target binding.unlockedAssets
  simp only [hids]
  have hid : binding.bindingId = bindingId := bindingId_of_getByBinding hstored
  have hunlocked : (unlocked host w binding target).bindingId = bindingId := hid
  exact (startEach_running hfresh hunlocked hbefore).bind fun _ =>
    Triple.pure fun _ h => ⟨hunlocked, h⟩

/-! ### What is listed afterwards -/

variable {assetId configurationId : String}

/-- What is read after a swap. -/
theorem listedRunning_swapped (h : Swapped bindingId asset records w) (active : String) :
    ListedRunning w bindingId asset.assetId active ↔
      active ∈ (activeConfigurations (settingsAfterSwap asset records)).map Prod.fst := by
  obtain ⟨record, hactive, hrunning⟩ := h
  rw [listedRunning_running hrunning, settingsAfterSwap]
  cases records.tail with
  | nil => simp [hactive]
  | cons next others => simp

/-- **An attachment adds its configuration** to what its asset lists, and nothing else. -/
theorem listedRunning_attached (hnodup : (runtimeIds w).Nodup) {configuration : Settings}
    (h : Attached bindingId assetId configurationId configuration w t) (active : String) :
    ListedRunning t bindingId target active ↔ ListedRunning w bindingId target active ∨
      (assetId = target ∧ active = configurationId ∧
        (existingRunningRecord w bindingId assetId).isSome) := by
  cases h with
  | skipped hnone => simp [hnone]
  | @written record artifact hrecord =>
    by_cases hself : assetId = target
    · subst hself
      have hbefore : Lists bindingId assetId (activeConfigurations record.settings) w :=
        ⟨hnodup, record, hrecord, rfl⟩
      have hafter := lists_configured hnodup configurationId configuration artifact hrecord
      rw [listedRunning_iff hafter, listedRunning_iff hbefore, keys_set, mem_addNew]
      simp [hrecord]
    · have hbefore : Running bindingId target (runningRecords w bindingId target) w :=
        ⟨hnodup, rfl⟩
      obtain ⟨hmem, _, ha, _⟩ := existingRunningRecord_spec hrecord
      have hnot : ∀ settings, { record with settings }.runs bindingId target = false :=
        fun _ => Bool.eq_false_iff.mpr fun hruns => hself (ha.symm.trans (runs_iff.mp hruns).2.1)
      have hafter : Running bindingId target (runningRecords w bindingId target)
          (w.upsertRuntime (configuredRecord record configurationId configuration artifact)) := by
        refine running_upsert_other hbefore (hnot _) fun r hr hid => ?_
        obtain rfl := eq_of_runtimeId hnodup hr hmem hid
        exact hnot r.settings
      rw [listedRunning_running hafter, listedRunning_running hbefore]
      simp [hself]

/-- What a configure action with a runtime of its own goes through when it returns. -/
theorem exec_configureAction_swap {action : ControllerAction} {s : World}
    (hruntime : configurationTargetRuntime action.configuration = some runtimeOverride)
    (htarget : given action.targetAssetId = some target) (hfresh : host.Fresh)
    (hs : Running bindingId target records s) {progress : Progress}
    (happly : exec (configureAction host bindingId assetId configurationId action) s =
      (.ok progress, t))
    (hstarted : ∀ record ∈ progress.runtimeEvents, record.status ≠ .failed) :
    ∃ u, Succeeded host bindingId target records u ∧
      Attached bindingId assetId configurationId action.configuration u t := by
  cases hold : getByBinding s.bindings bindingId with
  | none =>
    have hraised := exec_reveal_unknown host hold assetId configurationId
    rw [reveal] at hraised
    simp [configureAction, exec_bind, hraised] at happly
  | some old =>
    obtain ⟨binding, hreveal, hstored, _⟩ := exec_callBinding host
      (BindingOp.target_revealConfigurations bindingId [(assetId, [configurationId])]) hold
    have hrevealed : Running bindingId target records
        { s with bindings := upsert binding s.bindings } := ⟨hs.nodup, hs.running⟩
    obtain ⟨revealed, u, hrun, hid, hsucceeded⟩ :=
      (revealTarget_swap runtimeOverride hfresh).returns ⟨hstored, hrevealed⟩
    simp only [configureAction, exec_bind, hreveal, hruntime, htarget, Option.isNone_some,
      Option.isSome_some, exec_attach_skipped, hrun, List.nil_append] at happly
    have hend : ∀ {configured : List AssetRuntimeRecord},
        progress.runtimeEvents = revealed.runtimeEvents ++ configured →
        Succeeded host bindingId target records u := by
      intro configured hevents
      refine hsucceeded fun record hrecord => hstarted record ?_
      rw [hevents]
      exact List.mem_append_left configured hrecord
    rcases exec_attach host assetId configurationId action.configuration hid u with
      ⟨hrecord, hattach⟩ | ⟨record, e, hrecord, hartifact, hattach⟩ |
      ⟨record, artifact, hrecord, hartifact, hattach⟩
    · simp only [hattach, exec_pure, Prod.mk.injEq, Except.ok.injEq] at happly
      obtain ⟨rfl, rfl⟩ := happly
      exact ⟨u, hend rfl, .skipped hrecord⟩
    · simp [hattach] at happly
    · simp only [hattach, exec_pure, Prod.mk.injEq, Except.ok.injEq] at happly
      obtain ⟨rfl, rfl⟩ := happly
      exact ⟨u, hend rfl, .written hrecord⟩

/-- **A swap in which nothing fails keeps what the target listed exactly when that does not depend
on the old record.** -/
theorem swap_retains_iff {s : World} (hfresh : host.Fresh) (hnodup : (runtimeIds s).Nodup)
    {action : ControllerAction} (htype : action.actionType = .configure)
    (hasset : given action.assetId = some assetId)
    (hconfiguration : given action.configurationId = some configurationId)
    (hruntime : configurationTargetRuntime action.configuration = some runtimeOverride)
    (htarget : given action.targetAssetId = some target) {binding : BindingRecord}
    {progress : Progress}
    (happly : exec (applyAction host bindingId binding action) s = (.ok progress, t))
    (hstarted : ∀ record ∈ progress.runtimeEvents, record.status ≠ .failed) :
    (∀ active, ListedRunning s bindingId target active →
      ListedRunning t bindingId target active) ↔
      RetainsActive host s bindingId assetId configurationId target := by
  rw [applyAction, htype, hasset, hconfiguration] at happly
  have hs : Running bindingId target (runningRecords s bindingId target) s := ⟨hnodup, rfl⟩
  obtain ⟨u, hsucceeded, hattached⟩ :=
    exec_configureAction_swap hruntime htarget hfresh hs happly hstarted
  cases hsucceeded with
  | absent hnone hu =>
    refine ⟨fun _ asset hfound => absurd (hnone.symm.trans hfound) (by simp), ?_⟩
    intro _ active hactive
    rw [listedRunning_running hs] at hactive
    rw [listedRunning_attached hu.nodup hattached, listedRunning_running hu]
    exact Or.inl hactive
  | @swapped asset hfound hswapped =>
    obtain ⟨_, rfl⟩ := assetById_spec hfound
    have hread := listedRunning_swapped hswapped
    obtain ⟨_, _, hu⟩ := hswapped
    -- the target runs, so its own configuration is attached
    have hruns : assetId = asset.assetId →
        (existingRunningRecord u bindingId assetId).isSome = true := by
      rintro rfl
      rw [existing_running hu]
      simp
    have hlisted : ∀ active, ListedRunning t bindingId asset.assetId active ↔
        active ∈ (activeConfigurations (settingsAfterSwap asset
            (runningRecords s bindingId asset.assetId))).map Prod.fst ∨
          (assetId = asset.assetId ∧ active = configurationId) := by
      intro active
      rw [listedRunning_attached hu.nodup hattached, hread]
      exact or_congr_right ⟨fun h => ⟨h.1, h.2.1⟩, fun h => ⟨h.1, h.2, hruns h.1⟩⟩
    simp only [RetainsActive, hfound, Option.some.injEq, forall_eq', hlisted]

end Forgotten

/-! ### A note on the repository -/

/-- The stores after a note has been attached to the running repository. -/
def notedWorld : World :=
  Call.run (quietHost gitCatalog) (unlockedWorld "git-internal")
    (.apply "u" [configureGit "note" none []])

/-- A configuration of the repository with a container of its own, on a machine where every
container starts. -/
def swapNoted (configurationId : String) : Except PyError Progress × World :=
  exec (applyAction (quietHost gitCatalog) "u" unlockedBinding
    (configureGit configurationId (some "git-internal") [("target_runtime", .dict deepRuntime)]))
    notedWorld

theorem swapNoted_eq (configurationId : String) : swapNoted configurationId =
    exec (applyAction (quietHost gitCatalog) "u" unlockedBinding (configureGit configurationId
      (some "git-internal") [("target_runtime", .dict deepRuntime)])) notedWorld := by
  rw [swapNoted]

theorem noted_reached : ReflTransGen Step {} notedWorld :=
  ((ReflTransGen.single bound_step).tail unlocked_step).tail ⟨_, _, quietHost_fresh gitCatalog, rfl⟩

theorem nodup_notedWorld : (runtimeIds notedWorld).Nodup := by decide +kernel

/-- The repository lists the note, and nothing else. -/
theorem listedRunning_noted {active : String} :
    ListedRunning notedWorld "u" "git-internal" active ↔ active = "note" := by
  have hlists : (existingRunningRecord notedWorld "u" "git-internal").map
      (fun record => (activeConfigurations record.settings).map Prod.fst) = some ["note"] := by
    decide +kernel
  obtain ⟨record, hrecord, hactive⟩ := Option.map_eq_some_iff.mp hlists
  have hnoted : Lists "u" "git-internal" (activeConfigurations record.settings) notedWorld :=
    ⟨nodup_notedWorld, record, hrecord, rfl⟩
  rw [listedRunning_iff hnoted, hactive, List.mem_singleton]

/-- A run that returned, with no record that failed. -/
theorem returned_unfailed (run : Except PyError Progress × World)
    (h : (run.1.toOption.map fun progress =>
      progress.runtimeEvents.all fun record => record.status != .failed) = some true) :
    ∃ progress, run = (.ok progress, run.2) ∧
      ∀ record ∈ progress.runtimeEvents, record.status ≠ .failed := by
  obtain ⟨result, t⟩ := run
  cases result with
  | error e => exact absurd h (by simp [Except.toOption])
  | ok progress =>
    refine ⟨progress, rfl, fun record hrecord => bne_iff_ne.mp ?_⟩
    exact List.all_eq_true.mp (Option.some.inj h) record hrecord

/-- The note is revealed once more, with a deeper repository, and is still listed. -/
theorem note_retained : ∃ progress, swapNoted "note" = (.ok progress, (swapNoted "note").2) ∧
    ListedRunning notedWorld "u" "git-internal" "note" ∧
    ListedRunning (swapNoted "note").2 "u" "git-internal" "note" := by
  obtain ⟨progress, hrun, hstarted⟩ := returned_unfailed (swapNoted "note")
    (by decide +kernel)
  have hnoted : ListedRunning notedWorld "u" "git-internal" "note" := listedRunning_noted.mpr rfl
  refine ⟨progress, hrun, hnoted, ?_⟩
  exact (swap_retains_iff (quietHost_fresh gitCatalog) nodup_notedWorld rfl rfl rfl rfl rfl
    ((swapNoted_eq "note").symm.trans hrun) hstarted).mpr
      (fun _ _ _ hactive => Or.inr ⟨rfl, listedRunning_noted.mp hactive⟩) "note" hnoted

/-- **A forgotten configuration**: the repository is swapped, and its note is no longer listed
although every container has started. -/
theorem forgotten_configuration : ¬ ∀ (host : Host) (s t : World)
    (bindingId assetId configurationId target : String) (action : ControllerAction)
    (runtimeOverride : Settings) (binding : BindingRecord) (progress : Progress), host.Fresh →
    ReflTransGen Step {} s → action.actionType = .configure →
    given action.assetId = some assetId → given action.configurationId = some configurationId →
    configurationTargetRuntime action.configuration = some runtimeOverride →
    given action.targetAssetId = some target →
    exec (applyAction host bindingId binding action) s = (.ok progress, t) →
    (∀ record ∈ progress.runtimeEvents, record.status ≠ .failed) →
    ∀ active, ListedRunning s bindingId target active →
      ListedRunning t bindingId target active := by
  intro h
  obtain ⟨progress, hrun, hstarted⟩ := returned_unfailed (swapNoted "deep")
    (by decide +kernel)
  obtain ⟨record, hrecord, hlisted⟩ := h (quietHost gitCatalog) notedWorld _ "u" "git-internal"
    "deep" "git-internal" _ _ unlockedBinding progress (quietHost_fresh gitCatalog) noted_reached
    rfl rfl rfl rfl rfl ((swapNoted_eq "deep").symm.trans hrun) hstarted "note"
    (listedRunning_noted.mpr rfl)
  have hlists : (existingRunningRecord (swapNoted "deep").2 "u" "git-internal").map
      (fun record => (activeConfigurations record.settings).map Prod.fst) = some ["deep"] := by
    decide +kernel
  rw [hrecord, Option.map_some, Option.some.injEq] at hlists
  rw [hlists] at hlisted
  exact absurd hlisted (by decide)

end Honeynet.Orchestrator
