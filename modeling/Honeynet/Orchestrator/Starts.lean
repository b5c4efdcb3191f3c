import Honeynet.Orchestrator.TemplateRuntime

/-!
# What starts, stops and configurations leave behind

Every start of an asset, by whichever runtime, ends in one of five ways.  The results on
reachability and on routes are read off these.

* `Started`: the five ways.
* `started_frame`: what survives each write of a start survives the start.
* `startAsset_spec`: a start ends in one of them, and does not raise.
* `stopBindingAssets_spec`: what every stop of a record keeps, stopping a binding keeps.
* `applyConfiguration_spec`: a configuration changes the settings of one record.
-/

namespace Honeynet.Orchestrator

open Collections Effect

/-- The flag of a warm standby, in settings. -/
def hiddenSetting (settings : Settings) : Bool := (settings.get "warm_standby_hidden").isTrue

/-- The record that runs has been stopped, where a start replaces it. -/
inductive Vacated (bindingId assetId : String) (replaces : Bool) (s : World) : World → Prop
  | kept {removals : List String} : Vacated bindingId assetId replaces s { s with removals }
  | stopped {old : AssetRuntimeRecord} {removals : List String} : replaces →
      existingRunningRecord s bindingId assetId = some old →
      Vacated bindingId assetId replaces s
        (World.upsertRuntime { s with removals } old.stop)

/-- The record that ran, if one did, is stopped. -/
def Displaced (bindingId assetId : String) (s w : World) : Prop :=
  ∀ old, existingRunningRecord s bindingId assetId = some old →
    ∃ removals, w = World.upsertRuntime { s with removals } old.stop

/-- **How a start ends**: with the running record as it is, with that record shown to the
attacker, with a new running record, or with a new failed one. -/
inductive Started (host : Host) (bindingId : String) (asset : AssetDefinition)
    (attacker : Option String) (warmStandby replaces : Bool) (s : World) : World → Prop
  | reused : Started host bindingId asset attacker warmStandby replaces s s
  | routed {record : AssetRuntimeRecord} {new : List GatewayRoute} :
      existingRunningRecord s bindingId asset.assetId = some record → record.hidden = false →
      RoutesOf attacker bindingId asset.assetId new →
      Started host bindingId asset attacker warmStandby replaces s (s.replaceRoutes new)
  | shown {record : AssetRuntimeRecord} {new : List GatewayRoute} :
      existingRunningRecord s bindingId asset.assetId = some record → attacker.isSome →
      RoutesOf attacker bindingId asset.assetId new →
      Started host bindingId asset attacker warmStandby replaces s
        ((s.replaceRoutes new).upsertRuntime
        { record with settings := record.settings.set "warm_standby_hidden" (.bool false) })
  | launched {w : World} {settings : Settings} {new : List GatewayRoute} :
      Vacated bindingId asset.assetId replaces s w → Displaced bindingId asset.assetId s w →
      hiddenSetting settings = (warmStandby || hiddenSetting asset.defaultSettings) →
      RoutesOf attacker bindingId asset.assetId new →
      Started host bindingId asset attacker warmStandby replaces s
        ((w.replaceRoutes new).upsertRuntime
        (runtimeRecordFromAsset host w bindingId asset .running settings))
  | failed {w : World} {settings : Settings} :
      Vacated bindingId asset.assetId replaces s w → hiddenSetting settings = warmStandby →
      Started host bindingId asset attacker warmStandby replaces s
        (w.upsertRuntime (runtimeRecordFromAsset host w bindingId asset .failed settings))

/-! ### What no start changes -/

theorem bindings_vacated {bindingId assetId : String} {replaces : Bool} {s w : World}
    (h : Vacated bindingId assetId replaces s w) : w.bindings = s.bindings := by
  cases h <;> rfl

/-- **What survives each write of a start survives the start**: routes of the asset, a record in
place of its running one, and a record under a new id. -/
theorem started_frame {I : World → Prop} {host : Host} {bindingId : String}
    {asset : AssetDefinition} {attacker : Option String} {warmStandby replaces : Bool}
    {s t : World} (hs : I s)
    (hlog : ∀ {w : World} {removals : List String}, I w → I { w with removals })
    (hroutes : ∀ {w : World} {new : List GatewayRoute},
      RoutesOf attacker bindingId asset.assetId new → I w → I (w.replaceRoutes new))
    (hown : ∀ {w : World} {old record : AssetRuntimeRecord},
      existingRunningRecord w bindingId asset.assetId = some old →
      record.runtimeId = old.runtimeId → record.assetId = old.assetId → I w →
      I (w.upsertRuntime record))
    (hnew : ∀ {w w' : World} {status : RuntimeStatus} {settings : Settings},
      w'.runtimes = w.runtimes → I w →
      I (w.upsertRuntime (runtimeRecordFromAsset host w' bindingId asset status settings)))
    (hstart : Started host bindingId asset attacker warmStandby replaces s t) : I t := by
  have hvacate : ∀ {w : World}, Vacated bindingId asset.assetId replaces s w → I w := by
    intro w hvacated
    cases hvacated with
    | kept => exact hlog hs
    | @stopped _ removals _ hold => exact hown (w := { s with removals }) hold rfl rfl (hlog hs)
  cases hstart with
  | reused => exact hs
  | routed _ _ hroute => exact hroutes hroute hs
  | @shown _ new hold _ hroute =>
    exact hown (w := s.replaceRoutes new) hold rfl rfl (hroutes hroute hs)
  | launched hvacated _ _ hroute => exact hnew rfl (hroutes hroute (hvacate hvacated))
  | failed hvacated _ => exact hnew rfl (hvacate hvacated)

/-- **A start does not touch the bindings.** -/
theorem bindings_started {host : Host} {bindingId : String} {asset : AssetDefinition}
    {attacker : Option String} {warmStandby replaces : Bool} {s t : World}
    (h : Started host bindingId asset attacker warmStandby replaces s t) :
    t.bindings = s.bindings :=
  started_frame (I := fun w => w.bindings = s.bindings) rfl id (fun _ => id) (fun _ _ _ => id)
    (fun _ => id) h

/-! ### The flag of a warm standby -/

theorem hiddenSetting_update {d e : Settings}
    (h : "warm_standby_hidden" ∉ e.map Prod.fst) :
    hiddenSetting (Dict.update d e) = hiddenSetting d := by
  rw [hiddenSetting, Settings.get, lookup_update_of_notMem h]; rfl

theorem hiddenSetting_standbyFlag (d : Settings) (warmStandby : Bool) :
    hiddenSetting (Dict.update d (standbyFlag warmStandby)) = (warmStandby || hiddenSetting d) := by
  cases warmStandby with
  | true =>
    rw [standbyFlag, if_pos rfl, hiddenSetting, Settings.get, Dict.update, List.foldl_cons,
      List.foldl_nil, lookup_set_self]
    rfl
  | false => rfl

theorem hiddenSetting_start {d e : Settings} (h : "warm_standby_hidden" ∉ e.map Prod.fst)
    (warmStandby : Bool) :
    hiddenSetting (Dict.update d (e ++ standbyFlag warmStandby)) =
      (warmStandby || hiddenSetting d) := by
  rw [update_append, hiddenSetting_standbyFlag, hiddenSetting_update h]

/-! ### The running record -/

theorem existingRunningRecord_spec {w : World} {bindingId assetId : String}
    {record : AssetRuntimeRecord} (h : existingRunningRecord w bindingId assetId = some record) :
    record ∈ w.runtimes ∧ record.bindingId = bindingId ∧ record.assetId = assetId ∧
      record.status = .running := by
  have hmem := List.mem_of_find?_eq_some h
  have hfound := List.find?_some h
  obtain ⟨hmem, hbinding⟩ := List.mem_filter.mp hmem
  obtain ⟨hasset, hstatus⟩ := Bool.and_eq_true_iff.mp hfound
  exact ⟨hmem, beq_iff_eq.mp hbinding, beq_iff_eq.mp hasset, beq_iff_eq.mp hstatus⟩

section Spec

variable {host : Host} {bindingId : String} {asset : AssetDefinition}
  {attackerKey : Option String} {warmStandby replaces : Bool} {s : World}

/-! ### Attaching -/

theorem attach_spec {record : AssetRuntimeRecord} {E : World → Prop}
    (hrecord : existingRunningRecord s bindingId asset.assetId = some record) :
    Triple (· = s) (attachGatewayRouteForExistingRecord host record asset attackerKey)
      (fun _ => Started host bindingId asset (given attackerKey) warmStandby replaces s) E := by
  obtain ⟨_, hbinding, _, _⟩ := existingRunningRecord_spec hrecord
  rw [attachGatewayRouteForExistingRecord]
  split
  · rename_i key hkey _
    refine (upsertAssetGatewayRoutes_spec host record.bindingId key asset record.settings s).bind
      fun _ => Triple.ite ?_ ?_
    · intro _
      refine upsertRuntime_spec ?_
      rintro _ ⟨new, hnew, rfl⟩
      exact .shown hrecord (by rw [hkey]; rfl) (by rw [hkey]; exact hbinding ▸ hnew)
    · intro hhidden
      refine Triple.pure ?_
      rintro _ ⟨new, hnew, rfl⟩
      exact .routed hrecord (Bool.eq_false_iff.mpr hhidden) (by rw [hkey]; exact hbinding ▸ hnew)
  · refine Triple.pure ?_
    rintro _ rfl
    exact .reused

/-! ### Stopping and recording -/

theorem routeTo_spec {managed : Bool} {settings : Settings} {P : World → Prop}
    {E : World → Prop} (hP : ∀ w, P w → w = s) :
    Triple P (routeTo host bindingId asset attackerKey managed settings)
      (fun _ t => ∃ new, RoutesOf (given attackerKey) bindingId asset.assetId new ∧
        t = s.replaceRoutes new) E := by
  have hnone : ∀ w, P w → ∃ new, RoutesOf (given attackerKey) bindingId asset.assetId new ∧
      w = s.replaceRoutes new :=
    fun w hw => ⟨[], routesOf_nil _ _ _, by rw [replaceRoutes_nil, hP w hw]⟩
  cases hkey : given attackerKey with
  | none =>
    simp only [routeTo, hkey]
    exact Triple.pure (hkey ▸ hnone)
  | some key =>
    cases managed with
    | false =>
      simp only [routeTo, hkey]
      exact Triple.pure (hkey ▸ hnone)
    | true =>
      simp only [routeTo, hkey]
      exact (upsertAssetGatewayRoutes_spec host bindingId key asset settings s).pre hP

theorem recordStarted_spec {settings : Settings} {managed : Bool} {E : World → Prop}
    (hkey : "warm_standby_hidden" ∉ settings.map Prod.fst) :
    Triple (fun w => Vacated bindingId asset.assetId replaces s w ∧
        Displaced bindingId asset.assetId s w)
      (recordStarted host bindingId asset settings managed attackerKey warmStandby)
      (fun _ => Started host bindingId asset (given attackerKey) warmStandby replaces s) E := by
  refine Triple.get_bind fun w hw => ?_
  refine (routeTo_spec fun _ h => h).bind fun _ => upsertRuntime_spec ?_
  rintro _ ⟨new, hnew, rfl⟩
  exact .launched hw.1 hw.2 (hiddenSetting_start hkey warmStandby) hnew

theorem displaced_of_none {assetId : String} {w : World}
    (h : existingRunningRecord s bindingId assetId = none) : Displaced bindingId assetId s w :=
  fun old hold => absurd (h.symm.trans hold) (by simp)

theorem stopExisting_spec {stop : AssetRuntimeRecord → Orchestrate AssetRuntimeRecord}
    {E : World → Prop}
    (hreplaces : replaces = false → existingRunningRecord s bindingId asset.assetId = none)
    (hstop : ∀ record, Triple (· = s) (stop record)
      (fun _ t => ∃ removals, t = World.upsertRuntime { s with removals } record.stop) E) :
    Triple (· = s) (stopExisting stop (existingRunningRecord s bindingId asset.assetId))
      (fun _ w => Vacated bindingId asset.assetId replaces s w ∧
        Displaced bindingId asset.assetId s w) E := by
  cases hexisting : existingRunningRecord s bindingId asset.assetId with
  | none =>
    refine Triple.pure ?_
    rintro _ rfl
    exact ⟨.kept, displaced_of_none hexisting⟩
  | some existing =>
    refine (hstop existing).bind fun _ => Triple.pure ?_
    rintro _ ⟨removals, rfl⟩
    refine ⟨.stopped ?_ hexisting, fun old hold => ?_⟩
    · by_contra hreuses
      rw [hreplaces (Bool.eq_false_iff.mpr hreuses)] at hexisting
      exact absurd hexisting (by simp)
    · obtain rfl := Option.some.inj (hexisting.symm.trans hold)
      exact ⟨removals, rfl⟩

/-- More removals are no change to the stores. -/
theorem vacated_log {assetId : String} {w : World} (h : Vacated bindingId assetId replaces s w)
    {removals : List String} : Vacated bindingId assetId replaces s { w with removals } := by
  cases h with
  | kept => exact .kept
  | @stopped old _ hreplaces hexisting =>
    have hstopped : Vacated bindingId assetId replaces s
        (World.upsertRuntime { s with removals } old.stop) := .stopped hreplaces hexisting
    exact hstopped

theorem displaced_log {assetId : String} {w : World} (h : Displaced bindingId assetId s w)
    {removals : List String} : Displaced bindingId assetId s { w with removals } := by
  intro old hold
  obtain ⟨_, rfl⟩ := h old hold
  exact ⟨removals, rfl⟩

theorem failedStart_spec {backend : String} {e : PyError} {E : World → Prop} :
    Triple (Vacated bindingId asset.assetId replaces s)
      (failedStart host backend bindingId asset warmStandby e)
      (fun _ => Started host bindingId asset (given attackerKey) warmStandby replaces s) E := by
  refine Triple.get_bind fun w hw => upsertRuntime_spec ?_
  rintro _ rfl
  refine .failed hw ?_
  rw [hiddenSetting, Settings.get, Dict.update, List.foldl_cons, List.foldl_cons, List.foldl_cons,
    List.foldl_nil, lookup_set_self]
  cases warmStandby <;> rfl

/-! ### The mock runtime -/

/-- Without a runtime of its own, a start that reuses nothing found nothing running. -/
theorem none_of_not_reused {existing : Option AssetRuntimeRecord}
    {runtimeOverride : Option Settings}
    (h : ∀ record, existing = some record → runtimeOverride = none → False) :
    runtimeOverride.isSome = false → existing = none := by
  intro hoverride
  rw [Option.isSome_eq_false_iff, Option.isNone_iff_eq_none] at hoverride
  exact Option.eq_none_iff_forall_ne_some.mpr fun record hrecord => h record hrecord hoverride

theorem mockStartAsset_spec {runtimeOverride : Option Settings} {E : World → Prop} :
    Triple (· = s) (mockStartAsset host bindingId asset warmStandby runtimeOverride)
      (fun _ => Started host bindingId asset (given attackerKey) warmStandby
        runtimeOverride.isSome s) E := by
  refine Triple.get_bind ?_
  rintro w rfl
  have hkey : "warm_standby_hidden" ∉ (configuredRuntime host runtimeOverride).map Prod.fst := by
    cases runtimeOverride <;> simp [configuredRuntime]
  have hstop : ∀ record : AssetRuntimeRecord, Triple (· = w) (upsertRuntime record.stop)
      (fun _ t => ∃ removals, t = World.upsertRuntime { w with removals } record.stop) E :=
    fun record => upsertRuntime_spec fun _ h => ⟨w.removals, by rw [h]⟩
  split
  · refine Triple.pure ?_
    rintro _ rfl
    exact .reused
  · rename_i hreuses
    have hreplaces := none_of_not_reused hreuses
    refine (stopExisting_spec hreplaces hstop).bind fun _ => Triple.get_bind fun w' hw' => ?_
    refine upsertRuntime_spec ?_
    rintro _ rfl
    have hlaunched : Started host bindingId asset (given attackerKey) warmStandby _ w _ :=
      .launched hw'.1 hw'.2 (hiddenSetting_start hkey warmStandby) (routesOf_nil _ _ _)
    rw [replaceRoutes_nil] at hlaunched
    exact hlaunched

/-! ### The Docker runtime -/

theorem removeContainers_spec {P : World → Prop} (hlog : ∀ w name, P w → P (w.logRemoval name))
    (names : List String) :
    Triple P (removeContainers host names) (fun _ => P) P := by
  induction names with
  | nil => exact Triple.pure fun _ h => h
  | cons name names ih =>
    refine (Triple.modify (Q := fun _ => P) fun w hw => hlog w name hw).bind fun _ =>
      Triple.get_bind fun w hw => ?_
    refine ((raise?_spec (P := P) _).pre ?_).bind fun _ => ih
    rintro _ rfl
    exact hw

/-- Removing containers changes no store. -/
theorem removeContainers_stores (names : List String) :
    Triple (fun t => ∃ removals, t = { s with removals }) (removeContainers host names)
      (fun _ t => ∃ removals, t = { s with removals })
      fun t => ∃ removals, t = { s with removals } :=
  removeContainers_spec (fun _ _ h => by obtain ⟨removals, rfl⟩ := h; exact ⟨_, rfl⟩) names

theorem stopRuntimeRecord_spec (record : AssetRuntimeRecord) :
    Triple (· = s) (stopRuntimeRecord host record)
      (fun _ t => ∃ removals, t = World.upsertRuntime { s with removals } record.stop)
      fun t => ∃ removals, t = { s with removals } := by
  have hstart : ∀ t, t = s → ∃ removals, t = { s with removals } := by
    rintro _ rfl
    exact ⟨_, rfl⟩
  refine ((removeContainers_stores _).pre hstart).bind fun _ => upsertRuntime_spec ?_
  rintro _ ⟨removals, rfl⟩
  exact ⟨removals, rfl⟩

/-- The settings that a container start writes over those of the asset. -/
def containerKeys : List String :=
  ["runtime_backend", "container_name", "image", "host", "host_port", "container_port",
    "port_mappings", "asset_gateway_managed", "backend_host", "backend_port", "public_port",
    "configured_runtime", "sidecar_containers", "backend_ip"]

theorem keys_dockerSettings {w : World} {runtime settings : Settings} {name image : String}
    {managed : Bool}
    (h : dockerSettings host w asset runtime name image managed = .ok settings) :
    settings.map Prod.fst ⊆ containerKeys := by
  obtain ⟨ports, _, hsettings⟩ := Fallible.bind_eq_ok.mp h
  obtain rfl := Except.ok.inj hsettings
  cases ports with
  | nil => simp [portSettings, containerKeys]
  | cons first ports => cases managed <;> simp [portSettings, containerKeys]

theorem hidden_notMem_backendIp (ip : Option String) :
    "warm_standby_hidden" ∉ (backendIpSetting ip).map Prod.fst := by
  cases ip <;> simp [backendIpSetting]

/-- No other setting is touched by the start. -/
theorem notMem_containerSettings {w : World} {runtime settings : Settings} {name image : String}
    {managed : Bool} (h : dockerSettings host w asset runtime name image managed = .ok settings)
    (runtimeOverride : Option Settings) (sidecars : Value) (ip : Option String) {key : String}
    (hkey : key ∉ containerKeys) :
    key ∉ (settings ++ configuredFlag runtimeOverride ++ [("sidecar_containers", sidecars)] ++
      backendIpSetting ip).map Prod.fst := by
  have hflag : (configuredFlag runtimeOverride).map Prod.fst ⊆ containerKeys := by
    cases runtimeOverride <;> simp [configuredFlag, containerKeys]
  have hip : (backendIpSetting ip).map Prod.fst ⊆ containerKeys := by
    cases ip <;> simp [backendIpSetting, containerKeys]
  rw [List.map_append, List.map_append, List.map_append, List.mem_append, List.mem_append,
    List.mem_append]
  rintro (((hmem | hmem) | hmem) | hmem)
  · exact hkey (keys_dockerSettings h hmem)
  · exact hkey (hflag hmem)
  · rw [List.map_singleton, List.mem_singleton] at hmem
    exact hkey (by simp [hmem, containerKeys])
  · exact hkey (hip hmem)

theorem launchContainer_spec {runtimeOverride : Option Settings}
    (hreplaces : runtimeOverride.isSome = false →
      existingRunningRecord s bindingId asset.assetId = none) :
    Triple (· = s) (launchContainer host bindingId asset attackerKey warmStandby
        (existingRunningRecord s bindingId asset.assetId) runtimeOverride)
      (fun _ => Started host bindingId asset (given attackerKey) warmStandby
        runtimeOverride.isSome s)
      (Vacated bindingId asset.assetId runtimeOverride.isSome s) := by
  have hlogged : ∀ t, (∃ removals, t = { s with removals }) →
      Vacated bindingId asset.assetId runtimeOverride.isSome s t := by
    rintro _ ⟨removals, rfl⟩
    exact .kept
  have hkept : ∀ t, t = s → Vacated bindingId asset.assetId runtimeOverride.isSome s t :=
    fun t ht => hlogged t ⟨s.removals, ht⟩
  refine Triple.get_bind ?_
  rintro w rfl
  -- until the record is stopped a failure leaves everything as it was
  refine ((raise?_spec _).conseq (fun _ => id) (fun _ _ => id) hkept).bind fun _ => ?_
  refine ((raise?_spec _).conseq (fun _ => id) (fun _ _ => id) hkept).bind fun _ => ?_
  refine ((answer_spec _).conseq (fun _ => id) (fun _ _ h => h.1) hkept).bind fun runtime => ?_
  refine ((answer_spec _).conseq (fun _ => id) (fun _ _ h => h.1) hkept).bind fun image => ?_
  refine ((stopExisting_spec hreplaces stopRuntimeRecord_spec).conseq (fun _ => id) (fun _ _ => id)
    hlogged).bind fun _ => ?_
  -- from there on the record is stopped, whether the new one is recorded or not
  refine (Triple.modify (Q := fun _ t => Vacated bindingId asset.assetId runtimeOverride.isSome w t ∧
    Displaced bindingId asset.assetId w t)
    fun _ ht => ⟨vacated_log ht.1, displaced_log ht.2⟩).bind fun _ => Triple.conseq
      (E := fun t => Vacated bindingId asset.assetId runtimeOverride.isSome w t ∧
        Displaced bindingId asset.assetId w t) ?_ (fun _ => id) (fun _ _ => id) fun _ => And.left
  refine (raise?_spec _).bind fun _ => ?_
  refine (answer_spec _).bind fun settings => Triple.of_and fun hsettings => ?_
  refine (raise?_spec _).bind fun _ => ?_
  refine (raise?_spec _).bind fun _ => ?_
  refine (answer_spec _).bind fun sidecars => Triple.of_and fun _ => ?_
  refine (answer_spec _).bind fun ip => Triple.of_and fun _ => ?_
  exact recordStarted_spec (notMem_containerSettings hsettings _ _ _ (by decide))

theorem dockerStartAsset_spec {runtimeOverride : Option Settings} :
    Triple (· = s) (dockerStartAsset host bindingId asset attackerKey warmStandby runtimeOverride)
      (fun _ => Started host bindingId asset (given attackerKey) warmStandby
        runtimeOverride.isSome s)
      (Vacated bindingId asset.assetId runtimeOverride.isSome s) := by
  refine Triple.get_bind ?_
  rintro w rfl
  split
  · rename_i existing hexisting
    exact attach_spec hexisting
  · rename_i hreuses
    exact launchContainer_spec (none_of_not_reused hreuses)

/-! ### The compose runtime -/

theorem hidden_notMem_targetSettings (target : String) (ports : List Settings) :
    "warm_standby_hidden" ∉ (targetSettings target ports).map Prod.fst := by
  cases ports <;> simp [targetSettings]

theorem launchProject_spec (hnone : existingRunningRecord s bindingId asset.assetId = none) :
    Triple (· = s) (launchProject host bindingId asset attackerKey warmStandby)
      (fun _ => Started host bindingId asset (given attackerKey) warmStandby replaces s)
      (· = s) := by
  refine Triple.get_bind ?_
  rintro w rfl
  refine (raise?_spec _).bind fun _ => ?_
  refine (raise?_spec _).bind fun _ => ?_
  refine (answer_spec _).bind fun runtime => Triple.of_and fun _ => ?_
  refine (answer_spec _).bind fun composeFile => Triple.of_and fun _ => ?_
  refine (answer_spec _).bind fun composeProject => Triple.of_and fun _ => ?_
  refine (raise?_spec _).bind fun _ => ?_
  refine (answer_spec _).bind fun containerIds => Triple.of_and fun _ => ?_
  refine (answer_spec _).bind fun internalNetwork => Triple.of_and fun _ => ?_
  refine (raise?_spec _).bind fun _ => ?_
  refine (answer_spec _).bind fun statuses => Triple.of_and fun _ => ?_
  refine (raise?_spec _).bind fun _ => ?_
  refine (answer_spec _).bind fun target => Triple.of_and fun _ => ?_
  refine (answer_spec _).bind fun ports => Triple.of_and fun _ => ?_
  refine (answer_spec _).bind fun ip => Triple.of_and fun _ => ?_
  refine (recordStarted_spec ?_).pre ?_
  · rw [List.map_append, List.map_append, List.mem_append, List.mem_append]
    rintro ((hkey | hkey) | hkey)
    · simp [projectSettings] at hkey
    · exact hidden_notMem_targetSettings target ports hkey
    · exact hidden_notMem_backendIp ip hkey
  · rintro _ rfl
    exact ⟨.kept, displaced_of_none hnone⟩

theorem composeStartAsset_spec :
    Triple (· = s) (composeStartAsset host bindingId asset attackerKey warmStandby)
      (fun _ => Started host bindingId asset (given attackerKey) warmStandby replaces s)
      (Vacated bindingId asset.assetId replaces s) := by
  refine Triple.get_bind ?_
  rintro w rfl
  split
  · rename_i existing hexisting
    exact attach_spec hexisting
  · rename_i hnone
    refine (launchProject_spec hnone).conseq (fun _ => id) (fun _ _ => id) ?_
    rintro _ rfl
    exact .kept

/-! ### The hybrid runtime -/

/-- **Whatever the runtimes answer, a start ends in one of the five ways, and it returns.** -/
theorem startAsset_spec {runtimeOverride : Option Settings} :
    Triple (· = s) (startAsset host bindingId asset attackerKey warmStandby runtimeOverride)
      (fun _ => Started host bindingId asset (given attackerKey) warmStandby
        runtimeOverride.isSome s)
      (fun _ => False) := by
  refine Triple.ite (fun _ => ?_) fun _ => Triple.ite (fun _ => ?_) fun _ => ?_
  · exact composeStartAsset_spec.tryCatch fun e => failedStart_spec
  · exact dockerStartAsset_spec.tryCatch fun e => failedStart_spec
  · exact mockStartAsset_spec

/-! ### Stopping a binding -/

theorem stopEach_spec {I : World → Prop} {mine : AssetRuntimeRecord → Bool}
    {stop : AssetRuntimeRecord → Orchestrate AssetRuntimeRecord}
    {records : List AssetRuntimeRecord}
    (hstop : ∀ record ∈ records, record.status = .running →
      Triple I (stop record) (fun _ => I) I) :
    Triple I (stopEach mine stop records) (fun _ => I) I := by
  induction records with
  | nil => exact Triple.pure fun _ h => h
  | cons record records ih =>
    have hrest := ih fun r hr => hstop r (List.mem_cons_of_mem record hr)
    refine Triple.ite (fun hrunning => ?_) fun _ => hrest
    have hstatus : record.status = .running :=
      beq_iff_eq.mp (Bool.and_eq_true_iff.mp hrunning).1
    exact (hstop record List.mem_cons_self hstatus).bind fun _ =>
      hrest.bind fun _ => Triple.pure fun _ h => h

theorem stopRuntimeRecord_keeps {I : World → Prop} {record : AssetRuntimeRecord}
    (hlog : ∀ w name, I w → I (w.logRemoval name))
    (h : ∀ w, I w → I (w.upsertRuntime record.stop)) :
    Triple I (stopRuntimeRecord host record) (fun _ => I) I :=
  (removeContainers_spec hlog _).bind fun _ => upsertRuntime_spec h

theorem composeStop_keeps {I : World → Prop} {record : AssetRuntimeRecord}
    (h : ∀ w, I w → I (w.upsertRuntime record.stop)) :
    Triple I (composeStop host record) (fun _ => I) I := by
  refine Triple.get_bind fun w hw => ?_
  refine ((raise?_spec _).conseq (fun _ => id) (fun _ _ => id) ?_).bind fun _ =>
    upsertRuntime_spec ?_
  · rintro _ rfl
    exact hw
  · rintro _ rfl
    exact h _ hw

/-- **What is kept when a running record of the binding is stopped is kept when all are.** -/
theorem stopBindingAssets_spec {I : World → Prop} {C : AssetRuntimeRecord → Prop}
    (hC : ∀ w, I w → ∀ record ∈ w.listByBinding bindingId, record.status = .running → C record)
    (hlog : ∀ w name, I w → I (w.logRemoval name))
    (hI : ∀ w record, I w → C record → I (w.upsertRuntime record.stop)) :
    Triple I (stopBindingAssets host bindingId) (fun _ => I) I := by
  have hloop : ∀ {mine : AssetRuntimeRecord → Bool}
      {stop : AssetRuntimeRecord → Orchestrate AssetRuntimeRecord},
      (∀ record, C record → Triple I (stop record) (fun _ => I) I) → ∀ w, I w →
        Triple (· = w) (stopEach mine stop (w.listByBinding bindingId)) (fun _ => I) I := by
    intro mine stop hstop w hw
    refine (stopEach_spec fun record hrecord hrunning =>
      hstop record (hC w hw record hrecord hrunning)).pre ?_
    rintro _ rfl
    exact hw
  have hcompose : Triple I (composeStopBindingAssets host bindingId) (fun _ => I) I :=
    Triple.get_bind (hloop fun record hrecord =>
      composeStop_keeps fun w hw => hI w record hw hrecord)
  have hdocker : Triple I (dockerStopBindingAssets host bindingId) (fun _ => I) I :=
    Triple.get_bind (hloop fun record hrecord =>
      stopRuntimeRecord_keeps hlog fun w hw => hI w record hw hrecord)
  have hmock : Triple I (mockStopBindingAssets bindingId) (fun _ => I) I :=
    Triple.get_bind (hloop fun record hrecord =>
      upsertRuntime_spec fun w hw => hI w record hw hrecord)
  exact hcompose.bind fun _ => hdocker.bind fun _ => hmock.bind fun _ => Triple.pure fun _ h => h

/-! ### Configurations -/

/-- The running record has new settings, and is hidden if it was. -/
inductive Configured (bindingId assetId : String) (s : World) : World → Prop
  | none : Configured bindingId assetId s s
  | updated {record : AssetRuntimeRecord} {settings : Settings} :
      existingRunningRecord s bindingId assetId = some record →
      hiddenSetting settings = hiddenSetting record.settings →
      Configured bindingId assetId s (s.upsertRuntime { record with settings })

theorem hiddenSetting_set {d : Settings} {key : String} {value : Value}
    (h : "warm_standby_hidden" ≠ key) :
    hiddenSetting (Dict.set d key value) = hiddenSetting d := by
  rw [hiddenSetting, Settings.get, lookup_set_ne d h]; rfl

theorem hiddenSetting_configuredSettings (settings : Settings) (configurationId : String)
    (configuration artifact : Settings) :
    hiddenSetting (configuredSettings settings configurationId configuration artifact) =
      hiddenSetting settings := by
  have hlast : ∀ (active : Value) (artifacts : Settings), hiddenSetting
      (if artifacts.isEmpty then Dict.set settings "active_configurations" active
        else Dict.set (Dict.set settings "active_configurations" active)
          "configuration_artifacts" (.dict artifacts)) = hiddenSetting settings := by
    intro active artifacts
    have hactive : hiddenSetting (Dict.set settings "active_configurations" active) =
        hiddenSetting settings := hiddenSetting_set (by decide)
    split
    · exact hactive
    · rw [hiddenSetting_set (by decide), hactive]
  exact hlast _ _

theorem applyConfiguration_spec {assetId configurationId : String} {configuration : Settings} :
    Triple (· = s) (applyConfiguration host bindingId assetId configurationId configuration)
      (fun _ => Configured bindingId assetId s) (· = s) := by
  refine Triple.get_bind ?_
  rintro w rfl
  split
  · refine Triple.pure ?_
    rintro _ rfl
    exact .none
  · rename_i record hrecord
    refine (answer_spec _).bind fun artifact => Triple.of_and fun _ => ?_
    refine (upsertRuntime_spec (Q := fun _ => Configured bindingId assetId w) ?_).bind
      fun _ => Triple.pure fun _ h => h
    rintro _ rfl
    exact .updated hrecord (hiddenSetting_configuredSettings _ _ _ _)

end Spec

end Honeynet.Orchestrator
