import Honeynet.Orchestrator.Configurations

/-!
# Starts in which nothing fails

A start whose steps all succeed leaves one running record and its routes.  What it records is the
same for every attacker, and for a warm standby.

* `Launch`, `launchOf`: what a start that succeeds adds to the settings of its asset.
* `launched`, `attached`: the stores after a start, and after one that meets a running record.
* `exec_startAsset`: **a start that succeeds returns, and leaves these.**
* `exec_prewarm`: what a prewarm of one asset leaves.
-/

namespace Honeynet.Orchestrator

open Collections Binding Effect

/-! ### What is recorded -/

/-- What a start records: settings beside those of the asset, and whether the gateway routes it. -/
structure Launch where
  settings : Settings
  managed : Bool
  removals : List String := []

/-- What docker answers to a start, and the ports it gives, do not depend on the stores. -/
structure Steady (host : Host) : Prop where
  docker : ∀ w w' : World, host.docker w = host.docker w'
  compose : ∀ w w' : World, host.compose w = host.compose w'
  freePort : ∀ w w' : World, host.freePort w = host.freePort w'

section Launch

variable (host : Host) (w : World) (bindingId : String) (asset : AssetDefinition)

/-- A container start of which no step raises. -/
def containerLaunch : Option Launch := do
  let answers := host.docker w asset
  let runtime ← (dockerRuntime host asset none).toOption
  let image ← (dockerImage asset runtime).toOption
  let managed := assetGatewayManaged host asset runtime
  let settings ← (dockerSettings host w asset runtime (containerName bindingId asset.assetId) image
    managed).toOption
  let sidecars ← answers.sidecars.toOption
  let ip ← (if managed then answers.networkIp else .ok none).toOption
  if answers.cli && dockerSupports asset && (answers.command.or
      (answers.startError.or answers.verify)).isNone then
    return {
      settings := settings ++ configuredFlag none ++
        [("sidecar_containers", .list (sidecars.map .str))] ++ backendIpSetting ip
      managed
      removals := answers.removals }
  else none

/-- A project start of which no step raises. -/
def projectLaunch : Option Launch := do
  let answers := host.compose w asset
  let runtime ← (host.dict (assetRuntime asset)).toOption
  let composeFile ← answers.composeFile.toOption
  let composeProject ← answers.projectName.toOption
  let containerIds ← answers.containerIds.toOption
  let internalNetwork ← answers.internalNetwork.toOption
  let statuses ← answers.statuses.toOption
  let target ← answers.targetContainer.toOption
  let ports ← (if target = "" then .ok []
    else resolvePortMappings host w runtime asset.assetId true target).toOption
  let ip ← (if ports.isEmpty then .ok none else answers.networkIp).toOption
  if answers.cli && composeSupports asset && allUp statuses && (answers.up.or
      (if containerIds ≠ [] ∧ internalNetwork ≠ "" then answers.connect else none)).isNone then
    return {
      settings := projectSettings runtime composeFile composeProject internalNetwork containerIds
        statuses ++ targetSettings target ports ++ backendIpSetting ip
      managed := !ports.isEmpty }
  else none

/-- The asset is started by docker or by compose. -/
def hasBackend : Bool := composeSupports asset || dockerSupports asset

/-- A start of the asset of which no step raises; a mock adds nothing to its settings. -/
def launchOf : Option Launch :=
  if composeSupports asset then projectLaunch host w asset
  else if dockerSupports asset then containerLaunch host w bindingId asset
  else some { settings := [], managed := false }

/-- The record of a start. -/
def startedRecord (launch : Launch) (warmStandby : Bool) : AssetRuntimeRecord :=
  runtimeRecordFromAsset host w bindingId asset .running
    (Dict.update asset.defaultSettings (launch.settings ++ standbyFlag warmStandby))

/-- The routes that are persisted for an attacker. -/
def routesFor (attackerKey : Option String) (managed : Bool) (settings : Settings) :
    List GatewayRoute :=
  if managed then
    (given attackerKey).elim [] fun key => gatewayRoutes host w bindingId key asset settings
  else []

/-- Containers are removed. -/
def World.logRemovals (w : World) (names : List String) : World :=
  { w with removals := w.removals ++ names }

/-- The stores after a start that found nothing running. -/
def launched (launch : Launch) (attackerKey : Option String) (warmStandby : Bool) : World :=
  let w := w.logRemovals launch.removals
  (w.replaceRoutes (routesFor host w bindingId asset attackerKey launch.managed
    (launch.settings ++ standbyFlag warmStandby))).upsertRuntime
      (startedRecord host w bindingId asset launch warmStandby)

/-- The record goes through the asset gateway. -/
def AssetRuntimeRecord.managed (record : AssetRuntimeRecord) : Bool :=
  (record.settings.get "asset_gateway_managed").isTrue

/-- A record that is no longer hidden. -/
def AssetRuntimeRecord.shown (record : AssetRuntimeRecord) : AssetRuntimeRecord :=
  { record with settings := record.settings.set "warm_standby_hidden" (.bool false) }

/-- The stores after a start that met a running record. -/
def attached (record : AssetRuntimeRecord) (attackerKey : Option String) : World :=
  let w' := w.replaceRoutes
    (routesFor host w record.bindingId asset attackerKey record.managed record.settings)
  if (given attackerKey).isSome && record.managed && record.hidden then
    w'.upsertRuntime record.shown
  else w'

end Launch

/-! ### The starts -/

section Exec

variable {host : Host} {w : World} {bindingId : String} {asset : AssetDefinition}
  {attackerKey : Option String} {warmStandby : Bool} {launch : Launch}

theorem toOption_eq_some {α : Type} {x : Except PyError α} {a : α} :
    x.toOption = some a ↔ x = .ok a := by
  cases x <;> simp [Except.toOption]

@[simp] theorem exec_answer_ok {α : Type} (a : α) (w : World) :
    exec (answer (.ok a)) w = (.ok a, w) := rfl

@[simp] theorem exec_raise?_none (w : World) : exec (raise? none) w = (.ok ⟨⟩, w) := rfl

@[simp] theorem exec_upsertRuntime (record : AssetRuntimeRecord) (w : World) :
    exec (upsertRuntime record) w = (.ok record, w.upsertRuntime record) := rfl

theorem exec_upsertAssetGatewayRoutes (key : String) (settings : Settings) :
    exec (upsertAssetGatewayRoutes host bindingId key asset settings) w =
      (.ok ⟨⟩, w.replaceRoutes (gatewayRoutes host w bindingId key asset settings)) := by
  rw [upsertAssetGatewayRoutes, exec_bind, exec_get]
  by_cases hnone : gatewayRoutes host w bindingId key asset settings = []
  · simp only [hnone, if_true, replaceRoutes_nil]
    rfl
  · simp only [if_neg hnone]
    rfl

theorem exec_routeTo (managed : Bool) (settings : Settings) :
    exec (routeTo host bindingId asset attackerKey managed settings) w =
      (.ok ⟨⟩, w.replaceRoutes
        (routesFor host w bindingId asset attackerKey managed settings)) := by
  cases managed with
  | false => simp [routeTo, routesFor]
  | true =>
    cases hkey : given attackerKey with
    | none => simp [routeTo, routesFor, hkey]
    | some key => simp [routeTo, routesFor, hkey, exec_upsertAssetGatewayRoutes]

theorem exec_recordStarted (managed : Bool) (settings : Settings) :
    exec (recordStarted host bindingId asset settings managed attackerKey warmStandby) w =
      (.ok (startedRecord host w bindingId asset ⟨settings, managed, []⟩ warmStandby),
        (w.replaceRoutes (routesFor host w bindingId asset attackerKey managed
          (settings ++ standbyFlag warmStandby))).upsertRuntime
            (startedRecord host w bindingId asset ⟨settings, managed, []⟩ warmStandby)) := by
  rw [recordStarted, exec_bind, exec_get]
  simp only [exec_bind, exec_routeTo, exec_upsertRuntime]
  rfl

variable (host w asset attackerKey) in
theorem exec_attachExisting (record : AssetRuntimeRecord) :
    ∃ r, exec (attachGatewayRouteForExistingRecord host record asset attackerKey) w =
      (.ok r, attached host w asset record attackerKey) := by
  cases hmanaged : (record.settings.get "asset_gateway_managed").isTrue with
  | false =>
    exact ⟨record, by simp [attachGatewayRouteForExistingRecord, attached, routesFor,
      AssetRuntimeRecord.managed, hmanaged]⟩
  | true =>
    cases hkey : given attackerKey with
    | none =>
      exact ⟨record, by simp [attachGatewayRouteForExistingRecord, attached, routesFor, hkey]⟩
    | some key =>
      simp only [attachGatewayRouteForExistingRecord, attached, routesFor,
        AssetRuntimeRecord.managed, hmanaged, hkey, exec_bind, exec_upsertAssetGatewayRoutes]
      by_cases hhidden : record.hidden
      · exact ⟨record.shown, by simp [hhidden, AssetRuntimeRecord.shown]⟩
      · exact ⟨record, by simp [hhidden]⟩

theorem logRemovals_nil (w : World) : w.logRemovals [] = w := by
  rw [World.logRemovals, List.append_nil]

theorem exec_launchContainer (h : containerLaunch host w bindingId asset = some launch) :
    exec (launchContainer host bindingId asset attackerKey warmStandby none none) w =
      (.ok (startedRecord host (w.logRemovals launch.removals) bindingId asset launch warmStandby),
        launched host w bindingId asset launch attackerKey warmStandby) := by
  simp only [containerLaunch, Option.bind_eq_bind, Option.bind_eq_some_iff, toOption_eq_some,
    Option.ite_none_right_eq_some, Bool.and_eq_true, Option.isNone_iff_eq_none,
    Option.or_eq_none_iff] at h
  obtain ⟨runtime, hruntime, image, himage, settings, hsettings, sidecars, hsidecars, ip, hip,
    ⟨⟨hcli, hsupports⟩, hcommand, hstart, hverify⟩, hlaunch⟩ := h
  obtain rfl := Option.some.inj hlaunch
  simp only [launchContainer, exec_bind, exec_get, raiseIf, hcli, hsupports, hruntime, himage,
    hcommand, hsettings, hstart, hverify, hsidecars, hip, recordRunningContainer, stopExisting,
    exec_answer_ok, exec_raise?_none, exec_modify, exec_pure, exec_recordStarted, Option.isNone_none,
    Bool.not_true, Bool.and_false, Bool.false_eq_true, if_false]
  rfl

theorem exec_launchProject (h : projectLaunch host w asset = some launch) :
    exec (launchProject host bindingId asset attackerKey warmStandby) w =
      (.ok (startedRecord host (w.logRemovals launch.removals) bindingId asset launch warmStandby),
        launched host w bindingId asset launch attackerKey warmStandby) := by
  simp only [projectLaunch, Option.bind_eq_bind, Option.bind_eq_some_iff, toOption_eq_some,
    Option.ite_none_right_eq_some, Bool.and_eq_true, Option.isNone_iff_eq_none,
    Option.or_eq_none_iff] at h
  obtain ⟨runtime, hruntime, composeFile, hfile, composeProject, hproject, containerIds, hids,
    internalNetwork, hnetwork, statuses, hstatuses, target, htarget, ports, hports, ip, hip,
    ⟨⟨⟨hcli, hsupports⟩, hallUp⟩, hup, hconnect⟩, hlaunch⟩ := h
  obtain rfl := Option.some.inj hlaunch
  simp only [launchProject, exec_bind, exec_get, raiseIf, hcli, hsupports, hruntime, hfile,
    hproject, hids, hnetwork, hstatuses, htarget, hports, hip, hallUp, hup, hconnect,
    exec_answer_ok, exec_raise?_none, exec_recordStarted, Bool.not_true, Bool.false_eq_true,
    if_false, if_true, launched, logRemovals_nil]

variable (attackerKey) in
theorem exec_mockLaunch (hnone : existingRunningRecord w bindingId asset.assetId = none) :
    exec (mockStartAsset host bindingId asset warmStandby none) w =
      (.ok (startedRecord host w bindingId asset ⟨[], false, []⟩ warmStandby),
        launched host w bindingId asset ⟨[], false, []⟩ attackerKey warmStandby) := by
  rw [mockStartAsset, exec_bind, exec_get, launched, logRemovals_nil, routesFor]
  simp only [hnone, stopExisting, exec_bind, exec_pure, exec_get, exec_upsertRuntime,
    Bool.false_eq_true, if_false, replaceRoutes_nil]
  rfl

/-! ### A start that succeeds -/

variable (host w bindingId asset attackerKey warmStandby) in
/-- The stores after a start that succeeds. -/
def afterStart (launch : Launch) : World :=
  match existingRunningRecord w bindingId asset.assetId with
  | some record => if hasBackend asset then attached host w asset record attackerKey else w
  | none => launched host w bindingId asset launch attackerKey warmStandby

/-- A start that returns is not caught. -/
theorem exec_startAsset_of_ok {r : AssetRuntimeRecord} {t : World}
    (h : exec (if composeSupports asset then
        composeStartAsset host bindingId asset attackerKey warmStandby
      else if dockerSupports asset then
        dockerStartAsset host bindingId asset attackerKey warmStandby none
      else mockStartAsset host bindingId asset warmStandby none) w = (.ok r, t)) :
    exec (startAsset host bindingId asset attackerKey warmStandby none) w = (.ok r, t) := by
  rw [startAsset]
  by_cases hcompose : composeSupports asset
  · rw [if_pos hcompose] at h
    rw [if_pos (by simpa using hcompose), exec_tryCatch, h]
  · rw [if_neg hcompose] at h
    rw [if_neg (by simpa using hcompose)]
    by_cases hdocker : dockerSupports asset
    · rw [if_pos hdocker] at h
      rw [if_pos (by simpa using hdocker), exec_tryCatch, h]
    · rw [if_neg hdocker] at h
      rw [if_neg (by simpa using hdocker), h]

/-- **A start that succeeds**: a running record is taken as it is, and shown where the asset has a
backend. -/
theorem exec_startAsset (h : existingRunningRecord w bindingId asset.assetId = none →
      launchOf host w bindingId asset = some launch) :
    ∃ r, exec (startAsset host bindingId asset attackerKey warmStandby none) w =
      (.ok r, afterStart host w bindingId asset attackerKey warmStandby launch) := by
  rw [afterStart]
  cases hexisting : existingRunningRecord w bindingId asset.assetId with
  | some record =>
    obtain ⟨r, hattached⟩ := exec_attachExisting host w asset attackerKey record
    by_cases hcompose : composeSupports asset
    · refine ⟨r, exec_startAsset_of_ok ?_⟩
      rw [if_pos hcompose, composeStartAsset, exec_bind, exec_get]
      simp only [hexisting, hattached, hasBackend, hcompose, Bool.true_or, if_true]
    · by_cases hdocker : dockerSupports asset
      · refine ⟨r, exec_startAsset_of_ok ?_⟩
        rw [if_neg hcompose, if_pos hdocker, dockerStartAsset, exec_bind, exec_get]
        simp only [hexisting, hattached, hasBackend, hdocker, Bool.or_true, if_true]
      · refine ⟨record, exec_startAsset_of_ok ?_⟩
        rw [if_neg hcompose, if_neg hdocker, mockStartAsset, exec_bind, exec_get]
        simp only [hexisting, exec_pure, hasBackend, hcompose, hdocker, Bool.or_self,
          Bool.false_eq_true, if_false]
  | none =>
    have hlaunch := h hexisting
    rw [launchOf] at hlaunch
    refine ⟨startedRecord host (w.logRemovals launch.removals) bindingId asset launch warmStandby,
      exec_startAsset_of_ok ?_⟩
    by_cases hcompose : composeSupports asset
    · rw [if_pos hcompose] at hlaunch
      rw [if_pos hcompose, composeStartAsset, exec_bind, exec_get]
      simp only [hexisting, exec_launchProject hlaunch]
    · rw [if_neg hcompose] at hlaunch
      rw [if_neg hcompose]
      by_cases hdocker : dockerSupports asset
      · rw [if_pos hdocker] at hlaunch
        rw [if_pos hdocker, dockerStartAsset, exec_bind, exec_get]
        simp only [hexisting, exec_launchContainer hlaunch]
      · rw [if_neg hdocker] at hlaunch
        obtain rfl := Option.some.inj hlaunch
        rw [if_neg hdocker, exec_mockLaunch attackerKey hexisting, logRemovals_nil]

/-! ### The record of a start -/

theorem runtimes_launched (hfresh : host.Fresh) :
    (launched host w bindingId asset launch attackerKey warmStandby).runtimes =
      w.runtimes ++ [startedRecord host (w.logRemovals launch.removals) bindingId asset launch
        warmStandby] := by
  have hnew := hfresh.runtime (w.logRemovals launch.removals)
  exact if_neg hnew

variable (launch attackerKey warmStandby) in
/-- The record that was started runs. -/
theorem existing_launched (hfresh : host.Fresh)
    (hnone : existingRunningRecord w bindingId asset.assetId = none) :
    existingRunningRecord (launched host w bindingId asset launch attackerKey warmStandby) bindingId
      asset.assetId = some (startedRecord host (w.logRemovals launch.removals) bindingId asset
        launch warmStandby) := by
  rw [existingRunningRecord_eq] at hnone ⊢
  have hruns : (startedRecord host (w.logRemovals launch.removals) bindingId asset launch
      warmStandby).runs bindingId asset.assetId = true := runs_iff.mpr ⟨rfl, rfl, rfl⟩
  rw [runtimes_launched hfresh, List.find?_append, hnone, Option.none_or, List.find?_singleton,
    if_pos hruns]

/-- The settings of a launch have each key once, and not the flag of a warm standby; they name the
gateway only if it routes the record. -/
structure Launch.Regular (launch : Launch) : Prop where
  nodup : ("warm_standby_hidden" :: launch.settings.map Prod.fst).Nodup
  managed : (launch.settings.get "asset_gateway_managed").isTrue = true → launch.managed = true

theorem regular_containerLaunch (h : containerLaunch host w bindingId asset = some launch) :
    launch.Regular := by
  simp only [containerLaunch, Option.bind_eq_bind, Option.bind_eq_some_iff, toOption_eq_some,
    Option.ite_none_right_eq_some] at h
  obtain ⟨runtime, _, image, _, settings, hsettings, sidecars, _, ip, _, _, hlaunch⟩ := h
  obtain rfl := Option.some.inj hlaunch
  obtain ⟨ports, _, hports⟩ := Fallible.bind_eq_ok.mp hsettings
  obtain rfl := Except.ok.inj hports
  generalize assetGatewayManaged host asset runtime = managed
  constructor
  · cases ports <;> cases managed <;> cases ip <;>
      simp [portSettings, configuredFlag, backendIpSetting]
  · cases managed with
    | true => exact fun _ => rfl
    | false =>
      cases ports <;> cases ip <;>
        simp [portSettings, configuredFlag, backendIpSetting, Settings.get, lookup_cons_eq,
          Value.isTrue]

theorem regular_projectLaunch (h : projectLaunch host w asset = some launch) :
    launch.Regular := by
  simp only [projectLaunch, Option.bind_eq_bind, Option.bind_eq_some_iff,
    Option.ite_none_right_eq_some] at h
  obtain ⟨runtime, _, composeFile, _, composeProject, _, containerIds, _, internalNetwork, _,
    statuses, _, target, _, ports, _, ip, _, _, hlaunch⟩ := h
  obtain rfl := Option.some.inj hlaunch
  constructor
  · cases ports <;> cases ip <;> simp [projectSettings, targetSettings, backendIpSetting]
  · cases ports with
    | cons first ports => exact fun _ => rfl
    | nil =>
      cases ip <;>
        simp [projectSettings, targetSettings, backendIpSetting, Settings.get, lookup_cons_eq,
          Value.isTrue]

theorem regular_launchOf (h : launchOf host w bindingId asset = some launch) :
    launch.Regular := by
  rw [launchOf] at h
  by_cases hcompose : composeSupports asset
  · rw [if_pos hcompose] at h
    exact regular_projectLaunch h
  · rw [if_neg hcompose] at h
    by_cases hdocker : dockerSupports asset
    · rw [if_pos hdocker] at h
      exact regular_containerLaunch h
    · rw [if_neg hdocker] at h
      obtain rfl := Option.some.inj h
      exact ⟨List.nodup_singleton _, fun hmanaged => absurd hmanaged (by decide)⟩

theorem hidden_startedRecord (h : launchOf host w bindingId asset = some launch) (t : World) :
    (startedRecord host t bindingId asset launch warmStandby).hidden =
      (warmStandby || hiddenSetting asset.defaultSettings) :=
  hiddenSetting_start (List.nodup_cons.mp (regular_launchOf h).nodup).1 warmStandby

theorem hidden_shown (record : AssetRuntimeRecord) : record.shown.hidden = false := by
  rw [AssetRuntimeRecord.hidden, AssetRuntimeRecord.shown, Settings.get, lookup_set_self]
  rfl

/-! ### The calls -/

variable (host) in
/-- Starts for nobody of an asset that runs leave everything as it is. -/
theorem exec_prewarmEach {record : AssetRuntimeRecord} {assetId : String}
    (hrecord : existingRunningRecord w bindingId assetId = some record)
    {assets : List AssetDefinition} (hassets : ∀ asset ∈ assets, asset.assetId = assetId) :
    ∃ records, exec (prewarmEach host bindingId assets) w = (.ok records, w) := by
  induction assets with
  | nil => exact ⟨[], rfl⟩
  | cons asset assets ih =>
    obtain ⟨hasset, hassets⟩ := List.forall_mem_cons.mp hassets
    obtain ⟨records, hrest⟩ := ih hassets
    have hkept : afterStart host w bindingId asset none true ⟨[], false, []⟩ = w := by
      rw [afterStart, hasset, hrecord]
      simp [attached, routesFor, given]
    have hfirst : ∃ r, exec (startAsset host bindingId asset none true none) w =
        (.ok r, afterStart host w bindingId asset none true ⟨[], false, []⟩) :=
      exec_startAsset fun hnone => absurd (hnone.symm.trans (hasset ▸ hrecord)) (by simp)
    obtain ⟨r, hfirst⟩ := hkept ▸ hfirst
    refine ⟨r :: records, ?_⟩
    rw [prewarmEach, prewarmAsset, exec_bind, hfirst]
    simp only [exec_bind, hrest, exec_pure]

theorem mem_prewarmAssets {assetId : String} {unlocked : List String}
    (h : asset ∈ prewarmAssets host [assetId] unlocked) :
    asset ∈ host.catalog ∧ asset.assetId = assetId ∧ assetId ∉ unlocked := by
  obtain ⟨hmem, hwarm⟩ := List.mem_filter.mp h
  obtain ⟨hwarm, -⟩ := Bool.and_eq_true_iff.mp hwarm
  obtain ⟨hlocked, hrequested⟩ := Bool.and_eq_true_iff.mp hwarm
  have hasset : asset.assetId = assetId := by simpa using hrequested
  rw [hasset] at hlocked
  exact ⟨hmem, hasset, by simpa using hlocked⟩

/-- The stores agree on the records and on the routes. -/
structure SameBackends (w w' : World) : Prop where
  runtimes : w'.runtimes = w.runtimes
  routes : w'.routes = w.routes

theorem existing_sameBackends {w' : World} (h : SameBackends w w') (bindingId assetId : String) :
    existingRunningRecord w' bindingId assetId = existingRunningRecord w bindingId assetId := by
  rw [existingRunningRecord_eq, existingRunningRecord_eq, h.runtimes]

section Calls

variable {binding : BindingRecord} {assetId : String}

theorem exec_getBinding (hbinding : getByBinding w.bindings bindingId = some binding) :
    exec (getBinding bindingId) w = (.ok binding, w) := by
  rw [getBinding, exec_bind, exec_get]
  simp only [hbinding]
  rfl

/-- A prewarm for a binding that is not stored starts nothing. -/
theorem exec_prewarm_unbound {assetIds : List String}
    (hnone : getByBinding w.bindings bindingId = none) :
    (exec (prewarm host bindingId assetIds) w).2 = w := by
  rw [prewarm, getBinding, exec_bind, exec_bind, exec_get]
  simp only [hnone]
  rfl

/-- A prewarm of an asset that is open, or runs, starts nothing. -/
theorem exec_prewarm_kept (hbinding : getByBinding w.bindings bindingId = some binding)
    (hkept : prewarmAssets host [assetId] binding.unlockedAssets = [] ∨
      ∃ record, existingRunningRecord w bindingId assetId = some record) :
    (exec (prewarm host bindingId [assetId]) w).2 = w := by
  rw [prewarm, exec_bind, exec_getBinding hbinding]
  simp only [bindingId_of_getByBinding hbinding]
  rcases hkept with hnil | ⟨record, hrecord⟩
  · rw [hnil]
    rfl
  · obtain ⟨records, hrun⟩ := exec_prewarmEach host hrecord
      fun asset hasset => (mem_prewarmAssets hasset).2.1
    rw [hrun]

/-- A prewarm of an asset that is neither starts it once. -/
theorem exec_prewarm_launched (hfresh : host.Fresh)
    (hbinding : getByBinding w.bindings bindingId = some binding)
    (hasset : (prewarmAssets host [assetId] binding.unlockedAssets).head? = some asset)
    (hnone : existingRunningRecord w bindingId assetId = none)
    (hlaunch : launchOf host w bindingId asset = some launch) :
    (exec (prewarm host bindingId [assetId]) w).2 =
      launched host w bindingId asset launch none true := by
  obtain ⟨assets, hassets⟩ := List.head?_eq_some_iff.mp hasset
  have hids : ∀ other ∈ asset :: assets, other.assetId = assetId :=
    fun other hother => (mem_prewarmAssets (hassets ▸ hother)).2.1
  obtain ⟨hid, hids⟩ := List.forall_mem_cons.mp hids
  subst hid
  have hfirst : ∃ r, exec (startAsset host bindingId asset none true none) w =
      (.ok r, afterStart host w bindingId asset none true launch) :=
    exec_startAsset fun _ => hlaunch
  rw [afterStart, hnone] at hfirst
  obtain ⟨r, hfirst⟩ := hfirst
  obtain ⟨records, hrest⟩ := exec_prewarmEach host
    (existing_launched none true launch hfresh hnone) hids
  rw [prewarm, exec_bind, exec_getBinding hbinding]
  simp only [bindingId_of_getByBinding hbinding, hassets]
  rw [prewarmEach, prewarmAsset, exec_bind, hfirst]
  simp only [exec_bind, hrest, exec_pure]

/-! ### An unlock -/

variable (host w binding assetId) in
/-- The binding with one more asset open. -/
def unlocked : BindingRecord :=
  { binding with
    status := .active
    lastSeenTs := .utc (host.now w)
    unlockedAssets := appendNew binding.unlockedAssets [assetId] }

theorem exec_unlockAssets (hbinding : getByBinding w.bindings bindingId = some binding) :
    exec (callBinding host (.unlockAssets bindingId [assetId])) w =
      (.ok (unlocked host w binding assetId),
        { w with bindings := upsert (unlocked host w binding assetId) w.bindings }) := by
  have hcall : BindingOp.call ⟨host.ttl, host.now w, host.bindingUuid w⟩
      (.unlockAssets bindingId [assetId]) w.bindings = .ok (unlocked host w binding assetId,
        upsert (unlocked host w binding assetId) w.bindings) := by
    rw [BindingOp.call, BindingOp.write, BindingOp.read, hbinding]
    rfl
  rw [callBinding, exec_bind, exec_get]
  simp only [hcall, exec_bind, exec_answer_ok, exec_modify, exec_pure]

theorem unlockRouteUpdates_locked {unlocked : List String} (h : assetId ∉ unlocked) :
    unlockRouteUpdates bindingId unlocked (appendNew unlocked [assetId]) [assetId] =
      [exposesUpdate bindingId assetId] := by
  have hnew : appendNew unlocked [assetId] = unlocked ++ [assetId] := if_neg h
  rw [unlockRouteUpdates, hnew, List.filter_append]
  simp [h]

/-- The asset that the update of an unlock names. -/
def namedAsset (host : Host) (bindingId assetId : String) : Option AssetDefinition :=
  (newAssetId (exposesUpdate bindingId assetId)).bind (assetById host)

theorem exec_startEach_none (hnamed : namedAsset host bindingId assetId = none) :
    exec (startEach host binding (fun _ => none)
      (newAssetId (exposesUpdate bindingId assetId)).toList) w = (.ok [], w) := by
  rw [namedAsset] at hnamed
  cases hid : newAssetId (exposesUpdate bindingId assetId) with
  | none => rfl
  | some named =>
    rw [hid] at hnamed
    simp only [Option.toList_some, startEach, startAssetRuntime, exec_bind]
    have hunknown : assetById host named = none := hnamed
    simp only [hunknown, exec_pure, List.append_nil]

variable (w launch binding) in
theorem exec_startEach_named (hnamed : namedAsset host bindingId assetId = some asset)
    (hlaunch : existingRunningRecord w binding.bindingId asset.assetId = none →
      launchOf host w binding.bindingId asset = some launch) :
    ∃ records, exec (startEach host binding (fun _ => none)
        (newAssetId (exposesUpdate bindingId assetId)).toList) w =
      (.ok records, afterStart host w binding.bindingId asset (some binding.attackerKey) false
        launch) := by
  obtain ⟨named, hid, hasset⟩ := Option.bind_eq_some_iff.mp hnamed
  have hfirst : ∃ r, exec (startAsset host binding.bindingId asset (some binding.attackerKey) false
      none) w = (.ok r, afterStart host w binding.bindingId asset (some binding.attackerKey) false
        launch) := exec_startAsset hlaunch
  obtain ⟨r, hfirst⟩ := hfirst
  refine ⟨[r], ?_⟩
  rw [hid]
  simp only [Option.toList_some, startEach, startAssetRuntime, exec_bind, hasset, hfirst,
    exec_pure, List.append_nil]

/-- **An unlock of an asset that is closed** starts what its update names, for the attacker of the
binding, and tells the gateway. -/
theorem exec_apply_unlock (hbinding : getByBinding w.bindings bindingId = some binding)
    (hlocked : assetId ∉ binding.unlockedAssets) (hne : assetId ≠ "") {action : ControllerAction}
    (htype : action.actionType = .unlock) (hid : action.assetId = some assetId)
    {records : List AssetRuntimeRecord} {t : World}
    (hstart : exec (startEach host (unlocked host w binding assetId) (fun _ => none)
      (newAssetId (exposesUpdate bindingId assetId)).toList)
        { w with bindings := upsert (unlocked host w binding assetId) w.bindings } =
          (.ok records, t)) :
    SameBackends t (exec (apply host bindingId [action]) w).2 := by
  have hgiven : given action.assetId = some assetId := by
    rw [hid, given, Option.filter_some, if_pos (bne_iff_ne.mpr hne)]
  have hids : newAssetIdsFromRouteUpdates [exposesUpdate bindingId assetId] =
      (newAssetId (exposesUpdate bindingId assetId)).toList := by
    rw [newAssetIdsFromRouteUpdates, List.filterMap_cons, List.filterMap_nil]
    cases newAssetId (exposesUpdate bindingId assetId) <;> rfl
  have hunlock : ∃ progress, exec (unlockAction host bindingId binding assetId) w =
      (.ok progress, t) := by
    rw [unlockAction, applyUnlocks, exec_bind, exec_bind, exec_unlockAssets hbinding]
    simp only [exec_pure, exec_bind, unlocked, unlockRouteUpdates_locked hlocked, hids]
    rw [unlocked] at hstart
    rw [hstart]
    exact ⟨_, rfl⟩
  obtain ⟨progress, hunlock⟩ := hunlock
  rw [apply, exec_bind, exec_getBinding hbinding]
  simp only [applyActions, applyAction, htype, hgiven, exec_bind, hunlock, exec_pure, exec_modify]
  exact ⟨rfl, rfl⟩

/-- An unlock without an id, or of a binding that is not stored, starts nothing. -/
theorem exec_apply_nothing (hnothing : getByBinding w.bindings bindingId = none ∨
    assetId = "") {action : ControllerAction} (htype : action.actionType = .unlock)
    (hid : action.assetId = some assetId) :
    SameBackends w (exec (apply host bindingId [action]) w).2 := by
  rw [apply, exec_bind]
  cases hbinding : getByBinding w.bindings bindingId with
  | none =>
    rw [getBinding, exec_bind, exec_get]
    simp only [hbinding]
    exact ⟨rfl, rfl⟩
  | some binding =>
    rw [exec_getBinding hbinding]
    have hempty : assetId = "" := hnothing.resolve_left (by simp [hbinding])
    have hgiven : given action.assetId = none := by rw [hid, hempty]; rfl
    simp only [applyActions, applyAction, htype, hgiven, exec_bind, exec_pure, exec_modify]
    exact ⟨rfl, rfl⟩

end Calls

/-! ### Two moments -/

/-- A start comes to the same at any time. -/
theorem launchOf_steady (hsteady : Steady host) (w w' : World) :
    launchOf host w bindingId asset = launchOf host w' bindingId asset := by
  have hport : ∀ managed backendHost, portRecord host w asset.assetId managed backendHost =
      portRecord host w' asset.assetId managed backendHost := by
    intro managed backendHost
    funext item
    cases item <;> simp only [portRecord, hsteady.freePort w w']
  have hports : ∀ runtime managed backendHost,
      resolvePortMappings host w runtime asset.assetId managed backendHost =
        resolvePortMappings host w' runtime asset.assetId managed backendHost := by
    intro runtime managed backendHost
    rw [resolvePortMappings, resolvePortMappings, hport]
  simp only [launchOf, projectLaunch, containerLaunch, dockerSettings, hports,
    hsteady.docker w w', hsteady.compose w w']

section Unlock

variable {binding : BindingRecord} {assetId : String} {action : ControllerAction}

/-- **What an unlock of a closed asset leaves**, if the start it comes to succeeds. -/
theorem unlock_named (hsteady : Steady host)
    (hbinding : getByBinding w.bindings bindingId = some binding)
    (hlocked : assetId ∉ binding.unlockedAssets) (hne : assetId ≠ "")
    (htype : action.actionType = .unlock) (hid : action.assetId = some assetId)
    (hnamed : namedAsset host bindingId assetId = some asset)
    (hlaunch : existingRunningRecord w bindingId asset.assetId = none →
      launchOf host w bindingId asset = some launch) :
    ∃ w', SameBackends w w' ∧ SameBackends
      (afterStart host w' bindingId asset (some binding.attackerKey) false launch)
      (exec (apply host bindingId [action]) w).2 := by
  have hid' : binding.bindingId = bindingId := bindingId_of_getByBinding hbinding
  have hb : (unlocked host w binding assetId).bindingId = bindingId := hid'
  obtain ⟨records, hstart⟩ := exec_startEach_named
    { w with bindings := upsert (unlocked host w binding assetId) w.bindings } launch
    (unlocked host w binding assetId) hnamed fun hnone => by
      rw [hb] at hnone ⊢
      rw [launchOf_steady hsteady _ w]
      exact hlaunch hnone
  rw [hb] at hstart
  exact ⟨{ w with bindings := upsert (unlocked host w binding assetId) w.bindings }, ⟨rfl, rfl⟩,
    exec_apply_unlock hbinding hlocked hne htype hid hstart⟩

/-- An unlock whose update names no asset of the catalog starts nothing. -/
theorem unlock_unnamed (hbinding : getByBinding w.bindings bindingId = some binding)
    (hlocked : assetId ∉ binding.unlockedAssets) (hne : assetId ≠ "")
    (htype : action.actionType = .unlock) (hid : action.assetId = some assetId)
    (hnamed : namedAsset host bindingId assetId = none) :
    SameBackends w (exec (apply host bindingId [action]) w).2 := by
  obtain ⟨hruntimes, hroutes⟩ := exec_apply_unlock hbinding hlocked hne htype hid
    (exec_startEach_none hnamed)
  exact ⟨hruntimes, hroutes⟩

end Unlock

end Exec

end Honeynet.Orchestrator
