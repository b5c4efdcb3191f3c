import Honeynet.Orchestrator.View

/-!
# An unlock after a prewarm

The start of an unlock takes a warm standby as it finds it.  Two histories are compared: the unlock
on its own, and the unlock after a prewarm of its asset.

* `Invisible`: the histories end alike.
* `Standby`: the prewarm starts a backend that the unlock meets.
* `prewarm_invisible_iff`: they end alike if and only if every such backend is shown where
  a start would have shown it, and routed as it would have been.
* `standby_kept_hidden`: a mock stays hidden.
-/

namespace Honeynet.Orchestrator

open Collections Binding Effect

/-- **A prewarm before an unlock makes no difference** to the binding. -/
def Invisible (host : Host) (s : World) (bindingId assetId : String) : Prop :=
  ∀ action : ControllerAction, action.actionType = .unlock → action.assetId = some assetId →
    SameView host bindingId (exec (apply host bindingId [action]) s).2
      (exec (apply host bindingId [action]) (exec (prewarm host bindingId [assetId]) s).2).2

/-! ### A standby -/

/-- Every start that an unlock of the asset or a prewarm of it comes to succeeds, and what it starts
is up. -/
def StartsUp (host : Host) (w : World) (bindingId assetId : String) : Prop :=
  ∀ asset ∈ host.catalog,
    asset.assetId = assetId ∨ newAssetId (exposesUpdate bindingId assetId) = some asset.assetId →
      existingRunningRecord w bindingId asset.assetId = none →
        ∃ launch, launchOf host w bindingId asset = some launch ∧
          BackendUp host w (startedRecord host w bindingId asset launch false)

/-- **A backend that the prewarm of an asset starts and its unlock meets.**  The unlock starts the
asset its update names, which is another definition where ids are not unique. -/
structure Standby (host : Host) (s : World) (bindingId assetId : String) where
  binding : BindingRecord
  warm : AssetDefinition
  warmLaunch : Launch
  asset : AssetDefinition
  launch : Launch
  bound : getByBinding s.bindings bindingId = some binding
  first : (prewarmAssets host [assetId] binding.unlockedAssets).head? = some warm
  idle : existingRunningRecord s bindingId assetId = none
  nonempty : assetId ≠ ""
  named : namedAsset host bindingId assetId = some asset
  same : asset.assetId = assetId
  warmLaunches : launchOf host s bindingId warm = some warmLaunch
  launches : launchOf host s bindingId asset = some launch

namespace Standby

variable {host : Host} {s : World} {bindingId assetId : String}
  (standby : Standby host s bindingId assetId)

/-- Its record, as the prewarm leaves it. -/
def record : AssetRuntimeRecord :=
  startedRecord host s bindingId standby.warm standby.warmLaunch true

def attackerKey : Option String := some standby.binding.attackerKey

/-- The start of the unlock shows it: docker or compose start the asset, there is an attacker, and
the gateway routes the record. -/
def attaches : Bool :=
  hasBackend standby.asset && (given standby.attackerKey).isSome && standby.record.managed

/-- The routes the unlock gives it, from the settings that are recorded. -/
def routes : List GatewayRoute :=
  routesFor host s bindingId standby.asset standby.attackerKey standby.attaches
    standby.record.settings

/-- The routes of a start without it, from the settings of the start. -/
def directRoutes : List GatewayRoute :=
  routesFor host s bindingId standby.asset standby.attackerKey standby.launch.managed
    standby.launch.settings

/-- **The unlock makes of the standby what a start would have come to**: it is shown, unless the
settings of the asset hide it, and its routes put the same in place. -/
structure Unveiled : Prop where
  shown : standby.attaches = true ↔ hiddenSetting standby.asset.defaultSettings = false
  routed : (s.replaceRoutes standby.routes).boundRoutes bindingId =
    (s.replaceRoutes standby.directRoutes).boundRoutes bindingId

end Standby

section Histories

variable {host : Host} {s t u v : World} {bindingId assetId : String}

/-- The stores after a prewarm that has started a backend. -/
structure Warmed (s t : World) (record : AssetRuntimeRecord) : Prop where
  routes : t.routes = s.routes
  runtimes : t.runtimes = s.runtimes ++ [record]
  hidden : record.hidden = true
  fresh : record.runtimeId ∉ s.runtimes.map AssetRuntimeRecord.runtimeId

theorem warmed_launched (hfresh : host.Fresh) {asset : AssetDefinition} {launch : Launch}
    (hlaunch : launchOf host s bindingId asset = some launch) :
    Warmed s (launched host s bindingId asset launch none true)
      (startedRecord host (s.logRemovals launch.removals) bindingId asset launch true) where
  routes := by
    rw [launched]
    simp [routesFor, given]
    rfl
  runtimes := runtimes_launched hfresh
  hidden := hidden_startedRecord hlaunch _
  fresh := hfresh.runtime (s.logRemovals launch.removals)

theorem Warmed.sameBackends {record : AssetRuntimeRecord} (h : Warmed s t record)
    (ht : SameBackends t u) : Warmed s u record :=
  ⟨ht.routes.trans h.routes, ht.runtimes.trans h.runtimes, h.hidden, h.fresh⟩

theorem Warmed.of_sameBackends {record : AssetRuntimeRecord} (h : Warmed s t record)
    (hs : SameBackends s u) : Warmed u t record where
  routes := h.routes.trans hs.routes.symm
  runtimes := by rw [hs.runtimes, h.runtimes]
  hidden := h.hidden
  fresh := by
    rw [hs.runtimes]
    exact h.fresh

/-- A start of another asset does not meet it. -/
theorem existing_warmed {record : AssetRuntimeRecord} (h : Warmed s t record)
    (hne : record.assetId ≠ assetId) :
    existingRunningRecord t bindingId assetId = existingRunningRecord s bindingId assetId := by
  have hnot : ¬ record.runs bindingId assetId = true := fun hruns => hne (runs_iff.mp hruns).2.1
  rw [existingRunningRecord_eq, existingRunningRecord_eq, h.runtimes, List.find?_append,
    List.find?_singleton, if_neg hnot, Option.or_none]

theorem matched_of_runtimes (h : ∀ r ∈ u.runtimes, r.hidden = false → r ∈ v.runtimes) :
    Matched u v := fun r hr hshown => ⟨r, h r hr hshown, Alike.refl r⟩

/-- A hidden record adds nothing to what is shown. -/
theorem mem_of_shown {record : AssetRuntimeRecord}
    (hruntimes : v.runtimes = u.runtimes ++ [record]) (hhidden : record.hidden = true) :
    ∀ r ∈ v.runtimes, r.hidden = false → r ∈ u.runtimes := by
  intro r hr hshown
  rw [hruntimes, List.mem_append, List.mem_singleton] at hr
  rcases hr with hr | rfl
  · exact hr
  · exact absurd (hhidden.symm.trans hshown) (by decide)

/-- Stores with the same records but for a hidden one. -/
theorem sameView_hidden (hfixed : FixedStatuses host) {record : AssetRuntimeRecord}
    (hruntimes : v.runtimes = u.runtimes ++ [record]) (hhidden : record.hidden = true)
    (hroutes : u.boundRoutes bindingId = v.boundRoutes bindingId) :
    SameView host bindingId u v := by
  refine sameView_of_matched hfixed (matched_of_runtimes fun r hr _ => ?_)
    (matched_of_runtimes (mem_of_shown hruntimes hhidden)) hroutes
  rw [hruntimes]
  exact List.mem_append_left _ hr

theorem routes_attached {asset : AssetDefinition} {record : AssetRuntimeRecord}
    {attackerKey : Option String} :
    (attached host s asset record attackerKey).routes = (s.replaceRoutes
      (routesFor host s record.bindingId asset attackerKey record.managed
        record.settings)).routes := by
  rw [attached]
  split
  · rfl
  · rfl

theorem runtimes_attached {asset : AssetDefinition} {record : AssetRuntimeRecord}
    {attackerKey : Option String} :
    (attached host s asset record attackerKey).runtimes =
      if (given attackerKey).isSome && record.managed && record.hidden then
        upsertBy AssetRuntimeRecord.runtimeId record.shown s.runtimes
      else s.runtimes := by
  rw [attached]
  split
  · rfl
  · rfl

/-- A start that meets a record leaves one beside it as it is. -/
theorem runtimes_attached_append {record old : AssetRuntimeRecord} {assetId : String}
    (h : Warmed s t record) (hold : existingRunningRecord s bindingId assetId = some old)
    (asset : AssetDefinition) (attackerKey : Option String) :
    (attached host t asset old attackerKey).runtimes =
      (attached host s asset old attackerKey).runtimes ++ [record] := by
  have hmem : old.runtimeId ∈ s.runtimes.map AssetRuntimeRecord.runtimeId :=
    List.mem_map_of_mem (existingRunningRecord_spec hold).1
  have hother : old.shown.runtimeId ∉ [record].map AssetRuntimeRecord.runtimeId := by
    rw [List.map_singleton, List.mem_singleton]
    exact fun heq => h.fresh (heq ▸ hmem)
  rw [runtimes_attached, runtimes_attached, h.runtimes]
  split
  · exact upsertBy_append_left hmem hother
  · rfl

/-- A record at the end of two lists that match. -/
theorem matched_append {record record' : AssetRuntimeRecord}
    (hu : u.runtimes = s.runtimes ++ [record]) (hv : v.runtimes = t.runtimes ++ [record'])
    (h : ∀ r ∈ s.runtimes, r.hidden = false → r ∈ t.runtimes) (halike : Alike record record') :
    Matched u v := by
  intro r hr hshown
  rw [hu, List.mem_append, List.mem_singleton] at hr
  rcases hr with hr | rfl
  · refine ⟨r, ?_, Alike.refl r⟩
    rw [hv]
    exact List.mem_append_left _ (h r hr hshown)
  · refine ⟨record', ?_, halike⟩
    rw [hv]
    exact List.mem_append_right _ (List.mem_singleton_self _)

/-- **A start beside a hidden record** comes to the same as without it. -/
theorem sameView_beside (hfresh : host.Fresh) (hfixed : FixedStatuses host)
    {record : AssetRuntimeRecord} (h : Warmed s t record) {asset : AssetDefinition}
    (hne : record.assetId ≠ asset.assetId) {attackerKey : Option String} {launch : Launch}
    (hu : u.runtimes = (afterStart host s bindingId asset attackerKey false launch).runtimes)
    (hu' : u.routes = (afterStart host s bindingId asset attackerKey false launch).routes)
    (hv : v.runtimes = (afterStart host t bindingId asset attackerKey false launch).runtimes)
    (hv' : v.routes = (afterStart host t bindingId asset attackerKey false launch).routes) :
    SameView host bindingId u v := by
  rw [afterStart] at hu hu' hv hv'
  rw [existing_warmed h hne] at hv hv'
  cases hexisting : existingRunningRecord s bindingId asset.assetId with
  | some old =>
    rw [hexisting] at hu hu' hv hv'
    by_cases hbackend : hasBackend asset
    · simp only [hbackend, if_true] at hu hu' hv hv'
      rw [runtimes_attached_append h hexisting asset attackerKey, ← hu] at hv
      refine sameView_hidden hfixed hv h.hidden ?_
      have hroutes := boundRoutes_routesFor h.routes.symm host s t old.bindingId bindingId asset
        attackerKey old.managed old.settings
      rw [World.boundRoutes, World.boundRoutes] at hroutes ⊢
      rw [hu', hv', routes_attached, routes_attached, hroutes]
    · simp only [hbackend, Bool.false_eq_true, if_false] at hu hu' hv hv'
      rw [h.runtimes, ← hu] at hv
      refine sameView_hidden hfixed hv h.hidden ?_
      rw [World.boundRoutes, World.boundRoutes, hu', hv', h.routes]
  | none =>
    rw [hexisting] at hu hu' hv hv'
    have halike : Alike
        (startedRecord host (s.logRemovals launch.removals) bindingId asset launch false)
        (startedRecord host (t.logRemovals launch.removals) bindingId asset launch false) :=
      ⟨rfl, rfl, rfl, rfl⟩
    have hold : ∀ r ∈ s.runtimes, r.hidden = false → r ∈ t.runtimes := by
      intro r hr _
      rw [h.runtimes]
      exact List.mem_append_left _ hr
    have hs := hu.trans (runtimes_launched hfresh)
    have ht := hv.trans (runtimes_launched hfresh)
    refine sameView_of_matched hfixed (matched_append hs ht hold halike)
      (matched_append ht hs (mem_of_shown h.runtimes h.hidden) halike.symm) ?_
    rw [World.boundRoutes, World.boundRoutes, hu', hv']
    exact boundRoutes_routesFor h.routes.symm host (s.logRemovals launch.removals)
      (t.logRemovals launch.removals) bindingId bindingId asset attackerKey launch.managed
      (launch.settings ++ standbyFlag false)

/-! ### A start that meets the standby -/

/-- The backend of a record is that of its settings, whatever hides it. -/
theorem backendUp_congr {r r' : AssetRuntimeRecord}
    (h : ∀ key, key ≠ "warm_standby_hidden" → r.settings.lookup key = r'.settings.lookup key) :
    BackendUp host s r ↔ BackendUp host s r' := by
  have hbackend : backendOf host r = backendOf host r' := by
    rw [backendOf, backendOf, Settings.getD, Settings.getD, h _ (by decide)]
  have hcontainer : containerUp host s r = containerUp host s r' := by
    rw [containerUp, containerUp, Settings.get, Settings.get, h _ (by decide)]
  have hproject : projectUp host s r = projectUp host s r' := by
    rw [projectUp, projectUp, Settings.get, Settings.get, h _ (by decide)]
  rw [BackendUp, BackendUp, hbackend, hcontainer, hproject]

theorem lookup_standbyFlag (d : Settings) (warmStandby : Bool) {key : String}
    (hkey : key ≠ "warm_standby_hidden") :
    (Dict.update d (standbyFlag warmStandby)).lookup key = d.lookup key := by
  refine lookup_update_of_notMem ?_
  cases warmStandby with
  | true => simpa [standbyFlag] using hkey
  | false => exact List.not_mem_nil

theorem backendUp_shown {asset : AssetDefinition} {launch : Launch}
    (h : BackendUp host s (startedRecord host s bindingId asset launch false)) (w : World) :
    BackendUp host s (startedRecord host w bindingId asset launch true).shown := by
  refine (backendUp_congr fun key hkey => ?_).mp h
  rw [AssetRuntimeRecord.shown, startedRecord, startedRecord, runtimeRecordFromAsset,
    runtimeRecordFromAsset, lookup_set_ne _ hkey, update_append, update_append,
    lookup_standbyFlag _ _ hkey, lookup_standbyFlag _ _ hkey]

namespace Standby

variable (standby : Standby host s bindingId assetId)

/-- The stores after the prewarm. -/
def warmed : World := launched host s bindingId standby.warm standby.warmLaunch none true

/-- Its record, in those stores. -/
def stored : AssetRuntimeRecord :=
  startedRecord host (s.logRemovals standby.warmLaunch.removals) bindingId standby.warm
    standby.warmLaunch true

/-- Its record after the unlock. -/
def met : AssetRuntimeRecord := if standby.attaches then standby.stored.shown else standby.stored

theorem warmed_stored (hfresh : host.Fresh) : Warmed s standby.warmed standby.stored :=
  warmed_launched hfresh standby.warmLaunches

theorem warm_assetId : standby.warm.assetId = assetId :=
  (mem_prewarmAssets (List.mem_of_head? standby.first)).2.1

theorem existing_stored (hfresh : host.Fresh) :
    existingRunningRecord standby.warmed bindingId standby.asset.assetId =
      some standby.stored := by
  have hidle : existingRunningRecord s bindingId standby.warm.assetId = none := by
    rw [standby.warm_assetId]
    exact standby.idle
  have hstored := existing_launched none true standby.warmLaunch hfresh hidle
  rw [standby.warm_assetId] at hstored
  rw [standby.same]
  exact hstored

theorem hidden_met : standby.met.hidden = false ↔ standby.attaches = true := by
  rw [met]
  by_cases hattaches : standby.attaches
  · rw [if_pos hattaches, hidden_shown]
    exact iff_of_true rfl hattaches
  · rw [if_neg hattaches]
    have hhidden : standby.stored.hidden = true := hidden_startedRecord standby.warmLaunches _
    rw [hhidden]
    simp [hattaches]

theorem runtimes_met (hwarmed : Warmed s t standby.stored)
    (hstored : existingRunningRecord t bindingId standby.asset.assetId = some standby.stored) :
    (afterStart host t bindingId standby.asset standby.attackerKey false
      standby.launch).runtimes = s.runtimes ++ [standby.met] := by
  have hhidden : standby.stored.hidden = true := hwarmed.hidden
  have hmanaged : standby.stored.managed = standby.record.managed := rfl
  rw [afterStart, hstored, met, attaches]
  by_cases hbackend : hasBackend standby.asset
  · simp only [hbackend, if_true, runtimes_attached, hhidden, hmanaged, Bool.and_true,
      Bool.true_and, hwarmed.runtimes]
    by_cases hattaches : (given standby.attackerKey).isSome && standby.record.managed
    · rw [if_pos hattaches, if_pos hattaches]
      exact upsertBy_append_singleton hwarmed.fresh rfl
    · rw [if_neg hattaches, if_neg hattaches]
  · simp only [hbackend, Bool.false_and, Bool.false_eq_true, if_false]
    exact hwarmed.runtimes

theorem boundRoutes_met (hwarmed : Warmed s t standby.stored)
    (hstored : existingRunningRecord t bindingId standby.asset.assetId = some standby.stored) :
    (afterStart host t bindingId standby.asset standby.attackerKey false
      standby.launch).boundRoutes bindingId =
        (s.replaceRoutes standby.routes).boundRoutes bindingId := by
  rw [afterStart, hstored]
  by_cases hbackend : hasBackend standby.asset
  · have hroutes : standby.routes = routesFor host s bindingId standby.asset standby.attackerKey
        standby.record.managed standby.record.settings := by
      rw [routes, attaches, hbackend, Bool.true_and, routesFor, routesFor]
      cases given standby.attackerKey with
      | none => simp
      | some key => simp
    simp only [hbackend, if_true]
    rw [hroutes, World.boundRoutes, routes_attached]
    exact boundRoutes_routesFor hwarmed.routes host _ _ _ _ _ _ _ _
  · have hroutes : standby.routes = [] := by
      rw [routes, attaches, Bool.eq_false_iff.mpr hbackend]
      rfl
    simp only [hbackend, Bool.false_eq_true, if_false]
    rw [hroutes, replaceRoutes_nil, World.boundRoutes, World.boundRoutes, hwarmed.routes]

/-- What does not run is not reachable. -/
theorem notMem_accessible (hidle : existingRunningRecord s bindingId assetId = none) :
    assetId ∉ listAccessibleAssetIds host s bindingId := by
  intro hlisted
  obtain ⟨r, hr, hb, ha, haccessible⟩ := mem_accessible.mp hlisted
  have hstatus := (runtimeRecordIsAccessible_iff.mp haccessible).1.1
  rw [existingRunningRecord_eq, List.find?_eq_none] at hidle
  exact hidle r hr (runs_iff.mpr ⟨hb, ha, hstatus⟩)

theorem up_launch (hup : StartsUp host s bindingId assetId) {asset : AssetDefinition}
    (hasset : asset ∈ host.catalog) (hid : asset.assetId = assetId)
    (hidle : existingRunningRecord s bindingId assetId = none) {launch : Launch}
    (hlaunch : launchOf host s bindingId asset = some launch) :
    BackendUp host s (startedRecord host s bindingId asset launch false) := by
  obtain ⟨launch', hlaunch', hbackend⟩ := hup asset hasset (Or.inl hid) (hid ▸ hidle)
  obtain rfl := Option.some.inj (hlaunch'.symm.trans hlaunch)
  exact hbackend

/-- Shown or not, the record is the running one of the asset. -/
theorem met_spec : standby.met.bindingId = bindingId ∧ standby.met.assetId = assetId ∧
    standby.met.status = .running := by
  rw [met]
  split
  · exact ⟨rfl, standby.warm_assetId, rfl⟩
  · exact ⟨rfl, standby.warm_assetId, rfl⟩

theorem hidden_or_up_met (hup : StartsUp host s bindingId assetId) :
    standby.met.hidden = true ∨ BackendUp host s standby.met := by
  by_cases hattaches : standby.attaches
  · obtain ⟨hwarm, hid, -⟩ := mem_prewarmAssets (List.mem_of_head? standby.first)
    right
    rw [met, if_pos hattaches]
    exact backendUp_shown (up_launch hup hwarm hid standby.idle standby.warmLaunches) _
  · left
    have hhidden := mt standby.hidden_met.mp hattaches
    simpa using hhidden

/-- **Where a start meets the standby**, the histories end alike exactly if it is unveiled. -/
theorem sameView_met_iff (hfixed : FixedStatuses host) (hup : StartsUp host s bindingId assetId)
    {w : World}
    (hu : u.runtimes = s.runtimes ++
      [startedRecord host w bindingId standby.asset standby.launch false])
    (hu' : u.boundRoutes bindingId = (s.replaceRoutes standby.directRoutes).boundRoutes bindingId)
    (hv : v.runtimes = s.runtimes ++ [standby.met])
    (hv' : v.boundRoutes bindingId = (s.replaceRoutes standby.routes).boundRoutes bindingId) :
    SameView host bindingId u v ↔ standby.Unveiled := by
  have hdirect : (startedRecord host w bindingId standby.asset standby.launch false).hidden =
      hiddenSetting standby.asset.defaultSettings := hidden_startedRecord standby.launches w
  obtain ⟨hcatalog, _⟩ := assetById_spec (Option.bind_eq_some_iff.mp standby.named).choose_spec.2
  have hupDirect : BackendUp host s
      (startedRecord host w bindingId standby.asset standby.launch false) :=
    (backendUp_congr fun _ _ => rfl).mp
      (up_launch hup hcatalog standby.same standby.idle standby.launches)
  have hdirectBinding : (startedRecord host w bindingId standby.asset standby.launch
      false).bindingId = bindingId := rfl
  obtain ⟨hmetBinding, hmetAsset, hmetStatus⟩ := standby.met_spec
  obtain ⟨haccessible, hfailed⟩ :=
    lists_append hfixed hu hdirectBinding standby.same rfl (Or.inr hupDirect)
  obtain ⟨haccessible', hfailed'⟩ :=
    lists_append hfixed hv hmetBinding hmetAsset hmetStatus (standby.hidden_or_up_met hup)
  simp only [hdirect] at haccessible
  simp only [standby.hidden_met] at haccessible'
  constructor
  · intro hview
    have hasset := hview.accessible assetId
    rw [haccessible, haccessible', or_iff_right (notMem_accessible standby.idle),
      or_iff_right (notMem_accessible standby.idle), and_iff_right rfl, and_iff_right rfl] at hasset
    exact ⟨hasset.symm, (hu'.symm.trans (hview.routes.trans hv')).symm⟩
  · intro hunveiled
    refine ⟨fun other => ?_, fun other => ?_, hu'.trans (hunveiled.routed.symm.trans hv'.symm)⟩
    · rw [haccessible, haccessible', hunveiled.shown]
    · rw [hfailed, hfailed']

end Standby

/-! ### The two histories -/

theorem SameView.refl (host : Host) (bindingId : String) (s : World) :
    SameView host bindingId s s := ⟨fun _ => Iff.rfl, fun _ => Iff.rfl, rfl⟩

section Action

variable {action : ControllerAction}

/-- **The unlock of an asset with a standby.** -/
theorem sameView_standby_iff (hfresh : host.Fresh) (hfixed : FixedStatuses host)
    (hsteady : Steady host) (hup : StartsUp host s bindingId assetId)
    (htype : action.actionType = .unlock) (hid : action.assetId = some assetId)
    (standby : Standby host s bindingId assetId) :
    SameView host bindingId (exec (apply host bindingId [action]) s).2
        (exec (apply host bindingId [action]) (exec (prewarm host bindingId [assetId]) s).2).2 ↔
      standby.Unveiled := by
  obtain ⟨-, -, hlocked⟩ := mem_prewarmAssets (List.mem_of_head? standby.first)
  have hstored := standby.existing_stored hfresh
  have hidle : existingRunningRecord s bindingId standby.asset.assetId = none := by
    rw [standby.same]
    exact standby.idle
  have hprewarm : (exec (prewarm host bindingId [assetId]) s).2 = standby.warmed :=
    exec_prewarm_launched hfresh standby.bound standby.first standby.idle standby.warmLaunches
  have hbound : getByBinding standby.warmed.bindings bindingId = some standby.binding :=
    standby.bound
  have hmeets : existingRunningRecord standby.warmed bindingId standby.asset.assetId = none →
      launchOf host standby.warmed bindingId standby.asset = some standby.launch :=
    fun hnone => absurd (hnone.symm.trans hstored) (by simp)
  obtain ⟨w, hw, hdirect⟩ := unlock_named hsteady standby.bound hlocked standby.nonempty htype hid
    standby.named fun _ => standby.launches
  obtain ⟨w', hw', hmet⟩ := unlock_named hsteady hbound hlocked standby.nonempty htype hid
    standby.named hmeets
  rw [afterStart, existing_sameBackends hw, hidle] at hdirect
  rw [← existing_sameBackends hw'] at hstored
  have hwarmed := (standby.warmed_stored hfresh).sameBackends hw'
  rw [hprewarm]
  refine standby.sameView_met_iff hfixed hup (w := w.logRemovals standby.launch.removals) ?_ ?_
    (hmet.runtimes.trans (standby.runtimes_met hwarmed hstored)) ?_
  · rw [hdirect.runtimes, runtimes_launched hfresh, hw.runtimes]
  · have hroutes := boundRoutes_routesFor (s := w.logRemovals standby.launch.removals) hw.routes host
      (w.logRemovals standby.launch.removals) s bindingId bindingId standby.asset
      standby.attackerKey standby.launch.managed (standby.launch.settings ++ standbyFlag false)
    have hflag : standby.launch.settings ++ standbyFlag false = standby.launch.settings :=
      List.append_nil _
    rw [World.boundRoutes, hdirect.routes, Standby.directRoutes, ← hflag]
    exact hroutes
  · rw [World.boundRoutes, hmet.routes]
    exact standby.boundRoutes_met hwarmed hstored

/-- Nothing is started, and the hidden record stays hidden. -/
theorem sameView_idle (hfixed : FixedStatuses host) {record : AssetRuntimeRecord}
    (h : Warmed s t record) (hu : SameBackends s u) (hv : SameBackends t v) :
    SameView host bindingId u v := by
  have hruntimes := hv.runtimes
  rw [h.runtimes, ← hu.runtimes] at hruntimes
  refine sameView_hidden hfixed hruntimes h.hidden ?_
  rw [World.boundRoutes, World.boundRoutes, hu.routes, hv.routes, h.routes]

/-- Another asset is started, which is what the update of the unlock names. -/
theorem sameView_other (hfresh : host.Fresh) (hfixed : FixedStatuses host)
    (hsteady : Steady host) (hup : StartsUp host s bindingId assetId)
    (htype : action.actionType = .unlock) (hid : action.assetId = some assetId)
    {binding : BindingRecord} (hbinding : getByBinding s.bindings bindingId = some binding)
    (hbound : getByBinding t.bindings bindingId = some binding)
    (hlocked : assetId ∉ binding.unlockedAssets) (hne : assetId ≠ "")
    {record : AssetRuntimeRecord} (h : Warmed s t record) {asset : AssetDefinition}
    (hnamed : namedAsset host bindingId assetId = some asset)
    (hother : record.assetId ≠ asset.assetId) :
    SameView host bindingId (exec (apply host bindingId [action]) s).2
      (exec (apply host bindingId [action]) t).2 := by
  obtain ⟨named, hupdate, hasset⟩ := Option.bind_eq_some_iff.mp hnamed
  obtain ⟨hcatalog, rfl⟩ := assetById_spec hasset
  have hlaunch : ∃ launch, existingRunningRecord s bindingId asset.assetId = none →
      launchOf host s bindingId asset = some launch := by
    by_cases hnone : existingRunningRecord s bindingId asset.assetId = none
    · obtain ⟨launch, hlaunch, -⟩ := hup asset hcatalog (Or.inr hupdate) hnone
      exact ⟨launch, fun _ => hlaunch⟩
    · exact ⟨⟨[], false, []⟩, fun h => absurd h hnone⟩
  obtain ⟨launch, hlaunch⟩ := hlaunch
  have hbeside : existingRunningRecord t bindingId asset.assetId = none →
      launchOf host t bindingId asset = some launch := by
    intro hnone
    rw [existing_warmed h hother] at hnone
    rw [launchOf_steady hsteady t s]
    exact hlaunch hnone
  obtain ⟨w, hw, hu⟩ := unlock_named hsteady hbinding hlocked hne htype hid hnamed hlaunch
  obtain ⟨w', hw', hv⟩ := unlock_named hsteady hbound hlocked hne htype hid hnamed hbeside
  exact sameView_beside hfresh hfixed ((h.sameBackends hw').of_sameBackends hw) hother hu.runtimes
    hu.routes hv.runtimes hv.routes

/-- What the unlock starts meets the backend of the prewarm, or is started beside it. -/
theorem standby_or_beside (hfresh : host.Fresh) (hfixed : FixedStatuses host)
    (hsteady : Steady host) (hup : StartsUp host s bindingId assetId)
    (htype : action.actionType = .unlock) (hid : action.assetId = some assetId)
    {binding : BindingRecord} (hbinding : getByBinding s.bindings bindingId = some binding)
    {warm : AssetDefinition}
    (hfirst : (prewarmAssets host [assetId] binding.unlockedAssets).head? = some warm)
    (hidle : existingRunningRecord s bindingId assetId = none) {warmLaunch : Launch}
    (hwarmLaunch : launchOf host s bindingId warm = some warmLaunch) :
    Nonempty (Standby host s bindingId assetId) ∨
      SameView host bindingId (exec (apply host bindingId [action]) s).2
        (exec (apply host bindingId [action])
          (launched host s bindingId warm warmLaunch none true)).2 := by
  obtain ⟨-, hwarm, hlocked⟩ := mem_prewarmAssets (List.mem_of_head? hfirst)
  have hwarmed := warmed_launched hfresh hwarmLaunch
  have hbound : getByBinding (launched host s bindingId warm warmLaunch none true).bindings
      bindingId = some binding := hbinding
  by_cases hempty : assetId = ""
  · exact Or.inr (sameView_idle hfixed hwarmed (exec_apply_nothing (Or.inr hempty) htype hid)
      (exec_apply_nothing (Or.inr hempty) htype hid))
  · cases hnamed : namedAsset host bindingId assetId with
    | none =>
      exact Or.inr (sameView_idle hfixed hwarmed
        (unlock_unnamed hbinding hlocked hempty htype hid hnamed)
        (unlock_unnamed hbound hlocked hempty htype hid hnamed))
    | some asset =>
      by_cases hsame : asset.assetId = assetId
      · obtain ⟨hcatalog, _⟩ :=
          assetById_spec (Option.bind_eq_some_iff.mp hnamed).choose_spec.2
        obtain ⟨launch, hlaunch, -⟩ := hup asset hcatalog (Or.inl hsame) (hsame ▸ hidle)
        exact Or.inl ⟨⟨binding, warm, warmLaunch, asset, launch, hbinding, hfirst, hidle,
          hempty, hnamed, hsame, hwarmLaunch, hlaunch⟩⟩
      · exact Or.inr (sameView_other hfresh hfixed hsteady hup htype hid hbinding hbound
          hlocked hempty hwarmed hnamed fun heq => hsame (heq.symm.trans hwarm))

/-- **Without a standby** the prewarm makes no difference. -/
theorem standby_or_sameView (hfresh : host.Fresh) (hfixed : FixedStatuses host)
    (hsteady : Steady host) (hup : StartsUp host s bindingId assetId)
    (htype : action.actionType = .unlock) (hid : action.assetId = some assetId) :
    Nonempty (Standby host s bindingId assetId) ∨
      SameView host bindingId (exec (apply host bindingId [action]) s).2
        (exec (apply host bindingId [action])
          (exec (prewarm host bindingId [assetId]) s).2).2 := by
  have hkept : (exec (prewarm host bindingId [assetId]) s).2 = s →
      SameView host bindingId (exec (apply host bindingId [action]) s).2
        (exec (apply host bindingId [action])
          (exec (prewarm host bindingId [assetId]) s).2).2 := by
    intro hsame
    rw [hsame]
    exact SameView.refl host bindingId _
  cases hbinding : getByBinding s.bindings bindingId with
  | none => exact Or.inr (hkept (exec_prewarm_unbound hbinding))
  | some binding =>
    cases hfirst : (prewarmAssets host [assetId] binding.unlockedAssets).head? with
    | none =>
      exact Or.inr (hkept (exec_prewarm_kept hbinding (Or.inl (List.head?_eq_none_iff.mp hfirst))))
    | some warm =>
      cases hidle : existingRunningRecord s bindingId assetId with
      | some record => exact Or.inr (hkept (exec_prewarm_kept hbinding (Or.inr ⟨record, hidle⟩)))
      | none =>
        obtain ⟨hcatalog, hwarm, -⟩ := mem_prewarmAssets (List.mem_of_head? hfirst)
        obtain ⟨warmLaunch, hwarmLaunch, -⟩ := hup warm hcatalog (Or.inl hwarm) (hwarm ▸ hidle)
        rw [exec_prewarm_launched hfresh hbinding hfirst hidle hwarmLaunch]
        exact standby_or_beside hfresh hfixed hsteady hup htype hid hbinding hfirst hidle
          hwarmLaunch

/-- **A prewarm before an unlock makes no difference if and only if its standby is unveiled**, where
it leaves one. -/
theorem prewarm_invisible_iff (hfresh : host.Fresh) (hfixed : FixedStatuses host)
    (hsteady : Steady host) (hup : StartsUp host s bindingId assetId) :
    Invisible host s bindingId assetId ↔
      ∀ standby : Standby host s bindingId assetId, standby.Unveiled := by
  constructor
  · intro hinvisible standby
    have hview := hinvisible
      { actionType := .unlock, bindingId, assetId := some assetId, reason := "" } rfl rfl
    exact (sameView_standby_iff hfresh hfixed hsteady hup rfl rfl standby).mp hview
  · intro hunveiled action htype hid
    rcases standby_or_sameView hfresh hfixed hsteady hup htype hid with ⟨⟨standby⟩⟩ | hview
    · exact (sameView_standby_iff hfresh hfixed hsteady hup htype hid standby).mpr
        (hunveiled standby)
    · exact hview

end Action

/-! ### Settings without the keys of a start -/

/-- The settings of the asset have none of the keys by which a record is hidden or routed. -/
def Plain (asset : AssetDefinition) : Prop :=
  ∀ key ∈ ["warm_standby_hidden", "asset_gateway_managed", "port_mappings", "backend_ip"],
    key ∉ asset.defaultSettings.map Prod.fst

/-- A key that the asset leaves alone is recorded as the start has it. -/
theorem lookup_startedRecord {asset : AssetDefinition} {launch : Launch} (hregular : launch.Regular)
    {key : String} (hkey : key ∉ asset.defaultSettings.map Prod.fst)
    (hflag : key ≠ "warm_standby_hidden") (warmStandby : Bool) :
    (startedRecord host s bindingId asset launch warmStandby).settings.lookup key =
      launch.settings.lookup key := by
  rw [startedRecord, runtimeRecordFromAsset, update_append, lookup_standbyFlag _ _ hflag]
  exact lookup_update_of_nodup hkey (List.nodup_cons.mp hregular.nodup).2

/-- **The standby of a plain asset is unveiled exactly if the gateway routes it**: docker or compose
start it, with the ports of the gateway, and there is an attacker. -/
theorem Standby.unveiled_iff_of_plain (standby : Standby host s bindingId assetId)
    (hplain : Plain standby.asset) (hwarm : standby.warm = standby.asset) :
    standby.Unveiled ↔ hasBackend standby.asset = true ∧
      (given standby.attackerKey).isSome = true ∧
        (standby.launch.settings.get "asset_gateway_managed").isTrue = true := by
  have hregular := regular_launchOf standby.launches
  have hlaunch : standby.warmLaunch = standby.launch := by
    have hsame := standby.warmLaunches
    rw [hwarm] at hsame
    exact Option.some.inj (hsame.symm.trans standby.launches)
  have hlookup : ∀ key ∈ ["warm_standby_hidden", "asset_gateway_managed", "port_mappings",
      "backend_ip"], key ≠ "warm_standby_hidden" →
        standby.record.settings.lookup key = standby.launch.settings.lookup key := by
    intro key hkey hflag
    rw [Standby.record, hwarm, hlaunch]
    exact lookup_startedRecord hregular (hplain key hkey) hflag true
  have hmanaged : standby.record.managed =
      (standby.launch.settings.get "asset_gateway_managed").isTrue := by
    rw [AssetRuntimeRecord.managed, Settings.get, Settings.get,
      hlookup _ (by simp) (by decide)]
  have hshown : hiddenSetting standby.asset.defaultSettings = false := by
    have hnone := mt lookup_isSome_iff.mp (hplain "warm_standby_hidden" (by simp))
    rw [Option.not_isSome_iff_eq_none] at hnone
    rw [hiddenSetting, Settings.get, hnone]
    rfl
  have hattaches : standby.attaches = true ↔ hasBackend standby.asset = true ∧
      (given standby.attackerKey).isSome = true ∧
        (standby.launch.settings.get "asset_gateway_managed").isTrue = true := by
    rw [Standby.attaches, hmanaged, Bool.and_eq_true, Bool.and_eq_true, and_assoc]
  rw [← hattaches]
  constructor
  · exact fun hunveiled => hunveiled.shown.mpr hshown
  · intro hattached
    refine ⟨iff_of_true hattached hshown, ?_⟩
    have hroutes : ∀ key, gatewayRoutes host s bindingId key standby.asset
        standby.record.settings =
          gatewayRoutes host s bindingId key standby.asset standby.launch.settings := fun key =>
      gatewayRoutes_congr key standby.asset (hlookup "port_mappings" (by simp) (by decide))
        (hlookup "backend_ip" (by simp) (by decide))
    rw [Standby.routes, Standby.directRoutes, hattached,
      hregular.managed (hattaches.mp hattached).2.2, routesFor, routesFor]
    simp only [hroutes]

end Histories

/-! ### A standby that stays hidden -/

/-- A mock start succeeds, and a mock is up. -/
theorem portal_startsUp :
    StartsUp (quietHost standbyCatalog) boundWorld "u" "internal-portal" := by
  have hupdate : newAssetId (exposesUpdate "u" "internal-portal") = some "internal-portal" := by
    decide +kernel
  rw [StartsUp, hupdate]
  refine List.forall_mem_cons.mpr ⟨fun hid _ => absurd hid (by decide), ?_⟩
  refine List.forall_mem_singleton.mpr fun _ _ => ⟨{ settings := [], managed := false }, ?_, ?_⟩
  · rw [launchOf, if_neg (by decide), if_neg (by decide)]
  · exact ⟨fun hbackend => absurd hbackend (by decide), fun hbackend => absurd hbackend (by decide)⟩

theorem portal_visible :
    ¬ Invisible (quietHost standbyCatalog) boundWorld "u" "internal-portal" := by
  intro h
  have hview := h (unlockOf "internal-portal") rfl rfl
  have hdirect : "internal-portal" ∈ listAccessibleAssetIds (quietHost standbyCatalog)
      (exec (apply (quietHost standbyCatalog) "u" [unlockOf "internal-portal"]) boundWorld).2
        "u" := by decide +kernel
  exact absurd ((hview.accessible _).mp hdirect) (by decide +kernel)

theorem standby_veiled : ¬ ∀ standby : Standby (quietHost standbyCatalog) boundWorld "u"
    "internal-portal", standby.Unveiled := by
  intro h
  exact portal_visible ((prewarm_invisible_iff (quietHost_fresh standbyCatalog)
    ⟨fun _ _ => rfl, fun _ _ => rfl⟩ ⟨fun _ _ => rfl, fun _ _ => rfl, fun _ _ => rfl⟩
      portal_startsUp).mpr h)

/-- **A mock that was prewarmed is not reachable** after its unlock. -/
theorem standby_kept_hidden : ¬ ∀ (host : Host) (s : World) (bindingId assetId : String),
    host.Fresh → FixedStatuses host → Steady host → StartsUp host s bindingId assetId →
      Invisible host s bindingId assetId := by
  intro h
  exact portal_visible (h _ _ _ _ (quietHost_fresh standbyCatalog) ⟨fun _ _ => rfl, fun _ _ => rfl⟩
    ⟨fun _ _ => rfl, fun _ _ => rfl, fun _ _ => rfl⟩ portal_startsUp)

end Honeynet.Orchestrator
