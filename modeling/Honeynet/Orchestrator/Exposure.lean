import Honeynet.Lib.Transition
import Honeynet.Orchestrator.Keeps

/-!
# What is exposed has been unlocked

The bindings, the runtime records and the routes are stored apart from each other, and warm
standbys are started by the code that starts real unlocks.

* `Confined`: a record that is not hidden, and a route, is of an asset its binding has unlocked.
* `confined_started`, `confined_stop`, `confined_grow`: each kind of write keeps it.
* `Readable`: the route updates of a requested asset are read back as assets that are unlocked.
* `exposure_implies_unlock`: along calls that are all readable, the stores are confined.
* `embedded_marker`: an asset whose id has a marker in it starts another asset.
-/

namespace Honeynet.Orchestrator

open Collections Binding Effect Relation

/-! ### Confined stores -/

/-- The asset is unlocked for the binding. -/
def Unlocked (bindings : List BindingRecord) (bindingId assetId : String) : Prop :=
  ∃ record, getByBinding bindings bindingId = some record ∧ assetId ∈ record.unlockedAssets

/-- The route is for the attacker of its binding, and to an asset it has unlocked. -/
def RouteUnlocked (bindings : List BindingRecord) (route : GatewayRoute) : Prop :=
  ∃ record, getByBinding bindings route.bindingId = some record ∧
    route.attackerKey = record.attackerKey ∧ route.assetId ∈ record.unlockedAssets

/-- The record is hidden, or of an asset that is unlocked. -/
def RecordUnlocked (bindings : List BindingRecord) (record : AssetRuntimeRecord) : Prop :=
  record.hidden = false → Unlocked bindings record.bindingId record.assetId

/-- **Nothing is exposed that is not unlocked.** -/
structure Confined (w : World) : Prop where
  runtimes : ∀ record ∈ w.runtimes, RecordUnlocked w.bindings record
  routes : ∀ route ∈ w.routes, RouteUnlocked w.bindings route

/-- The bindings hold what they held, and perhaps more. -/
def Grows (bindings bindings' : List BindingRecord) : Prop :=
  ∀ bindingId record, getByBinding bindings bindingId = some record →
    ∃ record', getByBinding bindings' bindingId = some record' ∧
      record'.attackerKey = record.attackerKey ∧ record.unlockedAssets ⊆ record'.unlockedAssets

theorem confined_grow {w : World} {bindings : List BindingRecord} (h : Confined w)
    (hgrow : Grows w.bindings bindings) : Confined { w with bindings } := by
  constructor
  · intro record hrecord hshown
    obtain ⟨r, hr, hasset⟩ := h.runtimes record hrecord hshown
    obtain ⟨r', hr', _, hsub⟩ := hgrow _ r hr
    exact ⟨r', hr', hsub hasset⟩
  · intro route hroute
    obtain ⟨r, hr, hkey, hasset⟩ := h.routes route hroute
    obtain ⟨r', hr', hkey', hsub⟩ := hgrow _ r hr
    exact ⟨r', hr', hkey.trans hkey'.symm, hsub hasset⟩

theorem confined_upsert {w : World} {record : AssetRuntimeRecord} (h : Confined w)
    (hrecord : RecordUnlocked w.bindings record) : Confined (w.upsertRuntime record) := by
  refine ⟨?_, h.routes⟩
  intro r hr
  rcases mem_upsertRuntime hr with rfl | ⟨hr, _⟩
  · exact hrecord
  · exact h.runtimes r hr

theorem confined_routes {w : World} {new : List GatewayRoute} (h : Confined w)
    (hnew : ∀ route ∈ new, RouteUnlocked w.bindings route) : Confined (w.replaceRoutes new) := by
  refine ⟨h.runtimes, ?_⟩
  intro route hroute
  rcases mem_replaceRoutes hroute with hroute | hroute
  · exact h.routes route hroute
  · exact hnew route hroute

/-- Removed containers expose nothing. -/
theorem confined_log {w : World} (h : Confined w) (removals : List String) :
    Confined { w with removals } := ⟨h.runtimes, h.routes⟩

theorem confined_vacated {s w : World} {bindingId assetId : String} {replaces : Bool}
    (h : Confined s) (hw : Vacated bindingId assetId replaces s w) : Confined w := by
  cases hw with
  | kept => exact confined_log h _
  | stopped _ hold =>
    obtain ⟨hmem, _⟩ := existingRunningRecord_spec hold
    have hunlocked := h.runtimes _ hmem
    exact confined_upsert (confined_log h _) fun hshown => hunlocked hshown

/-! ### Starts -/

/-- A start may show an asset only to the attacker of a binding that has unlocked it; a warm
standby is for nobody. -/
def Permitted (bindings : List BindingRecord) (bindingId assetId : String)
    (attacker : Option String) (warmStandby : Bool) : Prop :=
  (warmStandby = true ∧ attacker = none) ∨
    ∃ record, getByBinding bindings bindingId = some record ∧ assetId ∈ record.unlockedAssets ∧
      ∀ key, attacker = some key → key = record.attackerKey

theorem confined_started {host : Host} {bindingId : String} {asset : AssetDefinition}
    {attacker : Option String} {warmStandby replaces : Bool} {s t : World} (h : Confined s)
    (hpermitted : Permitted s.bindings bindingId asset.assetId attacker warmStandby)
    (hstart : Started host bindingId asset attacker warmStandby replaces s t) : Confined t := by
  have hroutes : ∀ new, RoutesOf attacker bindingId asset.assetId new →
      ∀ route ∈ new, RouteUnlocked s.bindings route := by
    intro new hnew route hroute
    obtain ⟨hkey, hbinding, hasset⟩ := hnew route hroute
    rcases hpermitted with ⟨_, hnone⟩ | ⟨record, hrecord, hunlocked, hattacker⟩
    · rw [hnone] at hkey
      exact absurd hkey (by simp)
    · rw [RouteUnlocked, hbinding, hasset]
      exact ⟨record, hrecord, hattacker _ hkey, hunlocked⟩
  have hunlocked : warmStandby = false ∨ attacker.isSome →
      Unlocked s.bindings bindingId asset.assetId := by
    rintro hshown
    rcases hpermitted with ⟨rfl, rfl⟩ | ⟨record, hrecord, hasset, _⟩
    · exact absurd hshown (by simp)
    · exact ⟨record, hrecord, hasset⟩
  cases hstart with
  | reused => exact h
  | routed _ _ hnew => exact confined_routes h (hroutes _ hnew)
  | shown hrecord hattacker hnew =>
    obtain ⟨_, hbinding, hasset, _⟩ := existingRunningRecord_spec hrecord
    refine confined_upsert (confined_routes h (hroutes _ hnew)) fun _ => ?_
    rw [replaceRoutes_bindings, hbinding, hasset]
    exact hunlocked (Or.inr hattacker)
  | launched hw _ hhidden hnew =>
    have hbindings := bindings_vacated hw
    refine confined_upsert (confined_routes (confined_vacated h hw) ?_) ?_
    · rw [hbindings]
      exact hroutes _ hnew
    · intro hshown
      rw [replaceRoutes_bindings, hbindings]
      have hvisible : (warmStandby || hiddenSetting asset.defaultSettings) = false :=
        hhidden.symm.trans hshown
      exact hunlocked (Or.inl (Bool.or_eq_false_iff.mp hvisible).1)
  | failed hw hhidden =>
    refine confined_upsert (confined_vacated h hw) fun hshown => ?_
    rw [bindings_vacated hw]
    exact hunlocked (Or.inl (hhidden.symm.trans hshown))

/-! ### Binding operations -/

/-- **A binding operation takes nothing from any binding.** -/
theorem grows_of_call {c : Binding.Call} {op : BindingOp} {records records' : List BindingRecord}
    {record : BindingRecord} (hfresh : c.uuid ∉ records.map BindingRecord.bindingId)
    (h : op.call c records = .ok (record, records')) :
    Grows records records' ∧ getByBinding records' record.bindingId = some record ∧
      (∀ bindingId, op.target = some bindingId → record.bindingId = bindingId) ∧
      ∀ assetId ∈ op.ownAssets, assetId ∈ record.unlockedAssets := by
  obtain ⟨written, hwrite, heq⟩ := Fallible.bind_eq_ok.mp h
  obtain ⟨rfl, rfl⟩ := Prod.mk.inj (Except.ok.inj heq)
  have hother : ∀ {bindingId : String} {r : BindingRecord}, bindingId ≠ written.bindingId →
      getByBinding records bindingId = some r →
      ∃ r', getByBinding (upsert written records) bindingId = some r' ∧
        r'.attackerKey = r.attackerKey ∧ r.unlockedAssets ⊆ r'.unlockedAssets := by
    intro bindingId r hne hr
    exact ⟨r, by rw [getByBinding_upsert_ne _ _ hne]; exact hr, rfl, fun _ => id⟩
  rcases BindingOp.write_keeps hwrite with halloc | ⟨old, hold, hextends⟩
  · -- the id of a new binding is stored nowhere
    refine ⟨?_, getByBinding_upsert_self written records, ?_, ?_⟩
    · intro bindingId r hr
      refine hother ?_ hr
      rintro rfl
      rw [halloc.bindingId] at hr
      rw [getByBinding_eq] at hr
      obtain ⟨hmem, hid⟩ := findLast_mem hr
      exact hfresh (hid ▸ List.mem_map_of_mem hmem)
    · obtain ⟨attackerKey, hop, _⟩ := halloc.op
      rw [hop]
      exact fun _ ht => absurd ht (by simp [BindingOp.target])
    · obtain ⟨attackerKey, hop, _⟩ := halloc.op
      rw [hop]
      exact fun _ ha => absurd ha (by simp [BindingOp.ownAssets])
  · obtain ⟨hget, htarget⟩ := BindingOp.read_spec hold
    refine ⟨?_, getByBinding_upsert_self written records, ?_, ?_⟩
    · intro bindingId r hr
      by_cases hid : bindingId = written.bindingId
      · subst hid
        rw [hextends.bindingId, hget] at hr
        obtain rfl := Option.some.inj hr
        exact ⟨written, getByBinding_upsert_self written records, hextends.attackerKey,
          fun a ha => hextends.unlocked a (Or.inl ha)⟩
      · exact hother hid hr
    · exact fun bindingId ht => hextends.bindingId.trans (htarget bindingId ht)
    · exact fun a ha => hextends.unlocked a (Or.inr ha)

/-- The stores are confined, and `record` is the binding that is stored. -/
structure Bound (bindingId : String) (record : BindingRecord) (w : World) : Prop where
  confined : Confined w
  stored : getByBinding w.bindings bindingId = some record

theorem Bound.bindingId {bindingId : String} {record : BindingRecord} {w : World}
    (h : Bound bindingId record w) : record.bindingId = bindingId :=
  bindingId_of_getByBinding h.stored

theorem bound_of_call {host : Host} (hfresh : host.Fresh) {op : BindingOp} {bindingId : String}
    (htarget : op.target = some bindingId) {w : World} (hw : Confined w) {record : BindingRecord}
    {records : List BindingRecord}
    (h : op.call ⟨host.ttl, host.now w, host.bindingUuid w⟩ w.bindings = .ok (record, records)) :
    Bound bindingId record { w with bindings := records } := by
  obtain ⟨hgrow, hget, hid, _⟩ := grows_of_call (hfresh.binding w) h
  exact ⟨confined_grow hw hgrow, hid bindingId htarget ▸ hget⟩

theorem callBinding_bound {host : Host} (hfresh : host.Fresh) {op : BindingOp}
    {bindingId : String} (htarget : op.target = some bindingId) :
    Triple Confined (callBinding host op) (Bound bindingId) Confined := by
  refine Triple.of_forall fun w hw => (callBinding_spec host op w).conseq (fun _ => id) ?_ ?_
  · rintro record _ ⟨records, hcall, rfl⟩
    exact bound_of_call hfresh htarget hw hcall
  · rintro _ rfl
    exact hw

/-! ### Actions -/

section Actions

variable {host : Host} {bindingId : String} {binding : BindingRecord}

theorem unlockedAssets_of_call {c : Binding.Call} {assetIds : List String}
    {records records' : List BindingRecord} {updated : BindingRecord}
    (hget : getByBinding records bindingId = some binding)
    (h : (BindingOp.unlockAssets bindingId assetIds).call c records = .ok (updated, records')) :
    updated.unlockedAssets = appendNew binding.unlockedAssets assetIds := by
  obtain ⟨written, hwrite, heq⟩ := Fallible.bind_eq_ok.mp h
  obtain ⟨rfl, rfl⟩ := Prod.mk.inj (Except.ok.inj heq)
  simp only [BindingOp.write, BindingOp.read, hget, unlockAssets] at hwrite
  rw [← Except.ok.inj hwrite]

theorem applyUnlocks_spec (hfresh : host.Fresh) {assetIds : List String} :
    Triple (Bound bindingId binding) (applyUnlocks host binding bindingId assetIds)
      (fun out w => Bound bindingId out.1 w ∧
        out.1.unlockedAssets = appendNew binding.unlockedAssets assetIds ∧
        out.2 = unlockRouteUpdates bindingId binding.unlockedAssets
          (appendNew binding.unlockedAssets assetIds) assetIds) Confined := by
  refine Triple.of_forall fun w hw => ?_
  refine ((callBinding_spec host (.unlockAssets bindingId assetIds) w).conseq (fun _ => id)
    (fun _ _ => id) ?_).bind fun updated => Triple.pure ?_
  · rintro _ rfl
    exact hw.confined
  · rintro _ ⟨records, hcall, rfl⟩
    have hunlocked := unlockedAssets_of_call hw.stored hcall
    exact ⟨bound_of_call hfresh rfl hw.confined hcall, hunlocked, by rw [hunlocked]⟩

/-- The asset is unlocked for the binding, or the catalog does not have it. -/
def Startable (host : Host) (binding : BindingRecord) (assetId : String) : Prop :=
  assetId ∈ binding.unlockedAssets ∨ ∀ asset ∈ host.catalog, asset.assetId ≠ assetId

theorem startEach_spec {runtimeOverride : String → Option Settings} {assetIds : List String}
    (hstart : ∀ assetId ∈ assetIds, Startable host binding assetId) {E : World → Prop} :
    Triple (Bound bindingId binding) (startEach host binding runtimeOverride assetIds)
      (fun _ => Bound bindingId binding) E := by
  refine startEach_keeps ?_
  intro asset replaces w t hasset hmem _ hw hstarted
  have hunlocked : asset.assetId ∈ binding.unlockedAssets :=
    (hstart asset.assetId hmem).resolve_right fun h => h asset hasset rfl
  have hpermitted : Permitted w.bindings binding.bindingId asset.assetId
      (given (some binding.attackerKey)) false := by
    refine Or.inr ⟨binding, hw.bindingId ▸ hw.stored, hunlocked, ?_⟩
    intro key hkey
    exact (Option.some.inj (Option.filter_eq_some_iff.mp hkey).1).symm
  exact ⟨confined_started hw.confined hpermitted hstarted,
    (bindings_started hstarted).symm ▸ hw.stored⟩

/-- The route updates of a requested asset are read back as assets that may be started. -/
def Readable (host : Host) (bindingId : String) (binding : BindingRecord) (assetId : String) :
    Prop :=
  let unlocked := appendNew binding.unlockedAssets [assetId]
  ∀ named ∈ newAssetIdsFromRouteUpdates
      (unlockRouteUpdates bindingId binding.unlockedAssets unlocked [assetId]),
    named ∈ unlocked ∨ ∀ asset ∈ host.catalog, asset.assetId ≠ named

theorem unlockAction_spec (hfresh : host.Fresh) {assetId : String}
    (hreadable : Readable host bindingId binding assetId) :
    Triple (Bound bindingId binding) (unlockAction host bindingId binding assetId)
      (fun progress => Bound bindingId progress.binding) Confined := by
  refine (applyUnlocks_spec hfresh).bind fun out => ?_
  refine (Triple.of_and fun hout => ?_)
  obtain ⟨hunlocked, hupdates⟩ := hout
  refine (startEach_spec ?_).bind fun _ => Triple.pure fun _ h => h
  intro named hnamed
  rw [hupdates] at hnamed
  rw [Startable, hunlocked]
  exact hreadable named hnamed

theorem revealTarget_spec (hfresh : host.Fresh) {target : Option String}
    {targetRuntime : Option Settings}
    (hreadable : ∀ assetId ∈ target, Readable host bindingId binding assetId) :
    Triple (Bound bindingId binding) (revealTarget host bindingId binding target targetRuntime)
      (fun progress => Bound bindingId progress.binding) Confined := by
  cases target with
  | none => exact Triple.pure fun _ h => h
  | some target =>
    refine (applyUnlocks_spec hfresh).bind fun out => ?_
    refine (Triple.of_and fun hout => ?_)
    obtain ⟨hunlocked, hupdates⟩ := hout
    refine (startEach_spec ?_).bind fun _ => Triple.pure fun _ h => h
    intro named hnamed
    rw [Startable, hunlocked]
    rcases List.mem_append.mp hnamed with hnamed | hnamed
    · rw [hupdates] at hnamed
      exact hreadable target rfl named hnamed
    · -- the target itself, where its update was read back as something else
      have htarget : named = target := by
        by_cases hin : target ∈ newAssetIdsFromRouteUpdates out.2
        · rw [if_pos hin] at hnamed
          exact absurd hnamed List.not_mem_nil
        · rw [if_neg hin] at hnamed
          exact List.mem_singleton.mp hnamed
      exact Or.inl (by rw [htarget]; simp)

theorem applyAssetConfiguration_spec {now : Bool} {assetId configurationId : String}
    {configuration : Settings} :
    Triple (Bound bindingId binding)
      (applyAssetConfiguration host now binding assetId configurationId configuration)
      (fun _ => Bound bindingId binding) Confined := by
  refine Triple.ite (fun _ => ?_) fun _ => Triple.pure fun _ h => h
  refine Triple.of_forall fun w hw => (applyConfiguration_spec.conseq (fun _ => id) ?_ ?_).bind
    fun _ => Triple.pure fun _ h => h
  · intro record t hconfigured
    cases hconfigured with
    | none => exact hw
    | updated hrecord hhidden =>
      obtain ⟨hmem, _⟩ := existingRunningRecord_spec hrecord
      have hunlocked := hw.confined.runtimes _ hmem
      exact ⟨confined_upsert hw.confined fun hshown => hunlocked (hhidden.symm.trans hshown),
        hw.stored⟩
  · rintro _ rfl
    exact hw.confined

theorem revealConfigurations_spec (hfresh : host.Fresh)
    {configurations : Dict String (List String)} :
    Triple (Bound bindingId binding)
      (callBinding host (.revealConfigurations bindingId configurations))
      (fun updated w => Bound bindingId updated w ∧
        updated.unlockedAssets = binding.unlockedAssets) Confined := by
  refine Triple.of_forall fun w hw => (callBinding_spec host _ w).conseq (fun _ => id) ?_ ?_
  · rintro updated _ ⟨records, hcall, rfl⟩
    refine ⟨bound_of_call hfresh rfl hw.confined hcall, ?_⟩
    obtain ⟨written, hwrite, heq⟩ := Fallible.bind_eq_ok.mp hcall
    obtain ⟨rfl, rfl⟩ := Prod.mk.inj (Except.ok.inj heq)
    simp only [BindingOp.write, BindingOp.read, hw.stored, revealConfigurations] at hwrite
    rw [← Except.ok.inj hwrite]
  · rintro _ rfl
    exact hw.confined

theorem readable_congr {updated : BindingRecord} {assetId : String}
    (h : updated.unlockedAssets = binding.unlockedAssets)
    (hreadable : Readable host bindingId binding assetId) :
    Readable host bindingId updated assetId := by
  rw [Readable, h]
  exact hreadable

theorem configureAction_spec (hfresh : host.Fresh) {assetId configurationId : String}
    {action : ControllerAction}
    (hreadable : ∀ target ∈ given action.targetAssetId, Readable host bindingId binding target) :
    Triple (Bound bindingId binding)
      (configureAction host bindingId assetId configurationId action)
      (fun progress => Bound bindingId progress.binding) Confined := by
  refine (revealConfigurations_spec hfresh).bind fun updated => Triple.of_and fun hsame => ?_
  refine applyAssetConfiguration_spec.bind fun _ => ?_
  refine (revealTarget_spec hfresh fun target ht =>
    readable_congr hsame (hreadable target ht)).bind fun progress => ?_
  exact applyAssetConfiguration_spec.bind fun _ => Triple.pure fun _ h => h

theorem recycleAction_spec (hfresh : host.Fresh) :
    Triple (Bound bindingId binding) (recycleAction host bindingId)
      (fun progress => Bound bindingId progress.binding) Confined := by
  refine Triple.of_forall fun w hw => ?_
  have hstops : Triple (fun t => Confined t ∧ t.bindings = w.bindings)
      (stopBindingAssets host bindingId)
      (fun _ t => Confined t ∧ t.bindings = w.bindings)
      (fun t => Confined t ∧ t.bindings = w.bindings) :=
    stopBindingAssets_spec (C := RecordUnlocked w.bindings)
      (fun t ht record hrecord _ => ht.2 ▸ ht.1.runtimes record (List.mem_filter.mp hrecord).1)
      (fun t _ ht => ⟨confined_log ht.1 _, ht.2⟩)
      (fun t record ht hrecord => ⟨confined_upsert ht.1 (ht.2 ▸ hrecord), ht.2⟩)
  refine (hstops.conseq ?_ (fun _ _ => And.left) (fun _ => And.left)).bind fun _ => ?_
  · rintro _ rfl
    exact ⟨hw.confined, rfl⟩
  · exact (callBinding_bound hfresh rfl).bind fun _ => Triple.pure fun _ h => h

/-- The asset an action asks to unlock. -/
def requested (action : ControllerAction) : Option String :=
  match action.actionType, given action.assetId, given action.configurationId with
  | .unlock, some assetId, _ => some assetId
  | .configure, some _, some _ => given action.targetAssetId
  | _, _, _ => none

theorem applyAction_spec (hfresh : host.Fresh) {action : ControllerAction}
    (hreadable : ∀ assetId ∈ requested action, Readable host bindingId binding assetId) :
    Triple (Bound bindingId binding) (applyAction host bindingId binding action)
      (fun progress => Bound bindingId progress.binding) Confined := by
  rw [requested] at hreadable
  rw [applyAction]
  split
  · rename_i htype hasset
    simp only [htype, hasset] at hreadable
    exact unlockAction_spec hfresh (hreadable _ rfl)
  · rename_i htype hasset hconfiguration
    simp only [htype, hasset, hconfiguration] at hreadable
    exact configureAction_spec hfresh hreadable
  · exact Triple.pure fun _ h => h
  · exact recycleAction_spec hfresh
  · exact Triple.pure fun _ h => h

end Actions

/-! ### Calls and runs -/

section Calls

variable {host : Host} {bindingId : String}

/-- Every action reads back its own route updates, in the state it meets. -/
def ReadableFrom (host : Host) (bindingId : String) :
    World → BindingRecord → List ControllerAction → Prop
  | _, _, [] => True
  | w, binding, action :: actions =>
    (∀ assetId ∈ requested action, Readable host bindingId binding assetId) ∧
      ∀ first t, exec (applyAction host bindingId binding action) w = (.ok first, t) →
        ReadableFrom host bindingId t first.binding actions

theorem applyActions_spec (hfresh : host.Fresh) {binding : BindingRecord}
    {actions : List ControllerAction} :
    Triple (fun w => Bound bindingId binding w ∧ ReadableFrom host bindingId w binding actions)
      (applyActions host bindingId binding actions)
      (fun progress => Bound bindingId progress.binding) Confined := by
  induction actions generalizing binding with
  | nil => exact Triple.pure fun _ h => h.1
  | cons action actions ih =>
    refine Triple.of_forall fun w hw => ?_
    obtain ⟨hbound, hreadable, hrest⟩ := hw
    refine ((applyAction_spec hfresh hreadable).with_exec hbound).bind fun first => ?_
    exact (ih.pre fun t ht => ⟨ht.1, hrest first t ht.2⟩).bind fun _ => Triple.pure fun _ h => h

theorem apply_spec (hfresh : host.Fresh) {actions : List ControllerAction} :
    Triple (fun w => Confined w ∧ ∀ binding, getByBinding w.bindings bindingId = some binding →
        ReadableFrom host bindingId w binding actions)
      (apply host bindingId actions) (fun _ => Confined) Confined := by
  refine (getBinding_spec.conseq (fun _ => id) (fun _ _ => id) fun _ => And.left).bind
    fun binding => ?_
  refine ((applyActions_spec hfresh).pre ?_).bind fun progress => ?_
  · rintro w ⟨⟨hconfined, hreadable⟩, hstored⟩
    exact ⟨⟨hconfined, hstored⟩, hreadable binding hstored⟩
  · exact (Triple.modify fun w hw => ⟨hw.confined.runtimes, hw.confined.routes⟩).bind
      fun _ => Triple.pure fun _ h => h

theorem prewarm_spec {assetIds : List String} :
    Triple Confined (prewarm host bindingId assetIds) (fun _ => Confined) Confined :=
  prewarm_keeps fun _ hw hstarted => confined_started hw (Or.inl ⟨rfl, rfl⟩) hstarted

end Calls

/-- A call whose actions all read back their own route updates. -/
def ReadableStep (s t : World) : Prop :=
  ∃ host call, Host.Fresh host ∧ Call.run host s call = t ∧
    ∀ bindingId actions, call = .apply bindingId actions →
      ∀ binding, getByBinding s.bindings bindingId = some binding →
        ReadableFrom host bindingId s binding actions

theorem confined_step {s t : World} (h : ReadableStep s t) (hs : Confined s) : Confined t := by
  obtain ⟨host, call, hfresh, rfl, hreadable⟩ := h
  cases call with
  | binding op =>
    refine Triple.after (x := callBinding host op) ?_ hs
    refine Triple.of_forall fun w hw => (callBinding_spec host op w).conseq (fun _ => id) ?_ ?_
    · rintro record _ ⟨records, hcall, rfl⟩
      exact confined_grow hw (grows_of_call (hfresh.binding w) hcall).1
    · rintro _ rfl
      exact hw
  | apply bindingId actions =>
    exact (apply_spec hfresh).after ⟨hs, hreadable bindingId actions rfl⟩
  | prewarm bindingId assetIds => exact prewarm_spec.after hs

theorem unlocked_of_mem_unionOf {w : World} (h : Confined w) {bindingId assetId : String}
    {counts : List (AssetRuntimeRecord → Bool)}
    (hcounts : ∀ count ∈ counts, ∀ record, count record → record.hidden = false)
    (hasset : assetId ∈ unionOf counts (w.listByBinding bindingId)) :
    Unlocked w.bindings bindingId assetId := by
  rw [unionOf, mem_appendNew] at hasset
  obtain ⟨count, hcount, hmem⟩ := List.mem_flatMap.mp (hasset.resolve_left List.not_mem_nil)
  obtain ⟨record, hrecord, rfl⟩ := List.mem_map.mp hmem
  obtain ⟨hrecord, hcounted⟩ := List.mem_filter.mp hrecord
  obtain ⟨hrecord, hbinding⟩ := List.mem_filter.mp hrecord
  have hunlocked := h.runtimes record hrecord (hcounts count hcount record hcounted)
  rwa [beq_iff_eq.mp hbinding] at hunlocked

/-- **Exposure implies unlock**: what a binding can reach, what it has failed to reach and where
its routes lead has been unlocked for it. -/
theorem exposure_implies_unlock {w : World} (h : ReflTransGen ReadableStep {} w) (host : Host)
    (bindingId : String) :
    (∀ assetId ∈ listAccessibleAssetIds host w bindingId,
        Unlocked w.bindings bindingId assetId) ∧
      (∀ assetId ∈ listFailedAssetIds host w bindingId,
        Unlocked w.bindings bindingId assetId) ∧
      ∀ route ∈ w.routes, route.bindingId = bindingId → RouteUnlocked w.bindings route := by
  have hinit : Confined {} :=
    ⟨fun _ h => absurd h List.not_mem_nil, fun _ h => absurd h List.not_mem_nil⟩
  have hconfined : Confined w :=
    Transition.invariant_of_step (P := Confined) (fun _ _ => confined_step) h hinit
  refine ⟨fun assetId hasset => unlocked_of_mem_unionOf hconfined ?_ hasset,
    fun assetId hasset => unlocked_of_mem_unionOf hconfined ?_ hasset,
    fun route hroute _ => hconfined.routes route hroute⟩
  · intro count hcount record hcounted
    simp only [List.mem_cons, List.not_mem_nil, or_false] at hcount
    rcases hcount with rfl | rfl | rfl
    · simp only [composeRecordIsAccessible, Bool.and_eq_true, Bool.not_eq_true'] at hcounted
      exact hcounted.1.1.1
    · simp only [runtimeRecordIsAccessible, Bool.and_eq_true, Bool.not_eq_true'] at hcounted
      exact hcounted.1.1
    · simp only [mockRecordIsAccessible, Bool.and_eq_true, Bool.not_eq_true'] at hcounted
      exact hcounted.1.2
  · intro count hcount record hcounted
    simp only [List.mem_cons, List.not_mem_nil, or_false] at hcount
    rcases hcount with rfl | rfl | rfl
    · simp only [composeRecordIsFailed, Bool.and_eq_true, Bool.not_eq_true'] at hcounted
      exact hcounted.1.1
    · simp only [runtimeRecordIsFailed, Bool.and_eq_true, Bool.not_eq_true'] at hcounted
      exact hcounted.1
    · simp only [Bool.and_eq_true, Bool.not_eq_true'] at hcounted
      exact hcounted.1

/-! ### Two runs -/

theorem bound_readable : ReadableStep {} boundWorld :=
  ⟨quietHost gitCatalog, _, quietHost_fresh gitCatalog, rfl, by simp⟩

/-- What is unlocked for a binding, as a list. -/
theorem unlocked_iff_of_map {bindings : List BindingRecord} {bindingId assetId : String}
    {assetIds : List String}
    (h : (getByBinding bindings bindingId).map BindingRecord.unlockedAssets = some assetIds) :
    Unlocked bindings bindingId assetId ↔ assetId ∈ assetIds := by
  obtain ⟨record, hrecord, hassets⟩ := Option.map_eq_some_iff.mp h
  constructor
  · rintro ⟨r, hr, hmem⟩
    rw [hrecord] at hr
    rw [← hassets, Option.some.inj hr]
    exact hmem
  · intro hmem
    exact ⟨record, hrecord, hassets ▸ hmem⟩

/-- The repository is unlocked, and is what the attacker reaches. -/
theorem git_unlocked : ∃ w, ReflTransGen ReadableStep {} w ∧
    listAccessibleAssetIds (quietHost gitCatalog) w "u" = ["git-internal"] ∧
    Unlocked w.bindings "u" "git-internal" := by
  have hunlock : ReadableStep boundWorld (unlockedWorld "git-internal") := by
    refine ⟨quietHost gitCatalog, _, quietHost_fresh gitCatalog, rfl, ?_⟩
    intro bindingId actions hcall binding hbinding
    obtain ⟨rfl, rfl⟩ := Call.apply.inj hcall
    refine ⟨?_, fun _ _ _ => trivial⟩
    intro assetId hasset
    obtain rfl : "git-internal" = assetId := Option.some.inj hasset
    have hassets : (getByBinding boundWorld.bindings "u").map BindingRecord.unlockedAssets =
        some [] := by decide +kernel
    rw [hbinding, Option.map_some, Option.some.injEq] at hassets
    rw [Readable, hassets]
    decide +kernel
  have hrun := (ReflTransGen.single bound_readable).tail hunlock
  have hlist : listAccessibleAssetIds (quietHost gitCatalog) (unlockedWorld "git-internal") "u" =
      ["git-internal"] := by decide +kernel
  refine ⟨_, hrun, hlist, (exposure_implies_unlock hrun (quietHost gitCatalog) "u").1 _ ?_⟩
  rw [hlist]
  exact List.mem_singleton.mpr rfl

/-- The repository is reached, and nobody has unlocked it. -/
theorem embedded_marker : ∃ w, ReflTransGen Step {} w ∧
    "git-internal" ∈ listAccessibleAssetIds (quietHost gitCatalog) w "u" ∧
    ¬ Unlocked w.bindings "u" "git-internal" := by
  have hbound : Step {} boundWorld := ⟨_, _, quietHost_fresh gitCatalog, rfl⟩
  have hunlock : Step boundWorld (unlockedWorld "notes exposes git-internal") :=
    ⟨_, _, quietHost_fresh gitCatalog, rfl⟩
  refine ⟨_, (ReflTransGen.single hbound).tail hunlock, by decide +kernel, ?_⟩
  have hassets : (getByBinding (unlockedWorld "notes exposes git-internal").bindings "u").map
      BindingRecord.unlockedAssets = some ["notes exposes git-internal"] := by decide +kernel
  rw [unlocked_iff_of_map hassets]
  decide

end Honeynet.Orchestrator
