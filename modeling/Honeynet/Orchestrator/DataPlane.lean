import Honeynet.Lib.Transition
import Honeynet.Orchestrator.Keeps

/-!
# Where the data plane leads

A start adds the routes of an asset together with its record, but nothing takes a route away.  A
route therefore outlives its backend when the binding is recycled, or when a start stops the
record it replaces and then fails.

* `Live`: an asset that has a route has a backend that runs and is shown.
* `Lost`: a record of the asset has been stopped, and a start of it has failed.
* `traced_started`, `traced_configured`, `traced_stop`: until a recycle, an asset that was live
  is live or lost.
* `selected_route_runs`: along calls that lose nothing, a selected route leads to a backend that
  runs.
* `stale_routes`: after a recycle, or a replacement that fails, it leads nowhere.
-/

namespace Honeynet.Orchestrator

open Collections Binding Effect Relation

/-! ### Live assets -/

def HasRoute (bindingId assetId : String) (w : World) : Prop :=
  ∃ route ∈ w.routes, route.bindingId = bindingId ∧ route.assetId = assetId

/-- The asset has a record that runs and is not hidden. -/
def RunningShown (bindingId assetId : String) (w : World) : Prop :=
  ∃ record ∈ w.runtimes, record.bindingId = bindingId ∧ record.assetId = assetId ∧
    record.status = .running ∧ record.hidden = false

instance (bindingId assetId : String) (w : World) : Decidable (RunningShown bindingId assetId w) :=
  inferInstanceAs (Decidable (∃ record ∈ w.runtimes, record.bindingId = bindingId ∧
    record.assetId = assetId ∧ record.status = .running ∧ record.hidden = false))

/-- **An asset with a route has a backend.** -/
def Live (bindingId assetId : String) (w : World) : Prop :=
  HasRoute bindingId assetId w → RunningShown bindingId assetId w

/-- A record of the asset has come to the status since `s`. -/
def Since (bindingId assetId : String) (status : RuntimeStatus) (s w : World) : Prop :=
  ∃ record ∈ w.runtimes, record.bindingId = bindingId ∧ record.assetId = assetId ∧
    record.status = status ∧ record ∉ s.runtimes

/-- **Since `s` a record of the asset has been stopped, and a start of it has failed.** -/
def Lost (bindingId assetId : String) (s w : World) : Prop :=
  Since bindingId assetId .stopped s w ∧ Since bindingId assetId .failed s w

def runtimeIds (w : World) : List String := w.runtimes.map AssetRuntimeRecord.runtimeId

/-- The records have grown from those of `s`: ids stay, and what was stopped stays stopped. -/
structure GrownFrom (bindingId assetId : String) (s w : World) : Prop where
  nodup : (runtimeIds w).Nodup
  ids : runtimeIds s ⊆ runtimeIds w
  stopped : ∀ record ∈ s.runtimes, record.bindingId = bindingId → record.assetId = assetId →
    record.status = .stopped → record ∈ w.runtimes

/-- **Since `s` the asset has stayed live, or it is lost.** -/
structure Traced (bindingId assetId : String) (s w : World) : Prop extends
    GrownFrom bindingId assetId s w where
  live : Live bindingId assetId w ∨ Lost bindingId assetId s w

/-! ### Records under an upsert -/

theorem runtimeIds_upsert (w : World) (record : AssetRuntimeRecord) :
    runtimeIds (w.upsertRuntime record) = addNew (runtimeIds w) record.runtimeId :=
  map_key_upsertBy record w.runtimes

theorem nodup_upsert {w : World} (h : (runtimeIds w).Nodup) (record : AssetRuntimeRecord) :
    (runtimeIds (w.upsertRuntime record)).Nodup := by
  rw [runtimeIds_upsert]
  exact nodup_addNew h _

theorem nodup_routes {w : World} (h : (runtimeIds w).Nodup) (new : List GatewayRoute) :
    (runtimeIds (w.replaceRoutes new)).Nodup := h

theorem eq_of_runtimeId {w : World} (h : (runtimeIds w).Nodup) {r r' : AssetRuntimeRecord}
    (hr : r ∈ w.runtimes) (hr' : r' ∈ w.runtimes) (hid : r.runtimeId = r'.runtimeId) : r = r' :=
  List.inj_on_of_nodup_map h hr hr' hid

theorem runtimeId_mem {w : World} {record : AssetRuntimeRecord} (h : record ∈ w.runtimes) :
    record.runtimeId ∈ runtimeIds w := List.mem_map_of_mem h

/-- A fresh id is the id of no record. -/
theorem fresh_ne {host : Host} (hfresh : host.Fresh) {w : World} {r : AssetRuntimeRecord}
    (hr : r ∈ w.runtimes) : r.runtimeId ≠ host.runtimeUuid w := by
  intro heq
  exact hfresh.runtime w (heq ▸ runtimeId_mem hr)

section Traced

variable {bindingId assetId : String} {s w : World}

/-- Nothing of the asset but a running record has the id of `record`. -/
def Spares (bindingId assetId : String) (w : World) (record : AssetRuntimeRecord) : Prop :=
  ∀ r ∈ w.runtimes, r.bindingId = bindingId → r.assetId = assetId → r.status ≠ .running →
    r.runtimeId ≠ record.runtimeId

theorem grownFrom_upsert (h : GrownFrom bindingId assetId s w) {record : AssetRuntimeRecord}
    (hspares : Spares bindingId assetId w record) :
    GrownFrom bindingId assetId s (w.upsertRuntime record) := by
  refine ⟨nodup_upsert h.nodup record, ?_, ?_⟩
  · intro id hid
    rw [runtimeIds_upsert, mem_addNew]
    exact Or.inl (h.ids hid)
  · intro r hr hb ha hstopped
    have hnotRunning : r.status ≠ .running := by rw [hstopped]; decide
    have hmem := h.stopped r hr hb ha hstopped
    exact mem_upsertRuntime_of_ne hmem (hspares r hmem hb ha hnotRunning)

theorem grownFrom_routes (h : GrownFrom bindingId assetId s w) (new : List GatewayRoute) :
    GrownFrom bindingId assetId s (w.replaceRoutes new) := ⟨h.nodup, h.ids, h.stopped⟩

theorem grownFrom_log (h : GrownFrom bindingId assetId s w) (removals : List String) :
    GrownFrom bindingId assetId s { w with removals } := ⟨h.nodup, h.ids, h.stopped⟩

theorem since_upsert {status : RuntimeStatus} (hstatus : status ≠ .running)
    (h : Since bindingId assetId status s w) {record : AssetRuntimeRecord}
    (hspares : Spares bindingId assetId w record) :
    Since bindingId assetId status s (w.upsertRuntime record) := by
  obtain ⟨r, hr, hb, ha, hr', hnew⟩ := h
  have hnotRunning : r.status ≠ .running := by rw [hr']; exact hstatus
  exact ⟨r, mem_upsertRuntime_of_ne hr (hspares r hr hb ha hnotRunning), hb, ha, hr', hnew⟩

theorem lost_upsert (h : Lost bindingId assetId s w) {record : AssetRuntimeRecord}
    (hspares : Spares bindingId assetId w record) :
    Lost bindingId assetId s (w.upsertRuntime record) :=
  ⟨since_upsert (by decide) h.1 hspares, since_upsert (by decide) h.2 hspares⟩

theorem live_upsert_of_ne (h : Live bindingId assetId w) {record : AssetRuntimeRecord}
    (hne : ∀ r ∈ w.runtimes, r.bindingId = bindingId → r.assetId = assetId →
      r.runtimeId ≠ record.runtimeId) : Live bindingId assetId (w.upsertRuntime record) := by
  intro hroute
  obtain ⟨r, hr, hb, ha, hrunning, hshown⟩ := h hroute
  exact ⟨r, mem_upsertRuntime_of_ne hr (hne r hr hb ha), hb, ha, hrunning, hshown⟩

/-- Removed containers leave the records as they are. -/
theorem traced_log (h : Traced bindingId assetId s w) (removals : List String) :
    Traced bindingId assetId s { w with removals } :=
  ⟨grownFrom_log h.toGrownFrom removals, h.live⟩

/-- A record with an id that no record of the asset has leaves the asset as it is. -/
theorem traced_upsert_of_ne (h : Traced bindingId assetId s w) {record : AssetRuntimeRecord}
    (hne : ∀ r ∈ w.runtimes, r.bindingId = bindingId → r.assetId = assetId →
      r.runtimeId ≠ record.runtimeId) : Traced bindingId assetId s (w.upsertRuntime record) := by
  have hspares : Spares bindingId assetId w record := fun r hr hb ha _ => hne r hr hb ha
  exact ⟨grownFrom_upsert h.toGrownFrom hspares,
    h.live.imp (fun hlive => live_upsert_of_ne hlive hne) fun hlost => lost_upsert hlost hspares⟩

/-- A record of another asset is written under the id of that asset's record. -/
theorem traced_upsert_of_other (h : Traced bindingId assetId s w)
    {old record : AssetRuntimeRecord} (hold : old ∈ w.runtimes)
    (hid : record.runtimeId = old.runtimeId)
    (hother : old.bindingId = bindingId → old.assetId ≠ assetId) :
    Traced bindingId assetId s (w.upsertRuntime record) := by
  refine traced_upsert_of_ne h fun r hr hb ha heq => ?_
  obtain rfl := eq_of_runtimeId h.nodup hr hold (heq.trans hid)
  exact hother hb ha

theorem traced_routes_of_other (h : Traced bindingId assetId s w) {new : List GatewayRoute}
    (hother : ∀ route ∈ new, route.bindingId = bindingId → route.assetId ≠ assetId) :
    Traced bindingId assetId s (w.replaceRoutes new) := by
  refine ⟨grownFrom_routes h.toGrownFrom new, h.live.imp_left fun hlive hroute => ?_⟩
  obtain ⟨route, hmem, hb, ha⟩ := hroute
  rcases mem_replaceRoutes hmem with hmem | hmem
  · exact hlive ⟨route, hmem, hb, ha⟩
  · exact absurd ha (hother route hmem hb)

/-- An asset that runs and is shown is live, whatever its routes. -/
theorem traced_of_running (h : GrownFrom bindingId assetId s w)
    (hrunning : RunningShown bindingId assetId w) : Traced bindingId assetId s w :=
  ⟨h, Or.inl fun _ => hrunning⟩

/-- A running record may be written again. -/
theorem spares_of_running (h : (runtimeIds w).Nodup) {old record : AssetRuntimeRecord}
    (hold : old ∈ w.runtimes) (hrunning : old.status = .running)
    (hid : record.runtimeId = old.runtimeId) : Spares bindingId assetId w record := by
  intro r hr _ _ hstatus heq
  obtain rfl := eq_of_runtimeId h hr hold (heq.trans hid)
  exact hstatus hrunning

/-! ### Starts -/

section Started

variable {host : Host} {asset : AssetDefinition} {attacker : Option String}
  {warmStandby replaces : Bool} {t : World}

/-- Stopping a running record leaves the records grown, and stopped it is. -/
theorem grownFrom_vacated (h : GrownFrom bindingId assetId s w)
    (hvacated : Vacated bindingId assetId replaces w t) :
    GrownFrom bindingId assetId s t ∧
      ((∃ removals, t = { w with removals }) ∨
        replaces = true ∧ Since bindingId assetId .stopped s t) := by
  cases hvacated with
  | kept => exact ⟨grownFrom_log h _, Or.inl ⟨_, rfl⟩⟩
  | @stopped old removals hreplaces hold =>
    obtain ⟨hmem, hb, ha, hrunning⟩ := existingRunningRecord_spec hold
    have hlogged := grownFrom_log h removals
    refine ⟨grownFrom_upsert hlogged (spares_of_running hlogged.nodup hmem hrunning rfl),
      Or.inr ⟨hreplaces, old.stop, self_mem_upsertRuntime _ _, hb, ha, rfl, ?_⟩⟩
    intro hstopped
    -- had it been stopped before, it would not run now
    have hstill := h.stopped old.stop hstopped hb ha rfl
    have heq : old.stop = old := eq_of_runtimeId h.nodup hstill hmem rfl
    have hcontra : RuntimeStatus.stopped = .running := (congrArg (·.status) heq).trans hrunning
    exact absurd hcontra (by decide)

/-- **A start of the asset** leaves it live, unless it stops a record and fails. -/
theorem traced_started_self (hfresh : host.Fresh) (h : Traced bindingId asset.assetId s w)
    (hwarm : warmStandby = true → replaces = false ∧ attacker = none)
    (hshown : hiddenSetting asset.defaultSettings = false)
    (hstart : Started host bindingId asset attacker warmStandby replaces w t) :
    Traced bindingId asset.assetId s t := by
  cases hstart with
  | reused => exact h
  | routed hrecord hvisible _ =>
    obtain ⟨hmem, hb, ha, hrunning⟩ := existingRunningRecord_spec hrecord
    exact traced_of_running (grownFrom_routes h.toGrownFrom _)
      ⟨_, hmem, hb, ha, hrunning, hvisible⟩
  | shown hrecord hattacker hnew =>
    rename_i old new
    obtain ⟨hmem, hb, ha, hrunning⟩ := existingRunningRecord_spec hrecord
    have hgrown := grownFrom_routes h.toGrownFrom new
    refine traced_of_running
      (grownFrom_upsert hgrown (spares_of_running hgrown.nodup hmem hrunning rfl))
      ⟨_, self_mem_upsertRuntime _ _, hb, ha, hrunning, ?_⟩
    rw [AssetRuntimeRecord.hidden, Settings.get, lookup_set_self]
    rfl
  | @launched v settings new hvacated _ hhidden hnew =>
    obtain ⟨hgrown, hv⟩ := grownFrom_vacated h.toGrownFrom hvacated
    have hne : ∀ r ∈ v.runtimes, r.runtimeId ≠ host.runtimeUuid v := fun _ hr =>
      fresh_ne hfresh hr
    cases hstandby : warmStandby with
    | false =>
      rw [hstandby, Bool.false_or, hshown] at hhidden
      exact traced_of_running
        (grownFrom_upsert (grownFrom_routes hgrown new) fun r hr _ _ _ => hne r hr)
        ⟨_, self_mem_upsertRuntime _ _, rfl, rfl, rfl, hhidden⟩
    | true =>
      -- a warm standby adds a hidden record and no route
      obtain ⟨hreplaces, hattacker⟩ := hwarm hstandby
      obtain ⟨removals, rfl⟩ := hv.resolve_right fun hstopped => by
        rw [hreplaces] at hstopped
        exact absurd hstopped.1 (by decide)
      obtain rfl : new = [] := List.eq_nil_iff_forall_not_mem.mpr fun route hroute => by
        have hkey := (hnew route hroute).1
        rw [hattacker] at hkey
        exact absurd hkey (by simp)
      rw [replaceRoutes_nil]
      exact traced_upsert_of_ne (traced_log h removals) fun r hr _ _ => hne r hr
  | failed hvacated hhidden =>
    rename_i v settings
    obtain ⟨hgrown, hv⟩ := grownFrom_vacated h.toGrownFrom hvacated
    have hne : ∀ r ∈ v.runtimes, r.runtimeId ≠ host.runtimeUuid v := fun _ hr =>
      fresh_ne hfresh hr
    rcases hv with ⟨removals, rfl⟩ | ⟨_, hstopped⟩
    · exact traced_upsert_of_ne (traced_log h removals) fun r hr _ _ => hne r hr
    · have hspares : Spares bindingId asset.assetId v
          (runtimeRecordFromAsset host v bindingId asset .failed settings) :=
        fun r hr _ _ _ => hne r hr
      refine ⟨grownFrom_upsert hgrown hspares, Or.inr ⟨since_upsert (by decide) hstopped hspares,
        _, self_mem_upsertRuntime _ _, rfl, rfl, rfl, fun hmem => ?_⟩⟩
      exact hfresh.runtime v (hgrown.ids (runtimeId_mem hmem))

/-- A start of another asset does not touch this one. -/
theorem traced_started_other (hfresh : host.Fresh) {startedBinding : String}
    (h : Traced bindingId assetId s w)
    (hother : startedBinding = bindingId → asset.assetId ≠ assetId)
    (hstart : Started host startedBinding asset attacker warmStandby replaces w t) :
    Traced bindingId assetId s t := by
  refine started_frame h (fun hu => traced_log hu _) ?_ ?_ ?_ hstart
  · intro u new hnew hu
    refine traced_routes_of_other hu fun route hroute hb => ?_
    obtain ⟨_, hrouteBinding, hrouteAsset⟩ := hnew route hroute
    rw [hrouteAsset]
    exact hother (hrouteBinding.symm.trans hb)
  · intro u old record hold hid _ hu
    obtain ⟨hmem, hb, ha, _⟩ := existingRunningRecord_spec hold
    refine traced_upsert_of_other hu hmem hid ?_
    rw [hb, ha]
    exact hother
  · intro u u' status settings hruntimes hu
    refine traced_upsert_of_ne hu fun r hr _ _ => ?_
    rw [← hruntimes] at hr
    exact fresh_ne hfresh hr

theorem traced_started (hfresh : host.Fresh) {startedBinding : String}
    (h : Traced bindingId assetId s w)
    (hwarm : warmStandby = true → replaces = false ∧ attacker = none)
    (hshown : asset.assetId = assetId → hiddenSetting asset.defaultSettings = false)
    (hstart : Started host startedBinding asset attacker warmStandby replaces w t) :
    Traced bindingId assetId s t := by
  by_cases hself : startedBinding = bindingId ∧ asset.assetId = assetId
  · obtain ⟨rfl, rfl⟩ := hself
    exact traced_started_self hfresh h hwarm (hshown rfl) hstart
  · exact traced_started_other hfresh h (fun hb ha => hself ⟨hb, ha⟩) hstart

end Started

/-! ### Configurations and stops -/

/-- **A configuration** writes a running record again, as visible as it was. -/
theorem traced_configured {configuredBinding configuredAsset : String} {t : World}
    (h : Traced bindingId assetId s w)
    (hconfigured : Configured configuredBinding configuredAsset w t) :
    Traced bindingId assetId s t := by
  cases hconfigured with
  | none => exact h
  | updated hold hhidden =>
    rename_i old settings
    obtain ⟨hmem, hb, ha, hrunning⟩ := existingRunningRecord_spec hold
    have hspares : Spares bindingId assetId w { old with settings } :=
      spares_of_running h.nodup hmem hrunning rfl
    refine ⟨grownFrom_upsert h.toGrownFrom hspares, h.live.imp (fun hlive hroute => ?_)
      fun hlost => lost_upsert hlost hspares⟩
    obtain ⟨r, hr, hrb, hra, hrunning', hshown⟩ := hlive hroute
    by_cases hid : r.runtimeId = old.runtimeId
    · obtain rfl := eq_of_runtimeId h.nodup hr hmem hid
      exact ⟨_, self_mem_upsertRuntime _ _, hrb, hra, hrunning, hhidden.trans hshown⟩
    · exact ⟨r, mem_upsertRuntime_of_ne hr hid, hrb, hra, hrunning', hshown⟩

/-- Every record is one of `o`, as to its id and its binding. -/
def OwnedAs (o w : World) : Prop :=
  ∀ record ∈ w.runtimes, ∃ owner ∈ o.runtimes,
    owner.runtimeId = record.runtimeId ∧ owner.bindingId = record.bindingId

/-- **Stopping another binding** does not touch the asset. -/
theorem traced_stop {host : Host} {stoppedBinding : String} (hne : stoppedBinding ≠ bindingId) :
    KeepsRecycle host stoppedBinding (Traced bindingId assetId s) := by
  refine Triple.of_forall fun o ho => ?_
  have hstops : Triple (fun w => Traced bindingId assetId s w ∧ OwnedAs o w)
      (stopBindingAssets host stoppedBinding)
      (fun _ w => Traced bindingId assetId s w ∧ OwnedAs o w)
      (fun w => Traced bindingId assetId s w ∧ OwnedAs o w) := by
    refine stopBindingAssets_spec (C := fun record => ∃ owner ∈ o.runtimes,
      owner.runtimeId = record.runtimeId ∧ owner.bindingId = record.bindingId ∧
        record.bindingId = stoppedBinding) ?_ ?_ ?_
    · rintro w ⟨_, howned⟩ record hrecord _
      obtain ⟨hmem, hb⟩ := List.mem_filter.mp hrecord
      obtain ⟨owner, howner, hid, hbinding⟩ := howned record hmem
      exact ⟨owner, howner, hid, hbinding, beq_iff_eq.mp hb⟩
    · rintro w _ ⟨htraced, howned⟩
      exact ⟨traced_log htraced _, howned⟩
    · rintro w record ⟨htraced, howned⟩ ⟨owner, howner, hid, hbinding, hb⟩
      constructor
      · refine traced_upsert_of_ne htraced fun r hr hrb _ heq => ?_
        -- one id has one owner, of one binding
        obtain ⟨owner', howner', hid', hbinding'⟩ := howned r hr
        obtain rfl := eq_of_runtimeId ho.nodup howner' howner
          (hid'.trans (heq.trans hid.symm))
        exact hne (hb.symm.trans (hbinding.symm.trans (hbinding'.trans hrb)))
      · intro r hr
        rcases mem_upsertRuntime hr with rfl | ⟨hr, _⟩
        · exact ⟨owner, howner, hid, hbinding⟩
        · exact howned r hr
  refine hstops.conseq ?_ (fun _ _ => And.left) (fun _ => And.left)
  rintro _ rfl
  exact ⟨ho, fun record hrecord => ⟨record, hrecord, rfl, rfl⟩⟩

end Traced

/-! ### Runs -/

theorem nodup_keeps (host : Host) : Keeps host fun w => (runtimeIds w).Nodup where
  started _ _ h hstart :=
    started_frame (I := fun w => (runtimeIds w).Nodup) h id (fun _ hu => nodup_routes hu _)
      (fun _ _ _ hu => nodup_upsert hu _) (fun _ hu => nodup_upsert hu _) hstart
  configured h hconfigured := by
    cases hconfigured with
    | none => exact h
    | updated _ _ => exact nodup_upsert h _
  rest _ _ _ h := h

/-- Runtime ids are never stored twice. -/
theorem nodup_step {s t : World} (h : Step s t) (hs : (runtimeIds s).Nodup) :
    (runtimeIds t).Nodup := by
  obtain ⟨host, call, _, rfl⟩ := h
  refine keeps_call (nodup_keeps host) call (fun bindingId actions _ action _ _ => ?_) hs
  exact stopBindingAssets_spec (C := fun _ => True) (fun _ _ _ _ _ => trivial) (fun _ _ h => h)
    fun w record hw _ => nodup_upsert hw _

/-- **A call that loses nothing**: it recycles another binding at most, it does not both stop a
record of the asset and fail to start it, and the catalog does not hide the asset by default. -/
def SteadyStep (bindingId assetId : String) (s t : World) : Prop :=
  ∃ host call, Host.Fresh host ∧ Call.run host s call = t ∧
    (∀ actions, call = .apply bindingId actions →
      ∀ action ∈ actions, action.actionType ≠ .recycle) ∧
    ¬ Lost bindingId assetId s t ∧
    ∀ asset ∈ host.catalog, asset.assetId = assetId →
      hiddenSetting asset.defaultSettings = false

theorem traced_keeps {host : Host} (hfresh : host.Fresh) {bindingId assetId : String} {s : World}
    (hshown : ∀ asset ∈ host.catalog, asset.assetId = assetId →
      hiddenSetting asset.defaultSettings = false) :
    Keeps host (Traced bindingId assetId s) where
  started hasset hwarm h hstart := traced_started hfresh h hwarm (hshown _ hasset) hstart
  configured h hconfigured := traced_configured h hconfigured
  rest _ _ _ h := ⟨⟨h.nodup, h.ids, h.stopped⟩, h.live⟩

/-- **A steady call keeps an asset live.** -/
theorem live_steadyStep {bindingId assetId : String} {s t : World}
    (h : SteadyStep bindingId assetId s t)
    (hs : (runtimeIds s).Nodup ∧ Live bindingId assetId s) :
    (runtimeIds t).Nodup ∧ Live bindingId assetId t := by
  obtain ⟨host, call, hfresh, rfl, hrecycle, hkept, hshown⟩ := h
  have hinit : Traced bindingId assetId s s :=
    ⟨⟨hs.1, fun _ => id, fun _ h _ _ _ => h⟩, Or.inl hs.2⟩
  have htraced : Traced bindingId assetId s (call.run host s) := by
    refine keeps_call (traced_keeps hfresh hshown) call ?_ hinit
    intro recycled actions hcall action haction htype
    refine traced_stop ?_
    rintro rfl
    exact hrecycle actions hcall action haction htype
  exact ⟨htraced.nodup, htraced.live.resolve_right hkept⟩

/-- **A selected route leads to a backend that runs**, once the asset is live and as long as the
calls lose nothing. -/
theorem selected_route_runs {bindingId assetId : String} {s t : World}
    (hreach : ReflTransGen Step {} s) (hlive : Live bindingId assetId s)
    (hrun : ReflTransGen (SteadyStep bindingId assetId) s t) {clientIp : String} {port : Int}
    {route : GatewayRoute} (hselect : selectRoute t.routes clientIp port false = some route)
    (hbinding : route.bindingId = bindingId) (hasset : route.assetId = assetId) :
    RunningShown bindingId assetId t := by
  have hnodup : (runtimeIds s).Nodup :=
    Transition.invariant_of_step (P := fun w => (runtimeIds w).Nodup) (fun _ _ => nodup_step)
      hreach List.nodup_nil
  have hend := Transition.invariant_of_step
    (P := fun w => (runtimeIds w).Nodup ∧ Live bindingId assetId w)
    (fun _ _ => live_steadyStep) hrun ⟨hnodup, hlive⟩
  exact hend.2 ⟨route, (mem_of_selectRoute hselect).1, hbinding, hasset⟩

/-! ### Runs on one repository -/

/-- The route of the repository. -/
def gitRoute : GatewayRoute where
  attackerKey := "198.51.100.7"
  bindingId := "u"
  assetId := "git-internal"
  assetName := ""
  protocol := "tcp"
  publicPort := 18081
  backendHost := "honeynet-u-git-internal"
  backendPort := 3000
  backendIp := ""
  updatedAt := "2026-01-01T00:00:00+00:00"

theorem bound_step : Step {} boundWorld := ⟨_, _, quietHost_fresh gitCatalog, rfl⟩

theorem unlocked_step : Step boundWorld (unlockedWorld "git-internal") :=
  ⟨_, _, quietHost_fresh gitCatalog, rfl⟩

/-- The repository is unlocked, and its route leads to it. -/
theorem git_route_runs : ∃ s t, ReflTransGen Step {} s ∧ Live "u" "git-internal" s ∧
    ReflTransGen (SteadyStep "u" "git-internal") s t ∧
    selectRoute t.routes "198.51.100.7" 18081 false = some gitRoute ∧
    RunningShown "u" "git-internal" t := by
  have hreach : ReflTransGen Step {} boundWorld := .single bound_step
  have hroutes : boundWorld.routes = [] := by decide +kernel
  have hlive : Live "u" "git-internal" boundWorld := by
    rintro ⟨route, hroute, _⟩
    rw [hroutes] at hroute
    exact absurd hroute List.not_mem_nil
  have hfailed : ∀ record ∈ (unlockedWorld "git-internal").runtimes, record.status ≠ .failed := by
    decide +kernel
  have hrun : SteadyStep "u" "git-internal" boundWorld (unlockedWorld "git-internal") := by
    refine ⟨quietHost gitCatalog, _, quietHost_fresh gitCatalog, rfl, ?_, ?_, ?_⟩
    · intro actions hcall action haction
      obtain ⟨_, rfl⟩ := Call.apply.inj hcall
      rw [List.mem_singleton.mp haction]
      decide
    · rintro ⟨_, record, hrecord, _, _, hstatus, _⟩
      exact hfailed record hrecord hstatus
    · decide +kernel
  have hselect : selectRoute (unlockedWorld "git-internal").routes "198.51.100.7" 18081 false =
      some gitRoute := by decide +kernel
  exact ⟨_, _, hreach, hlive, .single hrun, hselect,
    selected_route_runs hreach hlive (.single hrun) hselect rfl rfl⟩

/-- A machine on which no container starts. -/
def brokenHost : Host :=
  { quietHost gitCatalog with docker := fun w asset =>
      { (quietHost gitCatalog).docker w asset with
        run := some ⟨.runtimeError, "docker run failed"⟩ } }

/-- The repository, hidden by its default settings. -/
def hiddenCatalog : List AssetDefinition :=
  gitCatalog.map fun asset => { asset with
    defaultSettings := asset.defaultSettings ++ [("warm_standby_hidden", .bool true)] }

/-- The stores after the binding is recycled. -/
def recycledWorld : World :=
  Call.run (quietHost gitCatalog) (unlockedWorld "git-internal")
    (.apply "u" [{ actionType := .recycle, bindingId := "u", reason := "idle recycle" }])

/-- The stores after another image has been put in place of the repository, and did not start. -/
def swappedWorld : World :=
  Call.run brokenHost (unlockedWorld "git-internal")
    (.apply "u" [{
      actionType := .configure
      bindingId := "u"
      assetId := some "git-internal"
      configurationId := some "deep"
      targetAssetId := some "git-internal"
      configuration := [("target_runtime", .dict [("backend", .str "docker"),
        ("image", .str "gitea-deep")])]
      reason := "configuration selected" }])

/-- The stores after the hidden repository is unlocked. -/
def hiddenWorld : World :=
  Call.run (quietHost hiddenCatalog) boundWorld (.apply "u" [unlockOf "git-internal"])

/-- The stores are reached, and a selected route leads nowhere. -/
def Stale (w : World) : Prop :=
  ReflTransGen Step {} w ∧
    ∃ clientIp port route, selectRoute w.routes clientIp port false = some route ∧
      ¬ RunningShown route.bindingId route.assetId w

/-- **A selected route may lead nowhere**: after a recycle, after a replacement that failed, and
where the catalog hides the asset. -/
theorem stale_routes : Stale recycledWorld ∧ Stale swappedWorld ∧ Stale hiddenWorld := by
  have hunlocked : ReflTransGen Step {} (unlockedWorld "git-internal") :=
    (ReflTransGen.single bound_step).tail unlocked_step
  have hbroken : brokenHost.Fresh := ⟨fun _ => freshId_notMem _, fun _ => freshId_notMem _⟩
  refine ⟨⟨?_, "198.51.100.7", 18081, gitRoute, ?_⟩, ⟨?_, "198.51.100.7", 18081, gitRoute, ?_⟩,
    ?_, "198.51.100.7", 18081, gitRoute, ?_⟩
  · exact hunlocked.tail ⟨_, _, quietHost_fresh gitCatalog, rfl⟩
  · exact ⟨by decide +kernel, by decide +kernel⟩
  · exact hunlocked.tail ⟨_, _, hbroken, rfl⟩
  · exact ⟨by decide +kernel, by decide +kernel⟩
  · exact (ReflTransGen.single bound_step).tail ⟨_, _, quietHost_fresh hiddenCatalog, rfl⟩
  · exact ⟨by decide +kernel, by decide +kernel⟩

end Honeynet.Orchestrator
