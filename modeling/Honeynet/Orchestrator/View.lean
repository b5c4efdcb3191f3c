import Honeynet.Orchestrator.Launches
import Honeynet.Orchestrator.Standby

/-!
# What an attacker sees

Of the stores a binding sees its lists and its routes.  Two stores may differ in ids, in times and
in hidden records, and show it the same.

* `SameView`: the binding reaches the same assets, misses the same, and has the same routes.
* `Alike`, `Matched`: records that count alike.
* `sameView_of_matched`: stores whose shown records count alike show the same.
* `lists_append`: what one more running record adds to the lists.
-/

namespace Honeynet.Orchestrator

open Collections

/-! ### Views -/

/-- The route, but for when it was written. -/
def GatewayRoute.untimed (route : GatewayRoute) : GatewayRoute := { route with updatedAt := "" }

/-- The routes of a binding. -/
def World.boundRoutes (w : World) (bindingId : String) : List GatewayRoute :=
  (w.routes.filter fun route => route.bindingId == bindingId).map GatewayRoute.untimed

/-- The binding reaches and misses the same assets, and has the same routes. -/
structure SameView (host : Host) (bindingId : String) (s t : World) : Prop where
  accessible : ∀ assetId, assetId ∈ listAccessibleAssetIds host s bindingId ↔
    assetId ∈ listAccessibleAssetIds host t bindingId
  failed : ∀ assetId, assetId ∈ listFailedAssetIds host s bindingId ↔
    assetId ∈ listFailedAssetIds host t bindingId
  routes : s.boundRoutes bindingId = t.boundRoutes bindingId

/-! ### Routes -/

section Routes

variable {host : Host} {bindingId : String}

theorem untimed_gatewayRoutes (w w' : World) (attackerKey : String) (asset : AssetDefinition)
    (settings : Settings) :
    (gatewayRoutes host w bindingId attackerKey asset settings).map GatewayRoute.untimed =
      (gatewayRoutes host w' bindingId attackerKey asset settings).map GatewayRoute.untimed := by
  have hroute : ∀ item,
      (gatewayRoute host w bindingId attackerKey asset settings item).map GatewayRoute.untimed =
        (gatewayRoute host w' bindingId attackerKey asset settings item).map
          GatewayRoute.untimed := by
    intro item
    simp only [gatewayRoute, Option.bind_eq_bind, Option.map_bind, Function.comp_def]
    rfl
  rw [gatewayRoutes, gatewayRoutes]
  cases settings.getD "port_mappings" (.list []) with
  | list items =>
    simp only [List.map_filterMap]
    exact List.filterMap_congr fun item _ => hroute item
  | _ => rfl

theorem untimed_routesFor (w w' : World) (asset : AssetDefinition) (attackerKey : Option String)
    (managed : Bool) (settings : Settings) :
    (routesFor host w bindingId asset attackerKey managed settings).map GatewayRoute.untimed =
      (routesFor host w' bindingId asset attackerKey managed settings).map
        GatewayRoute.untimed := by
  cases managed with
  | false => rfl
  | true =>
    rw [routesFor, routesFor, if_pos rfl, if_pos rfl]
    cases given attackerKey with
    | none => rfl
    | some key => exact untimed_gatewayRoutes w w' key asset settings

/-- Which routes are replaced does not depend on when the new ones are written. -/
theorem boundRoutes_replaceRoutes {s t : World} (hroutes : s.routes = t.routes)
    {new new' : List GatewayRoute}
    (hnew : new.map GatewayRoute.untimed = new'.map GatewayRoute.untimed) :
    (s.replaceRoutes new).boundRoutes bindingId = (t.replaceRoutes new').boundRoutes bindingId := by
  have hkeys : ∀ routes : List GatewayRoute,
      routes.map (fun route => (route.bindingId, route.assetId, route.publicPort)) =
        (routes.map GatewayRoute.untimed).map
          fun route => (route.bindingId, route.assetId, route.publicPort) := by
    intro routes
    rw [List.map_map]
    rfl
  have hbound : ∀ routes : List GatewayRoute,
      (routes.filter fun route => route.bindingId == bindingId).map GatewayRoute.untimed =
        (routes.map GatewayRoute.untimed).filter fun route => route.bindingId == bindingId := by
    intro routes
    rw [List.filter_map]
    rfl
  rw [World.boundRoutes, World.boundRoutes, World.replaceRoutes, World.replaceRoutes,
    List.filter_append, List.filter_append, List.map_append, List.map_append, hbound new,
    hbound new', hnew, hkeys new, hkeys new', hnew, hroutes]

/-- The routes of a start put the same in place whenever they are written. -/
theorem boundRoutes_routesFor {s t : World} (hroutes : s.routes = t.routes) (host : Host)
    (w w' : World) (b bindingId : String) (asset : AssetDefinition) (attackerKey : Option String)
    (managed : Bool) (settings : Settings) :
    (s.replaceRoutes (routesFor host w b asset attackerKey managed settings)).boundRoutes
        bindingId =
      (t.replaceRoutes (routesFor host w' b asset attackerKey managed settings)).boundRoutes
        bindingId :=
  boundRoutes_replaceRoutes hroutes (untimed_routesFor w w' asset attackerKey managed settings)

end Routes

/-! ### Records -/

/-- Records of one asset that count alike. -/
structure Alike (r r' : AssetRuntimeRecord) : Prop where
  bindingId : r.bindingId = r'.bindingId
  assetId : r.assetId = r'.assetId
  status : r.status = r'.status
  settings : r.settings = r'.settings

section Records

variable {host : Host} {w w' : World} {r r' : AssetRuntimeRecord} {bindingId assetId : String}

theorem Alike.refl (r : AssetRuntimeRecord) : Alike r r := ⟨rfl, rfl, rfl, rfl⟩

theorem Alike.symm (h : Alike r r') : Alike r' r :=
  ⟨h.bindingId.symm, h.assetId.symm, h.status.symm, h.settings.symm⟩

variable (w w') in
theorem accessible_alike (hfixed : FixedStatuses host) (h : Alike r r') :
    runtimeRecordIsAccessible host w r = runtimeRecordIsAccessible host w' r' := by
  rw [runtimeRecordIsAccessible, runtimeRecordIsAccessible, AssetRuntimeRecord.hidden,
    AssetRuntimeRecord.hidden, backendOf, backendOf, h.status, h.settings, hfixed.container w w']

variable (w w') in
theorem failed_alike (hfixed : FixedStatuses host) (h : Alike r r') :
    (composeRecordIsFailed host w r = true ∨ runtimeRecordIsFailed host w r = true) ↔
      (composeRecordIsFailed host w' r' = true ∨ runtimeRecordIsFailed host w' r' = true) := by
  rw [composeRecordIsFailed, composeRecordIsFailed, runtimeRecordIsFailed, runtimeRecordIsFailed,
    AssetRuntimeRecord.hidden, AssetRuntimeRecord.hidden, backendOf, backendOf, h.status,
    h.settings, hfixed.container w w', hfixed.project w w']

theorem shown_of_failed
    (h : composeRecordIsFailed host w r = true ∨ runtimeRecordIsFailed host w r = true) :
    r.hidden = false := by
  rcases h with h | h
  · exact (composeRecordIsFailed_iff.mp h).1
  · exact (status_of_runtimeRecordIsFailed h).1

/-- Every shown record of `s` counts like one of `t`. -/
def Matched (s t : World) : Prop :=
  ∀ r ∈ s.runtimes, r.hidden = false → ∃ r' ∈ t.runtimes, Alike r r'

theorem accessible_matched (hfixed : FixedStatuses host) (h : Matched w w')
    (haccessible : assetId ∈ listAccessibleAssetIds host w bindingId) :
    assetId ∈ listAccessibleAssetIds host w' bindingId := by
  obtain ⟨r, hr, hb, ha, hcounted⟩ := mem_accessible.mp haccessible
  obtain ⟨r', hr', halike⟩ := h r hr (runtimeRecordIsAccessible_iff.mp hcounted).1.2
  exact mem_accessible.mpr ⟨r', hr', halike.bindingId.symm.trans hb, halike.assetId.symm.trans ha,
    (accessible_alike w w' hfixed halike).symm.trans hcounted⟩

theorem failed_matched (hfixed : FixedStatuses host) (h : Matched w w')
    (hfailed : assetId ∈ listFailedAssetIds host w bindingId) :
    assetId ∈ listFailedAssetIds host w' bindingId := by
  obtain ⟨r, hr, hb, ha, hcounted⟩ := mem_failed.mp hfailed
  obtain ⟨r', hr', halike⟩ := h r hr (shown_of_failed hcounted)
  exact mem_failed.mpr ⟨r', hr', halike.bindingId.symm.trans hb, halike.assetId.symm.trans ha,
    (failed_alike w w' hfixed halike).mp hcounted⟩

/-- Stores whose shown records count alike show the same. -/
theorem sameView_of_matched (hfixed : FixedStatuses host) (h : Matched w w') (h' : Matched w' w)
    (hroutes : w.boundRoutes bindingId = w'.boundRoutes bindingId) :
    SameView host bindingId w w' where
  accessible _ := ⟨accessible_matched hfixed h, accessible_matched hfixed h'⟩
  failed _ := ⟨failed_matched hfixed h, failed_matched hfixed h'⟩
  routes := hroutes

/-! ### One more record -/

/-- A record that runs on a backend that is up is reachable if it is shown, and has not failed. -/
theorem counted_of_up (hstatus : r.status = .running)
    (hup : r.hidden = true ∨ BackendUp host w r) :
    (runtimeRecordIsAccessible host w r = true ↔ r.hidden = false) ∧
      ¬ (composeRecordIsFailed host w r = true ∨ runtimeRecordIsFailed host w r = true) := by
  rcases hup with hhidden | hup
  · constructor
    · rw [runtimeRecordIsAccessible_iff, AssetRuntimeRecord.Visible]
      simp [hhidden]
    · intro hfailed
      rw [shown_of_failed hfailed] at hhidden
      exact absurd hhidden (by simp)
  · constructor
    · rw [runtimeRecordIsAccessible_iff]
      exact ⟨fun h => h.1.2, fun h => ⟨⟨hstatus, h⟩, hup.1⟩⟩
    · rintro (hfailed | hfailed)
      · obtain ⟨-, hbackend, hfailed | ⟨-, hdown⟩⟩ := composeRecordIsFailed_iff.mp hfailed
        · exact absurd (hstatus.symm.trans hfailed) (by decide)
        · exact absurd ((hup.2 hbackend).symm.trans hdown) (by decide)
      · obtain ⟨-, hfailed | ⟨-, hbackend, hdown⟩⟩ := status_of_runtimeRecordIsFailed hfailed
        · exact absurd (hstatus.symm.trans hfailed) (by decide)
        · exact absurd ((hup.1 hbackend).symm.trans hdown) (by decide)

/-- **One more record that runs**: its asset is reachable if the record is shown. -/
theorem lists_append (hfixed : FixedStatuses host) (hruntimes : w'.runtimes = w.runtimes ++ [r])
    (hbinding : r.bindingId = bindingId) (hasset : r.assetId = assetId)
    (hstatus : r.status = .running) (hup : r.hidden = true ∨ BackendUp host w r) :
    (∀ other, other ∈ listAccessibleAssetIds host w' bindingId ↔
      other ∈ listAccessibleAssetIds host w bindingId ∨ assetId = other ∧ r.hidden = false) ∧
    ∀ other, other ∈ listFailedAssetIds host w' bindingId ↔
      other ∈ listFailedAssetIds host w bindingId := by
  obtain ⟨haccessible, hnot⟩ := counted_of_up hstatus hup
  constructor
  · intro other
    rw [mem_accessible, mem_accessible, hruntimes]
    simp only [List.mem_append, List.mem_singleton, or_and_right, exists_or, exists_eq_left,
      haccessible, hbinding, hasset, true_and,
      fun q => accessible_alike w' w hfixed (Alike.refl q)]
  · intro other
    rw [mem_failed, mem_failed, hruntimes]
    simp only [List.mem_append, List.mem_singleton, or_and_right, exists_or, exists_eq_left, hnot,
      and_false, or_false,
      fun q => failed_alike w' w hfixed (Alike.refl q)]

end Records

end Honeynet.Orchestrator
