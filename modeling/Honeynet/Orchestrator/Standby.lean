import Honeynet.Orchestrator.Reachability

/-!
# Warm standbys

A prewarm runs the starts of an unlock for nobody, and what it starts is hidden until an attacker
is let in.

* `Unseen`: the stores but for hidden records that are new.
* `prewarm_unseen`: a prewarm shows nothing of what it starts.
-/

namespace Honeynet.Orchestrator

open Collections Effect

/-! ### Hidden records -/

/-- The stores of `s`, but for new records that are hidden. -/
structure Unseen (s t : World) : Prop where
  bindings : t.bindings = s.bindings
  routes : t.routes = s.routes
  gateway : t.gateway = s.gateway
  runtimes : ∃ new, t.runtimes = s.runtimes ++ new ∧ ∀ r ∈ new, r.hidden = true

/-- What docker says of containers and projects does not depend on the stores. -/
structure FixedStatuses (host : Host) : Prop where
  container : ∀ w w' : World, host.containerStatus w = host.containerStatus w'
  project : ∀ w w' : World, host.projectStatuses w = host.projectStatuses w'

section Unseen

variable {host : Host} {s t : World}

theorem Unseen.refl (s : World) : Unseen s s := ⟨rfl, rfl, rfl, [], by simp⟩

/-- One more hidden record. -/
theorem unseen_upsert (h : Unseen s t) {record : AssetRuntimeRecord}
    (hnew : record.runtimeId ∉ t.runtimes.map AssetRuntimeRecord.runtimeId)
    (hhidden : record.hidden = true) : Unseen s (t.upsertRuntime record) := by
  obtain ⟨new, hruntimes, hall⟩ := h.runtimes
  refine ⟨h.bindings, h.routes, h.gateway, new ++ [record], ?_, fun r hr => ?_⟩
  · rw [World.upsertRuntime, upsertBy, if_neg hnew, hruntimes, List.append_assoc]
  · rcases List.mem_append.mp hr with hr | hr
    · exact hall r hr
    · rw [List.mem_singleton.mp hr]
      exact hhidden

/-- A start for nobody writes no routes. -/
theorem routes_for_nobody {bindingId assetId : String} {new : List GatewayRoute}
    (h : RoutesOf none bindingId assetId new) : new = [] := by
  refine List.eq_nil_iff_forall_not_mem.mpr fun route hroute => ?_
  exact absurd (h route hroute).1 (by simp)

/-- **One hidden start.** -/
theorem unseen_started (hfresh : host.Fresh) {bindingId : String} {asset : AssetDefinition}
    {u : World} (h : Unseen s t) (hstart : Started host bindingId asset none true false t u) :
    Unseen s u := by
  have hvacated : ∀ {w : World}, Vacated bindingId asset.assetId false t w → Unseen s w := by
    intro w hw
    cases hw with
    | kept => exact ⟨h.bindings, h.routes, h.gateway, h.runtimes⟩
    | stopped hreplaces _ => exact absurd hreplaces (by simp)
  cases hstart with
  | reused => exact h
  | routed _ _ hnew =>
    rw [routes_for_nobody hnew, replaceRoutes_nil]
    exact h
  | shown _ hattacker _ => exact absurd hattacker (by simp)
  | @launched w settings new hw _ hhidden hnew =>
    rw [routes_for_nobody hnew, replaceRoutes_nil]
    exact unseen_upsert (hvacated hw) (hfresh.runtime w) hhidden
  | @failed w settings hw hhidden =>
    exact unseen_upsert (hvacated hw) (hfresh.runtime w) hhidden

/-- What counts no hidden record counts what it did before. -/
theorem unionOf_unseen (h : Unseen s t) {before after : List (AssetRuntimeRecord → Bool)}
    (hcounts : List.Forall₂ (fun count count' => (∀ r, count r = count' r) ∧
      ∀ r, count' r = true → r.hidden = false) before after) (bindingId : String) :
    unionOf after (t.listByBinding bindingId) = unionOf before (s.listByBinding bindingId) := by
  obtain ⟨new, hruntimes, hhidden⟩ := h.runtimes
  refine congrArg (appendNew []) ?_
  induction hcounts with
  | nil => rfl
  | @cons count count' before after hcount _ ih =>
    rw [List.flatMap_cons, List.flatMap_cons, ih]
    refine congrArg (· ++ _) (congrArg (List.map _) ?_)
    have hnone : (new.filter fun r => r.bindingId == bindingId).filter count' = [] := by
      refine List.filter_eq_nil_iff.mpr fun r hr hcounted => ?_
      have hshown := hcount.2 r hcounted
      rw [hhidden r (List.mem_of_mem_filter hr)] at hshown
      exact absurd hshown (by simp)
    rw [World.listByBinding, World.listByBinding, hruntimes, List.filter_append, List.filter_append,
      hnone, List.append_nil]
    exact List.filter_congr fun r _ => (hcount.1 r).symm

theorem accessible_unseen (hfixed : FixedStatuses host) (h : Unseen s t) (bindingId : String) :
    listAccessibleAssetIds host t bindingId = listAccessibleAssetIds host s bindingId := by
  refine unionOf_unseen h (.cons ⟨fun r => ?_, fun r hr => ?_⟩ (.cons ⟨fun r => ?_, fun r hr => ?_⟩
    (.cons ⟨fun _ => rfl, fun r hr => ?_⟩ .nil))) bindingId
  · rw [composeRecordIsAccessible, composeRecordIsAccessible, hfixed.project s t]
  · exact (composeRecordIsAccessible_iff.mp hr).1.2
  · rw [runtimeRecordIsAccessible, runtimeRecordIsAccessible, hfixed.container s t]
  · exact (runtimeRecordIsAccessible_iff.mp hr).1.2
  · rw [mockRecordIsAccessible, Bool.and_eq_true, Bool.and_eq_true, Bool.not_eq_true'] at hr
    exact hr.1.2

theorem failed_unseen (hfixed : FixedStatuses host) (h : Unseen s t) (bindingId : String) :
    listFailedAssetIds host t bindingId = listFailedAssetIds host s bindingId := by
  have hruntime : ∀ r, runtimeRecordIsFailed host s r = runtimeRecordIsFailed host t r :=
    fun r => by rw [runtimeRecordIsFailed, runtimeRecordIsFailed, hfixed.container s t]
  refine unionOf_unseen h (.cons ⟨fun r => ?_, fun r hr => ?_⟩ (.cons ⟨hruntime, fun r hr => ?_⟩
    (.cons ⟨fun r => ?_, fun r hr => ?_⟩ .nil))) bindingId
  · rw [composeRecordIsFailed, composeRecordIsFailed, hfixed.project s t]
  · exact (composeRecordIsFailed_iff.mp hr).1
  · exact (status_of_runtimeRecordIsFailed hr).1
  · rw [hruntime]
  · exact (status_of_runtimeRecordIsFailed (Bool.and_eq_true_iff.mp hr).2).1

/-- **A prewarm shows nothing**: whatever it starts, what it leaves beside hidden records is what
there was, and no binding reaches or misses another asset. -/
theorem prewarm_unseen (hfresh : host.Fresh) (hfixed : FixedStatuses host) (s : World)
    (bindingId : String) (assetIds : List String) :
    Unseen s (exec (prewarm host bindingId assetIds) s).2 ∧ ∀ b,
      listAccessibleAssetIds host (exec (prewarm host bindingId assetIds) s).2 b =
          listAccessibleAssetIds host s b ∧
        listFailedAssetIds host (exec (prewarm host bindingId assetIds) s).2 b =
          listFailedAssetIds host s b := by
  have h : Unseen s (exec (prewarm host bindingId assetIds) s).2 :=
    (prewarm_keeps fun _ hw hstarted => unseen_started hfresh hw hstarted).after (Unseen.refl s)
  exact ⟨h, fun b => ⟨accessible_unseen hfixed h b, failed_unseen hfixed h b⟩⟩

end Unseen

/-- A repository that docker starts and a portal that is only recorded, both held warm. -/
def standbyCatalog : List AssetDefinition :=
  [{ assetId := "git-internal", exposureType := .internal,
     defaultSettings := [("runtime", .dict [("backend", .str "docker"), ("image", .str "gitea"),
       ("warm_standby", .bool true), ("port_mappings", .list [.dict
         [("requested_host_port", .int 18081), ("container_port", .int 3000)]])])] },
   { assetId := "internal-portal", exposureType := .internal,
     defaultSettings := [("runtime", .dict [("backend", .str "mock"),
       ("warm_standby", .bool true)])] }]

/-- Both are started for the binding, and it reaches neither. -/
theorem warm_catalog_unseen :
    Unseen boundWorld (exec (prewarm (quietHost standbyCatalog) "u" []) boundWorld).2 ∧ ∀ b,
      listAccessibleAssetIds (quietHost standbyCatalog)
          (exec (prewarm (quietHost standbyCatalog) "u" []) boundWorld).2 b =
        listAccessibleAssetIds (quietHost standbyCatalog) boundWorld b ∧
      listFailedAssetIds (quietHost standbyCatalog)
          (exec (prewarm (quietHost standbyCatalog) "u" []) boundWorld).2 b =
        listFailedAssetIds (quietHost standbyCatalog) boundWorld b :=
  prewarm_unseen (quietHost_fresh standbyCatalog) ⟨fun _ _ => rfl, fun _ _ => rfl⟩ boundWorld "u" []

end Honeynet.Orchestrator
