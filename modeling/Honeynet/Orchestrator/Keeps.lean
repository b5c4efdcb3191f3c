import Honeynet.Orchestrator.Service
import Honeynet.Orchestrator.Starts

/-!
# What a property of the stores must survive

A call of the orchestrator is a chain of starts, configurations and stops, with writes of
bindings and of the gateway between them.

* `startEach_keeps`, `prewarm_keeps`: what each start keeps, one start after another keeps.
* `Keeps`: the property survives a start, a configuration and the other writes.
* `keeps_applyAction`, `keeps_applyActions`: it then survives every action that is not a recycle,
  and a recycle if it survives the stop of the binding.
* `keeps_call`: it survives every such call, whether the call returns or raises.
-/

namespace Honeynet.Orchestrator

open Binding Effect

/-- **A property that starts, configurations and the writes beside them keep.**  A warm standby
replaces nothing and is for nobody. -/
structure Keeps (host : Host) (I : World → Prop) : Prop where
  started {bindingId : String} {asset : AssetDefinition} {attacker : Option String}
    {warmStandby replaces : Bool} {s t : World} : asset ∈ host.catalog →
      (warmStandby = true → replaces = false ∧ attacker = none) → I s →
      Started host bindingId asset attacker warmStandby replaces s t → I t
  configured {bindingId assetId : String} {s t : World} :
    I s → Configured bindingId assetId s t → I t
  rest (w : World) (bindings : List BindingRecord) (gateway : List GatewayBindingState) :
    I w → I { w with bindings, gateway }

/-- The property survives what a recycle does to the records of a binding. -/
def KeepsRecycle (host : Host) (bindingId : String) (I : World → Prop) : Prop :=
  Triple I (stopBindingAssets host bindingId) (fun _ => I) I

section Keeps

variable {host : Host} {I : World → Prop} {bindingId : String}

/-! ### Starts one after another -/

theorem startAsset_keeps {asset : AssetDefinition} {attackerKey : Option String}
    {warmStandby : Bool} {runtimeOverride : Option Settings}
    (h : ∀ {s t : World}, I s → Started host bindingId asset (given attackerKey) warmStandby
      runtimeOverride.isSome s t → I t) {E : World → Prop} :
    Triple I (startAsset host bindingId asset attackerKey warmStandby runtimeOverride)
      (fun _ => I) E :=
  Triple.of_forall fun _ hw => startAsset_spec.conseq (fun _ => id)
    (fun _ _ hstarted => h hw hstarted) fun _ hfalse => hfalse.elim

theorem assetById_spec {assetId : String} {asset : AssetDefinition}
    (h : assetById host assetId = some asset) : asset ∈ host.catalog ∧ asset.assetId = assetId := by
  have hfound := List.find?_some h
  exact ⟨List.mem_of_find?_eq_some h, beq_iff_eq.mp hfound⟩

/-- **What each start for an attacker keeps**, the starts of a list keep. -/
theorem startEach_keeps {binding : BindingRecord} {runtimeOverride : String → Option Settings}
    {assetIds : List String}
    (h : ∀ {asset : AssetDefinition} {replaces : Bool} {s t : World}, asset ∈ host.catalog →
      asset.assetId ∈ assetIds → (replaces = true → ∃ assetId, (runtimeOverride assetId).isSome) →
      I s →
      Started host binding.bindingId asset (given (some binding.attackerKey)) false replaces s t →
      I t) {E : World → Prop} :
    Triple I (startEach host binding runtimeOverride assetIds) (fun _ => I) E := by
  induction assetIds with
  | nil => exact Triple.pure fun _ hw => hw
  | cons assetId assetIds ih =>
    have hfirst : Triple I (startAssetRuntime host binding assetId (runtimeOverride assetId))
        (fun _ => I) E := by
      cases hasset : assetById host assetId with
      | none =>
        simp only [startAssetRuntime, hasset]
        exact Triple.pure fun _ hw => hw
      | some asset =>
        simp only [startAssetRuntime, hasset]
        obtain ⟨hmem, rfl⟩ := assetById_spec hasset
        refine (startAsset_keeps ?_).bind fun _ => Triple.pure fun _ hw => hw
        exact h hmem List.mem_cons_self fun hsome => ⟨asset.assetId, hsome⟩
    have hrest := ih fun hasset hmem => h hasset (List.mem_cons_of_mem assetId hmem)
    exact hfirst.bind fun _ => hrest.bind fun _ => Triple.pure fun _ hw => hw

theorem prewarmEach_keeps {assets : List AssetDefinition}
    (h : ∀ {asset : AssetDefinition} {s t : World}, asset ∈ assets → I s →
      Started host bindingId asset none true false s t → I t) {E : World → Prop} :
    Triple I (prewarmEach host bindingId assets) (fun _ => I) E := by
  induction assets with
  | nil => exact Triple.pure fun _ hw => hw
  | cons asset assets ih =>
    have hfirst : Triple I (prewarmAsset host bindingId asset) (fun _ => I) E :=
      startAsset_keeps fun hw hstarted => h List.mem_cons_self hw hstarted
    have hrest := ih fun hmem => h (List.mem_cons_of_mem asset hmem)
    exact hfirst.bind fun _ => hrest.bind fun _ => Triple.pure fun _ hw => hw

/-! ### Reading the binding -/

theorem getBinding_spec {P : World → Prop} :
    Triple P (getBinding bindingId)
      (fun record w => P w ∧ getByBinding w.bindings bindingId = some record) P := by
  refine Triple.get_bind fun w hw => ?_
  split
  · rename_i record hrecord
    refine Triple.pure ?_
    rintro _ rfl
    exact ⟨hw, hrecord⟩
  · refine Triple.throw ?_
    rintro _ rfl
    exact hw

/-- **What each hidden start keeps**, a prewarm keeps. -/
theorem prewarm_keeps {assetIds : List String}
    (h : ∀ {bindingId : String} {asset : AssetDefinition} {s t : World}, asset ∈ host.catalog →
      I s → Started host bindingId asset none true false s t → I t) :
    Triple I (prewarm host bindingId assetIds) (fun _ => I) I :=
  (getBinding_spec.post fun _ _ => And.left).bind fun _ =>
    prewarmEach_keeps fun hasset => h (List.mem_filter.mp hasset).1

/-! ### Actions -/

theorem keeps_callBinding (h : Keeps host I) (op : BindingOp) :
    Triple I (callBinding host op) (fun _ => I) I := by
  refine Triple.of_forall fun w hw => (callBinding_spec host op w).conseq (fun _ => id) ?_ ?_
  · rintro record _ ⟨records, _, rfl⟩
    exact h.rest w records w.gateway hw
  · rintro _ rfl
    exact hw

theorem keeps_startEach (h : Keeps host I) (binding : BindingRecord)
    (runtimeOverride : String → Option Settings) (assetIds : List String) {E : World → Prop} :
    Triple I (startEach host binding runtimeOverride assetIds) (fun _ => I) E :=
  startEach_keeps fun hasset _ _ hw hstarted =>
    h.started hasset (fun hwarm => absurd hwarm (by decide)) hw hstarted

theorem keeps_applyUnlocks (h : Keeps host I) (binding : BindingRecord)
    (assetIds : List String) :
    Triple I (applyUnlocks host binding bindingId assetIds) (fun _ => I) I :=
  (keeps_callBinding h _).bind fun _ => Triple.pure fun _ hw => hw

theorem keeps_unlockAction (h : Keeps host I) (binding : BindingRecord) (assetId : String) :
    Triple I (unlockAction host bindingId binding assetId) (fun _ => I) I :=
  (keeps_applyUnlocks h binding _).bind fun out =>
    (keeps_startEach h out.1 _ _).bind fun _ => Triple.pure fun _ hw => hw

theorem keeps_applyAssetConfiguration (h : Keeps host I) (now : Bool) (binding : BindingRecord)
    (assetId configurationId : String) (configuration : Settings) :
    Triple I (applyAssetConfiguration host now binding assetId configurationId configuration)
      (fun _ => I) I := by
  refine Triple.ite (fun _ => ?_) fun _ => Triple.pure fun _ hw => hw
  refine Triple.of_forall fun w hw => (applyConfiguration_spec.conseq (fun _ => id)
    (fun _ _ hconfigured => h.configured hw hconfigured) ?_).bind
      fun _ => Triple.pure fun _ hw => hw
  rintro _ rfl
  exact hw

theorem keeps_revealTarget (h : Keeps host I) (binding : BindingRecord) (target : Option String)
    (targetRuntime : Option Settings) :
    Triple I (revealTarget host bindingId binding target targetRuntime) (fun _ => I) I := by
  cases target with
  | none => exact Triple.pure fun _ hw => hw
  | some target =>
    exact (keeps_applyUnlocks h binding _).bind fun out =>
      (keeps_startEach h out.1 _ _).bind fun _ => Triple.pure fun _ hw => hw

theorem keeps_configureAction (h : Keeps host I) (assetId configurationId : String)
    (action : ControllerAction) :
    Triple I (configureAction host bindingId assetId configurationId action) (fun _ => I) I :=
  (keeps_callBinding h _).bind fun binding =>
    (keeps_applyAssetConfiguration h _ binding assetId configurationId _).bind fun _ =>
      (keeps_revealTarget h binding _ _).bind fun progress =>
        (keeps_applyAssetConfiguration h _ progress.binding assetId configurationId _).bind
          fun _ => Triple.pure fun _ hw => hw

/-- **One action**, with the stop of the binding where the action is a recycle. -/
theorem keeps_applyAction (h : Keeps host I) {action : ControllerAction}
    (hrecycle : action.actionType = .recycle → KeepsRecycle host bindingId I)
    (binding : BindingRecord) :
    Triple I (applyAction host bindingId binding action) (fun _ => I) I := by
  rw [applyAction]
  split
  · exact keeps_unlockAction h binding _
  · exact keeps_configureAction h _ _ action
  · exact Triple.pure fun _ hw => hw
  · rename_i htype
    exact (hrecycle htype).bind fun _ =>
      (keeps_callBinding h _).bind fun _ => Triple.pure fun _ hw => hw
  · exact Triple.pure fun _ hw => hw

theorem keeps_applyActions (h : Keeps host I) {actions : List ControllerAction}
    (hrecycle : ∀ action ∈ actions, action.actionType = .recycle → KeepsRecycle host bindingId I)
    (binding : BindingRecord) :
    Triple I (applyActions host bindingId binding actions) (fun _ => I) I := by
  induction actions generalizing binding with
  | nil => exact Triple.pure fun _ hw => hw
  | cons action actions ih =>
    obtain ⟨hfirst, hrest⟩ := List.forall_mem_cons.mp hrecycle
    exact (keeps_applyAction h hfirst binding).bind fun first =>
      (ih hrest first.binding).bind fun _ => Triple.pure fun _ hw => hw

/-! ### Calls -/

theorem keeps_apply (h : Keeps host I) {actions : List ControllerAction}
    (hrecycle : ∀ action ∈ actions,
      action.actionType = .recycle → KeepsRecycle host bindingId I) :
    Triple I (apply host bindingId actions) (fun _ => I) I :=
  (getBinding_spec.post fun _ _ => And.left).bind fun binding =>
    (keeps_applyActions h hrecycle binding).bind fun _ =>
      (Triple.modify fun w hw => h.rest w w.bindings _ hw).bind fun _ => Triple.pure fun _ hw => hw

theorem keeps_prewarm (h : Keeps host I) (assetIds : List String) :
    Triple I (prewarm host bindingId assetIds) (fun _ => I) I :=
  prewarm_keeps fun hasset hw hstarted => h.started hasset (fun _ => ⟨rfl, rfl⟩) hw hstarted

/-- **A whole call.** -/
theorem keeps_call (h : Keeps host I) (call : Call)
    (hrecycle : ∀ bindingId actions, call = .apply bindingId actions →
      ∀ action ∈ actions, action.actionType = .recycle → KeepsRecycle host bindingId I)
    {s : World} (hs : I s) : I (call.run host s) := by
  cases call with
  | binding op => exact (keeps_callBinding h op).after hs
  | apply bindingId actions => exact (keeps_apply h (hrecycle bindingId actions rfl)).after hs
  | prewarm bindingId assetIds => exact (keeps_prewarm h assetIds).after hs

end Keeps

end Honeynet.Orchestrator
