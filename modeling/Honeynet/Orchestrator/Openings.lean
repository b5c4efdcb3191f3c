import Honeynet.Orchestrator.Exposure

/-!
# What a call opens

A call opens what its actions ask for, one after the other, and stops where one of them raises.

* `Opened`: the bindings are those of before, with some more assets open for one of them.
* `Ledger`, `ledger_apply`: what each operation keeps of the bindings, a whole call keeps.
* `opened_apply`: a call opens an initial part of what its actions ask for, and nothing for other
  bindings.
* `bindingIds_apply`: nor does it add a binding or remove one.
* `exposureOf_served`: what the binding service serves opens nothing.
-/

namespace Honeynet.Orchestrator

open Collections Binding Effect

/-- The attacker of a binding, and what it has unlocked. -/
def exposureOf (bindings : List BindingRecord) (bindingId : String) :
    Option (String × List String) :=
  (getByBinding bindings bindingId).map fun r => (r.attackerKey, r.unlockedAssets)

theorem exposureOf_of_get {bindings : List BindingRecord} {r : BindingRecord} {bindingId : String}
    (h : getByBinding bindings bindingId = some r) :
    exposureOf bindings bindingId = some (r.attackerKey, r.unlockedAssets) := by
  rw [exposureOf, h, Option.map_some]

theorem unlocked_iff_exposureOf {bindings : List BindingRecord} {bindingId assetId : String} :
    Unlocked bindings bindingId assetId ↔
      ∃ attackerKey assetIds, exposureOf bindings bindingId = some (attackerKey, assetIds) ∧
        assetId ∈ assetIds := by
  constructor
  · intro ⟨r, hr, hasset⟩
    exact ⟨_, _, exposureOf_of_get hr, hasset⟩
  · intro ⟨attackerKey, assetIds, hexposure, hasset⟩
    obtain ⟨r, hr, heq⟩ := Option.map_eq_some_iff.mp hexposure
    obtain ⟨-, rfl⟩ := Prod.mk.inj heq
    exact ⟨r, hr, hasset⟩

/-- The bindings are those of `bindings`, with `added` open beside for one of them. -/
structure Opened (bindings : List BindingRecord) (bindingId : String) (added : List String)
    (w : World) : Prop where
  others : ∀ other, other ≠ bindingId → exposureOf w.bindings other = exposureOf bindings other
  own : exposureOf w.bindings bindingId = (exposureOf bindings bindingId).map fun e =>
    (e.1, appendNew e.2 added)

theorem opened_refl (bindingId : String) (w : World) : Opened w.bindings bindingId [] w where
  others _ _ := rfl
  own := by cases exposureOf w.bindings bindingId <;> rfl

/-! ### What a call keeps of the bindings -/

/-- **A property of the bindings along a call**: it tells what has been opened so far, each
operation adds what it names, and nothing else matters. -/
structure Ledger (host : Host) (bindingId : String) (I : List String → World → Prop) : Prop where
  call {op : BindingOp} {added : List String} : op.target = some bindingId →
    Triple (I added) (callBinding host op) (fun _ => I (added ++ op.ownAssets)) (I added)
  congr {added : List String} {w t : World} : I added w → t.bindings = w.bindings → I added t

/-- An initial part of what was asked for has been opened. -/
def UpTo (I : List String → World → Prop) (asked : List String) (w : World) : Prop :=
  ∃ added, added <+: asked ∧ I added w

section Ledger

variable {host : Host} {bindingId : String} {I : List String → World → Prop}
  (h : Ledger host bindingId I) {added : List String}

include h

theorem ledger_startEach (binding : BindingRecord) (runtimeOverride : String → Option Settings)
    (assetIds : List String) {E : World → Prop} :
    Triple (I added) (startEach host binding runtimeOverride assetIds) (fun _ => I added) E :=
  startEach_keeps fun _ _ _ hw hstarted => h.congr hw (bindings_started hstarted)

theorem ledger_applyUnlocks (binding : BindingRecord) (assetIds : List String) :
    Triple (I added) (applyUnlocks host binding bindingId assetIds)
      (fun _ => I (added ++ assetIds)) (I added) :=
  (h.call rfl).bind fun _ => Triple.pure fun _ hw => hw

theorem ledger_unlockAction (binding : BindingRecord) (assetId : String) :
    Triple (I added) (unlockAction host bindingId binding assetId)
      (fun _ => I (added ++ [assetId])) (I added) :=
  (ledger_applyUnlocks h binding [assetId]).bind fun _ =>
    (ledger_startEach h _ _ _).bind fun _ => Triple.pure fun _ hw => hw

theorem ledger_applyAssetConfiguration (now : Bool) (binding : BindingRecord)
    (assetId configurationId : String) (configuration : Settings) :
    Triple (I added)
      (applyAssetConfiguration host now binding assetId configurationId configuration)
      (fun _ => I added) (I added) := by
  refine Triple.ite (fun _ => ?_) fun _ => Triple.pure fun _ hw => hw
  refine Triple.of_forall fun w hw => (applyConfiguration_spec.conseq (fun _ => id) ?_ ?_).bind
    fun _ => Triple.pure fun _ ht => ht
  · intro record t hconfigured
    cases hconfigured with
    | none => exact hw
    | updated _ _ => exact h.congr hw rfl
  · intro t ht
    exact ht ▸ hw

theorem ledger_revealTarget (binding : BindingRecord) (target : Option String)
    (targetRuntime : Option Settings) :
    Triple (I added) (revealTarget host bindingId binding target targetRuntime)
      (fun _ => I (added ++ target.toList)) (I added) := by
  cases target with
  | none => exact Triple.pure fun w hw => (List.append_nil added).symm ▸ hw
  | some target =>
    exact (ledger_applyUnlocks h binding [target]).bind fun _ =>
      (ledger_startEach h _ _ _).bind fun _ => Triple.pure fun _ hw => hw

theorem ledger_configureAction (assetId configurationId : String) (action : ControllerAction) :
    Triple (I added) (configureAction host bindingId assetId configurationId action)
      (fun _ => I (added ++ (given action.targetAssetId).toList))
      (UpTo I (added ++ (given action.targetAssetId).toList)) := by
  have hbefore : ∀ w, I added w → UpTo I (added ++ (given action.targetAssetId).toList) w :=
    fun w hw => ⟨added, List.prefix_append _ _, hw⟩
  have hreveal : Triple (I added)
      (callBinding host (.revealConfigurations bindingId [(assetId, [configurationId])]))
      (fun _ => I added) (I added) :=
    (h.call rfl).post fun _ w hw => by simpa [BindingOp.ownAssets] using hw
  refine (hreveal.conseq (fun _ => id) (fun _ _ => id) hbefore).bind fun binding => ?_
  refine ((ledger_applyAssetConfiguration h _ binding assetId configurationId _).conseq
    (fun _ => id) (fun _ _ => id) hbefore).bind fun _ => ?_
  refine ((ledger_revealTarget h binding _ _).conseq (fun _ => id) (fun _ _ => id) hbefore).bind
    fun progress => ?_
  refine ((ledger_applyAssetConfiguration h _ progress.binding assetId configurationId _).conseq
    (fun _ => id) (fun _ _ => id) ?_).bind fun _ => Triple.pure fun _ hw => hw
  exact fun w hw => ⟨_, List.prefix_refl _, hw⟩

theorem ledger_recycleAction :
    Triple (I added) (recycleAction host bindingId) (fun _ => I added) (I added) := by
  have hstops : Triple (I added) (stopBindingAssets host bindingId) (fun _ => I added)
      (I added) :=
    stopBindingAssets_spec (C := fun _ => True) (fun _ _ _ _ _ => trivial)
      (fun _ _ hw => h.congr hw rfl) fun _ _ hw _ => h.congr hw rfl
  have hcall : Triple (I added) (callBinding host (.recycle bindingId .idle)) (fun _ => I added)
      (I added) :=
    (h.call rfl).post fun _ w hw => by simpa [BindingOp.ownAssets] using hw
  exact hstops.bind fun _ => hcall.bind fun _ => Triple.pure fun _ hw => hw

/-- **One action** opens the asset it asks for, unless it raises before. -/
theorem ledger_applyAction (binding : BindingRecord) (action : ControllerAction) :
    Triple (I added) (applyAction host bindingId binding action)
      (fun _ => I (added ++ (requested action).toList))
      (UpTo I (added ++ (requested action).toList)) := by
  have hbefore : ∀ asked w, I added w → UpTo I (added ++ asked) w := fun asked w hw =>
    ⟨added, List.prefix_append _ _, hw⟩
  have hnothing : Triple (I added) (pure { binding } : Orchestrate Progress)
      (fun _ => I (added ++ [])) (UpTo I (added ++ [])) :=
    Triple.pure fun w hw => (List.append_nil added).symm ▸ hw
  cases htype : action.actionType with
  | unlock =>
    cases hasset : given action.assetId with
    | none =>
      simp only [applyAction, requested, htype, hasset]
      exact hnothing
    | some assetId =>
      simp only [applyAction, requested, htype, hasset]
      exact (ledger_unlockAction h binding assetId).conseq (fun _ => id) (fun _ _ => id)
        (hbefore _)
  | configure =>
    cases hasset : given action.assetId with
    | none =>
      simp only [applyAction, requested, htype, hasset]
      exact hnothing
    | some assetId =>
      cases hconfiguration : given action.configurationId with
      | none =>
        simp only [applyAction, requested, htype, hasset, hconfiguration]
        exact hnothing
      | some configurationId =>
        simp only [applyAction, requested, htype, hasset, hconfiguration]
        exact ledger_configureAction h assetId configurationId action
  | routeUpdate =>
    simp only [applyAction, requested, htype]
    exact Triple.pure fun w hw => (List.append_nil added).symm ▸ hw
  | recycle =>
    simp only [applyAction, requested, htype]
    exact (ledger_recycleAction h).conseq (fun _ => id)
      (fun _ w hw => (List.append_nil added).symm ▸ hw) (hbefore _)
  | bind =>
    simp only [applyAction, requested, htype]
    exact hnothing
  | noop =>
    simp only [applyAction, requested, htype]
    exact hnothing

theorem ledger_applyActions (binding : BindingRecord) (actions : List ControllerAction) :
    Triple (I added) (applyActions host bindingId binding actions)
      (fun _ => I (added ++ actions.filterMap requested))
      (UpTo I (added ++ actions.filterMap requested)) := by
  induction actions generalizing binding added with
  | nil => exact Triple.pure fun w hw => (List.append_nil added).symm ▸ hw
  | cons action actions ih =>
    have hsplit : added ++ (action :: actions).filterMap requested =
        (added ++ (requested action).toList) ++ actions.filterMap requested := by
      rw [List.filterMap_cons, List.append_assoc]
      cases requested action <;> rfl
    rw [hsplit]
    refine ((ledger_applyAction h binding action).conseq (fun _ => id) (fun _ _ => id) ?_).bind
      fun first => (ih first.binding).bind fun _ => Triple.pure fun _ hw => hw
    exact fun w ⟨l, hl, hw⟩ => ⟨l, hl.trans (List.prefix_append _ _), hw⟩

/-- **A call opens an initial part of what its actions ask for**, whether it returns or raises. -/
theorem ledger_apply {w : World} (hw : I [] w) (actions : List ControllerAction) :
    UpTo I (actions.filterMap requested) (exec (apply host bindingId actions) w).2 := by
  have happly : Triple (I []) (apply host bindingId actions)
      (fun _ => UpTo I (actions.filterMap requested))
      (UpTo I (actions.filterMap requested)) := by
    refine (getBinding_spec.conseq (fun _ => id) (fun _ _ => And.left) ?_).bind fun binding => ?_
    · exact fun t ht => ⟨[], List.nil_prefix, ht⟩
    · refine (ledger_applyActions h binding actions).bind fun progress => ?_
      refine (Triple.modify fun t ht => ?_).bind fun _ => Triple.pure fun _ ht => ht
      exact ⟨_, List.prefix_refl _, h.congr ht rfl⟩
  exact happly.after hw

end Ledger

/-! ### What is open -/

/-- An update in place leaves the other bindings. -/
theorem exposureOf_upsert_ne {records : List BindingRecord} (w : BindingRecord) {other : String}
    (hne : other ≠ w.bindingId) :
    exposureOf (upsert w records) other = exposureOf records other := by
  rw [exposureOf, getByBinding_upsert_ne _ _ hne, ← exposureOf]

/-- **One operation on the binding** opens what it names. -/
theorem opened_ledger (host : Host) (bindings : List BindingRecord) (bindingId : String) :
    Ledger host bindingId (Opened bindings bindingId) where
  call {op added} htarget := by
    refine Triple.of_forall fun w hw => (callBinding_spec host op w).conseq (fun _ => id) ?_ ?_
    · rintro record _ ⟨records, hcall, rfl⟩
      obtain ⟨written, hwrite, heq⟩ := Fallible.bind_eq_ok.mp hcall
      obtain ⟨-, rfl⟩ := Prod.mk.inj (Except.ok.inj heq)
      rcases BindingOp.write_eq hwrite with ⟨attackerKey, hop, -⟩ | ⟨r, status, hread, rfl⟩
      · exact absurd htarget (by rw [hop]; simp [BindingOp.target])
      · obtain ⟨hget, hid⟩ := BindingOp.read_spec hread
        obtain rfl := hid bindingId htarget
        generalize hwritten : op.updated _ status r = written at *
        have hsame : written.bindingId = r.bindingId := hwritten ▸ rfl
        refine ⟨?_, ?_⟩
        · intro other hother
          exact (exposureOf_upsert_ne written (hsame ▸ hother)).trans (hw.others other hother)
        · have hown := hw.own
          rw [exposureOf_of_get hget] at hown
          obtain ⟨e, he, heq⟩ := Option.map_eq_some_iff.mp hown.symm
          obtain ⟨hkey, hunlocked⟩ := Prod.mk.inj heq
          have hself := exposureOf_of_get (getByBinding_upsert_self written w.bindings)
          show exposureOf (upsert written w.bindings) r.bindingId = _
          rw [← hsame, hself, hsame, he, Option.map_some, appendNew_append, hunlocked, hkey,
            ← hwritten]
          rfl
    · intro t ht
      exact ht ▸ hw
  congr {added w t} hw heq := by
    refine ⟨?_, ?_⟩
    · rw [heq]
      exact hw.others
    · rw [heq]
      exact hw.own

/-- **A call opens nothing for other bindings**, and an initial part of what it asks for. -/
theorem opened_apply (host : Host) (bindingId : String) (actions : List ControllerAction)
    (w : World) : UpTo (Opened w.bindings bindingId) (actions.filterMap requested)
      (exec (apply host bindingId actions) w).2 :=
  ledger_apply (opened_ledger host w.bindings bindingId) (opened_refl bindingId w) actions

/-! ### Which bindings there are -/

def bindingIds (w : World) : List String := w.bindings.map BindingRecord.bindingId

/-- **One operation** leaves the ids as they are; only a resolve may add a new one. -/
theorem bindingIds_callBinding (host : Host) (op : BindingOp) (w : World) :
    bindingIds (exec (callBinding host op) w).2 = bindingIds w ∨
      (op.target = none ∧ bindingIds (exec (callBinding host op) w).2 =
        addNew (bindingIds w) (host.bindingUuid w)) := by
  have hcall : Triple (fun t => t = w) (callBinding host op)
      (fun _ t => bindingIds t = bindingIds w ∨ (op.target = none ∧
        bindingIds t = addNew (bindingIds w) (host.bindingUuid w)))
      (fun t => bindingIds t = bindingIds w ∨ (op.target = none ∧
        bindingIds t = addNew (bindingIds w) (host.bindingUuid w))) := by
    refine (callBinding_spec host op w).conseq (fun _ => id) ?_ fun t ht => Or.inl (by rw [ht])
    rintro record _ ⟨records, hcall, rfl⟩
    obtain ⟨written, hwrite, heq⟩ := Fallible.bind_eq_ok.mp hcall
    obtain ⟨-, rfl⟩ := Prod.mk.inj (Except.ok.inj heq)
    have hids : (upsert written w.bindings).map BindingRecord.bindingId =
        addNew (bindingIds w) written.bindingId := by
      rw [upsert, map_key_upsertBy]
      rfl
    rcases BindingOp.write_eq hwrite with ⟨attackerKey, rfl, rfl⟩ | ⟨r, status, hread, rfl⟩
    · exact Or.inr ⟨rfl, hids⟩
    · refine Or.inl (hids.trans ?_)
      rw [addNew, if_pos]
      exact mem_ids_of_get (BindingOp.read_spec hread).1
  exact hcall.after rfl

theorem nodup_bindingIds_binding (host : Host) (op : BindingOp) {w : World}
    (h : (bindingIds w).Nodup) : (bindingIds (exec (callBinding host op) w).2).Nodup := by
  rcases bindingIds_callBinding host op w with hsame | ⟨-, hnew⟩
  · exact hsame ▸ h
  · exact hnew ▸ nodup_addNew h _

theorem bindingIds_ledger (host : Host) (bindingId : String) (ids : List String) :
    Ledger host bindingId fun _ w => bindingIds w = ids where
  call {op _} htarget := by
    intro w hw
    have hafter := (bindingIds_callBinding host op w).resolve_right fun hnone =>
      absurd (htarget.symm.trans hnone.1) (by simp)
    refine ⟨fun record t ht => ?_, fun e t ht => ?_⟩
    · rw [ht] at hafter
      exact hafter.trans hw
    · rw [ht] at hafter
      exact hafter.trans hw
  congr {_ w t} hw heq := by
    show t.bindings.map _ = ids
    rw [heq]
    exact hw

/-- A call adds no bindings and removes none. -/
theorem bindingIds_apply (host : Host) (bindingId : String) (actions : List ControllerAction)
    (w : World) : bindingIds (exec (apply host bindingId actions) w).2 = bindingIds w := by
  obtain ⟨_, _, hids⟩ :=
    ledger_apply (bindingIds_ledger host bindingId (bindingIds w)) (w := w) rfl actions
  exact hids

/-! ### What stays open -/

/-- What was open stays open, for the same attackers. -/
def StaysOpen (bindings bindings' : List BindingRecord) : Prop :=
  ∀ bindingId attackerKey assetIds, exposureOf bindings bindingId = some (attackerKey, assetIds) →
    ∃ assetIds', exposureOf bindings' bindingId = some (attackerKey, assetIds') ∧
      assetIds ⊆ assetIds'

theorem StaysOpen.refl (bindings : List BindingRecord) : StaysOpen bindings bindings :=
  fun _ _ assetIds h => ⟨assetIds, h, fun _ => id⟩

theorem StaysOpen.trans {a b c : List BindingRecord} (hab : StaysOpen a b) (hbc : StaysOpen b c) :
    StaysOpen a c := by
  intro bindingId attackerKey assetIds h
  obtain ⟨assetIds', h', hsub⟩ := hab bindingId attackerKey assetIds h
  obtain ⟨assetIds'', h'', hsub'⟩ := hbc bindingId attackerKey assetIds' h'
  exact ⟨assetIds'', h'', fun x hx => hsub' (hsub hx)⟩

theorem Opened.staysOpen {bindings : List BindingRecord} {bindingId : String} {added : List String}
    {w : World} (h : Opened bindings bindingId added w) : StaysOpen bindings w.bindings := by
  intro other attackerKey assetIds hold
  by_cases hother : other = bindingId
  · subst hother
    refine ⟨appendNew assetIds added, ?_, (prefix_appendNew assetIds added).subset⟩
    rw [h.own, hold, Option.map_some]
  · exact ⟨assetIds, (h.others other hother).trans hold, fun _ => id⟩

/-- The operations the binding service serves over HTTP; it has no endpoint that unlocks. -/
def Served : BindingOp → Prop
  | .resolve _ | .heartbeat _ _ | .recycle _ _ => True
  | .unlockAssets _ _ | .revealConfigurations _ _ => False

/-- **A served operation opens nothing**, and what it allocates has nothing open. -/
theorem exposureOf_served {host : Host} (hfresh : host.Fresh) {op : BindingOp} (hop : Served op)
    (w : World) (bindingId : String) :
    exposureOf (exec (callBinding host op) w).2.bindings bindingId =
        exposureOf w.bindings bindingId ∨
      (exposureOf w.bindings bindingId = none ∧ ∃ attackerKey,
        exposureOf (exec (callBinding host op) w).2.bindings bindingId = some (attackerKey, [])) := by
  have hcall : Triple (fun t => t = w) (callBinding host op)
      (fun _ t => exposureOf t.bindings bindingId = exposureOf w.bindings bindingId ∨
        (exposureOf w.bindings bindingId = none ∧ ∃ attackerKey,
          exposureOf t.bindings bindingId = some (attackerKey, [])))
      (fun t => exposureOf t.bindings bindingId = exposureOf w.bindings bindingId ∨
        (exposureOf w.bindings bindingId = none ∧ ∃ attackerKey,
          exposureOf t.bindings bindingId = some (attackerKey, []))) := by
    refine (callBinding_spec host op w).conseq (fun _ => id) ?_ fun t ht => Or.inl (by rw [ht])
    rintro record _ ⟨records, hcall, rfl⟩
    obtain ⟨written, hwrite, heq⟩ := Fallible.bind_eq_ok.mp hcall
    obtain ⟨-, rfl⟩ := Prod.mk.inj (Except.ok.inj heq)
    by_cases hid : bindingId = written.bindingId
    · have hself := exposureOf_of_get (getByBinding_upsert_self written w.bindings)
      subst hid
      rcases BindingOp.write_eq hwrite with ⟨attackerKey, -, hwritten⟩ | ⟨r, status, hread, hwritten⟩
      · refine Or.inr ⟨?_, attackerKey, ?_⟩
        · rw [exposureOf, Option.map_eq_none_iff, Option.eq_none_iff_forall_not_mem]
          intro r hr
          have hmem := mem_ids_of_get hr
          rw [hwritten] at hmem
          exact hfresh.binding w hmem
        · show exposureOf (upsert written w.bindings) written.bindingId = _
          rw [hself, hwritten]
          rfl
      · refine Or.inl ?_
        obtain ⟨hget, -⟩ := BindingOp.read_spec hread
        have hsame : written.bindingId = r.bindingId := hwritten ▸ rfl
        show exposureOf (upsert written w.bindings) written.bindingId = _
        rw [hself, hsame, exposureOf_of_get hget, hwritten]
        cases op with
        | unlockAssets b assetIds => exact hop.elim
        | revealConfigurations b configurations => exact hop.elim
        | _ => rfl
    · exact Or.inl (exposureOf_upsert_ne written hid)
  exact hcall.after rfl

theorem staysOpen_served {host : Host} (hfresh : host.Fresh) {op : BindingOp} (hop : Served op)
    (w : World) : StaysOpen w.bindings (exec (callBinding host op) w).2.bindings := by
  intro bindingId attackerKey assetIds hold
  rcases exposureOf_served hfresh hop w bindingId with hsame | ⟨hnone, -⟩
  · exact ⟨assetIds, hsame.trans hold, fun _ => id⟩
  · exact absurd (hnone.symm.trans hold) (by simp)

/-- A prewarm opens nothing. -/
theorem bindings_prewarm (host : Host) (bindingId : String) (assetIds : List String) (w : World) :
    (exec (prewarm host bindingId assetIds) w).2.bindings = w.bindings := by
  have hkeeps : Triple (fun t => t.bindings = w.bindings) (prewarm host bindingId assetIds)
      (fun _ t => t.bindings = w.bindings) fun t => t.bindings = w.bindings :=
    prewarm_keeps fun _ ht hstarted => (bindings_started hstarted).trans ht
  exact hkeeps.after rfl

end Honeynet.Orchestrator
