import Honeynet.Controller.Structure
import Honeynet.System.Pass

/-!
# What the loop asks of the services

An asset is opened by the orchestrator, for a request of the loop, which the loop took from an
answer of the controller, which the controller gave for what the loop read of the binding.

* `AskedAbout`: a tick was about a stored binding, behind an open gate and for new evidence.
* `Warranted`, `warranted_of_tick`: what an answer may ask to open.
* `worldAfter_cases`: what the orchestrator is sent, and what becomes of the stores.
-/

namespace Honeynet.System

open Collections Binding Controller Loop Orchestrator

/-! ### What the loop reads of a binding -/

theorem stringList_map (strings : List String) :
    stringList? (strings.map .str) = some strings := by
  rw [stringList?]
  induction strings with
  | nil => rfl
  | cons s strings ih => simp [List.mapM_cons, Value.str?, ih]

theorem stringLists_map (revealed : Dict String (List String)) :
    (revealed.map fun e => (e.1, Value.list (e.2.map .str))).mapM stringLists? = some revealed := by
  have hentry : ∀ e : String × List String,
      stringLists? (e.1, Value.list (e.2.map .str)) = some e := by
    intro e
    simp [stringLists?, Value.list?, stringList_map]
  induction revealed with
  | nil => rfl
  | cons e revealed ih => simp [List.mapM_cons, hentry, ih]

section Read

variable {F : Type} {opts : LoopOptions} {text : Datetime → String} {m : Moment F}
  {bindings : List BindingRecord} {w : World} {s : LoopState} {attackerKey : String}
  {profile : Value}

/-- The binding the loop takes for an attacker is one it has read. -/
theorem mem_bindingsByAttacker (hstr : ∀ s, opts.str (.str s) = s) {inp : PassInput}
    (hinp : inp.bindings = bindings.map fun r => .dict (Dashboard.modelDump text r))
    {binding : Settings} (h : (bindingsByAttacker opts inp).get? attackerKey = some binding) :
    ∃ r ∈ bindings, r.attackerKey = attackerKey ∧ binding = Dashboard.modelDump text r := by
  have hset : ∀ (d : Dict String Settings) (r : BindingRecord),
      (if ((Dashboard.modelDump text r).get "attacker_key").truthy then
        Dict.set d (opts.str ((Dashboard.modelDump text r).get "attacker_key"))
          (Dashboard.modelDump text r)
      else d) = if r.attackerKey != "" then
        Dict.set d r.attackerKey (Dashboard.modelDump text r) else d := by
    intro d r
    rw [Dashboard.get_attackerKey, hstr, Value.truthy]
  rw [bindingsByAttacker, hinp, List.foldl_map] at h
  simp only [hset] at h
  rw [← List.foldl_filter, Dict.get?, lookup_foldl_set_map, List.lookup_nil, Option.or_none,
    Option.map_eq_some_iff] at h
  obtain ⟨r, hr, hdump⟩ := h
  obtain ⟨hmem, hkey⟩ := findLast_mem hr
  exact ⟨r, (List.mem_filter.mp hmem).1, hkey, hdump.symm⟩

/-- **A tick about a stored binding**: the gate was open and there was new evidence, and the
request said what was stored. -/
structure AskedAbout (opts : LoopOptions) (r : BindingRecord) (a : Answered F) : Prop where
  attackerKey : a.request.attackerKey = r.attackerKey
  bindingId : a.request.bindingId = r.bindingId
  unlocked : a.request.unlockedAssetIds = r.unlockedAssets
  revealed : a.request.revealedConfigurations = r.revealedConfigurations
  assets : a.request.assets = []
  returned : tick a.controller a.request = .ok a.response
  open_gate : gateAllows a.loop r.attackerKey r.bindingId a.payload.profile
  new_evidence : triggers opts a.loop r.attackerKey a.payload.profile

/-- What the loop asks is about the binding it took. -/
theorem controllerRequest_binding (hstr : ∀ s, opts.str (.str s) = s) {q : TickPayload}
    (h : controllerRequest opts (m.input text bindings w) s attackerKey profile = some q) :
    ∃ r ∈ bindings, r.attackerKey = attackerKey ∧
      q = ⟨attackerKey, r.bindingId, q.profile, r.unlockedAssets.map .str,
        r.revealedConfigurations.map fun e => (e.1, .list (e.2.map .str))⟩ ∧
      gateAllows s attackerKey r.bindingId q.profile ∧ triggers opts s attackerKey q.profile := by
  rw [controllerRequest] at h
  split at h
  · rename_i profile bindingId unlocked revealed _ hruntime
    obtain ⟨binding, hbinding, hinputs⟩ := Option.bind_eq_some_iff.mp hruntime
    obtain ⟨r, hr, hkey, rfl⟩ := mem_bindingsByAttacker hstr rfl hbinding
    obtain ⟨rfl, hlists⟩ := Prod.mk.inj (Option.some.inj hinputs)
    obtain ⟨rfl, rfl⟩ := Prod.mk.inj hlists
    split at h
    · rename_i hopen
      obtain ⟨htriggers, hgate⟩ := Bool.and_eq_true_iff.mp hopen
      obtain rfl := Option.some.inj h
      exact ⟨r, hr, hkey, rfl, hgate, htriggers⟩
    · exact absurd h (by simp)
  · exact absurd h (by simp)

theorem controllerTick_eq_some {services : Services F} {q : TickPayload}
    {answer : ControllerTickRequest F × ControllerTickResponse F} :
    controllerTick services q = some answer ↔
      tickRequest services q = some answer.1 ∧ tick services.controller answer.1 = .ok answer.2 := by
  obtain ⟨request, response⟩ := answer
  show controllerTick services q = some (request, response) ↔
    tickRequest services q = some request ∧ tick services.controller request = .ok response
  unfold controllerTick
  constructor
  · intro h
    obtain ⟨request', hrequest, h⟩ := Option.bind_eq_some_iff.mp h
    obtain ⟨response', hresponse, h⟩ := Option.bind_eq_some_iff.mp h
    obtain ⟨rfl, rfl⟩ := Prod.mk.inj (Option.some.inj h)
    refine ⟨hrequest, ?_⟩
    cases htick : tick services.controller request' with
    | error e =>
      rw [htick] at hresponse
      cases hresponse
    | ok r =>
      rw [htick] at hresponse
      rw [Option.some.inj hresponse]
  · intro h
    rw [h.1]
    show ((tick services.controller request).toOption.bind fun r => some (request, r)) = _
    rw [h.2]
    rfl

/-- **An answered tick was about a binding the pass has read.** -/
theorem askedAbout_of_answered (hstr : ∀ s, opts.str (.str s) = s) {a : Answered F}
    (h : answeredTick opts m (m.input text bindings w) s attackerKey profile = some a) :
    ∃ r ∈ bindings, r.attackerKey = attackerKey ∧ AskedAbout opts r a ∧
      controllerRequest opts (m.input text bindings w) s attackerKey profile = some a.payload ∧
      tickRequest m.services a.payload = some a.request ∧
      a.controller = m.services.controller := by
  rw [answeredTick] at h
  obtain ⟨q, hq, h⟩ := Option.bind_eq_some_iff.mp h
  obtain ⟨answer, hanswer, h⟩ := Option.bind_eq_some_iff.mp h
  obtain rfl := Option.some.inj h
  obtain ⟨r, hr, hkey, hpayload, hgate, htriggers⟩ := controllerRequest_binding hstr hq
  obtain ⟨hrequest, htick⟩ := controllerTick_eq_some.mp hanswer
  have hbuilt := hrequest
  rw [hpayload, tickRequest] at hbuilt
  obtain ⟨snapshot, -, hbuilt⟩ := Option.bind_eq_some_iff.mp hbuilt
  simp only [stringList_map, stringLists_map, Option.bind_eq_bind, Option.bind_some] at hbuilt
  have heq := (Option.some.inj hbuilt).symm
  refine ⟨r, hr, hkey, ?_, hq, hrequest, rfl⟩
  subst hkey
  exact ⟨by rw [heq], by rw [heq], by rw [heq], by rw [heq], by rw [heq], htick, hgate, htriggers⟩

end Read

/-- What was read of a binding, by its id. -/
theorem exposureOf_of_mem {bindings : List BindingRecord}
    (h : (bindings.map BindingRecord.bindingId).Nodup) {r : BindingRecord} (hr : r ∈ bindings) :
    exposureOf bindings r.bindingId = some (r.attackerKey, r.unlockedAssets) := by
  refine exposureOf_of_get ?_
  rw [getByBinding_eq]
  exact (findLast_eq_some_of_nodup h).mpr ⟨hr, rfl⟩

/-! ### What an answer may ask to open -/

section Warranted

variable {F : Type} {ctl : ControllerService F} {request : ControllerTickRequest F}
  {r : ControllerTickResponse F}

/-- **An asset that may be opened** while `planned` is open: it passes the gates of an unlock, or
it is the target of a new configuration of an open asset. -/
inductive Warranted (ctl : ControllerService F) (request : ControllerTickRequest F)
    (planned : List String) (assetId : String) : Prop
  | unlock (asset : AssetDefinition) (hmem : asset ∈ requestAssets ctl request)
      (hid : asset.assetId = assetId) (heligible : Eligible ctl request planned asset)
  | target (source : AssetDefinition) (variant : Settings) (configurationId : String)
      (hoffered : OfferedVariant ctl request planned source variant configurationId)
      (htarget : stringOrNone (variant.get "target_asset_id") = some assetId)

theorem warranted_of_chosen {strategy : Strategy} {exploit : Option (CandidateScore F)}
    {planned : List String} {c : CandidateScore F}
    (hc : Chosen ctl request strategy exploit planned c) {bindingId assetId : String}
    (h : requested (buildAction ctl bindingId c) = some assetId) :
    Warranted ctl request planned assetId := by
  cases hc.offered with
  | unlock hmem heligible htype =>
    have hgiven : given (some c.asset.assetId) = some assetId := by
      rw [buildAction, if_neg (by simp [htype]), requested] at h
      cases hasset : given (some c.asset.assetId) with
      | none => simp [hasset] at h
      | some id => simpa [hasset] using h
    have hid := (Option.filter_eq_some_iff.mp hgiven).1
    exact .unlock c.asset hmem (Option.some.inj hid) heligible
  | configure variant id hoffered htype hid htarget =>
    have hgiven : given c.targetAssetId = some assetId := by
      rw [buildAction, if_pos htype, requested] at h
      cases hasset : given (some c.asset.assetId) with
      | none => simp [hasset] at h
      | some id =>
        cases hconfiguration : given c.configurationId with
        | none => simp [hasset, hconfiguration] at h
        | some configurationId => simpa [hasset, hconfiguration] using h
    have hfound := (Option.filter_eq_some_iff.mp hgiven).1
    exact .target c.asset variant id hoffered (htarget ▸ hfound)

/-- Only reveals ask to open something. -/
theorem requested_of_not_reveal {action : ControllerAction} (h : ¬ isRevealAction action) :
    requested action = none := by
  cases htype : action.actionType with
  | unlock => exact absurd (by simp [isRevealAction, htype]) h
  | configure => exact absurd (by simp [isRevealAction, htype]) h
  | _ => simp [requested, htype]

/-- **What an answer asks to open is warranted**, with what it has asked for before. -/
theorem warranted_of_tick (htick : tick ctl request = .ok r) {before after : List ControllerAction}
    {action : ControllerAction} (hsplit : r.actions = before ++ action :: after) {assetId : String}
    (h : requested action = some assetId) :
    Warranted ctl request
      (request.unlockedAssetIds ++ before.flatMap ControllerAction.opened) assetId := by
  rcases tick_cases htick with ⟨reason, ids, rejected, rfl⟩ | ⟨c, follow, hreveals⟩
  · have hmem : action ∈ (noopResponse ctl request reason ids rejected).actions := by
      rw [hsplit]
      exact List.mem_append_right before List.mem_cons_self
    rw [List.mem_singleton.mp hmem, requested_of_not_reveal (by simp [isRevealAction])] at h
    cases h
  · rw [hreveals.actions] at hsplit
    cases before with
    | nil =>
      obtain ⟨rfl, -⟩ := List.cons_eq_cons.mp hsplit
      rw [List.flatMap_nil, List.append_nil]
      exact warranted_of_chosen hreveals.main_chosen h
    | cons first before =>
      obtain ⟨rfl, hrest⟩ := List.cons_eq_cons.mp hsplit
      cases follow with
      | none => simp at hrest
      | some d =>
        cases before with
        | cons second before => simp at hrest
        | nil =>
          obtain ⟨rfl, -⟩ := List.cons_eq_cons.mp hrest
          rw [List.flatMap_cons, List.flatMap_nil, List.append_nil,
            ← plannedAfter_eq hreveals.main_chosen]
          exact warranted_of_chosen (hreveals.follow_chosen d rfl) h

end Warranted

/-! ### What the orchestrator is sent -/

theorem requested_limitFrom_zero (actions : List ControllerAction) :
    (limitFrom 0 actions).filterMap requested = [] := by
  induction actions with
  | nil => rfl
  | cons action actions ih =>
    by_cases hreveal : isRevealAction action
    · simp only [limitFrom, if_pos hreveal]
      exact ih
    · simp only [limitFrom, if_neg hreveal]
      rw [List.filterMap_cons_none (requested_of_not_reveal hreveal)]
      exact ih

theorem requested_limitFrom (n : ℕ) (actions : List ControllerAction) :
    (limitFrom n actions).filterMap requested <+: actions.filterMap requested := by
  induction actions generalizing n with
  | nil => exact List.nil_prefix
  | cons action actions ih =>
    cases n with
    | zero =>
      rw [requested_limitFrom_zero]
      exact List.nil_prefix
    | succ n =>
      by_cases hreveal : isRevealAction action
      · simp only [limitFrom, if_pos hreveal]
        rw [List.filterMap_cons, List.filterMap_cons]
        cases requested action with
        | none => exact ih n
        | some id => exact (List.prefix_cons_inj id).mpr (ih n)
      · simp only [limitFrom, if_neg hreveal]
        rw [List.filterMap_cons_none (requested_of_not_reveal hreveal),
          List.filterMap_cons_none (requested_of_not_reveal hreveal)]
        exact ih (n + 1)

theorem requested_limitRevealActions (maxActions : Int) (actions : List ControllerAction) :
    (limitRevealActions actions maxActions).filterMap requested <+:
      actions.filterMap requested := by
  rw [limitRevealActions]
  split
  · exact List.nil_prefix
  · exact requested_limitFrom _ actions

section Sent

variable {F : Type} {opts : LoopOptions} {text : Datetime → String} {m : Moment F}
  {inp : PassInput} {bindings : List BindingRecord} {w : World} {s : LoopState}
  {attackerKey : String} {profile : Value}

theorem of_tickRequest {services : Services F} {q : TickPayload}
    {request : ControllerTickRequest F} (h : tickRequest services q = some request) :
    request.bindingId = q.bindingId ∧ request.assets = [] := by
  rw [tickRequest] at h
  obtain ⟨_, -, h⟩ := Option.bind_eq_some_iff.mp h
  obtain ⟨_, -, h⟩ := Option.bind_eq_some_iff.mp h
  obtain ⟨_, -, h⟩ := Option.bind_eq_some_iff.mp h
  rw [← Option.some.inj h]
  exact ⟨rfl, rfl⟩

/-- The orchestrator is sent what an answered tick asked for, up to the limit. -/
theorem applyRequest_spec {sent : String × List ControllerAction}
    (h : applyRequest opts (m.input text bindings w) s attackerKey profile = some sent) :
    ∃ a, answeredTick opts m (m.input text bindings w) s attackerKey profile = some a ∧
      sent = (a.request.bindingId,
        limitRevealActions a.response.actions opts.maxActionsPerTrigger) := by
  rw [applyRequest] at h
  obtain ⟨q, hq, h⟩ := Option.bind_eq_some_iff.mp h
  obtain ⟨response, hresponse, h⟩ := Option.bind_eq_some_iff.mp h
  have hcontroller : (m.input text bindings w).controller q = if m.network.tick then
      (controllerTick m.services q).map fun answer => loopResponse answer.2 else none := rfl
  rw [hcontroller] at hresponse
  split at hresponse
  · obtain ⟨answer, hanswer, rfl⟩ := Option.map_eq_some_iff.mp hresponse
    split at h
    · exact absurd h (by simp)
    · refine ⟨⟨m.services.controller, s, q, answer.1, answer.2⟩, ?_, ?_⟩
      · rw [answeredTick, hq]
        simp only [Option.bind_eq_bind, Option.bind_some, hanswer]
        rfl
      · rw [← Option.some.inj h, ← (of_tickRequest (controllerTick_eq_some.mp hanswer).1).1]
        rfl
  · exact absurd hresponse (by simp)

/-- **The stores are left alone, or the orchestrator has applied what was sent.** -/
theorem worldAfter_cases (opts : LoopOptions) (text : Datetime → String) (m : Moment F)
    (bindings : List BindingRecord) (s : LoopState) (attackerKey : String) (profile : Value)
    (w : World) :
    worldAfter opts m (m.input text bindings w) s attackerKey profile w = w ∨
      ∃ a, answeredTick opts m (m.input text bindings w) s attackerKey profile = some a ∧
        worldAfter opts m (m.input text bindings w) s attackerKey profile w =
          (Call.apply a.request.bindingId
            (limitRevealActions a.response.actions opts.maxActionsPerTrigger)).run
              m.services.host w := by
  cases hsent : applyRequest opts (m.input text bindings w) s attackerKey profile with
  | none => exact Or.inl (by simp only [worldAfter, hsent])
  | some sent =>
    obtain ⟨a, ha, rfl⟩ := applyRequest_spec hsent
    simp only [worldAfter, hsent]
    by_cases harrived : m.network.apply
    · rw [if_pos harrived, orchestrationApply]
      by_cases hempty : a.request.bindingId = ""
      · rw [if_pos hempty]
        exact Or.inl rfl
      · rw [if_neg hempty]
        refine Or.inr ⟨a, ha, ?_⟩
        rw [Call.run]
        cases Effect.exec (apply m.services.host a.request.bindingId _) w with
        | mk result t => cases result <;> rfl
    · rw [if_neg harrived]
      exact Or.inl rfl

end Sent

end Honeynet.System
