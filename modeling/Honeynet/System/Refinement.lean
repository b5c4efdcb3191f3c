import Honeynet.Lib.Transition
import Honeynet.System.Earned

/-!
# The loop among other calls

A pass takes one attacker after the other, with calls of other services in between, answers that
are lost and an end that can come at any time.  What it leaves in the files of the loop is what a
pass that runs in one go would have left.

* `Agrees`, `runAttackers_congr`: what the handling of an attacker depends on.
* `Deployed`: what such a pass meets: stored bindings, and answers of controllers.
* `loop_refines_passes`: the files of the loop are always those of a sequence of whole passes.
-/

namespace Honeynet.System

open Collections Binding Controller Loop Orchestrator Relation

/-! ### What the handling of an attacker depends on -/

/-- The two inputs are the same as far as the attacker is concerned. -/
structure Agrees (opts : LoopOptions) (inp inp' : PassInput) (attackerKey : String) : Prop where
  binding : runtimeBinding opts inp attackerKey = runtimeBinding opts inp' attackerKey
  controller : ∀ q, q.attackerKey = attackerKey → inp.controller q = inp'.controller q
  orchestrator : ∀ inputs, runtimeBinding opts inp attackerKey = some inputs →
    inp.orchestrator inputs.1 = inp'.orchestrator inputs.1
  appliedAt : inp.appliedAt attackerKey = inp'.appliedAt attackerKey
  rowClock : inp.rowClock attackerKey = inp'.rowClock attackerKey

section Congr

variable {opts : LoopOptions} {inp inp' : PassInput}

theorem controllerRequest_inputs {s : LoopState} {attackerKey : String} {profile : Value}
    {q : TickPayload} (h : controllerRequest opts inp s attackerKey profile = some q) :
    ∃ inputs, runtimeBinding opts inp attackerKey = some inputs ∧ q.attackerKey = attackerKey ∧
      q.bindingId = inputs.1 := by
  rw [controllerRequest] at h
  split at h
  · rename_i hruntime
    split at h
    · obtain rfl := Option.some.inj h
      exact ⟨_, hruntime, rfl, rfl⟩
    · exact absurd h (by simp)
  · exact absurd h (by simp)

theorem attempt_agrees {attackerKey : String} (h : Agrees opts inp inp' attackerKey)
    (s : LoopState) (profile : Value) :
    attempt opts inp s attackerKey profile = attempt opts inp' s attackerKey profile := by
  have hrequest : controllerRequest opts inp s attackerKey profile =
      controllerRequest opts inp' s attackerKey profile := by
    rw [controllerRequest, controllerRequest, h.binding]
  have hheld : heldBack opts inp s attackerKey profile =
      heldBack opts inp' s attackerKey profile := by
    rw [heldBack, heldBack, h.binding]
  rw [attempt_eq, attempt_eq, ← hrequest, ← hheld]
  cases hq : controllerRequest opts inp s attackerKey profile with
  | none => rfl
  | some q =>
    obtain ⟨inputs, hinputs, hkey, hid⟩ := controllerRequest_inputs hq
    have hanswer : inp.controller ⟨q.attackerKey, q.bindingId, q.profile, q.unlockedAssetIds,
        q.revealedConfigurations⟩ = inp'.controller ⟨q.attackerKey, q.bindingId, q.profile,
          q.unlockedAssetIds, q.revealedConfigurations⟩ := h.controller q hkey
    have happly : inp.orchestrator q.bindingId = inp'.orchestrator q.bindingId := by
      rw [hid]
      exact h.orchestrator inputs hinputs
    show requestReveal opts inp q.attackerKey q.bindingId q.profile q.unlockedAssetIds
        q.revealedConfigurations = requestReveal opts inp' q.attackerKey q.bindingId q.profile
          q.unlockedAssetIds q.revealedConfigurations
    rw [requestReveal, requestReveal, happly, hanswer]

theorem attackerStep_agrees {attackerKey : String} (h : Agrees opts inp inp' attackerKey)
    (s : LoopState) (profile : Value) : attackerStep opts inp s attackerKey profile =
      attackerStep opts inp' s attackerKey profile := by
  rw [attackerStep, attackerStep, attempt_agrees h, h.appliedAt, h.rowClock]

theorem runAttackers_congr {profiles : List (String × Value)}
    (h : ∀ entry ∈ profiles, Agrees opts inp inp' entry.1) (s : LoopState) :
    runAttackers opts inp s profiles = runAttackers opts inp' s profiles := by
  induction profiles generalizing s with
  | nil => rfl
  | cons entry profiles ih =>
    obtain ⟨hfirst, hrest⟩ := List.forall_mem_cons.mp h
    simp only [runAttackers, attackerStep_agrees hfirst, ih hrest]

/-- One more profile, after profiles that have all been handled. -/
theorem runAttackers_concat {s t : LoopState} {profiles : List (String × Value)} {n : ℕ}
    (h : runAttackers opts inp s profiles = (t, some n)) (attackerKey : String) (profile : Value) :
    runAttackers opts inp s (profiles ++ [(attackerKey, profile)]) =
      ((attackerStep opts inp t attackerKey profile).1,
        (attackerStep opts inp t attackerKey profile).2.map (n + ·)) := by
  induction profiles generalizing s n with
  | nil =>
    obtain ⟨rfl, hn⟩ := Prod.mk.inj h
    obtain rfl := Option.some.inj hn
    simp only [List.nil_append, runAttackers]
    cases attackerStep opts inp s attackerKey profile with
    | mk u count => cases count <;> simp
  | cons entry profiles ih =>
    simp only [List.cons_append, runAttackers] at h ⊢
    cases hstep : attackerStep opts inp s entry.1 entry.2 with
    | mk u count =>
      cases count with
      | none => simp [hstep] at h
      | some k =>
        simp only [hstep] at h
        cases hrest : runAttackers opts inp u profiles with
        | mk v rest =>
          rw [hrest] at h
          obtain ⟨rfl, hcount⟩ := Prod.mk.inj h
          obtain ⟨j, rfl, rfl⟩ := Option.map_eq_some_iff.mp hcount
          have hlast := ih hrest
          simp only [hlast]
          cases (attackerStep opts inp v attackerKey profile).2 with
          | none => rfl
          | some i => simp [Nat.add_assoc]

end Congr

/-! ### One more profile -/

/-- A pass that has handled one profile more than `inp`, and met `last` while it did. -/
def extended (opts : LoopOptions) (inp last : PassInput) (attackerKey : String) (profile : Value) :
    PassInput where
  bindings := inp.bindings
  profiles := inp.profiles ++ [(attackerKey, profile)]
  evidence := inp.evidence
  internalHttpEvents := inp.internalHttpEvents
  now := inp.now
  controller q := if q.attackerKey = attackerKey then last.controller q else inp.controller q
  orchestrator bindingId :=
    if (runtimeBinding opts inp attackerKey).map Prod.fst = some bindingId then
      last.orchestrator bindingId
    else inp.orchestrator bindingId
  appliedAt key := if key = attackerKey then last.appliedAt key else inp.appliedAt key
  rowClock key := if key = attackerKey then last.rowClock key else inp.rowClock key

section Extended

variable {opts : LoopOptions} {inp last : PassInput} {attackerKey : String} {profile : Value}

theorem runtimeBinding_eq (h : inp.bindings = last.bindings) (key : String) :
    runtimeBinding opts inp key = runtimeBinding opts last key := by
  rw [runtimeBinding, runtimeBinding, bindingsByAttacker, bindingsByAttacker, h]

/-- Different attackers have different bindings. -/
theorem attackerKey_of_runtimeBinding (hstr : ∀ s, opts.str (.str s) = s)
    {text : Datetime → String} {records : List BindingRecord}
    (hids : (records.map BindingRecord.bindingId).Nodup)
    (hinp : inp.bindings = records.map fun r => .dict (Dashboard.modelDump text r))
    {key other : String} {inputs inputs' : String × List Value × Settings}
    (h : runtimeBinding opts inp key = some inputs)
    (h' : runtimeBinding opts inp other = some inputs') (hsame : inputs.1 = inputs'.1) :
    key = other := by
  obtain ⟨binding, hbinding, hinputs⟩ := Option.bind_eq_some_iff.mp h
  obtain ⟨binding', hbinding', hinputs'⟩ := Option.bind_eq_some_iff.mp h'
  obtain ⟨r, hr, hkey, rfl⟩ := mem_bindingsByAttacker hstr hinp hbinding
  obtain ⟨r', hr', hkey', rfl⟩ := mem_bindingsByAttacker hstr hinp hbinding'
  have hid : inputs.1 = r.bindingId := (congrArg Prod.fst (Option.some.inj hinputs)).symm
  have hid' : inputs'.1 = r'.bindingId := (congrArg Prod.fst (Option.some.inj hinputs')).symm
  have heq : r = r' := List.inj_on_of_nodup_map hids hr hr' (hid ▸ hid' ▸ hsame)
  rw [← hkey, ← hkey', heq]

/-- The profile that came last met `last`. -/
theorem extended_agrees_last (h : inp.bindings = last.bindings) :
    Agrees opts (extended opts inp last attackerKey profile) last attackerKey where
  binding := runtimeBinding_eq h attackerKey
  controller q hq := by
    show (if q.attackerKey = attackerKey then _ else _) = _
    rw [if_pos hq]
  orchestrator inputs hinputs := by
    have hsame : runtimeBinding opts inp attackerKey = some inputs := hinputs
    show (if (runtimeBinding opts inp attackerKey).map Prod.fst = some inputs.1 then _ else _) = _
    rw [hsame, Option.map_some, if_pos rfl]
  appliedAt := if_pos rfl
  rowClock := if_pos rfl

/-- The profiles before it met what they had met. -/
theorem extended_agrees (hstr : ∀ s, opts.str (.str s) = s) {text : Datetime → String}
    {records : List BindingRecord} (hids : (records.map BindingRecord.bindingId).Nodup)
    (hinp : inp.bindings = records.map fun r => .dict (Dashboard.modelDump text r))
    {key : String} (hne : key ≠ attackerKey) :
    Agrees opts (extended opts inp last attackerKey profile) inp key where
  binding := rfl
  controller q hq := by
    show (if q.attackerKey = attackerKey then _ else _) = _
    rw [if_neg (hq ▸ hne)]
  orchestrator inputs hinputs := by
    show (if (runtimeBinding opts inp attackerKey).map Prod.fst = some inputs.1 then _ else _) = _
    rw [if_neg]
    intro hsome
    obtain ⟨inputs', hinputs', hid⟩ := Option.map_eq_some_iff.mp hsome
    exact hne (attackerKey_of_runtimeBinding hstr hids hinp hinputs hinputs' hid.symm)
  appliedAt := if_neg hne
  rowClock := if_neg hne

/-- **One more profile**: what a pass has left, and the step for the profile, are a longer pass. -/
theorem tickOnce_extended (hstr : ∀ s, opts.str (.str s) = s) {text : Datetime → String}
    {records : List BindingRecord} (hids : (records.map BindingRecord.bindingId).Nodup)
    (hinp : inp.bindings = records.map fun r => .dict (Dashboard.modelDump text r))
    (hlast : inp.bindings = last.bindings) (hnew : attackerKey ∉ inp.profiles.map Prod.fst)
    {s t : LoopState} {n : ℕ} (h : tickOnce opts inp s = (t, some n)) :
    tickOnce opts (extended opts inp last attackerKey profile) s =
      ((attackerStep opts last t attackerKey profile).1,
        (attackerStep opts last t attackerKey profile).2.map (n + ·)) := by
  have hbefore : runAttackers opts (extended opts inp last attackerKey profile)
      (beginPass opts inp s) inp.profiles = (t, some n) := by
    rw [← h, tickOnce]
    refine runAttackers_congr (fun entry hentry => extended_agrees hstr hids hinp ?_) _
    exact fun heq => hnew (heq ▸ List.mem_map_of_mem hentry)
  rw [← attackerStep_agrees (extended_agrees_last hlast)]
  exact runAttackers_concat hbefore attackerKey profile

end Extended

/-! ### Whole passes -/

/-- What a pass meets: bindings that are stored, profiles of different attackers, and answers
that the services give. -/
structure Deployed (F : Type) (H : Host → Prop) (text : Datetime → String) (inp : PassInput) :
    Prop where
  bindings : ∃ records : List BindingRecord, (records.map BindingRecord.bindingId).Nodup ∧
    inp.bindings = records.map fun r => .dict (Dashboard.modelDump text r)
  keys : (inp.profiles.map Prod.fst).Nodup
  controller : ∀ q response, inp.controller q = some response → ∃ services : Services F,
    H services.host ∧ ∃ answer, controllerTick services q = some answer ∧
      loopResponse answer.2 = response
  orchestrator : ∀ bindingId actions, inp.orchestrator bindingId actions = true →
    ∃ services : Services F, H services.host ∧ ∃ w,
      (orchestrationApply services bindingId actions w).1 = true

/-- **A pass that runs in one go.** -/
def WholePass (F : Type) (H : Host → Prop) (opts : LoopOptions) (text : Datetime → String)
    (s t : LoopState) : Prop :=
  ∃ inp, Deployed F H text inp ∧ (tickOnce opts inp s).1 = t

section Runs

variable {F : Type} {opts : LoopOptions} {text : Datetime → String} {H : Host → Prop}
  {P : ControllerService F → ControllerTickRequest F → Prop}

/-- The pass under way began at `s`, and has met `inp` so far. -/
structure UnderWay (F : Type) (H : Host → Prop) (opts : LoopOptions) (text : Datetime → String)
    (p : PassState) (t s : LoopState) (inp : PassInput) : Prop where
  began : ReflTransGen (WholePass F H opts text) {} s
  deployed : Deployed F H text inp
  distinct : (p.bindings.map BindingRecord.bindingId).Nodup
  bindings : inp.bindings = p.bindings.map fun r => .dict (Dashboard.modelDump text r)
  keys : ((inp.profiles ++ p.profiles).map Prod.fst).Nodup
  ends : ∃ n, tickOnce opts inp s = (t, some n)

/-- The files of the loop are those of whole passes, and so are those of the pass under way. -/
structure Follows (H : Host → Prop) (opts : LoopOptions) (text : Datetime → String)
    (st : State F) : Prop where
  distinct : (bindingIds st.world).Nodup
  loop : ReflTransGen (WholePass F H opts text) {} st.loop
  pass : ∀ p ∈ st.pass, ∃ s inp, UnderWay F H opts text p st.loop s inp

theorem deployed_input {m : Moment F} (hhost : H m.services.host) {bindings : List BindingRecord}
    (hids : (bindings.map BindingRecord.bindingId).Nodup) (w : World) :
    Deployed F H text (m.input text bindings w) where
  bindings := ⟨bindings, hids, rfl⟩
  keys := List.nodup_nil
  controller q response h := by
    have hcontroller : (m.input text bindings w).controller q = if m.network.tick then
      (controllerTick m.services q).map fun answer => loopResponse answer.2 else none := rfl
    rw [hcontroller] at h
    split at h
    · obtain ⟨answer, hanswer, hresponse⟩ := Option.map_eq_some_iff.mp h
      exact ⟨m.services, hhost, answer, hanswer, hresponse⟩
    · exact absurd h (by simp)
  orchestrator bindingId actions h :=
    ⟨m.services, hhost, w, (Bool.and_eq_true_iff.mp h).2⟩

theorem deployed_extended {inp last : PassInput} (h : Deployed F H text inp)
    (hlast : Deployed F H text last) {attackerKey : String} (profile : Value)
    (hnew : attackerKey ∉ inp.profiles.map Prod.fst) :
    Deployed F H text (extended opts inp last attackerKey profile) where
  bindings := h.bindings
  keys := by
    show ((inp.profiles ++ [(attackerKey, profile)]).map Prod.fst).Nodup
    rw [List.map_append, List.nodup_append]
    refine ⟨h.keys, List.nodup_singleton _, fun a ha b hb => ?_⟩
    obtain rfl := List.mem_singleton.mp hb
    exact fun heq => hnew (heq ▸ ha)
  controller q response hq := by
    have hcontroller : (extended opts inp last attackerKey profile).controller q =
      if q.attackerKey = attackerKey then last.controller q else inp.controller q := rfl
    rw [hcontroller] at hq
    split at hq
    · exact hlast.controller q response hq
    · exact h.controller q response hq
  orchestrator bindingId actions hactions := by
    have horchestrator : (extended opts inp last attackerKey profile).orchestrator bindingId =
      if (runtimeBinding opts inp attackerKey).map Prod.fst = some bindingId then
        last.orchestrator bindingId else inp.orchestrator bindingId := rfl
    rw [horchestrator] at hactions
    split at hactions
    · exact hlast.orchestrator bindingId actions hactions
    · exact h.orchestrator bindingId actions hactions

/-- A pass has read its files, and handled no profile. -/
theorem follows_start {st : State F} (h : Follows H opts text st) (inp : PassInput)
    (hkeys : (inp.profiles.map Prod.fst).Nodup) :
    Follows H opts text { st with
      loop := beginPass opts inp st.loop
      pass := some ⟨st.world.bindings, inp.profiles⟩ } := by
  let begun : PassInput := { inp with
    bindings := st.world.bindings.map fun r => .dict (Dashboard.modelDump text r)
    profiles := []
    controller := fun _ => none
    orchestrator := fun _ _ => false }
  have hbegun : Deployed F H text begun :=
    ⟨⟨_, h.distinct, rfl⟩, List.nodup_nil, fun _ _ hq => absurd hq (by simp [begun]),
      fun _ _ hq => absurd hq (by simp [begun])⟩
  refine ⟨h.distinct, h.loop.tail ⟨begun, hbegun, rfl⟩, fun p hp => ⟨st.loop, begun, ?_⟩⟩
  obtain rfl := Option.some.inj hp
  exact ⟨h.loop, hbegun, h.distinct, rfl, hkeys, 0, rfl⟩

/-- **One profile** makes the pass under way longer. -/
theorem follows_handle (hstr : ∀ s, opts.str (.str s) = s) {st : State F}
    (h : Follows H opts text st) {m : Moment F} (hhost : H m.services.host)
    {bindings : List BindingRecord} {attackerKey : String} {profile : Value}
    {rest : List (String × Value)}
    (hpass : st.pass = some ⟨bindings, (attackerKey, profile) :: rest⟩) :
    Follows H opts text (st.handle opts text m bindings attackerKey profile rest) := by
  obtain ⟨s, inp, hunder⟩ := h.pass _ hpass
  obtain ⟨n, hends⟩ := hunder.ends
  let last := m.input text bindings st.world
  have hkeys : (inp.profiles.map Prod.fst ++ attackerKey :: rest.map Prod.fst).Nodup := by
    simpa using hunder.keys
  have hnew : attackerKey ∉ inp.profiles.map Prod.fst :=
    fun hmem => (List.nodup_append.mp hkeys).2.2 _ hmem _ List.mem_cons_self rfl
  have hlonger : tickOnce opts (extended opts inp last attackerKey profile) s =
      ((attackerStep opts last st.loop attackerKey profile).1,
        (attackerStep opts last st.loop attackerKey profile).2.map (n + ·)) :=
    tickOnce_extended hstr hunder.distinct hunder.bindings hunder.bindings hnew hends
  have hdeployed : Deployed F H text (extended opts inp last attackerKey profile) :=
    deployed_extended hunder.deployed (deployed_input hhost hunder.distinct st.world) profile hnew
  refine ⟨?_, hunder.began.tail ⟨_, hdeployed, by rw [hlonger]; rfl⟩, fun p hp => ?_⟩
  · have hids : bindingIds (st.handle opts text m bindings attackerKey profile rest).world =
        bindingIds st.world := by
      rcases worldAfter_cases opts text m bindings st.loop attackerKey profile st.world with
        hsame | ⟨a, -, hworld⟩
      · exact congrArg bindingIds hsame
      · exact (congrArg bindingIds hworld).trans (bindingIds_apply _ _ _ _)
    exact hids ▸ h.distinct
  · obtain ⟨j, hj, rfl⟩ := Option.map_eq_some_iff.mp hp
    refine ⟨s, _, hunder.began, hdeployed, hunder.distinct, hunder.bindings, ?_, n + j, ?_⟩
    · show (((inp.profiles ++ [(attackerKey, profile)]) ++ rest).map Prod.fst).Nodup
      simpa using hkeys
    · rw [hlonger, hj]
      rfl

/-- **Every step.** -/
theorem follows_step (hstr : ∀ s, opts.str (.str s) = s) {st st' : State F}
    (h : Step opts text H P st st') (hst : Follows H opts text st) : Follows H opts text st' := by
  cases h with
  | binding host op _ _ =>
    exact ⟨nodup_bindingIds_binding host op hst.distinct, hst.loop, hst.pass⟩
  | prewarm host bindingId assetIds _ =>
    have hids : bindingIds ((Call.prewarm bindingId assetIds).run host st.world) =
        bindingIds st.world :=
      congrArg (List.map BindingRecord.bindingId) (bindings_prewarm host bindingId assetIds st.world)
    exact ⟨hids ▸ hst.distinct, hst.loop, hst.pass⟩
  | start inp _ hkeys => exact follows_start hst inp hkeys
  | handle m bindings attackerKey profile rest hhost hpass _ =>
    exact follows_handle hstr hst hhost hpass
  | finish => exact ⟨hst.distinct, hst.loop, fun p hp => absurd hp (by simp)⟩

/-- **The loop refines whole passes**: along every run, the files of the loop are those of passes
that each ran in one go. -/
theorem loop_refines_passes (hstr : ∀ s, opts.str (.str s) = s) {st : State F}
    (h : ReflTransGen (Step opts text H P) {} st) :
    ReflTransGen (WholePass F H opts text) {} st.loop := by
  have hinit : Follows H opts text ({} : State F) :=
    ⟨List.nodup_nil, ReflTransGen.refl, fun _ hp => absurd hp (by simp)⟩
  exact (Transition.invariant_of_step (P := Follows H opts text)
    (fun _ _ => follows_step hstr) h hinit).loop

end Runs

/-- The first reveal is that of a whole pass. -/
theorem portal_refines : ∃ st : State Rat,
    ReflTransGen (PlainStep portalOptions fun _ => "") {} st ∧ st.loop.rows ≠ [] ∧
      ReflTransGen (WholePass Rat PlainHost portalOptions fun _ => "") {} st.loop := by
  refine ⟨handled, run_handled, ?_, loop_refines_passes (fun _ => rfl) run_handled⟩
  have hrows : handled.loop.rows.isEmpty = false := by decide +kernel
  intro hnil
  rw [hnil] at hrows
  cases hrows

end Honeynet.System
