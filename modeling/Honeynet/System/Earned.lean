import Honeynet.Controller.Bootstrap
import Honeynet.Lib.Transition
import Honeynet.Orchestrator.PlainIds
import Honeynet.Orchestrator.Reachability
import Honeynet.System.Requests

/-!
# What is exposed has been earned

Whatever an attacker can reach goes back to an answer of the controller about the attacker's
binding, although passes read stale files, other calls come in between and requests are lost.

* `Earned`: the answered tick behind an open asset.
* `Kept`, `kept_step`: every step keeps that each open asset is earned.
* `exposure_is_earned`: along every run, so is each asset that is open, listed or routed.
-/

namespace Honeynet.System

open Collections Binding Controller Loop Orchestrator Relation

variable {F : Type} {opts : LoopOptions} {text : Datetime → String}

/-- **An answered tick behind an open asset**: it was about the binding, it said what was open
then, and it asked to open the asset, which its gates allowed. -/
structure Earned (opts : LoopOptions) (st : State F) (bindingId assetId : String)
    (a : Answered F) : Prop where
  answered : a ∈ st.answered
  about : ∃ r, AskedAbout opts r a ∧ r.bindingId = bindingId ∧ ∃ assetIds,
    exposureOf st.world.bindings bindingId = some (r.attackerKey, assetIds) ∧
      r.unlockedAssets ⊆ assetIds
  asked : ∃ before action after, a.response.actions = before ++ action :: after ∧
    requested action = some assetId ∧ Warranted a.controller a.request
      (a.request.unlockedAssetIds ++ before.flatMap ControllerAction.opened) assetId

theorem Earned.mono {st st' : State F} {bindingId assetId : String} {a : Answered F}
    (h : Earned opts st bindingId assetId a) (hanswered : st.answered ⊆ st'.answered)
    (hopen : StaysOpen st.world.bindings st'.world.bindings) :
    Earned opts st' bindingId assetId a := by
  obtain ⟨r, hr, hid, assetIds, hexposure, hsub⟩ := h.about
  obtain ⟨assetIds', hexposure', hsub'⟩ := hopen _ _ _ hexposure
  exact ⟨hanswered h.answered, ⟨r, hr, hid, assetIds', hexposure', fun x hx => hsub' (hsub hx)⟩,
    h.asked⟩

/-! ### What is told apart by plain ids -/

/-- A host whose ids are fresh and are read back. -/
structure PlainHost (host : Host) : Prop where
  fresh : host.Fresh
  ids : ∀ w, PlainBindingId (host.bindingUuid w)

/-- The ids of a catalog, and of the targets of its configurations, are read back. -/
def PlainCatalog (catalog : List AssetDefinition) : Prop :=
  ∀ asset ∈ catalog, PlainId asset.assetId ∧ ∀ variant ∈ configurationVariants asset, ∀ target,
    stringOrNone (variant.get "target_asset_id") = some target → PlainId target

/-- A step on such hosts, with ticks over such catalogs. -/
abbrev PlainStep (opts : LoopOptions) (text : Datetime → String) : State F → State F → Prop :=
  Step opts text PlainHost fun ctl request => PlainCatalog (requestAssets ctl request)

theorem plain_of_warranted {ctl : ControllerService F} {request : ControllerTickRequest F}
    (hplain : PlainCatalog (requestAssets ctl request)) {planned : List String} {assetId : String}
    (h : Warranted ctl request planned assetId) : PlainId assetId := by
  cases h with
  | unlock asset hmem hid => exact hid ▸ (hplain asset hmem).1
  | target source variant _ hoffered htarget =>
    exact (hplain source hoffered.source_mem).2 variant hoffered.variant_mem assetId htarget

/-- What an answer asks to open is warranted. -/
theorem asked_of_mem {a : Answered F} (hreturned : tick a.controller a.request = .ok a.response)
    {assetId : String} (h : assetId ∈ a.response.actions.filterMap requested) :
    ∃ before action after, a.response.actions = before ++ action :: after ∧
      requested action = some assetId ∧ Warranted a.controller a.request
        (a.request.unlockedAssetIds ++ before.flatMap ControllerAction.opened) assetId := by
  obtain ⟨action, hmem, hrequested⟩ := List.mem_filterMap.mp h
  obtain ⟨before, after, hsplit⟩ := List.append_of_mem hmem
  exact ⟨before, action, after, hsplit, hrequested, warranted_of_tick hreturned hsplit hrequested⟩

/-! ### The invariant -/

/-- The stores are confined, their ids are distinct and plain, the pass under way has read what
was stored, and whatever is open is earned. -/
structure Kept (opts : LoopOptions) (st : State F) : Prop where
  confined : Confined st.world
  distinct : (bindingIds st.world).Nodup
  plain : ∀ id ∈ bindingIds st.world, PlainBindingId id
  read : ∀ p ∈ st.pass, (p.bindings.map BindingRecord.bindingId).Nodup ∧
    StaysOpen p.bindings st.world.bindings
  earned : ∀ bindingId assetId, Unlocked st.world.bindings bindingId assetId →
    ∃ a, Earned opts st bindingId assetId a

/-- What a step leaves of the invariant, when it opens only what is earned. -/
theorem Kept.after {st st' : State F} (h : Kept opts st) (hconfined : Confined st'.world)
    (hdistinct : (bindingIds st'.world).Nodup)
    (hplain : ∀ id ∈ bindingIds st'.world, PlainBindingId id)
    (hopen : StaysOpen st.world.bindings st'.world.bindings)
    (hanswered : st.answered ⊆ st'.answered)
    (hread : ∀ p' ∈ st'.pass, ∃ p ∈ st.pass, p'.bindings = p.bindings)
    (hearned : ∀ bindingId assetId, Unlocked st'.world.bindings bindingId assetId →
      Unlocked st.world.bindings bindingId assetId ∨
        ∃ a, Earned opts st' bindingId assetId a) : Kept opts st' where
  confined := hconfined
  distinct := hdistinct
  plain := hplain
  read p' hp' := by
    obtain ⟨p, hp, heq⟩ := hread p' hp'
    rw [heq]
    exact ⟨(h.read p hp).1, (h.read p hp).2.trans hopen⟩
  earned bindingId assetId hunlocked := by
    rcases hearned bindingId assetId hunlocked with hold | hnew
    · obtain ⟨a, ha⟩ := h.earned bindingId assetId hold
      exact ⟨a, ha.mono hanswered hopen⟩
    · exact hnew

/-- **A call of the binding service** opens nothing. -/
theorem kept_binding {st : State F} (h : Kept opts st) {host : Host} (hhost : PlainHost host)
    {op : BindingOp} (hserved : Served op) :
    Kept opts { st with world := (Call.binding op).run host st.world } := by
  have hids := bindingIds_callBinding host op st.world
  refine h.after ?_ ?_ ?_ (staysOpen_served hhost.fresh hserved st.world) (fun _ => id)
    (fun p hp => ⟨p, hp, rfl⟩) ?_
  · exact confined_step ⟨host, .binding op, hhost.fresh, rfl, by simp⟩ h.confined
  · rcases hids with hsame | ⟨-, hnew⟩
    · exact hsame ▸ h.distinct
    · exact hnew ▸ nodup_addNew h.distinct _
  · intro id hid
    rcases hids with hsame | ⟨-, hnew⟩
    · exact h.plain id (hsame ▸ hid)
    · rcases mem_addNew.mp (hnew ▸ hid) with hold | rfl
      · exact h.plain id hold
      · exact hhost.ids st.world
  · intro bindingId assetId hunlocked
    obtain ⟨attackerKey, assetIds, hexposure, hmem⟩ := unlocked_iff_exposureOf.mp hunlocked
    rcases exposureOf_served hhost.fresh hserved st.world bindingId with hsame | ⟨-, key, hnew⟩
    · exact Or.inl (unlocked_iff_exposureOf.mpr ⟨_, _, hsame.symm.trans hexposure, hmem⟩)
    · obtain ⟨-, rfl⟩ := Prod.mk.inj (Option.some.inj (hnew.symm.trans hexposure))
      exact absurd hmem List.not_mem_nil

theorem kept_prewarm {st : State F} (h : Kept opts st) {host : Host} (hhost : PlainHost host)
    (bindingId : String) (assetIds : List String) :
    Kept opts { st with world := (Call.prewarm bindingId assetIds).run host st.world } := by
  have hbindings : ((Call.prewarm bindingId assetIds).run host st.world).bindings =
      st.world.bindings := bindings_prewarm host bindingId assetIds st.world
  have hids : bindingIds ((Call.prewarm bindingId assetIds).run host st.world) =
      bindingIds st.world := congrArg (List.map BindingRecord.bindingId) hbindings
  refine h.after ?_ (hids ▸ h.distinct) (hids ▸ h.plain) ?_ (fun _ => id)
    (fun p hp => ⟨p, hp, rfl⟩) ?_
  · exact confined_step ⟨host, .prewarm bindingId assetIds, hhost.fresh, rfl, by simp⟩ h.confined
  · show StaysOpen _ ((Call.prewarm bindingId assetIds).run host st.world).bindings
    rw [hbindings]
    exact StaysOpen.refl _
  · intro b assetId hunlocked
    exact Or.inl (hbindings ▸ hunlocked)

/-- **One profile of a pass** opens what the answered tick warrants. -/
theorem kept_handle (hstr : ∀ s, opts.str (.str s) = s) {st : State F} (h : Kept opts st)
    {m : Moment F} (hhost : PlainHost m.services.host) {bindings : List BindingRecord}
    {attackerKey : String} {profile : Value} {rest : List (String × Value)}
    (hpass : st.pass = some ⟨bindings, (attackerKey, profile) :: rest⟩)
    (htick : ∀ q request, controllerRequest opts (m.input text bindings st.world) st.loop
      attackerKey profile = some q → tickRequest m.services q = some request →
        PlainCatalog (requestAssets m.services.controller request)) :
    Kept opts (st.handle opts text m bindings attackerKey profile rest) := by
  have hanswered : st.answered ⊆
      (st.handle opts text m bindings attackerKey profile rest).answered :=
    fun a ha => List.mem_append_right _ ha
  have hread : ∀ p' ∈ (st.handle opts text m bindings attackerKey profile rest).pass,
      ∃ p ∈ st.pass, p'.bindings = p.bindings := by
    intro p' hp'
    obtain ⟨n, -, rfl⟩ := Option.map_eq_some_iff.mp hp'
    exact ⟨_, hpass, rfl⟩
  obtain ⟨hdistinct, hbefore⟩ := h.read _ hpass
  rcases worldAfter_cases opts text m bindings st.loop attackerKey profile st.world with
    hsame | ⟨a, ha, hworld⟩
  · have heq : (st.handle opts text m bindings attackerKey profile rest).world = st.world := hsame
    refine h.after (heq ▸ h.confined) (heq ▸ h.distinct) (heq ▸ h.plain) ?_ hanswered hread ?_
    · rw [heq]
      exact StaysOpen.refl _
    · exact fun b assetId hunlocked => Or.inl (heq ▸ hunlocked)
  · have heq : (st.handle opts text m bindings attackerKey profile rest).world =
        (Call.apply a.request.bindingId
          (limitRevealActions a.response.actions opts.maxActionsPerTrigger)).run
            m.services.host st.world := hworld
    obtain ⟨r, hr, rfl, habout, hpayload, hrequest, hcontroller⟩ := askedAbout_of_answered hstr ha
    have hsub := (requested_limitRevealActions opts.maxActionsPerTrigger
      a.response.actions).subset
    have hcatalog : PlainCatalog (requestAssets a.controller a.request) :=
      hcontroller ▸ htick _ _ hpayload hrequest
    have hplain : ∀ assetId ∈ (limitRevealActions a.response.actions
        opts.maxActionsPerTrigger).filterMap requested, PlainId assetId := by
      intro assetId hmem
      obtain ⟨before, action, after, -, -, hwarranted⟩ :=
        asked_of_mem habout.returned (hsub hmem)
      exact plain_of_warranted hcatalog hwarranted
    have hexposure := exposureOf_of_mem hdistinct hr
    obtain ⟨assetIds, hcurrent, hmore⟩ := hbefore _ _ _ hexposure
    obtain ⟨added, hadded, hopened⟩ := opened_apply m.services.host a.request.bindingId
      (limitRevealActions a.response.actions opts.maxActionsPerTrigger) st.world
    rw [← Call.run, ← heq] at hopened
    have hids : bindingIds (st.handle opts text m bindings r.attackerKey profile rest).world =
        bindingIds st.world := by
      rw [heq]
      exact bindingIds_apply _ _ _ _
    refine h.after ?_ (hids ▸ h.distinct) (hids ▸ h.plain) hopened.staysOpen hanswered hread ?_
    · rw [heq]
      refine confined_step ⟨m.services.host, _, hhost.fresh, rfl, ?_⟩ h.confined
      intro bindingId actions hcall binding hbinding
      obtain ⟨rfl, rfl⟩ := Call.apply.inj hcall
      have hid := h.plain _ (mem_ids_of_get hbinding)
      exact readableFrom_of_plain hid hplain st.world binding
    · intro bindingId assetId hunlocked
      obtain ⟨key, assetIds', hnow, hmem⟩ := unlocked_iff_exposureOf.mp hunlocked
      by_cases hb : bindingId = a.request.bindingId
      · subst hb
        rw [habout.bindingId] at hopened hnow ⊢
        have hown := hopened.own
        rw [hcurrent, Option.map_some, hnow] at hown
        obtain ⟨rfl, rfl⟩ := Prod.mk.inj (Option.some.inj hown)
        rcases mem_appendNew.mp hmem with hold | hnew
        · exact Or.inl (unlocked_iff_exposureOf.mpr ⟨_, _, hcurrent, hold⟩)
        · refine Or.inr ⟨a, ⟨?_, ?_, asked_of_mem habout.returned (hsub (hadded.subset hnew))⟩⟩
          · refine List.mem_append_left _ ?_
            rw [ha]
            exact List.mem_singleton_self a
          · exact ⟨r, habout, rfl, _, hnow, fun x hx =>
              (prefix_appendNew assetIds added).subset (hmore hx)⟩
      · rw [hopened.others bindingId hb] at hnow
        exact Or.inl (unlocked_iff_exposureOf.mpr ⟨_, _, hnow, hmem⟩)

/-- **Every step.** -/
theorem kept_step (hstr : ∀ s, opts.str (.str s) = s) {st st' : State F}
    (h : PlainStep opts text st st') (hst : Kept opts st) : Kept opts st' := by
  cases h with
  | binding host op hhost hserved => exact kept_binding hst hhost hserved
  | prewarm host bindingId assetIds hhost => exact kept_prewarm hst hhost bindingId assetIds
  | start inp hidle hkeys =>
    refine ⟨hst.confined, hst.distinct, hst.plain, ?_, fun bindingId assetId hunlocked => ?_⟩
    · intro p hp
      obtain rfl := Option.some.inj hp
      exact ⟨hst.distinct, StaysOpen.refl _⟩
    · obtain ⟨a, ha⟩ := hst.earned bindingId assetId hunlocked
      exact ⟨a, ha.mono (fun _ => id) (StaysOpen.refl _)⟩
  | handle m bindings attackerKey profile rest hhost hpass htick =>
    exact kept_handle hstr hst hhost hpass htick
  | finish =>
    refine ⟨hst.confined, hst.distinct, hst.plain, fun p hp => absurd hp (by simp), ?_⟩
    intro bindingId assetId hunlocked
    obtain ⟨a, ha⟩ := hst.earned bindingId assetId hunlocked
    exact ⟨a, ha.mono (fun _ => id) (StaysOpen.refl _)⟩

/-! ### Runs -/

theorem kept_init : Kept opts ({} : State F) where
  confined := ⟨fun _ h => absurd h List.not_mem_nil, fun _ h => absurd h List.not_mem_nil⟩
  distinct := List.nodup_nil
  plain _ h := absurd h List.not_mem_nil
  read _ h := absurd h (by simp)
  earned _ _ := fun ⟨_, hget, _⟩ => absurd (mem_ids_of_get hget) List.not_mem_nil

/-- What is shown of a binding, as reachable, as failed, as a route or as unlocked. -/
def Exposed (host : Host) (w : World) (bindingId assetId : String) : Prop :=
  assetId ∈ listAccessibleAssetIds host w bindingId ∨
    assetId ∈ listFailedAssetIds host w bindingId ∨
    (∃ route ∈ w.routes, route.bindingId = bindingId ∧ route.assetId = assetId) ∨
    Unlocked w.bindings bindingId assetId

theorem unlocked_of_exposed {host : Host} {w : World} (h : Confined w)
    {bindingId assetId : String} (hexposed : Exposed host w bindingId assetId) :
    Unlocked w.bindings bindingId assetId := by
  rcases hexposed with hlisted | hlisted | ⟨route, hroute, rfl, rfl⟩ | hunlocked
  · obtain ⟨record, hrecord, rfl, rfl, haccessible⟩ := mem_accessible.mp hlisted
    exact h.runtimes record hrecord (runtimeRecordIsAccessible_iff.mp haccessible).1.2
  · obtain ⟨record, hrecord, rfl, rfl, hfailed⟩ := mem_failed.mp hlisted
    refine h.runtimes record hrecord ?_
    rcases hfailed with hfailed | hfailed
    · exact (composeRecordIsFailed_iff.mp hfailed).1
    · rw [runtimeRecordIsFailed, Bool.and_eq_true, Bool.not_eq_true'] at hfailed
      exact hfailed.1
  · obtain ⟨record, hrecord, -, hmem⟩ := h.routes route hroute
    exact ⟨record, hrecord, hmem⟩
  · exact hunlocked

theorem kept_of_run (hstr : ∀ s, opts.str (.str s) = s) {st : State F}
    (h : ReflTransGen (PlainStep opts text) {} st) : Kept opts st :=
  Transition.invariant_of_step (P := Kept opts) (fun _ _ => kept_step hstr) h kept_init

/-- **What is exposed has been earned**: along every run, behind each asset that is reachable,
failed, routed or unlocked for a binding there is an answered tick about the binding that its
gates allowed to ask for it. -/
theorem exposure_is_earned (hstr : ∀ s, opts.str (.str s) = s) {st : State F}
    (h : ReflTransGen (PlainStep opts text) {} st) (host : Host) {bindingId assetId : String}
    (hexposed : Exposed host st.world bindingId assetId) :
    ∃ a, Earned opts st bindingId assetId a := by
  have hkept : Kept opts st := kept_of_run hstr h
  exact hkept.earned bindingId assetId (unlocked_of_exposed hkept.confined hexposed)

/-! ### A first unlock -/

/-- A controller with a portal and a wiki, and a host on which containers start. -/
def portalServices : Services Rat where
  controller := portalService (.list [])
  profileSnapshot profile := some {
    recentTechniques := stringItems (profile.getD "recent_techniques" (.list []))
    recentEvidenceIds := stringItems (profile.getD "recent_evidence_ids" (.list [])) }
  host := quietHost (portalCatalog (.list []))

def portalOptions : LoopOptions where
  parseIsoDatetime _ := none
  str value := value.str?.getD ""
  feedbackWindowSeconds := 300
  maxActionsPerTrigger := 2
  keepsLoopState := true

def portalMoment : Moment Rat where
  services := portalServices
  network := ⟨true, true, true⟩
  appliedAt _ := 1767225600000000
  rowClock _ _ := 1767225600000000

/-- The wiki was asked for. -/
def wikiProfile : Value :=
  .dict [("recent_techniques", .list [.str "T1213"]), ("recent_evidence_ids", .list [.str "e-1"])]

def portalPass : PassInput where
  bindings := []
  profiles := [("198.51.100.7", wikiProfile)]
  evidence := []
  internalHttpEvents := []
  now := 1767225600000000
  controller _ := none
  orchestrator _ _ := false
  appliedAt _ := 1767225600000000
  rowClock _ _ := 1767225600000000

/-- An attacker has connected. -/
def connected : State Rat where
  world := (Call.binding (.resolve "198.51.100.7")).run portalServices.host {}

/-- The loop has read the files. -/
def started : State Rat := { connected with
  loop := beginPass portalOptions portalPass {}
  pass := some ⟨connected.world.bindings, portalPass.profiles⟩ }

/-- The loop has handled the profile. -/
def handled : State Rat :=
  started.handle portalOptions (fun _ => "") portalMoment connected.world.bindings "198.51.100.7"
    wikiProfile []

theorem plainHost_quiet (catalog : List AssetDefinition) : PlainHost (quietHost catalog) where
  fresh := quietHost_fresh catalog
  ids w := by
    have hmem : ∀ c ∈ (freshId (w.bindings.map BindingRecord.bindingId)).toList, c = 'u' := by
      intro c hc
      rw [freshId, String.toList_ofList] at hc
      exact List.eq_of_mem_replicate hc
    refine ⟨fun h => absurd (hmem _ h) (by decide), fun heq => ?_⟩
    have he : 'e' ∈ (freshId (w.bindings.map BindingRecord.bindingId)).toList := by
      show 'e' ∈ ((quietHost catalog).bindingUuid w).toList
      rw [heq]
      decide
    exact absurd (hmem _ he) (by decide)

/-- A catalog without variants, whose ids are plain. -/
theorem plainCatalog_of_ids {catalog : List AssetDefinition}
    (hids : ∀ asset ∈ catalog, PlainId asset.assetId)
    (hvariants : ∀ asset ∈ catalog, configurationVariants asset = []) : PlainCatalog catalog := by
  intro asset hasset
  refine ⟨hids asset hasset, fun variant hvariant => ?_⟩
  rw [hvariants asset hasset] at hvariant
  exact absurd hvariant List.not_mem_nil

theorem plainCatalog_portal : PlainCatalog (portalCatalog (.list [])) := by
  have hids : ∀ asset ∈ portalCatalog (.list []), ' ' ∉ asset.assetId.toList := by decide
  exact plainCatalog_of_ids hids (by decide)

/-- The loop handles the profile with these services. -/
theorem run_handle (m : Moment Rat) (hhost : PlainHost m.services.host)
    (hcatalog : PlainCatalog m.services.controller.listAll) :
    ReflTransGen (PlainStep portalOptions fun _ => "") {}
      (started.handle portalOptions (fun _ => "") m connected.world.bindings "198.51.100.7"
        wikiProfile []) := by
  have hconnected : PlainStep portalOptions (fun _ => "") {} connected :=
    .binding _ _ _ (plainHost_quiet (portalCatalog (.list []))) trivial
  have hstarted : PlainStep portalOptions (fun _ => "") connected started :=
    .start _ portalPass rfl (List.nodup_singleton _)
  refine ((ReflTransGen.single hconnected).tail hstarted).tail ?_
  refine .handle _ m _ _ _ _ hhost rfl fun q request _ hrequest => ?_
  rw [requestAssets, if_pos (of_tickRequest hrequest).2]
  exact hcatalog

theorem run_handled : ReflTransGen (PlainStep portalOptions fun _ => "") {} handled :=
  run_handle portalMoment (plainHost_quiet (portalCatalog (.list []))) plainCatalog_portal

/-- The portal is reached, and the loop's first tick is behind it. -/
theorem portal_earned : ∃ (st : State Rat) (a : Answered Rat),
    ReflTransGen (PlainStep portalOptions fun _ => "") {} st ∧
      "internal-portal" ∈ listAccessibleAssetIds portalServices.host st.world "u" ∧
      Earned portalOptions st "u" "internal-portal" a := by
  have hlisted : "internal-portal" ∈
      listAccessibleAssetIds portalServices.host handled.world "u" := by decide +kernel
  obtain ⟨a, ha⟩ := exposure_is_earned (fun _ => rfl) run_handled portalServices.host
    (Or.inl hlisted)
  exact ⟨handled, a, run_handled, hlisted, ha⟩

end Honeynet.System
