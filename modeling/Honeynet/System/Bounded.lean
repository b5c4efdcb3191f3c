import Honeynet.Controller.Exposure
import Honeynet.System.Earned

/-!
# Exposure in the whole system

The controller decides from a list of open assets that was read at the start of the pass, and the
orchestrator may stop in the middle of what it was asked.

* `tick_exposure_upTo`: whatever initial part of an answer is applied, the exposure is kept.
* `Current`: what a pass has read of the attackers it has yet to handle is still what is stored.
* `exposure_stays_bounded`: along runs whose ticks are gated, no binding ever has more assets open
  than the cap, and each of them is internal with all it depends on.
-/

namespace Honeynet.System

open Collections Binding Controller Loop Orchestrator Relation

/-! ### A part of an answer -/

section Answer

variable {F : Type} {ctl : ControllerService F} {request : ControllerTickRequest F}

theorem prefix_cases {α : Type*} {first second added : List α} (h : added <+: first ++ second) :
    added <+: first ∨ ∃ rest, rest <+: second ∧ added = first ++ rest := by
  rcases List.prefix_or_prefix_of_prefix h (List.prefix_append first second) with hshort | hlong
  · exact Or.inl hshort
  · obtain ⟨rest, rfl⟩ := hlong
    exact Or.inr ⟨rest, (List.prefix_append_right_inj first).mp h, rfl⟩

theorem prefix_of_length_le_one {α : Type*} {l added : List α} (hl : l.length ≤ 1)
    (h : added <+: l) : added = [] ∨ added = l := by
  match added, l, h, hl with
  | [], _, _, _ => exact Or.inl rfl
  | a :: added, b :: l, h, hl =>
    obtain ⟨rfl, hrest⟩ := List.cons_prefix_cons.mp h
    have hnil : l = [] := List.length_eq_zero_iff.mp (by simpa using hl)
    subst hnil
    rw [List.prefix_nil.mp hrest]
    exact Or.inr rfl

theorem length_opened (action : ControllerAction) : action.opened.length ≤ 1 := by
  rw [ControllerAction.opened]
  split
  · cases action.assetId <;> simp
  · cases action.targetAssetId.filter (· != "") <;> simp
  · exact Nat.zero_le 1

/-- **Whatever initial part of an answer is applied**, the exposure is kept. -/
theorem tick_exposure_upTo {bound : Int} {r : ControllerTickResponse F}
    (h : Exposure (requestAssets ctl request) bound request.unlockedAssetIds)
    (hcap : ctl.unlockCap ≤ bound) (htick : tick ctl request = .ok r)
    (hgated : TickGated ctl request) {added : List String}
    (hadded : added <+: r.actions.flatMap ControllerAction.opened) :
    Exposure (requestAssets ctl request) bound (request.unlockedAssetIds ++ added) := by
  rcases tick_cases htick with ⟨reason, ids, rejected, rfl⟩ | ⟨c, follow, hreveals⟩
  · have hnil : added = [] := List.prefix_nil.mp hadded
    rw [hnil, List.append_nil]
    exact h
  · obtain ⟨hmain, hfollow⟩ := hgated c hreveals.main_mem
    have hplanned := plannedAfter_exposure h hcap hreveals.main_chosen hmain
    rw [hreveals.actions, List.flatMap_cons] at hadded
    rcases prefix_cases hadded with hfirst | ⟨rest, hrest, rfl⟩
    · rcases prefix_of_length_le_one (length_opened _) hfirst with rfl | rfl
      · rw [List.append_nil]
        exact h
      · rw [← plannedAfter_eq hreveals.main_chosen]
        exact hplanned
    · rw [← List.append_assoc, ← plannedAfter_eq hreveals.main_chosen]
      cases follow with
      | none =>
        rw [List.prefix_nil.mp hrest, List.append_nil]
        exact hplanned
      | some d =>
        have hd := hreveals.follow_chosen d rfl
        have hmem : d ∈ followReveal ctl request c := hreveals.follow_eq ▸ rfl
        rw [Option.toList_some, List.map_singleton, List.flatMap_singleton] at hrest
        rcases prefix_of_length_le_one (length_opened _) hrest with rfl | rfl
        · rw [List.append_nil]
          exact hplanned
        · rw [← plannedAfter_eq hd]
          exact plannedAfter_exposure hplanned hcap hd (hfollow d hmem)

/-- The assets of a catalog have ids. -/
def Named (catalog : List AssetDefinition) : Prop := ∀ asset ∈ catalog, asset.assetId ≠ ""

theorem given_of_ne {id : String} (h : id ≠ "") : given (some id) = some id := by
  simp [given, Option.filter, h]

/-- What a chosen action opens is what it asks the orchestrator for. -/
theorem requested_of_chosen (hnamed : Named (requestAssets ctl request)) {strategy : Strategy}
    {exploit : Option (CandidateScore F)} {planned : List String} {c : CandidateScore F}
    (hc : Chosen ctl request strategy exploit planned c) (bindingId : String) :
    (requested (buildAction ctl bindingId c)).toList = (buildAction ctl bindingId c).opened := by
  cases hc.offered with
  | unlock hmem _ htype =>
    have hasset := given_of_ne (hnamed c.asset hmem)
    simp [buildAction, htype, requested, hasset, ControllerAction.opened]
  | configure variant id hoffered htype hid =>
    have hasset := given_of_ne (hnamed c.asset hoffered.source_mem)
    have hconfiguration := given_of_ne (stringOrNone_ne_empty hoffered.id_eq)
    simp [buildAction, htype, hid, requested, hasset, hconfiguration, ControllerAction.opened]
    rfl

/-- **The orchestrator is asked for what the controller has planned.** -/
theorem requested_of_tick (hnamed : Named (requestAssets ctl request))
    {r : ControllerTickResponse F} (htick : tick ctl request = .ok r) :
    r.actions.filterMap requested = r.actions.flatMap ControllerAction.opened := by
  have hflat : ∀ actions : List ControllerAction,
      (∀ action ∈ actions, (requested action).toList = action.opened) →
        actions.filterMap requested = actions.flatMap ControllerAction.opened := by
    intro actions h
    rw [List.filterMap_eq_flatMap_toList]
    exact List.flatMap_congr h
  refine hflat r.actions fun action haction => ?_
  rcases tick_cases htick with ⟨reason, ids, rejected, rfl⟩ | ⟨c, follow, hreveals⟩
  · rw [List.mem_singleton.mp haction]
    rfl
  · rw [hreveals.actions] at haction
    rcases List.mem_cons.mp haction with rfl | haction
    · exact requested_of_chosen hnamed hreveals.main_chosen _
    · obtain ⟨d, hd, rfl⟩ := List.mem_map.mp haction
      exact requested_of_chosen hnamed (hreveals.follow_chosen d (Option.mem_toList.mp hd)) _

end Answer

/-! ### What a pass still knows -/

section Runs

variable {F : Type} {opts : LoopOptions} {text : Datetime → String}
  {catalog : List AssetDefinition} {cap bound : Int}

/-- **What the pass has read of the attackers it has yet to handle** is still stored. -/
structure Current (p : PassState) (w : World) : Prop where
  keys : (p.profiles.map Prod.fst).Nodup
  distinct : (p.bindings.map BindingRecord.bindingId).Nodup
  stored : ∀ r ∈ p.bindings, r.attackerKey ∈ p.profiles.map Prod.fst →
    exposureOf w.bindings r.bindingId = some (r.attackerKey, r.unlockedAssets)

theorem Current.mono {p : PassState} {w w' : World} (h : Current p w)
    (hsame : ∀ bindingId e, exposureOf w.bindings bindingId = some e →
      exposureOf w'.bindings bindingId = some e) : Current p w' :=
  ⟨h.keys, h.distinct, fun r hr hkey => hsame _ _ (h.stored r hr hkey)⟩

/-- Once a profile is handled, only its attacker's binding may have changed. -/
theorem Current.rest {bindings : List BindingRecord} {attackerKey : String} {profile : Value}
    {rest : List (String × Value)} {w w' : World}
    (h : Current ⟨bindings, (attackerKey, profile) :: rest⟩ w) {r : BindingRecord}
    (hr : r ∈ bindings) (hkey : r.attackerKey = attackerKey)
    (hothers : ∀ other, other ≠ r.bindingId →
      exposureOf w'.bindings other = exposureOf w.bindings other) :
    Current ⟨bindings, rest⟩ w' := by
  have hkeys := List.nodup_cons.mp h.keys
  refine ⟨hkeys.2, h.distinct, fun r' hr' hkey' => ?_⟩
  have hne : r'.bindingId ≠ r.bindingId := by
    intro hid
    obtain rfl := List.inj_on_of_nodup_map h.distinct hr' hr hid
    exact hkeys.1 (hkey ▸ hkey')
  rw [hothers _ hne]
  exact h.stored r' hr' (List.mem_cons_of_mem _ hkey')

/-- Every binding keeps to the bound, and the pass under way knows what is open. -/
structure Held (catalog : List AssetDefinition) (bound : Int) (st : State F) : Prop where
  distinct : (bindingIds st.world).Nodup
  current : ∀ p ∈ st.pass, Current p st.world
  exposure : ∀ bindingId attackerKey assetIds,
    exposureOf st.world.bindings bindingId = some (attackerKey, assetIds) →
      Exposure catalog bound assetIds

/-- A tick over the catalog, with the cap, that is gated. -/
structure GatedTick (catalog : List AssetDefinition) (cap : Int) (ctl : ControllerService F)
    (request : ControllerTickRequest F) : Prop where
  assets : requestAssets ctl request = catalog
  unlockCap : ctl.unlockCap = cap
  gated : TickGated ctl request

/-- Nothing is open for a new binding. -/
theorem exposure_nil (hbound : 0 ≤ bound) : Exposure catalog bound [] where
  bounded := by simpa using hbound
  closed _ h := absurd h List.not_mem_nil

theorem held_binding (hbound : 0 ≤ bound) {st : State F} (h : Held catalog bound st) {host : Host}
    (hhost : host.Fresh) {op : BindingOp} (hserved : Served op) :
    Held catalog bound { st with world := (Call.binding op).run host st.world } := by
  have hserve := exposureOf_served hhost hserved st.world
  refine ⟨nodup_bindingIds_binding host op h.distinct, fun p hp => (h.current p hp).mono ?_, ?_⟩
  · intro bindingId e he
    rcases hserve bindingId with hsame | ⟨hnone, -⟩
    · exact hsame.trans he
    · exact absurd (hnone.symm.trans he) (by simp)
  · intro bindingId attackerKey assetIds he
    rcases hserve bindingId with hsame | ⟨-, key, hnew⟩
    · exact h.exposure bindingId attackerKey assetIds (hsame.symm.trans he)
    · obtain ⟨-, rfl⟩ := Prod.mk.inj (Option.some.inj (hnew.symm.trans he))
      exact exposure_nil hbound

theorem held_prewarm {st : State F} (h : Held catalog bound st) (host : Host) (bindingId : String)
    (assetIds : List String) :
    Held catalog bound { st with
      world := (Call.prewarm bindingId assetIds).run host st.world } := by
  have hbindings : ((Call.prewarm bindingId assetIds).run host st.world).bindings =
      st.world.bindings := bindings_prewarm host bindingId assetIds st.world
  have hids : bindingIds ((Call.prewarm bindingId assetIds).run host st.world) =
      bindingIds st.world := congrArg (List.map BindingRecord.bindingId) hbindings
  refine ⟨hids ▸ h.distinct, fun p hp => (h.current p hp).mono fun b e he => ?_,
    fun b key assetIds' he => h.exposure b key assetIds' ?_⟩
  · show exposureOf ((Call.prewarm bindingId assetIds).run host st.world).bindings b = some e
    rw [hbindings]
    exact he
  · exact hbindings ▸ he

/-- **One profile of a pass** keeps to the bound, however much of the answer is applied. -/
theorem held_handle (hstr : ∀ s, opts.str (.str s) = s) (hnamed : Named catalog)
    (hcap : cap ≤ bound) {st : State F} (h : Held catalog bound st) {m : Moment F}
    {bindings : List BindingRecord} {attackerKey : String} {profile : Value}
    {rest : List (String × Value)}
    (hpass : st.pass = some ⟨bindings, (attackerKey, profile) :: rest⟩)
    (htick : ∀ q request, controllerRequest opts (m.input text bindings st.world) st.loop
      attackerKey profile = some q → tickRequest m.services q = some request →
        GatedTick catalog cap m.services.controller request) :
    Held catalog bound (st.handle opts text m bindings attackerKey profile rest) := by
  have hcurrent := h.current _ hpass
  have hread : ∀ w, Current ⟨bindings, rest⟩ w →
      ∀ p ∈ (st.handle opts text m bindings attackerKey profile rest).pass, Current p w := by
    intro w hw p hp
    obtain ⟨n, -, rfl⟩ := Option.map_eq_some_iff.mp hp
    exact hw
  rcases worldAfter_cases opts text m bindings st.loop attackerKey profile st.world with
    hsame | ⟨a, ha, hworld⟩
  · have heq : (st.handle opts text m bindings attackerKey profile rest).world = st.world := hsame
    refine ⟨heq ▸ h.distinct, hread _ ?_, heq ▸ h.exposure⟩
    rw [heq]
    refine ⟨(List.nodup_cons.mp hcurrent.keys).2, hcurrent.distinct, fun r hr hkey => ?_⟩
    exact hcurrent.stored r hr (List.mem_cons_of_mem _ hkey)
  · have heq : (st.handle opts text m bindings attackerKey profile rest).world =
        (Call.apply a.request.bindingId
          (limitRevealActions a.response.actions opts.maxActionsPerTrigger)).run
            m.services.host st.world := hworld
    obtain ⟨r, hr, rfl, habout, hpayload, hrequest, hcontroller⟩ := askedAbout_of_answered hstr ha
    have hgated := htick _ _ hpayload hrequest
    rw [← hcontroller] at hgated
    have hstored := hcurrent.stored r hr List.mem_cons_self
    obtain ⟨added, hadded, hopened⟩ := opened_apply m.services.host a.request.bindingId
      (limitRevealActions a.response.actions opts.maxActionsPerTrigger) st.world
    rw [← Call.run, ← heq, habout.bindingId] at hopened
    have hids : bindingIds (st.handle opts text m bindings r.attackerKey profile rest).world =
        bindingIds st.world := by
      rw [heq]
      exact bindingIds_apply _ _ _ _
    refine ⟨hids ▸ h.distinct, hread _ (hcurrent.rest hr rfl hopened.others), ?_⟩
    intro bindingId key assetIds he
    by_cases hb : bindingId = r.bindingId
    · subst hb
      have hown := hopened.own
      rw [hstored, Option.map_some, he] at hown
      obtain ⟨-, rfl⟩ := Prod.mk.inj (Option.some.inj hown)
      have hbefore : Exposure (requestAssets a.controller a.request) bound
          a.request.unlockedAssetIds := by
        rw [hgated.assets, habout.unlocked]
        exact h.exposure _ _ _ hstored
      have hplanned : added <+: a.response.actions.flatMap ControllerAction.opened := by
        rw [← requested_of_tick (hgated.assets.symm ▸ hnamed) habout.returned]
        exact hadded.trans (requested_limitRevealActions _ _)
      have hafter := tick_exposure_upTo hbefore (hgated.unlockCap.symm ▸ hcap) habout.returned
        hgated.gated hplanned
      rw [hgated.assets, habout.unlocked] at hafter
      exact hafter.congr fun x => by rw [mem_appendNew, List.mem_append]
    · rw [hopened.others bindingId hb] at he
      exact h.exposure bindingId key assetIds he

/-- **Every step.** -/
theorem held_step (hstr : ∀ s, opts.str (.str s) = s) (hnamed : Named catalog)
    (hcap : cap ≤ bound) (hbound : 0 ≤ bound) {st st' : State F}
    (h : Step opts text Host.Fresh (GatedTick catalog cap) st st')
    (hst : Held catalog bound st) : Held catalog bound st' := by
  cases h with
  | binding host op hhost hserved => exact held_binding hbound hst hhost hserved
  | prewarm host bindingId assetIds _ => exact held_prewarm hst host bindingId assetIds
  | start inp _ hkeys =>
    refine ⟨hst.distinct, fun p hp => ?_, hst.exposure⟩
    obtain rfl := Option.some.inj hp
    exact ⟨hkeys, hst.distinct, fun r hr _ => exposureOf_of_mem hst.distinct hr⟩
  | handle m bindings attackerKey profile rest _ hpass htick =>
    exact held_handle hstr hnamed hcap hst hpass htick
  | finish => exact ⟨hst.distinct, fun p hp => absurd hp (by simp), hst.exposure⟩

/-- **Exposure stays bounded**: along every run whose ticks are gated, each binding has at most
the cap of assets open, all of them internal, with all they depend on. -/
theorem exposure_stays_bounded (hstr : ∀ s, opts.str (.str s) = s) (hnamed : Named catalog)
    (hcap : 0 ≤ cap) {st : State F}
    (h : ReflTransGen (Step opts text Host.Fresh (GatedTick catalog cap)) {} st)
    {record : BindingRecord} {bindingId : String}
    (hrecord : getByBinding st.world.bindings bindingId = some record) :
    Exposure catalog cap record.unlockedAssets := by
  have hinit : Held catalog cap ({} : State F) :=
    ⟨List.nodup_nil, fun _ hp => absurd hp (by simp), fun b _ _ he => by
      obtain ⟨r, hr, -⟩ := Option.map_eq_some_iff.mp he
      exact absurd (mem_ids_of_get hr) List.not_mem_nil⟩
  have hheld : Held catalog cap st := Transition.invariant_of_step (P := Held catalog cap)
    (fun _ _ => held_step hstr hnamed (le_refl cap) hcap) h hinit
  exact hheld.exposure bindingId _ _ (exposureOf_of_get hrecord)

end Runs

/-! ### A first unlock -/

/-- The reveals of a tick have no targets. -/
def targetless (ctl : ControllerService Rat) (request : ControllerTickRequest Rat) : Bool :=
  (mainReveal ctl request).all fun c => c.targetAssetId.isNone &&
    (followReveal ctl request c).all fun d => d.targetAssetId.isNone

theorem gated_of_targetless {ctl : ControllerService Rat} {request : ControllerTickRequest Rat}
    (h : targetless ctl request = true) : TickGated ctl request := by
  intro c hc
  rw [targetless, Option.all_eq_true] at h
  obtain ⟨hmain, hfollow⟩ := Bool.and_eq_true_iff.mp (h c hc)
  rw [Option.isNone_iff_eq_none] at hmain
  rw [Option.all_eq_true] at hfollow
  refine ⟨fun id hid => absurd hid (by simp [hmain]), fun d hd id hid => ?_⟩
  have hnone := hfollow d hd
  rw [Option.isNone_iff_eq_none] at hnone
  exact absurd hid (by simp [hnone])

theorem run_gated : ReflTransGen (Step portalOptions (fun _ => "") Host.Fresh
    (GatedTick (portalCatalog (.list [])) 100)) {} handled := by
  have hhost := quietHost_fresh (portalCatalog (.list []))
  have hconnected : Step portalOptions (fun _ => "") Host.Fresh
      (GatedTick (portalCatalog (.list [])) 100) {} connected := .binding _ _ _ hhost trivial
  have hstarted : Step portalOptions (fun _ => "") Host.Fresh
      (GatedTick (portalCatalog (.list [])) 100) connected started :=
    .start _ portalPass rfl (List.nodup_singleton _)
  have hhandled : Step portalOptions (fun _ => "") Host.Fresh
      (GatedTick (portalCatalog (.list [])) 100) started handled := by
    refine .handle _ portalMoment _ _ _ _ hhost rfl fun q request hq hrequest => ?_
    have hall : ((controllerRequest portalOptions (portalMoment.input (fun _ => "")
        connected.world.bindings started.world) started.loop "198.51.100.7" wikiProfile).bind
          (tickRequest portalServices)).all (targetless portalServices.controller) = true := by
      decide +kernel
    have hsome : (controllerRequest portalOptions (portalMoment.input (fun _ => "")
        connected.world.bindings started.world) started.loop "198.51.100.7" wikiProfile).bind
          (tickRequest portalServices) = some request := by
      rw [hq]
      exact hrequest
    rw [hsome] at hall
    refine ⟨?_, rfl, gated_of_targetless hall⟩
    rw [requestAssets, if_pos (of_tickRequest hrequest).2]
    rfl
  exact ((ReflTransGen.single hconnected).tail hstarted).tail hhandled

/-- The portal is open, and the attacker keeps to the cap. -/
theorem portal_within_cap : ∃ (st : State Rat) (record : BindingRecord),
    ReflTransGen (Step portalOptions (fun _ => "") Host.Fresh
      (GatedTick (portalCatalog (.list [])) 100)) {} st ∧
    getByBinding st.world.bindings "u" = some record ∧
    "internal-portal" ∈ record.unlockedAssets ∧
    Exposure (portalCatalog (.list [])) 100 record.unlockedAssets := by
  have hopen : (getByBinding handled.world.bindings "u").any
      (fun r => "internal-portal" ∈ r.unlockedAssets) = true := by decide +kernel
  have hnamed : Named (portalCatalog (.list [])) := by
    intro asset hasset
    rcases List.mem_cons.mp hasset with rfl | hasset
    · decide
    · rw [List.mem_singleton.mp hasset]
      decide
  rcases Option.eq_none_or_eq_some (getByBinding handled.world.bindings "u") with
    hnone | ⟨record, hrecord⟩
  · rw [hnone] at hopen
    exact absurd hopen (by simp)
  · rw [hrecord, Option.any_some] at hopen
    exact ⟨handled, record, run_gated, hrecord, of_decide_eq_true hopen,
      exposure_stays_bounded (fun _ => rfl) hnamed (by decide) run_gated hrecord⟩

end Honeynet.System
