import Honeynet.Controller.Offers

/-!
# What a tick answers

* `tick_cases`: a tick that returns answers with a noop, or with a main reveal and perhaps one
  that explores.
* `TickStructure`, `tick_structure`: the shape of the answer, the gates of its unlocks, and that
  nothing is revealed twice.
* `tick_iff`: a tick returns so iff everything its passes read can be read.
* `missing_markers_raise`: an upgrade entry with `null` markers stops a tick.
-/

namespace Honeynet.Controller

open Collections Fallible

variable {F : Type} {ctl : ControllerService F} {request : ControllerTickRequest F}
  {planned : List String}

/-! ### Selected candidates -/

/-- A candidate that a pass selects. -/
structure Chosen (ctl : ControllerService F) (request : ControllerTickRequest F)
    (strategy : Strategy) (exploit : Option (CandidateScore F)) (planned : List String)
    (c : CandidateScore F) : Prop where
  offered : Offered ctl request planned c.asset c.actionType c.configurationId c.targetAssetId
    c.coveredTechniques
  scored : ∃ o, ScoredAs ctl request strategy exploit
    (thresholdedObservedTechniques ctl request.profile) (recommendationsOf ctl request) o c

theorem pass_chosen {strategy : Strategy} {exploit : Option (CandidateScore F)}
    {rejected : Dict String String} {p : Pass F}
    (h : pass ctl request strategy exploit planned rejected = .ok p) {c : CandidateScore F}
    (hc : p.selected = some c) : Chosen ctl request strategy exploit planned c :=
  ⟨(pass_selected h hc).1, (pass_selected h hc).2⟩

theorem stringOrNone_ne_empty {value : Value} {s : String} (h : stringOrNone value = some s) :
    s ≠ "" := by
  cases value with
  | str t =>
    rw [stringOrNone] at h
    split_ifs at h with hempty
    exact Option.some.inj h ▸ hempty
  | _ => exact absurd h (by simp [stringOrNone])

/-- A reveal is an unlock or a configuration. -/
theorem Offered.type {asset : AssetDefinition} {actionType : ActionType}
    {configurationId targetAssetId : Option String} {covered : List String}
    (h : Offered ctl request planned asset actionType configurationId targetAssetId covered) :
    actionType = .unlock ∨ actionType = .configure := by
  cases h with
  | unlock _ _ htype => exact Or.inl htype
  | configure _ _ _ htype => exact Or.inr htype

/-- The target of an offered configuration is the source itself or not yet planned. -/
theorem OfferedVariant.target {source : AssetDefinition} {variant : Settings} {id target : String}
    (h : OfferedVariant ctl request planned source variant id)
    (htarget : stringOrNone (variant.get "target_asset_id") = some target) :
    target = source.assetId ∨ target ∉ planned := by
  have hskip := h.not_skipped
  rw [variantSkipped, htarget, Bool.or_eq_false_iff] at hskip
  cases hasset : targetAsset? (requestAssets ctl request) variant with
  | none => simp [hasset] at hskip
  | some asset =>
    by_contra hboth
    rw [not_or, not_not] at hboth
    simp [hasset, hboth.1, hboth.2] at hskip

/-- What a configuration reveals is new. -/
theorem OfferedVariant.unrevealed {source : AssetDefinition} {variant : Settings} {id : String}
    (h : OfferedVariant ctl request planned source variant id) :
    id ∉ request.revealedConfigurations.getD source.assetId [] := by
  have hskip := h.not_skipped
  rw [variantSkipped, Bool.or_eq_false_iff, Bool.or_eq_false_iff, Bool.or_eq_false_iff] at hskip
  simpa using hskip.1.1.1

/-! ### What is asked of an answer -/

/-- The decision type as it is sent. -/
def DecisionType.value : DecisionType → String
  | bind => "bind"
  | unlock => "unlock"
  | configure => "configure"
  | routeUpdate => "route_update"
  | recycle => "recycle"
  | noop => "noop"

/-- An event is about an action: the same binding and type, and the asset the action exposes. -/
def EventFits (a : ControllerAction) (e : DecisionEvent F) : Prop :=
  e.bindingId = a.bindingId ∧ e.decisionType.value = a.actionType.value ∧
    (a.actionType ≠ .noop → e.assetAdded = a.exposed)

/-- An unlock of an asset of the catalog that passes the gates. -/
def GatedUnlock (ctl : ControllerService F) (request : ControllerTickRequest F)
    (planned : List String) (a : ControllerAction) : Prop :=
  ∃ asset ∈ requestAssets ctl request, a.assetId = some asset.assetId ∧
    Eligible ctl request planned asset

/-- A configuration of an open asset of the catalog that was not revealed before. -/
def NewConfiguration (ctl : ControllerService F) (request : ControllerTickRequest F)
    (a : ControllerAction) : Prop :=
  ∃ source id, source ∈ requestAssets ctl request ∧ source.assetId ∈ request.unlockedAssetIds ∧
    a.assetId = some source.assetId ∧ a.configurationId = some id ∧
      id ∉ request.revealedConfigurations.getD source.assetId []

/-- **The structure of an answer**: one noop, or one or two reveals; an event for each action;
every unlock gated by what is open and what the tick has opened before; nothing exposed or
configured twice. -/
structure TickStructure (ctl : ControllerService F) (request : ControllerTickRequest F)
    (r : ControllerTickResponse F) : Prop where
  shape : (∃ a, r.actions = [a] ∧ a.actionType = .noop) ∨
    (1 ≤ r.actions.length ∧ r.actions.length ≤ 2 ∧
      ∀ a ∈ r.actions, a.actionType = .unlock ∨ a.actionType = .configure)
  bindings : ∀ a ∈ r.actions, a.bindingId = request.bindingId
  aligned : List.Forall₂ EventFits r.actions r.decisionEvents
  gated : ∀ pre a post, r.actions = pre ++ a :: post → a.actionType = .unlock →
    GatedUnlock ctl request (request.unlockedAssetIds ++ pre.flatMap ControllerAction.opened) a
  exposed_once : ((r.actions.filterMap ControllerAction.exposed).filter
    (· ∉ request.unlockedAssetIds)).Nodup
  configured_new : ∀ a ∈ r.actions, a.actionType = .configure → NewConfiguration ctl request a
  configured_once : ((r.actions.filter fun a => a.actionType == .configure).map
    fun a => (a.assetId, a.configurationId)).Nodup

section Candidate

variable {strategy : Strategy} {exploit : Option (CandidateScore F)} {c : CandidateScore F}

theorem prefix_plannedAfter (planned : List String) (c : CandidateScore F) :
    planned <+: plannedAfter planned c := by
  rw [plannedAfter]
  split_ifs with htype
  · exact List.prefix_append _ _
  · cases c.targetAssetId with
    | none => exact List.prefix_refl _
    | some target =>
      dsimp only
      split_ifs
      · exact List.prefix_refl _
      · exact List.prefix_append _ _

/-- The action and the planned list agree on what is opened. -/
theorem plannedAfter_eq (h : Chosen ctl request strategy exploit planned c) :
    plannedAfter planned c = planned ++ (buildAction ctl request.bindingId c).opened := by
  rcases h.offered.type with htype | htype
  · simp [plannedAfter, buildAction, ControllerAction.opened, htype]
  · rw [plannedAfter, buildAction, if_neg (by simp [htype]), if_pos htype]
    cases htarget : c.targetAssetId with
    | none => simp [ControllerAction.opened]
    | some target =>
      by_cases hempty : target = ""
      · simp [ControllerAction.opened, hempty, Option.filter]
      · simp [ControllerAction.opened, hempty, Option.filter]

/-- An exposed asset was open, or is new to the planned list. -/
theorem exposed_new (h : Chosen ctl request strategy exploit planned c) :
    c.exposedAssetId ∈ request.unlockedAssetIds ∨ c.exposedAssetId ∉ planned := by
  cases h.offered with
  | unlock _ heligible _ _ htarget =>
    rw [CandidateScore.exposedAssetId, htarget]
    exact Or.inr heligible.locked
  | configure variant id hoffered _ _ htarget =>
    rw [CandidateScore.exposedAssetId, htarget]
    cases hstring : stringOrNone (variant.get "target_asset_id") with
    | none => exact Or.inl hoffered.source_open
    | some target =>
      simp only [if_neg (stringOrNone_ne_empty hstring)]
      rcases hoffered.target hstring with rfl | hnew
      · exact Or.inl hoffered.source_open
      · exact Or.inr hnew

/-- An exposed asset was open, or is planned from then on. -/
theorem exposed_planned (h : Chosen ctl request strategy exploit planned c) :
    c.exposedAssetId ∈ request.unlockedAssetIds ∨ c.exposedAssetId ∈ plannedAfter planned c := by
  cases h.offered with
  | unlock _ _ htype _ htarget =>
    rw [CandidateScore.exposedAssetId, htarget, plannedAfter, if_pos htype]
    exact Or.inr (List.mem_append_right _ (List.mem_singleton_self _))
  | configure variant id hoffered htype _ htarget =>
    rw [CandidateScore.exposedAssetId, plannedAfter, htarget, if_neg (by simp [htype])]
    cases hstring : stringOrNone (variant.get "target_asset_id") with
    | none => exact Or.inl hoffered.source_open
    | some target =>
      simp only [if_neg (stringOrNone_ne_empty hstring)]
      exact Or.inr (List.mem_append_right _ (List.mem_singleton_self _))

theorem buildAction_exposed (h : Chosen ctl request strategy exploit planned c) :
    (buildAction ctl request.bindingId c).exposed = some c.exposedAssetId := by
  rw [buildAction, CandidateScore.exposedAssetId]
  cases h.offered with
  | unlock _ _ htype _ htarget => simp [htype, htarget, ControllerAction.exposed]
  | configure variant id hoffered htype _ htarget =>
    rw [if_pos htype]
    cases hstring : c.targetAssetId with
    | none => simp [ControllerAction.exposed]
    | some target => by_cases hempty : target = "" <;> simp [ControllerAction.exposed, hempty]

theorem buildAction_type (h : Chosen ctl request strategy exploit planned c) :
    (buildAction ctl request.bindingId c).actionType = c.actionType := by
  rw [buildAction]
  rcases h.offered.type with htype | htype <;> simp [htype]

theorem buildAction_bindingId :
    (buildAction ctl request.bindingId c).bindingId = request.bindingId := by
  rw [buildAction]
  split <;> rfl

theorem buildAction_assetId :
    (buildAction ctl request.bindingId c).assetId = some c.asset.assetId := by
  rw [buildAction]
  split <;> rfl

theorem buildDecisionEvent_fits (h : Chosen ctl request strategy exploit planned c)
    {rejected : Dict String String} {eligible : List (CandidateScore F)} :
    EventFits (buildAction ctl request.bindingId c)
      (buildDecisionEvent ctl request c rejected eligible) := by
  rw [EventFits, buildAction_exposed h, buildAction_bindingId, buildAction_type h]
  refine ⟨rfl, ?_, fun _ => rfl⟩
  rw [buildDecisionEvent]
  rcases h.offered.type with htype | htype <;> simp [htype, DecisionType.value, ActionType.value]

/-- An unlock passes the gates. -/
theorem chosen_unlock (h : Chosen ctl request strategy exploit planned c)
    (htype : (buildAction ctl request.bindingId c).actionType = .unlock) :
    GatedUnlock ctl request planned (buildAction ctl request.bindingId c) := by
  rw [buildAction_type h] at htype
  cases h.offered with
  | unlock hmem heligible => exact ⟨c.asset, hmem, buildAction_assetId, heligible⟩
  | configure _ _ _ hconfigure => exact absurd (htype.symm.trans hconfigure) (by decide)

theorem chosen_configure (h : Chosen ctl request strategy exploit planned c)
    (htype : (buildAction ctl request.bindingId c).actionType = .configure) :
    NewConfiguration ctl request (buildAction ctl request.bindingId c) := by
  rw [buildAction_type h] at htype
  cases h.offered with
  | unlock _ _ hunlock => exact absurd (htype.symm.trans hunlock) (by decide)
  | configure variant id hoffered _ hid =>
    refine ⟨c.asset, id, hoffered.source_mem, hoffered.source_open, buildAction_assetId, ?_,
      hoffered.unrevealed⟩
    rw [buildAction, if_pos htype, hid]

end Candidate

/-! ### The two reveals of a tick -/

/-- The configuration ids of the catalog are distinct, and so are its asset ids. -/
structure DistinctIds (assets : List AssetDefinition) : Prop where
  assetIds : (assets.map AssetDefinition.assetId).Nodup
  configurationIds : ∀ asset ∈ assets, ((configurationVariants asset).filterMap fun variant =>
    stringOrNone (variant.get "configuration_id")).Nodup

/-- **The second reveal is another one**: it opens something else and configures something
else. -/
theorem follow_differs (hids : DistinctIds (requestAssets ctl request)) {c d : CandidateScore F}
    (hc : Chosen ctl request .exploit none planned c)
    (hd : Chosen ctl request .explore (some c) (plannedAfter planned c) d)
    (hct : c.actionType = .configure) (hdt : d.actionType = .configure)
    (hasset : c.asset.assetId = d.asset.assetId) : c.configurationId ≠ d.configurationId := by
  intro hid
  cases hc.offered with
  | unlock _ _ hunlock => exact absurd (hct.symm.trans hunlock) (by decide)
  | configure v id hv _ hcid _ hcov =>
    cases hd.offered with
    | unlock _ _ hunlock => exact absurd (hdt.symm.trans hunlock) (by decide)
    | configure w id' hw _ hdid _ hdov =>
      -- the same configuration covers the same techniques, and a second reveal covers another
      have hsame : c.asset = d.asset :=
        List.inj_on_of_nodup_map hids.assetIds hv.source_mem hw.source_mem hasset
      have hids' : id = id' := Option.some.inj (hcid.symm.trans (hid.trans hdid))
      have hwmem : w ∈ configurationVariants c.asset := hsame ▸ hw.variant_mem
      have hwid := hw.id_eq
      rw [← hids'] at hwid
      have hvariant : v = w := eq_of_nodup_filterMap (hids.configurationIds c.asset hv.source_mem)
        hv.variant_mem hwmem hv.id_eq hwid
      have hcovered : c.coveredTechniques = d.coveredTechniques := by
        rw [hcov, hdov, hvariant, hsame]
      obtain ⟨o, ho⟩ := hd.scored
      obtain ⟨technique, ht, hdistinct⟩ := explore_distinct ho
      have hfalse := hdistinct technique (hcovered ▸ ht)
      rw [sameTechniqueFamily_self] at hfalse
      exact absurd hfalse (by simp)

/-- The candidate the main pass selects. -/
def mainReveal (ctl : ControllerService F) (request : ControllerTickRequest F) :
    Option (CandidateScore F) :=
  match pass ctl request .exploit none request.unlockedAssetIds [] with
  | .ok p => p.selected
  | .error _ => none

/-- The candidate the second pass selects after the main reveal. -/
def followReveal (ctl : ControllerService F) (request : ControllerTickRequest F)
    (c : CandidateScore F) : Option (CandidateScore F) :=
  match pass ctl request .explore (some c) (plannedAfter request.unlockedAssetIds c) [] with
  | .ok p => p.selected
  | .error _ => none

/-- What was refused earlier does not matter for the selection. -/
theorem pass_rejected {strategy : Strategy} {exploit : Option (CandidateScore F)}
    {rejected : Dict String String} {p : Pass F}
    (h : pass ctl request strategy exploit planned rejected = .ok p)
    (rejected' : Dict String String) :
    ∃ p', pass ctl request strategy exploit planned rejected' = .ok p' ∧
      p'.candidates = p.candidates ∧ p'.selected = p.selected := by
  obtain ⟨options, hoptions, hcandidates, _, hselected⟩ := pass_eq_ok_iff.mp h
  have hpass : pass ctl request strategy exploit planned rejected' = .ok ⟨p.candidates,
      recordRefusals ctl (requestAssets ctl request) request planned rejected', p.selected⟩ :=
    pass_eq_ok_iff.mpr ⟨options, hoptions, hcandidates, rfl, hselected⟩
  exact ⟨_, hpass, rfl, rfl⟩

/-- The answer of a tick with a main reveal. -/
structure Reveals (ctl : ControllerService F) (request : ControllerTickRequest F)
    (r : ControllerTickResponse F) (c : CandidateScore F) (follow : Option (CandidateScore F)) :
    Prop where
  main_mem : c ∈ mainReveal ctl request
  follow_eq : followReveal ctl request c = follow
  main_chosen : Chosen ctl request .exploit none request.unlockedAssetIds c
  follow_chosen : ∀ d ∈ follow,
    Chosen ctl request .explore (some c) (plannedAfter request.unlockedAssetIds c) d
  actions : r.actions = buildAction ctl request.bindingId c ::
    follow.toList.map (buildAction ctl request.bindingId)
  events : ∃ rejected eligible rejected' eligible', r.decisionEvents =
    buildDecisionEvent ctl request c rejected eligible ::
      follow.toList.map fun d => buildDecisionEvent ctl request d rejected' eligible'

theorem mem_mainReveal {c : CandidateScore F} : c ∈ mainReveal ctl request ↔
    ∃ p, pass ctl request .exploit none request.unlockedAssetIds [] = .ok p ∧
      p.selected = some c := by
  rw [mainReveal]
  cases pass ctl request .exploit none request.unlockedAssetIds [] with
  | ok p => simp
  | error e => simp

/-- The answer of a tick whose passes end like this. -/
def revealResponse (ctl : ControllerService F) (request : ControllerTickRequest F)
    (main follow : Pass F) (c : CandidateScore F) : ControllerTickResponse F where
  bindingId := request.bindingId
  actions := buildAction ctl request.bindingId c ::
    follow.selected.toList.map (buildAction ctl request.bindingId)
  decisionEvents := buildDecisionEvent ctl request c main.rejected main.candidates ::
    follow.selected.toList.map fun d =>
      buildDecisionEvent ctl request d follow.rejected follow.candidates
  candidateAssetIds := appendNew []
    ((main.candidates ++ follow.candidates).map CandidateScore.exposedAssetId)

/-- What a tick answers, by its passes. -/
inductive TickPasses (ctl : ControllerService F) (request : ControllerTickRequest F) :
    ControllerTickResponse F → Prop
  | scanner (hscanner : scannerOnlyProfile request.profile = true) :
    TickPasses ctl request (noopResponse ctl request
      "no_reveal: scanner-like traffic without follow-up context" [] [])
  | noReveal (main : Pass F) (hscanner : scannerOnlyProfile request.profile = false)
      (hmain : pass ctl request .exploit none request.unlockedAssetIds [] = .ok main)
      (hselected : main.selected = none) :
    TickPasses ctl request (noopResponse ctl request
      "no_reveal: no eligible asset for observed or recommended techniques"
      (appendNew [] (main.candidates.map CandidateScore.exposedAssetId)) main.rejected)
  | reveal (main follow : Pass F) (c : CandidateScore F)
      (hscanner : scannerOnlyProfile request.profile = false)
      (hmain : pass ctl request .exploit none request.unlockedAssetIds [] = .ok main)
      (hselected : main.selected = some c)
      (hfollow : pass ctl request .explore (some c) (plannedAfter request.unlockedAssetIds c)
        main.rejected = .ok follow) :
    TickPasses ctl request (revealResponse ctl request main follow c)

/-- **A tick that returns**, by its passes. -/
theorem tick_passes {r : ControllerTickResponse F} :
    tick ctl request = .ok r ↔ TickPasses ctl request r := by
  rw [tick]
  constructor
  · intro h
    by_cases hscanner : scannerOnlyProfile request.profile = true
    · rw [if_pos hscanner] at h
      obtain rfl := Except.ok.inj h
      exact .scanner hscanner
    rw [if_neg hscanner, bind_eq_ok] at h
    have hfalse := Bool.eq_false_iff.mpr hscanner
    obtain ⟨main, hmain, h⟩ := h
    cases hselected : main.selected with
    | none =>
      rw [hselected] at h
      obtain rfl := Except.ok.inj h
      exact .noReveal main hfalse hmain hselected
    | some c =>
      simp only [hselected, bind_eq_ok, pure, Except.pure, Except.ok.injEq] at h
      obtain ⟨follow, hfollow, rfl⟩ := h
      exact .reveal main follow c hfalse hmain hselected hfollow
  · intro h
    cases h with
    | scanner hscanner => rw [if_pos hscanner]
    | noReveal main hscanner hmain hselected =>
      rw [if_neg (Bool.eq_false_iff.mp hscanner), bind_eq_ok]
      exact ⟨main, hmain, by rw [hselected]; rfl⟩
    | reveal main follow c hscanner hmain hselected hfollow =>
      rw [if_neg (Bool.eq_false_iff.mp hscanner), bind_eq_ok]
      refine ⟨main, hmain, ?_⟩
      simp only [hselected, hfollow, bind, Except.bind]
      rfl

/-- A tick that returns answers with a noop or with reveals. -/
theorem tick_cases {r : ControllerTickResponse F} (h : tick ctl request = .ok r) :
    (∃ reason ids rejected, r = noopResponse ctl request reason ids rejected) ∨
      ∃ c follow, Reveals ctl request r c follow := by
  cases tick_passes.mp h with
  | scanner _ => exact Or.inl ⟨_, _, _, rfl⟩
  | noReveal main _ _ _ => exact Or.inl ⟨_, _, _, rfl⟩
  | reveal main follow c _ hmain hselected hfollow =>
    obtain ⟨follow', hfollow', _, hsame⟩ := pass_rejected hfollow []
    refine Or.inr ⟨c, follow.selected, ?_, ?_, pass_chosen hmain hselected,
      fun d hd => pass_chosen hfollow hd, rfl, _, _, _, _, rfl⟩
    · exact mem_mainReveal.mpr ⟨main, hmain, hselected⟩
    · rw [followReveal, hfollow']
      exact hsame

theorem noopResponse_structure {reason : String} {ids : List String}
    {rejected : Dict String String} :
    TickStructure ctl request (noopResponse ctl request reason ids rejected) where
  shape := Or.inl ⟨_, rfl, rfl⟩
  bindings := by simp [noopResponse]
  aligned := by simp [noopResponse, EventFits, DecisionType.value, ActionType.value]
  gated pre a post h htype := by
    cases pre with
    | nil =>
      obtain ⟨rfl, _⟩ := List.cons_eq_cons.mp h
      exact absurd htype (by simp)
    | cons b pre => simp [noopResponse] at h
  exposed_once := List.nodup_nil
  configured_new := by simp [noopResponse]
  configured_once := by simp [noopResponse]

namespace Reveals

variable {r : ControllerTickResponse F} {c : CandidateScore F} {follow : Option (CandidateScore F)}

theorem mem_actions (h : Reveals ctl request r c follow) {a : ControllerAction}
    (ha : a ∈ r.actions) :
    ∃ e, (e = c ∨ e ∈ follow) ∧ a = buildAction ctl request.bindingId e := by
  rw [h.actions, List.mem_cons, List.mem_map] at ha
  rcases ha with rfl | ⟨d, hd, rfl⟩
  · exact ⟨c, Or.inl rfl, rfl⟩
  · exact ⟨d, Or.inr (Option.mem_toList.mp hd), rfl⟩

theorem type_actions (h : Reveals ctl request r c follow) {a : ControllerAction}
    (ha : a ∈ r.actions) : a.actionType = .unlock ∨ a.actionType = .configure := by
  obtain ⟨e, rfl | he, rfl⟩ := h.mem_actions ha
  · rw [buildAction_type h.main_chosen]
    exact h.main_chosen.offered.type
  · rw [buildAction_type (h.follow_chosen e he)]
    exact (h.follow_chosen e he).offered.type

/-- The first reveal is gated by what is open, the second by what the first opens too. -/
theorem gated (h : Reveals ctl request r c follow) {pre post : List ControllerAction}
    {a : ControllerAction} (hsplit : r.actions = pre ++ a :: post)
    (hunlock : a.actionType = .unlock) :
    GatedUnlock ctl request
      (request.unlockedAssetIds ++ pre.flatMap ControllerAction.opened) a := by
  have hplanned := plannedAfter_eq h.main_chosen
  rw [h.actions] at hsplit
  cases pre with
  | nil =>
    obtain ⟨rfl, _⟩ := List.cons_eq_cons.mp hsplit
    simpa using chosen_unlock h.main_chosen hunlock
  | cons b pre =>
    obtain ⟨rfl, hrest⟩ := List.cons_eq_cons.mp hsplit
    cases follow with
    | none => simp at hrest
    | some d =>
      cases pre with
      | nil =>
        obtain ⟨rfl, _⟩ := List.cons_eq_cons.mp hrest
        simpa [hplanned] using chosen_unlock (h.follow_chosen d rfl) hunlock
      | cons b' pre => simp at hrest

/-- What is exposed by the two reveals of a tick, if it was not open, is different. -/
theorem exposed_ne {d : CandidateScore F} (h : Reveals ctl request r c (some d))
    (hc : c.exposedAssetId ∉ request.unlockedAssetIds)
    (hd : d.exposedAssetId ∉ request.unlockedAssetIds) : c.exposedAssetId ≠ d.exposedAssetId := by
  intro heq
  have hplanned := (exposed_planned h.main_chosen).resolve_left hc
  have hnew := (exposed_new (h.follow_chosen d rfl)).resolve_left hd
  exact hnew (heq ▸ hplanned)

theorem exposed_once (h : Reveals ctl request r c follow) :
    ((r.actions.filterMap ControllerAction.exposed).filter
      (· ∉ request.unlockedAssetIds)).Nodup := by
  have hexposed : r.actions.filterMap ControllerAction.exposed =
      c.exposedAssetId :: follow.toList.map CandidateScore.exposedAssetId := by
    rw [h.actions, List.filterMap_cons_some (buildAction_exposed h.main_chosen)]
    cases follow with
    | none => rfl
    | some d => simp [buildAction_exposed (h.follow_chosen d rfl)]
  rw [hexposed]
  cases follow with
  | none => exact (List.nodup_singleton _).filter _
  | some d =>
    by_cases hc : c.exposedAssetId ∈ request.unlockedAssetIds
    · simpa [hc] using (List.nodup_singleton d.exposedAssetId).filter
        fun x => decide (x ∉ request.unlockedAssetIds)
    by_cases hd : d.exposedAssetId ∈ request.unlockedAssetIds
    · simp [hc, hd]
    · simp [hc, hd, h.exposed_ne hc hd]

theorem configured_once (hids : DistinctIds (requestAssets ctl request))
    (h : Reveals ctl request r c follow) :
    ((r.actions.filter fun a => a.actionType == .configure).map
      fun a => (a.assetId, a.configurationId)).Nodup := by
  rw [h.actions]
  cases follow with
  | none => exact ((List.nodup_singleton _).filter _).map_on (by simp)
  | some d =>
    have hd := h.follow_chosen d rfl
    by_cases hct : c.actionType = .configure
    · by_cases hdt : d.actionType = .configure
      · have hdiffers := follow_differs hids h.main_chosen hd hct hdt
        simpa [buildAction, hct, hdt] using hdiffers
      · simp [buildAction, hct, hdt]
    · by_cases hdt : d.actionType = .configure <;> simp [buildAction, hct, hdt]

theorem structure_of_reveals (hids : DistinctIds (requestAssets ctl request))
    (h : Reveals ctl request r c follow) : TickStructure ctl request r where
  shape := by
    refine Or.inr ⟨?_, ?_, fun a ha => h.type_actions ha⟩
    · simp [h.actions]
    · rw [h.actions]
      cases follow <;> simp
  bindings := by
    intro a ha
    obtain ⟨e, _, rfl⟩ := h.mem_actions ha
    exact buildAction_bindingId
  aligned := by
    obtain ⟨rejected, eligible, rejected', eligible', hevents⟩ := h.events
    rw [h.actions, hevents]
    refine .cons (buildDecisionEvent_fits h.main_chosen) ?_
    rw [List.forall₂_map_left_iff, List.forall₂_map_right_iff, List.forall₂_same]
    exact fun d hd => buildDecisionEvent_fits (h.follow_chosen d (Option.mem_toList.mp hd))
  gated pre a post hsplit hunlock := h.gated hsplit hunlock
  exposed_once := h.exposed_once
  configured_new := by
    intro a ha hconfigure
    obtain ⟨e, rfl | he, rfl⟩ := h.mem_actions ha
    · exact chosen_configure h.main_chosen hconfigure
    · exact chosen_configure (h.follow_chosen e he) hconfigure
  configured_once := h.configured_once hids

end Reveals

/-- **Every tick that returns answers so.** -/
theorem tick_structure (hids : DistinctIds (requestAssets ctl request))
    {r : ControllerTickResponse F} (h : tick ctl request = .ok r) :
    TickStructure ctl request r := by
  rcases tick_cases h with ⟨reason, ids, rejected, rfl⟩ | ⟨c, follow, hreveals⟩
  · exact noopResponse_structure
  · exact hreveals.structure_of_reveals hids

/-! ### When a tick returns -/

/-- Everything the passes read can be read: those of the main pass, and with the asset that is
revealed there the ones of the second. -/
def TickReadable (ctl : ControllerService F) (request : ControllerTickRequest F) : Prop :=
  scannerOnlyProfile request.profile = false →
    PassReadable ctl request request.unlockedAssetIds ∧
      ∀ c ∈ mainReveal ctl request,
        PassReadable ctl request (plannedAfter request.unlockedAssetIds c)

theorem tick_ok_iff : (∃ r, tick ctl request = .ok r) ↔ TickReadable ctl request := by
  simp only [tick_passes, TickReadable]
  constructor
  · rintro ⟨r, hr⟩ hfalse
    cases hr with
    | scanner hscanner => exact absurd (hfalse.symm.trans hscanner) (by simp)
    | noReveal main _ hmain hselected =>
      refine ⟨(pass_ok_iff _ _ _).mp ⟨main, hmain⟩, fun c hc => ?_⟩
      rw [Option.mem_def, mainReveal, hmain] at hc
      exact absurd (hselected.symm.trans hc) (by simp)
    | reveal main follow c _ hmain hselected hfollow =>
      refine ⟨(pass_ok_iff _ _ _).mp ⟨main, hmain⟩, fun c' hc' => ?_⟩
      rw [Option.mem_def, mainReveal, hmain] at hc'
      obtain rfl := Option.some.inj (hselected.symm.trans hc')
      exact (pass_ok_iff _ _ _).mp ⟨follow, hfollow⟩
  · intro h
    cases hscanner : scannerOnlyProfile request.profile with
    | true => exact ⟨_, .scanner hscanner⟩
    | false =>
      obtain ⟨hmain, hfollow⟩ := h hscanner
      obtain ⟨main, hmain⟩ := (pass_ok_iff .exploit none []).mpr hmain
      cases hselected : main.selected with
      | none => exact ⟨_, .noReveal main hscanner hmain hselected⟩
      | some c =>
        have hc : c ∈ mainReveal ctl request := mem_mainReveal.mpr ⟨main, hmain, hselected⟩
        obtain ⟨follow, hfollow⟩ :=
          (pass_ok_iff .explore (some c) main.rejected).mpr (hfollow c hc)
        exact ⟨_, .reveal main follow c hscanner hmain hselected hfollow⟩

/-- **A tick answers with this structure** iff everything its passes read can be read. -/
theorem tick_iff (hids : DistinctIds (requestAssets ctl request)) :
    (∃ r, tick ctl request = .ok r ∧ TickStructure ctl request r) ↔ TickReadable ctl request := by
  rw [← tick_ok_iff]
  exact ⟨fun ⟨r, hr, _⟩ => ⟨r, hr⟩, fun ⟨r, hr⟩ => ⟨r, hr, tick_structure hids hr⟩⟩

/-! ### Markers that are not a list -/

/-- A sink that may be replaced by a capturing one, for the given markers. -/
def sinkCatalog (markers : Value) : List AssetDefinition :=
  [{ assetId := "malware-sink", exposureType := .internal,
     defaultSettings := [("selection_profile", .dict [("upgrade_candidates",
       .list [.dict [("asset_id", .str "dionaea-capture"), ("required_markers", markers)]])])] },
    { assetId := "dionaea-capture", exposureType := .internal, dependencies := ["malware-sink"],
      defaultSettings := [("selection_profile", .dict [("covered_techniques",
        .list [.str "T1105"])])] }]

def sinkController (markers : Value) : ControllerService Rat where
  float := exactFloats
  lower := Text.asciiLower
  str _ := ""
  pathExists _ := true
  listAll := sinkCatalog markers
  recommend _ := [("T1105", 1 / 2)]
  degradedReason := none
  unlockCap := 100
  observedTechniqueThreshold := 1 / 2
  usePriorSupport := true

/-- The sink is open, and a download was seen. -/
def downloadRequest : ControllerTickRequest Rat where
  attackerKey := "198.51.100.7"
  bindingId := "b-1"
  profile := { recentTechniques := ["T1105"], recentEvidenceIds := ["e-1"] }
  unlockedAssetIds := ["malware-sink"]

theorem sinkCatalog_distinct (markers : Value) :
    DistinctIds (requestAssets (sinkController markers) downloadRequest) where
  assetIds := by
    have hids : (requestAssets (sinkController markers) downloadRequest).map
        AssetDefinition.assetId = ["malware-sink", "dionaea-capture"] := rfl
    rw [hids]
    decide
  configurationIds asset hasset := by
    have hnone : configurationVariants asset = [] := by
      rcases List.mem_cons.mp hasset with rfl | hasset
      · rfl
      · rw [List.mem_singleton.mp hasset]
        rfl
    rw [hnone]
    exact List.nodup_nil

/-- With a list of markers the capturing asset is unlocked. -/
theorem listed_markers_answered : ∃ r,
    tick (sinkController (.list [])) downloadRequest = .ok r ∧
      TickStructure (sinkController (.list [])) downloadRequest r := by
  refine (tick_iff (sinkCatalog_distinct _)).mpr (tick_ok_iff.mp ?_)
  have hok : (tick (sinkController (.list [])) downloadRequest).isOk = true := by decide +kernel
  cases htick : tick (sinkController (.list [])) downloadRequest with
  | ok r => exact ⟨r, rfl⟩
  | error e => simp [htick, Except.isOk, Except.toBool] at hok

/-- With `null` in their place the tick raises. -/
theorem missing_markers_raise : DistinctIds (requestAssets (sinkController .none) downloadRequest) ∧
    ¬ ∃ r, tick (sinkController .none) downloadRequest = .ok r ∧
      TickStructure (sinkController .none) downloadRequest r := by
  refine ⟨sinkCatalog_distinct _, ?_⟩
  rintro ⟨r, hr, _⟩
  have hraises : (tick (sinkController .none) downloadRequest).isOk = false := by decide +kernel
  rw [hr] at hraises
  exact absurd hraises (by simp [Except.isOk, Except.toBool])

end Honeynet.Controller
