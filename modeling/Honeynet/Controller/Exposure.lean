import Honeynet.Controller.Structure
import Honeynet.Lib.Transition
import Mathlib.Data.Finset.Card

/-!
# Exposure over whole runs

A run ticks again and again and opens what the ticks expose.  Unlocks pass the gates; the target
of a configuration passes none of them.

* `Exposure`: at most so many assets are open, all of them internal, with all they depend on.
* `plannedAfter_exposure`: one selected candidate keeps it if its target is gated.
* `exposure_of_run`: so do runs in which no tick selects a configuration whose target is not.
* `target_not_gated`: one configuration breaks the bound, the exposure type and the dependencies.
-/

namespace Honeynet.Controller

open Collections Fallible Relation

variable {F : Type} {ctl : ControllerService F} {request : ControllerTickRequest F}
  {catalog : List AssetDefinition} {cap bound : Int} {planned : List String}

/-- Every open asset is an internal one of the catalog, and what it depends on is open. -/
def DependencyClosed (catalog : List AssetDefinition) (unlocked : List String) : Prop :=
  ∀ id ∈ unlocked, ∃ asset ∈ catalog, asset.assetId = id ∧ asset.exposureType = .internal ∧
    asset.dependencies ⊆ unlocked

/-- At most `bound` assets are open, and they are internal and dependency-closed. -/
structure Exposure (catalog : List AssetDefinition) (bound : Int) (unlocked : List String) : Prop
    where
  bounded : (unlocked.toFinset.card : Int) ≤ bound
  closed : DependencyClosed catalog unlocked

theorem Exposure.congr {l l' : List String} (h : Exposure catalog bound l)
    (hmem : ∀ x, x ∈ l' ↔ x ∈ l) : Exposure catalog bound l' where
  bounded := by
    have hset : l'.toFinset = l.toFinset := by
      ext x
      rw [List.mem_toFinset, List.mem_toFinset, hmem]
    rw [hset]
    exact h.bounded
  closed id hid := by
    obtain ⟨asset, hasset, hname, hinternal, hdeps⟩ := h.closed id ((hmem id).mp hid)
    exact ⟨asset, hasset, hname, hinternal, fun x hx => (hmem x).mpr (hdeps hx)⟩

/-- **One more asset**: an internal one whose dependencies are open, below the cap. -/
theorem Exposure.append {l : List String} (h : Exposure catalog bound l) (hcap : cap ≤ bound)
    {asset : AssetDefinition} (hasset : asset ∈ catalog)
    (hinternal : asset.exposureType = .internal)
    (hdeps : asset.dependencies ⊆ l) (hbelow : (l.toFinset.card : Int) < cap) :
    Exposure catalog bound (l ++ [asset.assetId]) where
  bounded := by
    have hunion : (l ++ [asset.assetId]).toFinset = l.toFinset ∪ {asset.assetId} := by simp
    have hcard := Finset.card_union_le l.toFinset {asset.assetId}
    rw [Finset.card_singleton] at hcard
    rw [hunion]
    omega
  closed id hid := by
    rcases List.mem_append.mp hid with hid | hid
    · obtain ⟨other, hother, hname, hint, hsub⟩ := h.closed id hid
      exact ⟨other, hother, hname, hint, fun x hx => List.mem_append_left _ (hsub hx)⟩
    · exact ⟨asset, hasset, (List.mem_singleton.mp hid).symm, hinternal,
        fun x hx => List.mem_append_left _ (hdeps hx)⟩

/-! ### One tick -/

/-- A target that is not open yet passes the gates of an unlock. -/
def GatedTarget (catalog : List AssetDefinition) (cap : Int) (planned : List String)
    (target : Option String) : Prop :=
  ∀ id ∈ target, id ∉ planned → ∃ asset ∈ catalog, asset.assetId = id ∧
    asset.exposureType = .internal ∧ asset.dependencies ⊆ planned ∧
      (planned.toFinset.card : Int) < cap

/-- **One selected candidate** keeps the exposure, if its target is gated. -/
theorem plannedAfter_exposure {strategy : Strategy} {exploit : Option (CandidateScore F)}
    {c : CandidateScore F} (h : Exposure (requestAssets ctl request) bound planned)
    (hcap : ctl.unlockCap ≤ bound) (hc : Chosen ctl request strategy exploit planned c)
    (hgated : GatedTarget (requestAssets ctl request) ctl.unlockCap planned c.targetAssetId) :
    Exposure (requestAssets ctl request) bound (plannedAfter planned c) := by
  cases hc.offered with
  | unlock hmem heligible htype =>
    rw [plannedAfter, if_pos htype]
    have hcard := List.toFinset_card_le planned
    have hbelow := heligible.below_cap
    exact h.append hcap hmem heligible.internal heligible.dependencies (by omega)
  | configure variant id hoffered htype _ htarget =>
    rw [plannedAfter, if_neg (by simp [htype])]
    cases hstring : c.targetAssetId with
    | none => exact h
    | some target =>
      have hne : target ≠ "" := stringOrNone_ne_empty (htarget ▸ hstring)
      simp only [if_neg hne]
      by_cases hopen : target ∈ planned
      · exact h.congr fun x => by
          rw [List.mem_append, List.mem_singleton]
          exact ⟨fun hx => hx.elim (fun h => h) fun he => he ▸ hopen, Or.inl⟩
      · obtain ⟨asset, hasset, rfl, hinternal, hdeps, hbelow⟩ := hgated target hstring hopen
        exact h.append hcap hasset hinternal hdeps hbelow

/-- **No pass selects a configuration whose target passes no gate**: a target that is not open
yet is internal, has its dependencies open, and there is room below the cap. -/
def TickGated (ctl : ControllerService F) (request : ControllerTickRequest F) : Prop :=
  ∀ c ∈ mainReveal ctl request,
    GatedTarget (requestAssets ctl request) ctl.unlockCap request.unlockedAssetIds
        c.targetAssetId ∧
      ∀ d ∈ followReveal ctl request c,
        GatedTarget (requestAssets ctl request) ctl.unlockCap
          (plannedAfter request.unlockedAssetIds c) d.targetAssetId

/-- **One tick** keeps the exposure if it is gated. -/
theorem tick_exposure {r : ControllerTickResponse F}
    (h : Exposure (requestAssets ctl request) bound request.unlockedAssetIds)
    (hcap : ctl.unlockCap ≤ bound) (htick : tick ctl request = .ok r)
    (hgated : TickGated ctl request) :
    Exposure (requestAssets ctl request) bound
      (request.unlockedAssetIds ++ r.actions.flatMap ControllerAction.opened) := by
  rcases tick_cases htick with ⟨reason, ids, rejected, rfl⟩ | ⟨c, follow, hreveals⟩
  · simpa [noopResponse, ControllerAction.opened] using h
  · obtain ⟨hmain, hfollow⟩ := hgated c hreveals.main_mem
    have hplanned := plannedAfter_exposure h hcap hreveals.main_chosen hmain
    rw [hreveals.actions, List.flatMap_cons, ← List.append_assoc,
      ← plannedAfter_eq hreveals.main_chosen]
    cases follow with
    | none => simpa using hplanned
    | some d =>
      have hd := hreveals.follow_chosen d rfl
      have hmem : d ∈ followReveal ctl request c := hreveals.follow_eq ▸ rfl
      simpa [← plannedAfter_eq hd] using plannedAfter_exposure hplanned hcap hd (hfollow d hmem)

/-! ### Runs -/

/-- What is open and what has been configured for one binding. -/
structure ExposureState where
  unlocked : List String
  revealed : Dict String (List String) := []

/-- Open what the actions expose, and record the configurations they reveal. -/
def ExposureState.after (s : ExposureState) (actions : List ControllerAction) : ExposureState where
  unlocked := appendNew s.unlocked (actions.flatMap ControllerAction.opened)
  revealed := actions.foldl (fun revealed a =>
    match a.actionType, a.assetId, a.configurationId with
    | .configure, some asset, some id => revealed.set asset (addNew (revealed.getD asset []) id)
    | _, _, _ => revealed) s.revealed

theorem after_unlocked {s : ExposureState} {actions : List ControllerAction} :
    (s.after actions).unlocked =
      appendNew s.unlocked (actions.flatMap ControllerAction.opened) := rfl

/-- A tick with any profile, prior and host, of a controller that meets a condition, and what it
returns applied. -/
inductive ExposureStep (catalog : List AssetDefinition) (cap : Int)
    (P : ControllerService F → ControllerTickRequest F → Prop) :
    ExposureState → ExposureState → Prop
  | tick (ctl : ControllerService F) (request : ControllerTickRequest F)
      (r : ControllerTickResponse F) (s : ExposureState) (hcatalog : ctl.listAll = catalog)
      (hcap : ctl.unlockCap = cap) (hassets : request.assets = [])
      (hunlocked : request.unlockedAssetIds = s.unlocked)
      (hrevealed : request.revealedConfigurations = s.revealed) (hp : P ctl request)
      (htick : tick ctl request = .ok r) : ExposureStep catalog cap P s (s.after r.actions)

/-- **One step** keeps the exposure and repeats nothing. -/
theorem exposureStep_keeps (hbound : cap ≤ bound) {s t : ExposureState}
    (h : ExposureStep (F := F) catalog cap TickGated s t)
    (hs : Exposure catalog bound s.unlocked ∧ s.unlocked.Nodup) :
    Exposure catalog bound t.unlocked ∧ t.unlocked.Nodup := by
  cases h with
  | tick ctl request r s hcatalog hcap hassets hunlocked _ hgated htick =>
    have hrequest : requestAssets ctl request = catalog := by
      rw [requestAssets, if_pos hassets, hcatalog]
    refine ⟨?_, nodup_appendNew hs.2 _⟩
    have hbefore : Exposure (requestAssets ctl request) bound request.unlockedAssetIds := by
      rw [hrequest, hunlocked]
      exact hs.1
    have hafter := tick_exposure hbefore (by rw [hcap]; exact hbound) htick hgated
    rw [hrequest, hunlocked] at hafter
    exact hafter.congr fun x => by rw [after_unlocked, mem_appendNew, List.mem_append]

/-- **Exposure over runs**: from internal assets with all they depend on, runs whose ticks are
gated never have more assets open than the cap or than at first, and all of them are internal,
with all they depend on. -/
theorem exposure_of_run {s t : ExposureState} (hnodup : s.unlocked.Nodup)
    (hclosed : DependencyClosed catalog s.unlocked)
    (hrun : ReflTransGen (ExposureStep (F := F) catalog cap TickGated) s t) :
    Exposure catalog (max cap s.unlocked.length) t.unlocked ∧ t.unlocked.Nodup := by
  have hcard := List.toFinset_card_le s.unlocked
  exact Transition.invariant_of_step
    (P := fun s' => Exposure catalog (max cap s.unlocked.length) s'.unlocked ∧ s'.unlocked.Nodup)
    (fun _ _ => exposureStep_keeps (le_max_left _ _)) hrun
    ⟨⟨by omega, hclosed⟩, hnodup⟩

/-! ### One configuration -/

theorem sink_run : ∃ t,
    ReflTransGen (ExposureStep (F := Rat) (sinkCatalog (.list [])) 100 TickGated)
        { unlocked := ["malware-sink"] } t ∧
      "dionaea-capture" ∈ t.unlocked ∧
      Exposure (sinkCatalog (.list [])) (max 100 1) t.unlocked ∧ t.unlocked.Nodup := by
  have hopened : ((tick (sinkController (.list [])) downloadRequest).toOption.map fun r =>
      r.actions.flatMap ControllerAction.opened) = some ["dionaea-capture"] := by decide +kernel
  have hmain : ((mainReveal (sinkController (.list [])) downloadRequest).all fun c =>
      c.targetAssetId == none &&
        (followReveal (sinkController (.list [])) downloadRequest c).isNone) = true := by
    decide +kernel
  cases htick : tick (sinkController (.list [])) downloadRequest with
  | error e => simp [htick, Except.toOption] at hopened
  | ok r =>
    rw [htick] at hopened
    have hgated : TickGated (sinkController (.list [])) downloadRequest := by
      intro c hc
      rw [Option.all_eq_true] at hmain
      obtain ⟨htarget, hfollow⟩ := Bool.and_eq_true_iff.mp (hmain c hc)
      rw [beq_iff_eq] at htarget
      rw [Option.isNone_iff_eq_none] at hfollow
      rw [htarget, hfollow]
      exact ⟨fun id hid => absurd hid (by simp), fun d hd => absurd hd (by simp)⟩
    have hrun := ReflTransGen.single
      (ExposureStep.tick (sinkController (.list [])) downloadRequest r
      { unlocked := ["malware-sink"] } rfl rfl rfl rfl rfl hgated htick)
    refine ⟨_, hrun, ?_, exposure_of_run (by decide) ?_ hrun⟩
    · have hlist : r.actions.flatMap ControllerAction.opened = ["dionaea-capture"] :=
        Option.some.inj hopened
      rw [after_unlocked, hlist]
      decide
    · intro id hid
      exact ⟨_, List.mem_cons_self, (List.mem_singleton.mp hid).symm, rfl, by simp⟩

/-- A repository with a clue to a database that is public and behind a network of its own. -/
def clueCatalog : List AssetDefinition :=
  [{ assetId := "git-internal", exposureType := .internal,
     defaultSettings := [("configuration_variants", .list [.dict [
       ("configuration_id", .str "git-db-credential-clue"), ("target_asset_id", .str "db-public"),
       ("covered_techniques", .list [.str "T1213"])]])] },
    { assetId := "db-public", exposureType := .public, dependencies := ["vpn-internal"] }]

/-- At most one asset may be open. -/
def clueController : ControllerService Rat where
  float := exactFloats
  lower := Text.asciiLower
  str _ := ""
  pathExists _ := true
  listAll := clueCatalog
  recommend _ := [("T1213", 1 / 2)]
  degradedReason := none
  unlockCap := 1
  observedTechniqueThreshold := 1 / 2
  usePriorSupport := true

/-- The repository is open, and being read. -/
def clueRequest : ControllerTickRequest Rat where
  attackerKey := "198.51.100.7"
  bindingId := "b-1"
  profile := { recentTechniques := ["T1213"], recentAssetIds := ["git-internal"] }
  unlockedAssetIds := ["git-internal"]

/-- One tick opens a second asset, which is public and whose dependency is not open. -/
theorem target_not_gated : ∃ t,
    ReflTransGen (ExposureStep (F := Rat) clueCatalog 1 fun _ _ => True)
        { unlocked := ["git-internal"] } t ∧
      DependencyClosed clueCatalog ["git-internal"] ∧
      ¬ (t.unlocked.toFinset.card : Int) ≤ max 1 1 ∧ ¬ DependencyClosed clueCatalog t.unlocked := by
  have hopened : ((tick clueController clueRequest).toOption.map fun r =>
      r.actions.flatMap ControllerAction.opened) = some ["db-public"] := by decide +kernel
  cases htick : tick clueController clueRequest with
  | error e => simp [htick, Except.toOption] at hopened
  | ok r =>
    rw [htick] at hopened
    have hlist : r.actions.flatMap ControllerAction.opened = ["db-public"] :=
      Option.some.inj hopened
    refine ⟨_, ReflTransGen.single (ExposureStep.tick clueController clueRequest r
      { unlocked := ["git-internal"] } rfl rfl rfl rfl rfl trivial htick), ?_, ?_, ?_⟩
    · intro id hid
      exact ⟨_, List.mem_cons_self, (List.mem_singleton.mp hid).symm, rfl, by simp⟩
    · rw [after_unlocked, hlist]
      decide
    · rw [after_unlocked, hlist]
      intro h
      obtain ⟨asset, hasset, hname, hinternal, _⟩ := h "db-public" (by decide)
      rcases List.mem_cons.mp hasset with rfl | hasset
      · exact absurd hname (by decide)
      · rw [List.mem_singleton.mp hasset] at hinternal
        exact absurd hinternal (by decide)

end Honeynet.Controller
