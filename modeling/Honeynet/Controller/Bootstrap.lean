import Honeynet.Controller.Ordering
import Honeynet.Controller.Signals

/-!
# The internal portal comes first

* `BootstrapReady`: nothing is open, something was seen, and the catalog has a portal to open.
* `main_reveals_portal`: the main pass then selects the portal.
* `bootstrap_first_iff`: the first action unlocks it iff the two passes read nothing that cannot
  be read.
* `portal_upgrade_raises`: an upgrade entry of the portal with `null` markers stops the tick.
-/

namespace Honeynet.Controller

open Collections Fallible

variable {F : Type} {ctl : ControllerService F} {request : ControllerTickRequest F}
  {planned : List String} {portal : AssetDefinition}

/-- Nothing is open, the profile has evidence and is more than a scan, and the portal is an asset
of the catalog that can be opened. -/
structure BootstrapReady (ctl : ControllerService F) (request : ControllerTickRequest F)
    (portal : AssetDefinition) : Prop where
  nothing_open : request.unlockedAssetIds = []
  observed : request.profile.recentEvidenceIds ≠ [] ∨ request.profile.recentTechniques ≠ [] ∨
    request.profile.recentTactics ≠ []
  not_scanner : scannerOnlyProfile request.profile = false
  cap_pos : 0 < ctl.unlockCap
  portal_mem : portal ∈ requestAssets ctl request
  portal_id : portal.assetId = "internal-portal"
  internal : portal.exposureType = .internal
  ready : implementationStatus ctl portal ∈ ["ready", "prototype"]
  available : runtimeIsAvailable ctl portal = true
  independent : portal.dependencies = []
  covers : coveredTechniques portal ≠ []

theorem BootstrapReady.isBootstrapAsset (h : BootstrapReady ctl request portal) :
    isBootstrapAsset portal request = true :=
  isBootstrapAsset_iff.mpr ⟨h.portal_id, h.nothing_open, h.observed⟩

theorem BootstrapReady.eligible (h : BootstrapReady ctl request portal) :
    Eligible ctl request [] portal where
  internal := h.internal
  ready := h.ready
  locked := List.not_mem_nil
  below_cap := h.cap_pos
  dependencies := by simp [h.independent]
  available := h.available
  signals := Or.inl h.isBootstrapAsset

/-! ### Scores -/

/-- Every technique of a bootstrap asset counts as bootstrap, with a full signal. -/
theorem bootstrap_of_mem {observed : List String} {recommendations : Dict String F}
    {o : RevealOption F} (htype : o.actionType = .unlock)
    (hbootstrap : isBootstrapAsset o.asset request = true) {t : String × TechniqueParts F}
    (h : t ∈ techniqueScores ctl o request observed recommendations) :
    t.2.candidateType = .bootstrap := by
  rw [techniqueScores] at h
  simp only [htype, hbootstrap, and_self, if_true] at h
  obtain ⟨s, _, rfl⟩ := List.mem_map.mp (List.mem_of_mem_filter h)
  rfl

/-- **The portal is scored**, as bootstrap. -/
theorem bootstrap_scored (hone : ctl.float.pos ctl.float.one = true) (observed : List String)
    (recommendations : Dict String F) {o : RevealOption F} (htype : o.actionType = .unlock)
    (hbootstrap : isBootstrapAsset o.asset request = true) (hcovers : o.coveredTechniques ≠ [])
    (hoverride : o.candidateTypeOverride = none) : ∃ c,
      scoreRevealOption ctl request .exploit none observed recommendations o = some c ∧
        c.candidateType = "bootstrap" := by
  obtain ⟨technique, _, hcovered⟩ := List.exists_cons_of_ne_nil hcovers
  have hmem : technique ∈ appendNew [] o.coveredTechniques := by
    rw [mem_appendNew, hcovered]
    exact Or.inr List.mem_cons_self
  have hne : techniqueScores ctl o request observed recommendations ≠ [] := by
    rw [techniqueScores]
    simp only [htype, hbootstrap, and_self, if_true, ne_eq, List.filter_eq_nil_iff]
    intro hnone
    exact hnone _ (List.mem_map_of_mem (List.mem_map_of_mem hmem)) (by simp [hone])
  rw [scoreRevealOption, scoredTechniques]
  cases hscores : techniqueScores ctl o request observed recommendations with
  | nil => exact absurd hscores hne
  | cons t ts =>
    have hbest : firstBest (techniqueBetter ctl request recommendations) (t :: ts) =
        some (Selection.bestFrom (techniqueBetter ctl request recommendations) t ts) := rfl
    have hbootstrap' := bootstrap_of_mem htype hbootstrap (hscores ▸ firstBest_mem hbest)
    simp only [hbest]
    refine ⟨_, rfl, ?_⟩
    rw [hoverride, Option.getD_none, hbootstrap']
    rfl

theorem techniqueCandidateParts_ne_bootstrap {technique : String} {confidences : Dict String F}
    {observed : List String} {recommendations : Dict String F} {marker : Bool} :
    (techniqueCandidateParts ctl technique confidences observed recommendations marker).candidateType
      ≠ .bootstrap := by
  simp only [techniqueCandidateParts]
  split_ifs <;> simp

theorem mem_techniqueScores_of_scored {strategy : Strategy} {exploit : Option (CandidateScore F)}
    {observed : List String} {recommendations : Dict String F} {o : RevealOption F}
    {t : String × TechniqueParts F}
    (h : t ∈ scoredTechniques ctl request strategy exploit observed recommendations o) :
    t ∈ techniqueScores ctl o request observed recommendations := by
  cases strategy with
  | exploit => exact h
  | explore =>
    cases exploit with
    | none => exact absurd h List.not_mem_nil
    | some exploit => exact (mem_exploreTechniqueScores h).1

/-- Only an unlock of a bootstrap asset has techniques that count as bootstrap. -/
theorem bootstrap_option {observed : List String} {recommendations : Dict String F}
    {o : RevealOption F} {t : String × TechniqueParts F}
    (h : t ∈ techniqueScores ctl o request observed recommendations)
    (htype : t.2.candidateType = .bootstrap) :
    o.actionType = .unlock ∧ isBootstrapAsset o.asset request = true := by
  by_contra hother
  rw [techniqueScores] at h
  simp only [if_neg hother] at h
  obtain ⟨technique, _, rfl⟩ := List.mem_map.mp (List.mem_of_mem_filter h)
  exact techniqueCandidateParts_ne_bootstrap htype

theorem bootstrap_of_value {t : CandidateType} (h : t.value = "bootstrap") : t = .bootstrap := by
  cases t <;> simp [CandidateType.value] at h ⊢

/-- Only an unlock of the portal counts as bootstrap. -/
theorem portal_of_bootstrap {strategy : Strategy} {exploit : Option (CandidateScore F)}
    {rejected : Dict String String} {p : Pass F}
    (h : pass ctl request strategy exploit planned rejected = .ok p) {c : CandidateScore F}
    (hc : c ∈ p.candidates) (htype : c.candidateType = "bootstrap") :
    c.actionType = .unlock ∧ c.asset.assetId = "internal-portal" := by
  obtain ⟨options, hoptions, o, ho, hscore⟩ := candidate_scored h hc
  have hspec := scoreRevealOption_spec hscore
  obtain ⟨t, ht, hvalue⟩ := scoreRevealOption_type hscore
  have hvalue' : o.candidateTypeOverride.getD t.2.candidateType.value = "bootstrap" :=
    hvalue.symm.trans htype
  rcases (mem_revealOptions hoptions).mp ho with ⟨asset, _, _, hoption⟩ |
    ⟨source, variant, _, hoption⟩
  · obtain ⟨_, _, _, _, _, rfl⟩ := assetRevealOption_eq_some.mp hoption
    obtain ⟨hunlock, hbootstrap⟩ :=
      bootstrap_option (mem_techniqueScores_of_scored ht) (bootstrap_of_value hvalue')
    rw [hspec.asset, hspec.actionType]
    exact ⟨hunlock, (isBootstrapAsset_iff.mp hbootstrap).1⟩
  · obtain ⟨_, _, _, _, _, rfl⟩ := variantOption_eq_some.mp hoption
    exact absurd hvalue' (by simp [configureOption])

/-! ### The first action -/

/-- A bootstrap candidate comes before any other. -/
theorem rank_le_selected {candidates : List (CandidateScore F)} {c : CandidateScore F}
    (hc : selectCandidate ctl candidates = some c) {d : CandidateScore F} (hd : d ∈ candidates) :
    structuralPriorityRank d ≤ structuralPriorityRank c := by
  cases candidates with
  | nil => exact absurd hd List.not_mem_nil
  | cons a as =>
    rw [← Option.some.inj hc]
    refine Selection.rank_le_bestFrom (fun x y hlt => ?_) (fun x y hlt => ?_) a as d hd
    · exact candidateBefore_of_rank ctl hlt
    · exact candidateBefore_eq_false_of_rank ctl hlt

theorem bootstrap_of_rank {c : CandidateScore F} (h : 2 ≤ structuralPriorityRank c) :
    c.candidateType = "bootstrap" := by
  rw [structuralPriorityRank] at h
  split_ifs at h with hbootstrap
  · exact hbootstrap
  · omega
  · omega

/-- **The main pass selects the portal.** -/
theorem main_reveals_portal (h : BootstrapReady ctl request portal)
    (hone : ctl.float.pos ctl.float.one = true) {main : Pass F}
    (hmain : pass ctl request .exploit none request.unlockedAssetIds [] = .ok main) :
    ∃ c, main.selected = some c ∧ c.actionType = .unlock ∧
      c.asset.assetId = "internal-portal" := by
  obtain ⟨options, hoptions, hcandidates, _, hselected⟩ := pass_eq_ok_iff.mp hmain
  -- the portal is among the candidates
  have hreadable := (pass_ok_iff .exploit none []).mp ⟨main, hmain⟩
  have heligible : Eligible ctl request request.unlockedAssetIds portal :=
    h.nothing_open ▸ h.eligible
  obtain ⟨hnumber, hentries⟩ := hreadable.unlocks portal h.portal_mem heligible h.covers
  obtain ⟨telemetry, htelemetry⟩ := telemetryValue_ok_iff.mpr hnumber
  obtain ⟨upgrade, hupgrade⟩ := scanUpgrades_ok_iff.mpr hentries
  have hoption : unlockOption ctl request portal telemetry upgrade ∈ options :=
    (mem_revealOptions hoptions).mpr (Or.inl ⟨portal, h.portal_mem, heligible,
      assetRevealOption_eq_some.mpr ⟨h.covers, telemetry, upgrade, htelemetry, hupgrade, rfl⟩⟩)
  obtain ⟨d, hscore, htype⟩ := bootstrap_scored (o := unlockOption ctl request portal telemetry
    upgrade) hone (thresholdedObservedTechniques ctl request.profile) (recommendationsOf ctl request)
    rfl h.isBootstrapAsset h.covers rfl
  have hd : d ∈ main.candidates := by
    rw [hcandidates]
    exact List.mem_filterMap.mpr ⟨_, hoption, hscore⟩
  -- and whatever is selected counts as bootstrap too
  obtain ⟨c, hc⟩ := selectCandidate_isSome ctl hd
  have hrank : 2 ≤ structuralPriorityRank c := by
    have hle := rank_le_selected hc hd
    rwa [structuralPriorityRank, if_pos htype] at hle
  obtain ⟨hunlock, hportal⟩ := portal_of_bootstrap hmain
    (selected_mem hmain (hselected.trans hc)) (bootstrap_of_rank hrank)
  exact ⟨c, hselected.trans hc, hunlock, hportal⟩

/-- The first action unlocks the internal portal. -/
def PortalFirst (r : ControllerTickResponse F) : Prop :=
  ∃ first rest, r.actions = first :: rest ∧ first.actionType = .unlock ∧
    first.assetId = some "internal-portal"

/-- **The first action unlocks the portal** if and only if all that the two passes read can be read:
the main pass with nothing open, and the second with the portal. -/
theorem bootstrap_first_iff (h : BootstrapReady ctl request portal)
    (hone : ctl.float.pos ctl.float.one = true) :
    (∃ r, tick ctl request = .ok r ∧ PortalFirst r) ↔
      PassReadable ctl request [] ∧ PassReadable ctl request ["internal-portal"] := by
  have hplanned : ∀ c : CandidateScore F, c.actionType = .unlock →
      c.asset.assetId = "internal-portal" →
        plannedAfter request.unlockedAssetIds c = ["internal-portal"] := by
    intro c hunlock hportal
    rw [plannedAfter, if_pos hunlock, h.nothing_open, hportal, List.nil_append]
  constructor
  · rintro ⟨r, hr, _⟩
    cases tick_passes.mp hr with
    | scanner hscanner => exact absurd (h.not_scanner.symm.trans hscanner) (by simp)
    | noReveal main _ hmain hselected =>
      obtain ⟨c, hc, _⟩ := main_reveals_portal h hone hmain
      exact absurd (hselected.symm.trans hc) (by simp)
    | reveal main follow c _ hmain hselected hfollow =>
      obtain ⟨c', hc', hunlock, hportal⟩ := main_reveals_portal h hone hmain
      obtain rfl := Option.some.inj (hselected.symm.trans hc')
      rw [hplanned c hunlock hportal] at hfollow
      rw [h.nothing_open] at hmain
      exact ⟨(pass_ok_iff _ _ _).mp ⟨main, hmain⟩, (pass_ok_iff _ _ _).mp ⟨follow, hfollow⟩⟩
  · rintro ⟨hmain, hfollow⟩
    rw [← h.nothing_open] at hmain
    obtain ⟨main, hmain⟩ := (pass_ok_iff .exploit none []).mpr hmain
    obtain ⟨c, hselected, hunlock, hportal⟩ := main_reveals_portal h hone hmain
    obtain ⟨follow, hfollow⟩ := (pass_ok_iff .explore (some c) main.rejected).mpr hfollow
    rw [← hplanned c hunlock hportal] at hfollow
    refine ⟨_, tick_passes.mpr (.reveal main follow c h.not_scanner hmain hselected hfollow),
      buildAction ctl request.bindingId c, _, rfl, ?_, ?_⟩
    · rw [buildAction_type (pass_chosen hmain hselected), hunlock]
    · rw [buildAction_assetId, hportal]

/-- A portal that may replace the wiki, for the given markers. -/
def portalCatalog (markers : Value) : List AssetDefinition :=
  [{ assetId := "internal-portal", exposureType := .internal,
     defaultSettings := [("selection_profile", .dict [
       ("covered_techniques", .list [.str "T1046"]),
       ("upgrade_candidates",
         .list [.dict [("asset_id", .str "wiki-internal"), ("required_markers", markers)]])])] },
    { assetId := "wiki-internal", exposureType := .internal,
      defaultSettings := [("selection_profile",
        .dict [("covered_techniques", .list [.str "T1213"])])] }]

def portalService (markers : Value) : ControllerService Rat :=
  { sinkController .none with listAll := portalCatalog markers }

/-- Nothing is open, and the wiki was asked for. -/
def firstRequest : ControllerTickRequest Rat where
  attackerKey := "198.51.100.7"
  bindingId := "b-1"
  profile := { recentTechniques := ["T1213"] }

theorem portalService_ready (markers : Value) : ∃ portal,
    BootstrapReady (portalService markers) firstRequest portal := by
  have hcap : (0 : Int) < 100 := by decide
  exact ⟨_, rfl, Or.inr (Or.inl (by decide)), by decide, hcap, List.mem_cons_self, rfl, rfl,
    List.mem_cons_self, rfl, rfl, List.cons_ne_nil "T1046" []⟩

/-- With a list of markers the portal comes first. -/
theorem listed_markers_portal_first : ∃ r,
    tick (portalService (.list [])) firstRequest = .ok r ∧ PortalFirst r := by
  obtain ⟨portal, hready⟩ := portalService_ready (.list [])
  refine (bootstrap_first_iff hready (by decide)).mpr ?_
  have hreads : ∀ planned : List String,
      (pass (portalService (.list [])) firstRequest .exploit none planned []).isOk = true →
        PassReadable (portalService (.list [])) firstRequest planned := by
    intro planned hok
    refine (pass_ok_iff .exploit none []).mp ?_
    cases hpass : pass (portalService (.list [])) firstRequest .exploit none planned [] with
    | ok p => exact ⟨p, rfl⟩
    | error e => simp [hpass, Except.isOk, Except.toBool] at hok
  exact ⟨hreads [] (by decide +kernel), hreads ["internal-portal"] (by decide +kernel)⟩

/-- With `null` in their place the tick raises once the portal is chosen. -/
theorem portal_upgrade_raises :
    (∃ portal, BootstrapReady (portalService .none) firstRequest portal) ∧
      DistinctIds (requestAssets (portalService .none) firstRequest) ∧
      ¬ ∃ r, tick (portalService .none) firstRequest = .ok r ∧ PortalFirst r := by
  refine ⟨portalService_ready .none, ⟨by decide, ?_⟩, ?_⟩
  · intro asset hasset
    rcases List.mem_cons.mp hasset with rfl | hasset
    · decide
    · rw [List.mem_singleton.mp hasset]
      decide
  · rintro ⟨r, hr, _⟩
    have hraises : (tick (portalService .none) firstRequest).isOk = false := by decide +kernel
    rw [hr] at hraises
    exact absurd hraises (by simp [Except.isOk, Except.toBool])

end Honeynet.Controller
