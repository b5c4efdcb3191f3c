import Honeynet.Controller.Structure
import Mathlib.Data.Finset.Card

/-!
# What the second reveal explores

* `ExploreDistinct`: a second reveal leaves the direction of the first one.
* `explore_distinct_of_score`: an option that is scored in the explore pass does.
* `tick_explore_distinct`: so does every second action of a tick.
-/

namespace Honeynet.Controller

open Collections

variable {F : Type} {ctl : ControllerService F} {request : ControllerTickRequest F}
  {planned : List String}

/-- A technique of a family that a main reveal neither selects nor covers. -/
def NewFamily (main : CandidateScore F) (technique : String) : Prop :=
  sameTechniqueFamily technique main.selectedTechnique = false ∧
    ∀ covered ∈ main.coveredTechniques, sameTechniqueFamily technique covered = false

/-- A marker that names neither a technique nor a tactic. -/
def ConcreteMarker (marker : String) : Prop :=
  ¬ "any_techniques:".toList <+: marker.toList ∧ ¬ "any_tactics:".toList <+: marker.toList

/-- The second reveal of a tick beside the first: several families are observed, all that speaks
for it is of a new family, and it is backed by more than techniques and tactics. -/
structure ExploreDistinct (ctl : ControllerService F) (request : ControllerTickRequest F)
    (main explore : CandidateScore F) : Prop where
  families : 2 ≤
    ((thresholdedObservedTechniques ctl request.profile).map techniqueFamily).toFinset.card
  selected : NewFamily main explore.selectedTechnique
  gain_terms : ∀ term ∈ explore.gainTerms, NewFamily main term.technique
  backed : (∃ marker ∈ explore.matchedDependencyMarkers, ConcreteMarker marker) ∨
    explore.upgradeContext.isSome
  upgrade : explore.actionType = .unlock →
    explore.assetGroup ∈ ["generic-capture", "payload-transfer-high"] →
      explore.upgradeContext.isSome

theorem length_appendNew_nil (xs : List String) : (appendNew [] xs).length = xs.toFinset.card := by
  have hnodup : (appendNew [] xs).Nodup := nodup_appendNew List.nodup_nil xs
  rw [← List.toFinset_card_of_nodup hnodup]
  congr 1
  ext x
  simp

theorem hasConcreteDependencyMarker_iff {markers : List String} :
    hasConcreteDependencyMarker markers = true ↔ ∃ marker ∈ markers, ConcreteMarker marker := by
  simp only [hasConcreteDependencyMarker, ConcreteMarker, List.any_eq_true, Bool.not_eq_eq_eq_not,
    Bool.not_true, Bool.or_eq_false_iff, ← List.isPrefixOf_iff_prefix, Bool.not_eq_true]

/-- What the explore pass asks of an option before a technique may speak for it. -/
theorem exploreTechniqueScores_spec {exploit : CandidateScore F} {observed : List String}
    {o : RevealOption F} {scores : List (String × TechniqueParts F)} {t : String × TechniqueParts F}
    (h : t ∈ exploreTechniqueScores o (some exploit) observed scores) :
    2 ≤ (observed.map techniqueFamily).toFinset.card ∧
      (hasConcreteDependencyMarker o.matchedDependencyMarkers = true ∨ o.upgradeContext.isSome) ∧
      (requiresUpgradeContextForExplore o = true → o.upgradeContext.isSome) := by
  rw [exploreTechniqueScores] at h
  simp only at h
  split_ifs at h with hfamilies hbacked hupgrade
  · exact absurd h List.not_mem_nil
  · exact absurd h List.not_mem_nil
  · exact absurd h List.not_mem_nil
  · rw [length_appendNew_nil, not_lt] at hfamilies
    refine ⟨hfamilies, ?_, fun hrequires => ?_⟩
    · rw [not_and_or, Bool.not_eq_false, Bool.not_eq_true, Option.isNone_eq_false_iff] at hbacked
      exact hbacked
    · rw [not_and_or, Bool.not_eq_true o.upgradeContext.isNone, Option.isNone_eq_false_iff]
        at hupgrade
      exact hupgrade.resolve_left (not_not.mpr hrequires)

/-- The selected technique is one of those scored, and each of these has a gain term. -/
theorem scoreRevealOption_terms {strategy : Strategy} {exploit : Option (CandidateScore F)}
    {observed : List String} {recommendations : Dict String F} {o : RevealOption F}
    {c : CandidateScore F}
    (h : scoreRevealOption ctl request strategy exploit observed recommendations o = some c) :
    (∃ t ∈ scoredTechniques ctl request strategy exploit observed recommendations o,
      c.selectedTechnique = t.1) ∧
    (∀ term ∈ c.gainTerms,
      ∃ t ∈ scoredTechniques ctl request strategy exploit observed recommendations o,
        term.technique = t.1) ∧
    c.matchedDependencyMarkers = o.matchedDependencyMarkers ∧
      c.upgradeContext = o.upgradeContext ∧ c.assetGroup = o.assetGroup := by
  refine ⟨(scoreRevealOption_spec h).scored, ?_⟩
  rw [scoreRevealOption] at h
  cases hbest : firstBest (techniqueBetter ctl request recommendations)
      (scoredTechniques ctl request strategy exploit observed recommendations o) with
  | none => simp [hbest] at h
  | some t =>
    simp only [hbest, Option.some.injEq] at h
    subst h
    refine ⟨fun term hterm => ?_, rfl, rfl, rfl⟩
    obtain ⟨technique, htechnique, rfl⟩ := List.mem_map.mp hterm
    obtain ⟨s, hs, rfl⟩ := List.mem_map.mp htechnique
    exact ⟨s, hs, rfl⟩

/-- A main reveal covers the technique it selects. -/
theorem main_selected_covered {c : CandidateScore F}
    (h : Chosen ctl request .exploit none planned c) :
    c.selectedTechnique ∈ c.coveredTechniques := by
  obtain ⟨o, ho⟩ := h.scored
  obtain ⟨t, ht, hselected⟩ := ho.scored
  rw [hselected, ho.coveredTechniques]
  exact techniqueScores_covered ht

theorem newFamily_of_distinct {main : CandidateScore F} {technique : String}
    (hcovered : main.selectedTechnique ∈ main.coveredTechniques)
    (h : isDistinctExploreTechnique technique main = true) : NewFamily main technique := by
  rw [isDistinctExploreTechnique, Bool.and_eq_true] at h
  have hall : ∀ covered ∈ main.coveredTechniques,
      sameTechniqueFamily technique covered = false := by simpa using h.2
  exact ⟨hall _ hcovered, hall⟩

/-- **An option scored in the explore pass** leaves the direction of the main reveal. -/
theorem explore_distinct_of_score {main explore : CandidateScore F} {o : RevealOption F}
    (hcovered : main.selectedTechnique ∈ main.coveredTechniques)
    (h : scoreRevealOption ctl request .explore (some main)
      (thresholdedObservedTechniques ctl request.profile) (recommendationsOf ctl request) o =
        some explore) : ExploreDistinct ctl request main explore := by
  obtain ⟨⟨t, ht, hselected⟩, hterms, hmarkers, hcontext, hgroup⟩ := scoreRevealOption_terms h
  have hnew : ∀ s ∈ scoredTechniques ctl request .explore (some main)
      (thresholdedObservedTechniques ctl request.profile) (recommendationsOf ctl request) o,
      NewFamily main s.1 := fun s hs =>
    newFamily_of_distinct hcovered (mem_exploreTechniqueScores hs).2
  obtain ⟨hfamilies, hbacked, hupgrade⟩ := exploreTechniqueScores_spec ht
  refine ⟨hfamilies, hselected ▸ hnew t ht, fun term hterm => ?_, ?_, fun hunlock hcapture => ?_⟩
  · obtain ⟨s, hs, hterm⟩ := hterms term hterm
    exact hterm ▸ hnew s hs
  · rw [hmarkers, hcontext]
    exact hbacked.imp_left hasConcreteDependencyMarker_iff.mp
  · rw [hcontext]
    refine hupgrade ?_
    rw [(scoreRevealOption_spec h).actionType] at hunlock
    rw [hgroup] at hcapture
    simpa [requiresUpgradeContextForExplore, hunlock] using hcapture

/-- The candidate a decision event is about. -/
def DecisionEvent.candidate? (e : DecisionEvent F) : Option (CandidateScore F) :=
  match e.details with
  | .noReveal _ _ => none
  | .reveal candidate _ _ _ _ _ _ => some candidate

/-- **Every second action of a tick explores**: beside the main candidate, the candidate it is
built from leaves the direction of the main reveal. -/
theorem tick_explore_distinct {r : ControllerTickResponse F} (h : tick ctl request = .ok r)
    {first second : ControllerAction} {rest : List ControllerAction}
    (hactions : r.actions = first :: second :: rest) : ∃ main explore,
      first = buildAction ctl request.bindingId main ∧
      second = buildAction ctl request.bindingId explore ∧
      r.decisionEvents.map DecisionEvent.candidate? = [some main, some explore] ∧
      ExploreDistinct ctl request main explore := by
  cases tick_passes.mp h with
  | scanner _ => simp [noopResponse] at hactions
  | noReveal main _ _ _ => simp [noopResponse] at hactions
  | reveal main follow c _ hmain hselected hfollow =>
    cases hd : follow.selected with
    | none => simp [revealResponse, hd] at hactions
    | some d =>
      simp only [revealResponse, hd, Option.toList_some, List.map_cons, List.map_nil,
        List.cons.injEq] at hactions
      refine ⟨c, d, hactions.1.symm, hactions.2.1.symm, ?_, ?_⟩
      · simp [revealResponse, hd, buildDecisionEvent, DecisionEvent.candidate?]
      · obtain ⟨_, _, o, _, ho⟩ := candidate_scored hfollow (selected_mem hfollow hd)
        exact explore_distinct_of_score (main_selected_covered (pass_chosen hmain hselected)) ho

/-- A wiki that any evidence opens, and a share that is found by its path. -/
def shareCatalog : List AssetDefinition :=
  [{ assetId := "wiki-internal", exposureType := .internal,
     defaultSettings := [("selection_profile",
       .dict [("covered_techniques", .list [.str "T1213"])])] },
    { assetId := "file-share", exposureType := .internal,
      defaultSettings := [("selection_profile",
        .dict [("covered_techniques", .list [.str "T1083"])]),
        ("unlock_signals", .dict [("any_http_paths", .list [.str "/share"])])] }]

def shareController : ControllerService Rat where
  float := exactFloats
  lower := Text.asciiLower
  str _ := ""
  pathExists _ := true
  listAll := shareCatalog
  recommend _ := [("T1213", 1 / 2)]
  degradedReason := none
  unlockCap := 100
  observedTechniqueThreshold := 1 / 2
  usePriorSupport := true

/-- Two techniques of different families are observed, and the path of the share. -/
def shareRequest : ControllerTickRequest Rat where
  attackerKey := "198.51.100.7"
  bindingId := "b-1"
  profile := {
    confByTechnique := [("T1213", 1 / 2), ("T1083", 1 / 2)]
    recentTechniques := ["T1213", "T1083"]
    recentPublicHttpPaths := ["/share"] }

/-- The share is unlocked beside the wiki. -/
theorem share_explored : ∃ r first second, tick shareController shareRequest = .ok r ∧
    r.actions = [first, second] ∧ ∃ main explore,
      first = buildAction shareController "b-1" main ∧
      second = buildAction shareController "b-1" explore ∧
      r.decisionEvents.map DecisionEvent.candidate? = [some main, some explore] ∧
      ExploreDistinct shareController shareRequest main explore := by
  have hlength : (tick shareController shareRequest).toOption.map (fun r => r.actions.length) =
      some 2 := by decide +kernel
  cases htick : tick shareController shareRequest with
  | error e => simp [htick, Except.toOption] at hlength
  | ok r =>
    rw [htick] at hlength
    obtain ⟨first, second, hactions⟩ := List.length_eq_two.mp (Option.some.inj hlength)
    exact ⟨r, first, second, rfl, hactions, tick_explore_distinct htick hactions⟩

end Honeynet.Controller
