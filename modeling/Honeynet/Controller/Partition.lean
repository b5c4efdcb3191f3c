import Honeynet.Controller.Explore

/-!
# Whether decision events count an unlock once

A decision event names the assets that could be unlocked and those that were refused.  The refusals
of the main pass are kept for the second event, though the main reveal may have lifted them.

* `decisionSpaceCount`: the size of the decision space of an event.
* `EventPartitions`: no asset is both eligible and refused, and none is counted twice.
* `main_event_partitions`: the event of a main reveal is so.
* `partition_iff`: all events of a tick are so iff the second pass offers no unlock of an asset
  that depends on the main reveal.
* `chained_unlock_refused`: a share behind the portal is counted twice.
-/

namespace Honeynet.Controller

open Collections Fallible

variable {F : Type} {ctl : ControllerService F} {request : ControllerTickRequest F}
  {planned : List String}

/-! ### What an event says -/

namespace DecisionDetails

def rejectedAssets : DecisionDetails F → Dict String String
  | .noReveal _ rejected => rejected
  | .reveal _ _ _ _ _ rejected _ => rejected

def eligibleAssets : DecisionDetails F → List String
  | .noReveal _ _ => []
  | .reveal _ _ eligible _ _ _ _ => eligible

def eligibleRevealOptions : DecisionDetails F → List RevealOptionSummary
  | .noReveal _ _ => []
  | .reveal _ _ _ options _ _ _ => options

end DecisionDetails

/-- What the gate metrics take for the size of the decision space. -/
def decisionSpaceCount (details : DecisionDetails F) : ℕ :=
  details.eligibleRevealOptions.length + details.rejectedAssets.length

/-- The configurations among some options. -/
def configureOptions (options : List RevealOptionSummary) : List RevealOptionSummary :=
  options.filter fun o => o.actionType == .configure

/-- The assets that some options unlock. -/
def unlockIds (options : List RevealOptionSummary) : List String :=
  (options.filter fun o => o.actionType == .unlock).map RevealOptionSummary.assetId

/-- No asset is both eligible and refused, the one that is unlocked is eligible, and the decision
space has each configuration and each asset once. -/
structure EventPartitions (e : DecisionEvent F) : Prop where
  disjoint : ∀ id ∈ e.details.eligibleAssets, id ∉ e.details.rejectedAssets.map Prod.fst
  added : e.decisionType = .unlock → ∃ id, e.assetAdded = some id ∧
    id ∈ e.details.eligibleAssets ∧ id ∉ e.details.rejectedAssets.map Prod.fst
  counted_once : decisionSpaceCount e.details =
    (configureOptions e.details.eligibleRevealOptions).length +
      (unlockIds e.details.eligibleRevealOptions ++
        e.details.rejectedAssets.map Prod.fst).toFinset.card

/-! ### Refusals -/

/-- The refused assets of a pass, after those refused before. -/
theorem keys_recordRefusals (assets : List AssetDefinition) (rejected : Dict String String) :
    (recordRefusals ctl assets request planned rejected).map Prod.fst =
      appendNew (rejected.map Prod.fst)
        ((assets.filter fun asset => !(eligibility ctl asset request planned).1).map
          AssetDefinition.assetId) := by
  induction assets generalizing rejected with
  | nil => rfl
  | cons asset assets ih =>
    rw [recordRefusals, List.foldl_cons, ← recordRefusals, ih]
    cases heligible : (eligibility ctl asset request planned).1 with
    | true => rw [if_pos rfl, List.filter_cons_of_neg (by simp [heligible])]
    | false =>
      rw [if_neg (by simp), keys_set, List.filter_cons_of_pos (by simp [heligible]), List.map_cons,
        appendNew_cons]

theorem mem_keys_recordRefusals {assets : List AssetDefinition} {rejected : Dict String String}
    {id : String} : id ∈ (recordRefusals ctl assets request planned rejected).map Prod.fst ↔
      id ∈ rejected.map Prod.fst ∨
        ∃ asset ∈ assets, asset.assetId = id ∧ ¬ Eligible ctl request planned asset := by
  simp only [keys_recordRefusals, mem_appendNew, List.mem_map, List.mem_filter, ← eligibility_iff,
    Bool.not_eq_true', Bool.not_eq_true, and_assoc]
  refine or_congr_right (exists_congr fun asset => and_congr_right fun _ => and_comm)

theorem nodup_keys_recordRefusals {assets : List AssetDefinition} {rejected : Dict String String}
    (h : (rejected.map Prod.fst).Nodup) :
    ((recordRefusals ctl assets request planned rejected).map Prod.fst).Nodup := by
  rw [keys_recordRefusals]
  exact nodup_appendNew h _

/-! ### Eligible unlocks -/

section Pass

variable {strategy : Strategy} {exploit : Option (CandidateScore F)} {rejected : Dict String String}
  {p : Pass F}

/-- An unlock of a pass is of an eligible asset. -/
theorem unlock_eligible (h : pass ctl request strategy exploit planned rejected = .ok p)
    {c : CandidateScore F} (hc : c ∈ p.candidates) (htype : c.actionType = .unlock) :
    c.asset ∈ requestAssets ctl request ∧ Eligible ctl request planned c.asset := by
  cases candidate_offered h hc with
  | unlock hmem heligible => exact ⟨hmem, heligible⟩
  | configure _ _ _ hconfigure => exact absurd (htype.symm.trans hconfigure) (by decide)

/-- **The unlocks of a pass** stand in the order of the catalog. -/
theorem unlockIds_sublist (h : pass ctl request strategy exploit planned rejected = .ok p) :
    (unlockIds (p.candidates.map revealOptionSummary)).Sublist
      ((requestAssets ctl request).map AssetDefinition.assetId) := by
  obtain ⟨_, hreveal, hcandidates, _, _⟩ := pass_eq_ok_iff.mp h
  obtain ⟨unlocks, configurations, hunlocks, hconfigurations, rfl⟩ :=
    revealOptions_eq_ok.mp hreveal
  rw [hcandidates, List.filterMap_append, List.map_append, unlockIds, List.filter_append]
  have hconfigure : ((configurations.filterMap (scoreRevealOption ctl request strategy exploit
      (thresholdedObservedTechniques ctl request.profile) (recommendationsOf ctl request))).map
        revealOptionSummary).filter (fun o => o.actionType == .unlock) = [] := by
    rw [List.filter_eq_nil_iff]
    intro s hs
    obtain ⟨c, hc, rfl⟩ := List.mem_map.mp hs
    obtain ⟨o, ho, hscore⟩ := List.mem_filterMap.mp hc
    rw [configurationRevealOptions] at hconfigurations
    obtain ⟨e, _, hoption⟩ := (mem_collect hconfigurations).mp ho
    obtain ⟨_, _, _, _, _, rfl⟩ := variantOption_eq_some.mp hoption
    have htype : c.actionType = .configure := (scoreRevealOption_spec hscore).actionType
    simp [revealOptionSummary, htype]
  rw [hconfigure, List.append_nil]
  refine (List.filter_sublist.map RevealOptionSummary.assetId).trans ?_
  rw [List.map_map]
  have hscored : ((unlocks.filterMap (scoreRevealOption ctl request strategy exploit
      (thresholdedObservedTechniques ctl request.profile) (recommendationsOf ctl request))).map
        (RevealOptionSummary.assetId ∘ revealOptionSummary)).Sublist
      (unlocks.map fun o => o.asset.assetId) :=
    map_filterMap_sublist (fun o c hscore =>
      congrArg AssetDefinition.assetId (scoreRevealOption_spec hscore).asset) unlocks
  have hoptions : (unlocks.map fun o => o.asset.assetId).Sublist
      (((requestAssets ctl request).filter fun asset =>
        (eligibility ctl asset request planned).1).map AssetDefinition.assetId) := by
    refine map_collect_sublist (fun asset o ho => ?_) hunlocks
    obtain ⟨_, _, _, _, _, rfl⟩ := assetRevealOption_eq_some.mp ho
    rfl
  exact hscored.trans (hoptions.trans (List.filter_sublist.map _))

/-- Each option is an unlock or a configuration. -/
theorem length_candidates (h : pass ctl request strategy exploit planned rejected = .ok p) :
    p.candidates.length =
      (configureOptions (p.candidates.map revealOptionSummary)).length +
        (unlockIds (p.candidates.map revealOptionSummary)).length := by
  have htypes : ∀ o ∈ p.candidates.map revealOptionSummary,
      (o.actionType == .unlock) = !(o.actionType == .configure) := by
    intro o ho
    obtain ⟨c, hc, rfl⟩ := List.mem_map.mp ho
    rcases (candidate_offered h hc).type with htype | htype
    · simp [revealOptionSummary, htype]
    · simp [revealOptionSummary, htype]
  have hsplit := List.length_eq_length_filter_add (l := p.candidates.map revealOptionSummary)
    fun o => o.actionType == .configure
  rw [← List.filter_congr htypes, List.length_map] at hsplit
  rw [hsplit, configureOptions, unlockIds, List.length_map]

/-! ### Events -/

theorem mem_unlockIds {candidates : List (CandidateScore F)} {c : CandidateScore F}
    (hc : c ∈ candidates) (htype : c.actionType = .unlock) :
    c.asset.assetId ∈ unlockIds (candidates.map revealOptionSummary) :=
  List.mem_map.mpr ⟨revealOptionSummary c,
    List.mem_filter.mpr ⟨List.mem_map_of_mem hc, beq_iff_eq.mpr htype⟩, rfl⟩

theorem eligibleAssets_eq (c : CandidateScore F) (rejected : Dict String String)
    (eligible : List (CandidateScore F)) :
    (buildDecisionEvent ctl request c rejected eligible).details.eligibleAssets =
      appendNew [] (unlockIds (eligible.map revealOptionSummary)) := by
  rw [buildDecisionEvent, DecisionDetails.eligibleAssets, unlockIds, List.filter_map, List.map_map]
  rfl

/-- **An event partitions** if none of its unlocks is refused. -/
theorem event_partitions (hids : ((requestAssets ctl request).map AssetDefinition.assetId).Nodup)
    (h : pass ctl request strategy exploit planned rejected = .ok p)
    (hnodup : (rejected.map Prod.fst).Nodup) {c : CandidateScore F} (hc : p.selected = some c)
    (hdisjoint : ∀ e ∈ p.candidates, e.actionType = .unlock →
      e.asset.assetId ∉ p.rejected.map Prod.fst) :
    EventPartitions (buildDecisionEvent ctl request c p.rejected p.candidates) := by
  have hmem : ∀ id ∈ unlockIds (p.candidates.map revealOptionSummary),
      id ∉ p.rejected.map Prod.fst := by
    intro id hid
    obtain ⟨o, ho, rfl⟩ := List.mem_map.mp hid
    obtain ⟨ho, htype⟩ := List.mem_filter.mp ho
    obtain ⟨e, he, rfl⟩ := List.mem_map.mp ho
    exact hdisjoint e he (beq_iff_eq.mp htype)
  refine ⟨fun id hid => hmem id ?_, fun htype => ?_, ?_⟩
  · rw [eligibleAssets_eq, mem_appendNew] at hid
    exact hid.resolve_left List.not_mem_nil
  · have hunlock : c.actionType = .unlock := by
      rcases (candidate_offered h (selected_mem h hc)).type with hunlock | hconfigure
      · exact hunlock
      · simp [buildDecisionEvent, hconfigure] at htype
    have hcmem := mem_unlockIds (selected_mem h hc) hunlock
    have hexposed : c.exposedAssetId = c.asset.assetId := by
      cases candidate_offered h (selected_mem h hc) with
      | unlock _ _ _ _ htarget => rw [CandidateScore.exposedAssetId, htarget]
      | configure _ _ _ hconfigure => exact absurd (hunlock.symm.trans hconfigure) (by decide)
    refine ⟨c.asset.assetId, congrArg some hexposed, ?_, hmem _ hcmem⟩
    rw [eligibleAssets_eq, mem_appendNew]
    exact Or.inr hcmem
  · obtain ⟨_, _, _, hrejected, _⟩ := pass_eq_ok_iff.mp h
    have hkeys : (p.rejected.map Prod.fst).Nodup := hrejected ▸ nodup_keys_recordRefusals hnodup
    have hall : (unlockIds (p.candidates.map revealOptionSummary) ++
        p.rejected.map Prod.fst).Nodup :=
      List.nodup_append.mpr ⟨(unlockIds_sublist h).nodup hids, hkeys,
        fun a ha b hb hab => hmem a ha (hab ▸ hb)⟩
    have hlength := length_candidates h
    rw [buildDecisionEvent, decisionSpaceCount]
    simp only [DecisionDetails.eligibleRevealOptions, DecisionDetails.rejectedAssets]
    rw [List.toFinset_card_of_nodup hall, List.length_append, List.length_map, hlength,
      List.length_map, Nat.add_assoc]

end Pass

theorem noop_partitions {reason : String} {ids : List String} {rejected : Dict String String}
    (h : (rejected.map Prod.fst).Nodup) :
    ∀ e ∈ (noopResponse ctl request reason ids rejected).decisionEvents, EventPartitions e := by
  intro e he
  obtain rfl := List.mem_singleton.mp he
  refine ⟨fun id hid => absurd hid List.not_mem_nil, fun htype => absurd htype (by simp), ?_⟩
  have hcard := List.toFinset_card_of_nodup h
  rw [List.length_map] at hcard
  simp [decisionSpaceCount, DecisionDetails.eligibleRevealOptions, DecisionDetails.rejectedAssets,
    configureOptions, unlockIds, hcard]

/-- An asset that is refused under one planned list and eligible under a longer one was missing a
dependency. -/
theorem eligible_of_prefix {planned' : List String} {asset : AssetDefinition}
    (hgrows : planned <+: planned') (h : Eligible ctl request planned' asset) :
    Eligible ctl request planned asset ↔ asset.dependencies ⊆ planned := by
  refine ⟨Eligible.dependencies, fun hdeps => { h with
    locked := fun hmem => h.locked (hgrows.subset hmem)
    below_cap := ?_
    dependencies := hdeps }⟩
  have hlength := hgrows.length_le
  have hbelow := h.below_cap
  omega

/-- **The event of a main reveal** partitions. -/
theorem main_event_partitions
    (hids : ((requestAssets ctl request).map AssetDefinition.assetId).Nodup) {main : Pass F}
    (h : pass ctl request .exploit none planned [] = .ok main) {c : CandidateScore F}
    (hc : main.selected = some c) :
    EventPartitions (buildDecisionEvent ctl request c main.rejected main.candidates) := by
  refine event_partitions hids h List.nodup_nil hc fun e he htype hrefused => ?_
  obtain ⟨_, _, _, hrejected, _⟩ := pass_eq_ok_iff.mp h
  obtain ⟨hmem, heligible⟩ := unlock_eligible h he htype
  rw [hrejected, mem_keys_recordRefusals] at hrefused
  obtain ⟨asset, hasset, hname, hnot⟩ := hrefused.resolve_left List.not_mem_nil
  obtain rfl := List.inj_on_of_nodup_map hids hasset hmem hname
  exact hnot heligible

/-- Once the main reveal is planned, the second event refuses an eligible asset iff the asset
depends on the main reveal. -/
theorem follow_refused_iff
    (hids : ((requestAssets ctl request).map AssetDefinition.assetId).Nodup) {main follow : Pass F}
    {c : CandidateScore F} (hmain : pass ctl request .exploit none planned [] = .ok main)
    (hfollow : pass ctl request .explore (some c) (plannedAfter planned c) main.rejected =
      .ok follow) {e : CandidateScore F} (he : e ∈ follow.candidates)
    (htype : e.actionType = .unlock) :
    e.asset.assetId ∈ follow.rejected.map Prod.fst ↔ ¬ e.asset.dependencies ⊆ planned := by
  obtain ⟨_, _, _, hrejected, _⟩ := pass_eq_ok_iff.mp hmain
  obtain ⟨_, _, _, hrejected', _⟩ := pass_eq_ok_iff.mp hfollow
  obtain ⟨hmem, heligible⟩ := unlock_eligible hfollow he htype
  have hsame : ∀ asset ∈ requestAssets ctl request, asset.assetId = e.asset.assetId →
      asset = e.asset := fun asset hasset hname => List.inj_on_of_nodup_map hids hasset hmem hname
  rw [← eligible_of_prefix (prefix_plannedAfter _ c) heligible, hrejected', mem_keys_recordRefusals,
    hrejected, mem_keys_recordRefusals]
  constructor
  · rintro ((hnil | ⟨asset, hasset, hname, hnot⟩) | ⟨asset, hasset, hname, hnot⟩)
    · exact absurd hnil List.not_mem_nil
    · exact hsame asset hasset hname ▸ hnot
    · exact absurd (hsame asset hasset hname ▸ heligible) hnot
  · exact fun hnot => Or.inl (Or.inr ⟨e.asset, hmem, rfl, hnot⟩)

/-! ### Ticks -/

/-- The candidates of the second pass after a main reveal. -/
def followCandidates (ctl : ControllerService F) (request : ControllerTickRequest F)
    (c : CandidateScore F) : List (CandidateScore F) :=
  match pass ctl request .explore (some c) (plannedAfter request.unlockedAssetIds c) [] with
  | .ok p => p.candidates
  | .error _ => []

theorem followCandidates_eq {c : CandidateScore F} {rejected : Dict String String} {follow : Pass F}
    (h : pass ctl request .explore (some c) (plannedAfter request.unlockedAssetIds c) rejected =
      .ok follow) : followCandidates ctl request c = follow.candidates := by
  obtain ⟨follow', hfollow', hcandidates, _⟩ := pass_rejected h []
  rw [followCandidates, hfollow']
  exact hcandidates

theorem mem_followCandidates {c e : CandidateScore F} (rejected : Dict String String)
    (he : e ∈ followCandidates ctl request c) : ∃ follow,
      pass ctl request .explore (some c) (plannedAfter request.unlockedAssetIds c) rejected =
        .ok follow ∧ e ∈ follow.candidates := by
  rw [followCandidates] at he
  cases hpass : pass ctl request .explore (some c) (plannedAfter request.unlockedAssetIds c) [] with
  | error err => exact absurd he (by simp [hpass])
  | ok p =>
    rw [hpass] at he
    obtain ⟨follow, hfollow, hcandidates, _⟩ := pass_rejected hpass rejected
    exact ⟨follow, hfollow, hcandidates ▸ he⟩

/-- The second pass scores no unlock of an asset that depends on the main reveal. -/
def NoChainedUnlock (ctl : ControllerService F) (request : ControllerTickRequest F) : Prop :=
  scannerOnlyProfile request.profile = false → ∀ c ∈ mainReveal ctl request,
    ∀ e ∈ followCandidates ctl request c, e.actionType = .unlock →
      e.asset.dependencies ⊆ request.unlockedAssetIds

/-- **All events of a tick partition** if and only if no unlock that the second pass scores depends
on the main reveal. -/
theorem partition_iff (ctl : ControllerService F) (request : ControllerTickRequest F)
    (hids : ((requestAssets ctl request).map AssetDefinition.assetId).Nodup) :
    (∀ r, tick ctl request = .ok r → ∀ e ∈ r.decisionEvents, EventPartitions e) ↔
      NoChainedUnlock ctl request := by
  constructor
  · intro h hscanner c hc e he htype
    by_contra hdeps
    obtain ⟨main, hmain, hselected⟩ := mem_mainReveal.mp hc
    obtain ⟨follow, hfollow, hmem⟩ := mem_followCandidates main.rejected he
    have hrefused := (follow_refused_iff hids hmain hfollow hmem htype).mpr hdeps
    -- an eligible unlock makes a second event
    obtain ⟨d, hd⟩ := selectCandidate_isSome ctl hmem
    obtain ⟨_, _, _, _, hfollowSelected⟩ := pass_eq_ok_iff.mp hfollow
    have hevent : buildDecisionEvent ctl request d follow.rejected follow.candidates ∈
        (revealResponse ctl request main follow c).decisionEvents := by
      simp [revealResponse, hfollowSelected, hd]
    have hpartitions := h _ (tick_passes.mpr (.reveal main follow c hscanner hmain hselected
      hfollow)) _ hevent
    refine hpartitions.disjoint e.asset.assetId ?_ hrefused
    rw [eligibleAssets_eq, mem_appendNew]
    exact Or.inr (mem_unlockIds hmem htype)
  · intro h r hr
    cases tick_passes.mp hr with
    | scanner _ => exact noop_partitions List.nodup_nil
    | noReveal main _ hmain _ =>
      obtain ⟨_, _, _, hrejected, _⟩ := pass_eq_ok_iff.mp hmain
      exact noop_partitions (hrejected ▸ nodup_keys_recordRefusals List.nodup_nil)
    | reveal main follow c hscanner hmain hselected hfollow =>
      obtain ⟨_, _, _, hrejected, _⟩ := pass_eq_ok_iff.mp hmain
      intro e he
      rcases List.mem_cons.mp he with rfl | he
      · exact main_event_partitions hids hmain hselected
      · obtain ⟨d, hd, rfl⟩ := List.mem_map.mp he
        refine event_partitions hids hfollow (hrejected ▸ nodup_keys_recordRefusals List.nodup_nil)
          (Option.mem_toList.mp hd) fun e he htype hrefused => ?_
        refine (follow_refused_iff hids hmain hfollow he htype).mp hrefused ?_
        have hmem : e ∈ followCandidates ctl request c := followCandidates_eq hfollow ▸ he
        exact h hscanner c (mem_mainReveal.mpr ⟨main, hmain, hselected⟩) e hmem htype

/-- A share behind the portal. -/
def financeCatalog : List AssetDefinition :=
  [{ assetId := "internal-portal", exposureType := .internal,
     defaultSettings := [("selection_profile",
       .dict [("covered_techniques", .list [.str "T1046"])])] },
    { assetId := "finance-share", exposureType := .internal, dependencies := ["internal-portal"],
      defaultSettings := [
        ("unlock_signals", .dict [("any_http_indicators", .list [.str "path:.bak"])]),
        ("selection_profile", .dict [("covered_techniques", .list [.str "T1552.001"])])] }]

def financeController : ControllerService Rat where
  float := exactFloats
  lower := Text.asciiLower
  str _ := ""
  pathExists _ := true
  listAll := financeCatalog
  recommend _ := []
  degradedReason := none
  unlockCap := 100
  observedTechniqueThreshold := 1 / 2
  usePriorSupport := true

/-- A backup was found on the public site. -/
def backupRequest : ControllerTickRequest Rat where
  attackerKey := "198.51.100.40"
  bindingId := "binding-4"
  profile := {
    confByTechnique := [("T1552.001", 9 / 10), ("T1046", 4 / 5)]
    recentTactics := ["Credential Access", "Discovery"]
    recentTechniques := ["T1552.001", "T1046"]
    recentEvidenceIds := ["e-3"]
    recentPublicHttpIndicators := ["path:.bak"] }

/-- The event that unlocks the share names it among the refused assets too. -/
theorem chained_unlock_refused :
    ((requestAssets financeController backupRequest).map AssetDefinition.assetId).Nodup ∧
      ∃ r, tick financeController backupRequest = .ok r ∧
        ∃ e ∈ r.decisionEvents, ¬ EventPartitions e := by
  refine ⟨by decide, ?_⟩
  have hrefused : ((tick financeController backupRequest).toOption.any fun r =>
      r.decisionEvents.any fun e => e.details.eligibleAssets.any fun id =>
        id ∈ e.details.rejectedAssets.map Prod.fst) = true := by decide +kernel
  cases htick : tick financeController backupRequest with
  | error e => simp [htick, Except.toOption] at hrefused
  | ok r =>
    rw [htick] at hrefused
    obtain ⟨e, he, hshared⟩ := List.any_eq_true.mp hrefused
    obtain ⟨id, heligible, hkeys⟩ := List.any_eq_true.mp hshared
    exact ⟨r, rfl, e, he, fun h => h.disjoint id heligible (of_decide_eq_true hkeys)⟩

/-- The portal on its own. -/
def portalController : ControllerService Rat :=
  { financeController with listAll := financeCatalog.take 1 }

/-- With nothing behind the portal all events partition. -/
theorem portal_events_partition :
    ∃ r, tick portalController backupRequest = .ok r ∧ ∀ e ∈ r.decisionEvents,
      EventPartitions e := by
  have hreturns : (tick portalController backupRequest).toOption.isSome = true := by
    decide +kernel
  have hnone : ((mainReveal portalController backupRequest).all fun c =>
      (followCandidates portalController backupRequest c).isEmpty) = true := by decide +kernel
  cases htick : tick portalController backupRequest with
  | error e => simp [htick, Except.toOption] at hreturns
  | ok r =>
    refine ⟨r, rfl, (partition_iff portalController backupRequest (by decide)).mpr
      (fun _ c hc e he _ => ?_) r htick⟩
    rw [Option.all_eq_true] at hnone
    rw [List.isEmpty_iff.mp (hnone c hc)] at he
    exact absurd he List.not_mem_nil

end Honeynet.Controller
