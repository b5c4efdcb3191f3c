import Honeynet.Controller.Structure
import Honeynet.Controller.Ordering

/-!
# A catalog in another order

What a pass reads and finds when the assets of the catalog stand in another order.

* `SteadyPass`, `passReadable_iff_steady`: a pass can be read in every order iff no open asset has
  upgrade entries that cannot be read.
* `unlockCandidates`, `configureCandidates`: the candidates by the asset they come from.
* `candidates_plain`: a pass finds the candidates of each asset, in the order of the catalog; only
  the upgrade entry that allows a candidate can be another one.
-/

namespace Honeynet.Controller

open Collections Fallible Selection

variable {F : Type} {ctl : ControllerService F} {request : ControllerTickRequest F}
  {planned : List String} {assets' : List AssetDefinition}

/-- The request with this catalog. -/
def withCatalog (request : ControllerTickRequest F) (assets : List AssetDefinition) :
    ControllerTickRequest F := { request with assets }

theorem requestAssets_withCatalog (h : assets'.Perm (requestAssets ctl request)) :
    requestAssets ctl (withCatalog request assets') = assets' := by
  by_cases hempty : assets' = []
  · subst hempty
    have hnil := List.nil_perm.mp h
    rw [requestAssets] at hnil
    split_ifs at hnil with hassets
    · rw [requestAssets, withCatalog, if_pos rfl, hnil]
    · exact absurd hnil hassets
  · rw [requestAssets, withCatalog, if_neg hempty]

/-! ### What is read -/

theorem eligible_withCatalog {asset : AssetDefinition} :
    Eligible ctl (withCatalog request assets') planned asset ↔ Eligible ctl request planned asset :=
  ⟨fun h => ⟨h.internal, h.ready, h.locked, h.below_cap, h.dependencies, h.available, h.signals⟩,
    fun h => ⟨h.internal, h.ready, h.locked, h.below_cap, h.dependencies, h.available, h.signals⟩⟩

section Reordered

variable (hids : ((requestAssets ctl request).map AssetDefinition.assetId).Nodup)
  (hperm : assets'.Perm (requestAssets ctl request))

include hids hperm

theorem targetAsset?_reordered (variant : Settings) :
    targetAsset? assets' variant = targetAsset? (requestAssets ctl request) variant := by
  rw [targetAsset?, targetAsset?]
  exact congrArg _ (funext fun target => findLast_perm hperm hids target)

theorem variantSkipped_reordered (planned : List String) (source : AssetDefinition)
    (variant : Settings) (id : String) :
    variantSkipped ctl assets' request source planned variant id =
      variantSkipped ctl (requestAssets ctl request) request source planned variant id := by
  simp only [variantSkipped, targetAsset?_reordered hids hperm]

theorem variantOption_reordered (source : AssetDefinition) (variant : Settings) :
    variantOption ctl assets' request source planned variant =
      variantOption ctl (requestAssets ctl request) request source planned variant := by
  rw [variantOption, variantOption]
  simp only [variantSkipped_reordered hids hperm, targetAsset?_reordered hids hperm]

theorem offeredVariant_reordered {source : AssetDefinition} {variant : Settings} {id : String} :
    OfferedVariant ctl (withCatalog request assets') planned source variant id ↔
      OfferedVariant ctl request planned source variant id := by
  have hskipped := variantSkipped_reordered hids hperm planned source variant id
  constructor
  · intro h
    have hmem := h.source_mem
    have hskip := h.not_skipped
    rw [requestAssets_withCatalog hperm] at hmem hskip
    exact ⟨hperm.mem_iff.mp hmem, h.source_open, h.variant_mem, h.id_eq, hskipped.symm.trans hskip⟩
  · intro h
    refine ⟨?_, h.source_open, h.variant_mem, h.id_eq, ?_⟩
    · rw [requestAssets_withCatalog hperm]
      exact hperm.mem_iff.mpr h.source_mem
    · rw [requestAssets_withCatalog hperm]
      exact hskipped.trans h.not_skipped

end Reordered

/-- Entries one after the other can be read if each list of them can. -/
theorem EntriesReadable.append {candidate : AssetDefinition} {markers : List String}
    {es es' : List (AssetDefinition × Settings)} (h : EntriesReadable candidate markers es)
    (h' : EntriesReadable candidate markers es') :
    EntriesReadable candidate markers (es ++ es') := by
  induction es with
  | nil => exact h'
  | cons e es ih =>
    rw [List.cons_append]
    rw [entriesReadable_cons] at h ⊢
    exact ⟨h.1, fun hnot => ih (h.2 hnot)⟩

theorem EntriesReadable.of_append {candidate : AssetDefinition} {markers : List String}
    {es es' : List (AssetDefinition × Settings)}
    (h : EntriesReadable candidate markers (es ++ es')) : EntriesReadable candidate markers es := by
  intro pre e post hes
  exact h pre e (post ++ es') (by rw [hes, List.append_assoc, List.cons_append])

/-- The upgrade entries of one asset. -/
def upgradesOf (source : AssetDefinition) : List (AssetDefinition × Settings) :=
  (upgradeCandidates source).map fun upgrade => (source, upgrade)

/-- **What a pass reads can be read in every order**: of the assets that pass the gates the
telemetry value, of each open asset the upgrade entries about them, of the offered configurations
the telemetry value. -/
structure SteadyPass (ctl : ControllerService F) (request : ControllerTickRequest F)
    (planned : List String) : Prop where
  unlocks : ∀ asset ∈ requestAssets ctl request, Eligible ctl request planned asset →
    coveredTechniques asset ≠ [] →
      NumberReadable ctl ((selectionProfile asset).get "telemetry_value") ∧
        ∀ source ∈ requestAssets ctl request, source.assetId ∈ planned →
          EntriesReadable asset (matchedDependencyMarkers asset request) (upgradesOf source)
  configurations : ∀ source variant id, OfferedVariant ctl request planned source variant id →
    VariantReadable ctl variant ((targetAsset? (requestAssets ctl request) variant).getD source)

theorem entriesReadable_openUpgrades {candidate : AssetDefinition} {markers : List String}
    {assets : List AssetDefinition} (h : ∀ source ∈ assets, source.assetId ∈ planned →
      EntriesReadable candidate markers (upgradesOf source)) :
    EntriesReadable candidate markers (openUpgrades assets planned) := by
  induction assets with
  | nil => exact fun pre e post hes => absurd hes (by simp [openUpgrades])
  | cons source assets ih =>
    have htail := ih fun s hs => h s (List.mem_cons_of_mem source hs)
    by_cases hopen : source.assetId ∈ planned
    · have hsplit : openUpgrades (source :: assets) planned =
          upgradesOf source ++ openUpgrades assets planned := by
        simp [openUpgrades, upgradesOf, hopen]
      rw [hsplit]
      exact (h source List.mem_cons_self hopen).append htail
    · have hsplit : openUpgrades (source :: assets) planned = openUpgrades assets planned := by
        simp [openUpgrades, hopen]
      rwa [hsplit]

/-- **A pass can be read in every order** iff no open asset stands in the way when it comes
first. -/
theorem passReadable_iff_steady
    (hids : ((requestAssets ctl request).map AssetDefinition.assetId).Nodup) :
    (∀ assets' : List AssetDefinition, assets'.Perm (requestAssets ctl request) →
      PassReadable ctl (withCatalog request assets') planned) ↔ SteadyPass ctl request planned := by
  constructor
  · intro h
    have hself := h _ (List.Perm.refl _)
    refine ⟨fun asset hasset heligible hcovered => ⟨?_, fun source hsource hopen => ?_⟩, ?_⟩
    · have hmem : asset ∈ requestAssets ctl (withCatalog request (requestAssets ctl request)) := by
        rwa [requestAssets_withCatalog (List.Perm.refl _)]
      exact (hself.unlocks asset hmem (eligible_withCatalog.mpr heligible) hcovered).1
    · -- the catalog with this source first
      obtain ⟨pre, post, hsplit⟩ := List.append_of_mem hsource
      have hperm : (source :: (pre ++ post)).Perm (requestAssets ctl request) :=
        hsplit ▸ List.perm_middle.symm
      have hcatalog := requestAssets_withCatalog hperm
      have hmem : asset ∈ requestAssets ctl (withCatalog request (source :: (pre ++ post))) := by
        rw [hcatalog]
        exact hperm.mem_iff.mpr hasset
      have hentries := ((h _ hperm).unlocks asset hmem (eligible_withCatalog.mpr heligible)
        hcovered).2
      rw [hcatalog] at hentries
      have hfirst : openUpgrades (source :: (pre ++ post)) planned =
          upgradesOf source ++ openUpgrades (pre ++ post) planned := by
        simp [openUpgrades, upgradesOf, hopen]
      rw [hfirst] at hentries
      exact hentries.of_append
    · intro source variant id hoffered
      have hconfigurations := hself.configurations source variant id
        ((offeredVariant_reordered hids (List.Perm.refl _)).mpr hoffered)
      rwa [requestAssets_withCatalog (List.Perm.refl _)] at hconfigurations
  · intro h assets' hperm
    have hcatalog := requestAssets_withCatalog hperm
    refine ⟨fun asset hasset heligible hcovered => ?_, fun source variant id hoffered => ?_⟩
    · rw [hcatalog] at hasset ⊢
      obtain ⟨hnumber, hentries⟩ := h.unlocks asset (hperm.mem_iff.mp hasset)
        (eligible_withCatalog.mp heligible) hcovered
      exact ⟨hnumber, entriesReadable_openUpgrades fun source hsource =>
        hentries source (hperm.mem_iff.mp hsource)⟩
    · rw [hcatalog, targetAsset?_reordered hids hperm]
      exact h.configurations source variant id ((offeredVariant_reordered hids hperm).mp hoffered)

/-! ### What is found -/

/-- A candidate without the upgrade entry that allows it. -/
def CandidateScore.plain (c : CandidateScore F) : CandidateScore F :=
  { c with upgradeContext := none }

/-- The score of an option in a pass. -/
def scoreOption (ctl : ControllerService F) (request : ControllerTickRequest F)
    (strategy : Strategy) (exploit : Option (CandidateScore F)) (o : RevealOption F) :
    Option (CandidateScore F) :=
  scoreRevealOption ctl request strategy exploit (thresholdedObservedTechniques ctl request.profile)
    (recommendationsOf ctl request) o

/-- The candidate of an unlock. -/
def unlockCandidates (ctl : ControllerService F) (assets : List AssetDefinition)
    (request : ControllerTickRequest F) (strategy : Strategy) (exploit : Option (CandidateScore F))
    (planned : List String) (asset : AssetDefinition) : List (CandidateScore F) :=
  if (eligibility ctl asset request planned).1 then
    (((assetRevealOption ctl assets request asset planned).toOption.join.bind
      (scoreOption ctl request strategy exploit)).map CandidateScore.plain).toList
  else []

/-- The candidates of the configurations of an open asset. -/
def configureCandidates (ctl : ControllerService F) (assets : List AssetDefinition)
    (request : ControllerTickRequest F) (strategy : Strategy) (exploit : Option (CandidateScore F))
    (planned : List String) (source : AssetDefinition) : List (CandidateScore F) :=
  if source.assetId ∈ request.unlockedAssetIds then
    (configurationVariants source).filterMap fun variant =>
      ((variantOption ctl assets request source planned variant).toOption.join.bind
        (scoreOption ctl request strategy exploit)).map CandidateScore.plain
  else []

section Found

variable {strategy : Strategy} {exploit : Option (CandidateScore F)}

/-- **A pass finds** the candidates of each asset. -/
theorem candidates_plain {assets : List AssetDefinition} {options : List (RevealOption F)}
    (h : revealOptions ctl assets request planned = .ok options) :
    (options.filterMap (scoreOption ctl request strategy exploit)).map CandidateScore.plain =
      assets.flatMap (unlockCandidates ctl assets request strategy exploit planned) ++
        assets.flatMap (configureCandidates ctl assets request strategy exploit planned) := by
  obtain ⟨unlocks, configurations, hunlocks, hconfigurations, rfl⟩ := revealOptions_eq_ok.mp h
  rw [configurationRevealOptions] at hconfigurations
  rw [collect_eq_filterMap hunlocks, collect_eq_filterMap hconfigurations, List.filterMap_append,
    List.map_append, List.filterMap_filterMap, List.filterMap_filterMap, List.map_filterMap,
    List.map_filterMap, List.filterMap_filter, List.filterMap_eq_flatMap_toList,
    List.filterMap_flatMap, flatMap_filter]
  congr 1
  · refine List.flatMap_congr fun asset _ => ?_
    rw [unlockCandidates]
    split <;> rfl
  · refine List.flatMap_congr fun source _ => ?_
    rw [configureCandidates]
    simp only [decide_eq_true_eq, List.filterMap_map]
    rfl

/-- Only whether an upgrade entry allows an option counts for its score. -/
theorem scoreOption_upgrade (o : RevealOption F) {upgrade : Option UpgradeContext}
    (h : upgrade.isSome = o.upgradeContext.isSome) :
    (scoreOption ctl request strategy exploit { o with upgradeContext := upgrade }).map
        CandidateScore.plain =
      (scoreOption ctl request strategy exploit o).map CandidateScore.plain := by
  have hnone : upgrade.isNone = o.upgradeContext.isNone := by
    rw [← Option.not_isSome, ← Option.not_isSome, h]
  have hscored : scoredTechniques ctl request strategy exploit
      (thresholdedObservedTechniques ctl request.profile) (recommendationsOf ctl request)
      { o with upgradeContext := upgrade } = scoredTechniques ctl request strategy exploit
      (thresholdedObservedTechniques ctl request.profile) (recommendationsOf ctl request) o := by
    cases strategy with
    | exploit => rfl
    | explore =>
      cases exploit with
      | none => rfl
      | some c =>
        simp only [scoredTechniques, exploreTechniqueScores, hnone]
        rfl
  rw [scoreOption, scoreOption, scoreRevealOption, scoreRevealOption]
  simp only [hscored]
  cases firstBest (techniqueBetter ctl request (recommendationsOf ctl request))
    (scoredTechniques ctl request strategy exploit
      (thresholdedObservedTechniques ctl request.profile) (recommendationsOf ctl request) o) with
  | none => rfl
  | some t => rfl

/-- What an earlier reveal is compared by does not depend on the upgrade entry that allowed it. -/
theorem scoreOption_exploit (c : CandidateScore F) (o : RevealOption F) :
    scoreOption ctl request strategy (some c.plain) o =
      scoreOption ctl request strategy (some c) o := by
  cases strategy <;> rfl

/-- A scan finds an entry iff one allows the upgrade. -/
theorem scanUpgrades_isSome {candidate : AssetDefinition} {markers : List String}
    {es : List (AssetDefinition × Settings)} {upgrade : Option UpgradeContext}
    (h : scanUpgrades candidate markers es = .ok upgrade) :
    upgrade.isSome = true ↔ ∃ e ∈ es, NamesCandidate candidate e ∧ Allows markers e := by
  induction es with
  | nil =>
    obtain rfl := Except.ok.inj h
    simp
  | cons e es ih =>
    rw [List.exists_mem_cons_iff]
    rw [scanUpgrades] at h
    by_cases hnames : NamesCandidate candidate e
    · have habout : ¬ (e.2.get "asset_id").str? ≠ some candidate.assetId := not_not.mpr hnames
      rw [if_neg habout, bind_eq_ok] at h
      obtain ⟨items, hitems, h⟩ := h
      simp only at h
      have hread : entryItems e = .ok items := hitems
      by_cases hunmatched : Value.strings items ≠ [] ∧
          sortedSet ((Value.strings items).filter (· ∈ markers)) = []
      · have hnot : ¬ Allows markers e := by
          rintro ⟨items', hitems', hmatched, _⟩
          obtain rfl := Except.ok.inj (hread.symm.trans hitems')
          exact hmatched hunmatched
        rw [if_pos hunmatched] at h
        rw [ih h]
        exact ⟨Or.inr, fun hor => hor.resolve_left fun hallowed => hnot hallowed.2⟩
      rw [if_neg hunmatched] at h
      by_cases hvague : sortedSet ((Value.strings items).filter (· ∈ markers)) ≠ [] ∧
          hasConcreteDependencyMarker
            (sortedSet ((Value.strings items).filter (· ∈ markers))) = false
      · have hnot : ¬ Allows markers e := by
          rintro ⟨items', hitems', _, hconcrete⟩
          obtain rfl := Except.ok.inj (hread.symm.trans hitems')
          exact hconcrete hvague
        rw [if_pos hvague] at h
        rw [ih h]
        exact ⟨Or.inr, fun hor => hor.resolve_left fun hallowed => hnot hallowed.2⟩
      · rw [if_neg hvague] at h
        obtain rfl := Except.ok.inj h
        exact ⟨fun _ => Or.inl ⟨hnames, items, hread, hunmatched, hvague⟩, fun _ => rfl⟩
    · have hskip : (e.2.get "asset_id").str? ≠ some candidate.assetId := hnames
      rw [if_pos hskip] at h
      rw [ih h]
      exact ⟨Or.inr, fun hor => hor.resolve_left fun hallowed => hnames hallowed.1⟩

theorem mem_openUpgrades {assets : List AssetDefinition} {e : AssetDefinition × Settings} :
    e ∈ openUpgrades assets planned ↔
      ∃ source ∈ assets, source.assetId ∈ planned ∧ e ∈ upgradesOf source := by
  simp only [openUpgrades, upgradesOf, List.mem_flatMap, List.mem_filter, decide_eq_true_eq,
    and_assoc]

/-- **The candidate of an unlock** is the same in every order in which its option can be read. -/
theorem unlockOption_reordered (strategy : Strategy) (exploit : Option (CandidateScore F))
    {asset : AssetDefinition} {o o' : Option (RevealOption F)}
    (hperm : assets'.Perm (requestAssets ctl request))
    (h : assetRevealOption ctl (requestAssets ctl request) request asset planned = .ok o)
    (h' : assetRevealOption ctl assets' request asset planned = .ok o') :
    (o'.bind (scoreOption ctl request strategy exploit)).map CandidateScore.plain =
      (o.bind (scoreOption ctl request strategy exploit)).map CandidateScore.plain := by
  by_cases hcovered : coveredTechniques asset = []
  · rw [assetRevealOption, if_pos hcovered] at h h'
    rw [← Except.ok.inj h, ← Except.ok.inj h']
  rw [assetRevealOption, if_neg hcovered] at h h'
  simp only [bind_eq_ok, pure, Except.pure, Except.ok.injEq] at h h'
  obtain ⟨telemetry, htelemetry, upgrade, hupgrade, rfl⟩ := h
  obtain ⟨telemetry', htelemetry', upgrade', hupgrade', rfl⟩ := h'
  obtain rfl := Except.ok.inj (htelemetry.symm.trans htelemetry')
  have hsome : upgrade'.isSome = upgrade.isSome := by
    rw [Bool.eq_iff_iff, scanUpgrades_isSome hupgrade, scanUpgrades_isSome hupgrade']
    simp only [mem_openUpgrades, hperm.mem_iff]
  exact scoreOption_upgrade (unlockOption ctl request asset telemetry upgrade) hsome

theorem unlockCandidates_reordered (hperm : assets'.Perm (requestAssets ctl request))
    {options options' : List (RevealOption F)}
    (h : revealOptions ctl (requestAssets ctl request) request planned = .ok options)
    (h' : revealOptions ctl assets' request planned = .ok options') {asset : AssetDefinition}
    (hasset : asset ∈ requestAssets ctl request) :
    unlockCandidates ctl assets' request strategy exploit planned asset =
      unlockCandidates ctl (requestAssets ctl request) request strategy exploit planned asset := by
  rw [unlockCandidates, unlockCandidates]
  by_cases heligible : (eligibility ctl asset request planned).1 = true
  · obtain ⟨unlocks, _, hunlocks, _, _⟩ := revealOptions_eq_ok.mp h
    obtain ⟨unlocks', _, hunlocks', _, _⟩ := revealOptions_eq_ok.mp h'
    obtain ⟨o, ho⟩ := collect_ok_iff.mp ⟨unlocks, hunlocks⟩ asset
      (List.mem_filter.mpr ⟨hasset, heligible⟩)
    obtain ⟨o', ho'⟩ := collect_ok_iff.mp ⟨unlocks', hunlocks'⟩ asset
      (List.mem_filter.mpr ⟨hperm.mem_iff.mpr hasset, heligible⟩)
    have hsame := unlockOption_reordered strategy exploit hperm ho ho'
    rw [if_pos heligible, if_pos heligible, ho, ho']
    exact congrArg Option.toList hsame
  · rw [if_neg heligible, if_neg heligible]

theorem configureCandidates_reordered
    (hids : ((requestAssets ctl request).map AssetDefinition.assetId).Nodup)
    (hperm : assets'.Perm (requestAssets ctl request)) :
    configureCandidates ctl assets' request strategy exploit planned =
      configureCandidates ctl (requestAssets ctl request) request strategy exploit planned := by
  funext source
  simp only [configureCandidates, variantOption_reordered hids hperm]

end Found

end Honeynet.Controller
