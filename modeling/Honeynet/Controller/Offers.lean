import Honeynet.Controller.Tick

/-!
# What a pass offers, and when it raises

* `Eligible`, `eligibility_iff`: the gates of an unlock as one statement.
* `Offered`, `pass_offered`: every candidate of a pass is an eligible asset or a configuration of
  an open one that is not skipped.
* `pass_ok_iff`: a pass raises only on an upgrade entry whose markers cannot be iterated over, or
  on a telemetry value that is too large.
-/

namespace Honeynet.Controller

open Collections Fallible

variable {F : Type} {ctl : ControllerService F} {request : ControllerTickRequest F}
  {planned : List String}

/-! ### Gates -/

/-- An asset passes the gates of an unlock. -/
structure Eligible (ctl : ControllerService F) (request : ControllerTickRequest F)
    (planned : List String) (asset : AssetDefinition) : Prop where
  internal : asset.exposureType = .internal
  ready : implementationStatus ctl asset ∈ ["ready", "prototype"]
  locked : asset.assetId ∉ planned
  below_cap : (planned.length : Int) < ctl.unlockCap
  dependencies : asset.dependencies ⊆ planned
  available : runtimeIsAvailable ctl asset = true
  signals : isBootstrapAsset asset request = true ∨ matchesUnlockSignals asset request = true

theorem eligibility_iff {asset : AssetDefinition} :
    (eligibility ctl asset request planned).1 = true ↔ Eligible ctl request planned asset := by
  have hfalse : ∀ reason : String, ((false, reason).1 = true) = False := fun _ => by simp
  rw [eligibility]
  by_cases h₁ : asset.exposureType ≠ .internal
  · rw [if_pos h₁, hfalse, false_iff]
    exact fun h => h₁ h.internal
  by_cases h₂ : implementationStatus ctl asset ∉ ["ready", "prototype"]
  · rw [if_neg h₁, if_pos h₂, hfalse, false_iff]
    exact fun h => h₂ h.ready
  by_cases h₃ : asset.assetId ∈ planned
  · rw [if_neg h₁, if_neg h₂, if_pos h₃, hfalse, false_iff]
    exact fun h => h.locked h₃
  by_cases h₄ : ctl.unlockCap ≤ (planned.length : Int)
  · rw [if_neg h₁, if_neg h₂, if_neg h₃, if_pos h₄, hfalse, false_iff]
    exact fun h => absurd h.below_cap (not_lt.mpr h₄)
  by_cases h₅ : ¬ asset.dependencies ⊆ planned
  · rw [if_neg h₁, if_neg h₂, if_neg h₃, if_neg h₄, if_pos h₅, hfalse, false_iff]
    exact fun h => h₅ h.dependencies
  by_cases h₆ : runtimeIsAvailable ctl asset = false
  · rw [if_neg h₁, if_neg h₂, if_neg h₃, if_neg h₄, if_neg h₅, if_pos h₆, hfalse, false_iff]
    exact fun h => absurd (h.available.symm.trans h₆) (by simp)
  have hgates : isBootstrapAsset asset request = true ∨ matchesUnlockSignals asset request = true →
      Eligible ctl request planned asset := fun h =>
    ⟨not_not.mp h₁, not_not.mp h₂, h₃, not_le.mp h₄, not_not.mp h₅, by simpa using h₆, h⟩
  rw [if_neg h₁, if_neg h₂, if_neg h₃, if_neg h₄, if_neg h₅, if_neg h₆]
  by_cases h₇ : isBootstrapAsset asset request = true
  · rw [if_pos h₇]
    exact ⟨fun _ => hgates (Or.inl h₇), fun _ => rfl⟩
  by_cases h₈ : matchesUnlockSignals asset request = false
  · rw [if_neg h₇, if_pos h₈, hfalse, false_iff]
    exact fun h => h.signals.elim h₇ fun hs => absurd (hs.symm.trans h₈) (by simp)
  · rw [if_neg h₇, if_neg h₈]
    exact ⟨fun _ => hgates (Or.inr (by simpa using h₈)), fun _ => rfl⟩

/-- A configuration of an open asset that is not skipped. -/
structure OfferedVariant (ctl : ControllerService F) (request : ControllerTickRequest F)
    (planned : List String) (source : AssetDefinition) (variant : Settings)
    (configurationId : String) : Prop where
  source_mem : source ∈ requestAssets ctl request
  source_open : source.assetId ∈ request.unlockedAssetIds
  variant_mem : variant ∈ configurationVariants source
  id_eq : stringOrNone (variant.get "configuration_id") = some configurationId
  not_skipped : variantSkipped ctl (requestAssets ctl request) request source planned variant
    configurationId = false

/-- What an option or a candidate stands for: an unlock of an eligible asset, or a configuration
of an open one. -/
inductive Offered (ctl : ControllerService F) (request : ControllerTickRequest F)
    (planned : List String) (asset : AssetDefinition) (actionType : ActionType)
    (configurationId targetAssetId : Option String) (covered : List String) : Prop
  | unlock (hmem : asset ∈ requestAssets ctl request)
      (heligible : Eligible ctl request planned asset)
      (htype : actionType = .unlock) (hid : configurationId = none) (htarget : targetAssetId = none)
  | configure (variant : Settings) (id : String)
      (hoffered : OfferedVariant ctl request planned asset variant id)
      (htype : actionType = .configure) (hid : configurationId = some id)
      (htarget : targetAssetId = stringOrNone (variant.get "target_asset_id"))
      (hcovered : covered = variantCoveredTechniques variant
        ((targetAsset? (requestAssets ctl request) variant).getD asset))

theorem mem_openVariants {e : AssetDefinition × Settings} :
    e ∈ ((requestAssets ctl request).filter fun source =>
        source.assetId ∈ request.unlockedAssetIds).flatMap (fun source =>
          (configurationVariants source).map fun variant => (source, variant)) ↔
      e.1 ∈ requestAssets ctl request ∧ e.1.assetId ∈ request.unlockedAssetIds ∧
        e.2 ∈ configurationVariants e.1 := by
  obtain ⟨source, variant⟩ := e
  simp only [List.mem_flatMap, List.mem_filter, decide_eq_true_eq, List.mem_map, Prod.mk.injEq]
  constructor
  · rintro ⟨s, ⟨hs, hopen⟩, v, hv, rfl, rfl⟩
    exact ⟨hs, hopen, hv⟩
  · rintro ⟨hs, hopen, hv⟩
    exact ⟨source, ⟨hs, hopen⟩, variant, hv, rfl, rfl⟩

/-- The option of an unlock. -/
def unlockOption (ctl : ControllerService F) (request : ControllerTickRequest F)
    (asset : AssetDefinition) (telemetry : F) (upgrade : Option UpgradeContext) :
    RevealOption F where
  asset
  actionType := .unlock
  coveredTechniques := coveredTechniques asset
  telemetryValue := telemetry
  matchedDependencyMarkers := matchedDependencyMarkers asset request
  assetGroup := assetGroup ctl asset
  upgradeContext := upgrade

/-- The option of a configuration. -/
def configureOption (ctl : ControllerService F) (assets : List AssetDefinition)
    (request : ControllerTickRequest F) (source : AssetDefinition) (variant : Settings)
    (configurationId : String) (telemetry : F) : RevealOption F where
  asset := source
  actionType := .configure
  coveredTechniques := variantCoveredTechniques variant
    ((targetAsset? assets variant).getD source)
  telemetryValue := telemetry
  matchedDependencyMarkers := matchedVariantMarkers variant (observedSignalSets request)
  assetGroup := assetGroup ctl ((targetAsset? assets variant).getD source)
  candidateTypeOverride := some "configuration"
  upgradeContext := (targetAsset? assets variant).map fun target => {
    previousBackendAsset := source.assetId
    upgradedBackendAsset := target.assetId
    publicPort := variant.get "public_port"
    matchedMarkers := matchedVariantMarkers variant (observedSignalSets request)
    reason := variant.getD "reason" (.str "") }
  configurationId := some configurationId
  configurationKind := stringOrNone (variant.get "kind")
  targetAssetId := stringOrNone (variant.get "target_asset_id")
  configuration := variant

theorem assetRevealOption_eq_some {assets : List AssetDefinition} {asset : AssetDefinition}
    {o : RevealOption F} :
    assetRevealOption ctl assets request asset planned = .ok (some o) ↔
      coveredTechniques asset ≠ [] ∧ ∃ telemetry upgrade,
        telemetryValue ctl asset = .ok telemetry ∧
        upgradeContext assets asset planned (matchedDependencyMarkers asset request) =
          .ok upgrade ∧ o = unlockOption ctl request asset telemetry upgrade := by
  rw [assetRevealOption]
  by_cases hcovered : coveredTechniques asset = []
  · simp [hcovered]
  · rw [if_neg hcovered]
    simp only [bind_eq_ok, pure, Except.pure, Except.ok.injEq, Option.some.injEq, ne_eq, hcovered,
      not_false_eq_true, true_and]
    constructor
    · rintro ⟨telemetry, htelemetry, upgrade, hupgrade, rfl⟩
      exact ⟨telemetry, upgrade, htelemetry, hupgrade, rfl⟩
    · rintro ⟨telemetry, upgrade, htelemetry, hupgrade, rfl⟩
      exact ⟨telemetry, htelemetry, upgrade, hupgrade, rfl⟩

theorem variantOption_eq_some {assets : List AssetDefinition} {source : AssetDefinition}
    {variant : Settings} {o : RevealOption F} :
    variantOption ctl assets request source planned variant = .ok (some o) ↔
      ∃ id telemetry, stringOrNone (variant.get "configuration_id") = some id ∧
        variantSkipped ctl assets request source planned variant id = false ∧
        variantTelemetryValue ctl variant ((targetAsset? assets variant).getD source) =
          .ok telemetry ∧
        o = configureOption ctl assets request source variant id telemetry := by
  rw [variantOption]
  cases hid : stringOrNone (variant.get "configuration_id") with
  | none => simp
  | some id =>
    by_cases hskipped : variantSkipped ctl assets request source planned variant id = true
    · simp [hskipped]
    · simp only [hskipped, Bool.false_eq_true, if_false, bind_eq_ok, pure, Except.pure,
        Except.ok.injEq, Option.some.injEq, exists_and_left, exists_eq_left', true_and]
      constructor
      · rintro ⟨telemetry, htelemetry, rfl⟩
        exact ⟨telemetry, htelemetry, rfl⟩
      · rintro ⟨telemetry, htelemetry, rfl⟩
        exact ⟨telemetry, htelemetry, rfl⟩

theorem revealOptions_eq_ok {assets : List AssetDefinition} {options : List (RevealOption F)} :
    revealOptions ctl assets request planned = .ok options ↔ ∃ unlocks configurations,
      collect (fun asset => assetRevealOption ctl assets request asset planned)
        (assets.filter fun asset => (eligibility ctl asset request planned).1) = .ok unlocks ∧
      configurationRevealOptions ctl assets request planned = .ok configurations ∧
      options = unlocks ++ configurations := by
  rw [revealOptions]
  simp only [bind_eq_ok, pure, Except.pure, Except.ok.injEq]
  constructor
  · rintro ⟨unlocks, hunlocks, configurations, hconfigurations, rfl⟩
    exact ⟨unlocks, configurations, hunlocks, hconfigurations, rfl⟩
  · rintro ⟨unlocks, configurations, hunlocks, hconfigurations, rfl⟩
    exact ⟨unlocks, hunlocks, configurations, hconfigurations, rfl⟩

/-- The options of a pass, by the assets and variants they are made of. -/
theorem mem_revealOptions {options : List (RevealOption F)}
    (h : revealOptions ctl (requestAssets ctl request) request planned = .ok options)
    {o : RevealOption F} : o ∈ options ↔
      (∃ asset ∈ requestAssets ctl request, Eligible ctl request planned asset ∧
        assetRevealOption ctl (requestAssets ctl request) request asset planned = .ok (some o)) ∨
      ∃ source variant, (source ∈ requestAssets ctl request ∧
        source.assetId ∈ request.unlockedAssetIds ∧ variant ∈ configurationVariants source) ∧
        variantOption ctl (requestAssets ctl request) request source planned variant =
          .ok (some o) := by
  obtain ⟨unlocks, configurations, hunlocks, hconfigurations, rfl⟩ := revealOptions_eq_ok.mp h
  rw [configurationRevealOptions] at hconfigurations
  rw [List.mem_append, mem_collect hunlocks, mem_collect hconfigurations]
  simp only [mem_openVariants, List.mem_filter, eligibility_iff, and_assoc, Prod.exists]

/-- **The options of a pass** are eligible assets and offered configurations. -/
theorem revealOptions_offered {options : List (RevealOption F)}
    (h : revealOptions ctl (requestAssets ctl request) request planned = .ok options)
    {o : RevealOption F} (ho : o ∈ options) :
    Offered ctl request planned o.asset o.actionType o.configurationId o.targetAssetId
      o.coveredTechniques := by
  rcases (mem_revealOptions h).mp ho with ⟨asset, hasset, heligible, hoption⟩ |
    ⟨source, variant, ⟨hs, hopen, hv⟩, hoption⟩
  · obtain ⟨_, telemetry, upgrade, _, _, rfl⟩ := assetRevealOption_eq_some.mp hoption
    exact .unlock hasset heligible rfl rfl rfl
  · obtain ⟨id, telemetry, hid, hskipped, _, rfl⟩ := variantOption_eq_some.mp hoption
    exact .configure variant id ⟨hs, hopen, hv, hid, hskipped⟩ rfl rfl rfl rfl

/-! ### Candidates -/

/-- A candidate keeps what its option says, and some technique speaks for it. -/
structure ScoredAs (ctl : ControllerService F) (request : ControllerTickRequest F)
    (strategy : Strategy) (exploit : Option (CandidateScore F)) (observed : List String)
    (recommendations : Dict String F) (o : RevealOption F) (c : CandidateScore F) : Prop where
  asset : c.asset = o.asset
  actionType : c.actionType = o.actionType
  configurationId : c.configurationId = o.configurationId
  targetAssetId : c.targetAssetId = o.targetAssetId
  coveredTechniques : c.coveredTechniques = o.coveredTechniques
  scored : ∃ t ∈ scoredTechniques ctl request strategy exploit observed recommendations o,
    c.selectedTechnique = t.1

theorem scoreRevealOption_spec {strategy : Strategy} {exploit : Option (CandidateScore F)}
    {observed : List String} {recommendations : Dict String F} {o : RevealOption F}
    {c : CandidateScore F}
    (h : scoreRevealOption ctl request strategy exploit observed recommendations o = some c) :
    ScoredAs ctl request strategy exploit observed recommendations o c := by
  rw [scoreRevealOption] at h
  cases hbest : firstBest (techniqueBetter ctl request recommendations)
      (scoredTechniques ctl request strategy exploit observed recommendations o) with
  | none =>
    simp [hbest] at h
  | some t =>
    simp only [hbest, Option.some.injEq] at h
    subst h
    exact ⟨rfl, rfl, rfl, rfl, rfl, t, firstBest_mem hbest, rfl⟩

/-- The type of a candidate is that of a technique, if its option does not say otherwise. -/
theorem scoreRevealOption_type {strategy : Strategy} {exploit : Option (CandidateScore F)}
    {observed : List String} {recommendations : Dict String F} {o : RevealOption F}
    {c : CandidateScore F}
    (h : scoreRevealOption ctl request strategy exploit observed recommendations o = some c) :
    ∃ t ∈ scoredTechniques ctl request strategy exploit observed recommendations o,
      c.candidateType = o.candidateTypeOverride.getD t.2.candidateType.value := by
  rw [scoreRevealOption] at h
  cases hbest : firstBest (techniqueBetter ctl request recommendations)
      (scoredTechniques ctl request strategy exploit observed recommendations o) with
  | none => simp [hbest] at h
  | some t =>
    simp only [hbest, Option.some.injEq] at h
    subst h
    exact ⟨t, firstBest_mem hbest, rfl⟩

/-- The scored techniques of an option are among those it covers. -/
theorem techniqueScores_covered {observed : List String} {recommendations : Dict String F}
    {o : RevealOption F} {t : String × TechniqueParts F}
    (h : t ∈ techniqueScores ctl o request observed recommendations) :
    t.1 ∈ o.coveredTechniques := by
  rw [techniqueScores] at h
  have hmem := List.mem_of_mem_filter h
  split at hmem
  · obtain ⟨s, hs, rfl⟩ := List.mem_map.mp hmem
    obtain ⟨technique, ht, rfl⟩ := List.mem_map.mp hs
    simpa using ht
  · obtain ⟨technique, ht, rfl⟩ := List.mem_map.mp hmem
    simpa using ht

theorem mem_exploreTechniqueScores {exploit : CandidateScore F} {observed : List String}
    {o : RevealOption F} {scores : List (String × TechniqueParts F)} {t : String × TechniqueParts F}
    (h : t ∈ exploreTechniqueScores o (some exploit) observed scores) :
    t ∈ scores ∧ isDistinctExploreTechnique t.1 exploit = true := by
  rw [exploreTechniqueScores] at h
  simp only at h
  split_ifs at h
  all_goals first
    | exact absurd h List.not_mem_nil
    | exact List.mem_filter.mp h

/-- An explore candidate covers a technique family the main reveal does not. -/
theorem explore_distinct {exploit : CandidateScore F} {observed : List String}
    {recommendations : Dict String F} {o : RevealOption F} {c : CandidateScore F}
    (h : ScoredAs ctl request .explore (some exploit) observed recommendations o c) :
    ∃ technique ∈ c.coveredTechniques,
      ∀ covered ∈ exploit.coveredTechniques, sameTechniqueFamily technique covered = false := by
  obtain ⟨t, ht, _⟩ := h.scored
  obtain ⟨hmem, hdistinct⟩ := mem_exploreTechniqueScores ht
  rw [isDistinctExploreTechnique, Bool.and_eq_true] at hdistinct
  refine ⟨t.1, h.coveredTechniques ▸ techniqueScores_covered hmem, ?_⟩
  simpa using hdistinct.2

theorem sameTechniqueFamily_self (technique : String) :
    sameTechniqueFamily technique technique = true := beq_self_eq_true _

/-! ### When a pass raises -/

/-- The upgrade entry is about the candidate. -/
def NamesCandidate (candidate : AssetDefinition) (e : AssetDefinition × Settings) : Prop :=
  (e.2.get "asset_id").str? = some candidate.assetId

/-- What iterating over the markers of an upgrade entry gives. -/
def entryItems (e : AssetDefinition × Settings) : Except PyError (List Value) :=
  (e.2.getD "required_markers" (.list [])).items

/-- The markers of an upgrade entry allow the upgrade: none is required, or a required one is
observed, and the observed ones name more than techniques and tactics. -/
def Allows (matchedMarkers : List String) (e : AssetDefinition × Settings) : Prop :=
  ∃ items, entryItems e = .ok items ∧
    ¬ (Value.strings items ≠ [] ∧
      sortedSet ((Value.strings items).filter (· ∈ matchedMarkers)) = []) ∧
    ¬ (sortedSet ((Value.strings items).filter (· ∈ matchedMarkers)) ≠ [] ∧
      hasConcreteDependencyMarker
        (sortedSet ((Value.strings items).filter (· ∈ matchedMarkers))) = false)

/-- Every entry about the candidate that is looked at has markers that can be iterated over: the
entries up to the first that allows the upgrade. -/
def EntriesReadable (candidate : AssetDefinition) (matchedMarkers : List String)
    (es : List (AssetDefinition × Settings)) : Prop :=
  ∀ pre e post, es = pre ++ e :: post → NamesCandidate candidate e →
    (∀ p ∈ pre, NamesCandidate candidate p → ¬ Allows matchedMarkers p) →
      ∃ items, entryItems e = .ok items

theorem entriesReadable_cons {candidate : AssetDefinition} {matchedMarkers : List String}
    {e : AssetDefinition × Settings} {es : List (AssetDefinition × Settings)} :
    EntriesReadable candidate matchedMarkers (e :: es) ↔
      (NamesCandidate candidate e → ∃ items, entryItems e = .ok items) ∧
        ((NamesCandidate candidate e → ¬ Allows matchedMarkers e) →
          EntriesReadable candidate matchedMarkers es) := by
  constructor
  · intro h
    refine ⟨fun hnames => h [] e es rfl hnames (by simp),
      fun hnot pre e' post hes hnames hpre => ?_⟩
    refine h (e :: pre) e' post (by rw [hes, List.cons_append]) hnames ?_
    exact List.forall_mem_cons.mpr ⟨hnot, hpre⟩
  · rintro ⟨hhead, htail⟩ pre e' post hes hnames hpre
    cases pre with
    | nil =>
      obtain ⟨rfl, rfl⟩ := List.cons_eq_cons.mp hes
      exact hhead hnames
    | cons p pre =>
      obtain ⟨rfl, rfl⟩ := List.cons_eq_cons.mp hes
      rw [List.forall_mem_cons] at hpre
      exact htail hpre.1 pre e' post rfl hnames hpre.2

/-- **The scan of the upgrade entries raises** iff an entry it looks at cannot be read. -/
theorem scanUpgrades_ok_iff {candidate : AssetDefinition} {matchedMarkers : List String}
    {es : List (AssetDefinition × Settings)} :
    (∃ u, scanUpgrades candidate matchedMarkers es = .ok u) ↔
      EntriesReadable candidate matchedMarkers es := by
  induction es with
  | nil =>
    refine ⟨fun _ pre e post hes => absurd hes (by simp), fun _ => ⟨none, rfl⟩⟩
  | cons e es ih =>
    rw [entriesReadable_cons, scanUpgrades]
    by_cases hnames : NamesCandidate candidate e
    · have hskip : ¬ (e.2.get "asset_id").str? ≠ some candidate.assetId := not_not.mpr hnames
      rw [if_neg hskip]
      simp only [hnames, forall_const]
      rw [show (e.2.getD "required_markers" (.list [])).items = entryItems e from rfl]
      cases hitems : entryItems e with
      | error err => simp [bind, Except.bind]
      | ok items =>
        have hallows : Allows matchedMarkers e ↔ _ :=
          ⟨fun ⟨_, h, h'⟩ => Except.ok.inj (h.symm.trans hitems) ▸ h', fun h => ⟨items, hitems, h⟩⟩
        simp only [bind, Except.bind, Except.ok.injEq, exists_eq', true_and, ← ih, hallows]
        by_cases h₁ : Value.strings items ≠ [] ∧
            sortedSet ((Value.strings items).filter (· ∈ matchedMarkers)) = []
        · rw [if_pos h₁]
          exact ⟨fun h _ => h, fun h => h fun hnot => hnot.1 h₁⟩
        rw [if_neg h₁]
        by_cases h₂ : sortedSet ((Value.strings items).filter (· ∈ matchedMarkers)) ≠ [] ∧
            hasConcreteDependencyMarker
              (sortedSet ((Value.strings items).filter (· ∈ matchedMarkers))) = false
        · rw [if_pos h₂]
          exact ⟨fun h _ => h, fun h => h fun hnot => hnot.2 h₂⟩
        · rw [if_neg h₂]
          exact ⟨fun _ h => absurd ⟨h₁, h₂⟩ h, fun _ => ⟨_, rfl⟩⟩
    · have hskip : (e.2.get "asset_id").str? ≠ some candidate.assetId := hnames
      rw [if_pos hskip, ih]
      simp [hnames]

/-- A number that can be made a float. -/
def NumberReadable (ctl : ControllerService F) (value : Value) : Prop :=
  ∀ number, ctl.float.number? value = some number → ∃ x, number = .ok x

theorem telemetryValue_ok_iff {asset : AssetDefinition} :
    (∃ x, telemetryValue ctl asset = .ok x) ↔
      NumberReadable ctl ((selectionProfile asset).get "telemetry_value") := by
  rw [telemetryValue, NumberReadable]
  cases hnumber : ctl.float.number? ((selectionProfile asset).get "telemetry_value") with
  | none =>
    simp only
    refine ⟨fun _ number h => absurd h (by simp), fun _ => ?_⟩
    split <;> exact ⟨_, rfl⟩
  | some number =>
    simp only [map_eq_ok, Option.some.injEq, forall_eq']
    exact ⟨fun ⟨_, x, hx, _⟩ => ⟨x, hx⟩, fun ⟨x, hx⟩ => ⟨_, x, hx, rfl⟩⟩

/-- The telemetry value of a variant, or of its target when it has none, can be made a float. -/
def VariantReadable (ctl : ControllerService F) (variant : Settings) (fallback : AssetDefinition) :
    Prop :=
  NumberReadable ctl (variant.get "telemetry_value") ∧
    (ctl.float.number? (variant.get "telemetry_value") = none →
      NumberReadable ctl ((selectionProfile fallback).get "telemetry_value"))

theorem variantTelemetryValue_ok_iff {variant : Settings} {fallback : AssetDefinition} :
    (∃ x, variantTelemetryValue ctl variant fallback = .ok x) ↔
      VariantReadable ctl variant fallback := by
  rw [variantTelemetryValue, VariantReadable, ← telemetryValue_ok_iff, NumberReadable]
  cases hnumber : ctl.float.number? (variant.get "telemetry_value") with
  | none => simp
  | some number =>
    simp only [map_eq_ok, Option.some.injEq, forall_eq', reduceCtorEq, false_implies, and_true]
    exact ⟨fun ⟨_, x, hx, _⟩ => ⟨x, hx⟩, fun ⟨x, hx⟩ => ⟨_, x, hx, rfl⟩⟩

/-- **What a pass reads can be read**: of the assets that pass the gates the telemetry value and
the upgrade entries, of the offered configurations the telemetry value. -/
structure PassReadable (ctl : ControllerService F) (request : ControllerTickRequest F)
    (planned : List String) : Prop where
  unlocks : ∀ asset ∈ requestAssets ctl request, Eligible ctl request planned asset →
    coveredTechniques asset ≠ [] →
      NumberReadable ctl ((selectionProfile asset).get "telemetry_value") ∧
        EntriesReadable asset (matchedDependencyMarkers asset request)
          (openUpgrades (requestAssets ctl request) planned)
  configurations : ∀ source variant id, OfferedVariant ctl request planned source variant id →
    VariantReadable ctl variant ((targetAsset? (requestAssets ctl request) variant).getD source)

theorem assetRevealOption_ok_iff {asset : AssetDefinition} :
    (∃ o, assetRevealOption ctl (requestAssets ctl request) request asset planned = .ok o) ↔
      (coveredTechniques asset ≠ [] →
        NumberReadable ctl ((selectionProfile asset).get "telemetry_value") ∧
          EntriesReadable asset (matchedDependencyMarkers asset request)
            (openUpgrades (requestAssets ctl request) planned)) := by
  rw [assetRevealOption, ← telemetryValue_ok_iff, ← scanUpgrades_ok_iff, ← upgradeContext]
  by_cases hcovered : coveredTechniques asset = []
  · simp [hcovered]
  · rw [if_neg hcovered]
    simp only [bind_eq_ok, pure, Except.pure, Except.ok.injEq, ne_eq, hcovered, not_false_eq_true,
      forall_const]
    exact ⟨fun ⟨_, x, hx, u, hu, _⟩ => ⟨⟨x, hx⟩, u, hu⟩,
      fun ⟨⟨x, hx⟩, u, hu⟩ => ⟨_, x, hx, u, hu, rfl⟩⟩

theorem variantOption_ok_iff {source : AssetDefinition} {variant : Settings} :
    (∃ o, variantOption ctl (requestAssets ctl request) request source planned variant = .ok o) ↔
      ∀ id, stringOrNone (variant.get "configuration_id") = some id →
        variantSkipped ctl (requestAssets ctl request) request source planned variant id = false →
          VariantReadable ctl variant
            ((targetAsset? (requestAssets ctl request) variant).getD source) := by
  rw [variantOption]
  cases hid : stringOrNone (variant.get "configuration_id") with
  | none => simp
  | some id =>
    simp only [Option.some.injEq, forall_eq', ← variantTelemetryValue_ok_iff]
    by_cases hskipped : variantSkipped ctl (requestAssets ctl request) request source planned
        variant id = true
    · simp [hskipped]
    · have hoffered := Bool.eq_false_iff.mpr hskipped
      rw [if_neg hskipped]
      simp only [bind_eq_ok, pure, Except.pure, Except.ok.injEq, hoffered, forall_const]
      exact ⟨fun ⟨_, x, hx, _⟩ => ⟨x, hx⟩, fun ⟨x, hx⟩ => ⟨_, x, hx, rfl⟩⟩

theorem revealOptions_ok_iff :
    (∃ options, revealOptions ctl (requestAssets ctl request) request planned = .ok options) ↔
      PassReadable ctl request planned := by
  have hsplit : (∃ options,
      revealOptions ctl (requestAssets ctl request) request planned = .ok options) ↔
      (∃ unlocks, collect (fun asset =>
          assetRevealOption ctl (requestAssets ctl request) request asset planned)
        ((requestAssets ctl request).filter fun asset =>
          (eligibility ctl asset request planned).1) = .ok unlocks) ∧
        ∃ configurations, configurationRevealOptions ctl (requestAssets ctl request) request
          planned = .ok configurations := by
    simp only [revealOptions_eq_ok]
    exact ⟨fun ⟨_, x, y, hx, hy, _⟩ => ⟨⟨x, hx⟩, y, hy⟩,
      fun ⟨⟨x, hx⟩, y, hy⟩ => ⟨_, x, y, hx, hy, rfl⟩⟩
  rw [hsplit, configurationRevealOptions, collect_ok_iff, collect_ok_iff]
  simp only [assetRevealOption_ok_iff, variantOption_ok_iff, mem_openVariants, List.mem_filter,
    eligibility_iff]
  constructor
  · rintro ⟨hunlocks, hconfigurations⟩
    exact ⟨fun asset hasset heligible => hunlocks asset ⟨hasset, heligible⟩,
      fun source variant id h => hconfigurations (source, variant)
        ⟨h.source_mem, h.source_open, h.variant_mem⟩ id h.id_eq h.not_skipped⟩
  · rintro ⟨hunlocks, hconfigurations⟩
    exact ⟨fun asset hasset => hunlocks asset hasset.1 hasset.2, fun e he id hid hskipped =>
      hconfigurations e.1 e.2 id ⟨he.1, he.2.1, he.2.2, hid, hskipped⟩⟩

/-- **A pass raises** iff something it reads cannot be read. -/
theorem pass_ok_iff (strategy : Strategy) (exploit : Option (CandidateScore F))
    (rejected : Dict String String) :
    (∃ p, pass ctl request strategy exploit planned rejected = .ok p) ↔
      PassReadable ctl request planned := by
  rw [← revealOptions_ok_iff, pass]
  simp only [bind_eq_ok, pure, Except.pure, Except.ok.injEq]
  exact ⟨fun ⟨_, o, ho, _⟩ => ⟨o, ho⟩, fun ⟨o, ho⟩ => ⟨_, o, ho, rfl⟩⟩

/-- The recommendations of a request. -/
def recommendationsOf (ctl : ControllerService F) (request : ControllerTickRequest F) :
    Dict String F :=
  if ctl.usePriorSupport then
    ctl.recommend (thresholdedObservedTechniques ctl request.profile) else []

/-- What a pass finds, by its options. -/
theorem pass_eq_ok_iff {strategy : Strategy} {exploit : Option (CandidateScore F)}
    {rejected : Dict String String} {p : Pass F} :
    pass ctl request strategy exploit planned rejected = .ok p ↔
      ∃ options, revealOptions ctl (requestAssets ctl request) request planned = .ok options ∧
        p.candidates = options.filterMap (scoreRevealOption ctl request strategy exploit
          (thresholdedObservedTechniques ctl request.profile) (recommendationsOf ctl request)) ∧
        p.rejected = recordRefusals ctl (requestAssets ctl request) request planned rejected ∧
        p.selected = selectCandidate ctl p.candidates := by
  rw [pass]
  simp only [bind_eq_ok, pure, Except.pure, Except.ok.injEq]
  constructor
  · rintro ⟨options, hoptions, rfl⟩
    exact ⟨options, hoptions, rfl, rfl, rfl⟩
  · rintro ⟨options, hoptions, hcandidates, hrejected, hselected⟩
    refine ⟨options, hoptions, ?_⟩
    obtain ⟨candidates, rejected', selected⟩ := p
    simp only at hcandidates hrejected hselected
    subst hcandidates hrejected hselected
    rfl

theorem selected_mem {strategy : Strategy} {exploit : Option (CandidateScore F)}
    {rejected : Dict String String} {p : Pass F}
    (h : pass ctl request strategy exploit planned rejected = .ok p) {c : CandidateScore F}
    (hc : p.selected = some c) : c ∈ p.candidates := by
  obtain ⟨_, _, _, _, hselected⟩ := pass_eq_ok_iff.mp h
  exact firstBest_mem (hselected.symm.trans hc)

theorem selectCandidate_isSome (ctl : ControllerService F) {candidates : List (CandidateScore F)}
    {e : CandidateScore F} (h : e ∈ candidates) : ∃ d, selectCandidate ctl candidates = some d := by
  cases candidates with
  | nil => exact absurd h List.not_mem_nil
  | cons a as => exact ⟨_, rfl⟩

/-- A candidate is the score of an option. -/
theorem candidate_scored {strategy : Strategy} {exploit : Option (CandidateScore F)}
    {rejected : Dict String String} {p : Pass F}
    (h : pass ctl request strategy exploit planned rejected = .ok p) {c : CandidateScore F}
    (hc : c ∈ p.candidates) :
    ∃ options, revealOptions ctl (requestAssets ctl request) request planned = .ok options ∧
      ∃ o ∈ options, scoreRevealOption ctl request strategy exploit
        (thresholdedObservedTechniques ctl request.profile) (recommendationsOf ctl request) o =
          some c := by
  obtain ⟨options, hoptions, hcandidates, _, _⟩ := pass_eq_ok_iff.mp h
  rw [hcandidates] at hc
  exact ⟨options, hoptions, List.mem_filterMap.mp hc⟩

/-- **A candidate** is offered. -/
theorem candidate_offered {strategy : Strategy} {exploit : Option (CandidateScore F)}
    {rejected : Dict String String} {p : Pass F}
    (h : pass ctl request strategy exploit planned rejected = .ok p) {c : CandidateScore F}
    (hc : c ∈ p.candidates) :
    Offered ctl request planned c.asset c.actionType c.configurationId c.targetAssetId
      c.coveredTechniques := by
  obtain ⟨options, hoptions, o, ho, hscore⟩ := candidate_scored h hc
  have hspec := scoreRevealOption_spec hscore
  rw [hspec.asset, hspec.actionType, hspec.configurationId, hspec.targetAssetId,
    hspec.coveredTechniques]
  exact revealOptions_offered hoptions ho

/-- **What a pass selects** is offered, and scored in the pass's way. -/
theorem pass_selected {strategy : Strategy} {exploit : Option (CandidateScore F)}
    {rejected : Dict String String} {p : Pass F}
    (h : pass ctl request strategy exploit planned rejected = .ok p) {c : CandidateScore F}
    (hc : p.selected = some c) :
    Offered ctl request planned c.asset c.actionType c.configurationId c.targetAssetId
        c.coveredTechniques ∧
      ∃ o, ScoredAs ctl request strategy exploit (thresholdedObservedTechniques ctl request.profile)
        (recommendationsOf ctl request) o c := by
  have hmem := selected_mem h hc
  obtain ⟨_, _, o, _, hscore⟩ := candidate_scored h hmem
  exact ⟨candidate_offered h hmem, o, scoreRevealOption_spec hscore⟩

end Honeynet.Controller
