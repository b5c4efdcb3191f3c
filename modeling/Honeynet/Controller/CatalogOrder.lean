import Honeynet.Controller.Reordering
import Honeynet.Controller.Exposure

/-!
# The order of the catalog

Two configurations of different assets that expose the same target can be equal in all that
candidates are compared by, and then the one that comes first in the catalog is selected.

* `Leader`: a candidate whose asset is ahead of all others.
* `OrderSafe`: both passes have a leader, or nothing to select, and can be read in every order.
* `tick_order_independent_iff`: a tick answers the same in every order of the catalog exactly then.
-/

namespace Honeynet.Controller

open Collections Fallible Selection

variable {F : Type} {ctl : ControllerService F} {request : ControllerTickRequest F}
  {planned : List String} {assets' : List AssetDefinition}

/-! ### The candidates of an asset -/

section Blocks

variable {strategy : Strategy} {exploit : Option (CandidateScore F)} {assets : List AssetDefinition}
  {c d : CandidateScore F}

theorem mem_unlockCandidates {asset : AssetDefinition} :
    c ∈ unlockCandidates ctl assets request strategy exploit planned asset ↔
      Eligible ctl request planned asset ∧ ∃ o c',
        assetRevealOption ctl assets request asset planned = .ok (some o) ∧
        scoreOption ctl request strategy exploit o = some c' ∧ c'.plain = c := by
  rw [← eligibility_iff, unlockCandidates]
  by_cases heligible : (eligibility ctl asset request planned).1 = true
  · rw [if_pos heligible, Option.mem_toList, Option.map_eq_some_iff]
    simp only [Option.bind_eq_some_iff, toOption_join_eq_some, heligible, true_and]
    constructor
    · rintro ⟨c', ⟨o, ho, hc'⟩, rfl⟩
      exact ⟨o, c', ho, hc', rfl⟩
    · rintro ⟨o, c', ho, hc', rfl⟩
      exact ⟨c', ⟨o, ho, hc'⟩, rfl⟩
  · rw [if_neg heligible]
    exact ⟨fun h => absurd h List.not_mem_nil, fun h => absurd h.1 heligible⟩

theorem mem_configureCandidates {source : AssetDefinition} :
    c ∈ configureCandidates ctl assets request strategy exploit planned source ↔
      source.assetId ∈ request.unlockedAssetIds ∧ ∃ variant ∈ configurationVariants source,
        ∃ o c', variantOption ctl assets request source planned variant = .ok (some o) ∧
          scoreOption ctl request strategy exploit o = some c' ∧ c'.plain = c := by
  rw [configureCandidates]
  by_cases hopen : source.assetId ∈ request.unlockedAssetIds
  · rw [if_pos hopen, List.mem_filterMap]
    simp only [Option.map_eq_some_iff, Option.bind_eq_some_iff, toOption_join_eq_some, hopen,
      true_and]
    constructor
    · rintro ⟨variant, hvariant, c', ⟨o, ho, hc'⟩, rfl⟩
      exact ⟨variant, hvariant, o, c', ho, hc', rfl⟩
    · rintro ⟨variant, hvariant, o, c', ho, hc', rfl⟩
      exact ⟨variant, hvariant, c', ⟨o, ho, hc'⟩, rfl⟩
  · rw [if_neg hopen]
    exact ⟨fun h => absurd h List.not_mem_nil, fun h => absurd h.1 hopen⟩

/-- A candidate of an unlock has the rank of an unlock or that of the bootstrap. -/
theorem unlockCandidates_spec {asset : AssetDefinition}
    (h : c ∈ unlockCandidates ctl assets request strategy exploit planned asset) :
    c.asset = asset ∧ c.actionType = .unlock ∧ c.configurationId = none ∧
      structuralPriorityRank c ≠ 1 := by
  obtain ⟨_, o, c', ho, hc', rfl⟩ := mem_unlockCandidates.mp h
  obtain ⟨_, telemetry, upgrade, _, _, rfl⟩ := assetRevealOption_eq_some.mp ho
  have hspec := scoreRevealOption_spec hc'
  have htype : c'.plain.actionType = .unlock := hspec.actionType
  refine ⟨hspec.asset, htype, hspec.configurationId, ?_⟩
  rw [structuralPriorityRank, htype]
  split_ifs <;> simp_all

theorem configureCandidates_spec {source : AssetDefinition}
    (h : c ∈ configureCandidates ctl assets request strategy exploit planned source) :
    c.asset = source ∧ c.actionType = .configure ∧ structuralPriorityRank c = 1 := by
  obtain ⟨_, variant, _, o, c', ho, hc', rfl⟩ := mem_configureCandidates.mp h
  obtain ⟨id, telemetry, _, _, _, rfl⟩ := variantOption_eq_some.mp ho
  have hspec := scoreRevealOption_spec hc'
  have htype : c'.plain.actionType = .configure := hspec.actionType
  obtain ⟨_, _, hcandidate⟩ := scoreRevealOption_type hc'
  have hconfiguration : c'.plain.candidateType = "configuration" := hcandidate
  refine ⟨hspec.asset, htype, ?_⟩
  rw [structuralPriorityRank, if_neg (by simp [hconfiguration]), if_pos htype]

/-- **The candidates of a pass** come in two groups, and an asset has candidates in one of them. -/
theorem twoGroups (hplanned : request.unlockedAssetIds ⊆ planned) :
    TwoGroups (candidateBefore ctl)
      (unlockCandidates ctl assets request strategy exploit planned)
      (configureCandidates ctl assets request strategy exploit planned) CandidateScore.asset where
  owner_eq asset c hc := by
    rcases List.mem_append.mp hc with hunlock | hconfigure
    · exact (unlockCandidates_spec hunlock).1
    · exact (configureCandidates_spec hconfigure).1
  one_group asset := by
    by_cases hopen : asset.assetId ∈ request.unlockedAssetIds
    · refine Or.inl (List.eq_nil_iff_forall_not_mem.mpr fun c hc => ?_)
      exact (mem_unlockCandidates.mp hc).1.locked (hplanned hopen)
    · exact Or.inr (by rw [configureCandidates, if_neg hopen])
  apart asset c hc := by
    have hrank := (unlockCandidates_spec hc).2.2.2
    rcases hrank.lt_or_gt with hlow | hhigh
    · refine Or.inr fun source d hd => candidateBefore_of_rank ctl ?_
      rwa [(configureCandidates_spec hd).2.2]
    · refine Or.inl fun source d hd => candidateBefore_of_rank ctl ?_
      rwa [(configureCandidates_spec hd).2.2]

/-- An asset has one unlock. -/
theorem unlockCandidates_unique
    (hids : (assets.map AssetDefinition.assetId).Nodup)
    (hc : c ∈ assets.flatMap (unlockCandidates ctl assets request strategy exploit planned))
    (hd : d ∈ assets.flatMap (unlockCandidates ctl assets request strategy exploit planned))
    (hasset : c.asset.assetId = d.asset.assetId) : c = d := by
  obtain ⟨a, ha, hca⟩ := List.mem_flatMap.mp hc
  obtain ⟨b, hb, hdb⟩ := List.mem_flatMap.mp hd
  rw [(unlockCandidates_spec hca).1, (unlockCandidates_spec hdb).1] at hasset
  obtain rfl := List.inj_on_of_nodup_map hids ha hb hasset
  obtain ⟨_, o, c', ho, hc', rfl⟩ := mem_unlockCandidates.mp hca
  obtain ⟨_, o', d', ho', hd', rfl⟩ := mem_unlockCandidates.mp hdb
  obtain rfl := Option.some.inj (Except.ok.inj (ho.symm.trans ho'))
  rw [Option.some.inj (hc'.symm.trans hd')]

/-- The configuration id is that of one variant of the asset. -/
theorem configureCandidates_unique (hids : DistinctIds assets)
    (hc : c ∈ assets.flatMap (configureCandidates ctl assets request strategy exploit planned))
    (hd : d ∈ assets.flatMap (configureCandidates ctl assets request strategy exploit planned))
    (hasset : c.asset.assetId = d.asset.assetId) (hid : c.configurationId = d.configurationId) :
    c = d := by
  obtain ⟨a, ha, hca⟩ := List.mem_flatMap.mp hc
  obtain ⟨b, hb, hdb⟩ := List.mem_flatMap.mp hd
  rw [(configureCandidates_spec hca).1, (configureCandidates_spec hdb).1] at hasset
  obtain rfl := List.inj_on_of_nodup_map hids.assetIds ha hb hasset
  obtain ⟨_, variant, hvariant, o, c', ho, hc', rfl⟩ := mem_configureCandidates.mp hca
  obtain ⟨_, variant', hvariant', o', d', ho', hd', rfl⟩ := mem_configureCandidates.mp hdb
  obtain ⟨id, telemetry, hvid, _, _, hoption⟩ := variantOption_eq_some.mp ho
  obtain ⟨id', telemetry', hvid', _, _, hoption'⟩ := variantOption_eq_some.mp ho'
  have hcid : c'.configurationId = some id := by
    rw [(scoreRevealOption_spec hc').configurationId, hoption]
    rfl
  have hdid : d'.configurationId = some id' := by
    rw [(scoreRevealOption_spec hd').configurationId, hoption']
    rfl
  have hids' : id = id' := Option.some.inj (hcid.symm.trans (hid.trans hdid))
  obtain rfl := eq_of_nodup_filterMap (hids.configurationIds a ha) hvariant hvariant' hvid
    (hids' ▸ hvid')
  obtain rfl := Option.some.inj (Except.ok.inj (ho.symm.trans ho'))
  rw [Option.some.inj (hc'.symm.trans hd')]

/-- **What an action tells** of a candidate says which one it is. -/
theorem candidate_unique (hids : DistinctIds assets)
    (hc : c ∈ assets.flatMap (unlockCandidates ctl assets request strategy exploit planned) ++
      assets.flatMap (configureCandidates ctl assets request strategy exploit planned))
    (hd : d ∈ assets.flatMap (unlockCandidates ctl assets request strategy exploit planned) ++
      assets.flatMap (configureCandidates ctl assets request strategy exploit planned))
    (htype : c.actionType = d.actionType) (hasset : c.asset.assetId = d.asset.assetId)
    (hid : c.configurationId = d.configurationId) : c = d := by
  rcases List.mem_append.mp hc with hc | hc <;> rcases List.mem_append.mp hd with hd | hd
  · exact unlockCandidates_unique hids.assetIds hc hd hasset
  · obtain ⟨a, _, hca⟩ := List.mem_flatMap.mp hc
    obtain ⟨b, _, hdb⟩ := List.mem_flatMap.mp hd
    rw [(unlockCandidates_spec hca).2.1, (configureCandidates_spec hdb).2.1] at htype
    exact absurd htype (by decide)
  · obtain ⟨a, _, hca⟩ := List.mem_flatMap.mp hc
    obtain ⟨b, _, hdb⟩ := List.mem_flatMap.mp hd
    rw [(configureCandidates_spec hca).2.1, (unlockCandidates_spec hdb).2.1] at htype
    exact absurd htype (by decide)
  · exact configureCandidates_unique hids hc hd hasset hid

end Blocks

/-! ### Passes over a reordered catalog -/

/-- The candidates of a pass over the assets in this order. -/
def candidateBlocks (ctl : ControllerService F) (request : ControllerTickRequest F)
    (strategy : Strategy) (exploit : Option (CandidateScore F)) (planned : List String)
    (assets : List AssetDefinition) : List (CandidateScore F) :=
  assets.flatMap
      (unlockCandidates ctl (requestAssets ctl request) request strategy exploit planned) ++
    assets.flatMap
      (configureCandidates ctl (requestAssets ctl request) request strategy exploit planned)

section Passes

variable {strategy : Strategy} {exploit exploit' : Option (CandidateScore F)}
  {rejected rejected' : Dict String String} {p p' : Pass F}

theorem pass_withCatalog_self (ctl : ControllerService F) (request : ControllerTickRequest F)
    (strategy : Strategy) (exploit : Option (CandidateScore F)) (planned : List String)
    (rejected : Dict String String) :
    pass ctl (withCatalog request (requestAssets ctl request)) strategy exploit planned rejected =
      pass ctl request strategy exploit planned rejected := by
  rw [pass, pass, requestAssets_withCatalog (List.Perm.refl _)]
  rfl

theorem scoreOption_congr
    (h : exploit'.map CandidateScore.plain = exploit.map CandidateScore.plain) :
    scoreOption ctl request strategy exploit' = scoreOption ctl request strategy exploit := by
  funext o
  cases exploit' with
  | none =>
    cases exploit with
    | none => rfl
    | some c => exact absurd h (by simp)
  | some c' =>
    cases exploit with
    | none => exact absurd h (by simp)
    | some c =>
      have hplain : c'.plain = c.plain := Option.some.inj h
      rw [← scoreOption_exploit c', hplain, scoreOption_exploit]

/-- **A pass over the reordered catalog** finds the candidates of the pass over the catalog, asset
by asset. -/
theorem pass_reordered (hids : ((requestAssets ctl request).map AssetDefinition.assetId).Nodup)
    (hperm : assets'.Perm (requestAssets ctl request))
    (hexploit : exploit'.map CandidateScore.plain = exploit.map CandidateScore.plain)
    (h : pass ctl request strategy exploit planned rejected = .ok p)
    (h' : pass ctl (withCatalog request assets') strategy exploit' planned rejected' = .ok p') :
    p'.candidates.map CandidateScore.plain =
      candidateBlocks ctl request strategy exploit planned assets' := by
  obtain ⟨options, hoptions, _⟩ := pass_eq_ok_iff.mp h
  obtain ⟨options', hoptions', hcandidates', _⟩ := pass_eq_ok_iff.mp h'
  rw [requestAssets_withCatalog hperm] at hoptions'
  have hfound : p'.candidates = options'.filterMap (scoreOption ctl request strategy exploit) := by
    rw [← scoreOption_congr hexploit]
    exact hcandidates'
  have hread : revealOptions ctl assets' request planned = .ok options' := hoptions'
  rw [hfound, candidates_plain hread, candidateBlocks, configureCandidates_reordered hids hperm]
  congr 1
  refine List.flatMap_congr fun asset hasset => ?_
  exact unlockCandidates_reordered hperm hoptions hread (hperm.mem_iff.mp hasset)

theorem pass_blocks (h : pass ctl request strategy exploit planned rejected = .ok p) :
    p.candidates.map CandidateScore.plain =
      candidateBlocks ctl request strategy exploit planned (requestAssets ctl request) := by
  obtain ⟨options, hoptions, hcandidates, _⟩ := pass_eq_ok_iff.mp h
  have hfound : p.candidates = options.filterMap (scoreOption ctl request strategy exploit) :=
    hcandidates
  rw [hfound, candidates_plain hoptions, candidateBlocks]

theorem candidateBefore_plain (c d : CandidateScore F) :
    candidateBefore ctl c.plain d.plain = candidateBefore ctl c d := rfl

theorem selectCandidate_plain (ctl : ControllerService F) (candidates : List (CandidateScore F)) :
    (selectCandidate ctl candidates).map CandidateScore.plain =
      best (candidateBefore ctl) (candidates.map CandidateScore.plain) := by
  rw [selectCandidate_eq, best_map fun c d => candidateBefore_plain c d]

theorem selected_plain (h : pass ctl request strategy exploit planned rejected = .ok p) :
    p.selected.map CandidateScore.plain =
      best (candidateBefore ctl) (p.candidates.map CandidateScore.plain) := by
  obtain ⟨_, _, _, _, hselected⟩ := pass_eq_ok_iff.mp h
  rw [hselected, selectCandidate_plain]

/-! ### Leaders -/

/-- The candidates of one asset. -/
def candidatesOf (id : String) (candidates : List (CandidateScore F)) : List (CandidateScore F) :=
  candidates.filter fun c => c.asset.assetId = id

/-- The best candidate of one asset comes before the best one of every other asset. -/
def Leader (ctl : ControllerService F) (candidates : List (CandidateScore F))
    (w : CandidateScore F) : Prop :=
  ∃ id, selectCandidate ctl (candidatesOf id candidates) = some w ∧
    ∀ id' ≠ id, ∀ v, selectCandidate ctl (candidatesOf id' candidates) = some v →
      candidateBefore ctl w v = true

theorem candidatesOf_plain (id : String) (candidates : List (CandidateScore F)) :
    (candidatesOf id candidates).map CandidateScore.plain =
      candidatesOf id (candidates.map CandidateScore.plain) := by
  rw [candidatesOf, candidatesOf, List.filter_map]
  rfl

/-- The candidates of one asset are those it comes with. -/
theorem candidatesOf_blocks
    (hids : ((requestAssets ctl request).map AssetDefinition.assetId).Nodup)
    {asset : AssetDefinition} (hasset : asset ∈ requestAssets ctl request) :
    candidatesOf asset.assetId
        (candidateBlocks ctl request strategy exploit planned (requestAssets ctl request)) =
      unlockCandidates ctl (requestAssets ctl request) request strategy exploit planned asset ++
        configureCandidates ctl (requestAssets ctl request) request strategy exploit planned
          asset := by
  rw [candidatesOf, candidateBlocks, List.filter_append,
    filter_flatMap_of_nodup (fun c : CandidateScore F => c.asset.assetId) _ hids hasset,
    filter_flatMap_of_nodup (fun c : CandidateScore F => c.asset.assetId) _ hids hasset]
  · exact fun a c hc => by rw [(configureCandidates_spec hc).1]
  · exact fun a c hc => by rw [(unlockCandidates_spec hc).1]

/-- The best candidate of one asset. -/
theorem best_of_asset (hids : ((requestAssets ctl request).map AssetDefinition.assetId).Nodup)
    (h : pass ctl request strategy exploit planned rejected = .ok p) {asset : AssetDefinition}
    (hasset : asset ∈ requestAssets ctl request) :
    best (candidateBefore ctl)
      (unlockCandidates ctl (requestAssets ctl request) request strategy exploit planned asset ++
        configureCandidates ctl (requestAssets ctl request) request strategy exploit planned
          asset) =
      (selectCandidate ctl (candidatesOf asset.assetId p.candidates)).map CandidateScore.plain := by
  rw [selectCandidate_plain, candidatesOf_plain, pass_blocks h, candidatesOf_blocks hids hasset]

theorem candidatesOf_asset (h : pass ctl request strategy exploit planned rejected = .ok p)
    {id : String} {c : CandidateScore F} (hc : c ∈ candidatesOf id p.candidates) :
    c.asset ∈ requestAssets ctl request ∧ c.asset.assetId = id := by
  obtain ⟨hmem, hid⟩ := List.mem_filter.mp hc
  refine ⟨?_, of_decide_eq_true hid⟩
  cases candidate_offered h hmem with
  | unlock hasset => exact hasset
  | configure _ _ hoffered => exact hoffered.source_mem

theorem leads_of_leader (hids : ((requestAssets ctl request).map AssetDefinition.assetId).Nodup)
    (h : pass ctl request strategy exploit planned rejected = .ok p) {w : CandidateScore F}
    (hw : Leader ctl p.candidates w) : Leads (candidateBefore ctl)
      (unlockCandidates ctl (requestAssets ctl request) request strategy exploit planned)
      (configureCandidates ctl (requestAssets ctl request) request strategy exploit planned)
      (requestAssets ctl request) w.plain := by
  obtain ⟨id, hbest, hothers⟩ := hw
  obtain ⟨hasset, rfl⟩ := candidatesOf_asset h (firstBest_mem hbest)
  refine ⟨w.asset, hasset, ?_, fun asset' hasset' hne v hv => ?_⟩
  · rw [best_of_asset hids h hasset, hbest, Option.map_some]
  · rw [best_of_asset hids h hasset'] at hv
    obtain ⟨v', hv', rfl⟩ := Option.map_eq_some_iff.mp hv
    refine hothers asset'.assetId (fun heq => hne ?_) v' hv'
    exact List.inj_on_of_nodup_map hids hasset' hasset heq

theorem leader_of_leads (hids : ((requestAssets ctl request).map AssetDefinition.assetId).Nodup)
    (h : pass ctl request strategy exploit planned rejected = .ok p) {w : CandidateScore F}
    (hw : Leads (candidateBefore ctl)
      (unlockCandidates ctl (requestAssets ctl request) request strategy exploit planned)
      (configureCandidates ctl (requestAssets ctl request) request strategy exploit planned)
      (requestAssets ctl request) w) : ∃ w', Leader ctl p.candidates w' ∧ w'.plain = w := by
  obtain ⟨asset, hasset, hbest, hothers⟩ := hw
  rw [best_of_asset hids h hasset] at hbest
  obtain ⟨w', hw', rfl⟩ := Option.map_eq_some_iff.mp hbest
  refine ⟨w', ⟨asset.assetId, hw', fun id' hne v hv => ?_⟩, rfl⟩
  obtain ⟨hasset', rfl⟩ := candidatesOf_asset h (firstBest_mem hv)
  refine hothers v.asset hasset' (fun heq => hne (by rw [heq])) v.plain ?_
  rw [best_of_asset hids h hasset', hv, Option.map_some]

/-- **A leader is selected** in every order. -/
theorem selected_of_leader (order : GapOrder fun a b => candidateBefore ctl a b = true)
    (hids : ((requestAssets ctl request).map AssetDefinition.assetId).Nodup)
    (hplanned : request.unlockedAssetIds ⊆ planned)
    (hperm : assets'.Perm (requestAssets ctl request))
    (hexploit : exploit'.map CandidateScore.plain = exploit.map CandidateScore.plain)
    (h : pass ctl request strategy exploit planned rejected = .ok p)
    (h' : pass ctl (withCatalog request assets') strategy exploit' planned rejected' = .ok p')
    {w : CandidateScore F} (hw : Leader ctl p.candidates w) :
    p'.selected.map CandidateScore.plain = some w.plain := by
  rw [selected_plain h', pass_reordered hids hperm hexploit h h', candidateBlocks]
  exact best_perm_of_leads order (twoGroups hplanned) (List.Nodup.of_map _ hids)
    (leads_of_leader hids h hw) hperm

/-- **What is selected in every order** is a leader. -/
theorem leader_of_selected (order : GapOrder fun a b => candidateBefore ctl a b = true)
    (hids : ((requestAssets ctl request).map AssetDefinition.assetId).Nodup)
    (hplanned : request.unlockedAssetIds ⊆ planned)
    (h : pass ctl request strategy exploit planned rejected = .ok p) {w : CandidateScore F}
    (hw : ∀ assets' : List AssetDefinition, assets'.Perm (requestAssets ctl request) →
      best (candidateBefore ctl) (candidateBlocks ctl request strategy exploit planned assets') =
        some w) : ∃ w', Leader ctl p.candidates w' ∧ w'.plain = w :=
  leader_of_leads hids h (leads_of_best_perm order hw (twoGroups hplanned))

theorem mem_candidateBlocks_perm (hperm : assets'.Perm (requestAssets ctl request))
    {c : CandidateScore F} : c ∈ candidateBlocks ctl request strategy exploit planned assets' ↔
      c ∈ candidateBlocks ctl request strategy exploit planned (requestAssets ctl request) := by
  simp only [candidateBlocks, List.mem_append, List.mem_flatMap, hperm.mem_iff]

/-- A pass finds something in every order or in none. -/
theorem candidates_nil_iff (hids : ((requestAssets ctl request).map AssetDefinition.assetId).Nodup)
    (hperm : assets'.Perm (requestAssets ctl request))
    (hexploit : exploit'.map CandidateScore.plain = exploit.map CandidateScore.plain)
    (h : pass ctl request strategy exploit planned rejected = .ok p)
    (h' : pass ctl (withCatalog request assets') strategy exploit' planned rejected' = .ok p') :
    p'.candidates = [] ↔ p.candidates = [] := by
  rw [← List.map_eq_nil_iff (f := CandidateScore.plain),
    ← List.map_eq_nil_iff (f := CandidateScore.plain) (l := p.candidates),
    pass_reordered hids hperm hexploit h h', pass_blocks h, List.eq_nil_iff_forall_not_mem,
    List.eq_nil_iff_forall_not_mem]
  simp only [mem_candidateBlocks_perm hperm]

theorem selected_eq_none_iff (h : pass ctl request strategy exploit planned rejected = .ok p) :
    p.selected = none ↔ p.candidates = [] := by
  obtain ⟨_, _, _, _, hselected⟩ := pass_eq_ok_iff.mp h
  rw [hselected]
  cases p.candidates with
  | nil => exact ⟨fun _ => rfl, fun _ => rfl⟩
  | cons c cs => exact ⟨fun hnone => absurd hnone (by simp [selectCandidate, firstBest]),
      fun hnil => absurd hnil (List.cons_ne_nil c cs)⟩

end Passes

/-! ### The answers of a tick -/

/-- What an action is compared by: its type, its asset, its configuration and its target. -/
def actionSignature (a : ControllerAction) :
    ActionType × Option String × Option String × Option String :=
  (a.actionType, a.assetId, a.configurationId, a.targetAssetId)

/-- **A tick answers the same** in every order of its catalog. -/
def OrderIndependent (ctl : ControllerService F) (request : ControllerTickRequest F) : Prop :=
  ∃ answer, ∀ assets' : List AssetDefinition, assets'.Perm (requestAssets ctl request) →
    ∃ r, tick ctl (withCatalog request assets') = .ok r ∧ r.actions.map actionSignature = answer

/-- The catalog in its own order is one of them. -/
theorem tick_withCatalog_self (ctl : ControllerService F) (request : ControllerTickRequest F) :
    tick ctl (withCatalog request (requestAssets ctl request)) = tick ctl request := by
  rw [tick, tick]
  simp only [pass_withCatalog_self]
  rfl

/-- A pass finds nothing, or its candidates have a leader. -/
def Led (ctl : ControllerService F) (p : Pass F) : Prop :=
  p.candidates = [] ∨ ∃ w, Leader ctl p.candidates w

/-- A led pass selects the same in every order. -/
theorem Led.selected {strategy : Strategy} {exploit : Option (CandidateScore F)}
    {rejected : Dict String String} {p : Pass F}
    (order : GapOrder fun a b => candidateBefore ctl a b = true)
    (hids : ((requestAssets ctl request).map AssetDefinition.assetId).Nodup)
    (hplanned : request.unlockedAssetIds ⊆ planned)
    (h : pass ctl request strategy exploit planned rejected = .ok p) (hled : Led ctl p) :
    ∃ selected : Option (CandidateScore F), ∀ (assets' : List AssetDefinition)
      (exploit' : Option (CandidateScore F)) (rejected' : Dict String String) (p' : Pass F),
      assets'.Perm (requestAssets ctl request) →
      exploit'.map CandidateScore.plain = exploit.map CandidateScore.plain →
      pass ctl (withCatalog request assets') strategy exploit' planned rejected' = .ok p' →
        p'.selected.map CandidateScore.plain = selected := by
  rcases hled with hnil | ⟨w, hw⟩
  · refine ⟨none, fun assets' exploit' rejected' p' hperm hexploit h' => ?_⟩
    have hnil' := (candidates_nil_iff hids hperm hexploit h h').mpr hnil
    rw [(selected_eq_none_iff h').mpr hnil', Option.map_none]
  · exact ⟨some w.plain, fun assets' exploit' rejected' p' hperm hexploit h' =>
      selected_of_leader order hids hplanned hperm hexploit h h' hw⟩

theorem plannedAfter_of_plain (planned : List String) {c d : CandidateScore F}
    (h : c.plain = d.plain) : plannedAfter planned c = plannedAfter planned d := by
  have hplain : ∀ e : CandidateScore F, plannedAfter planned e = plannedAfter planned e.plain :=
    fun _ => rfl
  rw [hplain c, h, ← hplain d]

/-- Traffic of a scanner, or two passes that can be read in every order: the main pass finds
nothing, or it has a leader and so has the pass that explores after it, unless that finds nothing. -/
def OrderSafe (ctl : ControllerService F) (request : ControllerTickRequest F) : Prop :=
  scannerOnlyProfile request.profile = true ∨
  SteadyPass ctl request request.unlockedAssetIds ∧
    ∀ main, pass ctl request .exploit none request.unlockedAssetIds [] = .ok main →
      main.candidates = [] ∨ ∃ w, Leader ctl main.candidates w ∧
        SteadyPass ctl request (plannedAfter request.unlockedAssetIds w) ∧
        ∀ follow, pass ctl request .explore (some w) (plannedAfter request.unlockedAssetIds w) [] =
          .ok follow → Led ctl follow

/-- **An action tells which candidate it reveals.** -/
theorem plain_of_signature {strategy : Strategy} {exploit : Option (CandidateScore F)}
    (hids : DistinctIds (requestAssets ctl request)) {c d : CandidateScore F}
    (hc : c ∈ candidateBlocks ctl request strategy exploit planned (requestAssets ctl request))
    (hd : d ∈ candidateBlocks ctl request strategy exploit planned (requestAssets ctl request))
    (h : actionSignature (buildAction ctl request.bindingId c) =
      actionSignature (buildAction ctl request.bindingId d)) : c = d := by
  have htypes : ∀ e : CandidateScore F,
      e ∈ candidateBlocks ctl request strategy exploit planned (requestAssets ctl request) →
        (e.actionType = .unlock ∧ e.configurationId = none) ∨ e.actionType = .configure := by
    intro e he
    rcases List.mem_append.mp he with he | he
    · obtain ⟨asset, _, he⟩ := List.mem_flatMap.mp he
      obtain ⟨_, htype, hid, _⟩ := unlockCandidates_spec he
      exact Or.inl ⟨htype, hid⟩
    · obtain ⟨source, _, he⟩ := List.mem_flatMap.mp he
      exact Or.inr (configureCandidates_spec he).2.1
  have hsame : c.actionType = d.actionType ∧ c.asset.assetId = d.asset.assetId ∧
      c.configurationId = d.configurationId := by
    rcases htypes c hc with ⟨hct, hcid⟩ | hct <;> rcases htypes d hd with ⟨hdt, hdid⟩ | hdt
    · rw [hct, hdt, hcid, hdid]
      simp only [actionSignature, buildAction, hct, hdt, reduceCtorEq, if_false, Prod.mk.injEq,
        Option.some.injEq] at h
      exact ⟨rfl, h.2.1, rfl⟩
    · simp [actionSignature, buildAction, hct, hdt] at h
    · simp [actionSignature, buildAction, hct, hdt] at h
    · rw [hct, hdt]
      simp only [actionSignature, buildAction, hct, hdt, if_true, Prod.mk.injEq,
        Option.some.injEq] at h
      exact ⟨rfl, h.2.1, h.2.2.1⟩
  exact candidate_unique hids hc hd hsame.1 hsame.2.1 hsame.2.2

/-- The pass over a reordered catalog can be read if it can be in every order. -/
theorem SteadyPass.pass_ok (h : SteadyPass ctl request planned)
    (hids : ((requestAssets ctl request).map AssetDefinition.assetId).Nodup)
    (hperm : assets'.Perm (requestAssets ctl request)) (strategy : Strategy)
    (exploit : Option (CandidateScore F)) (rejected : Dict String String) :
    ∃ p, pass ctl (withCatalog request assets') strategy exploit planned rejected = .ok p :=
  (pass_ok_iff strategy exploit rejected).mpr ((passReadable_iff_steady hids).mpr h assets' hperm)

theorem SteadyPass.self_ok (h : SteadyPass ctl request planned)
    (hids : ((requestAssets ctl request).map AssetDefinition.assetId).Nodup) (strategy : Strategy)
    (exploit : Option (CandidateScore F)) (rejected : Dict String String) :
    ∃ p, pass ctl request strategy exploit planned rejected = .ok p := by
  obtain ⟨p, hp⟩ := h.pass_ok hids (List.Perm.refl _) strategy exploit rejected
  exact ⟨p, (pass_withCatalog_self ctl request strategy exploit planned rejected).symm.trans hp⟩

/-- What the candidate of a pass adds to the answer. -/
def passSignatures (ctl : ControllerService F) (request : ControllerTickRequest F) (p : Pass F) :
    List (ActionType × Option String × Option String × Option String) :=
  (p.selected.map CandidateScore.plain).toList.map fun d =>
    actionSignature (buildAction ctl request.bindingId d)

/-- The answer of a tick that reveals. -/
theorem revealResponse_signatures (main follow : Pass F) (c : CandidateScore F) :
    (revealResponse ctl request main follow c).actions.map actionSignature =
      actionSignature (buildAction ctl request.bindingId c.plain) ::
        passSignatures ctl request follow := by
  rw [passSignatures]
  cases hselected : follow.selected with
  | none => simp [revealResponse, hselected]; rfl
  | some d => simp [revealResponse, hselected]; exact ⟨rfl, rfl⟩

/-- **Where both passes are led**, every order gives the same answer. -/
theorem orderIndependent_of_safe (hfloat : FloatLaws ctl.float)
    (hids : ((requestAssets ctl request).map AssetDefinition.assetId).Nodup)
    (h : OrderSafe ctl request) : OrderIndependent ctl request := by
  have order := candidateBefore_gapOrder hfloat
  by_cases hscanner : scannerOnlyProfile request.profile = true
  · exact ⟨[(.noop, none, none, none)], fun assets' _ =>
      ⟨_, tick_passes.mpr (.scanner hscanner), rfl⟩⟩
  obtain ⟨hsteady, hmain⟩ := h.resolve_left hscanner
  have hfalse := Bool.eq_false_iff.mpr hscanner
  obtain ⟨main, hpass⟩ := hsteady.self_ok hids .exploit none []
  rcases hmain main hpass with hnil | ⟨w, hw, hsteady', hfollow⟩
  · refine ⟨[(.noop, none, none, none)], fun assets' hperm => ?_⟩
    obtain ⟨main', hpass'⟩ := hsteady.pass_ok hids hperm .exploit none []
    have hnone := (selected_eq_none_iff hpass').mpr
      ((candidates_nil_iff hids hperm rfl hpass hpass').mpr hnil)
    exact ⟨_, tick_passes.mpr (.noReveal main' hfalse hpass' hnone), rfl⟩
  · obtain ⟨follow, hpassf⟩ := hsteady'.self_ok hids .explore (some w) []
    obtain ⟨selected, hselected⟩ := (hfollow follow hpassf).selected order hids
      (prefix_plannedAfter _ w).subset hpassf
    refine ⟨actionSignature (buildAction ctl request.bindingId w.plain) ::
      selected.toList.map fun d => actionSignature (buildAction ctl request.bindingId d),
      fun assets' hperm => ?_⟩
    obtain ⟨main', hpass'⟩ := hsteady.pass_ok hids hperm .exploit none []
    obtain ⟨c, hc, hplain⟩ := Option.map_eq_some_iff.mp
      (selected_of_leader order hids (List.Subset.refl _) hperm rfl hpass hpass' hw)
    have hplanned : plannedAfter request.unlockedAssetIds c =
        plannedAfter request.unlockedAssetIds w := plannedAfter_of_plain _ hplain
    obtain ⟨follow', hpassf'⟩ := hsteady'.pass_ok hids hperm .explore (some c) main'.rejected
    have hsame := hselected assets' (some c) main'.rejected follow' hperm (congrArg some hplain)
      hpassf'
    rw [← hplanned] at hpassf'
    refine ⟨_, tick_passes.mpr (.reveal main' follow' c hfalse hpass' hc hpassf'), ?_⟩
    rw [revealResponse_signatures, passSignatures, hsame, hplain]
    rfl

theorem selected_mem_blocks {strategy : Strategy} {exploit exploit' : Option (CandidateScore F)}
    {rejected rejected' : Dict String String} {p p' : Pass F}
    (hids : ((requestAssets ctl request).map AssetDefinition.assetId).Nodup)
    (hperm : assets'.Perm (requestAssets ctl request))
    (hexploit : exploit'.map CandidateScore.plain = exploit.map CandidateScore.plain)
    (h : pass ctl request strategy exploit planned rejected = .ok p)
    (h' : pass ctl (withCatalog request assets') strategy exploit' planned rejected' = .ok p')
    {c : CandidateScore F} (hc : p'.selected = some c) :
    best (candidateBefore ctl) (candidateBlocks ctl request strategy exploit planned assets') =
        some c.plain ∧
      c.plain ∈
        candidateBlocks ctl request strategy exploit planned (requestAssets ctl request) := by
  have hbest := selected_plain h'
  rw [hc, pass_reordered hids hperm hexploit h h'] at hbest
  exact ⟨hbest.symm, (mem_candidateBlocks_perm hperm).mp (best_mem hbest.symm)⟩

/-- **Where every order selects a candidate with the same action**, it is a leader. -/
theorem leader_of_same_action {strategy : Strategy} {exploit : Option (CandidateScore F)}
    {rejected : Dict String String} {p : Pass F}
    (order : GapOrder fun a b => candidateBefore ctl a b = true)
    (hids : DistinctIds (requestAssets ctl request))
    (hplanned : request.unlockedAssetIds ⊆ planned)
    (h : pass ctl request strategy exploit planned rejected = .ok p)
    {signature : ActionType × Option String × Option String × Option String}
    (hall : ∀ assets' : List AssetDefinition, assets'.Perm (requestAssets ctl request) →
      ∃ exploit' rejected' p' c,
        exploit'.map CandidateScore.plain = exploit.map CandidateScore.plain ∧
        pass ctl (withCatalog request assets') strategy exploit' planned rejected' = .ok p' ∧
        p'.selected = some c ∧
        actionSignature (buildAction ctl request.bindingId c.plain) = signature) :
    ∃ w, Leader ctl p.candidates w ∧
      w.plain ∈ candidateBlocks ctl request strategy exploit planned (requestAssets ctl request) ∧
      actionSignature (buildAction ctl request.bindingId w.plain) = signature := by
  obtain ⟨_, _, _, c₀, hexploit₀, h₀, hc₀, hsignature₀⟩ := hall _ (List.Perm.refl _)
  obtain ⟨_, hmem₀⟩ := selected_mem_blocks hids.assetIds (List.Perm.refl _) hexploit₀ h h₀ hc₀
  obtain ⟨w, hw, hplain⟩ := leader_of_selected order hids.assetIds hplanned h
    fun assets' hperm => by
      obtain ⟨_, _, _, c, hexploit, h', hc, hsignature⟩ := hall assets' hperm
      obtain ⟨hbest, hmem⟩ := selected_mem_blocks hids.assetIds hperm hexploit h h' hc
      rw [hbest, plain_of_signature hids hmem hmem₀ (hsignature.trans hsignature₀.symm)]
  exact ⟨w, hw, hplain ▸ hmem₀, hplain ▸ hsignature₀⟩

/-- What a tick over a reordered catalog reveals. -/
structure Revealed (ctl : ControllerService F) (request : ControllerTickRequest F)
    (assets' : List AssetDefinition) (main follow : Pass F) (c : CandidateScore F) : Prop where
  main_ok : pass ctl (withCatalog request assets') .exploit none request.unlockedAssetIds [] =
    .ok main
  main_selected : main.selected = some c
  follow_ok : pass ctl (withCatalog request assets') .explore (some c)
    (plannedAfter request.unlockedAssetIds c) main.rejected = .ok follow

/-- The answer of a tick whose main pass finds something. -/
theorem revealed_of_tick (hids : ((requestAssets ctl request).map AssetDefinition.assetId).Nodup)
    (hscanner : scannerOnlyProfile request.profile ≠ true)
    (hperm : assets'.Perm (requestAssets ctl request)) {main : Pass F}
    (hmain : pass ctl request .exploit none request.unlockedAssetIds [] = .ok main)
    (hne : main.candidates ≠ []) {r : ControllerTickResponse F}
    (hr : tick ctl (withCatalog request assets') = .ok r) : ∃ main' follow c,
      Revealed ctl request assets' main' follow c ∧ r.actions.map actionSignature =
        actionSignature (buildAction ctl request.bindingId c.plain) ::
          passSignatures ctl request follow := by
  cases tick_passes.mp hr with
  | scanner hscanner' => exact absurd hscanner' hscanner
  | noReveal main' _ hpass hselected =>
    have hnil := (candidates_nil_iff hids hperm rfl hmain hpass).mp
      ((selected_eq_none_iff hpass).mp hselected)
    exact absurd hnil hne
  | reveal main' follow c _ hpass hselected hfollow =>
    exact ⟨main', follow, c, ⟨hpass, hselected, hfollow⟩, revealResponse_signatures main' follow c⟩

/-- A tick that answers in every order reads its main pass in every order. -/
theorem steady_of_orderIndependent
    (hids : ((requestAssets ctl request).map AssetDefinition.assetId).Nodup)
    (hscanner : scannerOnlyProfile request.profile ≠ true) (h : OrderIndependent ctl request) :
    SteadyPass ctl request request.unlockedAssetIds := by
  obtain ⟨_, hall⟩ := h
  refine (passReadable_iff_steady hids).mp fun assets' hperm => ?_
  obtain ⟨r, hr, _⟩ := hall assets' hperm
  cases tick_passes.mp hr with
  | scanner hscanner' => exact absurd hscanner' hscanner
  | noReveal main' _ hpass _ => exact (pass_ok_iff .exploit none []).mp ⟨main', hpass⟩
  | reveal main' _ _ _ hpass _ _ => exact (pass_ok_iff .exploit none []).mp ⟨main', hpass⟩

/-- **A pass that adds the same to the answer in every order** is led. -/
theorem led_of_same_answer {strategy : Strategy} {exploit : Option (CandidateScore F)}
    {rejected : Dict String String} {p : Pass F}
    (order : GapOrder fun a b => candidateBefore ctl a b = true)
    (hids : DistinctIds (requestAssets ctl request))
    (hplanned : request.unlockedAssetIds ⊆ planned)
    (h : pass ctl request strategy exploit planned rejected = .ok p)
    {answer : List (ActionType × Option String × Option String × Option String)}
    (hall : ∀ assets' : List AssetDefinition, assets'.Perm (requestAssets ctl request) →
      ∃ exploit' rejected' p',
        exploit'.map CandidateScore.plain = exploit.map CandidateScore.plain ∧
        pass ctl (withCatalog request assets') strategy exploit' planned rejected' = .ok p' ∧
        passSignatures ctl request p' = answer) : Led ctl p := by
  refine or_iff_not_imp_left.mpr fun hne => ?_
  have hselected : ∀ assets' : List AssetDefinition, assets'.Perm (requestAssets ctl request) →
      ∃ exploit' rejected' p' c,
        exploit'.map CandidateScore.plain = exploit.map CandidateScore.plain ∧
        pass ctl (withCatalog request assets') strategy exploit' planned rejected' = .ok p' ∧
        p'.selected = some c ∧
        [actionSignature (buildAction ctl request.bindingId c.plain)] = answer := by
    intro assets' hperm
    obtain ⟨exploit', rejected', p', hexploit, h', hanswer⟩ := hall assets' hperm
    cases hc : p'.selected with
    | none =>
      have hnil := (candidates_nil_iff hids.assetIds hperm hexploit h h').mp
        ((selected_eq_none_iff h').mp hc)
      exact absurd hnil hne
    | some c =>
      rw [passSignatures, hc] at hanswer
      exact ⟨exploit', rejected', p', c, hexploit, h', hc, hanswer⟩
  obtain ⟨_, _, _, c₀, _, _, _, hanswer₀⟩ := hselected _ (List.Perm.refl _)
  obtain ⟨w, hw, _⟩ := leader_of_same_action order hids hplanned h fun assets' hperm => by
    obtain ⟨exploit', rejected', p', c, hexploit, h', hc, hanswer⟩ := hselected assets' hperm
    exact ⟨exploit', rejected', p', c, hexploit, h', hc,
      (List.cons_eq_cons.mp (hanswer.trans hanswer₀.symm)).1⟩
  exact ⟨w, hw⟩

/-- **Where every order gives the same answer**, both passes are led. -/
theorem safe_of_orderIndependent (hfloat : FloatLaws ctl.float)
    (hids : DistinctIds (requestAssets ctl request)) (h : OrderIndependent ctl request) :
    OrderSafe ctl request := by
  have order := candidateBefore_gapOrder hfloat
  by_cases hscanner : scannerOnlyProfile request.profile = true
  · exact Or.inl hscanner
  refine Or.inr ⟨steady_of_orderIndependent hids.assetIds hscanner h,
    fun main hmain => or_iff_not_imp_left.mpr fun hne => ?_⟩
  obtain ⟨answer, hall⟩ := h
  have hreveal : ∀ assets' : List AssetDefinition, assets'.Perm (requestAssets ctl request) →
      ∃ main' follow' c', Revealed ctl request assets' main' follow' c' ∧ answer =
        actionSignature (buildAction ctl request.bindingId c'.plain) ::
          passSignatures ctl request follow' := by
    intro assets' hperm
    obtain ⟨r, hr, hanswer⟩ := hall assets' hperm
    obtain ⟨main', follow', c', hrevealed, hactions⟩ :=
      revealed_of_tick hids.assetIds hscanner hperm hmain hne hr
    exact ⟨main', follow', c', hrevealed, hanswer.symm.trans hactions⟩
  -- the main passes
  obtain ⟨_, follow₀, _, _, hanswer₀⟩ := hreveal _ (List.Perm.refl _)
  obtain ⟨w, hw, hwmem, hwsignature⟩ := leader_of_same_action order hids (List.Subset.refl _) hmain
    fun assets' hperm => by
      obtain ⟨main', _, c', hrevealed, hanswer⟩ := hreveal assets' hperm
      exact ⟨none, [], main', c', rfl, hrevealed.main_ok, hrevealed.main_selected,
        (List.cons_eq_cons.mp (hanswer.symm.trans hanswer₀)).1⟩
  -- the passes that explore, each after the leader or one with another upgrade entry
  have hfollows : ∀ assets' : List AssetDefinition, assets'.Perm (requestAssets ctl request) →
      ∃ exploit' rejected' follow',
        exploit'.map CandidateScore.plain = (some w).map CandidateScore.plain ∧
        pass ctl (withCatalog request assets') .explore exploit'
          (plannedAfter request.unlockedAssetIds w) rejected' = .ok follow' ∧
        passSignatures ctl request follow' = passSignatures ctl request follow₀ := by
    intro assets' hperm
    obtain ⟨main', follow', c', hrevealed, hanswer⟩ := hreveal assets' hperm
    obtain ⟨hhead, htail⟩ := List.cons_eq_cons.mp (hanswer.symm.trans hanswer₀)
    have hplain : c'.plain = w.plain := by
      obtain ⟨_, hmem⟩ := selected_mem_blocks hids.assetIds hperm rfl hmain hrevealed.main_ok
        hrevealed.main_selected
      exact plain_of_signature hids hmem hwmem (hhead.trans hwsignature.symm)
    have hfollow := hrevealed.follow_ok
    rw [plannedAfter_of_plain _ hplain] at hfollow
    exact ⟨some c', main'.rejected, follow', congrArg some hplain, hfollow, htail⟩
  refine ⟨w, hw, (passReadable_iff_steady hids.assetIds).mp fun assets' hperm => ?_,
    fun follow hfollow =>
      led_of_same_answer order hids (prefix_plannedAfter _ w).subset hfollow hfollows⟩
  obtain ⟨exploit', rejected', follow', _, hfollow', _⟩ := hfollows assets' hperm
  exact (pass_ok_iff _ _ _).mp ⟨follow', hfollow'⟩

/-- **A tick answers the same in every order of the catalog** exactly if both its passes can be read
in every order and each finds nothing or has a leader. -/
theorem tick_order_independent_iff (hfloat : FloatLaws ctl.float)
    (hids : DistinctIds (requestAssets ctl request)) :
    OrderIndependent ctl request ↔ OrderSafe ctl request :=
  ⟨safe_of_orderIndependent hfloat hids, orderIndependent_of_safe hfloat hids.assetIds⟩

/-- A pass whose candidates come from one asset is led. -/
theorem led_of_one_asset (ctl : ControllerService F) {p : Pass F} {id : String}
    (h : ∀ c ∈ p.candidates, c.asset.assetId = id) : Led ctl p := by
  refine or_iff_not_imp_left.mpr fun hne => ?_
  obtain ⟨c, cs, hcs⟩ := List.exists_cons_of_ne_nil hne
  have hall : candidatesOf id p.candidates = p.candidates :=
    List.filter_eq_self.mpr fun c hc => decide_eq_true (h c hc)
  obtain ⟨w, hw⟩ := selectCandidate_isSome ctl (hcs ▸ List.mem_cons_self : c ∈ p.candidates)
  refine ⟨w, id, hall.symm ▸ hw, fun id' hne' v hv => ?_⟩
  have hmem := List.mem_filter.mp (firstBest_mem hv)
  exact absurd ((of_decide_eq_true hmem.2).symm.trans (h v hmem.1)) hne'

/-! ### Two clues to one database -/

/-- Each number of the clue catalog can be read. -/
theorem numberReadable_clue (value : Value) : NumberReadable clueController value := by
  intro number hnumber
  cases value <;> simp [Floats.number?, clueController, exactFloats] at hnumber <;>
    exact ⟨_, hnumber.symm⟩

theorem clue_not_eligible {planned : List String} (hopen : "git-internal" ∈ planned)
    {asset : AssetDefinition} (hasset : asset ∈ requestAssets clueController clueRequest) :
    ¬ Eligible clueController clueRequest planned asset := by
  intro h
  rcases List.mem_cons.mp hasset with rfl | hasset
  · exact h.locked hopen
  · rw [List.mem_singleton.mp hasset] at h
    exact absurd h.internal (by decide)

theorem clue_steady {planned : List String} (hopen : "git-internal" ∈ planned) :
    SteadyPass clueController clueRequest planned :=
  ⟨fun _ hasset heligible => absurd heligible (clue_not_eligible hopen hasset),
    fun _ _ _ _ => ⟨numberReadable_clue _, fun _ => numberReadable_clue _⟩⟩

theorem clue_candidates {planned : List String} (hopen : "git-internal" ∈ planned)
    {strategy : Strategy} {exploit : Option (CandidateScore Rat)} {rejected : Dict String String}
    {p : Pass Rat}
    (h : pass clueController clueRequest strategy exploit planned rejected = .ok p) :
    ∀ c ∈ p.candidates, c.asset.assetId = "git-internal" := by
  intro c hc
  cases candidate_offered h hc with
  | unlock hasset heligible => exact absurd heligible (clue_not_eligible hopen hasset)
  | configure variant id hoffered => exact List.mem_singleton.mp hoffered.source_open

/-- With one clue to the database the order of the catalog does not matter. -/
theorem clue_order_independent : OrderIndependent clueController clueRequest := by
  have hids : DistinctIds (requestAssets clueController clueRequest) := by
    refine ⟨by decide, fun asset hasset => ?_⟩
    rcases List.mem_cons.mp hasset with rfl | hasset
    · decide
    · rw [List.mem_singleton.mp hasset]
      decide
  refine (tick_order_independent_iff exactFloats_laws hids).mpr (Or.inr
    ⟨clue_steady List.mem_cons_self, fun main hmain => ?_⟩)
  refine (led_of_one_asset clueController (clue_candidates List.mem_cons_self hmain)).imp_right ?_
  rintro ⟨w, hw⟩
  have hopen : "git-internal" ∈ plannedAfter clueRequest.unlockedAssetIds w :=
    (prefix_plannedAfter _ w).subset List.mem_cons_self
  exact ⟨w, hw, clue_steady hopen, fun follow hfollow =>
    led_of_one_asset clueController (clue_candidates hopen hfollow)⟩

/-- An asset with a clue to the database. -/
def clueAsset (assetId configurationId : String) : AssetDefinition where
  assetId
  exposureType := .internal
  defaultSettings := [("configuration_variants", .list [.dict [
    ("configuration_id", .str configurationId), ("target_asset_id", .str "db-public"),
    ("covered_techniques", .list [.str "T1213"])]])]

/-- A repository and a wiki, each with a clue to the same database. -/
def twoClueCatalog : List AssetDefinition :=
  [clueAsset "git-internal" "git-db-credential-clue",
    clueAsset "wiki-internal" "wiki-db-credential-clue",
    { assetId := "db-public", exposureType := .public }]

/-- The wiki first. -/
def twoClueSwapped : List AssetDefinition :=
  [clueAsset "wiki-internal" "wiki-db-credential-clue",
    clueAsset "git-internal" "git-db-credential-clue",
    { assetId := "db-public", exposureType := .public }]

/-- Both are open, and being read. -/
def twoClueRequest : ControllerTickRequest Rat where
  attackerKey := "198.51.100.7"
  bindingId := "b-1"
  profile := { recentTechniques := ["T1213"], recentAssetIds := ["git-internal", "wiki-internal"] }
  assets := twoClueCatalog
  unlockedAssetIds := ["git-internal", "wiki-internal"]

/-- Of two equal clues the one that comes first in the catalog is given. -/
theorem two_clues_order_dependent :
    ((requestAssets clueController twoClueRequest).map AssetDefinition.assetId).Nodup ∧
    ((requestAssets clueController twoClueRequest).flatMap fun asset =>
      (configurationVariants asset).filterMap fun variant =>
        stringOrNone (variant.get "configuration_id")).Nodup ∧
    ¬ OrderIndependent clueController twoClueRequest := by
  refine ⟨by decide, by decide +kernel, ?_⟩
  rintro ⟨answer, hall⟩
  obtain ⟨r, hr, hanswer⟩ := hall twoClueCatalog (List.Perm.refl _)
  obtain ⟨r', hr', hanswer'⟩ := hall twoClueSwapped (List.Perm.swap _ _ _)
  have hdiffer : (tick clueController (withCatalog twoClueRequest twoClueCatalog)).toOption.map
        (fun r => r.actions.map actionSignature) ≠
      (tick clueController (withCatalog twoClueRequest twoClueSwapped)).toOption.map
        fun r => r.actions.map actionSignature := by decide +kernel
  rw [hr, hr'] at hdiffer
  exact hdiffer (congrArg some (hanswer.trans hanswer'.symm))

end Honeynet.Controller
