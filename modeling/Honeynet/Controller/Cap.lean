import Honeynet.Controller.Structure
import Mathlib.Data.Finset.Card

/-!
# What the unlock cap counts

The cap is compared with the length of the planned list.  A configuration may have its own source
for a target, which is then planned a second time.

* `OtherGates`: the gates of an unlock without the cap.
* `CapCounts`: such an asset is refused for the cap iff as many distinct assets are exposed.
* `cap_counts_iff`: every selection of a tick counts so iff no configuration of an asset that
  targets itself takes the last place.
-/

namespace Honeynet.Controller

open Collections

variable {F : Type} {ctl : ControllerService F} {request : ControllerTickRequest F}
  {planned : List String} {asset : AssetDefinition}

/-- An asset passes the gates of an unlock, the cap apart. -/
structure OtherGates (ctl : ControllerService F) (request : ControllerTickRequest F)
    (planned : List String) (asset : AssetDefinition) : Prop where
  internal : asset.exposureType = .internal
  ready : implementationStatus ctl asset ∈ ["ready", "prototype"]
  locked : asset.assetId ∉ planned
  dependencies : asset.dependencies ⊆ planned
  available : runtimeIsAvailable ctl asset = true
  signals : isBootstrapAsset asset request = true ∨ matchesUnlockSignals asset request = true

/-- The gates ask only what is in the planned list. -/
theorem OtherGates.congr {planned' : List String} (h : OtherGates ctl request planned asset)
    (hmem : ∀ id, id ∈ planned' ↔ id ∈ planned) : OtherGates ctl request planned' asset :=
  { h with
    locked := fun hid => h.locked ((hmem _).mp hid)
    dependencies := fun _ hid => (hmem _).mpr (h.dependencies hid) }

/-- An asset that passes the other gates is refused for the cap iff the planned list is as long. -/
theorem refused_for_cap_iff (h : OtherGates ctl request planned asset) :
    eligibility ctl asset request planned = (false, "unlock cap reached") ↔
      ctl.unlockCap ≤ (planned.length : Int) := by
  constructor
  · intro hrefused
    by_contra hbelow
    have heligible : Eligible ctl request planned asset := { h with below_cap := not_le.mp hbelow }
    rw [← eligibility_iff, hrefused] at heligible
    exact absurd heligible (by simp)
  · intro hcap
    rw [eligibility, if_neg (not_not.mpr h.internal), if_neg (not_not.mpr h.ready),
      if_neg h.locked, if_pos hcap]

/-- Of the assets that pass the other gates, those are refused for the cap that come when as many
distinct assets as the cap are exposed. -/
def CapCounts (ctl : ControllerService F) (request : ControllerTickRequest F)
    (planned exposed : List String) : Prop :=
  ∀ asset ∈ requestAssets ctl request, OtherGates ctl request planned asset →
    (eligibility ctl asset request planned = (false, "unlock cap reached") ↔
      ctl.unlockCap ≤ (exposed.toFinset.card : Int))

/-- **The cap counts distinct assets** at each selection of a tick: in the main pass those that are
open, in the second pass those and the asset that the main reveal exposes. -/
def CapByDistinct (ctl : ControllerService F) (request : ControllerTickRequest F) : Prop :=
  scannerOnlyProfile request.profile = false →
    CapCounts ctl request request.unlockedAssetIds request.unlockedAssetIds ∧
      ∀ c ∈ mainReveal ctl request,
        CapCounts ctl request (plannedAfter request.unlockedAssetIds c)
          (request.unlockedAssetIds ++ [c.exposedAssetId])

/-- Where the main reveal is a configuration with its own source for a target and one place is left
below the cap, no asset passes the other gates. -/
def NoSelfTarget (ctl : ControllerService F) (request : ControllerTickRequest F) : Prop :=
  scannerOnlyProfile request.profile = false → ∀ c ∈ mainReveal ctl request,
    c.targetAssetId = some c.asset.assetId →
      ctl.unlockCap = (request.unlockedAssetIds.length : Int) + 1 →
        ∀ asset ∈ requestAssets ctl request,
          ¬ OtherGates ctl request request.unlockedAssetIds asset

/-- A list without repetitions is as long as it has members. -/
theorem capCounts_of_card {exposed : List String} (h : planned.length = exposed.toFinset.card) :
    CapCounts ctl request planned exposed := fun _ _ hgates => by
  rw [refused_for_cap_iff hgates, h]

/-- **The main pass** counts the open assets. -/
theorem capCounts_main (hnodup : request.unlockedAssetIds.Nodup) :
    CapCounts ctl request request.unlockedAssetIds request.unlockedAssetIds :=
  capCounts_of_card (List.toFinset_card_of_nodup hnodup).symm

theorem card_append_new {xs : List String} (hnodup : xs.Nodup) {x : String} (hx : x ∉ xs) :
    (xs ++ [x]).toFinset.card = (xs ++ [x]).length :=
  List.toFinset_card_of_nodup (List.nodup_append.mpr ⟨hnodup, List.nodup_singleton x,
    fun _ ha _ hb hab => hx (List.mem_singleton.mp hb ▸ hab ▸ ha)⟩)

theorem mem_append_old {xs : List String} {x : String} (hx : x ∈ xs) (y : String) :
    y ∈ xs ++ [x] ↔ y ∈ xs := by
  rw [List.mem_append, List.mem_singleton]
  exact ⟨fun hy => hy.elim (fun h => h) fun he => he ▸ hx, Or.inl⟩

theorem card_append_old {xs : List String} (hnodup : xs.Nodup) {x : String} (hx : x ∈ xs) :
    (xs ++ [x]).toFinset.card = xs.length := by
  have hset : (xs ++ [x]).toFinset = xs.toFinset := by
    ext y
    rw [List.mem_toFinset, List.mem_toFinset, mem_append_old hx]
  rw [hset, List.toFinset_card_of_nodup hnodup]

/-- **With an open asset planned once more** the list is longer than the set of its members by
one. -/
theorem capCounts_again_iff (hnodup : request.unlockedAssetIds.Nodup) {target : String}
    (hopen : target ∈ request.unlockedAssetIds) :
    CapCounts ctl request (request.unlockedAssetIds ++ [target])
        (request.unlockedAssetIds ++ [target]) ↔
      (ctl.unlockCap = (request.unlockedAssetIds.length : Int) + 1 →
        ∀ asset ∈ requestAssets ctl request,
          ¬ OtherGates ctl request request.unlockedAssetIds asset) := by
  have hmem := mem_append_old hopen
  have hcount : ∀ asset, OtherGates ctl request (request.unlockedAssetIds ++ [target]) asset →
      (eligibility ctl asset request (request.unlockedAssetIds ++ [target]) =
          (false, "unlock cap reached") ↔
        ctl.unlockCap ≤ (request.unlockedAssetIds.length : Int) + 1) := by
    intro asset hgates
    rw [refused_for_cap_iff hgates, List.length_append, List.length_singleton]
    omega
  rw [CapCounts, card_append_old hnodup hopen]
  constructor
  · intro hcounts hcap asset hasset hgates
    have hgates' := hgates.congr hmem
    have hiff := (hcount asset hgates').symm.trans (hcounts asset hasset hgates')
    omega
  · intro hnone asset hasset hgates
    rw [hcount asset hgates]
    have hcap : ctl.unlockCap ≠ (request.unlockedAssetIds.length : Int) + 1 := fun hcap =>
      hnone hcap asset hasset (hgates.congr fun x => (hmem x).symm)
    omega

/-- **The second pass** counts the asset the main reveal exposes, once more than it should if that
is a configuration of the asset itself. -/
theorem capCounts_follow_iff (hnodup : request.unlockedAssetIds.Nodup) {c : CandidateScore F}
    (h : Chosen ctl request .exploit none request.unlockedAssetIds c) :
    CapCounts ctl request (plannedAfter request.unlockedAssetIds c)
        (request.unlockedAssetIds ++ [c.exposedAssetId]) ↔
      (c.targetAssetId = some c.asset.assetId →
        ctl.unlockCap = (request.unlockedAssetIds.length : Int) + 1 →
          ∀ asset ∈ requestAssets ctl request,
            ¬ OtherGates ctl request request.unlockedAssetIds asset) := by
  cases h.offered with
  | unlock _ heligible htype _ htarget =>
    have hplanned : plannedAfter request.unlockedAssetIds c =
        request.unlockedAssetIds ++ [c.asset.assetId] := if_pos htype
    have hexposed : c.exposedAssetId = c.asset.assetId := by
      rw [CandidateScore.exposedAssetId, htarget]
    rw [hplanned, hexposed]
    refine iff_of_true (capCounts_of_card (card_append_new hnodup heligible.locked).symm) ?_
    exact fun hself => absurd (htarget.symm.trans hself) (by simp)
  | configure variant id hoffered htype _ htarget =>
    cases hstring : c.targetAssetId with
    | none =>
      have hplanned : plannedAfter request.unlockedAssetIds c = request.unlockedAssetIds := by
        rw [plannedAfter, if_neg (by simp [htype]), hstring]
      have hexposed : c.exposedAssetId = c.asset.assetId := by
        rw [CandidateScore.exposedAssetId, hstring]
      rw [hplanned, hexposed]
      refine iff_of_true (capCounts_of_card ?_) fun hself => absurd hself (by simp)
      exact (card_append_old hnodup hoffered.source_open).symm
    | some target =>
      have hne : target ≠ "" := stringOrNone_ne_empty (htarget ▸ hstring)
      have hplanned : plannedAfter request.unlockedAssetIds c =
          request.unlockedAssetIds ++ [target] := by
        rw [plannedAfter, if_neg (by simp [htype]), hstring]
        exact if_neg hne
      have hexposed : c.exposedAssetId = target := by
        rw [CandidateScore.exposedAssetId, hstring]
        exact if_neg hne
      rw [hplanned, hexposed, Option.some.injEq]
      by_cases hself : target = c.asset.assetId
      · have hopen : target ∈ request.unlockedAssetIds := hself ▸ hoffered.source_open
        rw [capCounts_again_iff hnodup hopen]
        exact ⟨fun h _ => h, fun h => h hself⟩
      · have hnew : target ∉ request.unlockedAssetIds :=
          (hoffered.target (htarget ▸ hstring)).resolve_left hself
        exact iff_of_true (capCounts_of_card (card_append_new hnodup hnew).symm)
          fun h => absurd h hself

/-- **Every selection of a tick counts distinct assets** against the cap if and only if no asset is
left to pass the other gates where a configuration of an asset that targets itself takes the last
place. -/
theorem cap_counts_iff (ctl : ControllerService F) (request : ControllerTickRequest F)
    (hnodup : request.unlockedAssetIds.Nodup) :
    CapByDistinct ctl request ↔ NoSelfTarget ctl request := by
  rw [CapByDistinct, NoSelfTarget]
  refine forall_congr' fun _ => ?_
  rw [and_iff_right (capCounts_main hnodup)]
  refine forall₂_congr fun c hc => ?_
  obtain ⟨main, hmain, hselected⟩ := mem_mainReveal.mp hc
  exact capCounts_follow_iff hnodup (pass_chosen hmain hselected)

/-- The download exposes another asset, which counts. -/
theorem download_counts : CapByDistinct (sinkController (.list [])) downloadRequest := by
  refine (cap_counts_iff (sinkController (.list [])) downloadRequest (by decide)).mpr
    fun _ c hc hself => ?_
  have hnone : ((mainReveal (sinkController (.list [])) downloadRequest).all fun c =>
      c.targetAssetId.isNone) = true := by decide +kernel
  rw [Option.all_eq_true] at hnone
  exact absurd ((Option.isNone_iff_eq_none.mp (hnone c hc)).symm.trans hself) (by simp)

/-- A wiki that any evidence opens. -/
def wikiInternal : AssetDefinition where
  assetId := "wiki-internal"
  exposureType := .internal

/-- A repository that can be shown with a clue in it. -/
def gitWithClue : AssetDefinition where
  assetId := "git-internal"
  exposureType := .internal
  defaultSettings := [("configuration_variants", .list [.dict [
    ("configuration_id", .str "git-db-credential-clue"),
    ("target_asset_id", .str "git-internal"),
    ("covered_techniques", .list [.str "T1213"])]])]

/-- Two assets may be open. -/
def selfTargetController : ControllerService Rat where
  float := exactFloats
  lower := Text.asciiLower
  str _ := ""
  pathExists _ := true
  listAll := [gitWithClue, wikiInternal]
  recommend _ := [("T1213", 1 / 2)]
  degradedReason := none
  unlockCap := 2
  observedTechniqueThreshold := 1 / 2
  usePriorSupport := true

/-- The repository is open, and being read. -/
def repositoryRequest : ControllerTickRequest Rat where
  attackerKey := "198.51.100.7"
  bindingId := "b-1"
  profile := { recentTechniques := ["T1213"], recentAssetIds := ["git-internal"] }
  unlockedAssetIds := ["git-internal"]

theorem selfTarget_distinct :
    DistinctIds (requestAssets selfTargetController repositoryRequest) where
  assetIds := by decide
  configurationIds asset hasset := by
    rcases List.mem_cons.mp hasset with rfl | hasset
    · decide
    · rw [List.mem_singleton.mp hasset]
      decide

/-- The clue leaves no place for the wiki, though one asset is open and two may be. -/
theorem wiki_refused_for_cap : repositoryRequest.unlockedAssetIds.Nodup ∧
    DistinctIds (requestAssets selfTargetController repositoryRequest) ∧
    ¬ CapByDistinct selfTargetController repositoryRequest := by
  have hnodup : repositoryRequest.unlockedAssetIds.Nodup := by decide
  refine ⟨hnodup, selfTarget_distinct, fun h => ?_⟩
  have hself : ((mainReveal selfTargetController repositoryRequest).any fun c =>
      c.targetAssetId == some c.asset.assetId) = true := by decide +kernel
  obtain ⟨c, hc, htarget⟩ := (Option.any_eq_true _ _).mp hself
  obtain ⟨main, hmain, hselected⟩ := mem_mainReveal.mp hc
  have hnone := (capCounts_follow_iff hnodup (pass_chosen hmain hselected)).mp
    ((h (by decide)).2 c hc) (beq_iff_eq.mp htarget) rfl
  refine hnone wikiInternal (List.mem_cons_of_mem _ List.mem_cons_self) ⟨rfl, ?_, ?_, ?_, rfl, ?_⟩
  · decide
  · decide
  · decide
  · exact Or.inr (by decide)

end Honeynet.Controller
