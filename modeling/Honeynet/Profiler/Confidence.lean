import Honeynet.Lib.Grouping
import Honeynet.Profiler.Profile
import Mathlib.Analysis.Complex.Exponential

/-!
# The laws of confidence

The score of a tactic or technique is the sum of the greatest weights of its fingerprints, and its
confidence `1 - exp (-score)`, rounded to four decimals. Here weights and confidences are real
numbers.

* `lookup_summarizeDimension`, `keys_summarizeDimension`: a summary by its keys.
* `summarizeDimension_le`: evidence that is covered gives no more confidence.
* `confidenceLaws`: the confidences of a profile lie between 0 and 1, they are of what is recent,
  recent evidence lowers none of them, and evidence already counted changes none.
-/

namespace Honeynet.Profiler

open Collections

/-! ### Summaries -/

section Summary

variable {F W : Type} [AddCommMonoid W] [LinearOrder W]
variable (svc : ProfilerService F W) (key : TechniqueEvidence W → Option String)

/-- The sum of the greatest weights of each fingerprint. -/
def score (items : List (TechniqueEvidence W)) : W :=
  totalBy (confidenceFingerprint svc) TechniqueEvidence.weight items

/-- The evidence of a key. -/
def evidenceOf (evidences : List (TechniqueEvidence W)) (k : String) :
    List (TechniqueEvidence W) := evidences.filter fun evidence => key evidence = some k

omit [AddCommMonoid W] [LinearOrder W] in
theorem groupEvidence_eq (evidences : List (TechniqueEvidence W)) :
    groupEvidence key evidences = groupsBy key evidences := by
  rw [groupEvidence, groupsBy]
  congr 1
  funext groups evidence
  cases key evidence <;> rfl

theorem summarizeDimension_eq (evidences : List (TechniqueEvidence W)) :
    summarizeDimension svc key evidences =
      (groupsBy key evidences).map fun group => (group.1, svc.confidence (score svc group.2)) := by
  rw [summarizeDimension, groupEvidence_eq]
  rfl

theorem keys_summarizeDimension (evidences : List (TechniqueEvidence W)) :
    (summarizeDimension svc key evidences).map Prod.fst =
      appendNew [] (evidences.filterMap key) := by
  rw [summarizeDimension_eq, List.map_map, ← keys_groupsBy]
  rfl

theorem lookup_summarizeDimension (evidences : List (TechniqueEvidence W)) (k : String) :
    (summarizeDimension svc key evidences).lookup k =
      if k ∈ evidences.filterMap key then
        some (svc.confidence (score svc (evidenceOf key evidences k)))
      else none := by
  rw [summarizeDimension_eq, lookup_map_value _ fun group => svc.confidence (score svc group),
    lookup_groupsBy]
  split <;> rfl

/-- Each of the evidence has some of the same key and fingerprint that weighs as much. -/
def CoveredBy (evidences evidences' : List (TechniqueEvidence W)) : Prop :=
  ∀ e ∈ evidences, ∀ k, key e = some k → ∃ e' ∈ evidences', key e' = some k ∧
    confidenceFingerprint svc e' = confidenceFingerprint svc e ∧ e.weight ≤ e'.weight

variable {svc key} {evidences evidences' : List (TechniqueEvidence W)}

omit [AddCommMonoid W] in
theorem coveredBy_of_subset (h : evidences ⊆ evidences') : CoveredBy svc key evidences evidences' :=
  fun e he _ hk => ⟨e, h he, hk, rfl, le_rfl⟩

omit [AddCommMonoid W] in
theorem mem_filterMap_of_coveredBy (h : CoveredBy svc key evidences evidences') {k : String}
    (hk : k ∈ evidences.filterMap key) : k ∈ evidences'.filterMap key := by
  obtain ⟨e, he, hkey⟩ := List.mem_filterMap.mp hk
  obtain ⟨e', he', hkey', -, -⟩ := h e he k hkey
  exact List.mem_filterMap.mpr ⟨e', he', hkey'⟩

theorem score_le_score [IsOrderedAddMonoid W] (h : CoveredBy svc key evidences evidences')
    (k : String) :
    score svc (evidenceOf key evidences k) ≤ score svc (evidenceOf key evidences' k) := by
  refine totalBy_le_totalBy fun e he => ?_
  obtain ⟨hmem, hk⟩ := List.mem_filter.mp he
  obtain ⟨e', he', hkey, hfingerprint, hweight⟩ := h e hmem k (of_decide_eq_true hk)
  exact ⟨e', List.mem_filter.mpr ⟨he', decide_eq_true hkey⟩, hfingerprint, hweight⟩

/-- **Covered evidence gives no more confidence.** -/
theorem summarizeDimension_le [IsOrderedAddMonoid W] [Preorder F] (hmono : Monotone svc.confidence)
    (h : CoveredBy svc key evidences evidences') {k : String} {confidence : F}
    (hk : (summarizeDimension svc key evidences).lookup k = some confidence) :
    ∃ confidence', (summarizeDimension svc key evidences').lookup k = some confidence' ∧
      confidence ≤ confidence' := by
  rw [lookup_summarizeDimension] at hk
  by_cases hmem : k ∈ evidences.filterMap key
  · rw [if_pos hmem, Option.some_inj] at hk
    refine ⟨_, ?_, hk.symm.trans_le (hmono (score_le_score h k))⟩
    rw [lookup_summarizeDimension, if_pos (mem_filterMap_of_coveredBy h hmem)]
  · rw [if_neg hmem] at hk
    cases hk

/-- Evidence that covers each other gives the same confidence. -/
theorem lookup_summarizeDimension_congr [IsOrderedAddMonoid W]
    (h : CoveredBy svc key evidences evidences') (h' : CoveredBy svc key evidences' evidences)
    (k : String) :
    (summarizeDimension svc key evidences).lookup k =
      (summarizeDimension svc key evidences').lookup k := by
  rw [lookup_summarizeDimension, lookup_summarizeDimension,
    le_antisymm (score_le_score h k) (score_le_score h' k)]
  exact if_congr ⟨mem_filterMap_of_coveredBy h, mem_filterMap_of_coveredBy h'⟩ rfl rfl

/-- A confidence is of a score that is not negative. -/
theorem exists_score_of_mem_summarizeDimension [IsOrderedAddMonoid W] {entry : String × F}
    (h : entry ∈ summarizeDimension svc key evidences) :
    ∃ s : W, 0 ≤ s ∧ entry.2 = svc.confidence s := by
  rw [summarizeDimension_eq] at h
  obtain ⟨group, -, rfl⟩ := List.mem_map.mp h
  exact ⟨score svc group.2, totalBy_nonneg group.2, rfl⟩

end Summary

/-! ### Recent evidence -/

section Recent

variable {F W : Type} {svc : ProfilerService F W}

theorem mem_recentEvidence {evidences : List (TechniqueEvidence W)} {latestTs : Int}
    {e : TechniqueEvidence W} :
    e ∈ recentEvidence svc evidences latestTs ↔
      e ∈ evidences ∧ latestTs - svc.chainWindowSeconds * 1000000 ≤ e.ts := by
  rw [recentEvidence, List.mem_filter, decide_eq_true_iff, sortedEvidence, List.mem_insertionSort]

/-- The newest of some evidence. -/
structure Newest (evidences : List (TechniqueEvidence W)) (newest : TechniqueEvidence W) :
    Prop where
  mem : newest ∈ evidences
  le : ∀ e ∈ evidences, e.ts ≤ newest.ts

/-- The last of the sorted evidence is as new as any. -/
theorem Newest.getLast? {evidences : List (TechniqueEvidence W)} {newest : TechniqueEvidence W}
    (h : Newest evidences newest) :
    ∃ latest, (sortedEvidence evidences).getLast? = some latest ∧ latest.ts = newest.ts := by
  have hmem : newest ∈ sortedEvidence evidences := (List.mem_insertionSort _).mpr h.mem
  have hne : sortedEvidence evidences ≠ [] := List.ne_nil_of_mem hmem
  have hsorted : (sortedEvidence evidences).Pairwise fun a b => a.ts ≤ b.ts :=
    List.pairwise_insertionSort (fun a b : TechniqueEvidence W => a.ts ≤ b.ts) evidences
  refine ⟨_, List.getLast?_eq_getLast_of_ne_nil hne, le_antisymm ?_ ?_⟩
  · exact h.le _ ((List.mem_insertionSort _).mp (List.getLast_mem hne))
  · exact hsorted.rel_getLast_of_rel_getLast_getLast hmem le_rfl

variable [Zero W] [Add W] [Max W]

variable (svc) in
/-- The confidences and the lists of a profile are of the same recent evidence. -/
theorem rebuildProfile_summaries (attackerKey : String) (evidences : List (TechniqueEvidence W))
    (now : Int) : ∃ recent,
      (rebuildProfile svc attackerKey evidences now).confByTechnique =
        summarizeDimension svc TechniqueEvidence.techId recent ∧
      (rebuildProfile svc attackerKey evidences now).confByTactic =
        summarizeDimension svc TechniqueEvidence.group recent ∧
      (rebuildProfile svc attackerKey evidences now).recentTechniques =
        appendNew [] (recent.filterMap TechniqueEvidence.techId) ∧
      (rebuildProfile svc attackerKey evidences now).recentTactics =
        appendNew [] (recent.filterMap TechniqueEvidence.group) := by
  rw [rebuildProfile]
  split
  · exact ⟨[], rfl, rfl, rfl, rfl⟩
  · exact ⟨_, rfl, rfl, rfl, rfl⟩

variable {evidences : List (TechniqueEvidence W)} {newest : TechniqueEvidence W}

theorem Newest.confByTechnique (h : Newest evidences newest) (attackerKey : String) (now : Int) :
    (rebuildProfile svc attackerKey evidences now).confByTechnique =
      summarizeDimension svc TechniqueEvidence.techId
        (recentEvidence svc evidences newest.ts) := by
  obtain ⟨latest, hlatest, hts⟩ := h.getLast?
  rw [rebuildProfile, hlatest, ← hts]

theorem Newest.confByTactic (h : Newest evidences newest) (attackerKey : String) (now : Int) :
    (rebuildProfile svc attackerKey evidences now).confByTactic =
      summarizeDimension svc TechniqueEvidence.group
        (recentEvidence svc evidences newest.ts) := by
  obtain ⟨latest, hlatest, hts⟩ := h.getLast?
  rw [rebuildProfile, hlatest, ← hts]

/-- An item is added to some evidence, inside the window and not newer than the newest. -/
structure AddsWithin (svc : ProfilerService F W) (newest item : TechniqueEvidence W)
    (evidences evidences' : List (TechniqueEvidence W)) : Prop where
  isNewest : Newest evidences newest
  perm : evidences'.Perm (item :: evidences)
  notNewer : item.ts ≤ newest.ts
  inside : newest.ts - svc.chainWindowSeconds * 1000000 ≤ item.ts

end Recent

section Added

variable {F W : Type} [AddCommMonoid W] [LinearOrder W] {svc : ProfilerService F W}
  {evidences evidences' : List (TechniqueEvidence W)} {newest item : TechniqueEvidence W}

omit [AddCommMonoid W] [LinearOrder W] in
theorem AddsWithin.isNewest' (h : AddsWithin svc newest item evidences evidences') :
    Newest evidences' newest := by
  refine ⟨h.perm.mem_iff.mpr (List.mem_cons_of_mem item h.isNewest.mem), fun e he => ?_⟩
  rcases List.mem_cons.mp (h.perm.mem_iff.mp he) with rfl | he
  · exact h.notNewer
  · exact h.isNewest.le e he

omit [AddCommMonoid W] [LinearOrder W] in
/-- The recent evidence gains the item. -/
theorem AddsWithin.mem_recentEvidence_iff (h : AddsWithin svc newest item evidences evidences')
    (e : TechniqueEvidence W) :
    e ∈ recentEvidence svc evidences' newest.ts ↔
      e = item ∨ e ∈ recentEvidence svc evidences newest.ts := by
  rw [mem_recentEvidence, mem_recentEvidence, h.perm.mem_iff, List.mem_cons]
  constructor
  · rintro ⟨rfl | he, hrecent⟩
    · exact Or.inl rfl
    · exact Or.inr ⟨he, hrecent⟩
  · rintro (rfl | ⟨he, hrecent⟩)
    · exact ⟨Or.inl rfl, h.inside⟩
    · exact ⟨Or.inr he, hrecent⟩

omit [AddCommMonoid W] in
theorem AddsWithin.coveredBy (h : AddsWithin svc newest item evidences evidences')
    (key : TechniqueEvidence W → Option String) :
    CoveredBy svc key (recentEvidence svc evidences newest.ts)
      (recentEvidence svc evidences' newest.ts) :=
  coveredBy_of_subset fun e he => (h.mem_recentEvidence_iff e).mpr (Or.inr he)

/-- An item whose fingerprint some evidence of its key already has, with at least its weight. -/
def AlreadyCounted (svc : ProfilerService F W) (key : TechniqueEvidence W → Option String)
    (recent : List (TechniqueEvidence W)) (item : TechniqueEvidence W) : Prop :=
  ∀ k, key item = some k → ∃ e ∈ recent, key e = some k ∧
    confidenceFingerprint svc e = confidenceFingerprint svc item ∧ item.weight ≤ e.weight

omit [AddCommMonoid W] in
theorem AddsWithin.coveredBy_of_alreadyCounted
    (h : AddsWithin svc newest item evidences evidences')
    {key : TechniqueEvidence W → Option String}
    (hcounted : AlreadyCounted svc key (recentEvidence svc evidences newest.ts) item) :
    CoveredBy svc key (recentEvidence svc evidences' newest.ts)
      (recentEvidence svc evidences newest.ts) := by
  intro e he k hk
  rcases (h.mem_recentEvidence_iff e).mp he with rfl | he
  · exact hcounted k hk
  · exact ⟨e, he, hk, rfl, le_rfl⟩

end Added

/-! ### The real service -/

/-- `round(x, 4)` on the real numbers: it keeps the order, and the numbers of four decimals. -/
structure FourDecimals where
  round : ℝ → ℝ
  monotone : Monotone round
  round_decimal (n : ℤ) : round (n / 10 ^ 4) = n / 10 ^ 4

namespace FourDecimals

variable (r : FourDecimals)

theorem round_zero : r.round 0 = 0 := by simpa using r.round_decimal 0

theorem round_one : r.round 1 = 1 := by
  have h := r.round_decimal (10 ^ 4)
  norm_num at h
  exact h

/-- `round(1 - math.exp(-score), 4)`. -/
noncomputable def confidence (score : ℝ) : ℝ := r.round (1 - Real.exp (-score))

theorem confidence_monotone : Monotone r.confidence := fun _ _ hle =>
  r.monotone (sub_le_sub_left (Real.exp_le_exp.mpr (neg_le_neg hle)) 1)

theorem confidence_mem_Icc {score : ℝ} (h : 0 ≤ score) : r.confidence score ∈ Set.Icc 0 1 := by
  have hpos : 0 < Real.exp (-score) := Real.exp_pos _
  have hle : Real.exp (-score) ≤ 1 := Real.exp_le_one_iff.mpr (neg_nonpos.mpr h)
  constructor
  · rw [← r.round_zero]
    exact r.monotone (by linarith)
  · rw [← r.round_one]
    exact r.monotone (by linarith)

end FourDecimals

/-- Rounding to the nearest, upwards in the middle. -/
noncomputable def nearestFourDecimals : FourDecimals where
  round x := round (x * 10 ^ 4) / 10 ^ 4
  monotone x y hle := by
    have hround : round (x * 10 ^ 4) ≤ round (y * 10 ^ 4) := by
      rw [round_eq, round_eq]
      exact Int.floor_le_floor (by linarith)
    exact div_le_div_of_nonneg_right (Int.cast_le.mpr hround) (by positivity)
  round_decimal n := by
    rw [div_mul_cancel₀ _ (by positivity), round_intCast]

/-- The service with real weights and confidences. -/
noncomputable def realProfiler (py : ProfilerBuiltins) (catalog : AttackCatalog)
    (chainWindowSeconds : Int) (r : FourDecimals) : ProfilerService ℝ ℝ where
  py := py
  catalog := catalog
  chainWindowSeconds := chainWindowSeconds
  confidence := r.confidence

/-- No confidence of the first is greater than that of the second. -/
def NotLowered (confidences confidences' : Dict String ℝ) : Prop :=
  ∀ k confidence, confidences.get? k = some confidence →
    ∃ confidence', confidences'.get? k = some confidence' ∧ confidence ≤ confidence'

/-- What holds of the confidences of every profile. -/
structure ConfidenceLaws (svc : ProfilerService ℝ ℝ) : Prop where
  inUnit : ∀ attackerKey evidences now,
    let profile := rebuildProfile svc attackerKey evidences now
    ∀ entry ∈ profile.confByTechnique ++ profile.confByTactic, entry.2 ∈ Set.Icc (0 : ℝ) 1
  keys : ∀ attackerKey evidences now,
    let profile := rebuildProfile svc attackerKey evidences now
    profile.confByTechnique.map Prod.fst = profile.recentTechniques ∧
      profile.confByTactic.map Prod.fst = profile.recentTactics
  notLowered : ∀ attackerKey evidences evidences' newest item now now',
    AddsWithin svc newest item evidences evidences' →
      let profile := rebuildProfile svc attackerKey evidences now
      let profile' := rebuildProfile svc attackerKey evidences' now'
      NotLowered profile.confByTechnique profile'.confByTechnique ∧
        NotLowered profile.confByTactic profile'.confByTactic
  unchanged : ∀ attackerKey evidences evidences' newest item now now',
    AddsWithin svc newest item evidences evidences' →
    AlreadyCounted svc TechniqueEvidence.techId (recentEvidence svc evidences newest.ts) item →
    AlreadyCounted svc TechniqueEvidence.group (recentEvidence svc evidences newest.ts) item →
      let profile := rebuildProfile svc attackerKey evidences now
      let profile' := rebuildProfile svc attackerKey evidences' now'
      ∀ k, profile'.confByTechnique.get? k = profile.confByTechnique.get? k ∧
        profile'.confByTactic.get? k = profile.confByTactic.get? k

section Laws

variable (py : ProfilerBuiltins) (catalog : AttackCatalog) (window : Int) (r : FourDecimals)

/-- A summary of the real service lies between 0 and 1. -/
theorem summarizeDimension_mem_Icc (key : TechniqueEvidence ℝ → Option String)
    (evidences : List (TechniqueEvidence ℝ)) {entry : String × ℝ}
    (h : entry ∈ summarizeDimension (realProfiler py catalog window r) key evidences) :
    entry.2 ∈ Set.Icc (0 : ℝ) 1 := by
  obtain ⟨s, hs, hentry⟩ := exists_score_of_mem_summarizeDimension h
  rw [hentry]
  exact r.confidence_mem_Icc hs

/-- **The laws of confidence.** -/
theorem confidenceLaws : ConfidenceLaws (realProfiler py catalog window r) where
  inUnit attackerKey evidences now := by
    intro profile entry hentry
    obtain ⟨recent, htechnique, htactic, -, -⟩ :=
      rebuildProfile_summaries (realProfiler py catalog window r) attackerKey evidences now
    rcases List.mem_append.mp hentry with h | h
    · exact summarizeDimension_mem_Icc py catalog window r _ recent (htechnique ▸ h)
    · exact summarizeDimension_mem_Icc py catalog window r _ recent (htactic ▸ h)
  keys attackerKey evidences now := by
    intro profile
    obtain ⟨recent, htechnique, htactic, htechniques, htactics⟩ :=
      rebuildProfile_summaries (realProfiler py catalog window r) attackerKey evidences now
    rw [htechnique, htactic, htechniques, htactics]
    exact ⟨keys_summarizeDimension _ _ recent, keys_summarizeDimension _ _ recent⟩
  notLowered attackerKey evidences evidences' newest item now now' h := by
    intro profile profile'
    rw [NotLowered, NotLowered, h.isNewest.confByTechnique, h.isNewest'.confByTechnique,
      h.isNewest.confByTactic, h.isNewest'.confByTactic]
    exact ⟨fun _ _ => summarizeDimension_le r.confidence_monotone (h.coveredBy _),
      fun _ _ => summarizeDimension_le r.confidence_monotone (h.coveredBy _)⟩
  unchanged attackerKey evidences evidences' newest item now now' h htechnique htactic := by
    intro profile profile' k
    rw [h.isNewest.confByTechnique, h.isNewest'.confByTechnique, h.isNewest.confByTactic,
      h.isNewest'.confByTactic]
    exact ⟨lookup_summarizeDimension_congr (h.coveredBy_of_alreadyCounted htechnique)
        (h.coveredBy _) k,
      lookup_summarizeDimension_congr (h.coveredBy_of_alreadyCounted htactic) (h.coveredBy _) k⟩

end Laws

end Honeynet.Profiler
