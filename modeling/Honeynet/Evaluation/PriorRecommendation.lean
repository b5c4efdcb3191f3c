import Honeynet.Controller.Prior
import Honeynet.Controller.Request
import Honeynet.Lib.Tally
import Mathlib.Data.Finset.Prod

/-!
# Evaluating the technique prior

At every place of a trace of techniques the prior is asked for what comes next.  One loop counts
how often it is right over all places, another one for each length of what has been observed.

* `accumulatePrefixes`: the counts over all places.
* `accumulateBuckets`: the counts for each bucket of lengths.
* `accumulatePrefixes_eq`, `accumulateBuckets_eq`: the sums of what the places add to them.
* `sums_agree_iff`: the counts of the buckets sum up to the others iff no trace comes back to a
  family of techniques.
-/

namespace Honeynet.Evaluation

open Collections Controller Tally

/-! ### Families of techniques -/

/-- The parent techniques of those that are named, as a list. -/
def techniqueFamilies (techniques : List String) : List String :=
  (techniques.filter (· ≠ "")).map techniqueFamily

def techniqueFamilySet (techniques : List String) : Finset String :=
  (techniqueFamilies techniques).toFinset

/-- The techniques of a scenario in the order in which they were seen. -/
structure Trace where
  scenarioId : String
  techniques : List String

/-- The families in the keys of recommendations, in their order. -/
def recommendationFamilies {F : Type} (recommendations : Dict String F) : List String :=
  appendNew [] (recommendations.flatMap fun entry => techniqueFamilies [entry.1])

/-- The rank of the first recommended family that is a positive, from one on. -/
def firstHitRank (recommendationFamilies : List String) (positives : Finset String) : Option ℕ :=
  (recommendationFamilies.findIdx? (· ∈ positives)).map (· + 1)

/-! ### Counts -/

/-- The counts of one trace. -/
structure ScenarioTotals where
  prefixCount : ℕ := 0
  truePositive : ℕ := 0
  falsePositive : ℕ := 0
  trueNegative : ℕ := 0
  falseNegative : ℕ := 0

def ScenarioTotals.add (s t : ScenarioTotals) : ScenarioTotals where
  prefixCount := s.prefixCount + t.prefixCount
  truePositive := s.truePositive + t.truePositive
  falsePositive := s.falsePositive + t.falsePositive
  trueNegative := s.trueNegative + t.trueNegative
  falseNegative := s.falseNegative + t.falseNegative

/-- The counts over all traces. -/
structure PrefixTotals (F : Type) extends ScenarioTotals where
  prefixHitTotal : ℕ := 0
  reciprocalRankTotal : F
  recommendationCountTotal : ℕ := 0

/-- The counts of one bucket. -/
structure BucketTotals (F : Type) where
  prefixCount : ℕ := 0
  prefixHitTotal : ℕ := 0
  truePositiveTotal : ℕ := 0
  falseNegativeTotal : ℕ := 0
  reciprocalRankTotal : F
  futureTechniqueTotal : ℕ := 0

structure PrefixLengthBucket where
  bucketId : String
  label : String
  minLen : ℕ
  maxLen : Option ℕ

def prefixLengthBuckets : List PrefixLengthBucket :=
  [⟨"short_1_2", "1-2 observed technique families", 1, some 2⟩,
    ⟨"medium_3_4", "3-4 observed technique families", 3, some 4⟩,
    ⟨"long_5_plus", "5+ observed technique families", 5, none⟩]

/-- The metric bucket for one observed length. -/
def prefixLengthBucket (observedFamilyCount : ℕ) : Option String :=
  (prefixLengthBuckets.find? fun bucket => bucket.minLen ≤ observedFamilyCount ∧
    bucket.maxLen.all (observedFamilyCount ≤ ·)).map PrefixLengthBucket.bucketId

section Evaluate

variable {F : Type} [Field F] [LinearOrder F] (round6 : F → F)
  (repository : FileAttackGroupTechniquePriorRepository) (topK : Int) (supportThreshold : F)

/-- `1 / rank`, zero where there is no rank. -/
def reciprocalRank (rank : Option ℕ) : F := rank.elim 0 fun rank => 1 / (rank : F)

/-- The families recommended for what has been observed, `none` where a number is divided by
zero. -/
def recommendedFamilies (observedTechniques : List String) : Option (List String) :=
  (recommend round6 repository.groups observedTechniques.toFinset topK supportThreshold).map
    recommendationFamilies

/-! ### The loop over all places -/

/-- What one place adds to the counts of its trace. -/
def scenarioCounts (recommended positives negatives : Finset String) : ScenarioTotals where
  prefixCount := 1
  truePositive := (recommended ∩ positives).card
  falsePositive := (recommended ∩ negatives).card
  trueNegative := (negatives \ recommended).card
  falseNegative := (positives \ recommended).card

/-- One place of a trace; the second counts are those of the trace. -/
def countPrefix (techniqueUniverse : Finset String) (techniques : List String)
    (s : PrefixTotals F × ScenarioTotals) (index : ℕ) :
    Option (PrefixTotals F × ScenarioTotals) := do
  let observed := techniqueFamilySet (techniques.take index)
  let future := techniqueFamilySet (techniques.drop index)
  let families ← recommendedFamilies round6 repository topK supportThreshold
    (techniques.take index)
  let recommended := families.toFinset
  let evaluationUniverse := techniqueUniverse ∪ observed ∪ future ∪ recommended
  let relevantUniverse := evaluationUniverse \ observed
  let positives := future ∩ relevantUniverse
  let negatives := relevantUniverse \ positives
  let counts := scenarioCounts recommended positives negatives
  return ({
      toScenarioTotals := s.1.toScenarioTotals.add counts
      prefixHitTotal := s.1.prefixHitTotal + if 0 < counts.truePositive then 1 else 0
      reciprocalRankTotal := s.1.reciprocalRankTotal +
        reciprocalRank (firstHitRank families positives)
      recommendationCountTotal := s.1.recommendationCountTotal + recommended.card },
    s.2.add counts)

/-- `range(1, len(techniques))`. -/
def places (techniques : List String) : List ℕ := List.range' 1 (techniques.length - 1)

/-- `round(numerator / denominator, 6)`, zero where nothing is counted. -/
def ratio (numerator : F) (denominator : ℕ) : F :=
  if denominator = 0 then 0 else round6 (numerator / (denominator : F))

/-- What the report says about one trace. -/
structure SourceRow (F : Type) where
  scenarioId : String
  techniqueCount : ℕ
  prefixCount : ℕ
  precision : F
  «recall» : F
  specificity : F
  accuracy : F

def sourceRow (trace : Trace) (scenario : ScenarioTotals) : SourceRow F where
  scenarioId := trace.scenarioId
  techniqueCount := trace.techniques.length
  prefixCount := scenario.prefixCount
  precision := ratio round6 scenario.truePositive (scenario.truePositive + scenario.falsePositive)
  «recall» := ratio round6 scenario.truePositive (scenario.truePositive + scenario.falseNegative)
  specificity :=
    ratio round6 scenario.trueNegative (scenario.trueNegative + scenario.falsePositive)
  accuracy := ratio round6 ((scenario.truePositive + scenario.trueNegative : ℕ) : F)
    (scenario.truePositive + scenario.falsePositive + scenario.trueNegative +
      scenario.falseNegative)

def countTrace (techniqueUniverse : Finset String) (s : PrefixTotals F × List (SourceRow F))
    (trace : Trace) : Option (PrefixTotals F × List (SourceRow F)) := do
  let (totals, scenario) ← (places trace.techniques).foldlM
    (countPrefix round6 repository topK supportThreshold techniqueUniverse trace.techniques)
    (s.1, {})
  return (totals, s.2 ++ [sourceRow round6 trace scenario])

/-- The counts over all places of the traces, and the rows of the traces. -/
def accumulatePrefixes (techniqueUniverse : Finset String) (traces : List Trace) :
    Option (PrefixTotals F × List (SourceRow F)) :=
  traces.foldlM (countTrace round6 repository topK supportThreshold techniqueUniverse)
    ({ reciprocalRankTotal := 0 }, [])

/-! ### The loop for each length -/

def BucketTotals.add (s t : BucketTotals F) : BucketTotals F where
  prefixCount := s.prefixCount + t.prefixCount
  prefixHitTotal := s.prefixHitTotal + t.prefixHitTotal
  truePositiveTotal := s.truePositiveTotal + t.truePositiveTotal
  falseNegativeTotal := s.falseNegativeTotal + t.falseNegativeTotal
  reciprocalRankTotal := s.reciprocalRankTotal + t.reciprocalRankTotal
  futureTechniqueTotal := s.futureTechniqueTotal + t.futureTechniqueTotal

/-- What one place adds to the counts of its bucket. -/
def bucketCounts (future : Finset String) (families : List String) : BucketTotals F :=
  let recommended := families.toFinset
  let truePositives := (recommended ∩ future).card
  let falseNegatives := (future \ recommended).card
  { prefixCount := 1
    prefixHitTotal := if 0 < truePositives then 1 else 0
    truePositiveTotal := truePositives
    falseNegativeTotal := falseNegatives
    reciprocalRankTotal := reciprocalRank (firstHitRank families future)
    futureTechniqueTotal := future.card }

/-- One place of a trace; `none` also where its bucket is missing. -/
def countBucket (techniques : List String) (buckets : Dict String (BucketTotals F)) (index : ℕ) :
    Option (Dict String (BucketTotals F)) :=
  let observed := techniqueFamilySet (techniques.take index)
  let future := techniqueFamilySet (techniques.drop index)
  match prefixLengthBucket observed.card with
  | none => some buckets
  | some bucketId => do
    let bucket ← buckets.get? bucketId
    let families ← recommendedFamilies round6 repository topK supportThreshold
      (techniques.take index)
    return Dict.set buckets bucketId (bucket.add (bucketCounts future families))

def emptyBuckets : Dict String (BucketTotals F) :=
  prefixLengthBuckets.map fun bucket => (bucket.bucketId, { reciprocalRankTotal := 0 })

/-- The counts for each bucket. -/
def accumulateBuckets (traces : List Trace) : Option (Dict String (BucketTotals F)) :=
  traces.foldlM (fun buckets trace => (places trace.techniques).foldlM
    (countBucket round6 repository topK supportThreshold trace.techniques) buckets) emptyBuckets

/-! ### The reports -/

/-- The known techniques. -/
def techniqueUniverseFromPrior : PriorFile → Except PyError (Finset String)
  | .missing => .ok ∅
  | .unreadable _ => .ok ∅
  | .json payload =>
    match payload.dict?.bind fun d => (Settings.get d "groups").list? with
    | none => .ok ∅
    | some items => do
      let techniques ← (items.filterMap Value.dict?).mapM fun group =>
        (group.getD "techniques" (.list [])).items
      return ((Value.strings techniques.flatten).filter (· ≠ "")).toFinset

structure PrefixMetrics (F : Type) where
  supportThreshold : F
  degradedReason : Option String
  prefixCount : ℕ
  hitRateAtK : F
  precision : F
  «recall» : F
  mrr : F
  recommendationCountAvg : F
  specificity : F
  accuracy : F
  sourceBreakdown : List (SourceRow F)

def prefixMetrics (totals : PrefixTotals F) (rows : List (SourceRow F)) : PrefixMetrics F where
  supportThreshold
  degradedReason := repository.degradedReason
  prefixCount := totals.prefixCount
  hitRateAtK := ratio round6 totals.prefixHitTotal totals.prefixCount
  precision := ratio round6 totals.truePositive (totals.truePositive + totals.falsePositive)
  «recall» := ratio round6 totals.truePositive (totals.truePositive + totals.falseNegative)
  mrr := ratio round6 totals.reciprocalRankTotal totals.prefixCount
  recommendationCountAvg := ratio round6 totals.recommendationCountTotal totals.prefixCount
  specificity := ratio round6 totals.trueNegative (totals.trueNegative + totals.falsePositive)
  accuracy := ratio round6 ((totals.truePositive + totals.trueNegative : ℕ) : F)
    (totals.truePositive + totals.falsePositive + totals.trueNegative + totals.falseNegative)
  sourceBreakdown := rows

def evaluateTracePrefixes (str : Value → String) (path : String) (file : PriorFile)
    (traces : List Trace) : Except PyError (Option (PrefixMetrics F)) := do
  let repository ← load str path file
  let techniqueUniverse ← techniqueUniverseFromPrior file
  return (accumulatePrefixes round6 repository topK supportThreshold techniqueUniverse traces).map
    fun s => prefixMetrics round6 repository supportThreshold s.1 s.2

structure BucketRow (F : Type) where
  bucket : PrefixLengthBucket
  prefixCount : ℕ
  hitRateAtK : F
  «recall» : F
  mrr : F
  futureTechniqueCountAvg : F

def bucketRow (buckets : Dict String (BucketTotals F)) (bucket : PrefixLengthBucket) :
    Option (BucketRow F) := do
  let totals ← buckets.get? bucket.bucketId
  return {
    bucket
    prefixCount := totals.prefixCount
    hitRateAtK := ratio round6 totals.prefixHitTotal totals.prefixCount
    «recall» := ratio round6 totals.truePositiveTotal
      (totals.truePositiveTotal + totals.falseNegativeTotal)
    mrr := ratio round6 totals.reciprocalRankTotal totals.prefixCount
    futureTechniqueCountAvg := ratio round6 totals.futureTechniqueTotal totals.prefixCount }

def evaluateTracePrefixLengthBuckets (str : Value → String) (path : String) (file : PriorFile)
    (traces : List Trace) : Except PyError (Option (List (BucketRow F))) := do
  let repository ← load str path file
  return do
    let buckets ← accumulateBuckets round6 repository topK supportThreshold traces
    prefixLengthBuckets.mapM (bucketRow round6 buckets)

end Evaluate

/-! ### What the loops count -/

section Sums

variable {F : Type} [Field F] [LinearOrder F] (round6 : F → F)
  (repository : FileAttackGroupTechniquePriorRepository) (topK : Int) (supportThreshold : F)

/-- The places, the hits, the true positives, the false negatives and the reciprocal ranks. -/
def PrefixTotals.sums (s : PrefixTotals F) : ℕ × ℕ × ℕ × ℕ × F :=
  (s.prefixCount, s.prefixHitTotal, s.truePositive, s.falseNegative, s.reciprocalRankTotal)

def BucketTotals.sums (s : BucketTotals F) : ℕ × ℕ × ℕ × ℕ × F :=
  (s.prefixCount, s.prefixHitTotal, s.truePositiveTotal, s.falseNegativeTotal,
    s.reciprocalRankTotal)

omit [LinearOrder F] in
theorem BucketTotals.sums_add (s t : BucketTotals F) : (s.add t).sums = s.sums + t.sums := rfl

/-- The counts of one place where these families are recommended and those are to come. -/
def placeSums (families : List String) (positives : Finset String) : ℕ × ℕ × ℕ × ℕ × F :=
  (bucketCounts positives families).sums

/-- The families recommended for what has been observed. -/
def familiesAfter (observedTechniques : List String) : List String :=
  recommendationFamilies (recommendations round6
    (observedTechniques.toFinset.filter (· ≠ "")) repository.groups topK supportThreshold)

variable [IsStrictOrderedRing F]

theorem recommendedFamilies_eq (observedTechniques : List String) :
    recommendedFamilies round6 repository topK supportThreshold observedTechniques =
      some (familiesAfter round6 repository topK supportThreshold observedTechniques) := by
  rw [recommendedFamilies, recommend_eq]
  rfl

/-- Among the families that can be recommended, those to come are the ones not observed. -/
theorem future_inter_relevant (techniqueUniverse observed future recommended : Finset String) :
    future ∩ ((techniqueUniverse ∪ observed ∪ future ∪ recommended) \ observed) =
      future \ observed := by
  ext family
  simp only [Finset.mem_inter, Finset.mem_sdiff, Finset.mem_union]
  tauto

theorem countPrefix_sums (techniqueUniverse : Finset String) (techniques : List String)
    (s : PrefixTotals F × ScenarioTotals) (index : ℕ) :
    ∃ s', countPrefix round6 repository topK supportThreshold techniqueUniverse techniques s index =
        some s' ∧ True ∧
      s'.1.sums = s.1.sums + placeSums
        (familiesAfter round6 repository topK supportThreshold (techniques.take index))
        (techniqueFamilySet (techniques.drop index) \
          techniqueFamilySet (techniques.take index)) := by
  rw [countPrefix, recommendedFamilies_eq, Option.bind_eq_bind, Option.bind_some]
  generalize familiesAfter round6 repository topK supportThreshold (techniques.take index) =
    families
  dsimp only
  rw [future_inter_relevant]
  exact ⟨_, rfl, trivial, rfl⟩

omit [IsStrictOrderedRing F] in
/-- Only where nothing has been observed there is no bucket. -/
theorem prefixLengthBucket_eq_none_iff {n : ℕ} : prefixLengthBucket n = none ↔ n = 0 := by
  rw [prefixLengthBucket, Option.map_eq_none_iff, List.find?_eq_none]
  simp only [prefixLengthBuckets, List.forall_mem_cons, Option.all_some, Option.all_none,
    decide_eq_true_eq, not_and, List.not_mem_nil, false_imp_iff, implies_true, and_true,
    not_true_eq_false, imp_false, not_le]
  omega

theorem bucketId_mem {n : ℕ} {bucketId : String} (h : prefixLengthBucket n = some bucketId) :
    bucketId ∈ prefixLengthBuckets.map PrefixLengthBucket.bucketId := by
  obtain ⟨bucket, hbucket, rfl⟩ := Option.map_eq_some_iff.mp h
  exact List.mem_map_of_mem (List.mem_of_find?_eq_some hbucket)

theorem countBucket_sums (techniques : List String) {buckets : Dict String (BucketTotals F)}
    (index : ℕ) (hkeys : buckets.map Prod.fst = prefixLengthBuckets.map PrefixLengthBucket.bucketId) :
    ∃ buckets', countBucket round6 repository topK supportThreshold techniques buckets index =
        some buckets' ∧
      buckets'.map Prod.fst = prefixLengthBuckets.map PrefixLengthBucket.bucketId ∧
      (buckets'.map fun e => e.2.sums).sum = (buckets.map fun e => e.2.sums).sum +
        if techniqueFamilySet (techniques.take index) = ∅ then 0
        else placeSums
          (familiesAfter round6 repository topK supportThreshold (techniques.take index))
          (techniqueFamilySet (techniques.drop index)) := by
  rw [countBucket]
  cases hbucket : prefixLengthBucket (techniqueFamilySet (techniques.take index)).card with
  | none =>
    rw [if_pos (Finset.card_eq_zero.mp (prefixLengthBucket_eq_none_iff.mp hbucket)), add_zero]
    exact ⟨buckets, rfl, hkeys, rfl⟩
  | some bucketId =>
    have hobserved : techniqueFamilySet (techniques.take index) ≠ ∅ := by
      intro hempty
      rw [prefixLengthBucket_eq_none_iff.mpr (Finset.card_eq_zero.mpr hempty)] at hbucket
      cases hbucket
    obtain ⟨bucket, hlookup⟩ := Option.isSome_iff_exists.mp
      (lookup_isSome_iff.mpr (hkeys ▸ bucketId_mem hbucket))
    rw [if_neg hobserved]
    refine ⟨Dict.set buckets bucketId (bucket.add (bucketCounts
      (techniqueFamilySet (techniques.drop index))
      (familiesAfter round6 repository topK supportThreshold (techniques.take index)))), ?_, ?_, ?_⟩
    · rw [recommendedFamilies_eq]
      show (List.lookup bucketId buckets).bind _ = _
      rw [hlookup]
      rfl
    · rw [keys_set_of_lookup hlookup, hkeys]
    · exact sum_values_set hlookup (BucketTotals.sums_add _ _)

/-- The places of all traces. -/
def allPlaces (traces : List Trace) : List (List String × ℕ) :=
  traces.flatMap fun trace => (places trace.techniques).map fun index => (trace.techniques, index)

omit [IsStrictOrderedRing F] in
theorem sum_allPlaces {M : Type*} [AddCommMonoid M] (g : List String × ℕ → M)
    (traces : List Trace) : ((allPlaces traces).map g).sum =
      (traces.map fun trace =>
        ((places trace.techniques).map fun index => g (trace.techniques, index)).sum).sum := by
  rw [allPlaces, sum_flatMap_map]
  simp only [List.map_map]
  rfl

/-- What has been observed at a place. -/
def observedAt (place : List String × ℕ) : Finset String :=
  techniqueFamilySet (place.1.take place.2)

/-- What is yet to come at a place. -/
def futureAt (place : List String × ℕ) : Finset String :=
  techniqueFamilySet (place.1.drop place.2)

/-- What is recommended at a place. -/
def familiesAt (place : List String × ℕ) : List String :=
  familiesAfter round6 repository topK supportThreshold (place.1.take place.2)

/-- **What the loop over all places counts.** -/
theorem accumulatePrefixes_eq (techniqueUniverse : Finset String) (traces : List Trace) :
    ∃ s, accumulatePrefixes round6 repository topK supportThreshold techniqueUniverse traces =
        some s ∧
      s.1.sums = ((allPlaces traces).map fun place =>
        placeSums (familiesAt round6 repository topK supportThreshold place)
          (futureAt place \ observedAt place)).sum := by
  have htrace (s : PrefixTotals F × List (SourceRow F)) (trace : Trace) (_ : True) :
      ∃ s', countTrace round6 repository topK supportThreshold techniqueUniverse s trace =
          some s' ∧ True ∧ s'.1.sums = s.1.sums + ((places trace.techniques).map fun index =>
            placeSums (familiesAt round6 repository topK supportThreshold (trace.techniques, index))
              (futureAt (trace.techniques, index) \ observedAt (trace.techniques, index))).sum := by
    obtain ⟨t, ht, -, hsums⟩ := @foldlM_tally _ _ _ _ (countPrefix round6 repository topK
      supportThreshold techniqueUniverse trace.techniques) (fun _ => True)
      (fun s : PrefixTotals F × ScenarioTotals => s.1.sums) _
      (fun s index _ => countPrefix_sums round6 repository topK supportThreshold techniqueUniverse
        trace.techniques s index) (places trace.techniques) (s.1, {}) trivial
    refine ⟨(t.1, s.2 ++ [sourceRow round6 trace t.2]), ?_, trivial, hsums⟩
    rw [countTrace, ht]
    rfl
  obtain ⟨s, hs, -, hsums⟩ := @foldlM_tally _ _ _ _ _ (fun _ => True)
    (fun s : PrefixTotals F × List (SourceRow F) => s.1.sums) _ htrace traces
    ({ reciprocalRankTotal := 0 }, []) trivial
  refine ⟨s, hs, ?_⟩
  rw [hsums, sum_allPlaces]
  exact zero_add _

/-- **What the loop for each length counts.** -/
theorem accumulateBuckets_eq (traces : List Trace) :
    ∃ buckets, accumulateBuckets round6 repository topK supportThreshold traces = some buckets ∧
      buckets.map Prod.fst = prefixLengthBuckets.map PrefixLengthBucket.bucketId ∧
      (buckets.map fun e => e.2.sums).sum = ((allPlaces traces).map fun place =>
        if observedAt place = ∅ then 0
        else placeSums (familiesAt round6 repository topK supportThreshold place)
          (futureAt place)).sum := by
  have hempty : ((emptyBuckets (F := F)).map fun e => e.2.sums).sum = 0 := by
    simp [emptyBuckets, prefixLengthBuckets, BucketTotals.sums]
  obtain ⟨buckets, hbuckets, hkeys, hsums⟩ := foldlM_tally (fun buckets trace hkeys =>
    foldlM_tally (fun buckets index hkeys => countBucket_sums round6 repository topK
      supportThreshold trace.techniques index hkeys) (places trace.techniques) hkeys) traces
    (s := emptyBuckets) rfl
  refine ⟨buckets, hbuckets, hkeys, ?_⟩
  rw [hsums, sum_allPlaces, hempty, zero_add]
  rfl

/-! ### Both reports come out -/

omit [LinearOrder F] [IsStrictOrderedRing F] in
/-- A prior that loads has techniques. -/
theorem exists_techniqueUniverse {str : Value → String} {path : String} {file : PriorFile}
    {repository : FileAttackGroupTechniquePriorRepository}
    (hload : load str path file = .ok repository) :
    ∃ techniqueUniverse, techniqueUniverseFromPrior file = .ok techniqueUniverse := by
  cases file with
  | missing => exact ⟨∅, rfl⟩
  | unreadable message => exact ⟨∅, rfl⟩
  | json payload =>
    rw [load] at hload
    rw [techniqueUniverseFromPrior]
    cases hgroups : payload.dict?.bind fun d => (Settings.get d "groups").list? with
    | none => exact ⟨∅, rfl⟩
    | some items =>
      rw [hgroups] at hload
      obtain ⟨groups, hmade, -⟩ := Fallible.bind_eq_ok.mp hload
      have hitems : ∀ group ∈ items.filterMap Value.dict?,
          ∃ techniques, (group.getD "techniques" (.list [])).items = .ok techniques := by
        intro group hgroup
        obtain ⟨_, hgroup⟩ := Fallible.forall_of_mapM_ok hmade group hgroup
        obtain ⟨techniques, htechniques, -⟩ := Fallible.bind_eq_ok.mp hgroup
        exact ⟨techniques, htechniques⟩
      obtain ⟨techniques, htechniques⟩ := Fallible.exists_mapM_ok hitems
      refine ⟨((Value.strings techniques.flatten).filter (· ≠ "")).toFinset, ?_⟩
      show (List.mapM _ _ >>= _) = _
      rw [htechniques]
      rfl

/-- **Both loops report on a prior that loads.** -/
theorem evaluations_return {str : Value → String} {path : String} {file : PriorFile}
    {repository : FileAttackGroupTechniquePriorRepository}
    (hload : load str path file = .ok repository) (traces : List Trace) :
    (∃ metrics, evaluateTracePrefixes round6 topK supportThreshold str path file traces =
      .ok (some metrics)) ∧
    ∃ rows, evaluateTracePrefixLengthBuckets round6 topK supportThreshold str path file traces =
      .ok (some rows) := by
  obtain ⟨techniqueUniverse, htechniques⟩ := exists_techniqueUniverse hload
  obtain ⟨s, hs, -⟩ :=
    accumulatePrefixes_eq round6 repository topK supportThreshold techniqueUniverse traces
  obtain ⟨buckets, hbuckets, hkeys, -⟩ :=
    accumulateBuckets_eq round6 repository topK supportThreshold traces
  constructor
  · refine ⟨prefixMetrics round6 repository supportThreshold s.1 s.2, ?_⟩
    rw [evaluateTracePrefixes, hload]
    show (techniqueUniverseFromPrior file >>= _) = _
    rw [htechniques]
    show Except.ok ((accumulatePrefixes _ _ _ _ _ _).map _) = _
    rw [hs]
    rfl
  · have hrow : ∀ bucket ∈ prefixLengthBuckets, ∃ row, bucketRow round6 buckets bucket = some row := by
      intro bucket hbucket
      obtain ⟨totals, htotals⟩ := Option.isSome_iff_exists.mp
        (lookup_isSome_iff.mpr (hkeys ▸ List.mem_map_of_mem hbucket))
      apply Option.isSome_iff_exists.mp
      rw [bucketRow, show buckets.get? bucket.bucketId = some totals from htotals]
      rfl
    obtain ⟨rows, hrows⟩ := Fallible.exists_mapM_some hrow
    refine ⟨rows, ?_⟩
    rw [evaluateTracePrefixLengthBuckets, hload]
    show Except.ok (accumulateBuckets _ _ _ _ _ >>= _) = _
    rw [hbuckets]
    exact congrArg Except.ok hrows

end Sums

/-! ### When the counts agree -/

section Agree

variable {F : Type} [Field F]

/-- All places, hits, positives and ranks of the buckets together. -/
def SumsAgree (totals : PrefixTotals F) (buckets : Dict String (BucketTotals F)) : Prop :=
  (buckets.map fun e => e.2.sums).sum = totals.sums

/-- The families that are to come, recommended or not. -/
def comingOf : ℕ × ℕ × ℕ × ℕ × F →+ ℕ where
  toFun s := s.2.2.1 + s.2.2.2.1
  map_zero' := rfl
  map_add' _ _ := add_add_add_comm _ _ _ _

theorem comingOf_placeSums (families : List String) (positives : Finset String) :
    comingOf (placeSums (F := F) families positives) = positives.card := by
  show (families.toFinset ∩ positives).card + (positives \ families.toFinset).card = _
  rw [Finset.inter_comm, Finset.card_inter_add_card_sdiff]

section Counted

variable {families : List String × ℕ → List String} {xs : List (List String × ℕ)}
  (h : (xs.map fun place => if observedAt place = ∅ then 0
      else placeSums (F := F) (families place) (futureAt place)).sum =
    (xs.map fun place =>
      placeSums (F := F) (families place) (futureAt place \ observedAt place)).sum)
include h

/-- A place without observed families is counted by one loop only. -/
theorem observed_of_sum_eq : ∀ place ∈ xs, observedAt place ≠ ∅ := by
  intro place hplace hempty
  have hcount := congrArg (AddMonoidHom.fst ℕ (ℕ × ℕ × ℕ × F)) h
  rw [map_list_sum, map_list_sum, List.map_map, List.map_map] at hcount
  have hle : ∀ place ∈ xs, (AddMonoidHom.fst ℕ (ℕ × ℕ × ℕ × F)) (if observedAt place = ∅ then 0
      else placeSums (families place) (futureAt place)) ≤ 1 := by
    intro place _
    split
    · exact Nat.zero_le 1
    · exact le_rfl
  have hone := (sum_map_eq_iff hle).mp hcount place hplace
  rw [if_pos hempty] at hone
  exact Nat.zero_ne_one hone

/-- Both loops see the same number of families to come. -/
theorem sum_card_of_sum_eq :
    (xs.map fun place => (futureAt place \ observedAt place).card).sum =
      (xs.map fun place => (futureAt place).card).sum := by
  have hcoming := congrArg comingOf h
  rw [map_list_sum, map_list_sum, List.map_map, List.map_map] at hcoming
  calc
    _ = (xs.map (comingOf ∘ fun place =>
          placeSums (F := F) (families place) (futureAt place \ observedAt place))).sum :=
      congrArg List.sum (List.map_congr_left fun _ _ => (comingOf_placeSums _ _).symm)
    _ = (xs.map (comingOf ∘ fun place => if observedAt place = ∅ then 0
          else placeSums (F := F) (families place) (futureAt place))).sum := hcoming.symm
    _ = _ := by
      refine congrArg List.sum (List.map_congr_left fun place hplace => ?_)
      rw [Function.comp_apply, if_neg (observed_of_sum_eq h place hplace), comingOf_placeSums]

/-- At no place has a family been observed that is to come. -/
theorem disjoint_of_sum_eq : ∀ place ∈ xs, Disjoint (futureAt place) (observedAt place) := by
  intro place hplace
  have hle : ∀ place ∈ xs, (futureAt place \ observedAt place).card ≤ (futureAt place).card :=
    fun place _ => Finset.card_le_card Finset.sdiff_subset
  have hcard := (sum_map_eq_iff hle).mp (sum_card_of_sum_eq h) place hplace
  have hall := Finset.eq_of_subset_of_card_le Finset.sdiff_subset hcard.ge
  exact Finset.sdiff_eq_self_iff_disjoint.mp hall

end Counted

/-- **The counts of two loops agree**, the one without what has been observed and the other with
it, iff at all places something but nothing to come has been observed. -/
theorem sum_placeSums_eq_iff (families : List String × ℕ → List String)
    (xs : List (List String × ℕ)) :
    (xs.map fun place => if observedAt place = ∅ then 0
        else placeSums (F := F) (families place) (futureAt place)).sum =
      (xs.map fun place =>
        placeSums (F := F) (families place) (futureAt place \ observedAt place)).sum ↔
      ∀ place ∈ xs, observedAt place ≠ ∅ ∧ Disjoint (futureAt place) (observedAt place) := by
  constructor
  · intro hsums place hplace
    exact ⟨observed_of_sum_eq hsums place hplace, disjoint_of_sum_eq hsums place hplace⟩
  · intro hplaces
    refine congrArg List.sum (List.map_congr_left fun place hplace => ?_)
    obtain ⟨hobserved, hdisjoint⟩ := hplaces place hplace
    rw [if_neg hobserved, Finset.sdiff_eq_self_of_disjoint hdisjoint]

end Agree

/-! ### Traces that come back to a family -/

theorem mem_places {techniques : List String} {index : ℕ} :
    index ∈ places techniques ↔ 0 < index ∧ index < techniques.length := by
  rw [places, List.mem_range'_1]
  omega

theorem techniqueFamilies_append (earlier later : List String) :
    techniqueFamilies (earlier ++ later) =
      techniqueFamilies earlier ++ techniqueFamilies later := by
  rw [techniqueFamilies, List.filter_append, List.map_append]
  rfl

theorem nodup_techniqueFamilies_singleton (technique : String) :
    (techniqueFamilies [technique]).Nodup := by
  rw [techniqueFamilies, List.filter_singleton]
  cases decide (technique ≠ "") with
  | true => exact List.nodup_singleton _
  | false => exact List.nodup_nil

theorem disjoint_at_iff {techniques : List String} {index : ℕ} :
    Disjoint (futureAt (techniques, index)) (observedAt (techniques, index)) ↔
      List.Disjoint (techniqueFamilies (techniques.take index))
        (techniqueFamilies (techniques.drop index)) := by
  rw [disjoint_comm, Finset.disjoint_left]
  show (∀ family, family ∈ (techniqueFamilies _).toFinset → family ∉
    (techniqueFamilies _).toFinset) ↔ _
  simp only [List.mem_toFinset]
  exact Iff.rfl

/-- **No family comes twice** iff at no place a family is yet to come that has been observed. -/
theorem nodup_techniqueFamilies_iff {techniques : List String} :
    (techniqueFamilies techniques).Nodup ↔ ∀ index ∈ places techniques,
      Disjoint (futureAt (techniques, index)) (observedAt (techniques, index)) := by
  constructor
  · intro hnodup index _
    rw [← List.take_append_drop index techniques, techniqueFamilies_append] at hnodup
    exact disjoint_at_iff.mpr (List.disjoint_of_nodup_append hnodup)
  · induction techniques with
    | nil => exact fun _ => List.nodup_nil
    | cons technique techniques ih =>
      intro hplaces
      have hrest : (techniqueFamilies techniques).Nodup := by
        refine ih fun index hindex => ?_
        rw [mem_places] at hindex
        have hlater := disjoint_at_iff.mp (hplaces (index + 1)
          (mem_places.mpr ⟨by omega, by rw [List.length_cons]; omega⟩))
        rw [List.take_succ_cons, List.drop_succ_cons, ← List.singleton_append,
          techniqueFamilies_append] at hlater
        exact disjoint_at_iff.mpr (List.disjoint_of_disjoint_append_left_right hlater)
      have hapart : List.Disjoint (techniqueFamilies [technique]) (techniqueFamilies techniques) := by
        cases techniques with
        | nil => exact List.disjoint_nil_right _
        | cons second techniques =>
          exact disjoint_at_iff.mp (hplaces 1
            (mem_places.mpr ⟨one_pos, by rw [List.length_cons, List.length_cons]; omega⟩))
      rw [← List.singleton_append, techniqueFamilies_append]
      exact List.Nodup.append (nodup_techniqueFamilies_singleton technique) hrest hapart

/-- The families of a trace are all different, and where something follows its first technique,
that one is named. -/
def FamiliesOnce (techniques : List String) : Prop :=
  (techniqueFamilies techniques).Nodup ∧
    (1 < techniques.length → techniques.head? ≠ some "")

instance (techniques : List String) : Decidable (FamiliesOnce techniques) :=
  inferInstanceAs (Decidable (_ ∧ _))

/-- Something has been observed at all places iff the first technique is named. -/
theorem observedAt_ne_empty_iff {techniques : List String} :
    (∀ index ∈ places techniques, observedAt (techniques, index) ≠ ∅) ↔
      (1 < techniques.length → techniques.head? ≠ some "") := by
  cases techniques with
  | nil => exact iff_of_true (fun _ h => absurd h List.not_mem_nil) fun _ => Option.some_ne_none _ ∘ Eq.symm
  | cons technique techniques =>
    rw [List.head?_cons, ne_eq, Option.some.injEq]
    constructor
    · rintro hobserved hlength rfl
      exact hobserved 1 (mem_places.mpr ⟨one_pos, hlength⟩) rfl
    · intro hnamed index hindex hempty
      rw [mem_places] at hindex
      obtain ⟨k, rfl⟩ : ∃ k, index = k + 1 := ⟨index - 1, by omega⟩
      have hmem : techniqueFamily technique ∈ observedAt (technique :: techniques, k + 1) := by
        refine List.mem_toFinset.mpr (List.mem_map_of_mem (List.mem_filter.mpr
          ⟨List.mem_cons_self, ?_⟩))
        exact decide_eq_true (hnamed (by omega))
      rw [hempty] at hmem
      exact absurd hmem (Finset.notMem_empty _)

theorem familiesOnce_iff {techniques : List String} :
    FamiliesOnce techniques ↔ ∀ index ∈ places techniques,
      observedAt (techniques, index) ≠ ∅ ∧
        Disjoint (futureAt (techniques, index)) (observedAt (techniques, index)) := by
  rw [FamiliesOnce, nodup_techniqueFamilies_iff, ← observedAt_ne_empty_iff, and_comm]
  exact forall₂_and.symm

section Main

variable {F : Type} [Field F] [LinearOrder F] [IsStrictOrderedRing F]

/-- **The two loops agree** on every list of traces exactly where no trace comes back to a family
of techniques. -/
theorem sums_agree_iff (round6 : F → F) (repository : FileAttackGroupTechniquePriorRepository)
    (techniqueUniverse : Finset String) (topK : Int) (supportThreshold : F)
    (traces : List Trace) :
    ∃ totals rows buckets,
      accumulatePrefixes round6 repository topK supportThreshold techniqueUniverse traces =
        some (totals, rows) ∧
      accumulateBuckets round6 repository topK supportThreshold traces = some buckets ∧
      (SumsAgree totals buckets ↔ ∀ trace ∈ traces, FamiliesOnce trace.techniques) := by
  obtain ⟨⟨totals, rows⟩, htotals, hsums⟩ :=
    accumulatePrefixes_eq round6 repository topK supportThreshold techniqueUniverse traces
  obtain ⟨buckets, hbuckets, -, hsums'⟩ :=
    accumulateBuckets_eq round6 repository topK supportThreshold traces
  refine ⟨totals, rows, buckets, htotals, hbuckets, ?_⟩
  have hagree : SumsAgree totals buckets ↔ ∀ place ∈ allPlaces traces,
      observedAt place ≠ ∅ ∧ Disjoint (futureAt place) (observedAt place) := by
    rw [SumsAgree, hsums', hsums, sum_placeSums_eq_iff]
  simp only [hagree, allPlaces, List.mem_flatMap, List.mem_map, familiesOnce_iff]
  constructor
  · intro hplaces trace htrace index hindex
    exact hplaces _ ⟨trace, htrace, index, hindex, rfl⟩
  · intro htraces place hplace
    obtain ⟨trace, htrace, index, hindex, rfl⟩ := hplace
    exact htraces trace htrace index hindex

end Main

/-! ### Two sub-techniques of one family -/

/-- A prior whose file is missing. -/
def noPrior : FileAttackGroupTechniquePriorRepository := ⟨[], none⟩

theorem discovery_agrees : ∃ totals rows buckets,
    accumulatePrefixes id noPrior 10 (0 : ℚ) ∅ [⟨"scan", ["T1046", "T1083", "T1059.004"]⟩] =
      some (totals, rows) ∧
    accumulateBuckets id noPrior 10 (0 : ℚ) [⟨"scan", ["T1046", "T1083", "T1059.004"]⟩] =
      some buckets ∧ SumsAgree totals buckets := by
  obtain ⟨totals, rows, buckets, htotals, hbuckets, hagree⟩ := sums_agree_iff id noPrior ∅ 10
    (0 : ℚ) [⟨"scan", ["T1046", "T1083", "T1059.004"]⟩]
  exact ⟨totals, rows, buckets, htotals, hbuckets, hagree.mpr (by decide)⟩

/-- **Two sub-techniques of one family**: after the first the family has been observed, and only
the buckets still count it as missed. -/
theorem elevation_disagrees : ∃ totals rows buckets,
    accumulatePrefixes id noPrior 10 (0 : ℚ) ∅ [⟨"elevation", ["T1548.001", "T1548.003"]⟩] =
      some (totals, rows) ∧
    accumulateBuckets id noPrior 10 (0 : ℚ) [⟨"elevation", ["T1548.001", "T1548.003"]⟩] =
      some buckets ∧
    totals.falseNegative = 0 ∧ (buckets.map fun e => e.2.falseNegativeTotal).sum = 1 ∧
    ¬ SumsAgree totals buckets := by
  refine ⟨_, _, _, rfl, rfl, rfl, rfl, fun hagree => ?_⟩
  have hmissed := congrArg (fun s : ℕ × ℕ × ℕ × ℕ × ℚ => s.2.2.2.1) hagree
  exact absurd hmissed (by decide)

end Honeynet.Evaluation
