import Honeynet.Common.Value
import Honeynet.Lib.Fallible
import Honeynet.Lib.Grouping
import Honeynet.Lib.StableSort
import Mathlib.Algebra.Order.Field.Basic
import Mathlib.Algebra.Order.Field.Rat
import Mathlib.Data.Prod.Lex
import Mathlib.Data.String.Basic
import Mathlib.Tactic.Linarith

/-!
# The technique prior

What the groups that are most like the attacker are known to do and the attacker has not yet been
seen doing.  Numbers are those of an ordered field, and a division by zero has no result.

* `load`: the groups of the prior's file.
* `recommend`: the recommendations for the observed techniques.
* `neighbors`, `support`: the nearest groups, and what they give a technique.
* `recommend_spec`: the recommendations are the techniques with enough support that have not been
  observed; nothing is divided by zero, a group that is skipped has nothing to recommend, and the
  order of the file does not matter.
-/

namespace Honeynet.Controller

open Collections Fallible

/-! ### The file -/

/-- A group; each of its techniques has a name and is listed once. -/
structure AttackGroup where
  groupId : String
  name : String
  techniques : List String
  nodup : techniques.Nodup
  named : "" ∉ techniques

/-- `sorted` of the set of the texts that are not empty. -/
def groupTechniques (values : List Value) : List String :=
  (appendNew [] ((Value.strings values).filter (· ≠ ""))).insertionSort (· ≤ ·)

theorem nodup_groupTechniques (values : List Value) : (groupTechniques values).Nodup :=
  (List.perm_insertionSort _ _).nodup_iff.mpr (nodup_appendNew List.nodup_nil _)

theorem named_groupTechniques (values : List Value) : "" ∉ groupTechniques values := by
  rw [groupTechniques, List.mem_insertionSort, mem_appendNew, List.mem_filter]
  simp

/-- What there is at the path of the prior. -/
inductive PriorFile
  | missing
  | unreadable (message : String)
  | json (payload : Value)

structure FileAttackGroupTechniquePriorRepository where
  groups : List AttackGroup
  degradedReason : Option String

section Load

variable (str : Value → String)

def loadGroup (group : Settings) : Except PyError AttackGroup := do
  let techniques ← (group.getD "techniques" (.list [])).items
  return {
    groupId := str (group.getD "group_id" (.str ""))
    name := str (group.getD "name" (.str ""))
    techniques := groupTechniques techniques
    nodup := nodup_groupTechniques techniques
    named := named_groupTechniques techniques }

def load (path : String) : PriorFile → Except PyError FileAttackGroupTechniquePriorRepository
  | .missing => .ok ⟨[], some ("attack group prior file missing: " ++ path)⟩
  | .unreadable message =>
    .ok ⟨[], some ("could not load attack group prior " ++ path ++ ": " ++ message)⟩
  | .json payload =>
    match payload.dict?.bind fun d => (Settings.get d "groups").list? with
    | none => .ok ⟨[], some ("attack group prior has no groups list: " ++ path)⟩
    | some items => do
      let groups ← (items.filterMap Value.dict?).mapM (loadGroup str)
      return ⟨groups, if groups.isEmpty then some "attack group prior has no usable groups"
        else none⟩

end Load

/-! ### Recommendations -/

section Recommend

variable {F : Type} [Field F] [LinearOrder F]

/-- `a / b`, `none` where it raises a `ZeroDivisionError`. -/
def divide (a b : F) : Option F := if b = 0 then none else some (a / b)

def diceSimilarity (left right : Finset String) : Option F :=
  if left = ∅ ∨ right = ∅ then some 0
  else divide (2 * ((left ∩ right).card : F)) ((left.card : F) + (right.card : F))

def wknnWeight (similarity : F) : Option F :=
  if similarity ≤ 0 then some 0
  else if 1 - similarity ≤ 0 then some 0
  else divide 1 (1 - similarity)

/-- The order of similar groups. -/
def groupKey (scored : F × AttackGroup) : F ×ₗ String := toLex (-scored.1, scored.2.name)

/-- The order of recommendations. -/
def recommendationKey (entry : String × F) : F ×ₗ String := toLex (-entry.2, entry.1)

/-- One neighbor's weight is added to each technique that has not been observed. -/
def addNeighbor (observed : Finset String) (scores : Dict String F)
    (neighbor : F × AttackGroup) : Option (Dict String F) := do
  let weight ← wknnWeight neighbor.1
  if weight ≤ 0 then return scores
  return (neighbor.2.techniques.filter (· ∉ observed)).foldl (fun scores technique =>
    Dict.set scores technique (Dict.getD scores technique 0 + weight)) scores

/-- `round6 x` is `round(x, 6)`. -/
def recommend (round6 : F → F) (groups : List AttackGroup) (observedTechniques : Finset String)
    (topK : Int) (supportThreshold : F) : Option (Dict String F) := do
  let observed := observedTechniques.filter (· ≠ "")
  if observed = ∅ ∨ groups.isEmpty then return []
  let scored ← groups.mapM fun group =>
    (diceSimilarity observed group.techniques.toFinset).map fun score => (score, group)
  let similarGroups := sortedBy groupKey (scored.filter fun entry => 0 < entry.1)
  let neighbors := similarGroups.take (max 1 topK).toNat
  let candidateScores ← neighbors.foldlM (addNeighbor observed) []
  let denominator : F := ((max 1 topK : Int) : F)
  let supports ← candidateScores.mapM fun entry =>
    (divide entry.2 denominator).map fun support => (entry.1, support)
  let normalized := (supports.filter fun entry => supportThreshold ≤ entry.2).map fun entry =>
    (entry.1, round6 entry.2)
  return sortedBy recommendationKey normalized

/-! ### The nearest groups -/

/-- The Sørensen-Dice similarity of two sets. -/
def dice (left right : Finset String) : F :=
  2 * ((left ∩ right).card : F) / ((left.card : F) + (right.card : F))

def similarity (observed : Finset String) (group : AttackGroup) : F :=
  dice observed group.techniques.toFinset

/-- The first `max 1 topK` of the groups that are similar at all. -/
def neighbors (observed : Finset String) (groups : List AttackGroup) (topK : Int) :
    List AttackGroup :=
  (sortedBy (fun group => groupKey (similarity (F := F) observed group, group))
    (groups.filter fun group => 0 < similarity (F := F) observed group)).take (max 1 topK).toNat

/-- What the neighbors that know a technique give it. -/
def support (observed : Finset String) (groups : List AttackGroup) (topK : Int)
    (technique : String) : F :=
  (((neighbors (F := F) observed groups topK).filter fun group =>
      technique ∈ group.techniques).map fun group => 1 / (1 - similarity observed group)).sum /
    ((max 1 topK : Int) : F)

end Recommend

/-! ### Nothing is divided by zero -/

section Division

variable {F : Type} [Field F] [LinearOrder F] [IsStrictOrderedRing F]

omit [IsStrictOrderedRing F] in
theorem divide_of_ne {a b : F} (h : b ≠ 0) : divide a b = some (a / b) := if_neg h

theorem card_add_card_pos {left right : Finset String} (h : left ≠ ∅) :
    (0 : F) < (left.card : F) + (right.card : F) := by
  have hpos : 0 < left.card := Finset.card_pos.mpr (Finset.nonempty_iff_ne_empty.mpr h)
  have hle : (0 : F) ≤ right.card := Nat.cast_nonneg _
  have hlt : (0 : F) < left.card := Nat.cast_pos.mpr hpos
  linarith

theorem diceSimilarity_eq (left right : Finset String) :
    diceSimilarity (F := F) left right = some (dice left right) := by
  rw [diceSimilarity]
  split
  · rename_i h
    have hinter : left ∩ right = ∅ := by
      rcases h with rfl | rfl
      · exact Finset.empty_inter _
      · exact Finset.inter_empty _
    rw [dice, hinter, Finset.card_empty, Nat.cast_zero, mul_zero, zero_div]
  · rename_i h
    exact divide_of_ne (card_add_card_pos fun hleft => h (Or.inl hleft)).ne'

theorem dice_le_one (left right : Finset String) : dice (F := F) left right ≤ 1 := by
  rw [dice]
  refine div_le_one_of_le₀ ?_ (by positivity)
  have hleft : ((left ∩ right).card : F) ≤ left.card :=
    Nat.cast_le.mpr (Finset.card_le_card Finset.inter_subset_left)
  have hright : ((left ∩ right).card : F) ≤ right.card :=
    Nat.cast_le.mpr (Finset.card_le_card Finset.inter_subset_right)
  linarith

/-- Sets of similarity one have the same members. -/
theorem subset_of_dice_eq_one {left right : Finset String} (h : dice (F := F) left right = 1) :
    right ⊆ left := by
  have hleft : left ≠ ∅ := by
    rintro rfl
    rw [dice, Finset.empty_inter, Finset.card_empty, Nat.cast_zero, mul_zero, zero_div] at h
    exact zero_ne_one h
  rw [dice, div_eq_one_iff_eq (card_add_card_pos hleft).ne'] at h
  have hcard : 2 * (left ∩ right).card = left.card + right.card := by exact_mod_cast h
  have hle : (left ∩ right).card ≤ left.card := Finset.card_le_card Finset.inter_subset_left
  have heq : left ∩ right = right :=
    Finset.eq_of_subset_of_card_le Finset.inter_subset_right (by omega)
  exact Finset.inter_eq_right.mp heq

theorem wknnWeight_of_lt {s : F} (hpos : 0 < s) (hlt : s < 1) :
    wknnWeight s = some (1 / (1 - s)) := by
  rw [wknnWeight, if_neg (not_le.mpr hpos), if_neg (not_le.mpr (sub_pos.mpr hlt)),
    divide_of_ne (sub_pos.mpr hlt).ne']

theorem wknnWeight_one : wknnWeight (1 : F) = some 0 := by
  rw [wknnWeight, if_neg (not_le.mpr one_pos), if_pos (sub_self (1 : F)).le]

/-- The techniques of a group that have not been observed. -/
def unobserved (observed : Finset String) (group : AttackGroup) : List String :=
  group.techniques.filter (· ∉ observed)

/-- A group that is as similar as can be has nothing to recommend. -/
theorem unobserved_of_similarity_one {observed : Finset String} {group : AttackGroup}
    (h : similarity (F := F) observed group = 1) : unobserved observed group = [] := by
  rw [unobserved, List.filter_eq_nil_iff]
  intro technique htechnique
  have hmem := subset_of_dice_eq_one h (List.mem_toFinset.mpr htechnique)
  simpa using hmem

end Division

/-! ### What is recommended -/

section Spec

variable {F : Type} [Field F] [LinearOrder F]

/-- What a neighbor adds: its weight, to each of its techniques that has not been observed. -/
def contributions (observed : Finset String) (group : AttackGroup) : List (String × F) :=
  (unobserved observed group).map fun technique => (technique, 1 / (1 - similarity observed group))

/-- The recommendations of the nearest groups. -/
def recommendations (round6 : F → F) (observed : Finset String) (groups : List AttackGroup)
    (topK : Int) (supportThreshold : F) : Dict String F :=
  let scores : Dict String F := sumBy Prod.fst Prod.snd
    ((neighbors (F := F) observed groups topK).flatMap (contributions observed))
  let supports := scores.map fun entry => (entry.1, entry.2 / ((max 1 topK : Int) : F))
  sortedBy recommendationKey ((supports.filter fun entry => supportThreshold ≤ entry.2).map
    fun entry => (entry.1, round6 entry.2))

variable [IsStrictOrderedRing F] {observed : Finset String}

/-- A neighbor adds its contributions. -/
theorem addNeighbor_eq {group : AttackGroup} (hpos : 0 < similarity (F := F) observed group)
    (scores : Dict String F) :
    addNeighbor observed scores (similarity observed group, group) =
      some ((contributions observed group).foldl (fun scores entry =>
        Dict.set scores entry.1 (Dict.getD scores entry.1 0 + entry.2)) scores) := by
  rw [contributions, List.foldl_map, addNeighbor]
  have hle : similarity (F := F) observed group ≤ 1 := dice_le_one _ _
  rcases hle.lt_or_eq with hlt | hone
  · rw [wknnWeight_of_lt hpos hlt, Option.bind_eq_bind, Option.bind_some,
      if_neg (not_le.mpr (one_div_pos.mpr (sub_pos.mpr hlt)))]
    rfl
  · rw [unobserved_of_similarity_one hone, hone, wknnWeight_one, Option.bind_eq_bind,
      Option.bind_some, if_pos le_rfl]
    rfl

theorem foldlM_addNeighbor {groups : List AttackGroup}
    (hpos : ∀ group ∈ groups, 0 < similarity (F := F) observed group) :
    (groups.map fun group => (similarity (F := F) observed group, group)).foldlM
        (addNeighbor observed) [] =
      some (sumBy Prod.fst Prod.snd (groups.flatMap (contributions observed))) := by
  rw [sumBy, List.foldl_flatMap, List.foldlM_map]
  exact foldlM_eq_some (fun group hgroup scores => addNeighbor_eq (hpos group hgroup) scores) []

omit [IsStrictOrderedRing F] in
theorem pos_of_mem_neighbors {groups : List AttackGroup} {topK : Int} {group : AttackGroup}
    (h : group ∈ neighbors (F := F) observed groups topK) :
    0 < similarity (F := F) observed group := by
  have hmem := (mem_sortedBy _).mp (List.mem_of_mem_take h)
  exact of_decide_eq_true (List.mem_filter.mp hmem).2

omit [IsStrictOrderedRing F] in
/-- The neighbors with their similarities, as they are found. -/
theorem map_neighbors (groups : List AttackGroup) (topK : Int) :
    (neighbors (F := F) observed groups topK).map
        (fun group => (similarity (F := F) observed group, group)) =
      (sortedBy groupKey ((groups.map fun group =>
        (similarity (F := F) observed group, group)).filter fun entry => 0 < entry.1)).take
          (max 1 topK).toNat := by
  rw [neighbors, List.map_take, List.filter_map, sortedBy_map]
  rfl

/-- **Nothing is divided by zero.** -/
theorem recommend_eq (round6 : F → F) (groups : List AttackGroup)
    (observedTechniques : Finset String) (topK : Int) (supportThreshold : F) :
    recommend round6 groups observedTechniques topK supportThreshold =
      some (recommendations round6 (observedTechniques.filter (· ≠ "")) groups topK
        supportThreshold) := by
  rw [recommend]
  generalize observedTechniques.filter (· ≠ "") = observed
  by_cases hguard : observed = ∅ ∨ groups.isEmpty
  · have hnone : neighbors (F := F) observed groups topK = [] := by
      refine List.eq_nil_iff_forall_not_mem.mpr fun group hgroup => ?_
      have hpos := pos_of_mem_neighbors hgroup
      rcases hguard with rfl | hempty
      · rw [similarity, dice, Finset.empty_inter, Finset.card_empty, Nat.cast_zero, mul_zero,
          zero_div] at hpos
        exact lt_irrefl _ hpos
      · rw [List.isEmpty_iff.mp hempty] at hgroup
        exact absurd (List.mem_of_mem_take hgroup) List.not_mem_nil
    rw [if_pos hguard, recommendations, hnone]
    rfl
  · have hscored : groups.mapM (fun group =>
        (diceSimilarity observed group.techniques.toFinset).map fun score => (score, group)) =
        some (groups.map fun group => (similarity (F := F) observed group, group)) :=
      mapM_eq_some fun group _ => by rw [diceSimilarity_eq]; rfl
    have hdenominator : ((max 1 topK : Int) : F) ≠ 0 := by
      have hpos : (0 : Int) < max 1 topK := lt_of_lt_of_le one_pos (le_max_left 1 topK)
      exact (Int.cast_pos.mpr hpos).ne'
    have hsupports (scores : Dict String F) : (scores.mapM fun entry =>
        (divide entry.2 ((max 1 topK : Int) : F)).map fun support => (entry.1, support)) =
        some (scores.map fun entry => (entry.1, entry.2 / ((max 1 topK : Int) : F))) :=
      mapM_eq_some fun entry _ => by rw [divide_of_ne hdenominator]; rfl
    rw [if_neg hguard, hscored, Option.bind_eq_bind, Option.bind_some]
    dsimp only
    rw [← map_neighbors, foldlM_addNeighbor fun group => pos_of_mem_neighbors,
      Option.bind_eq_bind, Option.bind_some, hsupports]
    rfl

omit [LinearOrder F] [IsStrictOrderedRing F] in
/-- A group adds its weight once to each technique that it knows. -/
theorem contributions_of {technique : String} (htechnique : technique ∉ observed)
    (group : AttackGroup) :
    ((contributions (F := F) observed group).filter fun entry => entry.1 = technique).map
        Prod.snd =
      if technique ∈ group.techniques then [1 / (1 - similarity observed group)] else [] := by
  have hmem : technique ∈ unobserved observed group ↔ technique ∈ group.techniques := by
    rw [unobserved, List.mem_filter, and_iff_left (decide_eq_true htechnique)]
  have hnodup : (unobserved observed group).Nodup := group.nodup.filter _
  have honce : (unobserved observed group).filter (fun other => other = technique) =
      if technique ∈ group.techniques then [technique] else [] := by
    rw [List.filter_eq]
    by_cases h : technique ∈ group.techniques
    · rw [if_pos h, List.count_eq_one_of_mem hnodup (hmem.mpr h)]
      rfl
    · rw [if_neg h, List.count_eq_zero_of_not_mem fun hin => h (hmem.mp hin)]
      rfl
  rw [contributions, List.filter_map, List.map_map]
  refine (congrArg (List.map _) honce).trans ?_
  split <;> rfl

omit [LinearOrder F] [IsStrictOrderedRing F] in
/-- What the groups add up to for a technique. -/
theorem sum_contributions {technique : String} (htechnique : technique ∉ observed)
    (groups : List AttackGroup) :
    (((groups.flatMap (contributions (F := F) observed)).filter fun entry =>
        entry.1 = technique).map Prod.snd).sum =
      ((groups.filter fun group => technique ∈ group.techniques).map fun group =>
        1 / (1 - similarity (F := F) observed group)).sum := by
  induction groups with
  | nil => rfl
  | cons group groups ih =>
    rw [List.flatMap_cons, List.filter_append, List.map_append, List.sum_append, ih,
      contributions_of htechnique, List.filter_cons]
    by_cases h : technique ∈ group.techniques
    · rw [if_pos h, if_pos (decide_eq_true h), List.map_cons, List.sum_cons, List.sum_cons,
        List.sum_nil, add_zero]
    · rw [if_neg h, if_neg (by simpa using h), List.sum_nil, zero_add]

omit [IsStrictOrderedRing F] in
/-- **What is recommended, and with which value.** -/
theorem mem_recommendations {round6 : F → F} {groups : List AttackGroup} {topK : Int}
    {supportThreshold : F} {technique : String} {value : F} :
    (technique, value) ∈ recommendations round6 observed groups topK supportThreshold ↔
      technique ∉ observed ∧
      (∃ group ∈ neighbors (F := F) observed groups topK, technique ∈ group.techniques) ∧
      supportThreshold ≤ support observed groups topK technique ∧
      value = round6 (support observed groups topK technique) := by
  have hkey : technique ∈ ((neighbors (F := F) observed groups topK).flatMap
      (contributions (F := F) observed)).map Prod.fst ↔ technique ∉ observed ∧
        ∃ group ∈ neighbors (F := F) observed groups topK, technique ∈ group.techniques := by
    simp only [List.mem_map, List.mem_flatMap, contributions, unobserved, List.mem_filter,
      decide_eq_true_eq]
    constructor
    · rintro ⟨_, ⟨group, hgroup, other, ⟨hother, hnew⟩, rfl⟩, rfl⟩
      exact ⟨hnew, group, hgroup, hother⟩
    · rintro ⟨hnew, group, hgroup, htechnique⟩
      exact ⟨_, ⟨group, hgroup, technique, ⟨htechnique, hnew⟩, rfl⟩, rfl⟩
  rw [recommendations, mem_sortedBy]
  simp only [List.mem_map, List.mem_filter, decide_eq_true_eq]
  constructor
  · rintro ⟨_, ⟨⟨⟨other, score⟩, hscore, rfl⟩, hthreshold⟩, heq⟩
    obtain ⟨rfl, rfl⟩ := Prod.mk.inj heq
    obtain ⟨hmem, hsum⟩ := mem_sumBy.mp hscore
    obtain ⟨hnew, hknown⟩ := hkey.mp hmem
    have hvalue : score / ((max 1 topK : Int) : F) = support observed groups topK other := by
      rw [support, ← sum_contributions hnew]
      exact congrArg (· / ((max 1 topK : Int) : F)) hsum
    rw [hvalue] at hthreshold
    exact ⟨hnew, hknown, hthreshold, congrArg round6 hvalue⟩
  · rintro ⟨hnew, hknown, hthreshold, rfl⟩
    have hscore : (technique, (((neighbors (F := F) observed groups topK).filter fun group =>
        technique ∈ group.techniques).map fun group =>
          1 / (1 - similarity (F := F) observed group)).sum) ∈ sumBy Prod.fst Prod.snd
        ((neighbors (F := F) observed groups topK).flatMap (contributions observed)) :=
      mem_sumBy.mpr ⟨hkey.mpr ⟨hnew, hknown⟩, (sum_contributions hnew _).symm⟩
    exact ⟨_, ⟨⟨_, hscore, rfl⟩, hthreshold⟩, rfl⟩

omit [IsStrictOrderedRing F] in
/-- A technique is recommended once. -/
theorem nodup_recommendations (round6 : F → F) (groups : List AttackGroup) (topK : Int)
    (supportThreshold : F) :
    ((recommendations round6 observed groups topK supportThreshold).map Prod.fst).Nodup := by
  rw [recommendations]
  refine ((List.perm_insertionSort _ _).map Prod.fst).nodup_iff.mpr ?_
  rw [List.map_map]
  have hkeys : ((sumBy Prod.fst Prod.snd ((neighbors (F := F) observed groups topK).flatMap
      (contributions (F := F) observed))).map Prod.fst).Nodup := by
    rw [keys_sumBy]
    exact nodup_appendNew List.nodup_nil _
  refine List.Sublist.nodup ?_ hkeys
  have hsublist := (List.filter_sublist (p := fun entry : String × F => supportThreshold ≤ entry.2)
    (l := (sumBy Prod.fst Prod.snd ((neighbors (F := F) observed groups topK).flatMap
      (contributions (F := F) observed))).map fun entry =>
        (entry.1, entry.2 / ((max 1 topK : Int) : F)))).map Prod.fst
  rw [List.map_map] at hsublist
  exact hsublist

/-- A neighbor that is skipped has no technique that has not been observed. -/
theorem unobserved_of_skipped {group : AttackGroup}
    (hpos : 0 < similarity (F := F) observed group) {weight : F}
    (hweight : wknnWeight (similarity (F := F) observed group) = some weight)
    (hskipped : weight ≤ 0) : unobserved observed group = [] := by
  have hle : similarity (F := F) observed group ≤ 1 := dice_le_one _ _
  rcases hle.lt_or_eq with hlt | hone
  · rw [wknnWeight_of_lt hpos hlt] at hweight
    obtain rfl := Option.some.inj hweight
    exact absurd hskipped (not_le.mpr (one_div_pos.mpr (sub_pos.mpr hlt)))
  · exact unobserved_of_similarity_one hone

omit [IsStrictOrderedRing F] in
/-- Groups of different names have the same neighbors in every order. -/
theorem neighbors_eq_of_perm {groups groups' : List AttackGroup} (h : groups'.Perm groups)
    (hnames : (groups.map AttackGroup.name).Nodup) (topK : Int) :
    neighbors (F := F) observed groups' topK = neighbors (F := F) observed groups topK := by
  rw [neighbors, neighbors]
  refine congrArg (List.take _) (sortedBy_eq_of_perm _ (h.filter _) fun x hx y hy hkey => ?_)
  have hname : x.name = y.name := congrArg (fun key => (ofLex key).2) hkey
  exact List.inj_on_of_nodup_map hnames (h.mem_iff.mp (List.mem_filter.mp hx).1)
    (h.mem_iff.mp (List.mem_filter.mp hy).1) hname

/-- **The recommendations of the nearest groups.** -/
structure Wknn (round6 : F → F) (groups : List AttackGroup) (observedTechniques : Finset String)
    (topK : Int) (supportThreshold : F) (result : Dict String F) : Prop where
  once : (result.map Prod.fst).Nodup
  exact : ∀ technique value, (technique, value) ∈ result ↔
    technique ∉ observedTechniques ∧
    (∃ group ∈ neighbors (F := F) (observedTechniques.filter (· ≠ "")) groups topK,
      technique ∈ group.techniques) ∧
    supportThreshold ≤ support (observedTechniques.filter (· ≠ "")) groups topK technique ∧
    value = round6 (support (observedTechniques.filter (· ≠ "")) groups topK technique)
  skipped : ∀ group ∈ neighbors (F := F) (observedTechniques.filter (· ≠ "")) groups topK,
    ∀ weight, wknnWeight (similarity (F := F) (observedTechniques.filter (· ≠ "")) group) =
      some weight → weight ≤ 0 → ∀ technique ∈ group.techniques, technique ∈ observedTechniques
  anyOrder : ∀ groups', groups'.Perm groups → (groups.map AttackGroup.name).Nodup →
    recommend round6 groups' observedTechniques topK supportThreshold = some result

/-- **A recommendation is that of the nearest groups.** -/
theorem recommend_spec (round6 : F → F) (groups : List AttackGroup)
    (observedTechniques : Finset String) (topK : Int) (supportThreshold : F) :
    ∃ result, recommend round6 groups observedTechniques topK supportThreshold = some result ∧
      Wknn round6 groups observedTechniques topK supportThreshold result := by
  have hnamed {group : AttackGroup} {technique : String} (h : technique ∈ group.techniques) :
      technique ∈ observedTechniques.filter (· ≠ "") ↔ technique ∈ observedTechniques := by
    rw [Finset.mem_filter, and_iff_left]
    rintro rfl
    exact group.named h
  refine ⟨_, recommend_eq round6 groups observedTechniques topK supportThreshold, ?_, ?_, ?_, ?_⟩
  · exact nodup_recommendations round6 groups topK supportThreshold
  · intro technique value
    rw [mem_recommendations]
    constructor
    · rintro ⟨hnew, ⟨group, hgroup, hknown⟩, hrest⟩
      exact ⟨fun h => hnew ((hnamed hknown).mpr h), ⟨group, hgroup, hknown⟩, hrest⟩
    · rintro ⟨hnew, ⟨group, hgroup, hknown⟩, hrest⟩
      exact ⟨fun h => hnew ((hnamed hknown).mp h), ⟨group, hgroup, hknown⟩, hrest⟩
  · intro group hgroup weight hweight hskipped technique htechnique
    have hnil := unobserved_of_skipped (pos_of_mem_neighbors hgroup) hweight hskipped
    rw [unobserved, List.filter_eq_nil_iff] at hnil
    exact (hnamed htechnique).mp (by simpa using hnil technique htechnique)
  · intro groups' hperm hnames
    rw [recommend_eq, recommendations, recommendations, neighbors_eq_of_perm hperm hnames]

end Spec

/-- Two groups that scan; one of them also looks at files. -/
def scanningGroups : List AttackGroup :=
  [{ groupId := "G-1", name := "first", techniques := ["T1046", "T1083"]
     nodup := by decide, named := by decide },
   { groupId := "G-2", name := "second", techniques := ["T1046"]
     nodup := by decide, named := by decide }]

/-- The group that is known for nothing else is skipped, the other one recommends its files. -/
theorem scanningGroups_recommend :
    recommend (id : ℚ → ℚ) scanningGroups {"T1046"} 2 1 = some [("T1083", 3 / 2)] ∧
      Wknn (id : ℚ → ℚ) scanningGroups {"T1046"} 2 1 [("T1083", 3 / 2)] := by
  have hresult : recommend (id : ℚ → ℚ) scanningGroups {"T1046"} 2 1 = some [("T1083", 3 / 2)] := by
    decide +kernel
  obtain ⟨result, hrecommend, hspec⟩ := recommend_spec (id : ℚ → ℚ) scanningGroups {"T1046"} 2 1
  obtain rfl := Option.some.inj (hrecommend.symm.trans hresult)
  exact ⟨hresult, hspec⟩

end Honeynet.Controller
