import Honeynet.Common.Value
import Honeynet.Lib.Grouping
import Honeynet.Lib.StableSort
import Mathlib.Data.Prod.Lex
import Mathlib.Data.String.Basic

/-!
# The prior is built from a bundle

A bundle of threat intelligence lists groups, techniques and which group uses which technique.
The prior lists the techniques of every group that is in use.

* `identified`, `usesOf`: what is read of an object of the bundle.
* `collectUses`: the techniques of each group, and the number of uses.
* `buildAttackGroupPrior`: the prior of a bundle.
* `mem_groups`: which groups the prior has, and what it says of them.
* `build_perm`: the order of the bundle does not matter.
* `isTechniqueId_of_knows`: what is listed are technique ids.
-/

namespace Honeynet.GroupPrior

open Collections

/-! ### Objects -/

/-- An object of the type that is neither revoked nor deprecated. -/
def activeType? (expectedType : String) (item : Value) : Option Settings :=
  item.dict?.filter fun item => (item.get "type").str? = some expectedType &&
    (!(item.get "revoked").truthy && !(item.get "x_mitre_deprecated").truthy)

def isTechniqueId (externalId : String) : Bool := "T".toList.isPrefixOf externalId.toList

/-- The id that a reference gives. -/
def referenceTechnique (ref : Value) : Option String := do
  let ref ← ref.dict?
  let externalId ← (ref.get "external_id").str?
  if (ref.get "source_name").str? = some "mitre-attack" && isTechniqueId externalId then
    some externalId
  else none

def attackTechniqueId (item : Settings) : Option String :=
  match (item.get "external_references").list? with
  | some refs => refs.findSome? referenceTechnique
  | none => none

/-- The active objects of a type that have an id. -/
def identified (expectedType : String) (objects : List Value) : List (String × Settings) :=
  objects.filterMap fun item => do
    let item ← activeType? expectedType item
    let id ← (Settings.get item "id").str?
    return (id, item)

def groupsById (objects : List Value) : Dict String Settings :=
  Dict.update [] (identified "intrusion-set" objects)

/-- The techniques that have an id of their own. -/
def techniquesById (objects : List Value) : Dict String String :=
  (Dict.update [] ((identified "attack-pattern" objects).map fun e =>
    (e.1, attackTechniqueId e.2))).filterMap fun e => e.2.map fun technique => (e.1, technique)

/-- The two ends of an active use. -/
def usesOf (item : Value) : Option (String × String) := do
  let relationship ← activeType? "relationship" item
  if (relationship.get "relationship_type").str? = some "uses" then
    let sourceRef ← (relationship.get "source_ref").str?
    let targetRef ← (relationship.get "target_ref").str?
    return (sourceRef, targetRef)
  else none

/-! ### Uses -/

/-- The techniques of each group, and the number of uses. -/
structure Uses where
  techniquesByGroup : Dict String (List String)
  relationshipCount : ℕ

section Uses

variable (groups : Dict String Settings) (techniques : Dict String String)

/-- The group and the technique of a use, where both are known. -/
def resolvedUse (item : Value) : Option (String × String) := do
  let (sourceRef, targetRef) ← usesOf item
  let _ ← groups.get? sourceRef
  let technique ← techniques.get? targetRef
  return (sourceRef, technique)

def addUse (uses : Uses) (item : Value) : Uses :=
  match resolvedUse groups techniques item with
  | some (groupId, technique) =>
    { techniquesByGroup := uses.techniquesByGroup.set groupId
        (addNew (uses.techniquesByGroup.getD groupId []) technique)
      relationshipCount := uses.relationshipCount + 1 }
  | none => uses

def collectUses (objects : List Value) : Uses :=
  objects.foldl (addUse groups techniques) ⟨groups.map fun e => (e.1, []), 0⟩

end Uses

/-! ### The prior -/

structure PriorGroup where
  groupId : String
  name : String
  techniques : List String
  deriving DecidableEq

/-- The order of the groups. -/
def groupOrder (group : PriorGroup) : String ×ₗ String := toLex (group.name, group.groupId)

@[ext] structure AttackGroupPrior where
  source : String
  groups : List PriorGroup
  techniqueCount : ℕ
  relationshipCount : ℕ
  stixObjects : ℕ
  activeIntrusionSets : ℕ
  activeAttackPatterns : ℕ
  deriving DecidableEq

def AttackGroupPrior.groupCount (prior : AttackGroupPrior) : ℕ := prior.groups.length

def AttackGroupPrior.groupsWithoutTechniques (prior : AttackGroupPrior) : Int :=
  (prior.activeIntrusionSets : Int) - prior.groups.length

section Build

variable (str : Value → String)

/-- A group with its techniques; `none` where it has none. -/
def priorGroup (groups : Dict String Settings) (entry : String × List String) :
    Option PriorGroup :=
  if entry.2.isEmpty then none
  else some {
    groupId := entry.1
    name := str (((groups.get? entry.1).getD []).getD "name" (.str entry.1))
    techniques := entry.2.insertionSort (· ≤ ·) }

/-- The prior of the objects of a bundle. -/
def priorOf (stixPath : String) (objects : List Value) : AttackGroupPrior :=
  let uses := collectUses (groupsById objects) (techniquesById objects) objects
  let groups := sortedBy groupOrder
    (uses.techniquesByGroup.filterMap (priorGroup str (groupsById objects)))
  { source := stixPath
    groups
    techniqueCount := (appendNew [] (groups.flatMap PriorGroup.techniques)).length
    relationshipCount := uses.relationshipCount
    stixObjects := objects.length
    activeIntrusionSets := (groupsById objects).length
    activeAttackPatterns := (techniquesById objects).length }

def buildAttackGroupPrior (stixPath : String) (payload : Settings) :
    Except PyError AttackGroupPrior :=
  match payload.getD "objects" (.list []) with
  | .list objects => .ok (priorOf str stixPath objects)
  | _ => .error ⟨.valueError, stixPath ++ " does not contain a STIX objects list"⟩

end Build

/-! ### Which groups the prior has -/

section Groups

variable {objects : List Value}

theorem nodup_keys_groupsById (objects : List Value) :
    ((groupsById objects).map Prod.fst).Nodup := by
  apply nodup_keys_update
  exact List.nodup_nil

/-- The uses of a bundle. -/
def resolvedUses (objects : List Value) : List (String × String) :=
  objects.filterMap (resolvedUse (groupsById objects) (techniquesById objects))

theorem resolvedUse_eq_some {groups : Dict String Settings} {techniques : Dict String String}
    {item : Value} {use : String × String} :
    resolvedUse groups techniques item = some use ↔ ∃ targetRef,
      usesOf item = some (use.1, targetRef) ∧ use.1 ∈ groups.map Prod.fst ∧
        techniques.get? targetRef = some use.2 := by
  unfold resolvedUse
  constructor
  · intro h
    obtain ⟨⟨sourceRef, targetRef⟩, huses, h⟩ := Option.bind_eq_some_iff.mp h
    obtain ⟨group, hgroup, h⟩ := Option.bind_eq_some_iff.mp h
    obtain ⟨technique, htechnique, h⟩ := Option.bind_eq_some_iff.mp h
    obtain rfl := Option.some.inj h
    exact ⟨targetRef, huses, mem_keys_of_lookup hgroup, htechnique⟩
  · intro h
    obtain ⟨targetRef, huses, hgroup, htechnique⟩ := h
    obtain ⟨group, hgroup⟩ := Option.isSome_iff_exists.mp (lookup_isSome_iff.mpr hgroup)
    rw [huses]
    show ((groups.get? use.1).bind fun _ => (techniques.get? targetRef).bind fun technique =>
      some (use.1, technique)) = some use
    rw [Dict.get?, hgroup, htechnique]
    rfl

/-- Only the uses of known groups and techniques count. -/
theorem collectUses_eq (groups : Dict String Settings) (techniques : Dict String String)
    (objects : List Value) :
    collectUses groups techniques objects =
      ⟨fillSets (groups.map fun e => (e.1, []))
        (objects.filterMap (resolvedUse groups techniques)),
        (objects.filterMap (resolvedUse groups techniques)).length⟩ := by
  induction objects using List.reverseRecOn with
  | nil => rfl
  | append_singleton objects item ih =>
    have hstep : collectUses groups techniques (objects ++ [item]) =
        addUse groups techniques (collectUses groups techniques objects) item := by
      unfold collectUses
      rw [List.foldl_append]
      rfl
    rw [hstep, ih, addUse, List.filterMap_append]
    cases huse : resolvedUse groups techniques item with
    | none => rw [List.filterMap_cons_none huse, List.filterMap_nil, List.append_nil]
    | some use =>
      rw [List.filterMap_cons_some huse, List.filterMap_nil, List.length_append, fillSets,
        fillSets, List.foldl_append]
      rfl

/-- **The techniques of each group are those of its uses.** -/
theorem techniquesByGroup_eq (objects : List Value) :
    (collectUses (groupsById objects) (techniquesById objects) objects).techniquesByGroup =
      ((groupsById objects).map Prod.fst).map fun groupId =>
        (groupId, valuesAt (resolvedUses objects) groupId) := by
  have hempty : ((groupsById objects).map fun e => (e.1, ([] : List String))) =
      ((groupsById objects).map Prod.fst).map fun groupId => (groupId, []) := by
    rw [List.map_map]
    rfl
  rw [collectUses_eq, hempty]
  apply fillSets_eq (nodup_keys_groupsById objects)
  intro use huse
  obtain ⟨item, -, hitem⟩ := List.mem_filterMap.mp huse
  obtain ⟨targetRef, -, hgroup, -⟩ := resolvedUse_eq_some.mp hitem
  exact hgroup

/-- The group of an id, if it is in use. -/
def groupOf (str : Value → String) (objects : List Value) (groupId : String) : Option PriorGroup :=
  priorGroup str (groupsById objects) (groupId, valuesAt (resolvedUses objects) groupId)

variable {str : Value → String} {stixPath : String}

theorem groups_eq : (priorOf str stixPath objects).groups = sortedBy groupOrder
    (((groupsById objects).map Prod.fst).filterMap (groupOf str objects)) := by
  show sortedBy groupOrder (List.filterMap (priorGroup str (groupsById objects)) _) = _
  rw [techniquesByGroup_eq, List.filterMap_map]
  rfl

theorem groupId_of_groupOf {groupId : String} {group : PriorGroup}
    (h : groupOf str objects groupId = some group) : group.groupId = groupId := by
  unfold groupOf priorGroup at h
  split at h
  · exact absurd h (by simp)
  · rw [← Option.some.inj h]

/-- A group is listed once. -/
theorem nodup_groupIds : ((priorOf str stixPath objects).groups.map PriorGroup.groupId).Nodup := by
  rw [groups_eq]
  have hperm := List.perm_insertionSort (fun a b => groupOrder a ≤ groupOrder b)
    (((groupsById objects).map Prod.fst).filterMap (groupOf str objects))
  apply ((hperm.map PriorGroup.groupId).nodup_iff).mpr
  have hkey : ∀ groupId group, groupOf str objects groupId = some group →
      group.groupId = id groupId := fun _ _ hgroup => groupId_of_groupOf hgroup
  have hids := map_filterMap_sublist hkey ((groupsById objects).map Prod.fst)
  rw [List.map_id] at hids
  exact hids.nodup (nodup_keys_groupsById objects)

/-- The group knows the technique: an active use says so. -/
def Knows (objects : List Value) (groupId technique : String) : Prop :=
  ∃ item ∈ objects, ∃ targetRef, usesOf item = some (groupId, targetRef) ∧
    (techniquesById objects).get? targetRef = some technique

theorem mem_resolvedUses {groupId technique : String}
    (hgroup : groupId ∈ (groupsById objects).map Prod.fst) :
    (groupId, technique) ∈ resolvedUses objects ↔ Knows objects groupId technique := by
  unfold resolvedUses Knows
  rw [List.mem_filterMap]
  constructor
  · intro h
    obtain ⟨item, hitem, huse⟩ := h
    obtain ⟨targetRef, huses, -, htechnique⟩ := resolvedUse_eq_some.mp huse
    exact ⟨item, hitem, targetRef, huses, htechnique⟩
  · intro h
    obtain ⟨item, hitem, targetRef, huses, htechnique⟩ := h
    exact ⟨item, hitem, resolvedUse_eq_some.mpr ⟨targetRef, huses, hgroup, htechnique⟩⟩

theorem isTechniqueId_of_reference {ref : Value} {technique : String}
    (h : referenceTechnique ref = some technique) : isTechniqueId technique := by
  unfold referenceTechnique at h
  obtain ⟨ref, -, h⟩ := Option.bind_eq_some_iff.mp h
  obtain ⟨externalId, -, h⟩ := Option.bind_eq_some_iff.mp h
  split at h
  · rename_i htechnique
    rw [← Option.some.inj h]
    exact (Bool.and_eq_true_iff.mp htechnique).2
  · exact absurd h (by simp)

theorem isTechniqueId_of_knows {groupId technique : String} (h : Knows objects groupId technique) :
    isTechniqueId technique := by
  obtain ⟨item, -, targetRef, -, htechnique⟩ := h
  obtain ⟨before, after, hentries, -⟩ := List.lookup_eq_some_iff.mp htechnique
  have hmem : (targetRef, technique) ∈ techniquesById objects := by
    rw [hentries]
    exact List.mem_append_right _ List.mem_cons_self
  unfold techniquesById at hmem
  obtain ⟨e, he, hmap⟩ := List.mem_filterMap.mp hmem
  obtain ⟨technique', hread, heq⟩ := Option.map_eq_some_iff.mp hmap
  obtain ⟨-, rfl⟩ := Prod.mk.inj heq
  obtain ⟨e', he', rfl⟩ := (mem_foldl_set he).resolve_left List.not_mem_nil
  obtain ⟨pattern, -, rfl⟩ := List.mem_map.mp he'
  unfold attackTechniqueId at hread
  split at hread
  · obtain ⟨ref, -, href⟩ := List.exists_of_findSome?_eq_some hread
    exact isTechniqueId_of_reference href
  · exact absurd hread (by simp)

/-- **The groups of the prior** are the active groups with a technique, and a group lists what it
knows, in order. -/
theorem mem_groups {group : PriorGroup} : group ∈ (priorOf str stixPath objects).groups ↔
    ∃ item, (groupsById objects).get? group.groupId = some item ∧
      group.name = str (item.getD "name" (.str group.groupId)) ∧
      group.techniques ≠ [] ∧ group.techniques.SortedLT ∧
      ∀ technique, technique ∈ group.techniques ↔ Knows objects group.groupId technique := by
  rw [groups_eq, mem_sortedBy, List.mem_filterMap]
  constructor
  · intro h
    obtain ⟨groupId, hgroupId, hgroup⟩ := h
    obtain rfl := groupId_of_groupOf hgroup
    obtain ⟨item, hitem⟩ := Option.isSome_iff_exists.mp (lookup_isSome_iff.mpr hgroupId)
    unfold groupOf priorGroup at hgroup
    split at hgroup
    · exact absurd hgroup (by simp)
    · rename_i hnonempty
      have hgroup := (Option.some.inj hgroup).symm
      have htechniques : group.techniques =
          (valuesAt (resolvedUses objects) group.groupId).insertionSort (· ≤ ·) :=
        congrArg PriorGroup.techniques hgroup
      have hperm : group.techniques.Perm (valuesAt (resolvedUses objects) group.groupId) := by
        rw [htechniques]
        exact List.perm_insertionSort _ _
      refine ⟨item, hitem, ?_, ?_, ?_, fun technique => ?_⟩
      · have hname := congrArg PriorGroup.name hgroup
        rw [Dict.get?, hitem] at hname
        exact hname
      · intro hnil
        rw [hnil, List.nil_perm] at hperm
        exact hnonempty (by rw [hperm]; rfl)
      · apply List.SortedLE.sortedLT_of_nodup
        · rw [htechniques]
          exact List.sortedLE_insertionSort
        · exact hperm.nodup_iff.mpr (nodup_valuesAt _ _)
      · rw [hperm.mem_iff, mem_valuesAt, mem_resolvedUses hgroupId]
  · intro h
    obtain ⟨item, hitem, hname, hnonempty, hsorted, htechniques⟩ := h
    have hgroupId : group.groupId ∈ (groupsById objects).map Prod.fst :=
      mem_keys_of_lookup hitem
    have hperm : group.techniques.Perm (valuesAt (resolvedUses objects) group.groupId) := by
      apply (List.perm_ext_iff_of_nodup hsorted.nodup (nodup_valuesAt _ _)).mpr
      intro technique
      rw [mem_valuesAt, mem_resolvedUses hgroupId, htechniques]
    refine ⟨group.groupId, hgroupId, ?_⟩
    unfold groupOf priorGroup
    have hvalues : (valuesAt (resolvedUses objects) group.groupId).isEmpty = false := by
      rw [List.isEmpty_eq_false_iff]
      intro hnil
      rw [hnil, List.perm_nil] at hperm
      exact hnonempty hperm
    have hsort : (valuesAt (resolvedUses objects) group.groupId).insertionSort (· ≤ ·) =
        group.techniques :=
      ((List.perm_insertionSort _ _).trans hperm.symm).eq_of_sortedLE
        List.sortedLE_insertionSort hsorted.sortedLE
    rw [if_neg (by rw [hvalues]; simp), hsort]
    show some (PriorGroup.mk group.groupId (str ((((groupsById objects).get? group.groupId).getD
      []).getD "name" (.str group.groupId))) group.techniques) = some group
    rw [hitem, Option.getD_some, ← hname]

/-- A bundle says each thing once: its groups and techniques have ids of their own. -/
structure Distinct (objects : List Value) : Prop where
  groups : ((identified "intrusion-set" objects).map Prod.fst).Nodup
  techniques : ((identified "attack-pattern" objects).map Prod.fst).Nodup

variable {objects' : List Value}

theorem identified_perm (h : objects.Perm objects') (expectedType : String) :
    (identified expectedType objects).Perm (identified expectedType objects') :=
  h.filterMap _

theorem Distinct.perm (hdistinct : Distinct objects) (h : objects.Perm objects') :
    Distinct objects' where
  groups := ((identified_perm h _).map _).nodup_iff.mp hdistinct.groups
  techniques := ((identified_perm h _).map _).nodup_iff.mp hdistinct.techniques

theorem groupsById_perm (hdistinct : Distinct objects) (h : objects.Perm objects') :
    (groupsById objects).Perm (groupsById objects') := by
  unfold groupsById
  rw [update_nil_of_nodup hdistinct.groups, update_nil_of_nodup (hdistinct.perm h).groups]
  exact identified_perm h _

theorem techniquesById_eq (hdistinct : Distinct objects) :
    techniquesById objects = (identified "attack-pattern" objects).filterMap fun e =>
      (attackTechniqueId e.2).map fun technique => (e.1, technique) := by
  have hkeys : (((identified "attack-pattern" objects).map fun e =>
      (e.1, attackTechniqueId e.2)).map Prod.fst).Nodup := by
    rw [List.map_map]
    exact hdistinct.techniques
  unfold techniquesById
  rw [update_nil_of_nodup hkeys, List.filterMap_map]
  rfl

theorem nodup_keys_techniquesById (hdistinct : Distinct objects) :
    ((techniquesById objects).map Prod.fst).Nodup := by
  rw [techniquesById_eq hdistinct]
  have hkey : ∀ (e : String × Settings) (e' : String × String),
      ((attackTechniqueId e.2).map fun technique => (e.1, technique)) = some e' →
        e'.1 = e.1 := by
    intro e e' he
    obtain ⟨technique, -, rfl⟩ := Option.map_eq_some_iff.mp he
    rfl
  exact (map_filterMap_sublist hkey _).nodup hdistinct.techniques

theorem techniquesById_perm (hdistinct : Distinct objects) (h : objects.Perm objects') :
    (techniquesById objects).Perm (techniquesById objects') := by
  rw [techniquesById_eq hdistinct, techniquesById_eq (hdistinct.perm h)]
  exact (identified_perm h _).filterMap _

theorem resolvedUses_perm (hdistinct : Distinct objects) (h : objects.Perm objects') :
    (resolvedUses objects).Perm (resolvedUses objects') := by
  have hsame : resolvedUse (groupsById objects) (techniquesById objects) =
      resolvedUse (groupsById objects') (techniquesById objects') := by
    funext item
    unfold resolvedUse Dict.get?
    simp only [lookup_perm (nodup_keys_groupsById objects) (groupsById_perm hdistinct h),
      lookup_perm (nodup_keys_techniquesById hdistinct) (techniquesById_perm hdistinct h)]
  unfold resolvedUses
  rw [hsame]
  exact h.filterMap _

theorem groupOf_perm (hdistinct : Distinct objects) (h : objects.Perm objects')
    (groupId : String) : groupOf str objects groupId = groupOf str objects' groupId := by
  have hvalues := valuesAt_perm (resolvedUses_perm hdistinct h) groupId
  have hsort : (valuesAt (resolvedUses objects) groupId).insertionSort (· ≤ ·) =
      (valuesAt (resolvedUses objects') groupId).insertionSort (· ≤ ·) :=
    (((List.perm_insertionSort _ _).trans hvalues).trans
      (List.perm_insertionSort _ _).symm).eq_of_sortedLE
        List.sortedLE_insertionSort List.sortedLE_insertionSort
  unfold groupOf priorGroup Dict.get?
  rw [hvalues.isEmpty_eq, hsort,
    lookup_perm (nodup_keys_groupsById objects) (groupsById_perm hdistinct h)]

theorem groups_perm (hdistinct : Distinct objects) (h : objects.Perm objects') :
    (priorOf str stixPath objects).groups = (priorOf str stixPath objects').groups := by
  have hfun : groupOf str objects = groupOf str objects' := funext (groupOf_perm hdistinct h)
  rw [groups_eq, groups_eq, ← hfun]
  apply sortedBy_eq_of_perm
  · exact ((groupsById_perm hdistinct h).map Prod.fst).filterMap _
  · intro group hgroup other hother hkey
    obtain ⟨groupId, -, hgroup⟩ := List.mem_filterMap.mp hgroup
    obtain ⟨otherId, -, hother⟩ := List.mem_filterMap.mp hother
    have hid : group.groupId = other.groupId := congrArg (fun k => (ofLex k).2) hkey
    rw [← groupId_of_groupOf hgroup] at hgroup
    rw [← groupId_of_groupOf hother, ← hid, hgroup] at hother
    exact Option.some.inj hother

/-- **The order of the bundle does not matter.** -/
theorem build_perm {payload payload' : Settings}
    (hread : payload.getD "objects" (.list []) = .list objects)
    (hread' : payload'.getD "objects" (.list []) = .list objects')
    (hdistinct : Distinct objects) (h : objects.Perm objects') :
    buildAttackGroupPrior str stixPath payload = buildAttackGroupPrior str stixPath payload' := by
  have hgroups : (priorOf str stixPath objects).groups = (priorOf str stixPath objects').groups :=
    groups_perm hdistinct h
  have hcount : (priorOf str stixPath objects).relationshipCount =
      (priorOf str stixPath objects').relationshipCount := by
    show (collectUses _ _ objects).relationshipCount = (collectUses _ _ objects').relationshipCount
    rw [collectUses_eq, collectUses_eq]
    exact (resolvedUses_perm hdistinct h).length_eq
  have hprior : priorOf str stixPath objects = priorOf str stixPath objects' := by
    apply AttackGroupPrior.ext
    · rfl
    · exact hgroups
    · show (appendNew [] ((priorOf str stixPath objects).groups.flatMap _)).length = _
      rw [hgroups]
      rfl
    · exact hcount
    · exact h.length_eq
    · exact (groupsById_perm hdistinct h).length_eq
    · exact (techniquesById_perm hdistinct h).length_eq
  unfold buildAttackGroupPrior
  rw [hread, hread']
  exact congrArg Except.ok hprior

end Groups

/-! ### A bundle and its reverse -/

def sampleGroup (id name : String) : Value :=
  .dict [("type", .str "intrusion-set"), ("id", .str id), ("name", .str name)]

def sampleTechnique (id technique : String) : Value :=
  .dict [("type", .str "attack-pattern"), ("id", .str id), ("external_references",
    .list [.dict [("source_name", .str "mitre-attack"), ("external_id", .str technique)]])]

def sampleUse (sourceRef targetRef : String) : Value :=
  .dict [("type", .str "relationship"), ("relationship_type", .str "uses"),
    ("source_ref", .str sourceRef), ("target_ref", .str targetRef)]

def sampleObjects : List Value :=
  [sampleUse "g-2" "p-1", sampleGroup "g-1" "Wolf", sampleGroup "g-2" "Bear",
    sampleTechnique "p-1" "T1190", sampleTechnique "p-2" "T1059", sampleUse "g-1" "p-2",
    sampleUse "g-1" "p-1", sampleUse "g-1" "p-2", sampleUse "g-3" "p-1"]

def sampleStr (value : Value) : String := value.str?.getD ""

theorem sample_distinct : Distinct sampleObjects where
  groups := by decide
  techniques := by decide

/-- Read backwards, the bundle has the same prior. -/
theorem sample_reversed :
    buildAttackGroupPrior sampleStr "b" [("objects", .list sampleObjects)] =
        buildAttackGroupPrior sampleStr "b" [("objects", .list sampleObjects.reverse)] ∧
      ((priorOf sampleStr "b" sampleObjects).groups.map PriorGroup.name = ["Bear", "Wolf"] ∧
        (priorOf sampleStr "b" sampleObjects).relationshipCount = 4) :=
  ⟨build_perm rfl rfl sample_distinct (List.reverse_perm sampleObjects).symm, by decide,
    by decide⟩

end Honeynet.GroupPrior
