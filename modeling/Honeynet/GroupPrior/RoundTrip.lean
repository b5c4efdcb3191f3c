import Honeynet.Controller.Prior
import Honeynet.GroupPrior.Build

/-!
# The prior is written, checked and read

The builder writes the prior with its keys sorted.  A script checks the file before it is
deployed, and the controller reads its groups.

* `sortKeys`: a value whose objects have their keys sorted.
* `buildReport`: what the check says of a file.
* `prior_round_trip`: the check passes what was built if there are groups in it, and the controller
  reads just these groups.
-/

namespace Honeynet.GroupPrior

open Collections Controller Fallible

/-! ### Sorted keys -/

mutual

def sortKeys : Value → Value
  | .list xs => .list (sortKeysList xs)
  | .dict d => .dict (sortedBy Prod.fst (sortKeysEntries d))
  | value => value

def sortKeysList : List Value → List Value
  | [] => []
  | x :: xs => sortKeys x :: sortKeysList xs

def sortKeysEntries : List (String × Value) → List (String × Value)
  | [] => []
  | e :: d => (e.1, sortKeys e.2) :: sortKeysEntries d

end

theorem sortKeysList_eq (xs : List Value) : sortKeysList xs = xs.map sortKeys := by
  induction xs with
  | nil => rfl
  | cons x xs ih =>
    unfold sortKeysList
    rw [ih, List.map_cons]

theorem sortKeysEntries_eq (d : Settings) :
    sortKeysEntries d = d.map fun e => (e.1, sortKeys e.2) := by
  induction d with
  | nil => rfl
  | cons e d ih =>
    unfold sortKeysEntries
    rw [ih, List.map_cons]

@[simp] theorem sortKeys_str (s : String) : sortKeys (.str s) = .str s := by
  unfold sortKeys
  rfl

theorem sortKeys_strs (strings : List String) :
    sortKeys (.list (strings.map .str)) = .list (strings.map .str) := by
  have hsame : ∀ s ∈ strings, sortKeys (.str s) = .str s := fun s _ => sortKeys_str s
  unfold sortKeys
  rw [sortKeysList_eq, List.map_map]
  exact congrArg Value.list (List.map_congr_left hsame)

/-- The object with its keys sorted. -/
def sortedSettings (d : Settings) : Settings := sortedBy Prod.fst (sortKeysEntries d)

theorem sortKeys_dict (d : Settings) : sortKeys (.dict d) = .dict (sortedSettings d) := by
  unfold sortKeys sortedSettings
  rfl

/-- **Reading an entry**: the keys are where they were. -/
theorem lookup_sortedSettings {d : Settings} (h : (d.map Prod.fst).Nodup) (key : String) :
    (sortedSettings d).lookup key = (d.lookup key).map sortKeys := by
  have hkeys : ((sortKeysEntries d).map Prod.fst).Nodup := by
    rw [sortKeysEntries_eq, List.map_map]
    exact h
  have hperm : (sortKeysEntries d).Perm (sortedSettings d) := (List.perm_insertionSort _ _).symm
  rw [← lookup_perm hkeys hperm, sortKeysEntries_eq, lookup_map_value]

/-! ### The file -/

def PriorGroup.value (group : PriorGroup) : Value :=
  .dict [("group_id", .str group.groupId), ("name", .str group.name),
    ("techniques", .list (group.techniques.map .str))]

/-- The prior as it is serialized. -/
def AttackGroupPrior.payload (prior : AttackGroupPrior) : Settings :=
  [("schema_version", .str "v1"), ("source", .str prior.source),
    ("method", .str "attack_group_technique_collaborative_filtering"),
    ("group_count", .int prior.groupCount), ("technique_count", .int prior.techniqueCount),
    ("relationship_count", .int prior.relationshipCount),
    ("groups", .list (prior.groups.map PriorGroup.value)),
    ("build_report", .dict [("stix_objects", .int prior.stixObjects),
      ("active_intrusion_sets", .int prior.activeIntrusionSets),
      ("active_attack_patterns_with_attack_id", .int prior.activeAttackPatterns),
      ("groups_without_techniques", .int prior.groupsWithoutTechniques)])]

/-- What is read back of the file that was written. -/
def AttackGroupPrior.file (prior : AttackGroupPrior) : PriorFile :=
  .json (sortKeys (.dict prior.payload))

/-! ### The check -/

/-- The counts of a report, and the places of the groups that are not valid. -/
structure PriorCounts where
  groupCount : ℕ
  techniqueCount : ℕ
  invalidGroupIndexes : List ℕ
  deriving DecidableEq

structure PriorReport where
  path : String
  ok : Bool
  status : String
  error : Option String := none
  counts : Option PriorCounts := none
  deriving DecidableEq

/-- The techniques that make a group valid. -/
def namesTechnique (items : List Value) : Bool :=
  items.any fun item => item.str?.any isTechniqueId

def invalidGroup (group : Value) : Bool :=
  match group.dict? with
  | some group =>
    (group.get "group_id").str?.isNone || (match (Settings.get group "techniques").list? with
      | some items => !namesTechnique items
      | none => true)
  | none => true

def buildReport (path : String) : PriorFile → Except PyError PriorReport
  | .missing => .ok { path, ok := false, status := "missing" }
  | .unreadable message =>
    .ok { path, ok := false, status := "unreadable", error := some message }
  | .json payload =>
    match payload.dict?.bind fun d => (Settings.get d "groups").list? with
    | none =>
      .ok { path, ok := false, status := "invalid", error := some "groups must be a list" }
    | some groups => do
      let items ← (groups.filterMap Value.dict?).mapM fun group =>
        (Settings.getD group "techniques" (.list [])).items
      let invalidGroupIndexes := (groups.zipIdx.filter fun entry => invalidGroup entry.1).map
        Prod.snd
      let techniques := appendNew [] (Value.strings items.flatten)
      let ok := !groups.isEmpty && (invalidGroupIndexes.isEmpty && !techniques.isEmpty)
      return {
        path
        ok
        status := if ok then "ok" else "invalid"
        counts := some ⟨groups.length, techniques.length, invalidGroupIndexes⟩ }

/-! ### What was built is read back -/

/-- The entries of a written group. -/
def PriorGroup.entries (group : PriorGroup) : Settings :=
  [("group_id", .str group.groupId), ("name", .str group.name),
    ("techniques", .list (group.techniques.map .str))]

theorem sortKeys_value (group : PriorGroup) :
    sortKeys group.value = .dict group.entries := by
  unfold PriorGroup.value
  rw [sortKeys_dict]
  unfold sortedSettings
  rw [sortKeysEntries_eq]
  simp only [List.map_cons, List.map_nil, sortKeys_str, sortKeys_strs]
  have hsorted : (group.entries).Pairwise fun a b => a.1 ≤ b.1 := by
    have hname : "group_id" ≤ "name" := by decide
    have htechniques : "group_id" ≤ "techniques" := by decide
    have hlast : "name" ≤ "techniques" := by decide
    simp [PriorGroup.entries, hname, htechniques, hlast]
  exact congrArg Value.dict hsorted.insertionSort_eq

theorem groups_file (prior : AttackGroupPrior) :
    (sortKeys (.dict prior.payload)).dict?.bind (fun d => (Settings.get d "groups").list?) =
      some (prior.groups.map fun group => .dict group.entries) := by
  rw [sortKeys_dict]
  have hkeys : (prior.payload.map Prod.fst).Nodup := by
    show ["schema_version", "source", "method", "group_count", "technique_count",
      "relationship_count", "groups", "build_report"].Nodup
    decide
  have hlookup : prior.payload.lookup "groups" =
      some (.list (prior.groups.map PriorGroup.value)) := rfl
  have hread : (sortedSettings prior.payload).get "groups" =
      .list (prior.groups.map fun group => .dict group.entries) := by
    unfold Settings.get
    rw [lookup_sortedSettings hkeys, hlookup, Option.map_some, Option.getD_some]
    unfold sortKeys
    rw [sortKeysList_eq, List.map_map]
    congr 1
    apply List.map_congr_left
    intro group _
    exact sortKeys_value group
  show (Settings.get (sortedSettings prior.payload) "groups").list? = _
  rw [hread]
  rfl

theorem strings_map_str (strings : List String) : Value.strings (strings.map .str) = strings := by
  unfold Value.strings
  rw [List.filterMap_map]
  exact List.filterMap_some

section Built

variable {str : Value → String} {stixPath path : String} {objects : List Value}

theorem valid_of_mem {group : PriorGroup} (h : group ∈ (priorOf str stixPath objects).groups) :
    invalidGroup (.dict group.entries) = false := by
  obtain ⟨item, -, -, hnonempty, -, htechniques⟩ := mem_groups.mp h
  obtain ⟨technique, htechnique⟩ := List.exists_mem_of_ne_nil _ hnonempty
  have hid := isTechniqueId_of_knows ((htechniques technique).mp htechnique)
  have hnames : namesTechnique (group.techniques.map .str) = true := by
    unfold namesTechnique
    rw [List.any_map, List.any_eq_true]
    exact ⟨technique, htechnique, hid⟩
  show (false || !namesTechnique (group.techniques.map .str)) = false
  rw [hnames]
  rfl

/-- The controller reads the techniques as they were written. -/
theorem groupTechniques_of_mem {group : PriorGroup}
    (h : group ∈ (priorOf str stixPath objects).groups) :
    groupTechniques (group.techniques.map .str) = group.techniques := by
  obtain ⟨item, -, -, -, hsorted, htechniques⟩ := mem_groups.mp h
  have hnamed : group.techniques.filter (· ≠ "") = group.techniques := by
    apply List.filter_eq_self.mpr
    intro technique htechnique
    have hid := isTechniqueId_of_knows ((htechniques technique).mp htechnique)
    apply decide_eq_true
    intro hempty
    rw [hempty] at hid
    exact absurd hid (by decide)
  unfold groupTechniques
  rw [strings_map_str, hnamed, appendNew_eq_self_iff.mpr hsorted.nodup]
  exact hsorted.sortedLE.pairwise.insertionSort_eq

/-- What the controller holds of a group. -/
def PriorGroup.ofAttackGroup (group : AttackGroup) : PriorGroup :=
  ⟨group.groupId, group.name, group.techniques⟩

/-- **The check and the controller agree with the builder** about what was written. -/
structure ReadBack (str : Value → String) (path : String) (prior : AttackGroupPrior) : Prop where
  report : buildReport path prior.file = .ok {
    path
    ok := !prior.groups.isEmpty
    status := if prior.groups.isEmpty then "invalid" else "ok"
    counts := some ⟨prior.groupCount, prior.techniqueCount, []⟩ }
  loaded : ∃ repository, load str path prior.file = .ok repository ∧
    repository.groups.map PriorGroup.ofAttackGroup = prior.groups ∧
      (repository.degradedReason = none ↔ prior.groups ≠ [])

theorem dicts_entries (groups : List PriorGroup) :
    (groups.map fun group => Value.dict group.entries).filterMap Value.dict? =
      groups.map PriorGroup.entries := by
  rw [List.filterMap_map]
  show groups.filterMap (some ∘ PriorGroup.entries) = _
  rw [List.filterMap_eq_map]

/-- The techniques that are read of the written groups. -/
theorem strings_flatten (groups : List PriorGroup) :
    Value.strings (groups.map fun group => group.techniques.map Value.str).flatten =
      groups.flatMap PriorGroup.techniques := by
  induction groups with
  | nil => rfl
  | cons group groups ih =>
    rw [List.map_cons, List.flatten_cons, List.flatMap_cons, ← ih]
    unfold Value.strings
    rw [List.filterMap_append]
    congr 1
    exact strings_map_str group.techniques

/-- No group is out of order. -/
theorem invalid_of_built :
    ((((priorOf str stixPath objects).groups.map fun group => Value.dict group.entries).zipIdx.filter
      fun entry => invalidGroup entry.1).map Prod.snd) = [] := by
  rw [List.map_eq_nil_iff, List.filter_eq_nil_iff]
  intro entry hentry
  obtain ⟨group, hgroup, heq⟩ := List.mem_map.mp (List.fst_mem_of_mem_zipIdx hentry)
  rw [← heq, valid_of_mem hgroup]
  simp

theorem techniques_isEmpty_of_built :
    (appendNew [] ((priorOf str stixPath objects).groups.flatMap PriorGroup.techniques)).isEmpty =
      (priorOf str stixPath objects).groups.isEmpty := by
  rw [Bool.eq_iff_iff, List.isEmpty_iff, List.isEmpty_iff]
  constructor
  · intro h
    by_contra hne
    obtain ⟨group, hgroup⟩ := List.exists_mem_of_ne_nil _ hne
    obtain ⟨item, -, -, hnonempty, -, -⟩ := mem_groups.mp hgroup
    obtain ⟨technique, htechnique⟩ := List.exists_mem_of_ne_nil _ hnonempty
    have hmem : technique ∈ appendNew []
        ((priorOf str stixPath objects).groups.flatMap PriorGroup.techniques) :=
      mem_appendNew.mpr (Or.inr (List.mem_flatMap.mpr ⟨group, hgroup, htechnique⟩))
    rw [h] at hmem
    exact List.not_mem_nil hmem
  · intro h
    rw [h]
    rfl

theorem report_of_built : buildReport path (priorOf str stixPath objects).file = .ok {
    path
    ok := !(priorOf str stixPath objects).groups.isEmpty
    status := if (priorOf str stixPath objects).groups.isEmpty then "invalid" else "ok"
    counts := some ⟨(priorOf str stixPath objects).groupCount,
      (priorOf str stixPath objects).techniqueCount, []⟩ } := by
  unfold buildReport AttackGroupPrior.file
  simp only [groups_file, dicts_entries, List.mapM_map]
  have hitems : ((priorOf str stixPath objects).groups.mapM fun group =>
      (Settings.getD group.entries "techniques" (.list [])).items) =
        Except.ok ((priorOf str stixPath objects).groups.map fun group =>
          group.techniques.map Value.str) :=
    List.mapM_pure (m := Except PyError)
  have hrun : ((priorOf str stixPath objects).groups.mapM
      ((fun group => (Settings.getD group "techniques" (.list [])).items) ∘ PriorGroup.entries)) =
        Except.ok ((priorOf str stixPath objects).groups.map fun group =>
          group.techniques.map Value.str) := hitems
  rw [hrun]
  simp only [bind, Except.bind, pure, Except.pure, strings_flatten, invalid_of_built,
    techniques_isEmpty_of_built, List.isEmpty_nil, Bool.true_and, List.length_map,
    List.isEmpty_map, Bool.and_self]
  cases (priorOf str stixPath objects).groups.isEmpty <;> rfl

/-- The controller's copy of a group. -/
theorem loadGroup_of_mem (hstr : ∀ s, str (.str s) = s) {group : PriorGroup}
    (h : group ∈ (priorOf str stixPath objects).groups) :
    ∃ held, loadGroup str group.entries = .ok held ∧ PriorGroup.ofAttackGroup held = group := by
  refine ⟨_, rfl, ?_⟩
  show PriorGroup.mk (str (.str group.groupId)) (str (.str group.name))
    (groupTechniques (group.techniques.map .str)) = group
  rw [hstr, hstr, groupTechniques_of_mem h]

theorem loaded_of_built (hstr : ∀ s, str (.str s) = s) : ∃ repository,
    load str path (priorOf str stixPath objects).file = .ok repository ∧
      repository.groups.map PriorGroup.ofAttackGroup = (priorOf str stixPath objects).groups ∧
        (repository.degradedReason = none ↔ (priorOf str stixPath objects).groups ≠ []) := by
  have hall : ∀ groups : List PriorGroup, (∀ group ∈ groups, group ∈ (priorOf str stixPath objects).groups) →
      ∃ held, (groups.map PriorGroup.entries).mapM (loadGroup str) = Except.ok held ∧
        held.map PriorGroup.ofAttackGroup = groups := by
    intro groups
    induction groups with
    | nil => exact fun _ => ⟨[], rfl, rfl⟩
    | cons group groups ih =>
      intro hgroups
      obtain ⟨first, hfirst, heq⟩ := loadGroup_of_mem hstr (hgroups group List.mem_cons_self)
      obtain ⟨rest, hrest, hmap⟩ := ih fun g hg => hgroups g (List.mem_cons_of_mem group hg)
      refine ⟨first :: rest, ?_, by rw [List.map_cons, heq, hmap]⟩
      rw [List.map_cons, List.mapM_cons, hfirst, hrest]
      rfl
  obtain ⟨held, hheld, hmap⟩ := hall _ fun _ => id
  refine ⟨⟨held, if held.isEmpty then some "attack group prior has no usable groups"
    else none⟩, ?_, hmap, ?_⟩
  · unfold load AttackGroupPrior.file
    simp only [groups_file, dicts_entries, hheld]
    rfl
  · rw [← hmap, Ne, List.map_eq_nil_iff]
    cases held with
    | nil => simp
    | cons first rest => simp

/-- **What is built is what is read**: for every bundle. -/
theorem prior_round_trip (hstr : ∀ s, str (.str s) = s) {payload : Settings}
    {prior : AttackGroupPrior} (hbuilt : buildAttackGroupPrior str stixPath payload = .ok prior)
    (path : String) : ReadBack str path prior := by
  unfold buildAttackGroupPrior at hbuilt
  split at hbuilt
  · rename_i objects _
    obtain rfl := Except.ok.inj hbuilt
    exact ⟨report_of_built, loaded_of_built hstr⟩
  · cases hbuilt

/-- The sample is built, checked and read. -/
theorem sample_read_back : buildAttackGroupPrior sampleStr "b"
      [("objects", .list sampleObjects)] = .ok (priorOf sampleStr "b" sampleObjects) ∧
    ReadBack sampleStr "p" (priorOf sampleStr "b" sampleObjects) := by
  have hbuilt : buildAttackGroupPrior sampleStr "b" [("objects", .list sampleObjects)] =
    .ok (priorOf sampleStr "b" sampleObjects) := rfl
  exact ⟨hbuilt, prior_round_trip (fun _ => rfl) hbuilt "p"⟩

end Built

end Honeynet.GroupPrior
