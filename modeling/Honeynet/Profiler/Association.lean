import Honeynet.Profiler.Mapping

/-!
# Which tactic a technique is given

A rule lists its techniques after the tactics they serve.  The tags of all rules that match are
joined, repetitions are dropped, and only then is each technique given the tactic before it.

* `TagPair`: the techniques of a list of tags, each with the nearest tactic before it.
* `evidencePair_iff`: the evidence of an event has the pairs of the event's own tags.
* `tagPair_eventTags_iff`: the tags of an observation pair a technique with the last tactic
  introduced before its first occurrence.
* `associates_iff`: the evidence has the pairs of the rules if and only if every occurrence of a
  technique has that tactic before it.
* `tactic_of_another_rule`: a repeated tactic is lost between two rules.
-/

namespace Honeynet.Profiler

open Collections

section Pairs

variable (py : ProfilerBuiltins) (catalog : AttackCatalog)

/-- The tags of a rule in the profiler's form, in their own order and with repetitions. -/
def ruleTags : Value → List String
  | .list tags => tags.filterMap (profileTag py)
  | _ => []

/-- What a tactic tag names. -/
def tacticTag (tag : String) : Option String :=
  match tagKind py tag with
  | .tactic raw => some raw
  | _ => none

/-- The tactic of the nearest tactic tag, or the one the catalog has for the technique. -/
def tacticAt (before : List String) (technique : String) : Option String :=
  ((before.filterMap (tacticTag py)).getLast?.bind catalog.canonicalTacticName).or
    (catalog.tacticForTechnique technique)

/-- The technique stands among the tags, after a tactic tag for this tactic. -/
def TagPair (tags : List String) (technique : String) (tactic : Option String) : Prop :=
  ∃ before after, tags = before ++ technique :: after ∧ tagKind py technique = .technique ∧
    tactic = tacticAt py catalog before technique

def EvidencePair (evidence : List TechniqueEvidence) (technique : String)
    (tactic : Option String) : Prop :=
  ∃ e ∈ evidence, e.techId = some technique ∧ e.group = tactic

/-- The evidence of an observation pairs techniques and tactics as the rules do. -/
def Associates (observation : Observation) (rules : List Value) : Prop :=
  ∀ (event : FalcoEvent) ids attackerKey bindingId technique tactic,
    EvidencePair (mapEvent py catalog ids attackerKey bindingId
        { event with tags := eventTags py observation rules }) technique tactic ↔
      ∃ rule ∈ rules, TagPair py catalog (ruleTags py rule) technique tactic

/-- The tags before the first occurrence of a technique in the rules, each once. -/
def introduced (rules : List Value) (technique : String) : List String :=
  appendNew [] ((rules.flatMap (ruleTags py)).takeWhile (· != technique))

variable {py catalog}

/-! ### Reading the tags of an event -/

theorem firstNamed_eq_or {a b : Option String} (h : ∀ name, a = some name → name ≠ "") :
    firstNamed a b = a.or b := by
  cases a with
  | none => rfl
  | some name => rw [firstNamed, if_neg (h name rfl)]; rfl

theorem firstNamed_or {a b : Option String} (h : ∀ name, a = some name → name ≠ "") :
    firstNamed (a.or b) b = a.or b := by
  cases a with
  | none =>
    cases b with
    | none => rfl
    | some name =>
      by_cases hname : name = ""
      · simp [firstNamed, hname]
      · simp [firstNamed, hname]
  | some name => exact if_neg (h name rfl)

theorem tagPair_concat {tags : List String} {tag technique : String} {tactic : Option String} :
    TagPair py catalog (tags ++ [tag]) technique tactic ↔
      TagPair py catalog tags technique tactic ∨
        (tag = technique ∧ tagKind py technique = .technique ∧
          tactic = tacticAt py catalog tags technique) := by
  constructor
  · rintro ⟨before, after, htags, hkind, htactic⟩
    rcases List.eq_nil_or_concat after with rfl | ⟨front, last, rfl⟩
    · obtain ⟨rfl, htag⟩ := List.append_inj' htags rfl
      exact Or.inr ⟨List.singleton_inj.mp htag, hkind, htactic⟩
    · rw [List.concat_eq_append, ← List.cons_append, ← List.append_assoc] at htags
      obtain ⟨htags, -⟩ := List.append_inj' htags rfl
      exact Or.inl ⟨before, front, htags, hkind, htactic⟩
  · rintro (⟨before, after, rfl, hkind, htactic⟩ | ⟨rfl, hkind, htactic⟩)
    · exact ⟨before, after ++ [tag], by simp, hkind, htactic⟩
    · exact ⟨tags, [], rfl, hkind, htactic⟩

theorem tacticTag_of_kind {tag : String} (h : ∀ raw, tagKind py tag ≠ .tactic raw) :
    tacticTag py tag = none := by
  rw [tacticTag]
  cases hkind : tagKind py tag with
  | tactic raw => exact absurd hkind (h raw)
  | _ => rfl

variable (py catalog) in
/-- What the profiler has of the tags it has read. -/
structure HasRead (tags : List String) (s : MappingState) : Prop where
  current : s.currentTactic =
    (tags.filterMap (tacticTag py)).getLast?.bind catalog.canonicalTacticName
  pairs : ∀ technique tactic, (some technique, tactic) ∈ s.seen ↔
    TagPair py catalog tags technique tactic
  mappings : ∀ technique tactic, (some technique, tactic) ∈ s.seen ↔
    ∃ m ∈ s.mappings, m.techId = some technique ∧ m.tactic = tactic
  tacticOnly : ∀ m ∈ s.tacticOnly, m.techId = none

theorem current_ne {tags : List String} {name : String}
    (h : (tags.filterMap (tacticTag py)).getLast?.bind catalog.canonicalTacticName = some name) :
    name ≠ "" := by
  obtain ⟨raw, -, hraw⟩ := Option.bind_eq_some_iff.mp h
  exact catalog.canonical_ne raw name hraw

/-- A tag that is no technique adds no pair. -/
theorem tagPair_concat_of_ne {tags : List String} {tag technique : String}
    {tactic : Option String} (h : tagKind py tag ≠ .technique) :
    TagPair py catalog (tags ++ [tag]) technique tactic ↔
      TagPair py catalog tags technique tactic := by
  rw [tagPair_concat, or_iff_left]
  rintro ⟨rfl, hkind, -⟩
  exact h hkind

/-- A tag that is no tactic leaves the current one in place. -/
theorem current_concat_of_ne {tags : List String} {tag : String}
    (h : ∀ raw, tagKind py tag ≠ .tactic raw) :
    ((tags ++ [tag]).filterMap (tacticTag py)).getLast?.bind catalog.canonicalTacticName =
      (tags.filterMap (tacticTag py)).getLast?.bind catalog.canonicalTacticName := by
  rw [List.filterMap_append, List.filterMap_cons_none (tacticTag_of_kind h), List.filterMap_nil,
    List.append_nil]

section Step

variable {event : FalcoEvent} {tags : List String} {s : MappingState} {tag : String}

/-- A technique is mapped with the current tactic, or its catalog tactic, once for each pair. -/
theorem hasRead_technique (h : HasRead py catalog tags s) (hkind : tagKind py tag = .technique) :
    HasRead py catalog (tags ++ [tag]) (mappingStep py catalog event s tag) := by
  have hcurrent : s.currentTactic =
      ((tags ++ [tag]).filterMap (tacticTag py)).getLast?.bind catalog.canonicalTacticName := by
    rw [current_concat_of_ne (by simp [hkind]), h.current]
  have htactic : firstNamed s.currentTactic (catalog.tacticForTechnique tag) =
      tacticAt py catalog tags tag := by
    rw [h.current, firstNamed_eq_or fun name => current_ne, tacticAt]
  simp only [mappingStep, hkind, htactic]
  by_cases hseen : (some tag, tacticAt py catalog tags tag) ∈ s.seen
  · rw [if_pos hseen]
    refine ⟨hcurrent, ?_, h.mappings, h.tacticOnly⟩
    intro technique tactic
    rw [h.pairs, tagPair_concat, or_iff_left_of_imp]
    rintro ⟨rfl, -, rfl⟩
    exact (h.pairs _ _).mp hseen
  · rw [if_neg hseen]
    have hnew : ∀ technique tactic, (some technique, tactic) ∈
        s.seen ++ [(some tag, tacticAt py catalog tags tag)] ↔
          (some technique, tactic) ∈ s.seen ∨
            tag = technique ∧ tactic = tacticAt py catalog tags technique := by
      intro technique tactic
      rw [List.mem_append, List.mem_singleton, Prod.mk.injEq, Option.some.injEq]
      refine or_congr_right ?_
      constructor
      · rintro ⟨rfl, rfl⟩
        exact ⟨rfl, rfl⟩
      · rintro ⟨rfl, rfl⟩
        exact ⟨rfl, rfl⟩
    refine ⟨hcurrent, ?_, ?_, h.tacticOnly⟩
    · intro technique tactic
      rw [hnew, h.pairs, tagPair_concat]
      refine or_congr_right ?_
      constructor
      · rintro ⟨rfl, rfl⟩
        exact ⟨rfl, hkind, rfl⟩
      · rintro ⟨rfl, -, rfl⟩
        exact ⟨rfl, rfl⟩
    · intro technique tactic
      rw [hnew, h.mappings]
      simp only [List.mem_append, List.mem_singleton, or_and_right, exists_or, exists_eq_left,
        Option.some.injEq]
      refine or_congr_right ?_
      constructor
      · rintro ⟨rfl, rfl⟩
        exact ⟨rfl, rfl⟩
      · rintro ⟨rfl, rfl⟩
        exact ⟨rfl, rfl⟩

/-- A tactic becomes the current one, and is mapped on its own if it is new. -/
theorem hasRead_tactic (h : HasRead py catalog tags s) {raw : String}
    (hkind : tagKind py tag = .tactic raw) :
    HasRead py catalog (tags ++ [tag]) (mappingStep py catalog event s tag) := by
  have hsome : tacticTag py tag = some raw := by rw [tacticTag, hkind]
  have hcurrent : catalog.canonicalTacticName raw =
      ((tags ++ [tag]).filterMap (tacticTag py)).getLast?.bind catalog.canonicalTacticName := by
    rw [List.filterMap_append, List.filterMap_cons_some hsome, List.filterMap_nil,
      List.getLast?_concat, Option.bind_some]
  have hpairs : ∀ technique tactic, TagPair py catalog (tags ++ [tag]) technique tactic ↔
      TagPair py catalog tags technique tactic :=
    fun _ _ => tagPair_concat_of_ne (by simp [hkind])
  simp only [mappingStep, hkind]
  by_cases hold : catalog.canonicalTacticName raw = none ∨
      (none, catalog.canonicalTacticName raw) ∈ s.seen
  · rw [if_pos hold]
    exact ⟨hcurrent, fun technique tactic => by rw [hpairs]; exact h.pairs technique tactic,
      h.mappings, h.tacticOnly⟩
  · rw [if_neg hold]
    refine ⟨hcurrent, ?_, ?_, ?_⟩
    · intro technique tactic
      rw [hpairs, ← h.pairs]
      simp
    · intro technique tactic
      rw [← h.mappings]
      simp
    · intro m hm
      rcases List.mem_append.mp hm with hm | hm
      · exact h.tacticOnly m hm
      · rw [List.mem_singleton.mp hm]

theorem hasRead_step (h : HasRead py catalog tags s) (tag : String) :
    HasRead py catalog (tags ++ [tag]) (mappingStep py catalog event s tag) := by
  cases hkind : tagKind py tag with
  | technique => exact hasRead_technique h hkind
  | tactic raw => exact hasRead_tactic h hkind
  | other =>
    simp only [mappingStep, hkind]
    refine ⟨?_, ?_, h.mappings, h.tacticOnly⟩
    · rw [current_concat_of_ne (by simp [hkind]), h.current]
    · intro technique tactic
      rw [tagPair_concat_of_ne (by simp [hkind]), h.pairs]

end Step

theorem hasRead_foldl (event : FalcoEvent) (tags : List String) :
    HasRead py catalog tags (tags.foldl (mappingStep py catalog event) {}) := by
  induction tags using List.reverseRecOn with
  | nil =>
    refine ⟨rfl, ?_, ?_, fun m hm => absurd hm List.not_mem_nil⟩
    · intro technique tactic
      simp [TagPair]
    · intro technique tactic
      simp
  | append_singleton tags tag ih =>
    rw [List.foldl_append]
    exact hasRead_step ih tag

theorem mem_deriveAttackMappings_iff (event : FalcoEvent) (technique : String)
    (tactic : Option String) :
    (∃ m ∈ deriveAttackMappings py catalog event, m.techId = some technique ∧ m.tactic = tactic) ↔
      TagPair py catalog event.tags technique tactic := by
  have hread : HasRead py catalog event.tags _ := hasRead_foldl event event.tags
  rw [← hread.pairs, hread.mappings, deriveAttackMappings, mappingsFromTags]
  by_cases hnil : (event.tags.foldl (mappingStep py catalog event) {}).mappings = []
  · -- without a technique every mapping is of a tactic alone, or the fallback
    rw [if_pos hnil, hnil]
    refine iff_of_false ?_ (by simp)
    rintro ⟨m, hm, htech, -⟩
    by_cases htactics : (event.tags.foldl (mappingStep py catalog event) {}).tacticOnly = []
    · rw [if_pos htactics, List.mem_singleton] at hm
      rw [hm] at htech
      exact absurd htech (by simp)
    · rw [if_neg htactics] at hm
      rw [hread.tacticOnly m hm] at htech
      exact absurd htech (by simp)
  · rw [if_neg hnil, if_neg hnil]

/-- **The evidence of an event has the pairs of the event's tags.** -/
theorem evidencePair_iff (event : FalcoEvent) (ids : ℕ → String) (attackerKey bindingId : String)
    (technique : String) (tactic : Option String) :
    EvidencePair (mapEvent py catalog ids attackerKey bindingId event) technique tactic ↔
      TagPair py catalog event.tags technique tactic := by
  -- a technique's own tactic is already the catalog's where no tag names one
  have hgroup : ∀ m ∈ deriveAttackMappings py catalog event, m.techId = some technique →
      firstNamed m.tactic (m.techId.bind catalog.tacticForTechnique) = m.tactic := by
    intro m hm htech
    obtain ⟨before, after, -, -, htactic⟩ :=
      (mem_deriveAttackMappings_iff event technique m.tactic).mp ⟨m, hm, htech, rfl⟩
    rw [htech, Option.bind_some, htactic, tacticAt, firstNamed_or fun name => current_ne]
  rw [← mem_deriveAttackMappings_iff]
  constructor
  · rintro ⟨e, he, htech, hgroup'⟩
    obtain ⟨i, hi, rfl⟩ := List.mem_mapIdx.mp he
    have hm := List.getElem_mem hi
    exact ⟨_, hm, htech, (hgroup _ hm htech).symm.trans hgroup'⟩
  · rintro ⟨m, hm, htech, htactic⟩
    obtain ⟨i, hi, rfl⟩ := List.getElem_of_mem hm
    exact ⟨_, List.mem_mapIdx.mpr ⟨i, hi, rfl⟩, htech, (hgroup _ hm htech).trans htactic⟩

/-! ### Joining the tags of the rules -/

/-- The tags an observation has of its own. -/
def baseTags : Observation → List String
  | .http => []
  | .highInteraction source service =>
    ["high_interaction", "high_interaction_" ++ source, "service_" ++ service]

theorem sigmaAttackProfileTags_eq (rule : Value) :
    sigmaAttackProfileTags py rule = appendNew [] (ruleTags py rule) := by
  cases rule <;> rfl

theorem eventTags_eq (observation : Observation) (rules : List Value) :
    eventTags py observation rules =
      appendNew [] (rules.flatMap (ruleTags py) ++ baseTags observation) := by
  have hjoin : appendNew [] (rules.map (sigmaAttackProfileTags py)).flatten =
      appendNew [] (rules.flatMap (ruleTags py)) := by
    rw [funext sigmaAttackProfileTags_eq, appendNew_flatten_map]
  cases observation with
  | http => rw [eventTags, tagsFromRuleMatches, hjoin, baseTags, List.append_nil]
  | highInteraction source service =>
    rw [eventTags, profileTags, tagsFor, hjoin, appendNew_append, appendNew_appendNew,
      appendNew_nil, appendNew_append, baseTags]

/-- A technique tag starts with its letter. -/
theorem tagKind_ne_technique {tag : String} {first : Char} {rest : List Char}
    (htag : tag.toList = first :: rest) (hfirst : first ≠ 'T') :
    tagKind py tag ≠ .technique := by
  have hnot : isTechniqueTag py tag = false := by
    rw [isTechniqueTag, htag]
    split
    · rename_i heq
      exact absurd (List.cons.inj heq).1 hfirst
    · rfl
  rw [tagKind, hnot]
  cases Text.afterPrefix "mitre_".toList tag.toList with
  | none => simp
  | some raw => simp

theorem tagKind_eq_technique_iff {tag : String} :
    tagKind py tag = .technique ↔ isTechniqueTag py tag = true := by
  rw [tagKind]
  cases hprefix : Text.afterPrefix "mitre_".toList tag.toList with
  | none =>
    by_cases h : isTechniqueTag py tag = true
    · simp [h]
    · simp [h]
  | some raw =>
    -- a tag for a tactic does not start with the letter of a technique
    have hnot : isTechniqueTag py tag = false := by
      rw [isTechniqueTag]
      split
      · rename_i number htag
        rw [htag] at hprefix
        exact absurd hprefix (by simp [Text.afterPrefix])
      · rfl
    simp [hnot]

/-- There is evidence of the technique that an event is tagged with alone. -/
theorem exists_evidence_of_tag {event : FalcoEvent} {technique : String}
    (htags : event.tags = [technique]) (htechnique : isTechniqueTag py technique = true)
    (ids : ℕ → String) (attackerKey bindingId : String) :
    ∃ e ∈ mapEvent py catalog ids attackerKey bindingId event, e.techId = some technique := by
  have hpair : TagPair py catalog event.tags technique (tacticAt py catalog [] technique) := by
    rw [htags]
    exact ⟨[], [], rfl, tagKind_eq_technique_iff.mpr htechnique, rfl⟩
  obtain ⟨e, he, htech, -⟩ :=
    (evidencePair_iff event ids attackerKey bindingId technique _).mpr hpair
  exact ⟨e, he, htech⟩

/-- Evidence is of techniques that have the form of one. -/
theorem isTechniqueTag_of_evidence {event : FalcoEvent} {ids : ℕ → String}
    {attackerKey bindingId technique : String} {e : TechniqueEvidence}
    (he : e ∈ mapEvent py catalog ids attackerKey bindingId event)
    (htech : e.techId = some technique) : isTechniqueTag py technique = true := by
  obtain ⟨_, _, -, hkind, -⟩ :=
    (evidencePair_iff event ids attackerKey bindingId technique e.group).mp ⟨e, he, htech, rfl⟩
  exact tagKind_eq_technique_iff.mp hkind

/-- The observation's own tags are no techniques. -/
theorem tagKind_baseTags {observation : Observation} {tag : String}
    (h : tag ∈ baseTags observation) : tagKind py tag ≠ .technique := by
  cases observation with
  | http => exact absurd h List.not_mem_nil
  | highInteraction source service =>
    simp only [baseTags, List.mem_cons, List.not_mem_nil, or_false] at h
    rcases h with rfl | rfl | rfl
    · have hlist : "high_interaction".toList = 'h' :: "igh_interaction".toList := rfl
      exact tagKind_ne_technique hlist (by decide)
    · have hlist : ("high_interaction_" ++ source).toList =
          'h' :: ("igh_interaction_".toList ++ source.toList) := by
        rw [String.toList_append]; rfl
      exact tagKind_ne_technique hlist (by decide)
    · have hlist : ("service_" ++ service).toList =
          's' :: ("ervice_".toList ++ service.toList) := by
        rw [String.toList_append]; rfl
      exact tagKind_ne_technique hlist (by decide)

/-- Among tags that do not repeat, a technique stands once. -/
theorem tagPair_iff_of_nodup {tags : List String} (htags : tags.Nodup) {technique : String}
    {tactic : Option String} :
    TagPair py catalog tags technique tactic ↔
      technique ∈ tags ∧ tagKind py technique = .technique ∧
        tactic = tacticAt py catalog (tags.takeWhile (· != technique)) technique := by
  constructor
  · rintro ⟨before, after, rfl, hkind, rfl⟩
    have hbefore : ∀ tag ∈ before, tag != technique := by
      intro tag htag
      rw [bne_iff_ne]
      exact (List.nodup_append.mp htags).2.2 tag htag technique List.mem_cons_self
    refine ⟨List.mem_append_right _ List.mem_cons_self, hkind, ?_⟩
    rw [List.takeWhile_append_of_pos hbefore, List.takeWhile_cons_of_neg (by simp),
      List.append_nil]
  · rintro ⟨hmem, hkind, rfl⟩
    obtain ⟨before, after, rfl, hnot⟩ := List.eq_append_cons_of_mem hmem
    have hbefore : ∀ tag ∈ before, tag != technique := by
      intro tag htag
      rw [bne_iff_ne]
      exact fun heq => hnot (heq ▸ htag)
    refine ⟨before, after, rfl, hkind, ?_⟩
    rw [List.takeWhile_append_of_pos hbefore, List.takeWhile_cons_of_neg (by simp),
      List.append_nil]

/-- **The tags of an observation pair a technique with the last tactic introduced before its first
occurrence.** -/
theorem tagPair_eventTags_iff (observation : Observation) (rules : List Value) (technique : String)
    (tactic : Option String) :
    TagPair py catalog (eventTags py observation rules) technique tactic ↔
      technique ∈ rules.flatMap (ruleTags py) ∧ tagKind py technique = .technique ∧
        tactic = tacticAt py catalog (introduced py rules technique) technique := by
  have hnodup : (eventTags py observation rules).Nodup := by
    rw [eventTags_eq]
    exact nodup_appendNew List.nodup_nil _
  rw [tagPair_iff_of_nodup hnodup, eventTags_eq, mem_appendNew, List.mem_append]
  have hbefore : technique ∈ rules.flatMap (ruleTags py) →
      (appendNew [] (rules.flatMap (ruleTags py) ++ baseTags observation)).takeWhile
        (· != technique) = introduced py rules technique := by
    intro hmem
    obtain ⟨before, after, heq, hnot⟩ := List.eq_append_cons_of_mem hmem
    have hall : ∀ tag ∈ before, tag != technique := by
      intro tag htag
      rw [bne_iff_ne]
      exact fun h => hnot (h ▸ htag)
    rw [takeWhile_appendNew List.not_mem_nil, introduced, heq, List.append_assoc,
      List.takeWhile_append_of_pos hall, List.takeWhile_append_of_pos hall, List.cons_append,
      List.takeWhile_cons_of_neg (by simp), List.takeWhile_cons_of_neg (by simp)]
  constructor
  · rintro ⟨hmem, hkind, rfl⟩
    have hrules : technique ∈ rules.flatMap (ruleTags py) := by
      rcases hmem with hnil | hmem | hbase
      · exact absurd hnil List.not_mem_nil
      · exact hmem
      · exact absurd hkind (tagKind_baseTags hbase)
    exact ⟨hrules, hkind, by rw [hbefore hrules]⟩
  · rintro ⟨hmem, hkind, rfl⟩
    exact ⟨Or.inr (Or.inl hmem), hkind, by rw [hbefore hmem]⟩

end Pairs

/-! ### Rules that agree -/

/-- **The evidence pairs techniques and tactics as the rules do if and only if every occurrence of
a technique has the tactic before it that was introduced last before the first one.** -/
theorem associates_iff (py : ProfilerBuiltins) (catalog : AttackCatalog)
    (observation : Observation) (rules : List Value) :
    Associates py catalog observation rules ↔
      ∀ rule ∈ rules, ∀ before technique after, ruleTags py rule = before ++ technique :: after →
        tagKind py technique = .technique →
          tacticAt py catalog before technique =
            tacticAt py catalog (introduced py rules technique) technique := by
  simp only [Associates, evidencePair_iff, tagPair_eventTags_iff]
  constructor
  · intro h rule hrule before technique after htags hkind
    have hpair : TagPair py catalog (ruleTags py rule) technique
        (tacticAt py catalog before technique) := ⟨before, after, htags, hkind, rfl⟩
    have hevent : FalcoEvent := ⟨.utc 0, "", "", "", none, [], []⟩
    exact ((h hevent (fun _ => "") "" "" technique _).mpr ⟨rule, hrule, hpair⟩).2.2
  · intro h event ids attackerKey bindingId technique tactic
    constructor
    · rintro ⟨hmem, hkind, rfl⟩
      obtain ⟨rule, hrule, hin⟩ := List.mem_flatMap.mp hmem
      obtain ⟨before, after, htags⟩ := List.append_of_mem hin
      exact ⟨rule, hrule, before, after, htags, hkind,
        (h rule hrule before technique after htags hkind).symm⟩
    · rintro ⟨rule, hrule, before, after, htags, hkind, rfl⟩
      have hin : technique ∈ ruleTags py rule := by
        rw [htags]
        exact List.mem_append_right _ List.mem_cons_self
      exact ⟨List.mem_flatMap.mpr ⟨rule, hrule, hin⟩, hkind,
        h rule hrule before technique after htags hkind⟩

/-! ### Two rules -/

/-- A rule for a port scan. -/
def scanRule : Value := .list [.str "attack.discovery", .str "attack.t1046"]

/-- A rule for a command that lists files. -/
def commandRule : Value :=
  .list [.str "attack.execution", .str "attack.t1059", .str "attack.discovery",
    .str "attack.t1083"]

/-- The second rule pairs `T1083` with Discovery, and the evidence pairs it with Execution. -/
theorem tactic_of_another_rule :
    ¬ Associates sampleBuiltins sampleCatalog .http [scanRule, commandRule] := by
  intro h
  have hrule : TagPair sampleBuiltins sampleCatalog (ruleTags sampleBuiltins commandRule) "T1083"
      (some "Discovery") :=
    ⟨["mitre_execution", "T1059", "mitre_discovery"], [], by decide +kernel, by decide +kernel,
      by decide +kernel⟩
  obtain ⟨e, he, htech, hgroup⟩ :=
    (h ⟨.utc 0, "HTTP honeypot request", "low", "", none, [], []⟩ (fun _ => "e-1")
      "198.51.100.7" "b-1" "T1083" (some "Discovery")).mpr
      ⟨commandRule, List.mem_cons_of_mem _ List.mem_cons_self, hrule⟩
  have hevidence : ∀ e ∈ mapEvent sampleBuiltins sampleCatalog (fun _ => "e-1") "198.51.100.7"
      "b-1" ⟨.utc 0, "HTTP honeypot request", "low", "", none,
        eventTags sampleBuiltins .http [scanRule, commandRule], []⟩,
      e.techId = some "T1083" → e.group ≠ some "Discovery" := by
    decide +kernel
  exact hevidence e he htech hgroup

end Honeynet.Profiler
