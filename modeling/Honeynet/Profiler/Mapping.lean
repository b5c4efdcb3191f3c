import Honeynet.Sigma.Fields

/-!
# From an observation to evidence

The tags of the Sigma rules that match an observation become the tags of one event, and the
profiler turns the tags of an event into evidence of tactics and techniques.

* `profileTag`, `sigmaAttackProfileTags`: the profiler's form of a rule's tags.
* `eventTags`: the tags of an observation.
* `mappingsFromTags`: the techniques of an event, each with a tactic.
* `mapEvent`: the evidence of an event.
-/

namespace Honeynet.Profiler

open Collections

/-- What the profiler takes from its language: what the matchers take, `\d`, and
`datetime.isoformat`. -/
structure ProfilerBuiltins extends Sigma.Builtins where
  digit : Char → Bool
  isoformat : Datetime → String

/-- The catalog of tactics and techniques. -/
structure AttackCatalog where
  tacticForTechnique : String → Option String
  canonicalTacticName : String → Option String
  canonical_ne : ∀ tactic name, canonicalTacticName tactic = some name → name ≠ ""

/-! ### The tags of a rule -/

/-- The pattern `\d{4}(?:\.\d{3})?` for a whole text. -/
def isTechniqueNumber (digit : Char → Bool) : List Char → Bool
  | [a, b, c, d] => [a, b, c, d].all digit
  | [a, b, c, d, dot, e, f, g] => [a, b, c, d, e, f, g].all digit && dot == '.'
  | _ => false

/-- The pattern `[a-z_-]+` for a whole text. -/
def isTacticName (t : List Char) : Bool :=
  t != [] && t.all fun c => ('a'.toNat ≤ c.toNat && c.toNat ≤ 'z'.toNat) || c == '_' || c == '-'

section Tags

variable (py : ProfilerBuiltins)

/-- One tag of a Sigma rule in the profiler's form. -/
def profileTag (tag : Value) : Option String :=
  let value := (py.lower (py.str tag)).toList
  match (Text.afterPrefix "attack.t".toList value).filter (isTechniqueNumber py.digit) with
  | some number => some (String.ofList ('T' :: number))
  | none =>
    ((Text.afterPrefix "attack.".toList value).filter isTacticName).map fun name =>
      String.ofList ("mitre_".toList ++ name.map fun c => if c = '-' then '_' else c)

def sigmaAttackProfileTags : Value → List String
  | .list tags => appendNew [] (tags.filterMap (profileTag py))
  | _ => []

/-! ### The tags of an observation -/

/-- The tags of the HTTP rules that match, each once. -/
def tagsFromRuleMatches (ruleMatches : List (List String)) : List String :=
  appendNew [] ruleMatches.flatten

/-- The tags of the high-interaction rules that match, each once. -/
def tagsFor (ruleMatches : List (List String)) : List String :=
  appendNew [] ruleMatches.flatten

/-- The tags of a high-interaction event. -/
def profileTags (source service : String) (ruleMatches : List (List String)) : List String :=
  let baseTags := ["high_interaction", "high_interaction_" ++ source, "service_" ++ service]
  appendNew [] (tagsFor ruleMatches ++ baseTags)

inductive Observation
  | http
  | highInteraction (source service : String)

/-- The tags of an observation that matches rules with these tags. -/
def eventTags (observation : Observation) (rules : List Value) : List String :=
  let ruleMatches := rules.map (sigmaAttackProfileTags py)
  match observation with
  | .http => tagsFromRuleMatches ruleMatches
  | .highInteraction source service => profileTags source service ruleMatches

end Tags

/-! ### The mappings of an event -/

structure FalcoEvent where
  ts : Datetime
  falcoRule : String
  priority : String
  output : String
  hostname : Option String := none
  tags : List String := []
  outputFields : Settings := []

structure AttackMapping where
  techId : Option String
  reason : String
  tactic : Option String := none

/-- What the profiler takes a tag for. -/
inductive TagKind
  | tactic (raw : String)
  | technique
  | other
  deriving DecidableEq

/-- `a or b`. -/
def firstNamed (a b : Option String) : Option String :=
  match a with
  | some name => if name = "" then b else some name
  | none => b

/-- What has been read of an event's tags. -/
structure MappingState where
  currentTactic : Option String := none
  tacticOnly : List AttackMapping := []
  mappings : List AttackMapping := []
  seen : List (Option String × Option String) := []

section Mappings

variable (py : ProfilerBuiltins) (catalog : AttackCatalog)

/-- The pattern `^T\d{4}(?:\.\d{3})?$`, whose `$` also stands before a final line break. -/
def isTechniqueTag (tag : String) : Bool :=
  match tag.toList with
  | 'T' :: number =>
    isTechniqueNumber py.digit number ||
      (number.getLast? == some '\n' && isTechniqueNumber py.digit number.dropLast)
  | _ => false

def tagKind (tag : String) : TagKind :=
  match Text.afterPrefix "mitre_".toList tag.toList with
  | some raw => .tactic (String.ofList raw)
  | none => if isTechniqueTag py tag then .technique else .other

def mappingStep (event : FalcoEvent) (s : MappingState) (tag : String) : MappingState :=
  match tagKind py tag with
  | .technique =>
    let tactic := firstNamed s.currentTactic (catalog.tacticForTechnique tag)
    if (some tag, tactic) ∈ s.seen then s
    else
      { s with
        mappings := s.mappings ++ [⟨some tag, event.falcoRule ++ ": " ++ event.output, tactic⟩]
        seen := s.seen ++ [(some tag, tactic)] }
  | .tactic raw =>
    let currentTactic := catalog.canonicalTacticName raw
    if currentTactic = none ∨ (none, currentTactic) ∈ s.seen then { s with currentTactic }
    else
      { s with
        currentTactic
        tacticOnly := s.tacticOnly ++
          [⟨none, "Tag-only tactic mapping for rule " ++ event.falcoRule, currentTactic⟩]
        seen := s.seen ++ [(none, currentTactic)] }
  | .other => s

def mappingsFromTags (event : FalcoEvent) : List AttackMapping :=
  let s := event.tags.foldl (mappingStep py catalog event) {}
  if s.mappings = [] then s.tacticOnly else s.mappings

def deriveAttackMappings (event : FalcoEvent) : List AttackMapping :=
  let mappings := mappingsFromTags py catalog event
  if mappings = [] then
    [⟨none, "Fallback mapping for rule " ++ event.falcoRule, none⟩]
  else mappings

/-! ### The evidence of an event -/

/-- One piece of evidence; its time is in microseconds.  A weight is a number of halves, unless
said otherwise. -/
structure TechniqueEvidence (W : Type := ℕ) where
  evidenceId : String
  ts : Int
  attackerKey : String
  bindingId : String
  techId : Option String := none
  group : Option String := none
  weight : W
  success : Bool
  reason : String
  sourceRef : Settings := []

def priorityToWeight (priority : String) : ℕ :=
  let label := if priority = "" then "low" else priority
  match py.lower (String.ofList (Text.strip label.toList)) with
  | "low" => 1
  | "medium" => 2
  | "high" => 4
  | _ => 1

def inferSuccess (event : FalcoEvent) : Bool :=
  let text := (py.lower (event.output ++ " " ++ event.falcoRule)).toList
  !Text.contains "failed".toList text && !Text.contains "denied".toList text

/-- The fields of an event that its evidence refers to. -/
def sourceRefKeys : List String :=
  ["proc_cmdline", "proc_name", "fd_name", "source", "asset_id", "event_type", "signature",
    "category", "severity", "src_ip", "src_port", "dest_ip", "dest_port", "proto",
    "http_hostname", "http_surface", "http_url", "http_method", "http_path",
    "http_query_string", "http_user_agent", "http_rule_names", "http_indicators",
    "http_evidence_labels", "opencanary_service", "opencanary_logtype", "opencanary_command",
    "opencanary_commands", "opencanary_repo", "high_interaction_source",
    "high_interaction_service", "high_interaction_event_type", "high_interaction_logdata",
    "username", "password_seen", "node_id"]

def buildSourceRef (event : FalcoEvent) : Settings :=
  let base : Settings :=
    [("falco_rule", .str event.falcoRule), ("priority", .str event.priority),
      ("output", .str event.output), ("ts", .str (py.isoformat event.ts))]
  let named : Settings :=
    match event.hostname with
    | some hostname => if hostname = "" then base else Dict.set base "hostname" (.str hostname)
    | none => base
  sourceRefKeys.foldl (fun sourceRef key =>
    match event.outputFields.get? key with
    | some value => Dict.set sourceRef key value
    | none => sourceRef) named

/-- The evidence of an event, the `i`-th piece with the id `ids i`. -/
def mapEvent (ids : ℕ → String) (attackerKey bindingId : String) (event : FalcoEvent) :
    List TechniqueEvidence :=
  (deriveAttackMappings py catalog event).mapIdx fun i mapping => {
    evidenceId := ids i
    ts := event.ts.micros
    attackerKey
    bindingId
    techId := mapping.techId
    group := firstNamed mapping.tactic (mapping.techId.bind catalog.tacticForTechnique)
    weight := priorityToWeight py event.priority
    success := inferSuccess py event
    reason := mapping.reason
    sourceRef := buildSourceRef py event }

variable {py catalog}

variable (py) in
/-- What the evidence of every event refers to. -/
def sourceRefBase (event : FalcoEvent) : Settings :=
  [("falco_rule", .str event.falcoRule), ("priority", .str event.priority),
    ("output", .str event.output), ("ts", .str (py.isoformat event.ts))]

/-- What the evidence refers to, by its keys. -/
theorem lookup_buildSourceRef {event : FalcoEvent} (hhostname : event.hostname = none)
    (key : String) :
    (buildSourceRef py event).lookup key =
      if key ∈ sourceRefKeys then
        (event.outputFields.lookup key).or ((sourceRefBase py event).lookup key)
      else (sourceRefBase py event).lookup key := by
  have hcopy : buildSourceRef py event =
      Dict.copy (sourceRefBase py event) sourceRefKeys event.outputFields.get? := by
    rw [buildSourceRef, hhostname, Dict.copy]
    refine congrArg (fun step => List.foldl step (sourceRefBase py event) sourceRefKeys) ?_
    funext sourceRef name
    cases event.outputFields.get? name <;> rfl
  rw [hcopy, lookup_copy]

theorem sourceRef_of_mem_mapEvent {ids : ℕ → String} {attackerKey bindingId : String}
    {event : FalcoEvent} {e : TechniqueEvidence}
    (h : e ∈ mapEvent py catalog ids attackerKey bindingId event) :
    e.sourceRef = buildSourceRef py event := by
  obtain ⟨i, hi, rfl⟩ := List.mem_mapIdx.mp h
  rfl

/-- There is evidence of every event. -/
theorem deriveAttackMappings_ne_nil (event : FalcoEvent) :
    deriveAttackMappings py catalog event ≠ [] := by
  rw [deriveAttackMappings]
  by_cases h : mappingsFromTags py catalog event = []
  · simp [h]
  · simp [h]

theorem mapEvent_ne_nil (ids : ℕ → String) (attackerKey bindingId : String) (event : FalcoEvent) :
    mapEvent py catalog ids attackerKey bindingId event ≠ [] := by
  rw [mapEvent, ne_eq, List.mapIdx_eq_nil_iff]
  exact deriveAttackMappings_ne_nil event

end Mappings

/-! ### A small catalog -/

def sampleBuiltins : ProfilerBuiltins :=
  { Sigma.asciiBuiltins with digit := Char.isDigit, isoformat := fun _ => "" }

def sampleCatalog : AttackCatalog where
  tacticForTechnique
    | "T1046" => some "Discovery"
    | "T1083" => some "Discovery"
    | "T1059" => some "Execution"
    | _ => none
  canonicalTacticName
    | "discovery" => some "Discovery"
    | "execution" => some "Execution"
    | _ => none
  canonical_ne tactic name h := by
    rintro rfl
    split at h <;> simp at h

end Honeynet.Profiler
