import Honeynet.Binding.Service
import Honeynet.Cowrie.Command
import Honeynet.Profiler.Association
import Honeynet.Profiler.Profile

/-!
# Cowrie events as evidence

An event of the SSH honeypot is stored as an observation, and as evidence where its tags or the
rules for its command name techniques.

* `ingest`: what an event leaves in the stores.
* `evidenceStored`: the evidence it leaves.
* `fingerprint_eq_of_stored`: the evidence of two commands has one fingerprint.
* `commands_distinct_iff`: the evidence that two commands leave for a technique has different
  fingerprints if and only if there is none.
-/

namespace Honeynet.Cowrie

open Binding Collections Profiler

/-! ### Events and their mapping -/

/-- An event of the honeypot; `modelExtra` holds the keys that are no fields. -/
structure CowrieLogEvent where
  eventid : String
  timestamp : Datetime
  srcIp : String
  session : Option String := none
  sensor : Option String := none
  username : Option String := none
  password : Option String := none
  input : Option String := none
  message : Option String := none
  modelExtra : Settings := []

structure CowrieEventMapping where
  priority : String
  tags : List String
  outputTemplate : String
  outputFields : List String
  commandField : Option String := none
  profile : Bool := false

/-- The mapping of `cowrie.command.input`. -/
def commandInput : CowrieEventMapping where
  priority := "medium"
  tags := ["cowrie_command_input"]
  outputTemplate := "cowrie.command.input from {src_ip}: {input}"
  outputFields :=
    ["source", "cowrie_eventid", "src_ip", "session", "sensor", "username", "input", "message"]
  commandField := some "input"
  profile := true

structure CowrieObservation where
  observationId : String
  ts : Datetime
  attackerKey : String
  bindingId : String
  eventid : String
  session : Option String
  sensor : Option String
  username : Option String
  passwordSeen : Bool
  command : Option Value
  message : Option String
  assetId : Option String
  tags : List String
  profilerEvidenceIds : List String

/-- The service with its catalogs; `strFormat template context` is `template.format(**context)`,
`none` where it raises a `KeyError`. -/
structure CowrieService (F : Type) where
  profiler : ProfilerService F
  mappingFor : String → CowrieEventMapping
  matchRules : String → List CowrieCommandRule
  strFormat : String → Settings → Option String
  mappingFor_command : mappingFor "cowrie.command.input" = commandInput

/-- What one call takes from its surroundings: the clock and generated ids, those of the evidence
by the input it is of. -/
structure IngestCall where
  binding : Binding.Call
  now : Int
  observationId : String
  evidenceIds : ℕ → ℕ → String

structure Stores (F : Type) where
  bindings : List BindingRecord := []
  profiler : ProfilerStore F := {}
  observations : List CowrieObservation := []

structure CowrieIngestResponse (F : Type) where
  observation : CowrieObservation
  binding : BindingRecord
  profile : ProfileSnapshot F

/-! ### Reading an event -/

/-- `getattr(event, field_name, None)` for the texts among the fields. -/
def modelField (event : CowrieLogEvent) : String → Option Value
  | "eventid" => some (.str event.eventid)
  | "src_ip" => some (.str event.srcIp)
  | "session" => event.session.map .str
  | "sensor" => event.sensor.map .str
  | "username" => event.username.map .str
  | "password" => event.password.map .str
  | "input" => event.input.map .str
  | "message" => event.message.map .str
  | _ => none

/-- A value that is not `None`. -/
def present : Value → Option Value
  | .none => none
  | value => some value

def eventValue (event : CowrieLogEvent) (fieldName : String) : Option Value :=
  if fieldName = "source" then some (.str "cowrie")
  else if fieldName = "cowrie_eventid" then some (.str event.eventid)
  else if fieldName = "password_seen" then event.password.map fun _ => .bool true
  else (modelField event fieldName).or ((event.modelExtra.get? fieldName).bind present)

def eventContext (event : CowrieLogEvent) : Settings :=
  let context : Settings :=
    [("source", .str "cowrie"), ("cowrie_eventid", .str event.eventid),
      ("eventid", .str event.eventid), ("src_ip", .str event.srcIp),
      ("session", .str (event.session.getD "")), ("sensor", .str (event.sensor.getD "")),
      ("username", .str ((firstNamed event.username none).getD "<unknown>")),
      ("input", .str (event.input.getD "")), ("message", .str (event.message.getD "")),
      ("password_seen", .bool event.password.isSome)]
  context.update event.modelExtra

section Ingest

variable {F : Type} (svc : CowrieService F)

/-- A template that names what the event does not have is not used. -/
def formatOutput (event : CowrieLogEvent) (mapping : CowrieEventMapping) : String :=
  (svc.strFormat mapping.outputTemplate (eventContext event)).getD
    (event.eventid ++ " from " ++ event.srcIp)

def outputFields (event : CowrieLogEvent) (mapping : CowrieEventMapping) : Settings :=
  let fields := Dict.copy [] mapping.outputFields (eventValue event)
  match eventValue event "asset_id" with
  | some (.str assetId) =>
    if assetId = "" then fields else Dict.set fields "asset_id" (.str assetId)
  | _ => fields

/-! ### The inputs of the profiler -/

/-- The tags, the text and the priority of one event for the profiler. -/
structure ProfileInput where
  tags : List String
  output : String
  priority : String

/-- The event's own tags, where they name a tactic or a technique. -/
def attackProfileInputs (tags : List String) (output priority : String) : List ProfileInput :=
  if tags.any fun tag => "mitre_".toList.isPrefixOf tag.toList || "T".toList.isPrefixOf tag.toList
  then [⟨tags, output, priority⟩]
  else []

/-- The input for a rule that matches the command. -/
def ruleInput (baseOutput : String) (rule : CowrieCommandRule) : ProfileInput where
  tags := [rule.techniqueId]
  output := baseOutput ++ " [" ++ rule.name ++ "; confidence=" ++ rule.confidence ++ "]"
  priority := rule.confidence

def profileInputs (event : CowrieLogEvent) (mapping : CowrieEventMapping) : List ProfileInput :=
  let baseOutput := formatOutput svc event mapping
  let own := attackProfileInputs mapping.tags baseOutput mapping.priority
  match mapping.commandField.bind (eventValue event) with
  | some (.str command) => own ++ (svc.matchRules command).map (ruleInput baseOutput)
  | _ => own

/-- What the profiler is asked to ingest for an input. -/
def evidenceRequest (event : CowrieLogEvent) (bindingId : String) (mapping : CowrieEventMapping)
    (input : ProfileInput) : EvidenceIngestRequest where
  attackerKey := event.srcIp
  bindingId
  event := {
    ts := event.timestamp
    falcoRule := event.eventid
    priority := input.priority
    output := input.output
    tags := input.tags
    outputFields := outputFields event mapping }

/-- The requests ingested one after the other, the first with the ids of the `i`-th. -/
def ingestAll (call : IngestCall) :
    ℕ → List EvidenceIngestRequest → ProfilerStore F → ProfilerStore F × List TechniqueEvidence
  | _, [], store => (store, [])
  | i, request :: requests, store =>
    let rest := ingestAll call (i + 1) requests
      (Profiler.ingest svc.profiler store (call.evidenceIds i) request call.now)
    (rest.1, requestEvidence svc.profiler (call.evidenceIds i) request ++ rest.2)

/-- What the profiler is asked to ingest for an event. -/
def profileRequests (event : CowrieLogEvent) (bindingId : String) (mapping : CowrieEventMapping) :
    List EvidenceIngestRequest :=
  if mapping.profile then
    (profileInputs svc event mapping).map (evidenceRequest event bindingId mapping)
  else []

def currentOrEmptyProfile (store : ProfilerStore F) (attackerKey : String) (now : Int) :
    ProfileSnapshot F :=
  (store.profiles.get? attackerKey).getD { attackerKey, updatedAt := now }

/-- Ingest one event and update binding, profile and observations. -/
def ingest (call : IngestCall) (event : CowrieLogEvent) (s : Stores F) :
    Except PyError (CowrieIngestResponse F × Stores F) := do
  let (binding, bindings) ← (BindingOp.resolve event.srcIp).call call.binding s.bindings
  let mapping := svc.mappingFor event.eventid
  let (profiler, evidences) :=
    ingestAll svc call 0 (profileRequests svc event binding.bindingId mapping) s.profiler
  let observation : CowrieObservation := {
    observationId := call.observationId
    ts := event.timestamp
    attackerKey := event.srcIp
    bindingId := binding.bindingId
    eventid := event.eventid
    session := event.session
    sensor := event.sensor
    username := event.username
    passwordSeen := event.password.isSome
    command := mapping.commandField.bind (eventValue event)
    message := event.message
    assetId := (eventValue event "asset_id").bind stringOrNone
    tags := mapping.tags
    profilerEvidenceIds := evidences.map TechniqueEvidence.evidenceId }
  return (⟨observation, binding, currentOrEmptyProfile profiler event.srcIp call.now⟩,
    { bindings, profiler, observations := s.observations ++ [observation] })

/-- The evidence that an event leaves of its attacker. -/
def evidenceStored (call : IngestCall) (event : CowrieLogEvent) (s : Stores F) :
    List TechniqueEvidence :=
  match ingest svc call event s with
  | .ok (_, stored) =>
    (stored.profiler.listByAttacker event.srcIp).drop
      (s.profiler.listByAttacker event.srcIp).length
  | .error _ => []

/-! ### What is stored -/

variable {svc}

variable (svc) in
theorem listByAttacker_ingestAll (call : IngestCall) {attackerKey : String}
    {requests : List EvidenceIngestRequest} (h : ∀ r ∈ requests, r.attackerKey = attackerKey)
    (i : ℕ) (store : ProfilerStore F) :
    (ingestAll svc call i requests store).1.listByAttacker attackerKey =
      store.listByAttacker attackerKey ++ (ingestAll svc call i requests store).2 := by
  induction requests generalizing i store with
  | nil => rw [ingestAll, List.append_nil]
  | cons request requests ih =>
    obtain rfl : request.attackerKey = attackerKey := h request List.mem_cons_self
    rw [ingestAll, ih (fun r hr => h r (List.mem_cons_of_mem request hr)),
      listByAttacker_ingest_self, List.append_assoc]

/-- The evidence is that of the requests. -/
theorem mem_ingestAll {call : IngestCall} {requests : List EvidenceIngestRequest} {i : ℕ}
    {store : ProfilerStore F} {e : TechniqueEvidence}
    (h : e ∈ (ingestAll svc call i requests store).2) :
    ∃ request ∈ requests, ∃ ids, e ∈ requestEvidence svc.profiler ids request := by
  induction requests generalizing i store with
  | nil => exact absurd h List.not_mem_nil
  | cons request requests ih =>
    rw [ingestAll] at h
    rcases List.mem_append.mp h with h | h
    · exact ⟨request, List.mem_cons_self, _, h⟩
    · obtain ⟨request', hmem, hids⟩ := ih h
      exact ⟨request', List.mem_cons_of_mem request hmem, hids⟩

theorem mem_ingestAll_of_mem {call : IngestCall} {requests : List EvidenceIngestRequest}
    {request : EvidenceIngestRequest} (hrequest : request ∈ requests) {P : TechniqueEvidence → Prop}
    (h : ∀ ids, ∃ e ∈ requestEvidence svc.profiler ids request, P e) (i : ℕ)
    (store : ProfilerStore F) : ∃ e ∈ (ingestAll svc call i requests store).2, P e := by
  induction requests generalizing i store with
  | nil => exact absurd hrequest List.not_mem_nil
  | cons first requests ih =>
    rw [ingestAll]
    rcases List.mem_cons.mp hrequest with rfl | hrequest
    · obtain ⟨e, he, hP⟩ := h (call.evidenceIds i)
      exact ⟨e, List.mem_append_left _ he, hP⟩
    · obtain ⟨e, he, hP⟩ := ih hrequest (i + 1) _
      exact ⟨e, List.mem_append_right _ he, hP⟩

/-- The attacker's binding expires at a time that cannot be compared with the clock. -/
def NaiveExpiry (s : Stores F) (attackerKey : String) : Prop :=
  ∃ r, getByAttacker s.bindings attackerKey = some r ∧ r.ttlExpiresAt.aware = false

/-- Then an event is not stored at all. -/
theorem evidenceStored_naive (call : IngestCall) (event : CowrieLogEvent) {s : Stores F}
    (h : NaiveExpiry s event.srcIp) : evidenceStored svc call event s = [] := by
  obtain ⟨r, hr, hnaive⟩ := h
  have hresolve : (BindingOp.resolve event.srcIp).call call.binding s.bindings =
      .error ⟨.typeError, "can't compare offset-naive and offset-aware datetimes"⟩ := by
    rw [BindingOp.call, BindingOp.write, BindingOp.read, hr, resolve_naive hnaive]
    rfl
  rw [evidenceStored, ingest, hresolve]
  rfl

variable (svc) in
/-- Otherwise the evidence is that of the event's requests. -/
theorem evidenceStored_eq (call : IngestCall) (event : CowrieLogEvent) {s : Stores F}
    (h : ¬ NaiveExpiry s event.srcIp) : ∃ bindingId, evidenceStored svc call event s =
      (ingestAll svc call 0
        (profileRequests svc event bindingId (svc.mappingFor event.eventid)) s.profiler).2 := by
  obtain ⟨binding, hbinding⟩ : ∃ binding,
      Binding.resolve call.binding event.srcIp (getByAttacker s.bindings event.srcIp) =
        .ok binding := by
    refine exists_resolve fun r hr => ?_
    cases haware : r.ttlExpiresAt.aware with
    | true => rfl
    | false => exact absurd ⟨r, hr, haware⟩ h
  have hresolve : (BindingOp.resolve event.srcIp).call call.binding s.bindings =
      .ok (binding, upsert binding s.bindings) := by
    rw [BindingOp.call, BindingOp.write, BindingOp.read, hbinding]
    rfl
  have hkeys : ∀ request ∈
      profileRequests svc event binding.bindingId (svc.mappingFor event.eventid),
      request.attackerKey = event.srcIp := by
    intro request hrequest
    rw [profileRequests] at hrequest
    split at hrequest
    · obtain ⟨_, -, rfl⟩ := List.mem_map.mp hrequest
      rfl
    · exact absurd hrequest List.not_mem_nil
  refine ⟨binding.bindingId, ?_⟩
  have hlist := listByAttacker_ingestAll svc call hkeys 0 s.profiler
  rw [evidenceStored, ingest, hresolve]
  exact (congrArg (List.drop (s.profiler.listByAttacker event.srcIp).length) hlist).trans
    List.drop_left

end Ingest

/-! ### Commands -/

/-- The event with this command. -/
def CowrieLogEvent.withInput (event : CowrieLogEvent) (command : String) : CowrieLogEvent :=
  { event with input := some command }

theorem eventValue_withInput (event : CowrieLogEvent) (command : String) {name : String}
    (h : name ≠ "input") : eventValue (event.withInput command) name = eventValue event name := by
  have hfield : modelField (event.withInput command) name = modelField event name := by
    unfold modelField
    split <;> first | rfl | exact absurd rfl h
  rw [eventValue, eventValue, hfield]
  rfl

/-- The command is only in the field of its own. -/
theorem lookup_outputFields_withInput (event : CowrieLogEvent) (command : String)
    (mapping : CowrieEventMapping) {key : String} (h : key ≠ "input") :
    (outputFields (event.withInput command) mapping).lookup key =
      (outputFields event mapping).lookup key := by
  have hcopy :
      (Dict.copy [] mapping.outputFields (eventValue (event.withInput command))).lookup key =
        (Dict.copy [] mapping.outputFields (eventValue event)).lookup key := by
    rw [lookup_copy, lookup_copy, eventValue_withInput event command h]
  rw [outputFields, outputFields, eventValue_withInput event command (by decide)]
  split
  · split
    · exact hcopy
    · rw [lookup_set, lookup_set, hcopy]
  · exact hcopy

/-- What is requested for an event and for the event with another command differs in the priority,
the text and the command. -/
theorem lookup_sourceRef {py : ProfilerBuiltins} (event : CowrieLogEvent)
    (command bindingId bindingId' : String) (mapping : CowrieEventMapping)
    (input input' : ProfileInput) {key : String} (hpriority : key ≠ "priority")
    (houtput : key ≠ "output") (hinput : key ≠ "input") :
    (buildSourceRef py
        (evidenceRequest (event.withInput command) bindingId mapping input).event).lookup key =
      (buildSourceRef py (evidenceRequest event bindingId' mapping input').event).lookup key := by
  rw [lookup_buildSourceRef rfl, lookup_buildSourceRef rfl]
  have hfields := lookup_outputFields_withInput event command mapping hinput
  have hbase :
      (sourceRefBase py
        (evidenceRequest (event.withInput command) bindingId mapping input).event).lookup key =
      (sourceRefBase py (evidenceRequest event bindingId' mapping input').event).lookup key := by
    simp only [sourceRefBase, lookup_cons_eq, if_neg hpriority, if_neg houtput]
    rfl
  rw [hbase]
  exact congrArg (fun value => if key ∈ sourceRefKeys then Option.or value _ else _) hfields

section Commands

variable {F : Type} {svc : CowrieService F} {event : CowrieLogEvent}

/-- A command is ingested once for each rule that matches it. -/
theorem profileRequests_command (event : CowrieLogEvent) (command bindingId : String) :
    profileRequests svc (event.withInput command) bindingId commandInput =
      (svc.matchRules command).map fun rule =>
        evidenceRequest (event.withInput command) bindingId commandInput
          (ruleInput (formatOutput svc (event.withInput command) commandInput) rule) := by
  have hown (output : String) :
      attackProfileInputs commandInput.tags output commandInput.priority = [] := rfl
  have hprofile : commandInput.profile = true := rfl
  rw [profileRequests, if_pos hprofile, profileInputs, hown]
  exact List.map_map

/-- **The evidence of two commands has one fingerprint.** -/
theorem fingerprint_eq {ids ids' : ℕ → String} {command command' bindingId bindingId' : String}
    {mapping : CowrieEventMapping} {input input' : ProfileInput} {e e' : TechniqueEvidence}
    (he : e ∈ requestEvidence svc.profiler ids
      (evidenceRequest (event.withInput command) bindingId mapping input))
    (he' : e' ∈ requestEvidence svc.profiler ids'
      (evidenceRequest (event.withInput command') bindingId' mapping input')) :
    confidenceFingerprint svc.profiler e = confidenceFingerprint svc.profiler e' := by
  have href := sourceRef_of_mem_mapEvent he
  have href' := sourceRef_of_mem_mapEvent he'
  have hkeys : "priority" ∉ fingerprintKeys ∧ "output" ∉ fingerprintKeys ∧
      "input" ∉ fingerprintKeys := by decide
  have hrule : "falco_rule" ∈ fingerprintKeys := by decide
  refine confidenceFingerprint_congr (fun key hkey => ?_) hrule ?_
  · have hpriority : key ≠ "priority" := fun h => hkeys.1 (h ▸ hkey)
    have houtput : key ≠ "output" := fun h => hkeys.2.1 (h ▸ hkey)
    have hinput : key ≠ "input" := fun h => hkeys.2.2 (h ▸ hkey)
    rw [href, href', Dict.get?, Dict.get?,
      lookup_sourceRef event command bindingId bindingId mapping input input hpriority houtput
        hinput,
      lookup_sourceRef event command' bindingId' bindingId mapping input' input hpriority houtput
        hinput]
  · rw [href, Dict.get?, lookup_buildSourceRef rfl, if_neg (by decide)]
    rfl

/-- The pieces of evidence that two events leave for a technique count as different ones. -/
def Distinct (svc : CowrieService F) (technique : String)
    (evidences evidences' : List TechniqueEvidence) : Prop :=
  ∀ e ∈ evidences, ∀ e' ∈ evidences', e.techId = some technique → e'.techId = some technique →
    confidenceFingerprint svc.profiler e ≠ confidenceFingerprint svc.profiler e'

/-- The evidence of a command comes from its rules. -/
theorem exists_request_of_stored {call : IngestCall} {command : String} {s : Stores F}
    {e : TechniqueEvidence} (heventid : event.eventid = "cowrie.command.input")
    (h : e ∈ evidenceStored svc call (event.withInput command) s) :
    ∃ ids bindingId input, e ∈ requestEvidence svc.profiler ids
      (evidenceRequest (event.withInput command) bindingId commandInput input) := by
  by_cases hnaive : NaiveExpiry s event.srcIp
  · rw [evidenceStored_naive call (event.withInput command) hnaive] at h
    exact absurd h List.not_mem_nil
  · obtain ⟨bindingId, hstored⟩ := evidenceStored_eq svc call (event.withInput command) hnaive
    have hmapping : svc.mappingFor (event.withInput command).eventid = commandInput :=
      (congrArg svc.mappingFor heventid).trans svc.mappingFor_command
    rw [hstored, hmapping, profileRequests_command] at h
    obtain ⟨request, hrequest, ids, he⟩ := mem_ingestAll h
    obtain ⟨rule, -, rfl⟩ := List.mem_map.mp hrequest
    exact ⟨ids, bindingId, _, he⟩

/-- A command leaves evidence of the technique of a rule that matches it. -/
theorem exists_stored_of_rule (call : IngestCall) {command technique : String} {s : Stores F}
    (heventid : event.eventid = "cowrie.command.input") (hnaive : ¬ NaiveExpiry s event.srcIp)
    (hrule : ∃ rule ∈ svc.matchRules command, rule.techniqueId = technique)
    (htechnique : isTechniqueTag svc.profiler.py technique = true) :
    ∃ e ∈ evidenceStored svc call (event.withInput command) s, e.techId = some technique := by
  obtain ⟨rule, hmem, rfl⟩ := hrule
  obtain ⟨bindingId, hstored⟩ := evidenceStored_eq svc call (event.withInput command) hnaive
  have hmapping : svc.mappingFor (event.withInput command).eventid = commandInput :=
    (congrArg svc.mappingFor heventid).trans svc.mappingFor_command
  rw [hstored, hmapping, profileRequests_command]
  exact mem_ingestAll_of_mem (List.mem_map_of_mem hmem)
    (fun ids => exists_evidence_of_tag rfl htechnique ids _ _) 0 _

/-- **The evidence of two commands for a technique is distinct if and only if there is none.** -/
theorem commands_distinct_iff (call call' : IngestCall) (s s' : Stores F)
    (heventid : event.eventid = "cowrie.command.input") {command command' technique : String}
    (hrule : ∃ rule ∈ svc.matchRules command, rule.techniqueId = technique)
    (hrule' : ∃ rule ∈ svc.matchRules command', rule.techniqueId = technique) :
    Distinct svc technique (evidenceStored svc call (event.withInput command) s)
        (evidenceStored svc call' (event.withInput command') s') ↔
      isTechniqueTag svc.profiler.py technique = false ∨
        NaiveExpiry s event.srcIp ∨ NaiveExpiry s' event.srcIp := by
  constructor
  · intro hdistinct
    by_contra hcond
    rw [not_or, not_or, Bool.not_eq_false] at hcond
    obtain ⟨htechnique, hnaive, hnaive'⟩ := hcond
    obtain ⟨e, he, htech⟩ := exists_stored_of_rule call heventid hnaive hrule htechnique
    obtain ⟨e', he', htech'⟩ :=
      exists_stored_of_rule call' heventid hnaive' hrule' htechnique
    obtain ⟨_, _, _, hmem⟩ := exists_request_of_stored heventid he
    obtain ⟨_, _, _, hmem'⟩ := exists_request_of_stored heventid he'
    exact hdistinct e he e' he' htech htech' (fingerprint_eq hmem hmem')
  · rintro (htechnique | hnaive | hnaive') e he e' he' htech htech'
    · obtain ⟨_, _, _, hmem⟩ := exists_request_of_stored heventid he
      rw [isTechniqueTag_of_evidence hmem htech] at htechnique
      cases htechnique
    · rw [evidenceStored_naive call (event.withInput command) hnaive] at he
      exact absurd he List.not_mem_nil
    · rw [evidenceStored_naive call' (event.withInput command') hnaive'] at he'
      exact absurd he' List.not_mem_nil

end Commands

/-! ### Two listings -/

/-- The text that `commandInput.outputTemplate` gives. -/
def commandFormat (_ : String) (context : Settings) : Option String :=
  match context.get? "src_ip", context.get? "input" with
  | some (.str srcIp), some (.str input) =>
    some ("cowrie.command.input from " ++ srcIp ++ ": " ++ input)
  | _, _ => none

/-- A rule for listings, for this technique. -/
def listingRule (techniqueId : String) : CowrieCommandRule where
  name := "directory_listing"
  techniqueId
  confidence := "medium"
  «match» := { processNames := ["ls".toList] }
  sourceRefs := []
  excludeMatch := none

def listingService (techniqueId : String) : CowrieService ℕ where
  profiler := sampleProfiler
  mappingFor _ := commandInput
  matchRules command :=
    if "ls".toList.isPrefixOf command.toList then [listingRule techniqueId] else []
  strFormat := commandFormat
  mappingFor_command := rfl

def commandEvent : CowrieLogEvent where
  eventid := "cowrie.command.input"
  timestamp := .utc 0
  srcIp := "198.51.100.10"
  session := some "s-1"

/-- The call at a time. -/
def callAt (now : Int) : IngestCall where
  binding := ⟨3600000000, now, "binding-1"⟩
  now
  observationId := "obs-1"
  evidenceIds i j := "evidence-" ++ toString i ++ "-" ++ toString j

/-- The stores after the first listing. -/
def afterFirst : Stores ℕ :=
  match ingest (listingService "T1083") (callAt 0) (commandEvent.withInput "ls /") {} with
  | .ok (_, s) => s
  | .error _ => {}

theorem mem_listing (techniqueId command : String)
    (h : "ls".toList.isPrefixOf command.toList = true) :
    ∃ rule ∈ (listingService techniqueId).matchRules command, rule.techniqueId = techniqueId := by
  have hmatched : (listingService techniqueId).matchRules command = [listingRule techniqueId] :=
    if_pos h
  exact ⟨listingRule techniqueId, hmatched ▸ List.mem_singleton_self _, rfl⟩

theorem not_naiveExpiry_empty : ¬ NaiveExpiry ({} : Stores ℕ) commandEvent.srcIp := by
  rintro ⟨r, hr, -⟩
  cases hr

theorem not_naiveExpiry_afterFirst : ¬ NaiveExpiry afterFirst commandEvent.srcIp := by
  rintro ⟨r, hr, hnaive⟩
  have haware : (getByAttacker afterFirst.bindings commandEvent.srcIp).map
      (fun r => r.ttlExpiresAt.aware) = some true := by decide
  rw [hr, Option.map_some, hnaive] at haware
  cases haware

/-- An id that is none of a technique leaves no evidence of it. -/
theorem unnamed_technique_distinct : Distinct (listingService "listing") "listing"
    (evidenceStored (listingService "listing") (callAt 0) (commandEvent.withInput "ls /") {})
    (evidenceStored (listingService "listing") (callAt 9) (commandEvent.withInput "ls -la /home")
      {}) :=
  (commands_distinct_iff (callAt 0) (callAt 9) {} {} rfl (mem_listing "listing" "ls /" (by decide))
    (mem_listing "listing" "ls -la /home" (by decide))).mpr (Or.inl (by decide))

/-- **Two listings count as one.** -/
theorem listings_count_once : ¬ Distinct (listingService "T1083") "T1083"
    (evidenceStored (listingService "T1083") (callAt 0) (commandEvent.withInput "ls /") {})
    (evidenceStored (listingService "T1083") (callAt 9) (commandEvent.withInput "ls -la /home")
      afterFirst) := by
  intro hdistinct
  have htechnique : isTechniqueTag (listingService "T1083").profiler.py "T1083" = true := by decide
  obtain ⟨e, he, htech⟩ := exists_stored_of_rule (callAt 0) rfl not_naiveExpiry_empty
    (mem_listing "T1083" "ls /" (by decide)) htechnique
  obtain ⟨e', he', htech'⟩ := exists_stored_of_rule (callAt 9) rfl not_naiveExpiry_afterFirst
    (mem_listing "T1083" "ls -la /home" (by decide)) htechnique
  obtain ⟨_, _, _, hmem⟩ := exists_request_of_stored rfl he
  obtain ⟨_, _, _, hmem'⟩ := exists_request_of_stored rfl he'
  exact hdistinct e he e' he' htech htech' (fingerprint_eq hmem hmem')

end Honeynet.Cowrie
