import Honeynet.Binding.Service
import Honeynet.Lib.Effect
import Honeynet.Matchers.Sigma
import Honeynet.Profiler.Profile
import Honeynet.Redaction.Logdata

/-!
# Events of the high-interaction backends

An event of Dionaea or Glutton is tagged by the rules it matches, stored as evidence and then as an
observation.  A step that raises on the way loses the observation.

* `ingest`: what an event leaves in the stores.
* `Ingestible`: the event names its asset, its time can be worked with, and so can the time at
  which the binding of its attacker expires.
* `exec_ingest`: such an event is stored.
* `stored_iff`: an event is stored as one observation iff it is such.
-/

namespace Honeynet.HighInteraction

open Binding Collections Profiler

/-! ### Events -/

/-- An event of a backend, with its time and the port of its source. -/
structure HighInteractionLogEvent extends Matchers.HighInteractionLogEvent where
  ts : Datetime
  srcPort : Option Int := none

structure HighInteractionObservation where
  observationId : String
  ts : Datetime
  attackerKey : String
  bindingId : String
  source : String
  service : String
  eventType : String
  assetId : Option String
  srcHost : Option String
  srcPort : Option Int
  dstHost : Option String
  dstPort : Option Int
  logdata : Settings
  tags : List String
  profilerEvidenceIds : List String

/-- The service with its profiler and its loaded rules. -/
structure HighInteractionService (F : Type) where
  profiler : ProfilerService F
  rules : List Matchers.SigmaRule

/-- What one call takes from its surroundings: the clock and generated ids. -/
structure IngestCall where
  binding : Binding.Call
  now : Int
  observationId : String
  evidenceIds : ℕ → String

structure Stores (F : Type) where
  bindings : List BindingRecord := []
  profiler : ProfilerStore F := {}
  observations : List HighInteractionObservation := []

structure HighInteractionIngestResponse (F : Type) where
  observation : HighInteractionObservation
  binding : BindingRecord
  profile : ProfileSnapshot F

/-- A computation over the stores. -/
abbrev Ingesting (F α : Type) : Type := Effect (Stores F) PyError α

/-! ### Times that can be worked with -/

/-- The first and the last microsecond that a datetime can stand for. -/
def datetimeMin : Int := -62135596800000000

def datetimeMax : Int := 253402300799999999

/-- A time within the years of datetimes. -/
def InRange (micros : Int) : Prop := datetimeMin ≤ micros ∧ micros ≤ datetimeMax

instance (micros : Int) : Decidable (InRange micros) :=
  inferInstanceAs (Decidable (_ ≤ _ ∧ _ ≤ _))

def outOfRange : PyError := ⟨.overflowError, "date value out of range"⟩

/-- `utc_aware`: a naive time is taken as it is, an aware one is moved to UTC. -/
def utcAware (t : Datetime) : Except PyError Int :=
  if t.aware = true ∧ ¬ InRange t.micros then .error outOfRange
  else .ok t.micros

/-- `latest_ts - timedelta(seconds=seconds)`. -/
def recentCutoff (latest seconds : Int) : Except PyError Int :=
  if InRange (latest - seconds * 1000000) then .ok (latest - seconds * 1000000)
  else .error outOfRange

section Ingest

variable {F : Type} (svc : HighInteractionService F)

/-! ### What is told of an event -/

def profileTags (event : HighInteractionLogEvent) : Except PyError (List String) := do
  let fields ← Matchers.normalizeEventFields svc.profiler.py.toBuiltins
    event.toHighInteractionLogEvent
  let ruleMatches := Matchers.matchesFor svc.profiler.py.toBuiltins .highInteraction svc.rules fields
  return Profiler.profileTags event.source event.service (ruleMatches.map Matchers.RuleMatch.tags)

def eventText (event : HighInteractionLogEvent) : String :=
  svc.profiler.py.lower (" ".intercalate [event.source, event.service, event.eventType,
    " ".intercalate (event.logdata.map fun kv => svc.profiler.py.str kv.2)])

def containsAny (text : String) (needles : List String) : Bool :=
  needles.any fun needle => Text.contains needle.toList text.toList

def priorityFor (event : HighInteractionLogEvent) : String :=
  if containsAny (eventText svc event) ["payload", "download", "upload", "exploit", "shellcode"] then
    "high"
  else if containsAny (eventText svc event) ["login", "auth", "password"] then "medium"
  else "low"

def formatOutput (event : HighInteractionLogEvent) : String :=
  let asset := match event.assetId with
    | some assetId => if assetId = "" then "" else " asset=" ++ assetId
    | none => ""
  let port := if event.dstPort.getD 0 = 0 then "?" else toString (event.dstPort.getD 0)
  event.source ++ " " ++ event.service ++ " " ++ event.eventType ++ asset ++ " " ++
    Matchers.orElse event.srcHost event.attackerKey ++ "->" ++ Matchers.orElse event.dstHost "?" ++
      ":" ++ port

/-- A text or a number, or nothing, as a JSON value. -/
def optionalText (text : Option String) : Value := text.elim .none .str

def optionalInt (n : Option Int) : Value := n.elim .none .int

/-- What the profiler is asked to ingest for an event. -/
def evidenceRequest (event : HighInteractionLogEvent) (bindingId : String) (tags : List String) :
    EvidenceIngestRequest where
  attackerKey := event.attackerKey
  bindingId
  event := {
    ts := event.ts
    falcoRule := event.source ++ " " ++ event.service ++ " " ++ event.eventType
    priority := priorityFor svc event
    output := formatOutput event
    tags
    outputFields :=
      [("source", .str "high_interaction"), ("asset_id", optionalText event.assetId),
        ("event_type", .str event.eventType), ("high_interaction_source", .str event.source),
        ("high_interaction_service", .str event.service),
        ("high_interaction_event_type", .str event.eventType),
        ("high_interaction_logdata",
          .dict (Redaction.safeLogdata svc.profiler.py.lower event.logdata)),
        ("src_ip", .str (Matchers.orElse event.srcHost event.attackerKey)),
        ("src_port", optionalInt event.srcPort), ("dest_ip", optionalText event.dstHost),
        ("dst_host", optionalText event.dstHost), ("dest_port", optionalInt event.dstPort),
        ("dst_port", optionalInt event.dstPort)] }

/-! ### Storing an event -/

def resolveBinding (call : IngestCall) (attackerKey : String) : Ingesting F BindingRecord := do
  let s ← get
  let (binding, bindings) ← Effect.ofExcept
    ((BindingOp.resolve attackerKey).call call.binding s.bindings)
  modify fun s => { s with bindings }
  return binding

/-- The newest of some evidence. -/
def latestEvidence (evidences : List TechniqueEvidence) : Option TechniqueEvidence :=
  (sortedEvidence evidences).getLast?

/-- The profile of the stored evidence, where the window before the newest of it is in range. -/
def rebuildStored (call : IngestCall) (attackerKey : String) : Ingesting F (ProfileSnapshot F) := do
  let s ← get
  let evidences := s.profiler.listByAttacker attackerKey
  match latestEvidence evidences with
  | none => pure ⟨⟩
  | some latest => do
    let _ ← Effect.ofExcept (recentCutoff latest.ts svc.profiler.chainWindowSeconds)
    pure ⟨⟩
  let profile := rebuildProfile svc.profiler attackerKey evidences call.now
  modify fun s => { s with profiler := s.profiler.upsert profile }
  return profile

def ingestEvidence (call : IngestCall) (request : EvidenceIngestRequest) :
    Ingesting F (List TechniqueEvidence × ProfileSnapshot F) := do
  let _ ← Effect.ofExcept (utcAware request.event.ts)
  let evidences := requestEvidence svc.profiler call.evidenceIds request
  modify fun s => { s with profiler := s.profiler.addMany request.attackerKey evidences }
  let profile ← rebuildStored svc call request.attackerKey
  return (evidences, profile)

def observationOf (call : IngestCall) (event : HighInteractionLogEvent) (bindingId : String)
    (tags : List String) (evidences : List TechniqueEvidence) : HighInteractionObservation where
  observationId := call.observationId
  ts := event.ts
  attackerKey := event.attackerKey
  bindingId
  source := event.source
  service := event.service
  eventType := event.eventType
  assetId := event.assetId
  srcHost := event.srcHost
  srcPort := event.srcPort
  dstHost := event.dstHost
  dstPort := event.dstPort
  logdata := Redaction.safeLogdata svc.profiler.py.lower event.logdata
  tags
  profilerEvidenceIds := evidences.map TechniqueEvidence.evidenceId

/-- Resolve the attacker, update the profile and store an observation. -/
def ingest (call : IngestCall) (event : HighInteractionLogEvent) :
    Ingesting F (HighInteractionIngestResponse F) := do
  let tags ← Effect.ofExcept (profileTags svc event)
  let binding ← resolveBinding call event.attackerKey
  let (evidences, profile) ← ingestEvidence svc call
    (evidenceRequest svc event binding.bindingId tags)
  let observation := observationOf svc call event binding.bindingId tags evidences
  modify fun s => { s with observations := s.observations ++ [observation] }
  return ⟨observation, binding, profile⟩

/-! ### Where each step raises -/

variable {svc}

theorem utcAware_ok {t : Datetime} (h : t.aware = true → InRange t.micros) :
    utcAware t = .ok t.micros := by
  rw [utcAware, if_neg]
  rintro ⟨haware, hrange⟩
  exact hrange (h haware)

theorem utcAware_error {t : Datetime} (h : ¬ (t.aware = true → InRange t.micros)) :
    utcAware t = .error outOfRange := by
  rw [utcAware, if_pos (Classical.not_imp.mp h)]

variable (svc) in
/-- The tags of an event are found iff it names its asset. -/
theorem exists_profileTags_iff (event : HighInteractionLogEvent) :
    (∃ tags, profileTags svc event = .ok tags) ↔ event.assetId ≠ none := by
  unfold profileTags Matchers.normalizeEventFields
  cases event.assetId with
  | none =>
    refine ⟨fun h => ?_, fun h => absurd rfl h⟩
    obtain ⟨tags, htags⟩ := h
    cases htags
  | some assetId => exact ⟨fun _ => Option.some_ne_none assetId, fun _ => ⟨_, rfl⟩⟩

/-- The binding of an attacker expires at a time that can be compared with the clock. -/
def ExpiryAware (s : Stores F) (attackerKey : String) : Prop :=
  ∀ r, getByAttacker s.bindings attackerKey = some r → r.ttlExpiresAt.aware = true

theorem exec_resolveBinding_ok (call : IngestCall) {attackerKey : String} {s : Stores F}
    (h : ExpiryAware s attackerKey) : ∃ binding,
      Effect.exec (resolveBinding call attackerKey) s =
        (.ok binding, { s with bindings := upsert binding s.bindings }) := by
  obtain ⟨binding, hbinding⟩ := @exists_resolve call.binding attackerKey _ h
  have hcall : (BindingOp.resolve attackerKey).call call.binding s.bindings =
      .ok (binding, upsert binding s.bindings) := by
    rw [BindingOp.call, BindingOp.write, BindingOp.read, hbinding]
    rfl
  refine ⟨binding, ?_⟩
  simp only [resolveBinding, Effect.exec_bind, Effect.exec_get, hcall, Effect.exec_ofExcept,
    Effect.exec_modify, Effect.exec_pure]

theorem exec_resolveBinding_error (call : IngestCall) {attackerKey : String} {s : Stores F}
    (h : ¬ ExpiryAware s attackerKey) :
    ∃ e, Effect.exec (resolveBinding call attackerKey) s = (.error e, s) := by
  simp only [ExpiryAware, not_forall, Bool.not_eq_true] at h
  obtain ⟨r, hr, hnaive⟩ := h
  have hcall : (BindingOp.resolve attackerKey).call call.binding s.bindings =
      .error ⟨.typeError, "can't compare offset-naive and offset-aware datetimes"⟩ := by
    rw [BindingOp.call, BindingOp.write, BindingOp.read, hr, resolve_naive hnaive]
    rfl
  refine ⟨⟨.typeError, "can't compare offset-naive and offset-aware datetimes"⟩, ?_⟩
  simp only [resolveBinding, Effect.exec_bind, Effect.exec_get, hcall, Effect.exec_ofExcept]

/-- The newest time of what an attacker has done, an event among it. -/
def latestTime (s : Stores F) (attackerKey : String) (micros : Int) : Int :=
  ((s.profiler.listByAttacker attackerKey).map TechniqueEvidence.ts).foldl max micros

/-- The newest of stored evidence and the evidence of an event. -/
theorem latestEvidence_append {stored new : List TechniqueEvidence} {micros : Int}
    (hne : new ≠ []) (hnew : ∀ e ∈ new, e.ts = micros) : ∃ latest,
      latestEvidence (stored ++ new) = some latest ∧
        latest.ts = (stored.map TechniqueEvidence.ts).foldl max micros := by
  have hsorted : sortedEvidence (stored ++ new) ≠ [] := sortedEvidence_ne_nil (by simp [hne])
  let latest := (sortedEvidence (stored ++ new)).getLast hsorted
  have hmem : latest ∈ stored ++ new := (List.mem_insertionSort _).mp (List.getLast_mem hsorted)
  have hgreatest : ∀ e ∈ stored ++ new, e.ts ≤ latest.ts := by
    intro e he
    have hpairwise := List.pairwise_insertionSort
      (fun a b : TechniqueEvidence => a.ts ≤ b.ts) (stored ++ new)
    have hin : e ∈ sortedEvidence (stored ++ new) := (List.mem_insertionSort _).mpr he
    rw [← List.dropLast_append_getLast hsorted] at hin
    rcases List.mem_append.mp hin with hbefore | hlast
    · rw [← sortedEvidence, ← List.dropLast_append_getLast hsorted, List.pairwise_append]
        at hpairwise
      exact hpairwise.2.2 e hbefore _ (List.mem_singleton_self _)
    · rw [List.mem_singleton.mp hlast]
  have htime : micros ∈ new.map TechniqueEvidence.ts := by
    obtain ⟨e, rest, rfl⟩ := List.exists_cons_of_ne_nil hne
    exact List.mem_map.mpr ⟨e, List.mem_cons_self, hnew e List.mem_cons_self⟩
  have hmax : (micros :: stored.map TechniqueEvidence.ts).max? = some latest.ts := by
    rw [List.max?_eq_some_iff]
    constructor
    · rcases List.mem_append.mp hmem with hold | hin
      · exact List.mem_cons_of_mem _ (List.mem_map_of_mem hold)
      · rw [hnew latest hin]
        exact List.mem_cons_self
    · intro b hb
      rcases List.mem_cons.mp hb with rfl | hb
      · obtain ⟨e, he, heq⟩ := List.mem_map.mp htime
        rw [← heq]
        exact hgreatest e (List.mem_append_right _ he)
      · obtain ⟨e, he, rfl⟩ := List.mem_map.mp hb
        exact hgreatest e (List.mem_append_left _ he)
  exact ⟨latest, List.getLast?_eq_getLast_of_ne_nil hsorted, (Option.some.inj hmax).symm⟩

theorem ts_of_mem_requestEvidence {ids : ℕ → String} {request : EvidenceIngestRequest}
    {e : TechniqueEvidence} (h : e ∈ requestEvidence svc.profiler ids request) :
    e.ts = request.event.ts.micros := by
  obtain ⟨i, hi, rfl⟩ := List.mem_mapIdx.mp h
  rfl

/-- The times of an event and of the window before what its attacker did last are in range. -/
structure Timely (svc : HighInteractionService F) (s : Stores F) (attackerKey : String)
    (ts : Datetime) : Prop where
  time : ts.aware = true → InRange ts.micros
  window : InRange
    (latestTime s attackerKey ts.micros - svc.profiler.chainWindowSeconds * 1000000)

section Evidence

variable {call : IngestCall} {request : EvidenceIngestRequest} {s : Stores F}

/-- The newest evidence, once the evidence of a request is stored. -/
theorem latestEvidence_stored : ∃ latest, latestEvidence
      (s.profiler.listByAttacker request.attackerKey ++
        requestEvidence svc.profiler call.evidenceIds request) = some latest ∧
      latest.ts = latestTime s request.attackerKey request.event.ts.micros :=
  latestEvidence_append
    (mapEvent_ne_nil call.evidenceIds request.attackerKey request.bindingId request.event)
    fun _ he => ts_of_mem_requestEvidence he

/-- Then the profiler ingests the request as it does elsewhere. -/
theorem exec_ingestEvidence_ok (h : Timely svc s request.attackerKey request.event.ts) :
    ∃ profile, Effect.exec (ingestEvidence svc call request) s =
      (.ok (requestEvidence svc.profiler call.evidenceIds request, profile),
        { s with profiler :=
          Profiler.ingest svc.profiler s.profiler call.evidenceIds request call.now }) := by
  obtain ⟨latest, hlatest, hts⟩ := @latestEvidence_stored F svc call request s
  have hcutoff : recentCutoff latest.ts svc.profiler.chainWindowSeconds =
      .ok (latest.ts - svc.profiler.chainWindowSeconds * 1000000) := by
    rw [hts]
    exact if_pos h.window
  refine ⟨rebuildProfile svc.profiler request.attackerKey
    (s.profiler.listByAttacker request.attackerKey ++
      requestEvidence svc.profiler call.evidenceIds request) call.now, ?_⟩
  simp only [ingestEvidence, rebuildStored, Effect.exec_bind, Effect.exec_ofExcept,
    utcAware_ok h.time, Effect.exec_modify, Effect.exec_get, Effect.exec_pure,
    listByAttacker_addMany_self, hlatest, hcutoff, Profiler.ingest]

/-- Otherwise it raises, maybe with the evidence stored. -/
theorem exec_ingestEvidence_error (h : ¬ Timely svc s request.attackerKey request.event.ts) :
    ∃ profiler, Effect.exec (ingestEvidence svc call request) s =
      (.error outOfRange, { s with profiler }) := by
  by_cases htime : request.event.ts.aware = true → InRange request.event.ts.micros
  · obtain ⟨latest, hlatest, hts⟩ := @latestEvidence_stored F svc call request s
    have hcutoff : recentCutoff latest.ts svc.profiler.chainWindowSeconds = .error outOfRange := by
      rw [hts]
      exact if_neg fun hwindow => h ⟨htime, hwindow⟩
    refine ⟨s.profiler.addMany request.attackerKey
      (requestEvidence svc.profiler call.evidenceIds request), ?_⟩
    simp only [ingestEvidence, rebuildStored, Effect.exec_bind, Effect.exec_ofExcept,
      utcAware_ok htime, Effect.exec_modify, Effect.exec_get, listByAttacker_addMany_self, hlatest,
      hcutoff]
  · refine ⟨s.profiler, ?_⟩
    simp only [ingestEvidence, Effect.exec_bind, Effect.exec_ofExcept, utcAware_error htime]

end Evidence

/-! ### What is stored of an event -/

variable (svc) in
/-- **What can be ingested**: an event that names its asset, of an attacker whose binding does not
expire at a naive time, at a time that can be worked with. -/
structure Ingestible (s : Stores F) (event : HighInteractionLogEvent) : Prop where
  asset : event.assetId ≠ none
  expiry : ExpiryAware s event.attackerKey
  timely : Timely svc s event.attackerKey event.ts

/-- The observation is of the event. -/
structure ObservationOf (svc : HighInteractionService F) (event : HighInteractionLogEvent)
    (o : HighInteractionObservation) : Prop where
  attackerKey : o.attackerKey = event.attackerKey
  ts : o.ts = event.ts
  source : o.source = event.source
  service : o.service = event.service
  eventType : o.eventType = event.eventType
  assetId : o.assetId = event.assetId
  logdata : o.logdata = Redaction.safeLogdata svc.profiler.py.lower event.logdata

/-- The event is ingested: the call returns and has stored exactly one observation, of the event. -/
def Stored (svc : HighInteractionService F) (call : IngestCall) (event : HighInteractionLogEvent)
    (s : Stores F) : Prop :=
  ∃ response t, Effect.exec (ingest svc call event) s = (.ok response, t) ∧
    t.observations = s.observations ++ [response.observation] ∧
    ObservationOf svc event response.observation

/-- The event is lost: the call raises and has stored no observation. -/
def Lost (svc : HighInteractionService F) (call : IngestCall) (event : HighInteractionLogEvent)
    (s : Stores F) : Prop :=
  ∃ e t, Effect.exec (ingest svc call event) s = (.error e, t) ∧ t.observations = s.observations

section Event

variable {call : IngestCall} {event : HighInteractionLogEvent} {s : Stores F}

theorem stored_of_ingestible (h : Ingestible svc s event) : Stored svc call event s := by
  obtain ⟨tags, htags⟩ := (exists_profileTags_iff svc event).mpr h.asset
  obtain ⟨binding, hbinding⟩ := exec_resolveBinding_ok call h.expiry
  let resolved : Stores F := { s with bindings := upsert binding s.bindings }
  let request := evidenceRequest svc event binding.bindingId tags
  have htimely : Timely svc resolved event.attackerKey event.ts :=
    ⟨h.timely.time, h.timely.window⟩
  obtain ⟨profile, hprofile⟩ := @exec_ingestEvidence_ok F svc call request resolved htimely
  let observation := observationOf svc call event binding.bindingId tags
    (requestEvidence svc.profiler call.evidenceIds request)
  refine ⟨⟨observation, binding, profile⟩, {
    bindings := resolved.bindings
    profiler := Profiler.ingest svc.profiler s.profiler call.evidenceIds request call.now
    observations := s.observations ++ [observation] }, ?_, rfl, ?_⟩
  · simp only [ingest, Effect.exec_bind, Effect.exec_ofExcept, htags, hbinding, hprofile,
      Effect.exec_modify, Effect.exec_pure, resolved, request, observation]
  · exact ⟨rfl, rfl, rfl, rfl, rfl, rfl, rfl⟩

/-- **What cannot be ingested is lost.** -/
theorem lost_of_not_ingestible (h : ¬ Ingestible svc s event) : Lost svc call event s := by
  cases htags : profileTags svc event with
  | error e =>
    refine ⟨e, s, ?_, rfl⟩
    simp only [ingest, Effect.exec_bind, Effect.exec_ofExcept, htags]
  | ok tags =>
    have hasset := (exists_profileTags_iff svc event).mp ⟨tags, htags⟩
    by_cases hexpiry : ExpiryAware s event.attackerKey
    · obtain ⟨binding, hbinding⟩ := exec_resolveBinding_ok call hexpiry
      have htimely : ¬ Timely svc { s with bindings := upsert binding s.bindings }
          event.attackerKey event.ts := fun ht => h ⟨hasset, hexpiry, ht.time, ht.window⟩
      obtain ⟨profiler, hevidence⟩ := @exec_ingestEvidence_error F svc call
        (evidenceRequest svc event binding.bindingId tags) _ htimely
      refine ⟨outOfRange, { s with bindings := upsert binding s.bindings, profiler }, ?_, rfl⟩
      simp only [ingest, Effect.exec_bind, Effect.exec_ofExcept, htags, hbinding, hevidence]
    · obtain ⟨e, hraised⟩ := exec_resolveBinding_error call hexpiry
      refine ⟨e, s, ?_, rfl⟩
      simp only [ingest, Effect.exec_bind, Effect.exec_ofExcept, htags, hraised]

end Event

end Ingest

/-! ### Events with and without an asset -/

def sampleService : HighInteractionService ℕ where
  profiler := {
    py := sampleBuiltins
    catalog := sampleCatalog
    chainWindowSeconds := 600
    confidence := id }
  rules := []

def sampleCall : IngestCall where
  binding := ⟨604800000000, 1767225600000000, "u"⟩
  now := 1767225600000000
  observationId := "o"
  evidenceIds _ := "e"

/-- A download that Dionaea reports. -/
def downloadEvent (assetId : Option String) : HighInteractionLogEvent where
  source := "dionaea"
  attackerKey := "198.51.100.10"
  service := "http"
  eventType := "download.offer"
  assetId
  ts := .utc 1767225600000000

end Honeynet.HighInteraction
