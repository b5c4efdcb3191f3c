import Honeynet.OpenCanary.Event

/-!
# The ingest of OpenCanary events

An event is tagged, its attacker resolved, the evidence and the profile brought up to date, and a
sanitized observation stored.  The bindings and the profiler's files are those of all sensors.

* `ingest`: what an event leaves in the stores.
* `ingest_secret_blind`: the secrets of an event leave no trace.
-/

namespace Honeynet.OpenCanary

open Collections HighInteraction Profiler Redaction

structure OpenCanaryObservation where
  observationId : String
  ts : Datetime
  attackerKey : String
  bindingId : String
  service : String
  srcHost : String
  srcPort : Option Int
  dstHost : Option String
  dstPort : Option Int
  logtype : Option Int
  nodeId : Option String
  username : Option String
  passwordSeen : Bool
  logdata : Settings
  tags : List String
  profilerEvidenceIds : List String

/-- The service with its profiler; `upper` is `str.upper()`. -/
structure OpenCanaryService (F : Type) where
  profiler : ProfilerService F
  upper : String → String

/-- The stores of the sensors, and the observations of this one. -/
structure CanaryStores (F : Type) where
  shared : Stores F := {}
  observations : List OpenCanaryObservation := []

structure OpenCanaryIngestResponse (F : Type) where
  observation : OpenCanaryObservation
  binding : Binding.BindingRecord
  profile : ProfileSnapshot F

/-- A computation over the stores. -/
abbrev CanaryIngesting (F α : Type) : Type := Effect (CanaryStores F) PyError α

section Ingest

variable {F : Type} (svc : OpenCanaryService F)

/-- A computation over what the sensors share. -/
def onShared {α : Type} (x : Ingesting F α) : CanaryIngesting F α :=
  Effect.zoom CanaryStores.shared (fun shared s => { s with shared }) x

/-- The service as the profiler's other clients call it. -/
def sharedProfiler : HighInteractionService F := ⟨svc.profiler, []⟩

/-- What is read of an event before anything is stored. -/
structure Reading where
  service : String
  username : Option String
  passwordSeen : Bool
  loginProbe : Bool
  tags : List String
  output : String
  context : Settings
  assetId : Option String
  logdata : Settings

def readEvent (event : OpenCanaryLogEvent) : Reading :=
  let lower := svc.profiler.py.lower
  let service := serviceName lower event
  let username := usernameFromLogdata lower event.logdata
  let passwordSeen := passwordSeen lower event.logdata
  { service
    username
    passwordSeen
    loginProbe := isLoginProbe lower svc.upper event service passwordSeen username
    tags := profileTags lower svc.upper event service passwordSeen username
    output := formatOutput lower svc.upper event service username passwordSeen
    context := profileContext lower svc.upper event.logdata
    assetId := textFromLogdata lower event.logdata ["ASSET_ID", "asset_id"]
    logdata := redactLogdata lower event.logdata }

/-- What the profiler is asked to ingest. -/
def canaryRequest (event : OpenCanaryLogEvent) (reading : Reading) (eventTime : Datetime)
    (bindingId : String) : EvidenceIngestRequest where
  attackerKey := event.srcHost
  bindingId
  event := {
    ts := eventTime
    falcoRule := "OpenCanary " ++ reading.service ++ " event"
    priority := if reading.loginProbe then "medium" else "low"
    output := reading.output
    tags := reading.tags
    outputFields := Dict.update
      [("source", .str "opencanary"), ("opencanary_service", .str reading.service),
        ("opencanary_logtype", optionalInt event.logtype), ("src_ip", .str event.srcHost),
        ("src_host", .str event.srcHost), ("src_port", optionalInt event.srcPort),
        ("dest_ip", optionalText event.dstHost), ("dst_host", optionalText event.dstHost),
        ("dest_port", optionalInt event.dstPort), ("dst_port", optionalInt event.dstPort),
        ("logtype", optionalInt event.logtype), ("node_id", optionalText event.nodeId),
        ("username", optionalText reading.username),
        ("password_seen", .bool reading.passwordSeen),
        ("asset_id", optionalText reading.assetId)] reading.context }

def canaryObservation (call : IngestCall) (event : OpenCanaryLogEvent) (reading : Reading)
    (eventTime : Datetime) (bindingId : String) (evidences : List TechniqueEvidence) :
    OpenCanaryObservation where
  observationId := call.observationId
  ts := eventTime
  attackerKey := event.srcHost
  bindingId
  service := reading.service
  srcHost := event.srcHost
  srcPort := event.srcPort
  dstHost := event.dstHost
  dstPort := event.dstPort
  logtype := event.logtype
  nodeId := event.nodeId
  username := reading.username
  passwordSeen := reading.passwordSeen
  logdata := reading.logdata
  tags := reading.tags
  profilerEvidenceIds := evidences.map TechniqueEvidence.evidenceId

/-- Resolve the attacker, update the profile and store an observation. -/
def ingest (call : IngestCall) (event : OpenCanaryLogEvent) :
    CanaryIngesting F (OpenCanaryIngestResponse F) := do
  let reading := readEvent svc event
  let eventTime := event.utcTime.getD (.utc call.now)
  let binding ← onShared (resolveBinding call event.srcHost)
  let (evidences, profile) ← onShared (ingestEvidence (sharedProfiler svc) call
    (canaryRequest event reading eventTime binding.bindingId))
  let observation := canaryObservation call event reading eventTime binding.bindingId evidences
  modify fun s => { s with observations := s.observations ++ [observation] }
  return ⟨observation, binding, profile⟩

variable {svc}

/-- What is read of two events that differ in their secrets only. -/
theorem readEvent_alike (hlower : LowersAscii svc.profiler.py.lower) (event : OpenCanaryLogEvent)
    {a b : Settings} (h : Alike svc.profiler.py.lower a b) :
    readEvent svc { event with logdata := a } = readEvent svc { event with logdata := b } := by
  have hasset : textFromLogdata svc.profiler.py.lower a ["ASSET_ID", "asset_id"] =
      textFromLogdata svc.profiler.py.lower b ["ASSET_ID", "asset_id"] :=
    textFromLogdata_alike hlower h (by decide)
  unfold readEvent
  simp only [serviceName_alike event hlower h, usernameFromLogdata_alike hlower h,
    passwordSeen_alike h, isLoginProbe_alike event hlower h, profileTags_alike event hlower h,
    formatOutput_alike event hlower h, profileContext_alike hlower h, hasset,
    redactLogdata_alike h]

/-- **Secrets leave no trace**: two events that differ in the values of their secrets only have the
same answer, and leave the same bindings, evidence, profiles and observations. -/
theorem ingest_secret_blind (hlower : LowersAscii svc.profiler.py.lower) (call : IngestCall)
    (event : OpenCanaryLogEvent) {a b : Settings} (h : Alike svc.profiler.py.lower a b)
    (s : CanaryStores F) :
    Effect.exec (ingest svc call { event with logdata := a }) s =
      Effect.exec (ingest svc call { event with logdata := b }) s := by
  unfold ingest canaryRequest canaryObservation
  rw [readEvent_alike hlower event h]

end Ingest

/-! ### Two passwords -/

def sampleCanary : OpenCanaryService ℕ where
  profiler := sampleService.profiler
  upper s := String.ofList (s.toList.map Char.toUpper)

/-- A login at the FTP service. -/
def ftpLogin : OpenCanaryLogEvent where
  srcHost := "198.51.100.10"
  dstPort := some 21
  logtype := some 2000

def loginWith (password : String) : Settings :=
  [("USERNAME", .str "root"), ("PASSWORD", .str password)]

theorem alike_logins : Alike sampleCanary.profiler.py.lower (loginWith "letmein")
    (loginWith "hunter2") := by
  refine .cons ⟨rfl, ?_⟩ (.cons ⟨rfl, ?_⟩ .nil)
  · rw [if_neg (by decide)]
  · rw [if_pos (by decide)]
    rfl

/-- The two logins are stored as one and the same observation. -/
theorem login_stored_without_password :
    Effect.exec (ingest sampleCanary sampleCall { ftpLogin with logdata := loginWith "letmein" })
        {} =
      Effect.exec (ingest sampleCanary sampleCall { ftpLogin with logdata := loginWith "hunter2" })
        {} ∧
    (Effect.exec (ingest sampleCanary sampleCall
      { ftpLogin with logdata := loginWith "letmein" }) {}).2.observations.length = 1 :=
  ⟨ingest_secret_blind (fun _ _ => rfl) sampleCall ftpLogin alike_logins {}, by decide⟩

end Honeynet.OpenCanary
