import Honeynet.Binding.Service
import Honeynet.Common.Contracts
import Honeynet.Lib.Effect

/-!
# The stores of the orchestrator

* `World`: the bindings, the runtime records, the routes of the data plane and the exposure view
  of the gateway, each a file of its own.
* `Host`: what the orchestrator asks of the machine it runs on.
* `upsertRuntime`, `replaceRoutes`, `callBinding`: the writes.
-/

namespace Honeynet.Orchestrator

open Collections Binding

inductive RuntimeStatus
  | running
  | stopped
  | failed
  deriving DecidableEq, Repr

/-- The state of one started asset. -/
structure AssetRuntimeRecord where
  runtimeId : String
  bindingId : String
  assetId : String
  assetName : String
  templateFamily : Option String
  status : RuntimeStatus
  protocols : List String
  ports : List Int
  settings : Settings
  sourceRefs : List String
  startedAt : Datetime

/-- The record of a warm standby, which counts neither as reachable nor as failed. -/
def AssetRuntimeRecord.hidden (record : AssetRuntimeRecord) : Bool :=
  (record.settings.get "warm_standby_hidden").isTrue

/-- A route from a public port, for one attacker, to a backend. -/
structure GatewayRoute where
  attackerKey : String
  bindingId : String
  assetId : String
  assetName : String
  protocol : String
  publicPort : Int
  backendHost : String
  backendPort : Int
  backendIp : String
  updatedAt : String
  deriving DecidableEq, Repr

/-- What the gateway shows of one binding. -/
structure GatewayBindingState where
  bindingId : String
  attackerKey : String
  backendInstanceId : String
  status : BindingStatus
  exposedAssets : List String
  failedAssets : List String
  routeUpdates : List String
  updatedAt : Datetime

/-- The stores, and beside them the containers for which `docker rm -f` was issued. -/
structure World where
  bindings : List BindingRecord := []
  runtimes : List AssetRuntimeRecord := []
  routes : List GatewayRoute := []
  gateway : List GatewayBindingState := []
  removals : List String := []

/-! ### The host -/

/-- What a container start meets, step by step; `some e` where the step raises, and `removals` are
the containers it removes after those of the record it replaces. -/
structure DockerAnswers where
  cli : Bool
  command : Option PyError
  containerStatus : String
  cleanup : Option PyError
  run : Option PyError
  verify : Option PyError
  sidecars : Except PyError (List String)
  networkIp : Except PyError (Option String)
  removals : List String := []

/-- What a project start meets, step by step. -/
structure ComposeAnswers where
  cli : Bool
  composeFile : Except PyError String
  projectName : Except PyError String
  up : Option PyError
  containerIds : Except PyError (List String)
  internalNetwork : Except PyError String
  connect : Option PyError
  statuses : Except PyError (Dict String String)
  down : Option PyError
  targetContainer : Except PyError String
  networkIp : Except PyError (Option String)

/-- The machine, its settings and the asset catalog.  Whatever differs from one moment to the
next depends on the stores, which every start changes. -/
structure Host where
  catalog : List AssetDefinition
  ttl : Int
  now : World → Int
  isoNow : World → String
  bindingUuid : World → String
  runtimeUuid : World → String
  /-- `str`, `int` and `dict` on a setting. -/
  str : Value → String
  int : Value → Except PyError Int
  dict : Value → Except PyError Settings
  gatewayEnabled : Bool
  portOverride : String → Option Int
  hostBind : Option String
  /-- The port for a requested one, when ports are published on this machine. -/
  freePort : World → Value → String → Int
  docker : World → AssetDefinition → DockerAnswers
  compose : World → AssetDefinition → ComposeAnswers
  /-- `docker rm` and `docker compose down`, when they raise. -/
  remove : World → String → Option PyError
  composeDown : World → AssetRuntimeRecord → Option PyError
  /-- What writing the files of a configuration returns. -/
  artifact : World → AssetRuntimeRecord → String → Settings → Except PyError Settings
  containerStatus : World → String → String
  projectStatuses : World → String → Dict String String

/-- Ids are fresh: `uuid4()` returns none that is stored. -/
structure Host.Fresh (host : Host) : Prop where
  binding : ∀ w : World, host.bindingUuid w ∉ w.bindings.map BindingRecord.bindingId
  runtime : ∀ w : World, host.runtimeUuid w ∉ w.runtimes.map AssetRuntimeRecord.runtimeId

/-- A computation of the orchestrator. -/
abbrev Orchestrate (α : Type) : Type := Effect World PyError α

/-- Raise the exception a step answered with, if any. -/
def raise? : Option PyError → Orchestrate PUnit
  | some e => throw e
  | none => pure ⟨⟩

def raiseIf (c : Bool) (e : PyError) : Orchestrate PUnit := raise? (if c then some e else none)

/-- The result a step answered with. -/
def answer {α : Type} : Except PyError α → Orchestrate α
  | .ok a => pure a
  | .error e => throw e

theorem raise?_spec {P : World → Prop} (e : Option PyError) :
    Effect.Triple P (raise? e) (fun _ => P) P := by
  cases e with
  | none => exact Effect.Triple.pure fun _ h => h
  | some e => exact Effect.Triple.throw fun _ h => h

theorem answer_spec {α : Type} {P : World → Prop} (x : Except PyError α) :
    Effect.Triple P (answer x) (fun a w => P w ∧ x = .ok a) P := by
  cases x with
  | ok a => exact Effect.Triple.pure fun _ h => ⟨h, rfl⟩
  | error e => exact Effect.Triple.throw fun _ h => h

/-! ### The runtime store -/

/-- Insert or update one runtime record. -/
def World.upsertRuntime (w : World) (record : AssetRuntimeRecord) : World :=
  { w with runtimes := upsertBy AssetRuntimeRecord.runtimeId record w.runtimes }

def upsertRuntime (record : AssetRuntimeRecord) : Orchestrate AssetRuntimeRecord := do
  modify fun w => w.upsertRuntime record
  return record

theorem upsertRuntime_spec {P : World → Prop} {Q : AssetRuntimeRecord → World → Prop}
    {E : World → Prop} {record : AssetRuntimeRecord}
    (h : ∀ w, P w → Q record (w.upsertRuntime record)) :
    Effect.Triple P (upsertRuntime record) Q E :=
  Effect.Triple.of_exec_ok (fun _ => rfl) h

def World.listByBinding (w : World) (bindingId : String) : List AssetRuntimeRecord :=
  w.runtimes.filter fun record => record.bindingId == bindingId

def AssetRuntimeRecord.stop (record : AssetRuntimeRecord) : AssetRuntimeRecord :=
  { record with status := .stopped }

/-! ### Removing containers -/

/-- `docker rm -f` is issued for a container. -/
def World.logRemoval (w : World) (name : String) : World :=
  { w with removals := w.removals ++ [name] }

/-! ### The route table -/

/-- `replace_list_items` by binding, asset and public port. -/
def World.replaceRoutes (w : World) (new : List GatewayRoute) : World :=
  { w with routes := w.routes.filter (fun route => !(new.map fun route =>
      (route.bindingId, route.assetId, route.publicPort)).contains
        (route.bindingId, route.assetId, route.publicPort)) ++ new }

/-! ### The bindings -/

/-- One operation of the binding service. -/
def callBinding (host : Host) (op : BindingOp) : Orchestrate BindingRecord := do
  let w ← get
  let (record, records) ← answer (op.call ⟨host.ttl, host.now w, host.bindingUuid w⟩ w.bindings)
  modify fun w => { w with bindings := records }
  return record

/-- An operation that returns has written the records it computed, one that raises nothing. -/
theorem callBinding_spec (host : Host) (op : BindingOp) (w : World) :
    Effect.Triple (· = w) (callBinding host op)
      (fun record t => ∃ records,
        op.call ⟨host.ttl, host.now w, host.bindingUuid w⟩ w.bindings = .ok (record, records) ∧
          t = { w with bindings := records }) (· = w) := by
  refine Effect.Triple.get_bind fun s hs => ?_
  obtain rfl : w = s := hs.symm
  refine (answer_spec _).bind fun result => Effect.Triple.of_and fun hcall => ?_
  refine (Effect.Triple.modify (Q := fun _ t => t = { w with bindings := result.2 }) ?_).bind
    fun _ => Effect.Triple.pure ?_
  · rintro _ rfl
    rfl
  · rintro _ rfl
    exact ⟨result.2, hcall, rfl⟩

def getBinding (bindingId : String) : Orchestrate BindingRecord := do
  let w ← get
  match getByBinding w.bindings bindingId with
  | some record => return record
  | none => throw (bindingNotFound bindingId)

/-! ### What the writes change -/

@[simp] theorem upsertRuntime_bindings (w : World) (record : AssetRuntimeRecord) :
    (w.upsertRuntime record).bindings = w.bindings := rfl

@[simp] theorem upsertRuntime_routes (w : World) (record : AssetRuntimeRecord) :
    (w.upsertRuntime record).routes = w.routes := rfl

@[simp] theorem replaceRoutes_bindings (w : World) (new : List GatewayRoute) :
    (w.replaceRoutes new).bindings = w.bindings := rfl

@[simp] theorem replaceRoutes_runtimes (w : World) (new : List GatewayRoute) :
    (w.replaceRoutes new).runtimes = w.runtimes := rfl

@[simp] theorem replaceRoutes_nil (w : World) : w.replaceRoutes [] = w := by
  simp [World.replaceRoutes]

theorem mem_upsertRuntime {w : World} {record r : AssetRuntimeRecord}
    (h : r ∈ (w.upsertRuntime record).runtimes) :
    r = record ∨ (r ∈ w.runtimes ∧ r.runtimeId ≠ record.runtimeId) :=
  mem_upsertBy h

theorem mem_upsertRuntime_of_ne {w : World} {record r : AssetRuntimeRecord} (hr : r ∈ w.runtimes)
    (hne : r.runtimeId ≠ record.runtimeId) : r ∈ (w.upsertRuntime record).runtimes :=
  mem_upsertBy_of_ne hr hne

theorem self_mem_upsertRuntime (w : World) (record : AssetRuntimeRecord) :
    record ∈ (w.upsertRuntime record).runtimes := self_mem_upsertBy record w.runtimes

theorem mem_replaceRoutes {w : World} {new : List GatewayRoute} {route : GatewayRoute}
    (h : route ∈ (w.replaceRoutes new).routes) : route ∈ w.routes ∨ route ∈ new :=
  (List.mem_append.mp h).imp_left fun h => (List.mem_filter.mp h).1

end Honeynet.Orchestrator
