import Honeynet.Lib.Text
import Honeynet.Orchestrator.TemplateRuntime
import Mathlib.Algebra.Order.BigOperators.Group.List
import Mathlib.Algebra.Order.Group.Nat
import Mathlib.Algebra.Ring.Nat

/-!
# Applying controller actions

* `apply`: the actions of a controller on one binding, in order.
* `prewarm`: hidden backends for assets that are not open yet.
* `Call`, `Step`: the calls that change the stores, one after another.
* `quietHost`: a host on which every container starts, for runs on given calls.
-/

namespace Honeynet.Orchestrator

open Collections Binding

/-! ### Route updates -/

def exposesUpdate (bindingId assetId : String) : String :=
  "binding " ++ bindingId ++ " exposes " ++ assetId

def routesUpdate (bindingId assetId : String) : String :=
  "binding " ++ bindingId ++ " routes " ++ assetId

/-- The asset id of one route update, read back from its text. -/
def newAssetId (routeUpdate : String) : Option String :=
  ((Text.afterLast " exposes ".toList routeUpdate.toList).or
    (Text.afterLast " routes ".toList routeUpdate.toList)).map String.ofList

def newAssetIdsFromRouteUpdates (routeUpdates : List String) : List String :=
  routeUpdates.filterMap newAssetId

/-- The updates of an unlock: assets that were closed are exposed, assets that were open are
routed again. -/
def unlockRouteUpdates (bindingId : String) (previous current assetIds : List String) :
    List String :=
  (current.filter (· ∉ previous)).map (exposesUpdate bindingId) ++
    (assetIds.filter fun id => id ∈ previous ∧ id ∈ current).map (routesUpdate bindingId)

/-! ### Actions -/

/-- What actions have come to so far. -/
structure Progress where
  binding : BindingRecord
  routeUpdates : List String := []
  runtimeEvents : List AssetRuntimeRecord := []

section Apply

variable (host : Host)

def applyUnlocks (binding : BindingRecord) (bindingId : String) (assetIds : List String) :
    Orchestrate (BindingRecord × List String) := do
  let updated ← callBinding host (.unlockAssets bindingId assetIds)
  return (updated,
    unlockRouteUpdates bindingId binding.unlockedAssets updated.unlockedAssets assetIds)

def assetById (assetId : String) : Option AssetDefinition :=
  host.catalog.find? fun asset => asset.assetId == assetId

/-- Start one asset for the attacker of the binding, if the catalog has it. -/
def startAssetRuntime (binding : BindingRecord) (assetId : String)
    (runtimeOverride : Option Settings) : Orchestrate (List AssetRuntimeRecord) :=
  match assetById host assetId with
  | none => return []
  | some asset => do
    let record ← startAsset host binding.bindingId asset (some binding.attackerKey) false
      runtimeOverride
    return [record]

def startEach (binding : BindingRecord) (runtimeOverride : String → Option Settings) :
    List String → Orchestrate (List AssetRuntimeRecord)
  | [] => return []
  | assetId :: assetIds => do
    let started ← startAssetRuntime host binding assetId (runtimeOverride assetId)
    let rest ← startEach binding runtimeOverride assetIds
    return started ++ rest

/-- Unlock an asset and start what its route update names. -/
def unlockAction (bindingId : String) (binding : BindingRecord) (assetId : String) :
    Orchestrate Progress := do
  let (binding, routeUpdates) ← applyUnlocks host binding bindingId [assetId]
  let runtimeEvents ← startEach host binding (fun _ => none)
    (newAssetIdsFromRouteUpdates routeUpdates)
  return { binding, routeUpdates, runtimeEvents }

/-- The runtime that a configuration puts in place of its target's. -/
def configurationTargetRuntime (configuration : Settings) : Option Settings :=
  (configuration.get "target_runtime").dict?

def applyAssetConfiguration (now : Bool) (binding : BindingRecord)
    (assetId configurationId : String) (configuration : Settings) :
    Orchestrate (List AssetRuntimeRecord) :=
  if now then do
    let record ← applyConfiguration host binding.bindingId assetId configurationId configuration
    return record.toList
  else return []

/-- Unlock the target of a configuration; its route is made the newest in any case. -/
def revealTarget (bindingId : String) (binding : BindingRecord) (target : Option String)
    (targetRuntime : Option Settings) : Orchestrate Progress :=
  match target with
  | none => return { binding }
  | some target => do
    let (binding, routeUpdates) ← applyUnlocks host binding bindingId [target]
    let newTargetIds := newAssetIdsFromRouteUpdates routeUpdates
    let missing := if target ∈ newTargetIds then [] else [target]
    let runtimeEvents ← startEach host binding
      (fun assetId => if assetId = target then targetRuntime else none) (newTargetIds ++ missing)
    return { binding, routeUpdates := routeUpdates ++ missing.map (routesUpdate bindingId),
             runtimeEvents }

/-- Reveal a configuration, and its target if it has one.  A target runtime is in place before
the configuration is attached. -/
def configureAction (bindingId : String) (assetId configurationId : String)
    (action : ControllerAction) : Orchestrate Progress := do
  let targetRuntime := configurationTargetRuntime action.configuration
  let binding ← callBinding host (.revealConfigurations bindingId [(assetId, [configurationId])])
  let before ← applyAssetConfiguration host targetRuntime.isNone binding assetId configurationId
    action.configuration
  let progress ← revealTarget host bindingId binding (given action.targetAssetId) targetRuntime
  let after ← applyAssetConfiguration host targetRuntime.isSome progress.binding assetId
    configurationId action.configuration
  return {
    binding := progress.binding
    routeUpdates := ["binding " ++ bindingId ++ " configures " ++ assetId ++ ":" ++ configurationId]
      ++ progress.routeUpdates
    runtimeEvents := before ++ progress.runtimeEvents ++ after }

def recycleAction (bindingId : String) : Orchestrate Progress := do
  let stopped ← stopBindingAssets host bindingId
  let binding ← callBinding host (.recycle bindingId .idle)
  return { binding, routeUpdates := ["binding " ++ bindingId ++ " recycled"],
           runtimeEvents := stopped }

/-- One action; an unlock without an asset and a configuration without its ids do nothing. -/
def applyAction (bindingId : String) (binding : BindingRecord) (action : ControllerAction) :
    Orchestrate Progress :=
  match action.actionType, given action.assetId, given action.configurationId with
  | .unlock, some assetId, _ => unlockAction host bindingId binding assetId
  | .configure, some assetId, some configurationId =>
    configureAction host bindingId assetId configurationId action
  | .routeUpdate, _, _ =>
    return { binding, routeUpdates :=
      ["binding " ++ bindingId ++ " route update: " ++ action.reason] }
  | .recycle, _, _ => recycleAction host bindingId
  | _, _, _ => return { binding }

/-- Actions in order: earlier ones change the state later ones meet. -/
def applyActions (bindingId : String) : BindingRecord → List ControllerAction →
    Orchestrate Progress
  | binding, [] => return { binding }
  | binding, action :: actions => do
    let first ← applyAction host bindingId binding action
    let rest ← applyActions bindingId first.binding actions
    return {
      binding := rest.binding
      routeUpdates := first.routeUpdates ++ rest.routeUpdates
      runtimeEvents := first.runtimeEvents ++ rest.runtimeEvents }

/-- The gateway's view of the binding, brought up to date. -/
def World.sync (w : World) (binding : BindingRecord) (routeUpdates : List String) : World :=
  let existing := findLast GatewayBindingState.bindingId binding.bindingId w.gateway
  { w with gateway := upsertBy GatewayBindingState.bindingId {
      bindingId := binding.bindingId
      attackerKey := binding.attackerKey
      backendInstanceId := binding.backendInstanceId
      status := binding.status
      exposedAssets := listAccessibleAssetIds host w binding.bindingId
      failedAssets := listFailedAssetIds host w binding.bindingId
      routeUpdates := (existing.map GatewayBindingState.routeUpdates).getD [] ++ routeUpdates
      updatedAt := .utc (host.now w) } w.gateway }

/-- Apply the actions of a controller to a binding. -/
def apply (bindingId : String) (actions : List ControllerAction) : Orchestrate Progress := do
  let binding ← getBinding bindingId
  let progress ← applyActions host bindingId binding actions
  modify fun w => w.sync host progress.binding progress.routeUpdates
  return progress

/-! ### Warm standbys -/

/-- The catalog assets that may be started hidden. -/
def prewarmAssets (requested unlocked : List String) : List AssetDefinition :=
  host.catalog.filter fun asset =>
    !(asset.assetId ∈ unlocked) && (requested.isEmpty || asset.assetId ∈ requested) &&
      match assetRuntime asset with
      | .dict runtime => (Settings.get runtime "warm_standby").isTrue
      | _ => false

def prewarmEach (bindingId : String) :
    List AssetDefinition → Orchestrate (List AssetRuntimeRecord)
  | [] => return []
  | asset :: assets => do
    let record ← prewarmAsset host bindingId asset
    let records ← prewarmEach bindingId assets
    return record :: records

/-- The records of the backends started for a binding, shown to nobody. -/
def prewarm (bindingId : String) (assetIds : List String) :
    Orchestrate (List AssetRuntimeRecord) := do
  let binding ← getBinding bindingId
  prewarmEach host binding.bindingId (prewarmAssets host assetIds binding.unlockedAssets)

end Apply

/-! ### Calls -/

/-- A call of the binding service or of the orchestrator. -/
inductive Call
  | binding (op : BindingOp)
  | apply (bindingId : String) (actions : List ControllerAction)
  | prewarm (bindingId : String) (assetIds : List String)

/-- The stores after a call, whether it returned or raised. -/
def Call.run (host : Host) (w : World) : Call → World
  | .binding op => (Effect.exec (callBinding host op) w).2
  | .apply bindingId actions => (Effect.exec (Orchestrator.apply host bindingId actions) w).2
  | .prewarm bindingId assetIds => (Effect.exec (Orchestrator.prewarm host bindingId assetIds) w).2

/-- One call after another, each with whatever the host answers. -/
def Step (s t : World) : Prop := ∃ host call, Host.Fresh host ∧ Call.run host s call = t

/-! ### A host on which containers start -/

/-- An id longer than all stored ones together. -/
def freshId (ids : List String) : String :=
  String.ofList (List.replicate ((ids.map String.length).sum + 1) 'u')

theorem freshId_notMem (ids : List String) : freshId ids ∉ ids := by
  intro h
  have hle := List.le_sum_of_mem (List.mem_map_of_mem (f := String.length) h)
  have hlength : (freshId ids).length = (ids.map String.length).sum + 1 := by simp [freshId]
  omega

def quietHost (catalog : List AssetDefinition) : Host where
  catalog
  ttl := 604800000000
  now _ := 1767225600000000
  isoNow _ := "2026-01-01T00:00:00+00:00"
  bindingUuid w := freshId (w.bindings.map BindingRecord.bindingId)
  runtimeUuid w := freshId (w.runtimes.map AssetRuntimeRecord.runtimeId)
  str value := value.str?.getD ""
  int value := match value.int? with
    | some n => .ok n
    | none => .error ⟨.typeError, "int() argument must be a number"⟩
  dict value := match value.dict? with
    | some d => .ok d
    | none => .error ⟨.typeError, "object is not iterable"⟩
  gatewayEnabled := true
  portOverride _ := none
  hostBind := none
  freePort _ requested _ := requested.int?.getD 0
  docker _ _ := { cli := true, command := none, containerStatus := "missing", cleanup := none,
                  run := none, verify := none, sidecars := .ok [], networkIp := .ok none }
  compose _ _ := { cli := true, composeFile := .ok "compose.yml", projectName := .ok "lab",
                   up := none, containerIds := .ok [], internalNetwork := .ok "",
                   connect := none, statuses := .ok [], down := none, targetContainer := .ok "",
                   networkIp := .ok none }
  remove _ _ := none
  composeDown _ _ := none
  artifact _ _ _ _ := .ok []
  containerStatus _ _ := "Up 2 seconds"
  projectStatuses _ _ := []

theorem quietHost_fresh (catalog : List AssetDefinition) : (quietHost catalog).Fresh :=
  ⟨fun _ => freshId_notMem _, fun _ => freshId_notMem _⟩

/-- A repository behind one port of the asset gateway. -/
def gitCatalog : List AssetDefinition :=
  [{ assetId := "git-internal", exposureType := .internal,
     defaultSettings := [("runtime", .dict [("backend", .str "docker"), ("image", .str "gitea"),
       ("port_mappings", .list [.dict [("requested_host_port", .int 18081),
         ("container_port", .int 3000)]])])] }]

def unlockOf (assetId : String) : ControllerAction where
  actionType := .unlock
  bindingId := "u"
  assetId := some assetId
  reason := "asset selected"

/-- The stores once an attacker has a binding. -/
def boundWorld : World := Call.run (quietHost gitCatalog) {} (.binding (.resolve "198.51.100.7"))

/-- The stores after one unlock for the attacker. -/
def unlockedWorld (assetId : String) : World :=
  Call.run (quietHost gitCatalog) boundWorld (.apply "u" [unlockOf assetId])

end Honeynet.Orchestrator
