import Honeynet.Orchestrator.Routes

/-!
# Template runtimes

An asset is started as a mock record, as a container or as a compose project.  Warm standbys are
started hidden, and a later start for an attacker attaches to them.

* `mockStartAsset`, `dockerStartAsset`, `composeStartAsset`, `startAsset`: the starts.
* `stopBindingAssets`: all records of a binding, stopped by the runtime they belong to.
* `applyConfiguration`: a configuration written into a running record.
* `listAccessibleAssetIds`, `listFailedAssetIds`: what a binding can reach, and what failed.
-/

namespace Honeynet.Orchestrator

open Collections

/-! ### Records -/

def existingRunningRecord (w : World) (bindingId assetId : String) : Option AssetRuntimeRecord :=
  (w.listByBinding bindingId).find? fun record =>
    record.assetId == assetId && record.status == .running

/-- A new record of an asset. -/
def runtimeRecordFromAsset (host : Host) (w : World) (bindingId : String) (asset : AssetDefinition)
    (status : RuntimeStatus) (settings : Settings) : AssetRuntimeRecord where
  runtimeId := host.runtimeUuid w
  bindingId
  assetId := asset.assetId
  assetName := asset.assetName
  templateFamily := asset.templateFamily
  status
  protocols := asset.protocols
  ports := asset.ports
  settings
  sourceRefs := asset.sourceRefs
  startedAt := .utc (host.now w)

/-- An optional text that is not empty. -/
def given (text : Option String) : Option String := text.filter (· != "")

/-- Show a backend that is already running to the attacker it is started for. -/
def attachGatewayRouteForExistingRecord (host : Host) (record : AssetRuntimeRecord)
    (asset : AssetDefinition) (attackerKey : Option String) : Orchestrate AssetRuntimeRecord :=
  match given attackerKey, (record.settings.get "asset_gateway_managed").isTrue with
  | some attackerKey, true => do
    upsertAssetGatewayRoutes host record.bindingId attackerKey asset record.settings
    if record.hidden then
      upsertRuntime { record with
        settings := record.settings.set "warm_standby_hidden" (.bool false) }
    else return record
  | _, _ => return record

/-- Persist the routes of an asset that the gateway manages, for the attacker it is started for. -/
def routeTo (host : Host) (bindingId : String) (asset : AssetDefinition)
    (attackerKey : Option String) (managed : Bool) (settings : Settings) : Orchestrate PUnit :=
  match given attackerKey, managed with
  | some attackerKey, true => upsertAssetGatewayRoutes host bindingId attackerKey asset settings
  | _, _ => return ⟨⟩

/-- Stop the record that a start replaces, if one runs. -/
def stopExisting (stop : AssetRuntimeRecord → Orchestrate AssetRuntimeRecord) :
    Option AssetRuntimeRecord → Orchestrate PUnit
  | some existing => do
    let _ ← stop existing
    return ⟨⟩
  | none => return ⟨⟩

/-- The flag of a warm standby, the last of the settings a start adds. -/
def standbyFlag (warmStandby : Bool) : Settings :=
  if warmStandby then [("warm_standby_hidden", .bool true)] else []

section Starts

variable (host : Host)

/-! ### The mock runtime -/

/-- The settings of a configured mock. -/
def configuredRuntime : Option Settings → Settings
  | some runtime => [("runtime", .dict runtime),
      ("runtime_backend", .str (host.str (runtime.getD "backend" (.str "mock")))),
      ("configured_runtime", .bool true)]
  | none => []

def mockStartAsset (bindingId : String) (asset : AssetDefinition) (warmStandby : Bool)
    (runtimeOverride : Option Settings) : Orchestrate AssetRuntimeRecord := do
  let w ← get
  match existingRunningRecord w bindingId asset.assetId, runtimeOverride with
  | some existing, none => return existing
  | existing, runtimeOverride => do
    stopExisting (fun existing => upsertRuntime existing.stop) existing
    let w ← get
    upsertRuntime (runtimeRecordFromAsset host w bindingId asset .running
      (Dict.update asset.defaultSettings
        (configuredRuntime host runtimeOverride ++ standbyFlag warmStandby)))

/-! ### The Docker runtime -/

def assetRuntime (asset : AssetDefinition) : Value :=
  asset.defaultSettings.getD "runtime" (.dict [])

def runtimeBackend (runtime : Settings) : Option String := (runtime.get "backend").str?

def supports (backend : String) (asset : AssetDefinition) : Bool :=
  match assetRuntime asset with
  | .dict runtime => runtimeBackend runtime == some backend
  | _ => false

def dockerSupports : AssetDefinition → Bool := supports "docker"

/-- `status.startswith("Up")`. -/
def isUp (status : String) : Bool := "Up".toList.isPrefixOf status.toList

def containerName (bindingId assetId : String) : String :=
  "honeynet-" ++ String.ofList (bindingId.toList.take 8) ++ "-" ++ assetId

/-- The first port of a runtime and the whole list. -/
def portSettings (managed : Bool) (backendHost : String) : List Settings → Settings
  | [] => []
  | first :: ports =>
    [("host", first.get "host"), ("host_port", first.get "host_port"),
      ("container_port", first.get "container_port"),
      ("port_mappings", .list ((first :: ports).map .dict))] ++
    if managed then
      [("asset_gateway_managed", .bool true), ("backend_host", .str backendHost),
        ("backend_port", first.get "container_port"), ("public_port", first.get "host_port")]
    else []

/-- The settings a container is recorded with. -/
def dockerSettings (w : World) (asset : AssetDefinition) (runtime : Settings)
    (name image : String) (managed : Bool) : Except PyError Settings := do
  let ports ← resolvePortMappings host w runtime asset.assetId managed name
  return [("runtime_backend", .str "docker"), ("container_name", .str name),
    ("image", .str image)] ++ portSettings managed name ports

/-- The containers of a record: its sidecars, then its own. -/
def containersOf (record : AssetRuntimeRecord) : List String :=
  (((record.settings.getD "sidecar_containers" (.list [])).list?.getD []).filterMap
      Value.str?).filter (· != "") ++
    (record.settings.get "container_name").str?.toList.filter (· != "")

def removeContainers : List String → Orchestrate PUnit
  | [] => return ⟨⟩
  | name :: names => do
    modify fun w => w.logRemoval name
    let w ← get
    raise? (host.remove w name)
    removeContainers names

/-- Remove the containers of a record and mark it stopped. -/
def stopRuntimeRecord (record : AssetRuntimeRecord) : Orchestrate AssetRuntimeRecord := do
  removeContainers host (containersOf record)
  upsertRuntime record.stop

def backendIpSetting (ip : Option String) : Settings :=
  ip.toList.map fun ip => ("backend_ip", .str ip)

/-- Persist the routes and the record of a backend that runs. -/
def recordStarted (bindingId : String) (asset : AssetDefinition) (settings : Settings)
    (managed : Bool) (attackerKey : Option String) (warmStandby : Bool) :
    Orchestrate AssetRuntimeRecord := do
  let w ← get
  routeTo host bindingId asset attackerKey managed (settings ++ standbyFlag warmStandby)
  upsertRuntime (runtimeRecordFromAsset host w bindingId asset .running
    (Dict.update asset.defaultSettings (settings ++ standbyFlag warmStandby)))

/-- Persist a container that is confirmed running. -/
def recordRunningContainer (bindingId : String) (asset : AssetDefinition) (settings : Settings)
    (managed : Bool) (attackerKey : Option String) (networkIp : Except PyError (Option String))
    (warmStandby : Bool) : Orchestrate AssetRuntimeRecord := do
  let backendIp ← answer (if managed then networkIp else .ok none)
  recordStarted host bindingId asset (settings ++ backendIpSetting backendIp) managed attackerKey
    warmStandby

/-- The runtime of a container start: the configured one, unless it is empty. -/
def dockerRuntime (asset : AssetDefinition) (runtimeOverride : Option Settings) :
    Except PyError Settings := do
  let runtime ← host.dict <|
    match runtimeOverride with
    | some (field :: fields) => .dict (field :: fields)
    | _ => assetRuntime asset
  if runtimeOverride.isSome && runtimeBackend runtime != some "docker" then
    throw ⟨.runtimeError, "configured runtime for " ++ asset.assetId ++ " is not Docker-backed"⟩
  return runtime

def dockerImage (asset : AssetDefinition) (runtime : Settings) : Except PyError String :=
  match (runtime.get "image").str? with
  | some image =>
    if image = "" then
      .error ⟨.runtimeError, "asset " ++ asset.assetId ++ " runtime is missing a Docker image"⟩
    else .ok image
  | none =>
    .error ⟨.runtimeError, "asset " ++ asset.assetId ++ " runtime is missing a Docker image"⟩

/-- What running the container raises; one that is already up is taken over as it is. -/
def DockerAnswers.startError (answers : DockerAnswers) : Option PyError :=
  if isUp answers.containerStatus then none
  else if answers.containerStatus ≠ "missing" then answers.cleanup.or answers.run
  else answers.run

def configuredFlag (runtimeOverride : Option Settings) : Settings :=
  if runtimeOverride.isSome then [("configured_runtime", .bool true)] else []

/-- Start a container, in place of the one that runs. -/
def launchContainer (bindingId : String) (asset : AssetDefinition) (attackerKey : Option String)
    (warmStandby : Bool) (existing : Option AssetRuntimeRecord)
    (runtimeOverride : Option Settings) : Orchestrate AssetRuntimeRecord := do
  let w ← get
  let answers := host.docker w asset
  raiseIf (!answers.cli) ⟨.runtimeError, "docker CLI is not available on this host"⟩
  raiseIf (runtimeOverride.isNone && !dockerSupports asset)
    ⟨.runtimeError, "asset " ++ asset.assetId ++ " is not supported by DockerTemplateRuntime"⟩
  let runtime ← answer (dockerRuntime host asset runtimeOverride)
  let image ← answer (dockerImage asset runtime)
  let name := containerName bindingId asset.assetId
  let managed := assetGatewayManaged host asset runtime
  stopExisting (stopRuntimeRecord host) existing
  modify fun w => { w with removals := w.removals ++ answers.removals }
  raise? answers.command
  let settings ← answer (dockerSettings host w asset runtime name image managed)
  raise? answers.startError
  raise? answers.verify
  let sidecars ← answer answers.sidecars
  recordRunningContainer host bindingId asset
    (settings ++ configuredFlag runtimeOverride ++
      [("sidecar_containers", .list (sidecars.map .str))])
    managed attackerKey answers.networkIp warmStandby

def dockerStartAsset (bindingId : String) (asset : AssetDefinition) (attackerKey : Option String)
    (warmStandby : Bool) (runtimeOverride : Option Settings) : Orchestrate AssetRuntimeRecord := do
  let w ← get
  match existingRunningRecord w bindingId asset.assetId, runtimeOverride with
  | some existing, none => attachGatewayRouteForExistingRecord host existing asset attackerKey
  | existing, runtimeOverride =>
    launchContainer host bindingId asset attackerKey warmStandby existing runtimeOverride

/-! ### The compose runtime -/

def composeSupports : AssetDefinition → Bool := supports "compose"

/-- The settings of a project on its own. -/
def projectSettings (runtime : Settings) (composeFile composeProject internalNetwork : String)
    (containerIds : List String) (statuses : Dict String String) : Settings :=
  [("runtime_backend", .str "compose"), ("compose_file", .str composeFile),
    ("compose_project", .str composeProject), ("container_ids", .list (containerIds.map .str)),
    ("container_names", .list (statuses.map fun entry => .str entry.1)),
    ("container_statuses", .dict (statuses.map fun entry => (entry.1, .str entry.2))),
    ("internal_network", .str internalNetwork), ("source", runtime.getD "source" (.str ""))]

/-- The settings of the container that the gateway reaches. -/
def targetSettings (target : String) : List Settings → Settings
  | [] => []
  | first :: ports =>
    [("asset_gateway_managed", .bool true), ("target_container", .str target),
      ("backend_host", .str target), ("backend_port", first.get "container_port"),
      ("public_port", first.get "host_port"), ("port_mappings", .list ((first :: ports).map .dict))]

/-- Every container of a project is up. -/
def allUp (statuses : Dict String String) : Bool :=
  !statuses.isEmpty && statuses.all fun entry => isUp entry.2

/-- Start a compose project. -/
def launchProject (bindingId : String) (asset : AssetDefinition) (attackerKey : Option String)
    (warmStandby : Bool) : Orchestrate AssetRuntimeRecord := do
  let w ← get
  let answers := host.compose w asset
  raiseIf (!answers.cli) ⟨.runtimeError, "docker CLI is not available on this host"⟩
  raiseIf (!composeSupports asset)
    ⟨.runtimeError, "asset " ++ asset.assetId ++ " is not supported by ComposeTemplateRuntime"⟩
  let runtime ← answer (host.dict (assetRuntime asset))
  let composeFile ← answer answers.composeFile
  let composeProject ← answer answers.projectName
  raise? answers.up
  let containerIds ← answer answers.containerIds
  let internalNetwork ← answer answers.internalNetwork
  raise? (if containerIds ≠ [] ∧ internalNetwork ≠ "" then answers.connect else none)
  let statuses ← answer answers.statuses
  raise? (if allUp statuses then none
    else answers.down.or (some ⟨.runtimeError,
      "compose project " ++ composeProject ++ " failed startup verification"⟩))
  let target ← answer answers.targetContainer
  let ports ← answer (if target = "" then .ok []
    else resolvePortMappings host w runtime asset.assetId true target)
  let backendIp ← answer (if ports.isEmpty then .ok none else answers.networkIp)
  recordStarted host bindingId asset
    (projectSettings runtime composeFile composeProject internalNetwork containerIds statuses ++
      targetSettings target ports ++ backendIpSetting backendIp)
    (!ports.isEmpty) attackerKey warmStandby

def composeStartAsset (bindingId : String) (asset : AssetDefinition) (attackerKey : Option String)
    (warmStandby : Bool) : Orchestrate AssetRuntimeRecord := do
  let w ← get
  match existingRunningRecord w bindingId asset.assetId with
  | some existing => attachGatewayRouteForExistingRecord host existing asset attackerKey
  | none => launchProject host bindingId asset attackerKey warmStandby

/-! ### The hybrid runtime -/

/-- The record of a start that raised. -/
def failedStart (backend bindingId : String) (asset : AssetDefinition) (warmStandby : Bool)
    (e : PyError) : Orchestrate AssetRuntimeRecord := do
  let w ← get
  upsertRuntime (runtimeRecordFromAsset host w bindingId asset .failed
    (Dict.update asset.defaultSettings [("runtime_backend", .str backend),
      ("runtime_failure", .str e.message), ("warm_standby_hidden", .bool warmStandby)]))

/-- Start an asset with the runtime that supports it. -/
def startAsset (bindingId : String) (asset : AssetDefinition) (attackerKey : Option String)
    (warmStandby : Bool) (runtimeOverride : Option Settings) : Orchestrate AssetRuntimeRecord :=
  if runtimeOverride.isNone && composeSupports asset then
    tryCatch (composeStartAsset host bindingId asset attackerKey warmStandby)
      (failedStart host "compose" bindingId asset warmStandby)
  else if runtimeOverride.isSome || dockerSupports asset then
    tryCatch (dockerStartAsset host bindingId asset attackerKey warmStandby runtimeOverride)
      (failedStart host "docker" bindingId asset warmStandby)
  else mockStartAsset host bindingId asset warmStandby runtimeOverride

/-- Start a backend that no attacker sees. -/
def prewarmAsset (bindingId : String) (asset : AssetDefinition) :
    Orchestrate AssetRuntimeRecord :=
  startAsset host bindingId asset none true none

/-! ### Stopping a binding -/

def backendOf (record : AssetRuntimeRecord) : String :=
  host.str (record.settings.getD "runtime_backend" (.str "mock"))

/-- Stop the running records that belong to a runtime, one after the other. -/
def stopEach (mine : AssetRuntimeRecord → Bool)
    (stop : AssetRuntimeRecord → Orchestrate AssetRuntimeRecord) :
    List AssetRuntimeRecord → Orchestrate (List AssetRuntimeRecord)
  | [] => return []
  | record :: records => do
    if record.status == .running && mine record then
      let stopped ← stop record
      let rest ← stopEach mine stop records
      return stopped :: rest
    else stopEach mine stop records

def composeStop (record : AssetRuntimeRecord) : Orchestrate AssetRuntimeRecord := do
  let w ← get
  let composeFile := Text.strip (host.str (record.settings.getD "compose_file" (.str ""))).toList
  let composeProject := host.str (record.settings.getD "compose_project" (.str ""))
  raise? (if composeFile ≠ [] ∧ composeProject ≠ "" then host.composeDown w record else none)
  upsertRuntime record.stop

def composeStopBindingAssets (bindingId : String) : Orchestrate (List AssetRuntimeRecord) := do
  let w ← get
  stopEach (fun record => backendOf host record == "compose") (composeStop host)
    (w.listByBinding bindingId)

def dockerStopBindingAssets (bindingId : String) : Orchestrate (List AssetRuntimeRecord) := do
  let w ← get
  stopEach (fun _ => true) (stopRuntimeRecord host) (w.listByBinding bindingId)

def mockStopBindingAssets (bindingId : String) : Orchestrate (List AssetRuntimeRecord) := do
  let w ← get
  stopEach (fun _ => true) (fun record => upsertRuntime record.stop) (w.listByBinding bindingId)

/-- Compose records, then what is left, each stopped once. -/
def stopBindingAssets (bindingId : String) : Orchestrate (List AssetRuntimeRecord) := do
  let compose ← composeStopBindingAssets host bindingId
  let docker ← dockerStopBindingAssets host bindingId
  let mock ← mockStopBindingAssets bindingId
  return (dictBy AssetRuntimeRecord.runtimeId (compose ++ docker ++ mock)).map Prod.snd

/-! ### Configurations -/

/-- The settings with a configuration active, and with its artifact if one was written. -/
def configuredSettings (settings : Settings) (configurationId : String)
    (configuration artifact : Settings) : Settings :=
  let active := (settings.getD "active_configurations" (.dict [])).dict?.getD []
  let existing := (settings.getD "configuration_artifacts" (.dict [])).dict?.getD []
  let artifacts : Settings :=
    if artifact.isEmpty then existing else Dict.set existing configurationId (.dict artifact)
  let updated := Dict.set settings "active_configurations"
    (.dict (Dict.set active configurationId (.dict configuration)))
  if artifacts.isEmpty then updated
  else Dict.set updated "configuration_artifacts" (.dict artifacts)

/-- Attach a configuration to the running record of an asset. -/
def applyConfiguration (bindingId assetId configurationId : String) (configuration : Settings) :
    Orchestrate (Option AssetRuntimeRecord) := do
  let w ← get
  match existingRunningRecord w bindingId assetId with
  | none => return none
  | some record =>
    let artifact ← answer (host.artifact w record configurationId configuration)
    let updated ← upsertRuntime { record with
      settings := configuredSettings record.settings configurationId configuration artifact }
    return some updated

/-! ### What a binding reaches -/

def runtimeRecordIsAccessible (w : World) (record : AssetRuntimeRecord) : Bool :=
  !record.hidden && record.status == .running &&
    if backendOf host record != "docker" then true
    else match (record.settings.get "container_name").str? with
      | some name => name != "" && isUp (host.containerStatus w name)
      | none => false

def runtimeRecordIsFailed (w : World) (record : AssetRuntimeRecord) : Bool :=
  !record.hidden && (record.status == .failed || record.status == .running &&
    backendOf host record == "docker" &&
      match (record.settings.get "container_name").str? with
      | some name => name == "" ||
          (host.containerStatus w name != "" && !isUp (host.containerStatus w name))
      | none => true)

def composeRecordIsAccessible (w : World) (record : AssetRuntimeRecord) : Bool :=
  !record.hidden && record.status == .running && backendOf host record == "compose" &&
    match (record.settings.get "compose_project").str? with
    | some project => project != "" && allUp (host.projectStatuses w project)
    | none => false

def composeRecordIsFailed (w : World) (record : AssetRuntimeRecord) : Bool :=
  !record.hidden && backendOf host record == "compose" &&
    (record.status == .failed || record.status == .running &&
      match (record.settings.get "compose_project").str? with
      | some project => project == "" || !allUp (host.projectStatuses w project)
      | none => true)

def mockRecordIsAccessible (record : AssetRuntimeRecord) : Bool :=
  record.status == .running && !record.hidden && backendOf host record != "docker"

/-- The assets of the records of a binding that one of the runtimes counts. -/
def unionOf (counts : List (AssetRuntimeRecord → Bool)) (records : List AssetRuntimeRecord) :
    List String :=
  appendNew [] (counts.flatMap fun count => (records.filter count).map AssetRuntimeRecord.assetId)

def listAccessibleAssetIds (w : World) (bindingId : String) : List String :=
  unionOf [composeRecordIsAccessible host w, runtimeRecordIsAccessible host w,
    mockRecordIsAccessible host] (w.listByBinding bindingId)

def listFailedAssetIds (w : World) (bindingId : String) : List String :=
  unionOf [composeRecordIsFailed host w, runtimeRecordIsFailed host w,
    fun record => !record.hidden && runtimeRecordIsFailed host w record]
    (w.listByBinding bindingId)

end Starts

end Honeynet.Orchestrator
