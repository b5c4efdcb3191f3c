import Honeynet.Lib.Fallible
import Honeynet.Orchestrator.World

/-!
# Ports and routes of started assets

* `resolvePortMappings`: the ports of a runtime, published on this machine or managed by the
  asset gateway.
* `upsertAssetGatewayRoutes`: the routes of a started asset, by binding, asset and public port.
* `selectRoute`: the route the data plane takes for a client and a port.
-/

namespace Honeynet.Orchestrator

open Collections

section Ports

variable (host : Host)

/-- The port override of an asset. -/
def assetPortOverride (assetId : String) : Option Int :=
  if assetId = "" then none else host.portOverride assetId

/-- The port an attacker sees for a route of the asset gateway. -/
def resolvePublicPort (requested : Value) (containerPort : Int) (assetId : String) : Int :=
  match assetPortOverride host assetId with
  | some port => port
  | none => requested.int?.getD containerPort

def resolveHostBind (value : Value) : String := host.hostBind.getD (host.str value)

/-- One mapping of a runtime, as a record. -/
def portRecord (w : World) (assetId : String) (managed : Bool) (backendHost : String)
    (item : Value) : Except PyError (Option Settings) :=
  match item with
  | .dict mapping => do
    let containerPort ← host.int (Settings.getD mapping "container_port" (.int 80))
    let requested := Settings.get mapping "requested_host_port"
    let hostPort :=
      if managed then resolvePublicPort host requested containerPort assetId
      else host.freePort w requested assetId
    let published : Settings :=
      [("host", .str (resolveHostBind host (Settings.getD mapping "host" (.str "127.0.0.1")))),
        ("host_port", .int hostPort), ("container_port", .int containerPort)]
    let backend : Settings :=
      if managed then [("backend_host", .str backendHost), ("backend_port", .int containerPort)]
      else []
    return some (published ++ backend)
  | _ => return none

/-- The port records of a runtime, from its list of mappings or from its two port fields. -/
def resolvePortMappings (w : World) (runtime : Settings) (assetId : String) (managed : Bool)
    (backendHost : String) : Except PyError (List Settings) :=
  let mappings : List Value :=
    match runtime.get "port_mappings" with
    | .list mappings => mappings
    | _ => [.dict [("host", .str "127.0.0.1"),
        ("requested_host_port", runtime.get "requested_host_port"),
        ("container_port", runtime.getD "container_port" (.int 80))]]
  Fallible.collect (portRecord host w assetId managed backendHost) mappings

/-- An internal asset with ports goes through the asset gateway. -/
def assetGatewayManaged (asset : AssetDefinition) (runtime : Settings) : Bool :=
  host.gatewayEnabled && asset.exposureType == .internal &&
    match runtime.get "port_mappings" with
    | .list mappings => !mappings.isEmpty
    | _ => (List.lookup "requested_host_port" runtime).isSome ||
        (List.lookup "container_port" runtime).isSome

end Ports

/-! ### The routes of an asset -/

/-- One port record as a route, if it names a backend. -/
def gatewayRoute (host : Host) (w : World) (bindingId attackerKey : String)
    (asset : AssetDefinition) (settings : Settings) (item : Value) : Option GatewayRoute := do
  let route ← item.dict?
  let publicPort ← (Settings.get route "host_port").int?
  let backendPort ← (Settings.getD route "backend_port" (Settings.get route "container_port")).int?
  let backendHost ← (Settings.get route "backend_host").str?.filter (· ≠ "")
  return {
    attackerKey
    bindingId
    assetId := asset.assetId
    assetName := asset.assetName
    protocol := asset.protocols.head?.getD "tcp"
    publicPort
    backendHost
    backendPort
    backendIp := (settings.get "backend_ip").str?.getD ""
    updatedAt := host.isoNow w }

def gatewayRoutes (host : Host) (w : World) (bindingId attackerKey : String)
    (asset : AssetDefinition) (settings : Settings) : List GatewayRoute :=
  match settings.getD "port_mappings" (.list []) with
  | .list routes => routes.filterMap (gatewayRoute host w bindingId attackerKey asset settings)
  | _ => []

/-- The routes are read from the ports and the address of the settings. -/
theorem gatewayRoutes_congr {host : Host} {w : World} {bindingId : String} (attackerKey : String)
    (asset : AssetDefinition) {settings settings' : Settings}
    (hports : settings.lookup "port_mappings" = settings'.lookup "port_mappings")
    (hip : settings.lookup "backend_ip" = settings'.lookup "backend_ip") :
    gatewayRoutes host w bindingId attackerKey asset settings =
      gatewayRoutes host w bindingId attackerKey asset settings' := by
  have hroute : gatewayRoute host w bindingId attackerKey asset settings =
      gatewayRoute host w bindingId attackerKey asset settings' := by
    funext item
    simp only [gatewayRoute, Settings.get, hip]
  rw [gatewayRoutes, gatewayRoutes, Settings.getD, Settings.getD, hports, hroute]

/-- Persist the routes of an asset: a route to the same port is replaced. -/
def upsertAssetGatewayRoutes (host : Host) (bindingId attackerKey : String)
    (asset : AssetDefinition) (settings : Settings) : Orchestrate PUnit := do
  let w ← get
  let new := gatewayRoutes host w bindingId attackerKey asset settings
  if new = [] then return ⟨⟩
  modify fun w => w.replaceRoutes new

/-- The routes are of this binding and asset, and of the attacker there is. -/
def RoutesOf (attacker : Option String) (bindingId assetId : String)
    (routes : List GatewayRoute) : Prop :=
  ∀ route ∈ routes, attacker = some route.attackerKey ∧ route.bindingId = bindingId ∧
    route.assetId = assetId

theorem routesOf_nil (attacker : Option String) (bindingId assetId : String) :
    RoutesOf attacker bindingId assetId [] := fun _ h => absurd h List.not_mem_nil

/-- The routes of an asset are of its attacker, its binding and the time they are written. -/
theorem mem_gatewayRoutes {host : Host} {w : World} {bindingId attackerKey : String}
    {asset : AssetDefinition} {settings : Settings} {route : GatewayRoute}
    (h : route ∈ gatewayRoutes host w bindingId attackerKey asset settings) :
    route.attackerKey = attackerKey ∧ route.bindingId = bindingId ∧
      route.assetId = asset.assetId ∧ route.updatedAt = host.isoNow w := by
  rw [gatewayRoutes] at h
  split at h
  · obtain ⟨item, _, hitem⟩ := List.mem_filterMap.mp h
    simp only [gatewayRoute, Option.bind_eq_bind, Option.bind_eq_some_iff] at hitem
    obtain ⟨_, _, _, _, _, _, _, _, heq⟩ := hitem
    obtain rfl := Option.some.inj heq
    exact ⟨rfl, rfl, rfl, rfl⟩
  · exact absurd h List.not_mem_nil

theorem routesOf_gatewayRoutes (host : Host) (w : World) (bindingId attackerKey : String)
    (asset : AssetDefinition) (settings : Settings) :
    RoutesOf (some attackerKey) bindingId asset.assetId
      (gatewayRoutes host w bindingId attackerKey asset settings) := by
  intro route hroute
  obtain ⟨hattacker, hbinding, hasset, -⟩ := mem_gatewayRoutes hroute
  exact ⟨congrArg some hattacker.symm, hbinding, hasset⟩

/-- The routes of an asset are all that is written. -/
theorem upsertAssetGatewayRoutes_spec (host : Host) (bindingId attackerKey : String)
    (asset : AssetDefinition) (settings : Settings) (s : World) {E : World → Prop} :
    Effect.Triple (· = s) (upsertAssetGatewayRoutes host bindingId attackerKey asset settings)
      (fun _ t => ∃ new, RoutesOf (some attackerKey) bindingId asset.assetId new ∧
        t = s.replaceRoutes new) E := by
  refine Effect.Triple.get_bind ?_
  rintro _ rfl
  refine Effect.Triple.ite ?_ ?_
  · intro _
    refine Effect.Triple.pure ?_
    rintro _ rfl
    exact ⟨[], routesOf_nil _ _ _, (replaceRoutes_nil _).symm⟩
  · intro _
    refine Effect.Triple.modify ?_
    rintro _ rfl
    exact ⟨_, routesOf_gatewayRoutes host _ bindingId attackerKey asset settings, rfl⟩

/-! ### The data plane -/

/-- The route of a client on a port: its own route that was updated last, or, with the fallback,
the only route of the port. -/
def selectRoute (routes : List GatewayRoute) (clientIp : String) (publicPort : Int)
    (allowSingleRouteFallback : Bool) : Option GatewayRoute :=
  let portRoutes := routes.filter fun route => route.publicPort == publicPort
  let exactRoutes := portRoutes.filter fun route => route.attackerKey == clientIp
  if exactRoutes ≠ [] then
    (exactRoutes.mergeSort fun a b => decide (a.updatedAt ≤ b.updatedAt)).getLast?
  else if allowSingleRouteFallback && portRoutes.length == 1 then portRoutes.head?
  else none

/-- A selected route is stored, and without the fallback it is one of the client. -/
theorem mem_of_selectRoute {routes : List GatewayRoute} {clientIp : String} {publicPort : Int}
    {route : GatewayRoute} (h : selectRoute routes clientIp publicPort false = some route) :
    route ∈ routes ∧ route.attackerKey = clientIp ∧ route.publicPort = publicPort := by
  rw [selectRoute] at h
  split at h
  · have hmem := List.mem_of_getLast? h
    rw [List.mem_mergeSort, List.mem_filter, List.mem_filter, beq_iff_eq, beq_iff_eq] at hmem
    exact ⟨hmem.1.1, hmem.2, hmem.1.2⟩
  · exact absurd h (by simp)

end Honeynet.Orchestrator
