import Honeynet.Lib.Keyed
import Honeynet.Orchestrator.Launches

/-!
# The keys of the route table

A route is stored under its binding, its asset and its public port.  A write takes out the routes
with the keys of the new ones and appends these, whether or not two of them have one key.

* `ManagedStart`: a start of an asset behind the asset gateway.
* `PortsApart`: its mappings get public ports of their own.
* `ManagedStart.publicPorts_routes`: the ports of the routes are the asked ones, or all the override.
* `keysApart_runStarts_iff`: the table has each key once throughout a run iff every start of it
  is apart.
* `exists_managedStart`: the launches of the runtimes are such starts.
-/

namespace Honeynet.Orchestrator

open Collections

/-! ### Writes by keys -/

/-- What a route is stored under. -/
def GatewayRoute.key (route : GatewayRoute) : String × String × Int :=
  (route.bindingId, route.assetId, route.publicPort)

/-- No two routes have one key. -/
def KeysApart (routes : List GatewayRoute) : Prop := (routes.map GatewayRoute.key).Nodup

theorem routes_replaceRoutes (w : World) (new : List GatewayRoute) :
    (w.replaceRoutes new).routes = replaceBy (some ∘ GatewayRoute.key) new w.routes := by
  show w.routes.filter _ ++ new = w.routes.filter _ ++ new
  refine congrArg (· ++ new) (List.filter_congr fun route _ => ?_)
  rw [Bool.eq_iff_iff]
  simp [GatewayRoute.key]

theorem keysApart_replaceRoutes {w : World} {new : List GatewayRoute} (h : KeysApart w.routes)
    (hnew : KeysApart new) : KeysApart (w.replaceRoutes new).routes := by
  have hkeys : ∀ routes : List GatewayRoute,
      routes.filterMap (some ∘ GatewayRoute.key) = routes.map GatewayRoute.key := fun routes => by
    rw [List.filterMap_eq_map]
  have hnodup : (new.filterMap (some ∘ GatewayRoute.key)).Nodup := by
    rw [hkeys]
    exact hnew
  have hwritten := written_replaceBy hnodup w.routes
  unfold KeysApart
  rw [routes_replaceRoutes, ← hkeys]
  exact hwritten.unique (by rw [hkeys]; exact h)

/-- New routes with one key stay in the table. -/
theorem keysApart_of_replaceRoutes {w : World} {new : List GatewayRoute}
    (h : KeysApart (w.replaceRoutes new).routes) : KeysApart new := by
  unfold KeysApart World.replaceRoutes at h
  rw [List.map_append] at h
  exact (List.nodup_append.mp h).2.1

/-- Routes of one asset have different keys iff they have different ports. -/
theorem keysApart_gatewayRoutes {host : Host} {w : World} {bindingId attackerKey : String}
    {asset : AssetDefinition} {settings : Settings} :
    KeysApart (gatewayRoutes host w bindingId attackerKey asset settings) ↔
      ((gatewayRoutes host w bindingId attackerKey asset settings).map
        GatewayRoute.publicPort).Nodup := by
  have hkeys : (gatewayRoutes host w bindingId attackerKey asset settings).map GatewayRoute.key =
      ((gatewayRoutes host w bindingId attackerKey asset settings).map
        GatewayRoute.publicPort).map fun port => (bindingId, asset.assetId, port) := by
    rw [List.map_map]
    refine List.map_congr_left fun route hroute => ?_
    obtain ⟨-, hbinding, hasset, -⟩ := mem_gatewayRoutes hroute
    rw [GatewayRoute.key, hbinding, hasset]
    rfl
  rw [KeysApart, hkeys]
  exact List.nodup_map_iff fun a b hab => (Prod.mk.inj (Prod.mk.inj hab).2).2

/-! ### The ports of a start -/

/-- The mappings of a runtime, from its list or from its two port fields. -/
def portMappings (runtime : Settings) : List Value :=
  match runtime.get "port_mappings" with
  | .list mappings => mappings
  | _ => [.dict [("host", .str "127.0.0.1"),
      ("requested_host_port", runtime.get "requested_host_port"),
      ("container_port", runtime.getD "container_port" (.int 80))]]

/-- The port of a mapping inside the container. -/
def containerPort (host : Host) (mapping : Settings) : Except PyError Int :=
  host.int (mapping.getD "container_port" (.int 80))

/-- The public port a mapping asks for: the requested one, or that of the container. -/
def askedPort (host : Host) : Value → Option Int
  | .dict mapping => (Settings.get mapping "requested_host_port").int?.orElse fun _ =>
      (containerPort host mapping).toOption
  | _ => none

/-- An asset is started behind the asset gateway: the backend, which has a name, and what its
ports were resolved with, now or when the backend was launched. -/
structure ManagedStart where
  host : Host
  launchedOn : Host
  bindingId : String
  attackerKey : String
  asset : AssetDefinition
  runtime : Settings
  backendHost : String
  backendHost_ne : backendHost ≠ ""
  backendIp : Option String

namespace ManagedStart

variable (start : ManagedStart)

/-- The ports of the backend. -/
def ports (w : World) : Except PyError (List Settings) :=
  resolvePortMappings start.launchedOn w start.runtime start.asset.assetId true start.backendHost

/-- The settings of the backend that tell of its routes. -/
def settings (ports : List Settings) : Settings :=
  portSettings true start.backendHost ports ++ backendIpSetting start.backendIp

/-- The routes that are written. -/
def routes (w : World) (ports : List Settings) : List GatewayRoute :=
  gatewayRoutes start.host w start.bindingId start.attackerKey start.asset (start.settings ports)

def run : Orchestrate PUnit := do
  let w ← get
  let ports ← answer (start.ports w)
  upsertAssetGatewayRoutes start.host start.bindingId start.attackerKey start.asset
    (start.settings ports)

/-- The ports the mappings ask for, in their order. -/
def asked : List Int := (portMappings start.runtime).filterMap (askedPort start.launchedOn)

/-- The container ports of all mappings are numbers. -/
def Resolves : Prop :=
  ∀ mapping, Value.dict mapping ∈ portMappings start.runtime →
    ∃ port, containerPort start.launchedOn mapping = .ok port

/-- **The mappings get public ports of their own**: without an override they ask for different
ports, and an override is for one mapping. -/
def PortsApart : Prop :=
  match assetPortOverride start.launchedOn start.asset.assetId with
  | none => start.asked.Nodup
  | some _ => start.asked.length ≤ 1

end ManagedStart

/-- Starts one after the other. -/
def runStarts (starts : List ManagedStart) (w : World) : World :=
  starts.foldl (fun w start => (Effect.exec start.run w).2) w

section Ports

variable {host host' : Host} {w w' : World} {bindingId attackerKey backendHost : String}
  {asset : AssetDefinition} {settings : Settings}

/-- A mapping that is no object has no record, and asks for nothing. -/
theorem askedPort_of_none {assetId : String} {item : Value}
    (h : portRecord host w assetId true backendHost item = .ok none) :
    askedPort host item = none := by
  cases item with
  | dict mapping =>
    simp only [portRecord] at h
    obtain ⟨port, -, hrecord⟩ := Fallible.bind_eq_ok.mp h
    cases hrecord
  | _ => rfl

/-- The route of a record is on the asked port, or on the port of the override. -/
theorem publicPort_gatewayRoute {assetId : String} {item : Value} {record : Settings}
    (hbackend : backendHost ≠ "")
    (h : portRecord host w assetId true backendHost item = .ok (some record)) :
    ∃ port, askedPort host item = some port ∧
      (gatewayRoute host' w' bindingId attackerKey asset settings (.dict record)).map
        GatewayRoute.publicPort = some ((assetPortOverride host assetId).getD port) := by
  cases item with
  | dict mapping =>
    simp only [portRecord] at h
    obtain ⟨container, hcontainer, hrecord⟩ := Fallible.bind_eq_ok.mp h
    have hmade := Option.some.inj (Except.ok.inj hrecord)
    have hasked : askedPort host (.dict mapping) =
        some ((Settings.get mapping "requested_host_port").int?.getD container) := by
      rw [askedPort, containerPort, hcontainer]
      cases (Settings.get mapping "requested_host_port").int? <;> rfl
    refine ⟨_, hasked, ?_⟩
    have hport : resolvePublicPort host (Settings.get mapping "requested_host_port") container
        assetId = (assetPortOverride host assetId).getD
          ((Settings.get mapping "requested_host_port").int?.getD container) := by
      unfold resolvePublicPort
      cases assetPortOverride host assetId <;> rfl
    have hname : Option.filter (fun x => !decide (x = "")) (some backendHost) =
        some backendHost := by
      simp [Option.filter_some, hbackend]
    rw [← hport, ← hmade]
    simp [gatewayRoute, Settings.get, Settings.getD, lookup_cons_eq, Value.dict?, Value.int?,
      Value.str?, hname]
  | _ => cases h

/-- **The ports of the routes** are the asked ones, or all the override. -/
theorem publicPorts_records {assetId : String} {mappings : List Value} {ports : List Settings}
    (hbackend : backendHost ≠ "")
    (h : Fallible.collect (portRecord host w assetId true backendHost) mappings = .ok ports) :
    ((ports.map Value.dict).filterMap
        (gatewayRoute host' w' bindingId attackerKey asset settings)).map
      GatewayRoute.publicPort =
        (mappings.filterMap (askedPort host)).map fun port =>
          (assetPortOverride host assetId).getD port := by
  induction mappings generalizing ports with
  | nil =>
    obtain rfl := Except.ok.inj h
    rfl
  | cons item mappings ih =>
    obtain ⟨record, rest, hrecord, hrest, rfl⟩ := Fallible.collect_cons_eq_ok.mp h
    cases record with
    | none =>
      rw [List.filterMap_cons_none (askedPort_of_none hrecord)]
      exact ih hrest
    | some record =>
      obtain ⟨port, hasked, hroute⟩ := @publicPort_gatewayRoute host host' w w' bindingId
        attackerKey backendHost asset settings assetId item record hbackend hrecord
      obtain ⟨route, hsome, hpublic⟩ := Option.map_eq_some_iff.mp hroute
      rw [List.filterMap_cons_some hasked, List.map_cons, ← ih hrest, Option.toList_some,
        List.singleton_append, List.map_cons, List.filterMap_cons_some hsome, List.map_cons,
        hpublic]

end Ports

/-! ### One start -/

namespace ManagedStart

variable {start : ManagedStart} {w w' : World} {ports : List Settings}

theorem portMappings_settings (start : ManagedStart) (ports : List Settings) :
    (start.settings ports).getD "port_mappings" (.list []) = .list (ports.map .dict) := by
  unfold settings
  cases start.backendIp <;> cases ports <;>
    simp [portSettings, backendIpSetting, Settings.getD, lookup_cons_eq]

theorem publicPorts_routes (h : start.ports w = .ok ports) :
    (start.routes w' ports).map GatewayRoute.publicPort = start.asked.map fun port =>
      (assetPortOverride start.launchedOn start.asset.assetId).getD port := by
  rw [routes, gatewayRoutes, portMappings_settings]
  exact publicPorts_records start.backendHost_ne h

/-- **The routes of a start have keys of their own** iff its mappings get ports of their own. -/
theorem keysApart_routes_iff (h : start.ports w = .ok ports) :
    KeysApart (start.routes w' ports) ↔ start.PortsApart := by
  unfold routes
  rw [keysApart_gatewayRoutes]
  show ((start.routes w' ports).map GatewayRoute.publicPort).Nodup ↔ _
  rw [publicPorts_routes h, PortsApart]
  cases assetPortOverride start.launchedOn start.asset.assetId with
  | none =>
    have hsame : (fun port : Int => (none : Option Int).getD port) = id := rfl
    rw [hsame, List.map_id]
  | some port =>
    have hsame : (start.asked.map fun asked => (some port).getD asked) =
        List.replicate start.asked.length port := List.map_const'
    rw [hsame, List.nodup_replicate]

/-- The ports are resolved iff all container ports are numbers. -/
theorem ports_ok_iff : (∃ ports, start.ports w = .ok ports) ↔ start.Resolves := by
  have hitem : ∀ item, (∃ record, portRecord start.launchedOn w start.asset.assetId true
      start.backendHost item = .ok record) ↔ ∀ mapping, item = .dict mapping →
        ∃ port, containerPort start.launchedOn mapping = .ok port := by
    intro item
    cases item with
    | dict mapping =>
      constructor
      · intro ⟨record, hrecord⟩ _ heq
        obtain rfl := Value.dict.inj heq
        simp only [portRecord] at hrecord
        obtain ⟨port, hport, -⟩ := Fallible.bind_eq_ok.mp hrecord
        exact ⟨port, hport⟩
      · intro hport
        obtain ⟨port, hport⟩ := hport mapping rfl
        exact ⟨_, Fallible.bind_eq_ok.mpr ⟨port, hport, rfl⟩⟩
    | _ => exact ⟨fun _ mapping h => absurd h (by simp), fun _ => ⟨none, rfl⟩⟩
  have hcollect : (∃ ports, start.ports w = .ok ports) ↔ ∀ item ∈ portMappings start.runtime,
      ∃ record, portRecord start.launchedOn w start.asset.assetId true start.backendHost item =
        .ok record := Fallible.collect_ok_iff
  rw [hcollect]
  constructor
  · intro h mapping hmapping
    exact (hitem _).mp (h _ hmapping) mapping rfl
  · intro h item hmem
    refine (hitem item).mpr ?_
    rintro mapping rfl
    exact h mapping hmem

/-- A start writes its routes. -/
theorem exec_run_ok (h : start.ports w = .ok ports) :
    (Effect.exec start.run w).2 = w.replaceRoutes (start.routes w ports) := by
  rw [run, Effect.exec_bind, Effect.exec_get]
  simp only [h, Effect.exec_bind, exec_answer_ok]
  rw [exec_upsertAssetGatewayRoutes]
  rfl

/-- A start that raises writes nothing. -/
theorem exec_run_error (h : ¬ start.Resolves) : (Effect.exec start.run w).2 = w := by
  rw [← ports_ok_iff (w := w)] at h
  rw [run, Effect.exec_bind, Effect.exec_get]
  cases hports : start.ports w with
  | ok ports => exact absurd ⟨ports, hports⟩ h
  | error e =>
    simp only [Effect.exec_bind, hports]
    rfl

/-- **A start keeps the keys apart** iff it raises or its ports are apart. -/
theorem keysApart_run_iff (hw : KeysApart w.routes) :
    KeysApart (Effect.exec start.run w).2.routes ↔ (start.Resolves → start.PortsApart) := by
  by_cases hresolves : start.Resolves
  · obtain ⟨ports, hports⟩ := (ports_ok_iff (w := w)).mpr hresolves
    rw [exec_run_ok hports]
    constructor
    · intro h _
      exact (keysApart_routes_iff hports).mp (keysApart_of_replaceRoutes h)
    · intro h
      exact keysApart_replaceRoutes hw ((keysApart_routes_iff hports).mpr (h hresolves))
  · rw [exec_run_error hresolves]
    exact ⟨fun _ h => absurd h hresolves, fun _ => hw⟩

end ManagedStart

/-! ### Runs -/

/-- **The table has each key once throughout a run** iff every start of it that returns gives its
mappings ports of their own. -/
theorem keysApart_runStarts_iff {starts : List ManagedStart} {w : World}
    (hw : KeysApart w.routes) :
    (∀ earlier later, starts = earlier ++ later → KeysApart (runStarts earlier w).routes) ↔
      ∀ start ∈ starts, start.Resolves → start.PortsApart := by
  induction starts generalizing w with
  | nil =>
    refine ⟨fun _ start h => absurd h List.not_mem_nil, fun _ earlier later h => ?_⟩
    rw [(List.append_eq_nil_iff.mp h.symm).1]
    exact hw
  | cons start starts ih =>
    rw [List.forall_mem_cons]
    constructor
    · intro h
      have hfirst : KeysApart (Effect.exec start.run w).2.routes := h [start] starts rfl
      refine ⟨(ManagedStart.keysApart_run_iff hw).mp hfirst, (ih hfirst).mp ?_⟩
      intro earlier later heq
      exact h (start :: earlier) later (by rw [heq, List.cons_append])
    · rintro ⟨hstart, hrest⟩ earlier later heq
      cases earlier with
      | nil => exact hw
      | cons first earlier =>
        obtain ⟨rfl, hstarts⟩ := List.cons.inj heq
        have hfirst := (ManagedStart.keysApart_run_iff hw).mpr hstart
        exact (ih hfirst).mpr hrest earlier later hstarts

/-! ### The starts of the runtimes -/

section Launched

variable {host : Host} {w : World} {bindingId : String} {asset : AssetDefinition}
  {launch : Launch}

/-- The flag of a warm standby is the only setting it adds. -/
theorem lookup_append_standbyFlag (d : Settings) (warmStandby : Bool) {key : String}
    (hkey : key ≠ "warm_standby_hidden") :
    (d ++ standbyFlag warmStandby).lookup key = d.lookup key := by
  have hflag : (standbyFlag warmStandby).lookup key = none := by
    cases warmStandby with
    | true => simp [standbyFlag, lookup_cons_eq, hkey]
    | false => rfl
  rw [List.lookup_append, hflag, Option.or_none]

/-- A project is recorded with the ports and the address of a start. -/
theorem lookup_settings_project (runtime : Settings)
    (composeFile composeProject internalNetwork target : String) (containerIds : List String)
    (statuses : Dict String String) (ports : List Settings) (ip : Option String) {key : String}
    (hkey : key = "port_mappings" ∨ key = "backend_ip") :
    (projectSettings runtime composeFile composeProject internalNetwork containerIds statuses ++
        targetSettings target ports ++ backendIpSetting ip).lookup key =
      (portSettings true target ports ++ backendIpSetting ip).lookup key := by
  have hproject : (projectSettings runtime composeFile composeProject internalNetwork containerIds
      statuses).lookup key = none := by
    rcases hkey with rfl | rfl <;> simp [projectSettings, lookup_cons_eq]
  have htarget : (targetSettings target ports).lookup key =
      (portSettings true target ports).lookup key := by
    cases ports with
    | nil => rfl
    | cons first ports =>
      rcases hkey with rfl | rfl <;> simp [targetSettings, portSettings, lookup_cons_eq]
  rw [List.lookup_append, List.lookup_append, hproject, Option.none_or, htarget,
    ← List.lookup_append]

/-- A container is recorded with the ports and the address of a start. -/
theorem lookup_settings_container (name image : String) (ports : List Settings)
    (sidecars : Value) (ip : Option String) {key : String}
    (hkey : key = "port_mappings" ∨ key = "backend_ip") :
    (([("runtime_backend", .str "docker"), ("container_name", .str name),
        ("image", .str image)] ++ portSettings true name ports) ++ configuredFlag none ++
          [("sidecar_containers", sidecars)] ++ backendIpSetting ip : Settings).lookup key =
      (portSettings true name ports ++ backendIpSetting ip).lookup key := by
  have hfirst : ([("runtime_backend", .str "docker"), ("container_name", .str name),
      ("image", .str image)] : Settings).lookup key = none := by
    rcases hkey with rfl | rfl <;> simp [lookup_cons_eq]
  have hflag : (configuredFlag none).lookup key = none := rfl
  have hsidecars : ([("sidecar_containers", sidecars)] : Settings).lookup key = none := by
    rcases hkey with rfl | rfl <;> simp [lookup_cons_eq]
  simp only [List.lookup_append, hfirst, hflag, hsidecars, Option.none_or, Option.or_none]

theorem exists_managedStart_project (h : projectLaunch host w asset = some launch)
    (hmanaged : launch.managed = true) (bindingId attackerKey : String) (warmStandby : Bool) :
    ∃ (start : ManagedStart) (ports : List Settings), start.bindingId = bindingId ∧
      start.asset = asset ∧ start.launchedOn = host ∧ start.ports w = .ok ports ∧
      gatewayRoutes host w bindingId attackerKey asset
        (launch.settings ++ standbyFlag warmStandby) = start.routes w ports := by
  simp only [projectLaunch, Option.bind_eq_bind, Option.bind_eq_some_iff, toOption_eq_some,
    Option.ite_none_right_eq_some] at h
  obtain ⟨runtime, _, composeFile, _, composeProject, _, containerIds, _, internalNetwork, _,
    statuses, _, target, _, ports, hports, ip, _, _, hlaunch⟩ := h
  obtain rfl := Option.some.inj hlaunch
  have htarget : target ≠ "" := by
    -- without a target there are no ports, and the gateway is not used
    intro hnone
    rw [if_pos hnone] at hports
    obtain rfl := Except.ok.inj hports
    exact absurd hmanaged (by simp)
  rw [if_neg htarget] at hports
  refine ⟨⟨host, host, bindingId, attackerKey, asset, runtime, target, htarget, ip⟩, ports,
    rfl, rfl, rfl, hports, ?_⟩
  refine gatewayRoutes_congr attackerKey asset ?_ ?_
  · rw [lookup_append_standbyFlag _ _ (by decide)]
    exact lookup_settings_project _ _ _ _ _ _ _ _ _ (Or.inl rfl)
  · rw [lookup_append_standbyFlag _ _ (by decide)]
    exact lookup_settings_project _ _ _ _ _ _ _ _ _ (Or.inr rfl)

theorem exists_managedStart_container (h : containerLaunch host w bindingId asset = some launch)
    (hmanaged : launch.managed = true) (attackerKey : String) (warmStandby : Bool) :
    ∃ (start : ManagedStart) (ports : List Settings), start.bindingId = bindingId ∧
      start.asset = asset ∧ start.launchedOn = host ∧ start.ports w = .ok ports ∧
      gatewayRoutes host w bindingId attackerKey asset
        (launch.settings ++ standbyFlag warmStandby) = start.routes w ports := by
  simp only [containerLaunch, Option.bind_eq_bind, Option.bind_eq_some_iff, toOption_eq_some,
    Option.ite_none_right_eq_some] at h
  obtain ⟨runtime, _, image, _, settings, hsettings, sidecars, _, ip, _, _, hlaunch⟩ := h
  obtain rfl := Option.some.inj hlaunch
  obtain ⟨ports, hports, hmade⟩ := Fallible.bind_eq_ok.mp hsettings
  obtain rfl := Except.ok.inj hmade
  have hname : containerName bindingId asset.assetId ≠ "" := by
    intro hempty
    have hchars := congrArg String.toList hempty
    simp [containerName] at hchars
  simp only at hmanaged
  rw [hmanaged] at hports ⊢
  refine ⟨⟨host, host, bindingId, attackerKey, asset, runtime, _, hname, ip⟩, ports, rfl, rfl,
    rfl, hports, gatewayRoutes_congr attackerKey asset ?_ ?_⟩
  · rw [lookup_append_standbyFlag _ _ (by decide)]
    exact lookup_settings_container _ _ _ _ _ (Or.inl rfl)
  · rw [lookup_append_standbyFlag _ _ (by decide)]
    exact lookup_settings_container _ _ _ _ _ (Or.inr rfl)

/-- **Every launch behind the asset gateway is such a start**: it writes the same routes. -/
theorem exists_managedStart (h : launchOf host w bindingId asset = some launch)
    (hmanaged : launch.managed = true) (hbackend : hasBackend asset = true)
    (attackerKey : String) (warmStandby : Bool) :
    ∃ (start : ManagedStart) (ports : List Settings), start.bindingId = bindingId ∧
      start.asset = asset ∧ start.launchedOn = host ∧ start.ports w = .ok ports ∧
      gatewayRoutes host w bindingId attackerKey asset
        (launch.settings ++ standbyFlag warmStandby) = start.routes w ports := by
  unfold launchOf at h
  by_cases hcompose : composeSupports asset
  · rw [if_pos hcompose] at h
    exact exists_managedStart_project h hmanaged bindingId attackerKey warmStandby
  · have hdocker : dockerSupports asset = true := by
      simpa [hasBackend, hcompose] using hbackend
    rw [if_neg hcompose, if_pos hdocker] at h
    exact exists_managedStart_container h hmanaged attackerKey warmStandby

end Launched

/-- **Keys and ports of the route table**: throughout a run no two routes have one key, and the
routes of a start are on different ports, exactly where the starts that return give their mappings
ports of their own. -/
theorem route_keys_iff (starts : List ManagedStart) (w : World) (hw : KeysApart w.routes) :
    ((∀ earlier later, starts = earlier ++ later → KeysApart (runStarts earlier w).routes) ↔
      ∀ start ∈ starts, start.Resolves → start.PortsApart) ∧
    ∀ start ∈ starts, ∀ t ports, start.ports t = .ok ports →
      (((start.routes t ports).map GatewayRoute.publicPort).Nodup ↔ start.PortsApart) := by
  refine ⟨keysApart_runStarts_iff hw, fun start _ t ports hports => ?_⟩
  exact keysApart_gatewayRoutes.symm.trans (ManagedStart.keysApart_routes_iff hports)

/-- A portal with a page and an administration, each on a port of its own. -/
def portalStart (portOverride : Option Int) : ManagedStart where
  host := quietHost []
  launchedOn := { quietHost [] with portOverride := fun _ => portOverride }
  bindingId := "b-1"
  attackerKey := "198.51.100.7"
  asset := { assetId := "internal-portal", exposureType := .internal }
  runtime := [("port_mappings", .list
    [.dict [("requested_host_port", .int 18080), ("container_port", .int 80)],
      .dict [("requested_host_port", .int 18443), ("container_port", .int 443)]])]
  backendHost := "portal"
  backendHost_ne := by decide
  backendIp := none

theorem route_keys_portal : KeysApart (runStarts [portalStart none] {}).routes := by
  have hportal : ∀ start ∈ [portalStart none], start.Resolves → start.PortsApart := by
    intro start hstart _
    rw [List.mem_singleton.mp hstart]
    show (portalStart none).asked.Nodup
    decide
  exact (route_keys_iff [portalStart none] {} List.nodup_nil).1.mpr hportal [portalStart none] []
    rfl

/-- With an override for the portal, its two mappings get one port. -/
theorem override_shadows_service :
    (portalStart (some 8080)).asked = [18080, 18443] ∧
      ∃ ports, (portalStart (some 8080)).ports {} = .ok ports ∧
        ports.map (fun record => record.get "container_port") = [.int 80, .int 443] ∧
        ((portalStart (some 8080)).routes {} ports).map GatewayRoute.publicPort = [8080, 8080] ∧
        ¬ KeysApart (runStarts [portalStart (some 8080)] {}).routes := by
  refine ⟨by decide, _, rfl, rfl, by decide +kernel, ?_⟩
  unfold KeysApart
  decide +kernel

end Honeynet.Orchestrator
