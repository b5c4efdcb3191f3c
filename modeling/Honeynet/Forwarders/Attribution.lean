import Honeynet.Orchestrator.World

/-!
# Whose events they are

A backend sees the gateway as its client, so a forwarder looks up in the route table whose events
it forwards.

* `routeAttackerKey`: the attacker of the one route to a backend.
* `normalizeEvent`, `attributeAssetGatewaySource`: an event of OpenCanary.
* `buildAdapterPayload`: an event of a high-interaction backend.
* `Credits`: a route credits an event of its backend to its attacker.
* `attribute_cases`, `payload_cases`: an event keeps its source, or a route credits it.
-/

namespace Honeynet.Forwarders

open Collections Orchestrator

/-- What the forwarders take from their language: `int` of a text, `str`, and `json.dumps` with
sorted keys. -/
structure ForwarderBuiltins where
  parseInt : String → Option Int
  str : Value → String
  dumps : Value → String

/-! ### JSON objects -/

def firstValue (payload : Settings) (keys : List String) : Value :=
  (keys.findSome? fun key => match payload.get key with
    | .none => none
    | value => some value).getD .none

def firstString (payload : Settings) (keys : List String) : Option String :=
  stringOrNone (firstValue payload keys)

section Language

variable (py : ForwarderBuiltins)

/-- `int(value)`, `none` where it raises. -/
def safeInt : Value → Option Int
  | .bool b => some (if b then 1 else 0)
  | .int n => some n
  | .float x => some (x.num.tdiv x.den)
  | .str s => py.parseInt s
  | _ => none

/-! ### The route table -/

/-- `str(route.get("attacker_key", "")).strip()`, if anything is left. -/
def routedAttacker (route : Settings) : Option String :=
  let attackerKey := String.ofList
    (Text.strip (py.str (route.getD "attacker_key" (.str ""))).toList)
  if attackerKey = "" then none else some attackerKey

/-- The route leads to the backend, as far as that is known. -/
def leadsTo (backendHost : Option String) (backendPort : Option Int) (assetId : Option String)
    (route : Settings) : Bool :=
  assetId.all (fun id => (route.get "asset_id").str? = some id) &&
    (backendHost.all (fun host => host = "" || ((route.get "backend_ip").str? = some host ||
      (route.get "backend_host").str? = some host)) &&
    backendPort.all fun port => safeInt py (route.get "backend_port") = some port)

/-- The attacker of the route to a backend, where there is exactly one. -/
def routeAttackerKey (routes : List Settings) (backendHost : Option String)
    (backendPort : Option Int) (assetId : Option String) : Option String :=
  match routes.filter (leadsTo py backendHost backendPort assetId) with
  | [route] => routedAttacker py route
  | _ => none

/-! ### Events of OpenCanary -/

/-- An event that has a source, with an object for its logdata. -/
def normalizeEvent (event : Settings) : Option Settings :=
  match stringOrNone (event.get "src_host") with
  | none => none
  | some _ =>
    match Settings.get event "logdata" with
    | .none => some (Dict.set event "logdata" (.dict []))
    | .dict _ => some event
    | logdata =>
      some (Dict.set event "logdata" (.dict [("message", .str (py.dumps logdata))]))

/-- The route is that of a backend's address. -/
def isBackend (dstHost : String) (dstPort : Int) (route : Settings) : Bool :=
  (route.get "backend_ip").str? = some dstHost &&
    safeInt py (route.get "backend_port") = some dstPort

/-- An event that is credited to the attacker of a route. -/
def creditedEvent (event route : Settings) (attackerKey : String) : Settings :=
  let originalSrcHost := py.str (event.getD "src_host" (.str ""))
  let attributed := Dict.set event "src_host" (.str attackerKey)
  let logdata := ((Settings.get attributed "logdata").dict?).getD []
  let logdata := if originalSrcHost = "" then logdata
    else Dict.set logdata "ASSET_GATEWAY_PROXY_SRC_HOST" (.str originalSrcHost)
  let logdata := Dict.set logdata "ASSET_ID" (.str (py.str (route.getD "asset_id" (.str ""))))
  let logdata := Dict.set logdata "ASSET_GATEWAY_BACKEND_HOST"
    (.str (py.str (route.getD "backend_host" (.str ""))))
  let logdata := Dict.set logdata "ASSET_GATEWAY_PUBLIC_PORT" (route.getD "public_port" (.str ""))
  Dict.set attributed "logdata" (.dict logdata)

def attributeAssetGatewaySource (event : Settings) (routes : List Settings) : Settings :=
  match (event.get "dst_host").str?, (event.get "dst_port").int? with
  | some dstHost, some dstPort =>
    match routes.filter (isBackend py dstHost dstPort) with
    | [route] =>
      match routedAttacker py route with
      | some attackerKey => creditedEvent py event route attackerKey
      | none => event
    | _ => event
  | _, _ => event

/-- What is forwarded of an event, if it is. -/
def forwardedEvent (event : Settings) (routes : List Settings) : Option Settings :=
  (normalizeEvent py event).map fun normalized =>
    attributeAssetGatewaySource py normalized routes

/-! ### Events of the high-interaction backends -/

/-- What a forwarder is started with. -/
structure ForwarderDefaults where
  source : String
  assetId : String
  service : String
  eventType : String
  protocol : String

def stringField (event : Settings) (keys : List String) (default : String) : String :=
  (firstString event keys).getD default

/-- The source that an event names itself. -/
def namedSource (event : Settings) : Option String :=
  firstString event
    ["attacker_key", "src_ip", "src_host", "remote_host", "remote_ip", "source_ip"]

def attackerKey (event : Settings) (assetId : String) (dstHost : Option String)
    (dstPort : Option Int) (assetRoutes : List Settings) : Option String :=
  match namedSource event with
  | some attackerKey => some attackerKey
  | none => routeAttackerKey py assetRoutes dstHost dstPort (some assetId)

def logdataOmitKeys : List String :=
  ["source", "asset_id", "service", "protocol", "event_type", "eventid", "attacker_key", "src_ip",
    "src_host", "dst_ip", "dst_host", "dest_ip", "dest_port", "dst_port", "local_host", "local_ip",
    "local_port", "timestamp", "ts"]

/-- An event in the schema of the adapter. -/
def adapterEvent (event : Settings) (defaults : ForwarderDefaults) (assetId attackerKey : String)
    (dstHost : Option String) (dstPort : Option Int) : Settings :=
  let base : Settings :=
    [("source", .str (stringField event ["source"] defaults.source)), ("asset_id", .str assetId),
      ("attacker_key", .str attackerKey),
      ("service", .str (stringField event ["service", "protocol"] defaults.service)),
      ("event_type", .str (stringField event ["event_type", "eventid"] defaults.eventType)),
      ("src_host", .str ((firstString event
        ["src_host", "src_ip", "remote_host", "remote_ip"]).getD attackerKey)),
      ("src_port", (safeInt py
        (firstValue event ["src_port", "source_port", "remote_port"])).elim .none .int),
      ("dst_host", dstHost.elim .none .str), ("dst_port", dstPort.elim .none .int),
      ("logdata", .dict (event.filter fun e => e.1 ∉ logdataOmitKeys))]
  match firstString event ["ts", "timestamp", "time"] with
  | some ts => base ++ [("ts", .str ts)]
  | none => base

/-- What is sent to the adapter; `none` where the event has no attacker. -/
def buildAdapterPayload (event : Settings) (defaults : ForwarderDefaults)
    (assetRoutes : List Settings) : Option Settings :=
  let assetId := stringField event ["asset_id"] defaults.assetId
  let dstPort := safeInt py (firstValue event ["dst_port", "dest_port", "local_port", "port"])
  let dstHost := firstString event ["dst_host", "dest_ip", "local_host", "local_ip"]
  ((attackerKey py event assetId dstHost dstPort assetRoutes).filter (· ≠ "")).map
    fun attackerKey =>
      [("event", .dict (adapterEvent py event defaults assetId attackerKey dstHost dstPort)),
        ("protocol", .str defaults.protocol)]

/-- The event in what is sent. -/
def payloadEvent (payload : Settings) : Settings := ((payload.get "event").dict?).getD []

/-! ### What credits an event -/

/-- The route is the only one to its backend, and names an attacker. -/
structure Credits (routes : List Settings) (leads : Settings → Bool) (route : Settings)
    (attackerKey : String) : Prop where
  only : routes.filter leads = [route]
  attacker : routedAttacker py route = some attackerKey

variable {py}

theorem Credits.mem {routes : List Settings} {leads : Settings → Bool} {route : Settings}
    {attackerKey : String} (h : Credits py routes leads route attackerKey) :
    route ∈ routes ∧ leads route = true := by
  have hmem : route ∈ routes.filter leads := by
    rw [h.only]
    exact List.mem_cons_self
  exact List.mem_filter.mp hmem

variable (py) in
/-- **An event of OpenCanary is left as it is, or a route credits it.** -/
theorem attribute_cases (event : Settings) (routes : List Settings) :
    attributeAssetGatewaySource py event routes = event ∨
      ∃ dstHost dstPort route attackerKey, (event.get "dst_host").str? = some dstHost ∧
        (event.get "dst_port").int? = some dstPort ∧
        Credits py routes (isBackend py dstHost dstPort) route attackerKey ∧
        attributeAssetGatewaySource py event routes = creditedEvent py event route attackerKey := by
  unfold attributeAssetGatewaySource
  split
  · rename_i dstHost dstPort hhost hport
    split
    · rename_i route honly
      split
      · rename_i attackerKey hattacker
        exact Or.inr ⟨dstHost, dstPort, route, attackerKey, hhost, hport, ⟨honly, hattacker⟩, rfl⟩
      · exact Or.inl rfl
    · exact Or.inl rfl
  · exact Or.inl rfl

theorem routeAttackerKey_eq_some {routes : List Settings} {backendHost : Option String}
    {backendPort : Option Int} {assetId : Option String} {attackerKey : String}
    (h : routeAttackerKey py routes backendHost backendPort assetId = some attackerKey) :
    ∃ route, Credits py routes (leadsTo py backendHost backendPort assetId) route attackerKey := by
  unfold routeAttackerKey at h
  split at h
  · rename_i route honly
    exact ⟨route, honly, h⟩
  · exact absurd h (by simp)

/-- **An event of a high-interaction backend names its source, or a route credits it.** -/
theorem payload_cases {event payload : Settings} {defaults : ForwarderDefaults}
    {assetRoutes : List Settings}
    (h : buildAdapterPayload py event defaults assetRoutes = some payload) :
    ∃ attackerKey assetId, (payloadEvent payload).get "attacker_key" = .str attackerKey ∧
      (payloadEvent payload).get "asset_id" = .str assetId ∧ (namedSource event = some attackerKey ∨
        ∃ dstHost dstPort route, Credits py assetRoutes (leadsTo py dstHost dstPort (some assetId))
          route attackerKey) := by
  unfold buildAdapterPayload at h
  obtain ⟨key, hfound, rfl⟩ := Option.map_eq_some_iff.mp h
  have hkey := (Option.filter_eq_some_iff.mp hfound).1
  refine ⟨key, stringField event ["asset_id"] defaults.assetId, ?_, ?_, ?_⟩
  · show (adapterEvent py event defaults _ key _ _).get "attacker_key" = _
    unfold adapterEvent
    split <;> rfl
  · show (adapterEvent py event defaults _ key _ _).get "asset_id" = _
    unfold adapterEvent
    split <;> rfl
  · unfold attackerKey at hkey
    split at hkey
    · rename_i named hnamed
      exact Or.inl (hnamed.trans hkey)
    · obtain ⟨route, hroute⟩ := routeAttackerKey_eq_some hkey
      exact Or.inr ⟨_, _, route, hroute⟩

end Language

end Honeynet.Forwarders
