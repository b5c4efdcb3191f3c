import Honeynet.Forwarders.Attribution
import Honeynet.System.Earned

/-!
# Credited events are earned

What the backends see comes back through the forwarders, which credit it to attackers by the
route table of the orchestrator.

* `routeItem`, `routeTable`: the table as the forwarders read it.
* `CreditedTo`: an attacker that a route credits has earned the asset.
* `credited_events_are_earned`: along every run, no event is credited to any other.
-/

namespace Honeynet.System

open Collections Controller Forwarders Loop Orchestrator Relation

/-- A route as it is stored. -/
def routeItem (route : GatewayRoute) : Settings :=
  [("schema_version", .str "v1"), ("attacker_key", .str route.attackerKey),
    ("binding_id", .str route.bindingId), ("asset_id", .str route.assetId),
    ("asset_name", .str route.assetName), ("protocol", .str route.protocol),
    ("public_port", .int route.publicPort), ("backend_host", .str route.backendHost),
    ("backend_port", .int route.backendPort), ("backend_ip", .str route.backendIp),
    ("updated_at", .str route.updatedAt)]

/-- The routes that a forwarder loads. -/
def routeTable (w : World) : List Settings := w.routes.map routeItem

section Credited

variable {F : Type} {opts : LoopOptions} {text : Datetime → String}

/-- **The attacker of a route to the asset**, for which the loop has asked for it. -/
def CreditedTo (opts : LoopOptions) (st : State F) (attackerKey assetId : String) : Prop :=
  ∃ route ∈ st.world.routes, route.assetId = assetId ∧
    attackerKey = String.ofList (Text.strip route.attackerKey.toList) ∧
      ∃ a, Earned opts st route.bindingId assetId a ∧ a.request.attackerKey = route.attackerKey

/-- The attacker of a route is that of its binding, and so that of the tick behind it. -/
theorem earned_of_route {st : State F} (h : Kept opts st) {route : GatewayRoute}
    (hroute : route ∈ st.world.routes) : ∃ a, Earned opts st route.bindingId route.assetId a ∧
      a.request.attackerKey = route.attackerKey := by
  obtain ⟨record, hrecord, hkey, hmem⟩ := h.confined.routes route hroute
  obtain ⟨a, ha⟩ := h.earned route.bindingId route.assetId ⟨record, hrecord, hmem⟩
  obtain ⟨r, habout, -, assetIds, hexposure, -⟩ := ha.about
  have hsame := Option.some.inj ((exposureOf_of_get hrecord).symm.trans hexposure)
  refine ⟨a, ha, ?_⟩
  rw [habout.attackerKey, hkey]
  exact (Prod.mk.inj hsame).1.symm

theorem creditedTo_of_route {st : State F} (h : Kept opts st) {route : GatewayRoute}
    (hroute : route ∈ st.world.routes) : CreditedTo opts st
      (String.ofList (Text.strip route.attackerKey.toList)) route.assetId := by
  obtain ⟨a, ha, hkey⟩ := earned_of_route h hroute
  exact ⟨route, hroute, rfl, rfl, a, ha, hkey⟩

theorem route_of_credits {py : ForwarderBuiltins} (hpy : ∀ s, py.str (.str s) = s) {w : World}
    {leads : Settings → Bool} {item : Settings} {attackerKey : String}
    (h : Credits py (routeTable w) leads item attackerKey) :
    ∃ route ∈ w.routes, item = routeItem route ∧
      attackerKey = String.ofList (Text.strip route.attackerKey.toList) := by
  obtain ⟨route, hroute, rfl⟩ := List.mem_map.mp h.mem.1
  refine ⟨route, hroute, rfl, ?_⟩
  have hattacker := h.attacker
  have hkey : (routeItem route).getD "attacker_key" (.str "") = .str route.attackerKey := rfl
  unfold routedAttacker at hattacker
  rw [hkey, hpy] at hattacker
  dsimp only at hattacker
  split at hattacker
  · exact absurd hattacker (by simp)
  · exact (Option.some.inj hattacker).symm

/-- What a credited event says. -/
theorem of_creditedEvent {py : ForwarderBuiltins} (hpy : ∀ s, py.str (.str s) = s)
    (event : Settings) (route : GatewayRoute) (attackerKey : String) :
    (creditedEvent py event (routeItem route) attackerKey).get "src_host" = .str attackerKey ∧
      ∃ logdata : Settings, (creditedEvent py event (routeItem route) attackerKey).get "logdata" =
        .dict logdata ∧ logdata.get "ASSET_ID" = .str route.assetId := by
  have hasset : (routeItem route).getD "asset_id" (.str "") = .str route.assetId := rfl
  unfold creditedEvent Settings.get
  refine ⟨?source, ?logdata, ?credited, ?asset⟩
  case source =>
    rw [lookup_set_ne _ (by decide), lookup_set_self]
    rfl
  case credited =>
    rw [lookup_set_self]
    rfl
  case asset =>
    rw [lookup_set_ne _ (by decide), lookup_set_ne _ (by decide), lookup_set_self, hasset,
      hpy]
    rfl

/-- Before it is credited, an event keeps its source. -/
theorem source_normalizeEvent {py : ForwarderBuiltins} {event normalized : Settings}
    (h : normalizeEvent py event = some normalized) :
    normalized.get "src_host" = event.get "src_host" := by
  have hframe (logdata : Value) :
      Settings.get (Dict.set event "logdata" logdata) "src_host" = event.get "src_host" := by
    unfold Settings.get
    rw [lookup_set_ne _ (by decide)]
  unfold normalizeEvent at h
  split at h
  · exact absurd h (by simp)
  · split at h
    · exact Option.some.inj h ▸ hframe _
    · exact Option.some.inj h ▸ rfl
    · exact Option.some.inj h ▸ hframe _

/-- An event that is forwarded keeps its source, or is credited to who has earned the asset. -/
theorem credited_forwardedEvent {py : ForwarderBuiltins} (hpy : ∀ s, py.str (.str s) = s)
    {st : State F} (h : Kept opts st) {event forwarded : Settings}
    (hforwarded : forwardedEvent py event (routeTable st.world) = some forwarded) :
    forwarded.get "src_host" = event.get "src_host" ∨
      ∃ attackerKey assetId, ∃ logdata : Settings,
        forwarded.get "src_host" = .str attackerKey ∧ forwarded.get "logdata" = .dict logdata ∧
          logdata.get "ASSET_ID" = .str assetId ∧ CreditedTo opts st attackerKey assetId := by
  obtain ⟨normalized, hnormalized, rfl⟩ := Option.map_eq_some_iff.mp hforwarded
  rcases attribute_cases py normalized (routeTable st.world) with hsame | hcredited
  · rw [hsame]
    exact Or.inl (source_normalizeEvent hnormalized)
  · obtain ⟨dstHost, dstPort, item, attackerKey, -, -, hcredits, heq⟩ := hcredited
    obtain ⟨route, hroute, rfl, rfl⟩ := route_of_credits hpy hcredits
    obtain ⟨hsource, logdata, hlogdata, hasset⟩ := of_creditedEvent hpy normalized route
      (String.ofList (Text.strip route.attackerKey.toList))
    rw [heq]
    exact Or.inr ⟨_, _, logdata, hsource, hlogdata, hasset, creditedTo_of_route h hroute⟩

/-- The source of an event that is sent on is named in it, or is who has earned the asset. -/
theorem credited_payload {py : ForwarderBuiltins} (hpy : ∀ s, py.str (.str s) = s)
    {st : State F} (h : Kept opts st) {event payload : Settings} {defaults : ForwarderDefaults}
    (hpayload : buildAdapterPayload py event defaults (routeTable st.world) = some payload) :
    ∃ attackerKey assetId, (payloadEvent payload).get "attacker_key" = .str attackerKey ∧
      (payloadEvent payload).get "asset_id" = .str assetId ∧
        (namedSource event = some attackerKey ∨ CreditedTo opts st attackerKey assetId) := by
  obtain ⟨attackerKey, assetId, hkey, hasset, hnamed | hcredited⟩ := payload_cases hpayload
  · exact ⟨attackerKey, assetId, hkey, hasset, Or.inl hnamed⟩
  · obtain ⟨dstHost, dstPort, item, hcredits⟩ := hcredited
    have hleads := hcredits.mem.2
    obtain ⟨route, hroute, rfl, rfl⟩ := route_of_credits hpy hcredits
    have hid : route.assetId = assetId := by
      unfold leadsTo at hleads
      have hasset := (Bool.and_eq_true_iff.mp hleads).1
      exact Option.some.inj (of_decide_eq_true hasset)
    exact ⟨_, assetId, hkey, hasset, Or.inr (hid ▸ creditedTo_of_route h hroute)⟩

/-- **Credited events are earned**: along every run, whatever the backends log, an attacker that
an event does not name itself has earned the asset which the event is about. -/
theorem credited_events_are_earned (hstr : ∀ s, opts.str (.str s) = s) {py : ForwarderBuiltins}
    (hpy : ∀ s, py.str (.str s) = s) {st : State F}
    (h : ReflTransGen (PlainStep opts text) {} st) (event : Settings) :
    (∀ forwarded, forwardedEvent py event (routeTable st.world) = some forwarded →
      forwarded.get "src_host" = event.get "src_host" ∨
        ∃ attackerKey assetId, ∃ logdata : Settings,
          forwarded.get "src_host" = .str attackerKey ∧ forwarded.get "logdata" = .dict logdata ∧
            logdata.get "ASSET_ID" = .str assetId ∧ CreditedTo opts st attackerKey assetId) ∧
    ∀ defaults payload,
      buildAdapterPayload py event defaults (routeTable st.world) = some payload →
        ∃ attackerKey assetId, (payloadEvent payload).get "attacker_key" = .str attackerKey ∧
          (payloadEvent payload).get "asset_id" = .str assetId ∧
            (namedSource event = some attackerKey ∨ CreditedTo opts st attackerKey assetId) := by
  have hkept := kept_of_run hstr h
  exact ⟨fun forwarded hforwarded => credited_forwardedEvent hpy hkept hforwarded,
    fun defaults payload hpayload => credited_payload hpy hkept hpayload⟩

end Credited

/-! ### An event of the portal -/

/-- The portal and the wiki, in containers. -/
def dockedCatalog : List AssetDefinition :=
  (portalCatalog (.list [])).map fun asset => { asset with
    defaultSettings := asset.defaultSettings ++ [("runtime", .dict [("backend", .str "docker"),
      ("image", .str "nginx"), ("port_mappings", .list [.dict
        [("requested_host_port", .int 18080), ("container_port", .int 80)]])])] }

/-- A host on which containers get an address. -/
def dockedHost : Host :=
  { quietHost dockedCatalog with docker := fun w asset =>
      { (quietHost dockedCatalog).docker w asset with networkIp := .ok (some "172.20.0.5") } }

def dockedServices : Services Rat :=
  { portalServices with
    controller := { portalServices.controller with listAll := dockedCatalog }
    host := dockedHost }

/-- The loop has handled the profile, on that host. -/
def docked : State Rat :=
  started.handle portalOptions (fun _ => "") { portalMoment with services := dockedServices }
    connected.world.bindings "198.51.100.7" wikiProfile []

theorem plainCatalog_docked : PlainCatalog dockedCatalog := by
  have hids : ∀ asset ∈ dockedCatalog, ' ' ∉ asset.assetId.toList := by decide
  exact plainCatalog_of_ids hids (by decide)

theorem run_docked : ReflTransGen (PlainStep portalOptions fun _ => "") {} docked := by
  have hhost : PlainHost dockedHost :=
    ⟨⟨fun _ => freshId_notMem _, fun _ => freshId_notMem _⟩, (plainHost_quiet dockedCatalog).ids⟩
  exact run_handle { portalMoment with services := dockedServices } hhost plainCatalog_docked

def textBuiltins : ForwarderBuiltins where
  parseInt := String.toInt?
  str value := value.str?.getD ""
  dumps _ := "null"

/-- A request for the login page, as the portal's backend logs it. -/
def portalEvent : Settings :=
  [("dst_host", .str "172.20.0.5"), ("dst_port", .int 80), ("src_host", .str "172.20.0.2"),
    ("logdata", .dict [("PATH", .str "/login")])]

/-- The event is credited to the attacker that the portal was opened for. -/
theorem portal_event_credited :
    ReflTransGen (PlainStep portalOptions fun _ => "") {} docked ∧
      ∃ forwarded, forwardedEvent textBuiltins portalEvent (routeTable docked.world) =
        some forwarded ∧ forwarded.get "src_host" = .str "198.51.100.7" ∧
          CreditedTo portalOptions docked "198.51.100.7" "internal-portal" := by
  have hforwarded : ∃ forwarded, forwardedEvent textBuiltins portalEvent
      (routeTable docked.world) = some forwarded := by
    apply Option.isSome_iff_exists.mp
    decide +kernel
  obtain ⟨forwarded, hforwarded⟩ := hforwarded
  have hsource : (forwardedEvent textBuiltins portalEvent (routeTable docked.world)).map
      (fun e => (e.get "src_host").str?) = some (some "198.51.100.7") := by decide +kernel
  have hasset : (forwardedEvent textBuiltins portalEvent (routeTable docked.world)).map
      (fun e => ((Settings.get e "logdata").dict?.map fun d => (d.get "ASSET_ID").str?)) =
        some (some (some "internal-portal")) := by decide +kernel
  rw [hforwarded] at hsource hasset
  have hsource : (forwarded.get "src_host").str? = some "198.51.100.7" := Option.some.inj hsource
  have hasset : ((Settings.get forwarded "logdata").dict?.map fun d => (d.get "ASSET_ID").str?) =
    some (some "internal-portal") := Option.some.inj hasset
  rcases (credited_events_are_earned (fun _ => rfl) (fun _ => rfl) run_docked portalEvent).1
    forwarded hforwarded with hsame | ⟨attackerKey, assetId, logdata, hkey, hlogdata, hid, h⟩
  · rw [hsame] at hsource
    exact absurd hsource (by decide)
  · rw [hkey] at hsource
    obtain rfl := Option.some.inj hsource
    rw [hlogdata] at hasset
    have hasset : (logdata.get "ASSET_ID").str? = some "internal-portal" := Option.some.inj hasset
    rw [hid] at hasset
    obtain rfl := Option.some.inj hasset
    exact ⟨run_docked, forwarded, hforwarded, hkey, h⟩

end Honeynet.System
