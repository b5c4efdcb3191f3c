import Honeynet.Common.Clock
import Honeynet.Orchestrator.Service

/-!
# The latest route

Asset starts write routes into one table, for any attackers, bindings and assets, and the data
plane reads it for a client and a port.

* `RouteCall`: one write with its time.
* `sorted_runCalls`: the table is in the order of time.
* `selects_latest_route`: the data plane takes a route of the client's latest write for the port.
* `key_of_another_attacker`: unless its key was written again for another attacker.
-/

namespace Honeynet.Orchestrator

open Collections

/-- The route that `reveal_port_simulation.py` takes for an attacker and a port. -/
def latestRouteForAttackerPort (routes : List GatewayRoute) (attackerKey : String)
    (publicPort : Int) : Option GatewayRoute :=
  let candidates := routes.filter fun route =>
    route.attackerKey == attackerKey && route.publicPort == publicPort
  (candidates.mergeSort fun a b => decide (a.updatedAt ≤ b.updatedAt)).getLast?

/-! ### Calls one after another -/

/-- One call of `upsert_asset_gateway_routes`, and when it reads the clock. -/
structure RouteCall where
  bindingId : String
  attackerKey : String
  asset : AssetDefinition
  settings : Settings
  now : Utc

section Calls

variable (host : Host)

/-- The host at the time of a call. -/
def RouteCall.at (call : RouteCall) : Host := { host with isoNow := fun _ => call.now.isoformat }

/-- The routes a call writes. -/
def RouteCall.routes (call : RouteCall) : List GatewayRoute :=
  gatewayRoutes (call.at host) {} call.bindingId call.attackerKey call.asset call.settings

def RouteCall.run (w : World) (call : RouteCall) : World :=
  (Effect.exec (upsertAssetGatewayRoutes (call.at host) call.bindingId call.attackerKey call.asset
    call.settings) w).2

def runCalls (calls : List RouteCall) (w : World) : World := calls.foldl (RouteCall.run host) w

variable {host}

theorem RouteCall.run_eq (w : World) (call : RouteCall) :
    call.run host w = w.replaceRoutes (call.routes host) := by
  have hroutes : gatewayRoutes (call.at host) w call.bindingId call.attackerKey call.asset
      call.settings = call.routes host := rfl
  rw [RouteCall.run, upsertAssetGatewayRoutes, Effect.exec_bind, Effect.exec_get]
  simp only [hroutes]
  by_cases hnil : call.routes host = []
  · rw [if_pos hnil, hnil, replaceRoutes_nil]
    rfl
  · rw [if_neg hnil]
    rfl

/-- What a call writes is of its attacker, its binding, its asset and its time. -/
theorem RouteCall.mem_routes {call : RouteCall} {route : GatewayRoute}
    (h : route ∈ call.routes host) : route.attackerKey = call.attackerKey ∧
      route.bindingId = call.bindingId ∧ route.assetId = call.asset.assetId ∧
      route.updatedAt = call.now.isoformat :=
  mem_gatewayRoutes h

theorem runCalls_concat (calls : List RouteCall) (call : RouteCall) (w : World) :
    runCalls host (calls ++ [call]) w =
      (runCalls host calls w).replaceRoutes (call.routes host) := by
  rw [runCalls, List.foldl_append, List.foldl_cons, List.foldl_nil, RouteCall.run_eq, runCalls]

/-! ### The order of the table -/

theorem mem_runCalls {calls : List RouteCall} {w : World} (hw : w.routes = [])
    {route : GatewayRoute} (h : route ∈ (runCalls host calls w).routes) :
    ∃ call ∈ calls, route ∈ call.routes host := by
  induction calls using List.reverseRecOn with
  | nil => exact absurd (hw ▸ h) List.not_mem_nil
  | append_singleton calls call ih =>
    rw [runCalls_concat] at h
    rcases mem_replaceRoutes h with h | h
    · obtain ⟨earlier, hearlier, hroute⟩ := ih h
      exact ⟨earlier, List.mem_append_left _ hearlier, hroute⟩
    · exact ⟨call, List.mem_append_right _ List.mem_cons_self, h⟩

/-- **Under a clock that does not go back the table is in the order of time.** -/
theorem sorted_runCalls {calls : List RouteCall}
    (hclock : calls.Pairwise fun a b => a.now ≤ b.now) {w : World} (hw : w.routes = []) :
    (runCalls host calls w).routes.Pairwise fun a b => a.updatedAt ≤ b.updatedAt := by
  induction calls using List.reverseRecOn with
  | nil =>
    rw [runCalls, List.foldl_nil, hw]
    exact List.Pairwise.nil
  | append_singleton calls call ih =>
    obtain ⟨hcalls, -, hlast⟩ := List.pairwise_append.mp hclock
    rw [runCalls_concat]
    refine List.pairwise_append.mpr ⟨(ih hcalls).sublist List.filter_sublist, ?_, ?_⟩
    · refine List.pairwise_of_forall_mem_list fun a ha b hb => ?_
      rw [(RouteCall.mem_routes ha).2.2.2, (RouteCall.mem_routes hb).2.2.2]
    · intro a ha b hb
      obtain ⟨earlier, hearlier, ha⟩ := mem_runCalls hw (List.mem_filter.mp ha).1
      rw [(RouteCall.mem_routes ha).2.2.2, (RouteCall.mem_routes hb).2.2.2]
      exact Utc.isoformat_le_isoformat (hlast earlier hearlier call List.mem_cons_self)

/-! ### The routes of a client -/

/-- The routes of an attacker on a port. -/
def exactRoutes (routes : List GatewayRoute) (attackerKey : String) (publicPort : Int) :
    List GatewayRoute :=
  routes.filter fun route => route.attackerKey == attackerKey && route.publicPort == publicPort

theorem mem_exactRoutes {routes : List GatewayRoute} {attackerKey : String} {publicPort : Int}
    {route : GatewayRoute} : route ∈ exactRoutes routes attackerKey publicPort ↔
      route ∈ routes ∧ route.attackerKey = attackerKey ∧ route.publicPort = publicPort := by
  rw [exactRoutes, List.mem_filter, Bool.and_eq_true, beq_iff_eq, beq_iff_eq]

/-- In a table in the order of time, sorting by time moves nothing. -/
theorem mergeSort_exactRoutes {routes : List GatewayRoute}
    (h : routes.Pairwise fun a b => a.updatedAt ≤ b.updatedAt) (attackerKey : String)
    (publicPort : Int) : ((exactRoutes routes attackerKey publicPort).mergeSort fun a b =>
      decide (a.updatedAt ≤ b.updatedAt)) = exactRoutes routes attackerKey publicPort :=
  List.mergeSort_of_pairwise ((h.sublist List.filter_sublist).imp fun hab => decide_eq_true hab)

/-- The last route of the client is taken. -/
theorem selectRoute_of_sorted {routes : List GatewayRoute}
    (h : routes.Pairwise fun a b => a.updatedAt ≤ b.updatedAt) (clientIp : String)
    (publicPort : Int) (allowSingleRouteFallback : Bool) :
    selectRoute routes clientIp publicPort allowSingleRouteFallback =
      if exactRoutes routes clientIp publicPort ≠ [] then
        (exactRoutes routes clientIp publicPort).getLast?
      else if allowSingleRouteFallback &&
          (routes.filter fun route => route.publicPort == publicPort).length == 1 then
        (routes.filter fun route => route.publicPort == publicPort).head?
      else none := by
  have hexact : ((routes.filter fun route => route.publicPort == publicPort).filter fun route =>
      route.attackerKey == clientIp) = exactRoutes routes clientIp publicPort :=
    List.filter_filter
  simp only [selectRoute, hexact, mergeSort_exactRoutes h]

theorem latestRouteForAttackerPort_of_sorted {routes : List GatewayRoute}
    (h : routes.Pairwise fun a b => a.updatedAt ≤ b.updatedAt) (attackerKey : String)
    (publicPort : Int) : latestRouteForAttackerPort routes attackerKey publicPort =
      (exactRoutes routes attackerKey publicPort).getLast? :=
  congrArg List.getLast? (mergeSort_exactRoutes h attackerKey publicPort)

section Select

variable {routes : List GatewayRoute} {clientIp : String} {publicPort : Int}
  {route : GatewayRoute}

theorem selectRoute_exact (h : routes.Pairwise fun a b => a.updatedAt ≤ b.updatedAt)
    (hlast : (exactRoutes routes clientIp publicPort).getLast? = some route)
    (allowSingleRouteFallback : Bool) :
    selectRoute routes clientIp publicPort allowSingleRouteFallback = some route ∧
      latestRouteForAttackerPort routes clientIp publicPort = some route := by
  have hne : exactRoutes routes clientIp publicPort ≠ [] := by
    intro hnil
    exact absurd (hnil ▸ hlast) (by simp)
  rw [selectRoute_of_sorted h, latestRouteForAttackerPort_of_sorted h, if_pos hne, hlast]
  exact ⟨rfl, rfl⟩

theorem selectRoute_eq_none (h : routes.Pairwise fun a b => a.updatedAt ≤ b.updatedAt)
    (hnil : exactRoutes routes clientIp publicPort = []) :
    selectRoute routes clientIp publicPort false = none ∧
      latestRouteForAttackerPort routes clientIp publicPort = none := by
  rw [selectRoute_of_sorted h, latestRouteForAttackerPort_of_sorted h, hnil]
  exact ⟨by simp, rfl⟩

/-- A route of another attacker is the one route of the port. -/
theorem fallback_of_ne (h : routes.Pairwise fun a b => a.updatedAt ≤ b.updatedAt)
    {allowSingleRouteFallback : Bool}
    (hselect : selectRoute routes clientIp publicPort allowSingleRouteFallback = some route)
    (hother : route.attackerKey ≠ clientIp) : allowSingleRouteFallback = true ∧
      (routes.filter fun r => r.publicPort == publicPort) = [route] := by
  rw [selectRoute_of_sorted h] at hselect
  split at hselect
  · exact absurd (mem_exactRoutes.mp (List.mem_of_getLast? hselect)).2.1 hother
  · split at hselect
    · rename_i hfallback
      rw [Bool.and_eq_true, beq_iff_eq, List.length_eq_one_iff] at hfallback
      obtain ⟨hfallback, only, honly⟩ := hfallback
      rw [honly, List.head?_cons, Option.some.injEq] at hselect
      exact ⟨hfallback, hselect ▸ honly⟩
    · exact absurd hselect (by simp)

end Select

variable (host) in
/-- The call writes a route of the attacker for the port. -/
def RouteCall.Writes (call : RouteCall) (attackerKey : String) (publicPort : Int) : Prop :=
  ∃ route ∈ call.routes host, route.attackerKey = attackerKey ∧ route.publicPort = publicPort

variable (host) in
/-- The call writes a route of the binding and the asset for the port. -/
def RouteCall.Rewrites (call : RouteCall) (bindingId assetId : String) (publicPort : Int) : Prop :=
  ∃ route ∈ call.routes host, route.bindingId = bindingId ∧ route.assetId = assetId ∧
    route.publicPort = publicPort

theorem exactRoutes_eq_nil {call : RouteCall} {attackerKey : String} {publicPort : Int} :
    exactRoutes (call.routes host) attackerKey publicPort = [] ↔
      ¬ call.Writes host attackerKey publicPort := by
  rw [List.eq_nil_iff_forall_not_mem, RouteCall.Writes, not_exists]
  refine forall_congr' fun route => not_congr ?_
  rw [mem_exactRoutes]

/-- A write keeps the routes without one of its keys. -/
def keeps (new : List GatewayRoute) (route : GatewayRoute) : Bool :=
  !(new.map fun route => (route.bindingId, route.assetId, route.publicPort)).contains
    (route.bindingId, route.assetId, route.publicPort)

theorem keeps_of_forall {new : List GatewayRoute} {route : GatewayRoute}
    (h : ∀ r ∈ new, ¬ (r.bindingId = route.bindingId ∧ r.assetId = route.assetId ∧
      r.publicPort = route.publicPort)) : keeps new route = true := by
  rw [keeps, Bool.not_eq_true', Bool.eq_false_iff, ne_eq, List.contains_iff_mem]
  intro hmem
  obtain ⟨r, hr, hkey⟩ := List.mem_map.mp hmem
  simp only [Prod.mk.injEq] at hkey
  exact h r hr hkey

theorem exactRoutes_replaceRoutes (w : World) (new : List GatewayRoute) (attackerKey : String)
    (publicPort : Int) : exactRoutes (w.replaceRoutes new).routes attackerKey publicPort =
      (exactRoutes w.routes attackerKey publicPort).filter (keeps new) ++
        exactRoutes new attackerKey publicPort := by
  have hroutes : (w.replaceRoutes new).routes = w.routes.filter (keeps new) ++ new := rfl
  rw [hroutes, exactRoutes, List.filter_append, List.filter_comm, ← exactRoutes, ← exactRoutes]

/-- The routes of the latest write stay last while no other one rewrites them. -/
theorem exactRoutes_runCalls {later : List RouteCall} {w : World} {attackerKey : String}
    {publicPort : Int} {kept new : List GatewayRoute}
    (hexact : exactRoutes w.routes attackerKey publicPort = kept ++ new)
    (hnone : ∀ call ∈ later, ¬ call.Writes host attackerKey publicPort)
    (hkeys : ∀ route ∈ new, ∀ call ∈ later,
      ¬ call.Rewrites host route.bindingId route.assetId route.publicPort) :
    ∃ kept', exactRoutes (runCalls host later w).routes attackerKey publicPort = kept' ++ new := by
  induction later using List.reverseRecOn with
  | nil => exact ⟨kept, hexact⟩
  | append_singleton later call ih =>
    obtain ⟨kept', hkept⟩ := ih
      (fun c hc => hnone c (List.mem_append_left _ hc))
      (fun route hroute c hc => hkeys route hroute c (List.mem_append_left _ hc))
    have hlast : call ∈ later ++ [call] := List.mem_append_right _ List.mem_cons_self
    have hnew : new.filter (keeps (call.routes host)) = new := by
      refine List.filter_eq_self.mpr fun route hroute => keeps_of_forall ?_
      intro r hr hkey
      exact hkeys route hroute call hlast ⟨r, hr, hkey⟩
    rw [runCalls_concat, exactRoutes_replaceRoutes, hkept, List.filter_append, hnew,
      exactRoutes_eq_nil.mpr (hnone call hlast), List.append_nil]
    exact ⟨_, rfl⟩

/-- After the latest write of a client for a port, its last route is the client's last one. -/
theorem getLast?_exactRoutes (earlier : List RouteCall) {later : List RouteCall}
    {call : RouteCall} (w : World) {clientIp : String} {publicPort : Int}
    (hwrites : call.Writes host clientIp publicPort)
    (hlater : ∀ c ∈ later, ¬ c.Writes host clientIp publicPort)
    (hkeys : ∀ c ∈ later, ¬ c.Rewrites host call.bindingId call.asset.assetId publicPort) :
    ∃ route ∈ call.routes host, route.attackerKey = clientIp ∧
      (exactRoutes (runCalls host (earlier ++ call :: later) w).routes clientIp
        publicPort).getLast? = some route := by
  have hne : exactRoutes (call.routes host) clientIp publicPort ≠ [] :=
    fun hnil => exactRoutes_eq_nil.mp hnil hwrites
  have hsplit : runCalls host (earlier ++ call :: later) w =
      runCalls host later (runCalls host (earlier ++ [call]) w) := by
    rw [runCalls, runCalls, runCalls, ← List.foldl_append, List.append_assoc,
      List.singleton_append]
  have hwritten := exactRoutes_replaceRoutes (runCalls host earlier w) (call.routes host) clientIp
    publicPort
  rw [← runCalls_concat] at hwritten
  have hnew : ∀ route ∈ exactRoutes (call.routes host) clientIp publicPort, ∀ c ∈ later,
      ¬ c.Rewrites host route.bindingId route.assetId route.publicPort := by
    intro route hroute c hc
    obtain ⟨hroute, -, hport⟩ := mem_exactRoutes.mp hroute
    obtain ⟨-, hbinding, hasset, -⟩ := RouteCall.mem_routes hroute
    rw [hbinding, hasset, hport]
    exact hkeys c hc
  obtain ⟨kept, hkept⟩ := exactRoutes_runCalls hwritten hlater hnew
  have hlast := mem_exactRoutes.mp (List.getLast_mem hne)
  refine ⟨_, hlast.1, hlast.2.1, ?_⟩
  rw [hsplit, hkept, List.getLast?_append_of_ne_nil _ hne, List.getLast?_eq_getLast_of_ne_nil hne]

/-- **The data plane takes a route of the latest write for a client and a port**, as long as no
later one is for the same binding, asset and port; a route of another attacker is taken with the
fallback only, and only where it is the one route of the port. -/
theorem selects_latest_route (host : Host) (calls : List RouteCall) (w : World)
    (clientIp : String) (publicPort : Int) (allowSingleRouteFallback : Bool)
    (hclock : calls.Pairwise fun a b => a.now ≤ b.now) (hw : w.routes = []) :
    (∀ earlier call later, calls = earlier ++ call :: later →
      call.Writes host clientIp publicPort →
      (∀ c ∈ later, ¬ c.Writes host clientIp publicPort) →
      (∀ c ∈ later, ¬ c.Rewrites host call.bindingId call.asset.assetId publicPort) →
      ∃ route ∈ call.routes host, route.attackerKey = clientIp ∧
        selectRoute (runCalls host calls w).routes clientIp publicPort allowSingleRouteFallback =
          some route ∧
        latestRouteForAttackerPort (runCalls host calls w).routes clientIp publicPort =
          some route) ∧
    ((∀ c ∈ calls, ¬ c.Writes host clientIp publicPort) →
      selectRoute (runCalls host calls w).routes clientIp publicPort false = none ∧
        latestRouteForAttackerPort (runCalls host calls w).routes clientIp publicPort = none) ∧
    (∀ route, selectRoute (runCalls host calls w).routes clientIp publicPort
        allowSingleRouteFallback = some route → route.attackerKey ≠ clientIp →
      allowSingleRouteFallback = true ∧
        ((runCalls host calls w).routes.filter fun r => r.publicPort == publicPort) = [route]) := by
  have hsorted : (runCalls host calls w).routes.Pairwise fun a b => a.updatedAt ≤ b.updatedAt :=
    sorted_runCalls hclock hw
  refine ⟨?_, ?_, fun route hselect hother => fallback_of_ne hsorted hselect hother⟩
  · rintro earlier call later rfl hwrites hlater hkeys
    obtain ⟨route, hroute, hattacker, hlast⟩ :=
      getLast?_exactRoutes earlier w hwrites hlater hkeys
    exact ⟨route, hroute, hattacker, selectRoute_exact hsorted hlast _⟩
  · intro hnone
    refine selectRoute_eq_none hsorted (List.eq_nil_iff_forall_not_mem.mpr fun route hroute => ?_)
    obtain ⟨hroute, hattacker, hport⟩ := mem_exactRoutes.mp hroute
    obtain ⟨call, hcall, hroute⟩ := mem_runCalls hw hroute
    exact hnone call hcall ⟨route, hroute, hattacker, hport⟩

end Calls

/-! ### Two attackers -/

/-- A second of the first minute of 2026. -/
def minuteAt (second : Fin 60) : Utc where
  year := 2026
  month := 1
  day := 1
  hour := 0
  minute := 0
  second
  microsecond := 0
  year_mem := by decide
  month_mem := by decide
  day_mem := by decide
  hour_lt := by decide
  minute_lt := by decide
  second_lt := second.isLt
  microsecond_lt := by decide

/-- The portal is started for an attacker. -/
def portalCall (attackerKey bindingId backendHost : String) (second : Fin 60) : RouteCall where
  bindingId
  attackerKey
  asset := { assetId := "internal-portal", exposureType := .internal }
  settings := [("port_mappings", .list [.dict [("host_port", .int 18080),
    ("backend_host", .str backendHost), ("backend_port", .int 80)]])]
  now := minuteAt second

/-- The portal is started, upgraded, and started for another attacker. -/
def portalCalls : List RouteCall :=
  [portalCall "198.51.100.7" "b-1" "portal-static" 1,
    portalCall "198.51.100.7" "b-1" "portal-high" 2,
    portalCall "198.51.100.8" "b-2" "portal-static" 2]

instance (call : RouteCall) (host : Host) (attackerKey : String) (publicPort : Int) :
    Decidable (call.Writes host attackerKey publicPort) :=
  inferInstanceAs (Decidable (∃ route ∈ call.routes host, _))

instance (call : RouteCall) (host : Host) (bindingId assetId : String) (publicPort : Int) :
    Decidable (call.Rewrites host bindingId assetId publicPort) :=
  inferInstanceAs (Decidable (∃ route ∈ call.routes host, _))

/-- The first attacker gets the upgraded portal. -/
theorem upgraded_portal_selected :
    ∃ route ∈ (portalCall "198.51.100.7" "b-1" "portal-high" 2).routes (quietHost []),
      route.attackerKey = "198.51.100.7" ∧
        selectRoute (runCalls (quietHost []) portalCalls {}).routes "198.51.100.7" 18080 false =
          some route ∧
        latestRouteForAttackerPort (runCalls (quietHost []) portalCalls {}).routes "198.51.100.7"
          18080 = some route := by
  have hclock : portalCalls.Pairwise fun a b => a.now ≤ b.now := by decide
  exact (selects_latest_route (quietHost []) portalCalls {} "198.51.100.7" 18080 false hclock
    rfl).1 [portalCall "198.51.100.7" "b-1" "portal-static" 1] _
      [portalCall "198.51.100.8" "b-2" "portal-static" 2] rfl (by decide +kernel)
      (by decide +kernel) (by decide +kernel)

/-- A write for another attacker with the same binding takes the first attacker's route away. -/
theorem key_of_another_attacker : ¬ ∀ calls : List RouteCall,
    calls.Pairwise (fun a b => a.now ≤ b.now) → ∀ clientIp publicPort earlier call later,
      calls = earlier ++ call :: later → call.Writes (quietHost []) clientIp publicPort →
      (∀ c ∈ later, ¬ c.Writes (quietHost []) clientIp publicPort) →
      ∃ route ∈ call.routes (quietHost []), route.attackerKey = clientIp ∧
        selectRoute (runCalls (quietHost []) calls {}).routes clientIp publicPort false =
          some route := by
  intro h
  obtain ⟨route, -, -, hselect⟩ := h
    [portalCall "198.51.100.7" "b-1" "portal-static" 1,
      portalCall "198.51.100.8" "b-1" "portal-static" 2]
    (by decide) "198.51.100.7" 18080 [] (portalCall "198.51.100.7" "b-1" "portal-static" 1)
    [portalCall "198.51.100.8" "b-1" "portal-static" 2] rfl (by decide +kernel) (by decide +kernel)
  have hnone : selectRoute (runCalls (quietHost [])
      [portalCall "198.51.100.7" "b-1" "portal-static" 1,
        portalCall "198.51.100.8" "b-1" "portal-static" 2] {}).routes "198.51.100.7" 18080 false =
      none := by
    decide +kernel
  exact absurd (hselect.symm.trans hnone) (by simp)

end Honeynet.Orchestrator
