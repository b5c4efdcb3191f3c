import Honeynet.AssetGateway.Connection
import Honeynet.Entrypoint.PortalLogin
import Honeynet.System.Attribution

/-!
# The gateway beside the loop

Connections come in, wait and copy while the loop, the orchestrator and the binding service go on
and rewrite the table of routes.

* `GatewayState`, `GatewayStep`: the connections and the files of events beside the stores.
* `Behind`: the answered tick behind a route.
* `Served`, `served_step`: what every step keeps.
* `connections_are_earned`: along every run, what a client sends reaches a backend only where the
  loop has asked to open it for the attacker of the route.
* `lines_are_shuffled`: the files have what the connections have left, each in its order.
-/

namespace Honeynet.System

open AssetGateway Collections Controller Loop Orchestrator Relation

/-! ### Routes -/

/-- A selected route is in the table, on the port; it is one of the client, or the only one. -/
theorem route_of_selectRoute {routes : List GatewayRoute} {clientIp : String} {publicPort : Int}
    {fallback : Bool} {route : GatewayRoute}
    (h : selectRoute routes clientIp publicPort fallback = some route) :
    route ∈ routes ∧ route.publicPort = publicPort ∧ (route.attackerKey = clientIp ∨
      fallback = true ∧ routes.filter (fun r => r.publicPort == publicPort) = [route]) := by
  unfold selectRoute at h
  dsimp only at h
  split at h
  · have hmem := List.mem_of_getLast? h
    rw [List.mem_mergeSort, List.mem_filter, List.mem_filter, beq_iff_eq, beq_iff_eq] at hmem
    exact ⟨hmem.1.1, hmem.1.2, Or.inl hmem.2⟩
  · split at h
    · rename_i hsingle
      obtain ⟨hfallback, hlength⟩ := Bool.and_eq_true_iff.mp hsingle
      obtain ⟨only, honly⟩ := List.length_eq_one_iff.mp (beq_iff_eq.mp hlength)
      rw [honly, List.head?_cons] at h
      obtain rfl := Option.some.inj h
      have hmem : only ∈ routes.filter fun r => r.publicPort == publicPort := by
        rw [honly]
        exact List.mem_cons_self
      rw [List.mem_filter, beq_iff_eq] at hmem
      exact ⟨hmem.1, hmem.2, Or.inr ⟨hfallback, honly⟩⟩
    · exact absurd h (by simp)

variable {F : Type} {opts : LoopOptions} {text : Datetime → String}

/-- **An answered tick behind a route**: it was about the binding of the route and its attacker, and
asked to open the asset of the route, which its gates allowed. -/
structure Behind (opts : LoopOptions) (route : GatewayRoute) (a : Answered F) : Prop where
  about : ∃ r, AskedAbout opts r a ∧ r.bindingId = route.bindingId
  attacker : a.request.attackerKey = route.attackerKey
  asked : ∃ before action after, a.response.actions = before ++ action :: after ∧
    requested action = some route.assetId ∧ Warranted a.controller a.request
      (a.request.unlockedAssetIds ++ before.flatMap ControllerAction.opened) route.assetId

theorem behind_of_route {st : State F} (h : Kept opts st) {route : GatewayRoute}
    (hroute : route ∈ st.world.routes) : ∃ a ∈ st.answered, Behind opts route a := by
  obtain ⟨a, ha, hkey⟩ := earned_of_route h hroute
  obtain ⟨r, habout, hid, -⟩ := ha.about
  exact ⟨a, ha.answered, ⟨r, habout, hid⟩, hkey, ha.asked⟩

/-- Answered ticks are kept. -/
theorem answered_step {st st' : State F} (h : PlainStep opts text st st') :
    st.answered ⊆ st'.answered := by
  cases h with
  | binding => exact List.Subset.refl _
  | prewarm => exact List.Subset.refl _
  | start => exact List.Subset.refl _
  | handle => exact List.subset_append_right _ _
  | finish => exact List.Subset.refl _

/-! ### The gateway and the stores -/

/-- The stores and the loop, the connections, and the lines in the files of events. -/
structure GatewayState (F : Type) where
  state : State F := {}
  connections : List Connection := []
  lines : List Line := []

/-- **One step of everything**: one of the stores and the loop, a connection for which there is a
route, or what can happen to one of the connections. -/
inductive GatewayStep (opts : LoopOptions) (text : Datetime → String) (py : HttpBuiltins)
    (httpPorts : List Int) (fallback : Bool) : GatewayState F → GatewayState F → Prop
  | system (g : GatewayState F) (st : State F) (h : PlainStep opts text g.state st) :
      GatewayStep opts text py httpPorts fallback g { g with state := st }
  | accept (g : GatewayState F) (clientIp : String) (publicPort : Int) (route : GatewayRoute)
      (h : selectRoute g.state.world.routes clientIp publicPort fallback = some route) :
      GatewayStep opts text py httpPorts fallback g { g with
        connections := g.connections ++ [openConnection httpPorts clientIp publicPort route] }
  | turn (g : GatewayState F) (before after : List Connection) (c c' : Connection)
      (hsplit : g.connections = before ++ c :: after) (h : c.Step py c') :
      GatewayStep opts text py httpPorts fallback g { g with
        connections := before ++ c' :: after
        lines := g.lines ++ c'.lines.drop c.lines.length }

/-! ### The invariant -/

/-- The stores are kept, each connection is sound and there is a tick behind its route, and the
files have what the connections have left. -/
structure Served (opts : LoopOptions) (fallback : Bool) (g : GatewayState F) : Prop where
  kept : Kept opts g.state
  sound : ∀ c ∈ g.connections, c.Sound
  reports : ∀ c ∈ g.connections, c.Reports
  behind : ∀ c ∈ g.connections, ∃ a ∈ g.state.answered, Behind opts c.route a
  client : ∀ c ∈ g.connections, c.route.attackerKey = c.clientIp ∨ fallback = true
  lines : g.lines.Perm (g.connections.flatMap Connection.lines)
  order : ∀ c ∈ g.connections, c.lines.Sublist g.lines

variable {py : HttpBuiltins} {httpPorts : List Int} {fallback : Bool} {g g' : GatewayState F}

theorem served_accept (hg : Served opts fallback g) {clientIp : String} {publicPort : Int}
    {route : GatewayRoute}
    (h : selectRoute g.state.world.routes clientIp publicPort fallback = some route) :
    Served opts fallback { g with
      connections := g.connections ++ [openConnection httpPorts clientIp publicPort route] } := by
  obtain ⟨hroute, -, hclient⟩ := route_of_selectRoute h
  have hnil : (openConnection httpPorts clientIp publicPort route).lines = [] := rfl
  have hmem {p : Connection → Prop} (hold : ∀ c ∈ g.connections, p c)
      (hnew : p (openConnection httpPorts clientIp publicPort route)) :
      ∀ c ∈ g.connections ++ [openConnection httpPorts clientIp publicPort route], p c := by
    intro c hc
    rcases List.mem_append.mp hc with hc | hc
    · exact hold c hc
    · exact List.mem_singleton.mp hc ▸ hnew
  refine ⟨hg.kept, ?_, ?_, ?_, ?_, ?_, ?_⟩
  · exact hmem hg.sound (Connection.sound_openConnection _ _ _ _)
  · exact hmem hg.reports (Connection.reports_openConnection _ _ _ _)
  · exact hmem hg.behind (behind_of_route hg.kept hroute)
  · exact hmem hg.client (hclient.imp id And.left)
  · show g.lines.Perm ((g.connections ++ _).flatMap Connection.lines)
    rw [List.flatMap_append, List.flatMap_singleton, hnil, List.append_nil]
    exact hg.lines
  · refine hmem hg.order ?_
    rw [hnil]
    exact List.nil_sublist _

theorem served_turn (hg : Served opts fallback g) {before after : List Connection}
    {c c' : Connection} (hsplit : g.connections = before ++ c :: after) (h : c.Step py c') :
    Served opts fallback { g with
      connections := before ++ c' :: after
      lines := g.lines ++ c'.lines.drop c.lines.length } := by
  have hc : c ∈ g.connections := by
    rw [hsplit]
    exact List.mem_append_right _ List.mem_cons_self
  have hmem {p : Connection → Prop} (hold : ∀ d ∈ g.connections, p d) (hnew : p c') :
      ∀ d ∈ before ++ c' :: after, p d := by
    rw [hsplit] at hold
    intro d hd
    rcases List.mem_append.mp hd with hd | hd
    · exact hold d (List.mem_append_left _ hd)
    · rcases List.mem_cons.mp hd with rfl | hd
      · exact hnew
      · exact hold d (List.mem_append_right _ (List.mem_cons_of_mem _ hd))
  obtain ⟨hroute, hclient⟩ := Connection.route_step h
  obtain ⟨new, hnew⟩ := Connection.lines_step h (hg.sound c hc)
  have hdrop : c'.lines.drop c.lines.length = new := by
    rw [← hnew, List.drop_left]
  refine ⟨hg.kept, ?_, ?_, ?_, ?_, ?_, ?_⟩
  · exact hmem hg.sound (Connection.sound_step h (hg.sound c hc))
  · exact hmem hg.reports (Connection.reports_step h (hg.reports c hc))
  · refine hmem hg.behind ?_
    rw [hroute]
    exact hg.behind c hc
  · refine hmem hg.client ?_
    rw [hroute, hclient]
    exact hg.client c hc
  · show (g.lines ++ c'.lines.drop c.lines.length).Perm
      ((before ++ c' :: after).flatMap Connection.lines)
    have hlines := hg.lines
    rw [hsplit, List.flatMap_append, List.flatMap_cons] at hlines
    rw [hdrop, List.flatMap_append, List.flatMap_cons, ← hnew, List.append_assoc]
    refine (hlines.append_right new).trans ?_
    rw [List.append_assoc, List.append_assoc]
    exact (List.perm_append_comm.append_left c.lines).append_left (before.flatMap Connection.lines)
  · show ∀ d ∈ before ++ c' :: after, d.lines.Sublist (g.lines ++ c'.lines.drop c.lines.length)
    refine hmem (fun d hd => (hg.order d hd).trans (List.sublist_append_left _ _)) ?_
    rw [hdrop, ← hnew]
    exact (hg.order c hc).append (List.Sublist.refl new)

/-- **Every step.** -/
theorem served_step (hstr : ∀ s, opts.str (.str s) = s)
    (h : GatewayStep opts text py httpPorts fallback g g') (hg : Served opts fallback g) :
    Served opts fallback g' := by
  cases h with
  | system st hstep =>
    refine ⟨kept_step hstr hstep hg.kept, hg.sound, hg.reports, ?_, hg.client, hg.lines, hg.order⟩
    intro c hc
    obtain ⟨a, ha, hbehind⟩ := hg.behind c hc
    exact ⟨a, answered_step hstep ha, hbehind⟩
  | accept clientIp publicPort route hroute => exact served_accept hg hroute
  | turn before after c c' hsplit hstep => exact served_turn hg hsplit hstep

theorem served_of_run (hstr : ∀ s, opts.str (.str s) = s)
    (h : ReflTransGen (GatewayStep opts text py httpPorts fallback) {} g) :
    Served opts fallback g := by
  have hinit : Served opts fallback ({} : GatewayState F) :=
    ⟨kept_init, fun _ hc => absurd hc List.not_mem_nil, fun _ hc => absurd hc List.not_mem_nil,
      fun _ hc => absurd hc List.not_mem_nil, fun _ hc => absurd hc List.not_mem_nil,
      List.Perm.refl _, fun _ hc => absurd hc List.not_mem_nil⟩
  exact Transition.invariant_of_step (P := Served opts fallback)
    (fun _ _ hstep => served_step hstr hstep) h hinit

/-! ### Runs -/

/-- **What a client sends reaches only what was opened**: along every run, whatever goes on beside
a connection, the loop was allowed to ask for its asset for the attacker of its route, who is the
client where there is no fallback; the backend gets what was read from the client, in order, after
it has passed the observer, and nothing of a login that the gateway has answered. -/
theorem connections_are_earned (hstr : ∀ s, opts.str (.str s) = s)
    (h : ReflTransGen (GatewayStep opts text py httpPorts fallback) {} g) {c : Connection}
    (hc : c ∈ g.connections) : c.Transparent ∧
      (∃ a ∈ g.state.answered, Behind opts c.route a) ∧
      (c.route.attackerKey = c.clientIp ∨ fallback = true) := by
  have hserved := served_of_run hstr h
  exact ⟨(hserved.sound c hc).transparent, hserved.behind c hc, hserved.client c hc⟩

/-- **The files have what the connections have left**: along every run, however the connections
take turns, no line is lost, written twice or made up, the lines of a connection are in its order,
and each is about the attacker and the asset of the route. -/
theorem lines_are_shuffled (hstr : ∀ s, opts.str (.str s) = s)
    (h : ReflTransGen (GatewayStep opts text py httpPorts fallback) {} g) :
    g.lines.Perm (g.connections.flatMap Connection.lines) ∧
      ∀ c ∈ g.connections, c.lines.Sublist g.lines ∧
        ∀ line ∈ c.lines, line.About c.route.attackerKey c.route.assetId := by
  have hserved := served_of_run hstr h
  refine ⟨hserved.lines, ?_⟩
  intro c hc
  exact ⟨hserved.order c hc, fun line hline => Connection.about_lines (hserved.reports c hc) hline⟩

/-! ### A visit to the portal -/

/-- A request for the front page. -/
def frontPage : Received :=
  ⟨"GET / HTTP/1.1\r\nHost: portal\r\n\r\n".toList.map fun c => UInt8.ofNat c.toNat,
    "2026-04-18T12:00:00Z"⟩

def frontRequest : ParsedHttpRequest where
  method := "GET"
  path := "/"
  queryString := ""
  headers := [("host", "portal")]

/-- It is reported and not answered. -/
theorem observeHttp_frontPage (route : GatewayRoute) :
    observeHttp Entrypoint.plainBuiltins route frontPage.data =
      .ok ⟨some (internalHttpPayload route route.attackerKey frontRequest), none⟩ := by
  have hfields : ((parseHttpRequest Entrypoint.plainBuiltins frontPage.data).toOption.bind id).map
      (fun p => ((p.method, p.path, p.queryString), p.headers, p.bodyPreview, p.bodyTruncated)) =
        some (("GET", "/", ""), [("host", "portal")], none, false) := by decide +kernel
  have hparse : parseHttpRequest Entrypoint.plainBuiltins frontPage.data =
      .ok (some frontRequest) := by
    cases hparse : parseHttpRequest Entrypoint.plainBuiltins frontPage.data with
    | error e =>
      rw [hparse] at hfields
      exact absurd hfields (by simp [Except.toOption])
    | ok request =>
      rw [hparse] at hfields
      obtain ⟨parsed, hparsed, hsame⟩ := Option.map_eq_some_iff.mp hfields
      obtain rfl : request = some parsed := hparsed
      obtain ⟨method, path, queryString, headers, bodyPreview, bodyTruncated⟩ := parsed
      obtain ⟨⟨rfl, rfl, rfl⟩, rfl, rfl, rfl⟩ := by simpa only [Prod.mk.injEq] using hsame
      rfl
  have hunanswered : internalPortalSessionResult Entrypoint.plainBuiltins frontRequest route =
      .ok none := by
    unfold internalPortalSessionResult
    rw [if_pos (Or.inl (by decide)), ite_self]
  unfold observeHttp
  rw [hparse]
  show (internalPortalSessionResult Entrypoint.plainBuiltins frontRequest route >>= _) = _
  rw [hunanswered]
  rfl

/-- The gateway beside the loop, where the portal's port is one of an HTTP asset. -/
abbrev PortalStep : GatewayState Rat → GatewayState Rat → Prop :=
  GatewayStep portalOptions (fun _ => "") Entrypoint.plainBuiltins [18080] false

/-- What the loop does beside it is a run of the whole. -/
theorem run_system {st : State Rat}
    (h : ReflTransGen (PlainStep portalOptions fun _ => "") {} st) :
    ReflTransGen PortalStep {} { state := st } := by
  induction h with
  | refl => exact .refl
  | tail _ hlast ih => exact ih.tail (.system _ _ hlast)

/-- The attacker opens the front page of the portal. -/
theorem run_visit : ∃ (g : GatewayState Rat) (c : Connection), ReflTransGen PortalStep {} g ∧
    g.connections = [c] ∧ c.route.assetId = "internal-portal" ∧
      c.route.attackerKey = "198.51.100.7" ∧ c.sent = frontPage.data ∧
        c.reported = some (internalHttpPayload c.route c.route.attackerKey frontRequest) := by
  have hselected : (selectRoute docked.world.routes "198.51.100.7" 18080 false).map
      GatewayRoute.assetId = some "internal-portal" := by decide +kernel
  obtain ⟨route, hroute, hasset⟩ := Option.map_eq_some_iff.mp hselected
  have hattacker : route.attackerKey = "198.51.100.7" :=
    (route_of_selectRoute hroute).2.2.resolve_right fun h => Bool.false_ne_true h.1
  have hturn := observeHttp_frontPage route
  let opened := openConnection [18080] "198.51.100.7" 18080 route
  let read : Connection := { opened with
    reads := [frontPage.data]
    reported := some (internalHttpPayload route route.attackerKey frontRequest)
    phase := .connecting frontPage.data false }
  have hsource : highInteractionSource route.assetId = "" := by
    rw [hasset]
    rfl
  have hpeek : opened.peek Entrypoint.plainBuiltins frontPage = .ok read :=
    @Connection.peek_unanswered _ opened frontPage _ hturn rfl hsource
  let accepted : GatewayState Rat := { state := docked, connections := [opened] }
  let peeked : GatewayState Rat := { state := docked, connections := [read], lines := read.lines }
  have haccepted : PortalStep { state := docked } accepted :=
    .accept _ "198.51.100.7" 18080 route hroute
  have hread : PortalStep accepted peeked :=
    .turn accepted [] [] opened read rfl (.peek _ _ frontPage rfl hpeek)
  have hsent := @GatewayStep.turn Rat portalOptions (fun _ => "") Entrypoint.plainBuiltins [18080]
    false peeked [] [] read (read.connect frontPage.data false "") rfl
      (.connect read frontPage.data false "" rfl)
  refine ⟨_, read.connect frontPage.data false "",
    (((run_system run_docked).tail haccepted).tail hread).tail hsent, rfl, hasset, hattacker, rfl,
    rfl⟩

/-- **The page is of an asset the loop was allowed to open.** -/
theorem visit_earned : ∃ (g : GatewayState Rat) (c : Connection), ReflTransGen PortalStep {} g ∧
    c ∈ g.connections ∧ c.sent = frontPage.data ∧
      ∃ a ∈ g.state.answered, Behind portalOptions c.route a := by
  obtain ⟨g, c, hrun, hconnections, -, -, hsent, -⟩ := run_visit
  have hc : c ∈ g.connections := by
    rw [hconnections]
    exact List.mem_cons_self
  exact ⟨g, c, hrun, hc, hsent, (connections_are_earned (fun _ => rfl) hrun hc).2.1⟩

/-- **The request is in the files.** -/
theorem visit_reported : ∃ (g : GatewayState Rat) (line : Line), ReflTransGen PortalStep {} g ∧
    line ∈ g.lines ∧ ∃ c ∈ g.connections, line.About c.route.attackerKey "internal-portal" := by
  obtain ⟨g, c, hrun, hconnections, hasset, -, -, hreported⟩ := run_visit
  have hc : c ∈ g.connections := by
    rw [hconnections]
    exact List.mem_cons_self
  have hne : c.lines ≠ [] := by
    unfold Connection.lines
    rw [hreported]
    exact List.cons_ne_nil _ _
  obtain ⟨line, hline⟩ := List.exists_mem_of_ne_nil _ hne
  obtain ⟨horder, habout⟩ := (lines_are_shuffled (fun _ => rfl) hrun).2 c hc
  exact ⟨g, line, hrun, horder.subset hline, c, hc, hasset ▸ habout line hline⟩

end Honeynet.System
