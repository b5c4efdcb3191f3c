import Honeynet.AssetGateway.Chunks
import Honeynet.AssetGateway.Portal

/-!
# A connection through the gateway

On the port of an HTTP asset a connection waits for its first chunk.  It connects to its backend
and copies in both directions, each on its own, and what the client sends passes the observer of
the route.

* `openConnection`, `Connection.peek`, `Connection.connect`: what is done between two waits.
* `Connection.Step`: what can happen to a connection.
* `Connection.lines`: what it has left in the files of events.
* `Transparent`, `sound_step`: a backend gets what was read, in order, and what has passed the
  observer; of a login that was answered it gets nothing.
-/

namespace Honeynet.AssetGateway

open Collections Orchestrator Relation Text

/-! ### What is reported -/

def highInteractionServices : Dict Int String :=
  [(18085, "http"), (1445, "smb"), (11433, "mssql"), (12122, "ftp"), (19999, "tcp")]

def highInteractionService (publicPort : Int) : String :=
  (highInteractionServices.get? publicPort).getD "tcp"

/-- A line of `high_interaction_events.jsonl`, for a chunk that is not empty. -/
def reportHighInteractionProbe (origin : Origin) (source : String) (data : List UInt8) :
    List Settings :=
  if data = [] then []
  else [[("source", .str source), ("asset_id", .str origin.route.assetId),
    ("attacker_key", .str origin.clientIp), ("src_host", .str origin.clientIp),
    ("dst_host", .str origin.route.backendHost), ("dst_port", .int origin.route.backendPort),
    ("service", .str (highInteractionService origin.route.publicPort)),
    ("event_type", .str "tcp.probe"), ("ts", .str origin.now),
    ("message", .str (String.ofList (decode (data.take 256)))), ("bytes", .int data.length),
    ("public_port", .int origin.route.publicPort)]]

/-- A line of one of the files of events. -/
inductive Line
  | http (payload : Settings)
  | protocol (event : ProtocolEvent)
  | interaction (payload : Settings)

/-- What the observer of a route appends for a chunk. -/
def observerLines (origin : Origin) (data : List UInt8) : List Line :=
  match protocolObserver origin.route with
  | none => []
  | some (.highInteraction source) =>
    (reportHighInteractionProbe origin source data).map .interaction
  | some observer => (observer.report origin data).map .protocol

/-! ### Connections -/

/-- Where `_handle_connection` waits: for the first chunk, for the backend, or for what is to be
copied in the directions that are open. -/
inductive Phase
  | peeking
  | connecting (held : List UInt8) (observed : Bool)
  | piping (up down : Bool)
  | ended

/-- A connection with what has become of it: the chunks read from the client, those of them that
have passed the observer, and the bytes written to the backend and read from it. -/
structure Connection where
  clientIp : String
  publicPort : Int
  route : GatewayRoute
  phase : Phase
  reads : List (List UInt8) := []
  reported : Option Settings := none
  answered : Option InternalPortalSessionResult := none
  passed : List Received := []
  sent : List UInt8 := []
  returned : List UInt8 := []

/-- A connection for which there is a route. -/
def openConnection (httpPorts : List Int) (clientIp : String) (publicPort : Int)
    (route : GatewayRoute) : Connection where
  clientIp
  publicPort
  route
  phase := if publicPort ∈ httpPorts then .peeking else .connecting [] false

namespace Connection

/-- A chunk passes the observer, if there is one. -/
def pass (c : Connection) (r : Received) : Connection := { c with passed := c.passed ++ [r] }

/-- The first read of a client on the port of an HTTP asset, which returns nothing when it takes
too long. -/
def peek (py : HttpBuiltins) (c : Connection) (r : Received) : Except PyError Connection := do
  let turn ← observeHttp py c.route r.data
  let c := { c with reads := [r.data], reported := turn.reported, answered := turn.answered }
  if turn.answered.isSome then return { c with phase := .ended }
  else if r.data ≠ [] ∧ (protocolObserver c.route).isSome ∧
      highInteractionSource c.route.assetId ≠ "" then
    return { c.pass r with phase := .connecting r.data true }
  else return { c with phase := .connecting r.data false }

/-- The backend is there, and gets what was read already. -/
def connect (c : Connection) (held : List UInt8) (observed : Bool) (now : String) : Connection :=
  if held = [] then { c with phase := .piping true true }
  else
    let c := if observed then c else c.pass ⟨held, now⟩
    { c with sent := held, phase := .piping true true }

/-- **What can happen to a connection**: its first chunk is handled or raises, its backend is there
or not, a chunk is copied in an open direction, or a direction ends. -/
inductive Step (py : HttpBuiltins) : Connection → Connection → Prop
  | peek (c c' : Connection) (r : Received) (hphase : c.phase = .peeking)
      (h : c.peek py r = .ok c') : Step py c c'
  | raised (c : Connection) (r : Received) (e : PyError) (hphase : c.phase = .peeking)
      (h : c.peek py r = .error e) : Step py c { c with reads := [r.data], phase := .ended }
  | connect (c : Connection) (held : List UInt8) (observed : Bool) (now : String)
      (hphase : c.phase = .connecting held observed) : Step py c (c.connect held observed now)
  | refused (c : Connection) (held : List UInt8) (observed : Bool)
      (hphase : c.phase = .connecting held observed) : Step py c { c with phase := .ended }
  | up (c : Connection) (r : Received) (down : Bool) (hphase : c.phase = .piping true down)
      (hdata : r.data ≠ []) :
      Step py c { c.pass r with reads := c.reads ++ [r.data], sent := c.sent ++ r.data }
  | down (c : Connection) (data : List UInt8) (up : Bool) (hphase : c.phase = .piping up true) :
      Step py c { c with returned := c.returned ++ data }
  | upEnds (c : Connection) (down : Bool) (hphase : c.phase = .piping true down) :
      Step py c { c with phase := if down then .piping false true else .ended }
  | downEnds (c : Connection) (up : Bool) (hphase : c.phase = .piping up true) :
      Step py c { c with phase := if up then .piping true false else .ended }

/-- What a chunk leaves that passes the observer of the connection. -/
def linesOf (c : Connection) (r : Received) : List Line :=
  observerLines ⟨c.route, c.route.attackerKey, r.now⟩ r.data

/-- What the connection has left in the files of events. -/
def lines (c : Connection) : List Line :=
  c.reported.toList.map Line.http ++ c.passed.flatMap c.linesOf

/-! ### What reaches the backend -/

/-- **The backend gets what was read**, in order and whole unless it gets nothing, and what has
passed the observer; it gets nothing of a login that was answered. -/
structure Transparent (c : Connection) : Prop where
  passed : c.sent <+: c.passed.flatMap Received.data
  read : c.passed.flatMap Received.data <+: c.reads.flatten
  whole : c.sent = [] ∨ c.sent = c.reads.flatten
  answered : c.answered ≠ none → c.sent = [] ∧ c.returned = [] ∧ c.passed = []

/-- Everything that was read has been passed on. -/
structure Copied (c : Connection) : Prop where
  answered : c.answered = none
  sent : c.sent = c.reads.flatten
  passed : c.passed.flatMap Received.data = c.reads.flatten

/-- Nothing has been passed on, and all that has passed the observer is what was read first. -/
structure Waiting (c : Connection) : Prop where
  sent : c.sent = []
  returned : c.returned = []
  passed : c.passed = [] ∨ c.passed.flatMap Received.data = c.reads.flatten
  answered : c.answered ≠ none → c.passed = []

/-- Where a connection is says what has become of it. -/
def Sound (c : Connection) : Prop :=
  match c.phase with
  | .peeking => Waiting c ∧ c.reads = [] ∧ c.passed = [] ∧ c.reported = none ∧ c.answered = none
  | .connecting held observed => Waiting c ∧ c.reads.flatten = held ∧ c.answered = none ∧
      (observed = true → c.passed.flatMap Received.data = held) ∧ (observed = false → c.passed = [])
  | .piping _ _ => Copied c
  | .ended => Copied c ∨ Waiting c

variable {py : HttpBuiltins} {c c' : Connection}

theorem sound_openConnection (httpPorts : List Int) (clientIp : String) (publicPort : Int)
    (route : GatewayRoute) : Sound (openConnection httpPorts clientIp publicPort route) := by
  have hwaiting : Waiting (openConnection httpPorts clientIp publicPort route) :=
    ⟨rfl, rfl, Or.inl rfl, fun _ => rfl⟩
  by_cases hport : publicPort ∈ httpPorts
  · have hphase : (openConnection httpPorts clientIp publicPort route).phase = .peeking :=
      if_pos hport
    unfold Sound
    rw [hphase]
    exact ⟨hwaiting, rfl, rfl, rfl, rfl⟩
  · have hphase : (openConnection httpPorts clientIp publicPort route).phase =
        .connecting [] false := if_neg hport
    unfold Sound
    rw [hphase]
    exact ⟨hwaiting, rfl, rfl, fun h => absurd h (by simp), fun _ => rfl⟩

theorem sound_peek {r : Received} (hc : Sound c) (hphase : c.phase = .peeking)
    (h : c.peek py r = .ok c') : Sound c' := by
  unfold Sound at hc
  rw [hphase] at hc
  obtain ⟨hwaiting, -, hpassed, -, -⟩ := hc
  obtain ⟨turn, -, h⟩ := Fallible.bind_eq_ok.mp h
  dsimp only at h
  split at h
  · obtain rfl := Except.ok.inj h
    exact Or.inr ⟨hwaiting.sent, hwaiting.returned, Or.inl hpassed, fun _ => hpassed⟩
  · rename_i hnone
    have hnone : turn.answered = none := by simpa using hnone
    split at h
    · obtain rfl := Except.ok.inj h
      have hdata : (c.passed ++ [r]).flatMap Received.data = [r.data].flatten := by
        rw [hpassed]
        simp
      exact ⟨⟨hwaiting.sent, hwaiting.returned, Or.inr hdata, fun hne => absurd hnone hne⟩,
        List.append_nil _, hnone, fun _ => hdata.trans (List.append_nil _),
        fun hfalse => absurd hfalse (by simp)⟩
    · obtain rfl := Except.ok.inj h
      exact ⟨⟨hwaiting.sent, hwaiting.returned, Or.inl hpassed, fun _ => hpassed⟩,
        List.append_nil _, hnone, fun htrue => absurd htrue (by simp), fun _ => hpassed⟩

/-- A first chunk that is not answered waits for the backend. -/
theorem peek_unanswered {r : Received} {turn : HttpTurn}
    (h : observeHttp py c.route r.data = .ok turn) (hnone : turn.answered = none)
    (hsource : highInteractionSource c.route.assetId = "") :
    c.peek py r = .ok { c with
      reads := [r.data]
      reported := turn.reported
      answered := none
      phase := .connecting r.data false } := by
  have hunanswered : ¬ turn.answered.isSome = true := by
    rw [hnone]
    simp
  have hplain : ¬ (r.data ≠ [] ∧ (protocolObserver c.route).isSome ∧
      highInteractionSource c.route.assetId ≠ "") := fun h => h.2.2 hsource
  unfold peek
  rw [h]
  dsimp only [bind, Except.bind]
  rw [if_neg hunanswered, if_neg hplain, hnone]
  rfl

theorem sound_connect {held : List UInt8} {observed : Bool} (hc : Sound c)
    (hphase : c.phase = .connecting held observed) (now : String) :
    Sound (c.connect held observed now) := by
  unfold Sound at hc
  rw [hphase] at hc
  obtain ⟨hwaiting, hreads, hanswered, hseen, hunseen⟩ := hc
  unfold connect
  split
  · rename_i hheld
    have hpassed : c.passed.flatMap Received.data = c.reads.flatten := by
      rcases hwaiting.passed with hnil | hall
      · rw [hnil, hreads, hheld]
        rfl
      · exact hall
    exact ⟨hanswered, hwaiting.sent.trans (hreads.trans hheld).symm, hpassed⟩
  · cases observed with
    | true => exact ⟨hanswered, hreads.symm, (hseen rfl).trans hreads.symm⟩
    | false =>
      refine ⟨hanswered, hreads.symm, ?_⟩
      show (c.passed ++ [(⟨held, now⟩ : Received)]).flatMap Received.data = c.reads.flatten
      rw [hunseen rfl, hreads]
      simp

theorem Sound.copied {up down : Bool} (h : Sound c) (hphase : c.phase = .piping up down) :
    Copied c := by
  unfold Sound at h
  rw [hphase] at h
  exact h

theorem sound_of_copied {up down : Bool} (hphase : c.phase = .piping up down) (h : Copied c) :
    Sound c := by
  unfold Sound
  rw [hphase]
  exact h

/-- **Every step.** -/
theorem sound_step (h : Step py c c') (hc : Sound c) : Sound c' := by
  cases h with
  | peek _ r hphase hpeek => exact sound_peek hc hphase hpeek
  | raised r e hphase =>
    unfold Sound at hc
    rw [hphase] at hc
    obtain ⟨hwaiting, -, hpassed, -, -⟩ := hc
    exact Or.inr ⟨hwaiting.sent, hwaiting.returned, Or.inl hpassed, fun _ => hpassed⟩
  | connect held observed now hphase => exact sound_connect hc hphase now
  | refused held observed hphase =>
    unfold Sound at hc
    rw [hphase] at hc
    exact Or.inr ⟨hc.1.sent, hc.1.returned, hc.1.passed, hc.1.answered⟩
  | up r down hphase hdata =>
    have hcopied := hc.copied hphase
    refine sound_of_copied hphase ⟨hcopied.answered, ?_, ?_⟩
    · show c.sent ++ r.data = (c.reads ++ [r.data]).flatten
      rw [hcopied.sent, List.flatten_append, List.flatten_singleton]
    · show (c.passed ++ [r]).flatMap Received.data = (c.reads ++ [r.data]).flatten
      rw [List.flatMap_append, hcopied.passed, List.flatten_append, List.flatten_singleton,
        List.flatMap_singleton]
  | down data up hphase =>
    have hcopied := hc.copied hphase
    exact sound_of_copied hphase ⟨hcopied.answered, hcopied.sent, hcopied.passed⟩
  | upEnds down hphase =>
    have hcopied := hc.copied hphase
    cases down with
    | true => exact ⟨hcopied.answered, hcopied.sent, hcopied.passed⟩
    | false => exact Or.inl ⟨hcopied.answered, hcopied.sent, hcopied.passed⟩
  | downEnds up hphase =>
    have hcopied := hc.copied hphase
    cases up with
    | true => exact ⟨hcopied.answered, hcopied.sent, hcopied.passed⟩
    | false => exact Or.inl ⟨hcopied.answered, hcopied.sent, hcopied.passed⟩

theorem Copied.transparent (h : Copied c) : Transparent c where
  passed := (h.sent.trans h.passed.symm) ▸ List.prefix_rfl
  read := h.passed ▸ List.prefix_rfl
  whole := Or.inr h.sent
  answered hne := absurd h.answered hne

theorem Waiting.transparent (h : Waiting c) : Transparent c where
  passed := by
    rw [h.sent]
    exact List.nil_prefix
  read := by
    rcases h.passed with hnil | hall
    · rw [hnil]
      exact List.nil_prefix
    · rw [hall]
  whole := Or.inl h.sent
  answered hne := ⟨h.sent, h.returned, h.answered hne⟩

theorem Sound.transparent (h : Sound c) : Transparent c := by
  unfold Sound at h
  split at h
  · exact h.1.transparent
  · exact h.1.transparent
  · exact h.transparent
  · exact h.elim Copied.transparent Waiting.transparent

/-! ### What is left in the files -/

/-- A step keeps who is connected, and to what. -/
theorem route_step (h : Step py c c') : c'.route = c.route ∧ c'.clientIp = c.clientIp := by
  cases h with
  | peek _ r hphase hpeek =>
    obtain ⟨turn, -, h⟩ := Fallible.bind_eq_ok.mp hpeek
    dsimp only at h
    split at h
    · obtain rfl := Except.ok.inj h
      exact ⟨rfl, rfl⟩
    · split at h
      · obtain rfl := Except.ok.inj h
        exact ⟨rfl, rfl⟩
      · obtain rfl := Except.ok.inj h
        exact ⟨rfl, rfl⟩
  | connect held observed now hphase =>
    unfold connect
    split
    · exact ⟨rfl, rfl⟩
    · cases observed <;> exact ⟨rfl, rfl⟩
  | raised => exact ⟨rfl, rfl⟩
  | refused => exact ⟨rfl, rfl⟩
  | up => exact ⟨rfl, rfl⟩
  | down => exact ⟨rfl, rfl⟩
  | upEnds => exact ⟨rfl, rfl⟩
  | downEnds => exact ⟨rfl, rfl⟩

theorem lines_pass (c : Connection) (r : Received) : (c.pass r).lines = c.lines ++ c.linesOf r := by
  show c.reported.toList.map Line.http ++ (c.passed ++ [r]).flatMap c.linesOf = _
  rw [List.flatMap_append, List.flatMap_singleton, ← List.append_assoc]
  rfl

/-- **A step adds to what is left in the files.** -/
theorem lines_step (h : Step py c c') (hc : Sound c) : c.lines <+: c'.lines := by
  cases h with
  | peek _ r hphase hpeek =>
    unfold Sound at hc
    rw [hphase] at hc
    obtain ⟨-, -, hpassed, hreported, -⟩ := hc
    have hnil : c.lines = [] := by
      unfold lines
      rw [hpassed, hreported]
      rfl
    rw [hnil]
    exact List.nil_prefix
  | connect held observed now hphase =>
    unfold connect
    split
    · exact List.prefix_rfl
    · cases observed with
      | true => exact List.prefix_rfl
      | false =>
        show c.lines <+: (c.pass ⟨held, now⟩).lines
        rw [lines_pass]
        exact List.prefix_append _ _
  | up r down hphase hdata =>
    show c.lines <+: (c.pass r).lines
    rw [lines_pass]
    exact List.prefix_append _ _
  | raised => exact List.prefix_rfl
  | refused => exact List.prefix_rfl
  | down => exact List.prefix_rfl
  | upEnds => exact List.prefix_rfl
  | downEnds => exact List.prefix_rfl

/-- What is reported is a request on the route of the connection. -/
def Reports (c : Connection) : Prop :=
  ∀ payload ∈ c.reported, ∃ parsed : ParsedHttpRequest,
    parsed.method ∈ httpMethods ∧ parsed.path ≠ "" ∧
      payload = internalHttpPayload c.route c.route.attackerKey parsed

theorem reports_openConnection (httpPorts : List Int) (clientIp : String) (publicPort : Int)
    (route : GatewayRoute) : Reports (openConnection httpPorts clientIp publicPort route) :=
  fun _ h => absurd h (by simp [openConnection])

theorem reports_step (h : Step py c c') (hc : Reports c) : Reports c' := by
  cases h with
  | peek _ r hphase hpeek =>
    obtain ⟨turn, hturn, h⟩ := Fallible.bind_eq_ok.mp hpeek
    have hreports : Reports { c with
        reads := [r.data], reported := turn.reported, answered := turn.answered } :=
      fun _ hpayload => report_of_observeHttp hturn hpayload
    dsimp only at h
    split at h
    · obtain rfl := Except.ok.inj h
      exact hreports
    · split at h
      · obtain rfl := Except.ok.inj h
        exact hreports
      · obtain rfl := Except.ok.inj h
        exact hreports
  | connect held observed now hphase =>
    unfold connect
    split
    · exact hc
    · cases observed <;> exact hc
  | raised => exact hc
  | refused => exact hc
  | up => exact hc
  | down => exact hc
  | upEnds => exact hc
  | downEnds => exact hc

end Connection

/-- **Whom a line is about**, and which asset. -/
def Line.About (attackerKey assetId : String) : Line → Prop
  | http payload =>
    payload.get "attacker_key" = .str attackerKey ∧ payload.get "asset_id" = .str assetId
  | protocol event => event.srcHost = attackerKey ∧ event.nodeId = "asset-gateway-" ++ assetId
  | interaction payload =>
    payload.get "attacker_key" = .str attackerKey ∧ payload.get "asset_id" = .str assetId

section About

variable {origin : Origin} {data : List UInt8} {event : ProtocolEvent}

/-- The event of some logdata. -/
def EventOf (origin : Origin) (event : ProtocolEvent) : Prop :=
  ∃ logtype logdata, event = protocolEvent origin logtype logdata

theorem eventOf_simple {service : String} {logtype : ℕ} {commands : List String} {extra : Settings}
    (h : event ∈ reportSimpleProtocolEvent origin service logtype commands extra data) :
    EventOf origin event := by
  unfold reportSimpleProtocolEvent at h
  split at h
  · exact absurd h List.not_mem_nil
  · exact ⟨_, _, List.mem_singleton.mp h⟩

theorem eventOf_report {observer : Observer} (h : event ∈ observer.report origin data) :
    EventOf origin event := by
  cases observer with
  | mail protocol =>
    cases protocol with
    | smtp =>
      have h : event ∈ reportSmtpCommands origin data := h
      unfold reportSmtpCommands at h
      dsimp only at h
      split at h
      · exact absurd h List.not_mem_nil
      · exact ⟨_, _, List.mem_singleton.mp h⟩
    | ftp =>
      have h : event ∈ reportFtpCommands origin data := h
      unfold reportFtpCommands at h
      dsimp only at h
      split at h
      · exact absurd h List.not_mem_nil
      · exact ⟨_, _, List.mem_singleton.mp h⟩
  | redis => exact eventOf_simple h
  | git =>
    have h : event ∈ reportGitProtocolEvent origin data := h
    unfold reportGitProtocolEvent at h
    dsimp only at h
    split at h
    · exact absurd h List.not_mem_nil
    · exact eventOf_simple h
  | mysql => exact eventOf_simple h
  | login protocol =>
    cases protocol with
    | ssh => exact eventOf_simple h
    | telnet => exact eventOf_simple h
  | highInteraction source => exact absurd h List.not_mem_nil

/-- What an observer appends is about the client and the asset of its route. -/
theorem about_observerLines {line : Line} (h : line ∈ observerLines origin data) :
    line.About origin.clientIp origin.route.assetId := by
  unfold observerLines at h
  split at h
  · exact absurd h List.not_mem_nil
  · obtain ⟨payload, hpayload, rfl⟩ := List.mem_map.mp h
    unfold reportHighInteractionProbe at hpayload
    split at hpayload
    · exact absurd hpayload List.not_mem_nil
    · obtain rfl := List.mem_singleton.mp hpayload
      exact ⟨rfl, rfl⟩
  · obtain ⟨event, hevent, rfl⟩ := List.mem_map.mp h
    obtain ⟨logtype, logdata, rfl⟩ := eventOf_report hevent
    exact ⟨rfl, rfl⟩

end About

/-- **What a connection leaves is about the attacker of its route**, and the asset. -/
theorem Connection.about_lines {c : Connection} (hc : Reports c) {line : Line}
    (h : line ∈ c.lines) : line.About c.route.attackerKey c.route.assetId := by
  rcases List.mem_append.mp h with h | h
  · obtain ⟨payload, hpayload, rfl⟩ := List.mem_map.mp h
    obtain ⟨parsed, -, -, rfl⟩ := hc payload (Option.mem_toList.mp hpayload)
    exact ⟨rfl, rfl⟩
  · obtain ⟨r, -, hline⟩ := List.mem_flatMap.mp h
    exact about_observerLines hline

end Honeynet.AssetGateway
