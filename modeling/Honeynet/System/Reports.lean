import Honeynet.Entrypoint.Intake
import Honeynet.System.Gateway

/-!
# The reports of the gateway at the entrypoint

The gateway appends its reports to a file, a forwarder follows the file and posts what it reads, and
the entrypoint stores an observation of what reaches it.

* `WireText`: what is read of the text that was written for a report.
* `forwardReports`: what the forwarder makes of the lines it is handed.
* `Observed`: what has come of the reports.
* `reports_are_observed`: along every run, a report leaves at most one observation, which is about
  the attacker and the asset of a route that the loop has asked for, and one where its POST is
  counted; every report is posted in the end, unless a POST raises.
-/

namespace Honeynet.System

open AssetGateway Collections Controller Entrypoint Forwarders Loop Orchestrator Relation Text

/-! ### The file of reports -/

/-- The report in a line, which goes to `internal_http_events.jsonl`. -/
def report : Line → Option Settings
  | .http payload => some payload
  | _ => none

def reportsOf (lines : List Line) : List Settings := lines.filterMap report

/-- The line that is appended for a report; `dumps` is `json.dumps` with sorted keys. -/
def written (dumps : Settings → List Char) (payload : Settings) : List Char :=
  dumps payload ++ ['\n']

/-- **A report is written as an object on one line**, and that is what is read. -/
structure WireText (dumps : Settings → List Char) (loads : List Char → Except PyError Value)
    (payload : Settings) : Prop where
  object : ∃ body, dumps payload = '{' :: (body ++ ['}'])
  line : '\n' ∉ dumps payload
  read : ∃ read, loads (dumps payload) = .ok (.dict read) ∧ ReadBack payload read

section Wire

variable {dumps : Settings → List Char} {loads : List Char → Except PyError Value}
  {payload : Settings}

theorem strip_written (h : WireText dumps loads payload) :
    strip (written dumps payload) = dumps payload := by
  obtain ⟨body, hbody⟩ := h.object
  have hopen : isSpace '{' = false := by decide
  have hclose : isSpace '}' = false := by decide
  have hbreak : isSpace '\n' = true := by decide
  unfold strip written
  rw [hbody, List.cons_append, List.dropWhile_cons_of_neg (by simp [hopen])]
  simp [hclose, hbreak]

theorem isLine_written (h : WireText dumps loads payload) :
    Lines.IsLine '\n' (written dumps payload) := ⟨dumps payload, h.line, rfl⟩

/-- The object in the line of a report. -/
theorem iterJsonObject_written (h : WireText dumps loads payload) :
    ∃ read, iterJsonObject loads (written dumps payload) = .ok (some read) ∧
      ReadBack payload read := by
  obtain ⟨read, hread, hback⟩ := h.read
  obtain ⟨body, hbody⟩ := h.object
  refine ⟨read, ?_, hback⟩
  unfold iterJsonObject
  rw [strip_written h]
  dsimp only
  rw [if_neg (by simp [hbody]), hread]

/-- What is read of the lines of some reports. -/
theorem read_written {payloads : List Settings} (h : ∀ p ∈ payloads, WireText dumps loads p) :
    ∃ read, List.Forall₂ ReadBack payloads read ∧ List.Forall₂ (fun line event =>
      iterJsonObject loads line = .ok event) (payloads.map (written dumps)) (read.map some) := by
  induction payloads with
  | nil => exact ⟨[], .nil, .nil⟩
  | cons p payloads ih =>
    obtain ⟨line, hline, hback⟩ := iterJsonObject_written (h p List.mem_cons_self)
    obtain ⟨read, hread, hlines⟩ := ih fun q hq => h q (List.mem_cons_of_mem p hq)
    exact ⟨line :: read, .cons hback hread, .cons hline hlines⟩

end Wire

/-! ### The reports of a run -/

section Run

variable {F : Type} {opts : LoopOptions} {text : Datetime → String} {py : HttpBuiltins}
  {httpPorts : List Int} {fallback : Bool} {g : GatewayState F}

theorem report_observerLines {origin : Origin} {data : List UInt8} {line : Line}
    (h : line ∈ observerLines origin data) : report line = none := by
  unfold observerLines at h
  split at h
  · exact absurd h List.not_mem_nil
  · obtain ⟨payload, -, rfl⟩ := List.mem_map.mp h
    rfl
  · obtain ⟨event, -, rfl⟩ := List.mem_map.mp h
    rfl

/-- The reports of a connection. -/
theorem reportsOf_lines (c : Connection) : reportsOf c.lines = c.reported.toList := by
  have hobserved : reportsOf (c.passed.flatMap c.linesOf) = [] := by
    unfold reportsOf
    rw [List.filterMap_eq_nil_iff]
    intro line hline
    obtain ⟨r, -, hmem⟩ := List.mem_flatMap.mp hline
    exact report_observerLines hmem
  have hreported : reportsOf (c.reported.toList.map Line.http) = c.reported.toList := by
    cases c.reported <;> rfl
  unfold reportsOf at hobserved hreported ⊢
  unfold Connection.lines
  rw [List.filterMap_append, hobserved, hreported, List.append_nil]

/-- The reports are those of the connections. -/
theorem reportsOf_perm (hserved : Served opts fallback g) :
    (reportsOf g.lines).Perm (g.connections.flatMap fun c => c.reported.toList) := by
  have hlines : (g.connections.flatMap Connection.lines).filterMap report =
      g.connections.flatMap fun c => c.reported.toList := by
    rw [List.filterMap_flatMap]
    exact congrArg (List.flatMap · g.connections) (funext reportsOf_lines)
  unfold reportsOf
  rw [← hlines]
  exact hserved.lines.filterMap report

/-- **A report is one of a connection**, on its route. -/
theorem mem_reportsOf (hserved : Served opts fallback g) {payload : Settings}
    (h : payload ∈ reportsOf g.lines) : ∃ c ∈ g.connections, c.reported = some payload ∧
      ∃ parsed : ParsedHttpRequest, parsed.method ≠ "" ∧ parsed.path ≠ "" ∧
        payload = internalHttpPayload c.route c.route.attackerKey parsed := by
  have hnames : ∀ name ∈ httpMethods, name ≠ "" := by decide
  obtain ⟨c, hc, hmem⟩ := List.mem_flatMap.mp ((reportsOf_perm hserved).mem_iff.mp h)
  have hreported := Option.mem_toList.mp hmem
  obtain ⟨parsed, hmethod, hpath, hpayload⟩ := hserved.reports c hc payload hreported
  exact ⟨c, hc, hreported, parsed, hnames _ hmethod, hpath, hpayload⟩

end Run

/-! ### What has come of the reports -/

section Forward

variable {F : Type} {opts : LoopOptions} {text : Datetime → String} {py : HttpBuiltins}
  {httpPorts : List Int} {fallback : Bool} {g : GatewayState F} {E : Type}
  {svc : EntrypointService E} {env : Surroundings E}
  {dumps : Settings → List Char} {loads : List Char → Except PyError Value}

/-- What a forwarder makes of the lines it is handed, on an entrypoint with these stores. -/
def forwardReports (svc : EntrypointService E) (env : Surroundings E)
    (loads : List Char → Except PyError Value) (stores : Stores E) (lines : List (List Char)) :
    Except PyError ℕ × Posts (Intake E) :=
  forwardLines (postTo (env.serve svc)) loads 0 lines ⟨[], ⟨stores, []⟩⟩

/-- An observation of the report of a connection. -/
structure OfReport (opts : LoopOptions) (g : GatewayState F) (payload : Settings)
    (o : EntrypointObservation) (c : Connection) : Prop where
  connection : c ∈ g.connections
  reported : c.reported = some payload
  attackerKey : o.attackerKey = c.route.attackerKey
  assetId : o.assetId = some c.route.assetId
  surface : o.surface = .internalAsset
  asked : ∃ a ∈ g.state.answered, Behind opts c.route a

/-- **What has come of the reports**: they are posted in order, each once; a POST leaves at most one
observation, of its report, and one where it is counted; it is refused only where the route has no
attacker. -/
structure Observed (opts : LoopOptions) (g : GatewayState F) (read : List Settings)
    (s : Posts (Intake E)) : Prop where
  posted : s.posts.map Post.event <+: read
  once : (s.server.observed.map Prod.fst).Pairwise (· < ·)
  counted : ∀ i p, s.posts[i]? = some p → p.counted = true → ∃ o, (i, o) ∈ s.server.observed
  kept : (s.server.observed.map Prod.snd).Sublist s.server.stores.observations
  earned : ∀ i o, (i, o) ∈ s.server.observed →
    ∃ payload c, (reportsOf g.lines)[i]? = some payload ∧ OfReport opts g payload o c
  refused : ∀ p ∈ s.posts, p.outcome.toOption = some (.rejected 422) →
    ∃ c ∈ g.connections, c.reported.isSome = true ∧ c.route.attackerKey = ""

/-- Everything has been posted, unless a POST has raised. -/
def Delivered (read : List Settings) (r : Except PyError ℕ × Posts (Intake E)) : Prop :=
  (∀ p ∈ r.2.posts, p.outcome.isOk = true) →
    r.2.posts.map Post.event = read ∧ r.1 = .ok (r.2.posts.countP Post.counted)

/-- What is read at a place of the posts was reported at that place. -/
theorem report_of_post {payloads read : List Settings} (hread : List.Forall₂ ReadBack payloads read)
    {posts : List Post} (hposts : posts.map Post.event <+: read) {i : ℕ} {p : Post}
    (hp : posts[i]? = some p) :
    ∃ payload, payloads[i]? = some payload ∧ ReadBack payload p.event := by
  obtain ⟨later, hlater⟩ := hposts
  have hevent : read[i]? = some p.event := by
    rw [← hlater, List.getElem?_append_left]
    · rw [List.getElem?_map, hp]
      rfl
    · rw [List.length_map]
      exact (List.getElem?_eq_some_iff.mp hp).1
  obtain ⟨hi, hget⟩ := List.getElem?_eq_some_iff.mp hevent
  have hlength : i < payloads.length := by
    rw [hread.length_eq]
    exact hi
  refine ⟨payloads[i], List.getElem?_eq_getElem hlength, ?_⟩
  rw [← hget]
  exact hread.get hlength hi

/-- **What any number of handed lines come to.** -/
theorem observed_of_lines (hserved : Served opts fallback g)
    (hadding : env.Adding) (stores : Stores E) {read : List Settings}
    (hread : List.Forall₂ ReadBack (reportsOf g.lines) read)
    (hlines : List.Forall₂ (fun line event => iterJsonObject loads line = .ok event)
      ((reportsOf g.lines).map (written dumps)) (read.map some))
    {lines : List (List Char)} (hbegins : lines <+: (reportsOf g.lines).map (written dumps)) :
    Observed opts g read (forwardReports svc env loads stores lines).2 ∧
      (lines = (reportsOf g.lines).map (written dumps) →
        Delivered read (forwardReports svc env loads stores lines)) := by
  obtain ⟨later, hlater⟩ := hbegins
  have htake : List.Forall₂ (fun line event => iterJsonObject loads line = .ok event) lines
      ((read.take lines.length).map some) := by
    have hfirst := List.forall₂_take lines.length hlines
    rwa [← hlater, List.take_left, ← List.map_take] at hfirst
  have hevents : ((read.take lines.length).map some).filterMap id = read.take lines.length := by
    rw [List.filterMap_map]
    exact List.filterMap_some
  obtain ⟨made, hposts, hsent⟩ := @forwardLines_sent _ (env.serve svc) loads _ _ htake 0
    ⟨[], ⟨stores, []⟩⟩
  have htaken : Taken svc (forwardReports svc env loads stores lines).2.posts
      (forwardReports svc env loads stores lines).2.server :=
    forwardLines_keeps (fun _ event _ h => taken_serve hadding event h) lines 0 (taken_init stores)
  have hmade : (forwardReports svc env loads stores lines).2.posts = made := hposts
  rw [hevents] at hsent
  have hposted : (forwardReports svc env loads stores lines).2.posts.map Post.event <+: read := by
    rw [hmade]
    exact hsent.order.trans (List.take_prefix _ _)
  refine ⟨⟨hposted, htaken.order, htaken.counted, htaken.kept, ?_, ?_⟩, ?_⟩
  · intro i o hmem
    obtain ⟨p, request, hp, hrequest, hof⟩ := htaken.of i o hmem
    obtain ⟨payload, hpayload, hback⟩ := report_of_post hread hposted hp
    obtain ⟨c, hc, hreported, parsed, hmethod, hpath, rfl⟩ :=
      mem_reportsOf hserved (List.mem_of_getElem? hpayload)
    obtain ⟨hkey, hsurface, hasset⟩ :=
      (captureRequest_report_iff hmethod hpath hback).2 request hrequest
    exact ⟨_, c, hpayload, hc, hreported, hof.attackerKey.trans hkey, hof.assetId.trans hasset,
      hof.surface.trans hsurface, hserved.behind c hc⟩
  · intro p hp hout
    obtain ⟨i, hi⟩ := List.mem_iff_getElem?.mp hp
    obtain ⟨payload, hpayload, hback⟩ := report_of_post hread hposted hi
    obtain ⟨c, hc, hreported, parsed, hmethod, hpath, rfl⟩ :=
      mem_reportsOf hserved (List.mem_of_getElem? hpayload)
    have hnone := htaken.refused p hp hout
    rw [(captureRequest_report_iff hmethod hpath hback).1] at hnone
    exact ⟨c, hc, by rw [hreported, Option.isSome_some], hnone⟩
  · intro hall hok
    have hwhole : read.take lines.length = read := by
      rw [List.take_of_length_le]
      rw [hall, List.length_map, hread.length_eq]
    rw [hmade] at hok ⊢
    obtain ⟨n, hn⟩ := hsent.ended hok
    obtain ⟨hread', hcount⟩ := hsent.counted n hn
    rw [Nat.zero_add] at hcount
    exact ⟨hread'.trans hwhole, hn.trans (congrArg _ hcount)⟩

end Forward

/-! ### The visit at the entrypoint -/

/-- The report of the visit. -/
def frontPayload : Settings := internalHttpPayload portalRoute "198.51.100.7" frontRequest

/-- Its text without the outer braces. -/
def frontBody : List Char :=
  ["\"asset_id\":\"internal-portal\",", "\"attacker_key\":\"198.51.100.7\",",
    "\"body_preview\":null,", "\"body_truncated\":false,",
    "\"headers\":\x7b\"host\":\"portal\"\x7d,", "\"method\":\"GET\",", "\"path\":\"/\",",
    "\"protocol\":\"http\",", "\"query_string\":\"\",", "\"surface\":\"internal\""].flatMap String.toList

/-- `json.dumps` and `json.loads` as far as they are about this report. -/
def frontDumps (_ : Settings) : List Char := '{' :: (frontBody ++ ['}'])

def frontRead : Settings := frontPayload.mergeSort fun a b => a.1 ≤ b.1

def frontLoads (_ : List Char) : Except PyError Value := .ok (.dict frontRead)

theorem readBack_front : ReadBack frontPayload frontRead := by
  have hkeys : (frontPayload.map Prod.fst).Nodup := by decide
  have hsame : ∀ key, List.lookup key frontRead = List.lookup key frontPayload := fun key =>
    (lookup_perm hkeys (List.mergeSort_perm frontPayload _).symm key).symm
  refine ⟨fun key _ => hsame key, ?_⟩
  intro headers hheaders
  have hlookup : List.lookup "headers" frontPayload = some (.dict headers) := by
    rw [← hheaders]
    rfl
  exact ⟨headers, (hsame "headers").trans hlookup, List.Perm.refl headers⟩

theorem wireText_front : WireText frontDumps frontLoads frontPayload where
  object := ⟨frontBody, rfl⟩
  line := by
    have hbody : '\n' ∉ frontBody := by decide +kernel
    show '\n' ∉ '{' :: (frontBody ++ ['}'])
    simp [hbody]
  read := ⟨frontRead, rfl, readBack_front⟩

/-- Nothing is lost, and nobody else is there. -/
def calm : Surroundings ℕ := ⟨fun _ => .answered, fun _ => firstCall, fun _ s => s⟩

/-- A follower that reads before the report is written, and after it. -/
def frontFollower : FollowOptions := ⟨true, false, fun _ => 1⟩

def frontEvents : List TailEvent := [.turn, .turn, .append (written frontDumps frontPayload), .turn]

end Honeynet.System
