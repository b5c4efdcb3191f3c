import Honeynet.AssetGateway.Observer
import Honeynet.Lib.Fallible

/-!
# The login of the internal portal

On the ports of HTTP assets the gateway reads the first request before it connects to a backend.
It answers a login at the internal portal itself, and reports every request with what came of it.

* `parseHttpRequest`: the request in the first chunk of a connection.
* `internalPortalSessionResult`: the answer to a login.
* `observeHttp`: what is reported of a chunk, and what is answered.
* `observeHttp_cases`: the report is of the request, with the result of the login at its end.
-/

namespace Honeynet.AssetGateway

open Collections Orchestrator Text

/-! ### Requests -/

structure ParsedHttpRequest where
  method : String
  path : String
  queryString : String
  headers : Dict String String
  bodyPreview : Option String := none
  bodyTruncated : Bool := false

/-- What the gateway takes from its language: `str.lower`, `str`, `json.loads`, `parse_qs` that
keeps blank values, and path and query of `urlsplit`. -/
structure HttpBuiltins where
  lower : String → String
  str : Value → String
  loads : String → Except PyError Value
  parseQs : String → Dict String (List String)
  urlsplit : String → Except PyError (String × String)

/-- `text.partition(sep)` without the separator. -/
def partition (sep : List Char) : List Char → List Char × List Char
  | [] => ([], [])
  | c :: t =>
    match afterPrefix sep (c :: t) with
    | some rest => ([], rest)
    | none => (c :: (partition sep t).1, (partition sep t).2)

/-- What is after the separator is a part of the text. -/
theorem partition_subset (sep t : List Char) : (partition sep t).2 ⊆ t := by
  induction t with
  | nil => exact List.nil_subset _
  | cons c t ih =>
    intro d hd
    unfold partition at hd
    split at hd
    · rename_i rest hrest
      unfold afterPrefix at hrest
      split at hrest
      · obtain rfl := Option.some.inj hrest
        exact List.mem_of_mem_drop hd
      · exact absurd hrest (by simp)
    · exact List.mem_cons_of_mem c (ih hd)

/-- `text.split("\r\n")`. -/
def splitBreaks : List Char → List (List Char)
  | [] => [[]]
  | '\r' :: '\n' :: t => [] :: splitBreaks t
  | c :: t =>
    match splitBreaks t with
    | [] => [[c]]
    | line :: lines => (c :: line) :: lines

section Gate

variable (py : HttpBuiltins)

/-- The name and the value of a header line. -/
def headerOf (line : List Char) : Option (String × String) :=
  if ':' ∈ line then
    some (py.lower (String.ofList (strip (line.takeWhile (· != ':')))),
      String.ofList (strip ((line.dropWhile (· != ':')).drop 1)))
  else none

def httpMethods : List String := ["GET", "POST", "PUT", "PATCH", "DELETE", "OPTIONS", "HEAD"]

/-- The first 4096 characters of a body, if there is one. -/
def bodyPreviewOf (body : List Char) : Option String :=
  if body = [] then none else some (String.ofList (body.take 4096))

/-- The header lines and the body of a request. -/
def httpParts (data : List UInt8) : List Char × List Char :=
  partition "\r\n\r\n".toList (decode data)

def parseHttpRequest (data : List UInt8) : Except PyError (Option ParsedHttpRequest) :=
  let (headerText, body) := httpParts data
  let lines := splitBreaks headerText
  match words (lines.headD []) with
  | method :: target :: _ =>
    let method := String.ofList (upper method)
    if method ∉ httpMethods then .ok none
    else do
      let (path, query) ← py.urlsplit (String.ofList target)
      return some {
        method
        path := if path = "" then "/" else path
        queryString := query
        headers := Dict.update [] (lines.tail.filterMap (headerOf py))
        bodyPreview := bodyPreviewOf body
        bodyTruncated := decide (4096 < body.length) }
  | _ => .ok none

/-! ### The login -/

/-- What is answered to a login. -/
structure InternalPortalSessionResult where
  authResult : String
  statusCode : ℕ
  body : Settings

def granted : InternalPortalSessionResult where
  authResult := "success"
  statusCode := 200
  body := [("status", .str "ok"), ("user", .str "portal.reader"),
    ("role", .str "directory-readonly")]

def denied : InternalPortalSessionResult where
  authResult := "failure"
  statusCode := 401
  body := [("status", .str "denied"), ("reason", .str "invalid recovery credential")]

/-- A value of a JSON object as form values. -/
def formValue (e : String × Value) : Option (String × List String) :=
  match e.2 with
  | .none => none
  | value => some (e.1, [py.str value])

/-- The values of a form; a body that is no JSON text, where it should be, has none. -/
def httpFormValues (parsed : ParsedHttpRequest) : Except PyError (Dict String (List String)) :=
  let body := parsed.bodyPreview.getD ""
  if contains "json".toList ((parsed.headers.get? "content-type").getD "").toList then
    match py.loads body with
    | .ok (.dict payload) => .ok (payload.filterMap (formValue py))
    | .ok _ => .ok []
    | .error e => if e.kind = .valueError then .ok [] else .error e
  else .ok (py.parseQs body)

def firstFormValue (form : Dict String (List String)) (names : List String) : Option String :=
  names.findSome? fun name => (form.get? name).bind List.head?

def bearerToken (value : Option String) : Option String :=
  value.bind fun text =>
    if "bearer ".toList.isPrefixOf (py.lower text).toList then
      some (String.ofList (strip (text.toList.drop 7)))
    else none

/-- The credential that is leaked on the public site. -/
def isValid (form : Dict String (List String)) (authorization : Option String) : Bool :=
  let username := firstFormValue form ["username", "user", "portal-user"]
  let token := (firstFormValue form ["token", "password", "portal-token"]).filter (· ≠ "")
  username = some "portal.reader" &&
    token.or (bearerToken py authorization) = some "nbp_reader_2026_04_window"

/-- The answer to a login; `none` for any other request. -/
def internalPortalSessionResult (parsed : ParsedHttpRequest) (route : GatewayRoute) :
    Except PyError (Option InternalPortalSessionResult) :=
  if route.assetId ≠ "internal-portal" then .ok none
  else if parsed.method ≠ "POST" ∨ parsed.path ∉ ["/session", "/api/session"] then .ok none
  else do
    let form ← httpFormValues py parsed
    return some (if isValid py form (parsed.headers.get? "authorization") then granted else denied)

/-- The request with the result of its login at the end of its body. -/
def withAuthResult (parsed : ParsedHttpRequest) (authResult : String) : ParsedHttpRequest :=
  let body := parsed.bodyPreview.getD ""
  let separator := if body = "" then "" else "&"
  { parsed with bodyPreview := some (body ++ separator ++ "auth_result=" ++ authResult) }

/-! ### What is reported -/

/-- A line of `internal_http_events.jsonl`. -/
def internalHttpPayload (route : GatewayRoute) (clientIp : String) (parsed : ParsedHttpRequest) :
    Settings :=
  [("attacker_key", .str clientIp), ("method", .str parsed.method), ("path", .str parsed.path),
    ("query_string", .str parsed.queryString),
    ("headers", .dict (parsed.headers.map fun e => (e.1, .str e.2))),
    ("body_preview", parsed.bodyPreview.elim .none .str),
    ("body_truncated", .bool parsed.bodyTruncated), ("protocol", .str "http"),
    ("surface", .str "internal"), ("asset_id", .str route.assetId)]

/-- What is reported of a request, and what is answered to it. -/
structure HttpTurn where
  reported : Option Settings := none
  answered : Option InternalPortalSessionResult := none

/-- The gateway reads the first chunk of a connection. -/
def observeHttp (route : GatewayRoute) (data : List UInt8) : Except PyError HttpTurn := do
  match ← parseHttpRequest py data with
  | none => return {}
  | some parsed =>
    let answered ← internalPortalSessionResult py parsed route
    let parsed := answered.elim parsed fun result => withAuthResult parsed result.authResult
    return ⟨some (internalHttpPayload route route.attackerKey parsed), answered⟩

/-! ### What comes of a chunk -/

variable {py}

theorem parseHttpRequest_spec {data : List UInt8} {parsed : ParsedHttpRequest}
    (h : parseHttpRequest py data = .ok (some parsed)) :
    parsed.method ∈ httpMethods ∧ parsed.path ≠ "" ∧
      parsed.bodyPreview = bodyPreviewOf (httpParts data).2 := by
  unfold parseHttpRequest at h
  dsimp only at h
  split at h
  · split at h
    · exact absurd h (by simp)
    · rename_i hmethod
      obtain ⟨target, -, h⟩ := Fallible.bind_eq_ok.mp h
      obtain rfl := Option.some.inj (Except.ok.inj h)
      refine ⟨not_not.mp hmethod, ?_, rfl⟩
      show (if target.1 = "" then "/" else target.1) ≠ ""
      by_cases hpath : target.1 = ""
      · rw [if_pos hpath]
        decide
      · rw [if_neg hpath]
        exact hpath
  · exact absurd h (by simp)

/-- A login is granted or denied. -/
theorem answered_cases {parsed : ParsedHttpRequest} {route : GatewayRoute}
    {result : InternalPortalSessionResult}
    (h : internalPortalSessionResult py parsed route = .ok (some result)) :
    route.assetId = "internal-portal" ∧ (result = granted ∨ result = denied) := by
  unfold internalPortalSessionResult at h
  split at h
  · exact absurd h (by simp)
  · rename_i hasset
    split at h
    · exact absurd h (by simp)
    · obtain ⟨form, -, h⟩ := Fallible.bind_eq_ok.mp h
      obtain rfl := Option.some.inj (Except.ok.inj h)
      refine ⟨not_not.mp hasset, ?_⟩
      split
      · exact Or.inl rfl
      · exact Or.inr rfl

/-- **Nothing is reported, or the request** with the result of its login at its end. -/
theorem observeHttp_cases {route : GatewayRoute} {data : List UInt8} {turn : HttpTurn}
    (h : observeHttp py route data = .ok turn) :
    (parseHttpRequest py data = .ok none ∧ turn = {}) ∨
      ∃ parsed, parseHttpRequest py data = .ok (some parsed) ∧
        internalPortalSessionResult py parsed route = .ok turn.answered ∧
        turn.reported = some (internalHttpPayload route route.attackerKey
          (turn.answered.elim parsed fun result => withAuthResult parsed result.authResult)) := by
  unfold observeHttp at h
  obtain ⟨request, hrequest, h⟩ := Fallible.bind_eq_ok.mp h
  cases request with
  | none => exact Or.inl ⟨hrequest, (Except.ok.inj h).symm⟩
  | some parsed =>
    obtain ⟨answered, hanswered, h⟩ := Fallible.bind_eq_ok.mp h
    obtain rfl := Except.ok.inj h
    exact Or.inr ⟨parsed, hrequest, hanswered, rfl⟩

/-- What is reported is a request on the route. -/
theorem report_of_observeHttp {route : GatewayRoute} {data : List UInt8} {turn : HttpTurn}
    (h : observeHttp py route data = .ok turn) {payload : Settings}
    (hreported : turn.reported = some payload) : ∃ parsed : ParsedHttpRequest,
      parsed.method ∈ httpMethods ∧ parsed.path ≠ "" ∧
        payload = internalHttpPayload route route.attackerKey parsed := by
  rcases observeHttp_cases h with ⟨-, rfl⟩ | ⟨parsed, hparse, -, hreport⟩
  · exact absurd hreported (by simp)
  · obtain ⟨hmethod, hpath, -⟩ := parseHttpRequest_spec hparse
    obtain rfl := Option.some.inj (hreport.symm.trans hreported)
    cases turn.answered with
    | none => exact ⟨parsed, hmethod, hpath, rfl⟩
    | some result => exact ⟨withAuthResult parsed result.authResult, hmethod, hpath, rfl⟩

end Gate

end Honeynet.AssetGateway
