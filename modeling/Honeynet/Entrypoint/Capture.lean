import Honeynet.Binding.Service
import Honeynet.Profiler.Profile
import Honeynet.Redaction.Body

/-!
# Requests captured at the entrypoint

A captured request is stored as an observation, and as evidence where rules match it.  Headers and
body are redacted first; the query string is stored as it came.

* `captureHttpRequest`: what a request leaves in the stores.
* `capture_of_sanitized`: requests that are redacted to the same leave the same.
* `sanitize_header`, `sanitize_body`: two secrets in a header or in the body are.
* `queryString_stored`: the query string can be read back from the observation.
* `persisted_eq_iff`: two secrets at one place leave the same if and only if the place is not in
  the query string, or they are the same, or nothing is stored at all.
-/

namespace Honeynet.Entrypoint

open Binding Collections Profiler Redaction

/-! ### Requests and rules -/

inductive Surface
  | publicSite
  | internalAsset
  deriving DecidableEq, Repr

/-- The text of a surface. -/
def Surface.text : Surface → String
  | publicSite => "public"
  | internalAsset => "internal"

structure EntrypointCaptureRequest where
  attackerKey : String
  method : String
  path : String
  queryString : String := ""
  headers : Dict String String := []
  bodyPreview : Option String := none
  bodyTruncated : Bool := false
  protocol : String := "tcp"
  surface : Surface := .publicSite
  assetId : Option String := none
  deriving DecidableEq

/-- What the rules see of a request. -/
structure HttpFields where
  method : String
  path : String
  queryString : String
  bodyPreview : Option String
  userAgent : Option String
  surface : Surface
  assetId : Option String

structure PublicHttpRuleMatch where
  ruleName : String
  tags : List String
  indicators : List String
  evidenceLabel : Option String

structure EntrypointObservation where
  observationId : String
  ts : Int
  attackerKey : String
  bindingId : String
  method : String
  path : String
  queryString : String
  headers : Dict String String
  bodyPreview : Option String
  bodyTruncated : Bool
  userAgent : Option String
  statusCode : ℕ
  matchedRules : List String
  tags : List String
  indicators : List String
  profilerEvidenceIds : List String
  surface : Surface
  assetId : Option String

/-- The service with what it is built from, and what it takes from its language: `str.lower`,
`str.upper` and `\w` beyond ASCII. -/
structure EntrypointService (F : Type) where
  lower : String → String
  upper : String → String
  wide : Char → Bool
  profiler : Option (ProfilerService F)
  matchesFor : HttpFields → List PublicHttpRuleMatch

/-- What one call takes from its surroundings: the clock and generated ids. -/
structure CaptureCall where
  binding : Binding.Call
  now : Int
  observationId : String
  evidenceIds : ℕ → String

structure Stores (F : Type) where
  bindings : List BindingRecord := []
  profiler : ProfilerStore F := {}
  observations : List EntrypointObservation := []

structure EntrypointCaptureResponse (F : Type) where
  observation : EntrypointObservation
  binding : BindingRecord
  profile : ProfileSnapshot F

/-! ### Redaction -/

def secretHeaderNames : List String :=
  ["authorization", "cookie", "proxy-authorization", "set-cookie", "x-api-key"]

/-- One header with its name in lower case. -/
def safeHeader (lower : String → String) (header : String × String) : String × String :=
  (lower header.1, if lower header.1 ∈ secretHeaderNames then "[redacted]" else header.2)

def redactHeaders (lower : String → String) (headers : Dict String String) : Dict String String :=
  (headers.map (safeHeader lower)).foldl (fun safe header => Dict.set safe header.1 header.2) []

def redactBodyPreview (wide : Char → Bool) (bodyPreview : Option String) : Option String :=
  bodyPreview.map fun body => String.ofList (redactBody wide body.toList)

/-! ### Capturing a request -/

def sourceForSurface : Surface → String
  | .internalAsset => "internal_http"
  | .publicSite => "public_http"

def falcoRuleForSurface : Surface → String
  | .internalAsset => "Internal HTTP asset request"
  | .publicSite => "HTTP honeypot request"

def tagsFromMatches (ruleMatches : List PublicHttpRuleMatch) : List String :=
  appendNew [] (ruleMatches.flatMap PublicHttpRuleMatch.tags)

def indicatorsFromMatches (ruleMatches : List PublicHttpRuleMatch) : List String :=
  appendNew [] (ruleMatches.flatMap PublicHttpRuleMatch.indicators)

/-- A text or nothing as a JSON value. -/
def optional (text : Option String) : Value := text.elim .none .str

section Capture

variable {F : Type} (svc : EntrypointService F)

def formatHttpOutput (request : EntrypointCaptureRequest) (indicators : List String) : String :=
  let target :=
    if request.queryString = "" then request.path else request.path ++ "?" ++ request.queryString
  let asset := match request.assetId with
    | some assetId => if assetId = "" then "" else " asset=" ++ assetId
    | none => ""
  let output := request.surface.text ++ " HTTP " ++ svc.upper request.method ++ " " ++ target ++
    asset ++ " from " ++ request.attackerKey
  if indicators = [] then output
  else output ++ "; indicators=" ++ ", ".intercalate indicators

/-- What the rules match, on the redacted request. -/
def ruleMatches (request : EntrypointCaptureRequest) : List PublicHttpRuleMatch :=
  svc.matchesFor {
    method := request.method
    path := request.path
    queryString := request.queryString
    bodyPreview := redactBodyPreview svc.wide request.bodyPreview
    userAgent := (redactHeaders svc.lower request.headers).get? "user-agent"
    surface := request.surface
    assetId := request.assetId }

/-- The event the profiler gets of a request. -/
def httpEvent (now : Int) (request : EntrypointCaptureRequest) : FalcoEvent :=
  let matched := ruleMatches svc request
  let indicators := indicatorsFromMatches matched
  { ts := .utc now
    falcoRule := falcoRuleForSurface request.surface
    priority := "low"
    output := formatHttpOutput svc request indicators
    tags := tagsFromMatches matched
    outputFields :=
      [("source", .str (sourceForSurface request.surface)),
        ("http_surface", .str request.surface.text),
        ("asset_id", optional request.assetId),
        ("http_method", .str (svc.upper request.method)),
        ("http_path", .str request.path),
        ("http_query_string", .str request.queryString),
        ("http_user_agent",
          optional ((redactHeaders svc.lower request.headers).get? "user-agent")),
        ("http_body_preview", optional (redactBodyPreview svc.wide request.bodyPreview)),
        ("http_rule_names", .list (matched.map fun m => .str m.ruleName)),
        ("http_indicators", .list (indicators.map .str)),
        ("http_evidence_labels",
          .list ((matched.filterMap PublicHttpRuleMatch.evidenceLabel).map .str))] }

/-- What is ingested of a request: nothing where no rule matches or there is no profiler. -/
def ingestRequest (call : CaptureCall) (bindingId : String) (request : EntrypointCaptureRequest) :
    Option (ProfilerService F × EvidenceIngestRequest) :=
  if ruleMatches svc request = [] then none
  else svc.profiler.map fun profiler =>
    (profiler, ⟨request.attackerKey, bindingId, httpEvent svc call.now request⟩)

/-- The observation of a request that has led to this evidence. -/
def observationOf (call : CaptureCall) (bindingId : String) (request : EntrypointCaptureRequest)
    (evidenceIds : List String) : EntrypointObservation where
  observationId := call.observationId
  ts := call.now
  attackerKey := request.attackerKey
  bindingId
  method := svc.upper request.method
  path := request.path
  queryString := request.queryString
  headers := redactHeaders svc.lower request.headers
  bodyPreview := redactBodyPreview svc.wide request.bodyPreview
  bodyTruncated := request.bodyTruncated
  userAgent := (redactHeaders svc.lower request.headers).get? "user-agent"
  statusCode := 404
  matchedRules := (ruleMatches svc request).map PublicHttpRuleMatch.ruleName
  tags := tagsFromMatches (ruleMatches svc request)
  indicators := indicatorsFromMatches (ruleMatches svc request)
  profilerEvidenceIds := evidenceIds
  surface := request.surface
  assetId := request.assetId

/-- Store the observation of a request whose binding has been resolved. -/
def store (call : CaptureCall) (request : EntrypointCaptureRequest) (binding : BindingRecord)
    (s : Stores F) : EntrypointCaptureResponse F × Stores F :=
  match ingestRequest svc call binding.bindingId request with
  | none =>
    let observation := observationOf svc call binding.bindingId request []
    (⟨observation, binding, { attackerKey := request.attackerKey, updatedAt := call.now }⟩,
      { s with observations := s.observations ++ [observation] })
  | some (profiler, evidenceRequest) =>
    let evidences := requestEvidence profiler call.evidenceIds evidenceRequest
    let stored := ingest profiler s.profiler call.evidenceIds evidenceRequest call.now
    let observation := observationOf svc call binding.bindingId request
      (evidences.map TechniqueEvidence.evidenceId)
    (⟨observation, binding, rebuildProfile profiler request.attackerKey
        (stored.listByAttacker request.attackerKey) call.now⟩,
      { s with profiler := stored, observations := s.observations ++ [observation] })

/-- Resolve the binding of the source, and store what the request leaves. -/
def captureHttpRequest (call : CaptureCall) (request : EntrypointCaptureRequest) (s : Stores F) :
    Except PyError (EntrypointCaptureResponse F × Stores F) := do
  let (binding, bindings) ← (BindingOp.resolve request.attackerKey).call call.binding s.bindings
  return store svc call request binding { s with bindings }

/-- The observations and the evidence that are stored after a request. -/
def persisted (call : CaptureCall) (s : Stores F) (request : EntrypointCaptureRequest) :
    List EntrypointObservation × Dict String (List TechniqueEvidence) :=
  match captureHttpRequest svc call request s with
  | .ok (_, stored) => (stored.observations, stored.profiler.evidence)
  | .error _ => (s.observations, s.profiler.evidence)

/-! ### What a capture depends on -/

/-- The request with its headers and its body redacted. -/
def sanitize (request : EntrypointCaptureRequest) : EntrypointCaptureRequest :=
  { request with
    headers := redactHeaders svc.lower request.headers
    bodyPreview := redactBodyPreview svc.wide request.bodyPreview }

variable {svc}

/-- What the two requests agree in. -/
structure SameSanitized (svc : EntrypointService F) (r r' : EntrypointCaptureRequest) : Prop where
  attackerKey : r.attackerKey = r'.attackerKey
  method : r.method = r'.method
  path : r.path = r'.path
  queryString : r.queryString = r'.queryString
  headers : redactHeaders svc.lower r.headers = redactHeaders svc.lower r'.headers
  bodyPreview : redactBodyPreview svc.wide r.bodyPreview = redactBodyPreview svc.wide r'.bodyPreview
  bodyTruncated : r.bodyTruncated = r'.bodyTruncated
  surface : r.surface = r'.surface
  assetId : r.assetId = r'.assetId

theorem sameSanitized_of_eq {r r' : EntrypointCaptureRequest}
    (h : sanitize svc r = sanitize svc r') : SameSanitized svc r r' := by
  obtain ⟨h₁, h₂, h₃, h₄, h₅, h₆, h₇, -, h₈, h₉⟩ := EntrypointCaptureRequest.mk.inj h
  exact ⟨h₁, h₂, h₃, h₄, h₅, h₆, h₇, h₈, h₉⟩

section Same

variable {r r' : EntrypointCaptureRequest} (h : SameSanitized svc r r')

include h

theorem ruleMatches_of_same : ruleMatches svc r = ruleMatches svc r' := by
  rw [ruleMatches, ruleMatches, h.method, h.path, h.queryString, h.headers, h.bodyPreview,
    h.surface, h.assetId]

theorem formatHttpOutput_of_same (indicators : List String) :
    formatHttpOutput svc r indicators = formatHttpOutput svc r' indicators := by
  rw [formatHttpOutput, formatHttpOutput, h.attackerKey, h.method, h.path, h.queryString,
    h.surface, h.assetId]

theorem httpEvent_of_same (now : Int) : httpEvent svc now r = httpEvent svc now r' := by
  rw [httpEvent, httpEvent, ruleMatches_of_same h, formatHttpOutput_of_same h, h.method, h.path,
    h.queryString, h.headers, h.bodyPreview, h.surface, h.assetId]

theorem observationOf_of_same (call : CaptureCall) (bindingId : String) (ids : List String) :
    observationOf svc call bindingId r ids = observationOf svc call bindingId r' ids := by
  rw [observationOf, observationOf, ruleMatches_of_same h, h.attackerKey, h.method, h.path,
    h.queryString, h.headers, h.bodyPreview, h.bodyTruncated, h.surface, h.assetId]

theorem store_of_same (call : CaptureCall) (binding : BindingRecord) (s : Stores F) :
    store svc call r binding s = store svc call r' binding s := by
  have hingest : ingestRequest svc call binding.bindingId r =
      ingestRequest svc call binding.bindingId r' := by
    rw [ingestRequest, ingestRequest, ruleMatches_of_same h, httpEvent_of_same h, h.attackerKey]
  have hobservation : observationOf svc call binding.bindingId r =
      observationOf svc call binding.bindingId r' := funext (observationOf_of_same h call _)
  rw [store, store, hingest, hobservation, h.attackerKey]

/-- **Requests that are redacted to the same leave the same.** -/
theorem capture_of_sanitized (call : CaptureCall) (s : Stores F) :
    captureHttpRequest svc call r s = captureHttpRequest svc call r' s := by
  rw [captureHttpRequest, captureHttpRequest, h.attackerKey]
  refine congrArg _ (funext fun resolved => ?_)
  exact congrArg pure (store_of_same h call _ _)

end Same

end Capture

/-! ### Secrets in a request -/

/-- Where a request has a secret: in a header, or as the value of a parameter of its body or its
query string. -/
inductive SecretPlace
  | header (name : String)
  | body (before name after : List Char)
  | query (before name after : List Char)

namespace SecretPlace

/-- The text with a parameter at a place. -/
def withParameter (before name after v : List Char) : String :=
  String.ofList (before ++ (name ++ '=' :: (v ++ after)))

/-- The request with a value at the place. -/
def put (request : EntrypointCaptureRequest) (v : List Char) :
    SecretPlace → EntrypointCaptureRequest
  | header name => { request with headers := Dict.set request.headers name (String.ofList v) }
  | body before name after =>
    { request with bodyPreview := some (withParameter before name after v) }
  | query before name after => { request with queryString := withParameter before name after v }

/-- The header or the parameter has the name of a secret. -/
def IsSecret (lower : String → String) : SecretPlace → Prop
  | header name => lower name ∈ secretHeaderNames
  | body before name after | query before name after =>
    Starts before ∧ IsSecretName name ∧ Stops after

def InQuery : SecretPlace → Prop
  | query _ _ _ => True
  | _ => False

end SecretPlace

section Secrets

variable {F : Type} {svc : EntrypointService F} {request : EntrypointCaptureRequest}

theorem map_set_of_eq {f : String × String → String × String} {name v w : String}
    (h : f (name, v) = f (name, w)) (headers : Dict String String) :
    (Dict.set headers name v).map f = (Dict.set headers name w).map f := by
  induction headers with
  | nil => rw [Dict.set, Dict.set, List.map_singleton, List.map_singleton, h]
  | cons e headers ih =>
    rw [Dict.set, Dict.set]
    by_cases he : e.1 = name
    · rw [if_pos he, if_pos he, List.map_cons, List.map_cons, h]
    · rw [if_neg he, if_neg he, List.map_cons, List.map_cons, ih]

/-- Of the value of a secret header nothing is left. -/
theorem redactHeaders_secret {lower : String → String} {name : String}
    (hname : lower name ∈ secretHeaderNames) (headers : Dict String String) (v w : String) :
    redactHeaders lower (Dict.set headers name v) =
      redactHeaders lower (Dict.set headers name w) := by
  rw [redactHeaders, redactHeaders, map_set_of_eq]
  rw [safeHeader, safeHeader, if_pos hname, if_pos hname]

theorem redactBodyPreview_secret {wide : Char → Bool} {before name after : List Char}
    (hplace : Starts before ∧ IsSecretName name ∧ Stops after) {v w : List Char}
    (hv : IsValue v) (hw : IsValue w) :
    redactBodyPreview wide (some (SecretPlace.withParameter before name after v)) =
      redactBodyPreview wide (some (SecretPlace.withParameter before name after w)) := by
  obtain ⟨hbefore, hname, hafter⟩ := hplace
  rw [redactBodyPreview, redactBodyPreview, Option.map_some, Option.map_some,
    SecretPlace.withParameter, SecretPlace.withParameter, String.toList_ofList,
    String.toList_ofList, redactBody_parameter hbefore hname hv hafter,
    redactBody_parameter hbefore hname hw hafter]

/-- **Two secrets outside the query string are redacted to the same.** -/
theorem sanitize_put {place : SecretPlace} (hplace : place.IsSecret svc.lower)
    (hquery : ¬ place.InQuery) {v w : List Char} (hv : IsValue v) (hw : IsValue w) :
    sanitize svc (place.put request v) = sanitize svc (place.put request w) := by
  cases place with
  | header name =>
    rw [sanitize, sanitize, SecretPlace.put, SecretPlace.put,
      redactHeaders_secret hplace request.headers (String.ofList v) (String.ofList w)]
  | body before name after =>
    rw [sanitize, sanitize, SecretPlace.put, SecretPlace.put,
      redactBodyPreview_secret hplace hv hw]
  | query before name after => exact absurd trivial hquery

theorem attackerKey_put (place : SecretPlace) (v : List Char) :
    (place.put request v).attackerKey = request.attackerKey := by
  cases place with
  | header name => rfl
  | body before name after => rfl
  | query before name after => rfl

theorem observations_store (call : CaptureCall) (r : EntrypointCaptureRequest)
    (binding : BindingRecord) (s : Stores F) : ∃ ids, (store svc call r binding s).2.observations =
      s.observations ++ [observationOf svc call binding.bindingId r ids] := by
  rw [store]
  cases ingestRequest svc call binding.bindingId r with
  | none => exact ⟨[], rfl⟩
  | some ingested => exact ⟨_, rfl⟩

/-- Where the binding is resolved, the observation of the request comes last. -/
theorem persisted_resolved {call : CaptureCall} {s : Stores F} {r : EntrypointCaptureRequest}
    {binding : BindingRecord} {bindings : List BindingRecord}
    (h : (BindingOp.resolve r.attackerKey).call call.binding s.bindings = .ok (binding, bindings)) :
    ∃ ids, (persisted svc call s r).1 =
      s.observations ++ [observationOf svc call binding.bindingId r ids] := by
  have hcapture : captureHttpRequest svc call r s =
      .ok (store svc call r binding { s with bindings }) := by
    rw [captureHttpRequest, h]
    rfl
  rw [persisted, hcapture]
  exact observations_store call r binding { s with bindings }

/-- Where it cannot be resolved, nothing is stored. -/
theorem persisted_raised {call : CaptureCall} {s : Stores F} {r : EntrypointCaptureRequest}
    {e : PyError} (h : (BindingOp.resolve r.attackerKey).call call.binding s.bindings = .error e) :
    persisted svc call s r = (s.observations, s.profiler.evidence) := by
  have hcapture : captureHttpRequest svc call r s = .error e := by
    rw [captureHttpRequest, h]
    rfl
  rw [persisted, hcapture]

theorem withParameter_inj {before name after v w : List Char}
    (h : SecretPlace.withParameter before name after v =
      SecretPlace.withParameter before name after w) : v = w := by
  have htext := List.append_cancel_left (List.append_cancel_left (String.ofList_injective h))
  exact List.append_cancel_right (List.cons.inj htext).2

/-- **Two secrets at one place of a request leave the same if and only if the place is not in the
query string, or they are the same, or the request is not stored at all.** -/
theorem persisted_eq_iff (svc : EntrypointService F) (call : CaptureCall) (s : Stores F)
    (request : EntrypointCaptureRequest) {place : SecretPlace}
    (hplace : place.IsSecret svc.lower) {v w : List Char} (hv : IsValue v) (hw : IsValue w) :
    persisted svc call s (place.put request v) = persisted svc call s (place.put request w) ↔
      ¬ place.InQuery ∨ v = w ∨
        ∃ e, (BindingOp.resolve request.attackerKey).call call.binding s.bindings = .error e := by
  constructor
  · intro h
    by_cases hquery : place.InQuery
    · refine Or.inr ?_
      cases hresolve : (BindingOp.resolve request.attackerKey).call call.binding s.bindings with
      | error e => exact Or.inr ⟨e, rfl⟩
      | ok resolved =>
        refine Or.inl ?_
        obtain ⟨binding, bindings⟩ := resolved
        have hput : ∀ u : List Char, ∃ ids, (persisted svc call s (place.put request u)).1 =
            s.observations ++
              [observationOf svc call binding.bindingId (place.put request u) ids] := fun u =>
          persisted_resolved (by rw [attackerKey_put]; exact hresolve)
        obtain ⟨ids, hfirst⟩ := hput v
        obtain ⟨ids', hsecond⟩ := hput w
        rw [h, hsecond] at hfirst
        have hsame := List.singleton_inj.mp (List.append_cancel_left hfirst)
        have hstring := congrArg EntrypointObservation.queryString hsame
        cases place with
        | header name => exact absurd hquery id
        | body before name after => exact absurd hquery id
        | query before name after => exact (withParameter_inj hstring).symm
    · exact Or.inl hquery
  · rintro (hquery | rfl | ⟨e, he⟩)
    · have hsame : SameSanitized svc (place.put request v) (place.put request w) :=
        sameSanitized_of_eq (sanitize_put hplace hquery hv hw)
      rw [persisted, persisted, capture_of_sanitized hsame]
    · rfl
    · rw [persisted_raised (by rw [attackerKey_put]; exact he),
        persisted_raised (by rw [attackerKey_put]; exact he)]

end Secrets

/-! ### A token in the query string -/

/-- An entrypoint whose rules match nothing. -/
def quietEntrypoint : EntrypointService ℕ where
  lower := Text.asciiLower
  upper s := String.ofList (s.toList.map Char.toUpper)
  wide _ := false
  profiler := some sampleProfiler
  matchesFor _ := []

def firstCall : CaptureCall := ⟨⟨3600000000, 0, "b-1"⟩, 0, "obs-1", fun i => toString i⟩

def loginRequest : EntrypointCaptureRequest where
  attackerKey := "198.51.100.7"
  method := "POST"
  path := "/login"

/-- The password in the body of a login. -/
def bodyPassword : SecretPlace := .body "user=root&".toList "password".toList []

theorem bodyPassword_secret : bodyPassword.IsSecret quietEntrypoint.lower :=
  ⟨by decide, by decide, by decide⟩

/-- It leaves nothing. -/
theorem body_password_hidden :
    persisted quietEntrypoint firstCall {} (bodyPassword.put loginRequest "hunter2".toList) =
      persisted quietEntrypoint firstCall {} (bodyPassword.put loginRequest "letmein".toList) :=
  (persisted_eq_iff quietEntrypoint firstCall {} loginRequest bodyPassword_secret (by decide)
    (by decide)).mpr (Or.inl id)

/-- **In the query string, a token is stored.** -/
theorem query_token_stored : ¬ ∀ (F : Type) (svc : EntrypointService F) (call : CaptureCall)
    (s : Stores F) (request : EntrypointCaptureRequest) (place : SecretPlace) (v w : List Char),
    place.IsSecret svc.lower → IsValue v → IsValue w →
    persisted svc call s (place.put request v) = persisted svc call s (place.put request w) := by
  intro h
  have hsame := h ℕ quietEntrypoint firstCall {} loginRequest (.query [] "token".toList [])
    "t-1".toList "t-2".toList ⟨by decide, by decide, by decide⟩ (by decide) (by decide)
  have hstrings := congrArg (fun p => p.1.map EntrypointObservation.queryString) hsame
  revert hstrings
  decide +kernel

end Honeynet.Entrypoint
