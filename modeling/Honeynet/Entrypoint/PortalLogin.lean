import Honeynet.AssetGateway.Capitals
import Honeynet.AssetGateway.Portal
import Honeynet.Entrypoint.Capture
import Honeynet.Lib.Insertion
import Honeynet.Matchers.Sigma

/-!
# A login of the portal among the observations

What the gateway reports of a request comes to the entrypoint as a request with the result of the
login at the end of its body, and a rule looks for that result.

* `captureRequest`: the request in a line of the gateway.
* `validTokenReuse`: the rule, and `matchesFor` over rules as the entrypoint runs them.
* `redactBody_marked`: redaction leaves a result behind an ampersand, or alone, as it is.
* `portal_login_reported`: the rule is reported for the logins that the gateway has granted, and
  for what names their result itself.
-/

namespace Honeynet.Entrypoint

open AssetGateway Collections Orchestrator Redaction Text

/-! ### From the gateway to the entrypoint -/

/-- The text of a field that has a text, or nothing. -/
def optionalText : Value → Option (Option String)
  | .none => some none
  | .str s => some (some s)
  | _ => none

/-- A text that is not empty. -/
def nonempty (value : Value) : Option String := value.str?.filter (· ≠ "")

def flag : Value → Option Bool
  | .bool b => some b
  | _ => none

/-- A header whose value is a text. -/
def headerText (e : String × Value) : Option (String × String) := e.2.str?.map fun s => (e.1, s)

def surfaceOf (value : Value) : Option Surface :=
  match value.str? with
  | some "public" => some .publicSite
  | some "internal" => some .internalAsset
  | _ => none

/-- The request in a line of the gateway. -/
def captureRequest (payload : Settings) : Option EntrypointCaptureRequest := do
  let attackerKey ← nonempty (payload.get "attacker_key")
  let method ← nonempty (payload.get "method")
  let path ← nonempty (payload.get "path")
  let queryString ← (payload.getD "query_string" (.str "")).str?
  let headers ← (payload.getD "headers" (.dict [])).dict?
  let headers ← headers.mapM headerText
  let bodyPreview ← optionalText (payload.get "body_preview")
  let bodyTruncated ← flag (payload.getD "body_truncated" (.bool false))
  let protocol ← nonempty (payload.getD "protocol" (.str "tcp"))
  let surface ← surfaceOf (payload.getD "surface" (.str "public"))
  let assetId ← optionalText (payload.get "asset_id")
  return { attackerKey, method, path, queryString, headers, bodyPreview, bodyTruncated, protocol,
           surface, assetId }

/-! ### The rule -/

/-- `detection` of `internal_http_valid_token_reuse.yml`. -/
def validTokenReuseDetection : Settings :=
  [("surface", .dict [("honeynet.surface", .str "internal")]),
    ("asset", .dict [("honeynet.asset_id", .str "internal-portal")]),
    ("selection", .dict [("http.request.body.content|contains",
      .list [.str "auth_result=success"])]),
    ("condition", .str "surface and asset and selection")]

def validTokenReuse (py : Sigma.Builtins) : Matchers.SigmaRule where
  name := "internal_http_valid_token_reuse"
  tags := ["mitre_lateral_movement", "T1021", "mitre_defense_evasion", "T1078"]
  evidenceLabel := some "internal-http valid token reuse"
  plans := Sigma.sigmaSelectionPlans py.lower py.render validTokenReuseDetection

/-- The matcher of the entrypoint on the rules it has loaded. -/
def matchesFor (py : Sigma.Builtins) (rules : List Matchers.SigmaRule) (fields : HttpFields) :
    List PublicHttpRuleMatch :=
  (Matchers.matchesFor py .http rules (Matchers.normalizeHttpFields py {
    method := fields.method
    path := fields.path
    queryString := fields.queryString
    bodyPreview := fields.bodyPreview
    userAgent := fields.userAgent
    surface := fields.surface.text
    assetId := fields.assetId })).map fun found =>
      ⟨found.ruleName, found.tags, found.indicators, found.evidenceLabel⟩

/-! ### When the rule is reported -/

/-- The lower case of a character of the encoding. -/
def latinLower (c : Char) : Char :=
  if (65 ≤ c.toNat ∧ c.toNat ≤ 90) ∨ (192 ≤ c.toNat ∧ c.toNat ≤ 222 ∧ c.toNat ≠ 215) then
    Char.ofNat (c.toNat + 32)
  else c

/-- `lower` is `str.lower` on texts of the encoding. -/
def LowersLatin (lower : String → String) : Prop :=
  ∀ s : String, (∀ c ∈ s.toList, c.toNat < 256) → lower s = String.ofList (s.toList.map latinLower)

section Rule

variable {py : Sigma.Builtins}

/-- The texts of the rule. -/
def ruleTexts : List String :=
  ["surface", "asset", "selection", "condition", "surface and asset and selection",
    "honeynet_surface", "honeynet_asset_id", "http_request_body_content", "contains", "internal",
    "internal-portal", "auth_result=success"]

theorem lower_ruleText (hlower : LowersLatin py.lower) {text : String} (h : text ∈ ruleTexts) :
    py.lower text = text := by
  have hall : ∀ text ∈ ruleTexts, (∀ c ∈ text.toList, c.toNat < 256) ∧
      String.ofList (text.toList.map latinLower) = text := by decide
  exact (hlower text (hall text h).1).trans (hall text h).2

/-- Of `lower` only what it makes of the names and of the condition matters. -/
theorem sigmaSelectionPlans_congr {lower lower' : String → String} {render : Value → String}
    {detection : Settings} (hnames : ∀ e ∈ detection, lower e.1 = lower' e.1)
    (hcondition : lower (Sigma.conditionText render detection) =
      lower' (Sigma.conditionText render detection)) :
    Sigma.sigmaSelectionPlans lower render detection =
      Sigma.sigmaSelectionPlans lower' render detection := by
  have hselections : Sigma.namedSelections lower detection =
      Sigma.namedSelections lower' detection := by
    unfold Sigma.namedSelections
    rw [List.filter_congr fun e he => by rw [hnames e he]]
    apply List.foldl_ext
    intro d e he
    rw [hnames e (List.mem_filter.mp he).1]
  unfold Sigma.sigmaSelectionPlans Sigma.normalizeCondition
  rw [hselections, hcondition]

/-- The selections of the rule, all of which must match. -/
def validTokenReuseSelections : List Value :=
  [.dict [("honeynet.surface", .str "internal")],
    .dict [("honeynet.asset_id", .str "internal-portal")],
    .dict [("http.request.body.content|contains", .list [.str "auth_result=success"])]]

theorem plans_validTokenReuse (hlower : LowersLatin py.lower) :
    (validTokenReuse py).plans =
      [⟨"surface_and_asset_and_selection".toList, validTokenReuseSelections, []⟩] := by
  have hplain : (validTokenReuse py).plans =
      Sigma.sigmaSelectionPlans id py.render validTokenReuseDetection := by
    apply sigmaSelectionPlans_congr
    · have hall : ∀ e ∈ validTokenReuseDetection, e.1 ∈ ruleTexts := by decide
      intro e he
      exact lower_ruleText hlower (hall e he)
    · show py.lower "surface and asset and selection" = _
      exact lower_ruleText hlower (by decide)
  have hcondition : Sigma.normalizeCondition id "surface and asset and selection" =
      "surface and asset and selection".toList := by decide
  have hbranches : reSplit "or".toList "surface and asset and selection".toList =
      ["surface and asset and selection".toList] := by decide +kernel
  have hterms : reSplit "and".toList "surface and asset and selection".toList =
      ["surface".toList, "asset".toList, "selection".toList] := by decide +kernel
  have htext : Sigma.conditionText py.render validTokenReuseDetection =
      "surface and asset and selection" := rfl
  rw [hplain]
  unfold Sigma.sigmaSelectionPlans
  dsimp only
  rw [htext, hcondition, if_neg (by decide), hbranches, List.flatMap_singleton]
  unfold Sigma.plansFromAndBranch
  rw [hterms]
  rfl

/-- The fields of an event. -/
theorem normalizeHttpFields_eq (r : Matchers.HttpRequest) :
    (Matchers.normalizeHttpFields py r).getD "surface" [] = (py.lower r.surface).toList ∧
      (Matchers.normalizeHttpFields py r).getD "asset_id" [] =
        (py.lower (r.assetId.getD "")).toList ∧
      (Matchers.normalizeHttpFields py r).getD "body_preview" [] =
        (py.lower (r.bodyPreview.getD "")).toList :=
  ⟨rfl, rfl, rfl⟩

/-- A selection of one item matches where the item does. -/
theorem selectionIndicators_single {fields : Matchers.Fields} (condition : String × Value) :
    Matchers.selectionIndicators py .http fields (.dict [condition]) ≠ [] ↔
      Matchers.conditionIndicators py .http fields condition ≠ [] := by
  show Matchers.everyIndicators (Matchers.conditionIndicators py .http fields) [condition] ≠ [] ↔ _
  rw [Matchers.everyIndicators_ne_nil_iff]
  constructor
  · intro h
    exact h.2 condition List.mem_cons_self
  · intro h
    refine ⟨List.cons_ne_nil _ _, ?_⟩
    intro c hc
    rw [List.mem_singleton.mp hc]
    exact h

section Item

variable {fields : Matchers.Fields} {rawField name field value : String}

/-- An item without a modifier is about the whole field. -/
theorem conditionIndicators_equals (hsplit : Sigma.splitSigmaField py rawField = (name, []))
    (halias : Matchers.Http.fieldAliases.get? name = some field) (hvalue : py.lower value = value) :
    Matchers.conditionIndicators py .http fields (rawField, .str value) ≠ [] ↔
      fields.getD field [] = value.toList := by
  unfold Matchers.conditionIndicators
  rw [hsplit]
  dsimp only [Matchers.Matcher.fieldAliases]
  rw [halias]
  show (if [(py.lower value).toList] = [] then _ else
    ([(py.lower value).toList].filter fun v => fields.getD field [] = v).map _) ≠ [] ↔ _
  rw [if_neg (List.cons_ne_nil _ _), hvalue, ne_eq, List.map_eq_nil_iff, List.filter_singleton]
  by_cases h : fields.getD field [] = value.toList <;> simp [h]

/-- An item with `contains` is about a part of the field. -/
theorem conditionIndicators_contains
    (hsplit : Sigma.splitSigmaField py rawField = (name, ["contains"]))
    (halias : Matchers.Http.fieldAliases.get? name = some field) (hvalue : py.lower value = value)
    (hne : value ≠ "") :
    Matchers.conditionIndicators py .http fields (rawField, .list [.str value]) ≠ [] ↔
      contains value.toList (fields.getD field []) := by
  have hvalues : Sigma.sigmaValues py (.list [.str value]) = [value.toList] := by
    show (([.str value] : List Value).filter fun item =>
      Sigma.isScalar item && py.str item != "").map _ = _
    have hkept : (Sigma.isScalar (.str value) && py.str (.str value) != "") = true := by
      show (true && value != "") = true
      simpa using hne
    rw [List.filter_singleton, hkept]
    show [(py.lower value).toList] = _
    rw [hvalue]
  unfold Matchers.conditionIndicators
  rw [hsplit]
  dsimp only [Matchers.Matcher.fieldAliases]
  rw [halias]
  dsimp only
  rw [hvalues, if_neg (List.cons_ne_nil _ _)]
  show ([value.toList].filter fun v => contains v (fields.getD field [])).map _ ≠ [] ↔ _
  rw [ne_eq, List.map_eq_nil_iff, List.filter_singleton]
  by_cases h : contains value.toList (fields.getD field []) = true <;> simp [h]

end Item

/-- **When the rule is reported.** -/
theorem validTokenReuse_iff (hlower : LowersLatin py.lower) (r : Matchers.HttpRequest) :
    Matchers.ruleIndicators py .http (Matchers.normalizeHttpFields py r)
      (validTokenReuse py).plans ≠ [] ↔
        py.lower r.surface = "internal" ∧ py.lower (r.assetId.getD "") = "internal-portal" ∧
          contains "auth_result=success".toList (py.lower (r.bodyPreview.getD "")).toList := by
  obtain ⟨hsurface, hasset, hbody⟩ := @normalizeHttpFields_eq py r
  have hlowered {text : String} (h : text ∈ ruleTexts) := lower_ruleText hlower h
  have hsurfaceItem : Sigma.splitSigmaField py "honeynet.surface" = ("honeynet_surface", []) := by
    show (py.lower "honeynet_surface", []) = _
    rw [hlowered (by decide)]
  have hassetItem : Sigma.splitSigmaField py "honeynet.asset_id" = ("honeynet_asset_id", []) := by
    show (py.lower "honeynet_asset_id", []) = _
    rw [hlowered (by decide)]
  have hbodyItem : Sigma.splitSigmaField py "http.request.body.content|contains" =
      ("http_request_body_content", ["contains"]) := by
    show (py.lower "http_request_body_content", [py.lower "contains"]) = _
    rw [hlowered (by decide), hlowered (by decide)]
  have hsurfaceIff : Matchers.selectionIndicators py .http (Matchers.normalizeHttpFields py r)
      (.dict [("honeynet.surface", .str "internal")]) ≠ [] ↔ py.lower r.surface = "internal" := by
    rw [selectionIndicators_single, conditionIndicators_equals hsurfaceItem rfl
      (hlowered (by decide)), hsurface, String.toList_inj]
  have hassetIff : Matchers.selectionIndicators py .http (Matchers.normalizeHttpFields py r)
      (.dict [("honeynet.asset_id", .str "internal-portal")]) ≠ [] ↔
        py.lower (r.assetId.getD "") = "internal-portal" := by
    rw [selectionIndicators_single, conditionIndicators_equals hassetItem rfl
      (hlowered (by decide)), hasset, String.toList_inj]
  have hbodyIff : Matchers.selectionIndicators py .http (Matchers.normalizeHttpFields py r)
      (.dict [("http.request.body.content|contains", .list [.str "auth_result=success"])]) ≠ [] ↔
        contains "auth_result=success".toList (py.lower (r.bodyPreview.getD "")).toList := by
    rw [selectionIndicators_single, conditionIndicators_contains hbodyItem rfl
      (hlowered (by decide)) (by decide), hbody]
  rw [Matchers.ruleIndicators_ne_nil_iff, plans_validTokenReuse hlower, ← hsurfaceIff, ← hassetIff,
    ← hbodyIff]
  simp [validTokenReuseSelections]

end Rule

/-! ### The result of a login in a redacted body -/

section Redacted

variable {wide : Char → Bool}

/-- A text without secrets is left as it is. -/
theorem redactFrom_plain {t : List Char}
    (h : ∀ s ∈ t.tails, ∀ field ∈ secretFields, fieldAt s field = none) (before : Option Char) :
    redactFrom wide 0 before t = t := by
  induction t generalizing before with
  | nil => rfl
  | cons c t ih =>
    have hnone : secretAt wide before (c :: t) = none := by
      unfold secretAt
      by_cases hb : boundary wide before (c :: t).head? = true
      · rw [if_pos hb, List.findSome?_eq_none_iff]
        intro field hfield
        rw [h (c :: t) ((List.mem_tails _ _).mpr List.suffix_rfl) field hfield, Option.map_none]
      · rw [if_neg hb]
    rw [redactFrom_none hnone, ih]
    intro s hs
    exact h s ((List.mem_tails _ _).mpr (((List.mem_tails _ _).mp hs).trans (List.suffix_cons c t)))

/-- What is left of a text are characters of it, and markers. -/
theorem mem_redactFrom {t : List Char} {skip : ℕ} {before : Option Char} {c : Char}
    (h : c ∈ redactFrom wide skip before t) : c ∈ t ∨ c ∈ marker := by
  induction t generalizing skip before with
  | nil =>
    cases skip with
    | zero => exact Or.inl h
    | succ skip => exact Or.inl h
  | cons d t ih =>
    cases skip with
    | succ skip =>
      rw [redactFrom] at h
      exact (ih h).imp (List.mem_cons_of_mem d) id
    | zero =>
      cases hat : secretAt wide before (d :: t) with
      | none =>
        rw [redactFrom_none hat] at h
        rcases List.mem_cons.mp h with rfl | h
        · exact Or.inl List.mem_cons_self
        · exact (ih h).imp (List.mem_cons_of_mem d) id
      | some lengths =>
        rw [redactFrom_some hat] at h
        rcases List.mem_append.mp h with h | h
        · exact (List.mem_append.mp h).imp List.mem_of_mem_take id
        · exact (ih h).imp (List.mem_cons_of_mem d) id

/-- What the gateway adds to a body. -/
def resultText (authResult : String) : List Char := ("auth_result=" ++ authResult).toList

/-- The results of a login. -/
def authResults : List String := [granted.authResult, denied.authResult]

theorem redactFrom_resultText {authResult : String} (h : authResult ∈ authResults)
    (before : Option Char) :
    redactFrom wide 0 before (resultText authResult) = resultText authResult := by
  have hall : ∀ authResult ∈ authResults, ∀ s ∈ (resultText authResult).tails,
      ∀ field ∈ secretFields, fieldAt s field = none := by decide
  exact redactFrom_plain (hall authResult h) before

/-- A body with the result of a login. -/
def markedBody (body : List Char) (authResult : String) : List Char :=
  body ++ (if body = [] then [] else ['&']) ++ resultText authResult

/-- **The result of a login is left as it is.** -/
theorem redactBody_marked (body : List Char) {authResult : String} (h : authResult ∈ authResults) :
    redactBody wide (markedBody body authResult) =
      redactBody wide body ++ (if body = [] then [] else ['&']) ++ resultText authResult := by
  unfold redactBody markedBody
  by_cases hbody : body = []
  · subst hbody
    exact redactFrom_resultText h none
  · rw [if_neg hbody, List.append_assoc, List.singleton_append,
      redactFrom_ampersand (Nat.zero_le _), redactFrom_resultText h, List.append_assoc,
      List.singleton_append]

end Redacted

/-! ### The rule on what the gateway reports -/

/-- What the rule looks for. -/
def success : List Char := "auth_result=success".toList

/-- **The rule finds a result that the gateway has added**, or one in what was there before. -/
theorem contains_success_iff {lower : String → String} (hlower : LowersLatin lower)
    {wide : Char → Bool} {body : List Char} (hbody : ∀ c ∈ body, c.toNat < 256)
    {authResult : String} (h : authResult ∈ authResults) :
    contains success
        (lower (String.ofList (redactBody wide (markedBody body authResult)))).toList = true ↔
      authResult = "success" ∨
        contains success (lower (String.ofList (redactBody wide body))).toList = true := by
  have hlowered {t : List Char} (ht : ∀ c ∈ t, c.toNat < 256) :
      (lower (String.ofList t)).toList = t.map latinLower := by
    rw [hlower _ (by rwa [String.toList_ofList]), String.toList_ofList, String.toList_ofList]
  have hall : ∀ authResult ∈ authResults, (∀ c ∈ resultText authResult, c.toNat < 256) ∧
      contains success ((resultText authResult).map latinLower) =
        decide (authResult = "success") := by decide
  obtain ⟨hresult, hfound⟩ := hall authResult h
  have hmarker : ∀ c ∈ marker, c.toNat < 256 := by decide
  have hredacted : ∀ c ∈ redactBody wide body, c.toNat < 256 := by
    intro c hc
    exact (mem_redactFrom hc).elim (hbody c) (hmarker c)
  have hmarked : ∀ c ∈ redactBody wide (markedBody body authResult), c.toNat < 256 := by
    intro c hc
    rw [redactBody_marked body h] at hc
    rcases List.mem_append.mp hc with hc | hc
    · rcases List.mem_append.mp hc with hc | hc
      · exact hredacted c hc
      · by_cases hnil : body = []
        · rw [if_pos hnil] at hc
          exact absurd hc List.not_mem_nil
        · rw [if_neg hnil] at hc
          rw [List.mem_singleton.mp hc]
          decide
    · exact hresult c hc
  have hsame : success <:+: (resultText authResult).map latinLower ↔ authResult = "success" := by
    rw [← contains_iff, hfound, decide_eq_true_iff]
  rw [contains_iff, contains_iff, hlowered hmarked, hlowered hredacted, redactBody_marked body h,
    List.map_append, List.map_append, ← hsame]
  by_cases hnil : body = []
  · subst hnil
    show success <:+: [] ++ [] ++ _ ↔ _ ∨ success <:+: []
    rw [List.nil_append, List.nil_append]
    have hnone : ¬ success <:+: [] := by
      rw [List.infix_nil]
      decide
    exact (or_iff_left hnone).symm
  · rw [if_neg hnil, List.append_assoc]
    show success <:+: _ ++ '&' :: _ ↔ _
    constructor
    · intro hpart
      exact (infix_of_infix_append_cons (by decide) hpart).symm
    · rintro (hpart | hpart)
      · exact List.infix_append_of_infix_right (List.infix_cons hpart)
      · exact List.infix_append_of_infix_left hpart

/-- The body of a request as it was typed, as far as it is read. -/
def typedBody (data : List UInt8) : List Char := (httpParts data).2.take 4096

/-- What is read from the line that was written for an object: its keys and those of its headers
have been sorted. -/
structure ReadBack (payload line : Settings) : Prop where
  same : ∀ key, key ≠ "headers" → List.lookup key line = List.lookup key payload
  headers : ∀ headers : Settings, payload.get "headers" = .dict headers →
    ∃ read : Settings, List.lookup "headers" line = some (.dict read) ∧ headers.Perm read

section Report

variable {route : GatewayRoute} {parsed : ParsedHttpRequest} {line : Settings}

theorem mapM_headerText {headers : Settings} (h : ∀ e ∈ headers, ∃ s, e.2 = .str s) :
    ∃ texts, headers.mapM headerText = some texts := by
  induction headers with
  | nil => exact ⟨[], rfl⟩
  | cons e headers ih =>
    obtain ⟨s, hs⟩ := h e List.mem_cons_self
    obtain ⟨texts, htexts⟩ := ih fun e' he' => h e' (List.mem_cons_of_mem e he')
    refine ⟨(e.1, s) :: texts, ?_⟩
    have he : headerText e = some (e.1, s) := by
      unfold headerText
      rw [hs]
      rfl
    rw [List.mapM_cons, he, htexts]
    rfl

/-- **What the gateway reports is a request** for the entrypoint. -/
theorem captureRequest_report (hattacker : route.attackerKey ≠ "") (hmethod : parsed.method ≠ "")
    (hpath : parsed.path ≠ "")
    (h : ReadBack (internalHttpPayload route route.attackerKey parsed) line) :
    ∃ request, captureRequest line = some request ∧ request.attackerKey = route.attackerKey ∧
      request.surface = .internalAsset ∧ request.assetId = some route.assetId ∧
        request.bodyPreview = parsed.bodyPreview := by
  obtain ⟨read, hread, hperm⟩ := h.headers _ rfl
  obtain ⟨texts, htexts⟩ : ∃ texts, read.mapM headerText = some texts := by
    apply mapM_headerText
    intro e he
    obtain ⟨header, -, rfl⟩ := List.mem_map.mp (hperm.mem_iff.mpr he)
    exact ⟨_, rfl⟩
  have hget {key : String} (hkey : key ≠ "headers") :
      Settings.get line key = (internalHttpPayload route route.attackerKey parsed).get key := by
    unfold Settings.get
    rw [h.same key hkey]
  have hgetD {key : String} (hkey : key ≠ "headers") (default : Value) :
      Settings.getD line key default =
        (internalHttpPayload route route.attackerKey parsed).getD key default := by
    unfold Settings.getD
    rw [h.same key hkey]
  have hnonempty {s : String} (hs : s ≠ "") : nonempty (.str s) = some s := by
    show (some s).filter (· ≠ "") = some s
    rw [Option.filter_some, if_pos (by simpa using hs)]
  have hattackerKey : nonempty (line.get "attacker_key") = some route.attackerKey := by
    rw [hget (by decide)]
    exact hnonempty hattacker
  have hmethodName : nonempty (line.get "method") = some parsed.method := by
    rw [hget (by decide)]
    exact hnonempty hmethod
  have hpathName : nonempty (line.get "path") = some parsed.path := by
    rw [hget (by decide)]
    exact hnonempty hpath
  have hquery : (line.getD "query_string" (.str "")).str? = some parsed.queryString := by
    rw [hgetD (by decide)]
    rfl
  have hheaders : (line.getD "headers" (.dict [])).dict? = some read := by
    unfold Settings.getD
    rw [hread]
    rfl
  have hbody : optionalText (line.get "body_preview") = some parsed.bodyPreview := by
    rw [hget (by decide)]
    show optionalText (parsed.bodyPreview.elim .none .str) = some parsed.bodyPreview
    cases parsed.bodyPreview <;> rfl
  have htruncated : flag (line.getD "body_truncated" (.bool false)) =
      some parsed.bodyTruncated := by
    rw [hgetD (by decide)]
    rfl
  have hprotocol : nonempty (line.getD "protocol" (.str "tcp")) = some "http" := by
    rw [hgetD (by decide)]
    rfl
  have hsurface : surfaceOf (line.getD "surface" (.str "public")) = some .internalAsset := by
    rw [hgetD (by decide)]
    rfl
  have hasset : optionalText (line.get "asset_id") = some (some route.assetId) := by
    rw [hget (by decide)]
    rfl
  unfold captureRequest
  rw [hattackerKey, hmethodName, hpathName, hquery, hheaders, hbody, htruncated, hprotocol,
    hsurface, hasset]
  show ∃ request, (read.mapM headerText >>= fun headers => _) = some request ∧ _
  rw [htexts]
  exact ⟨_, rfl, rfl, rfl, rfl, rfl⟩

/-- A request has an attacker. -/
theorem captureRequest_attackerKey {request : EntrypointCaptureRequest}
    (h : captureRequest line = some request) :
    nonempty (line.get "attacker_key") = some request.attackerKey := by
  unfold captureRequest at h
  obtain ⟨attackerKey, hattacker, h⟩ := Option.bind_eq_some_iff.mp h
  rw [hattacker]
  obtain ⟨method, -, h⟩ := Option.bind_eq_some_iff.mp h
  obtain ⟨path, -, h⟩ := Option.bind_eq_some_iff.mp h
  obtain ⟨query, -, h⟩ := Option.bind_eq_some_iff.mp h
  obtain ⟨headers, -, h⟩ := Option.bind_eq_some_iff.mp h
  obtain ⟨texts, -, h⟩ := Option.bind_eq_some_iff.mp h
  obtain ⟨body, -, h⟩ := Option.bind_eq_some_iff.mp h
  obtain ⟨truncated, -, h⟩ := Option.bind_eq_some_iff.mp h
  obtain ⟨protocol, -, h⟩ := Option.bind_eq_some_iff.mp h
  obtain ⟨surface, -, h⟩ := Option.bind_eq_some_iff.mp h
  obtain ⟨asset, -, h⟩ := Option.bind_eq_some_iff.mp h
  rw [← Option.some.inj h]

/-- **A report is a request exactly where its route has an attacker**, and one of that attacker. -/
theorem captureRequest_report_iff (hmethod : parsed.method ≠ "") (hpath : parsed.path ≠ "")
    (h : ReadBack (internalHttpPayload route route.attackerKey parsed) line) :
    (captureRequest line = none ↔ route.attackerKey = "") ∧
      ∀ request, captureRequest line = some request → request.attackerKey = route.attackerKey ∧
        request.surface = .internalAsset ∧ request.assetId = some route.assetId := by
  by_cases hattacker : route.attackerKey = ""
  · have hnone : captureRequest line = none := by
      cases hrequest : captureRequest line with
      | none => rfl
      | some request =>
        have hkey := captureRequest_attackerKey hrequest
        unfold Settings.get at hkey
        rw [h.same "attacker_key" (by decide)] at hkey
        have hempty : nonempty (.str route.attackerKey) = some request.attackerKey := hkey
        have hnil : nonempty (.str "") = none := by decide
        rw [hattacker, hnil] at hempty
        exact absurd hempty (by simp)
    refine ⟨iff_of_true hnone hattacker, ?_⟩
    intro request hrequest
    exact absurd (hnone.symm.trans hrequest) (by simp)
  · obtain ⟨found, hfound, hkey, hsurface, hasset, -⟩ :=
      captureRequest_report hattacker hmethod hpath h
    refine ⟨iff_of_false (by simp [hfound]) hattacker, ?_⟩
    intro request hrequest
    obtain rfl := Option.some.inj (hfound.symm.trans hrequest)
    exact ⟨hkey, hsurface, hasset⟩

end Report

/-! ### The observation of a login -/

section Observed

variable {F : Type} {svc : EntrypointService F} {sigma : Sigma.Builtins}
  {rules : List Matchers.SigmaRule}

/-- A rule that no other is called like is reported where it matches. -/
theorem mem_ruleNames {rule : Matchers.SigmaRule} (hrule : rule ∈ rules)
    (honly : ∀ other ∈ rules, other.name = rule.name → other = rule) (fields : HttpFields) :
    rule.name ∈ (matchesFor sigma rules fields).map PublicHttpRuleMatch.ruleName ↔
      Matchers.ruleIndicators sigma .http (Matchers.normalizeHttpFields sigma
        ⟨fields.method, fields.path, fields.queryString, fields.bodyPreview, fields.userAgent,
          fields.surface.text, fields.assetId⟩) rule.plans ≠ [] := by
  unfold matchesFor
  rw [List.map_map]
  constructor
  · intro h
    obtain ⟨found, hfound, hname⟩ := List.mem_map.mp h
    obtain ⟨other, hother, hsame, hmatches⟩ := Matchers.matchesFor_reports hfound
    rw [← honly other hother (hsame.trans hname)]
    exact hmatches
  · intro h
    exact List.mem_map.mpr ⟨_, List.mem_filterMap.mpr ⟨rule, hrule, if_neg h⟩, rfl⟩

/-- What is stored of a request. -/
theorem observation_of_capture {call : CaptureCall} {request : EntrypointCaptureRequest}
    {s stored : Stores F} {response : EntrypointCaptureResponse F}
    (h : captureHttpRequest svc call request s = .ok (response, stored)) :
    response.observation.matchedRules =
      (ruleMatches svc request).map PublicHttpRuleMatch.ruleName := by
  unfold captureHttpRequest at h
  obtain ⟨⟨binding, bindings⟩, -, h⟩ := Fallible.bind_eq_ok.mp h
  have hstore := Except.ok.inj h
  unfold store at hstore
  split at hstore
  · rw [← (Prod.mk.inj hstore).1]
    rfl
  · rw [← (Prod.mk.inj hstore).1]
    rfl

/-- The body of a request is the part that was typed. -/
theorem body_of_parsed {py : HttpBuiltins} {data : List UInt8} {parsed : ParsedHttpRequest}
    (h : parseHttpRequest py data = .ok (some parsed)) :
    (parsed.bodyPreview.getD "").toList = typedBody data := by
  rw [(parseHttpRequest_spec h).2.2]
  unfold bodyPreviewOf typedBody
  by_cases hnil : (httpParts data).2 = []
  · rw [if_pos hnil, hnil]
    rfl
  · rw [if_neg hnil, Option.getD_some, String.toList_ofList]

/-- The result of a login is put at the end of the body. -/
theorem body_withAuthResult (parsed : ParsedHttpRequest) (authResult : String) :
    ((withAuthResult parsed authResult).bodyPreview.getD "").toList =
      markedBody (parsed.bodyPreview.getD "").toList authResult := by
  unfold withAuthResult markedBody resultText
  dsimp only
  rw [Option.getD_some, String.append_assoc, String.toList_append, String.toList_append,
    List.append_assoc]
  by_cases hnil : parsed.bodyPreview.getD "" = ""
  · rw [if_pos hnil, hnil]
    rfl
  · have hne : (parsed.bodyPreview.getD "").toList ≠ [] := fun h => hnil (String.toList_inj.mp h)
    rw [if_neg hnil, if_neg hne, List.append_assoc]
    rfl

/-- Redaction is of the text of a body, whether there is one or not. -/
theorem redactBodyPreview_getD (wide : Char → Bool) (bodyPreview : Option String) :
    (redactBodyPreview wide bodyPreview).getD "" =
      String.ofList (redactBody wide (bodyPreview.getD "").toList) := by
  cases bodyPreview <;> rfl

theorem typedBody_latin {data : List UInt8} : ∀ c ∈ typedBody data, c.toNat < 256 := by
  intro c hc
  exact toNat_decode (partition_subset _ _ (List.mem_of_mem_take hc))

/-- **A login of the portal is reported** where it was granted, or where its result was typed: what
the gateway reports of a chunk is a request for the entrypoint, whose observation names the rule
just then. -/
theorem portal_login_reported (hlower : LowersLatin sigma.lower)
    (hmatcher : svc.matchesFor = matchesFor sigma rules) (hrule : validTokenReuse sigma ∈ rules)
    (honly : ∀ rule ∈ rules, rule.name = (validTokenReuse sigma).name →
      rule = validTokenReuse sigma)
    {py : HttpBuiltins} {route : GatewayRoute} (hattacker : route.attackerKey ≠ "")
    {data : List UInt8} {turn : HttpTurn} (hturn : observeHttp py route data = .ok turn)
    {payload line : Settings} (hreported : turn.reported = some payload)
    (hread : ReadBack payload line) :
    ∃ request, captureRequest line = some request ∧
      ∀ (call : CaptureCall) (s stored : Stores F) (response : EntrypointCaptureResponse F),
        captureHttpRequest svc call request s = .ok (response, stored) →
          ("internal_http_valid_token_reuse" ∈ response.observation.matchedRules ↔
            sigma.lower route.assetId = "internal-portal" ∧
              (turn.answered = some granted ∨ contains success
                (sigma.lower (String.ofList (redactBody svc.wide (typedBody data)))).toList)) := by
  rcases observeHttp_cases hturn with ⟨-, rfl⟩ | ⟨parsed, hparse, hanswered, hreport⟩
  · exact absurd hreported (by simp)
  obtain ⟨hmethod, hpath, -⟩ := parseHttpRequest_spec hparse
  have hmethodNe : parsed.method ≠ "" := by
    intro h
    rw [h] at hmethod
    exact absurd hmethod (by decide)
  have hsent : (turn.answered.elim parsed fun r => withAuthResult parsed r.authResult).method =
      parsed.method ∧ (turn.answered.elim parsed fun r =>
        withAuthResult parsed r.authResult).path = parsed.path := by
    cases turn.answered <;> exact ⟨rfl, rfl⟩
  obtain rfl := Option.some.inj (hreport.symm.trans hreported)
  obtain ⟨request, hrequest, -, hsurface, hasset, hbody⟩ := captureRequest_report hattacker
    (by rwa [hsent.1]) (by rwa [hsent.2]) hread
  refine ⟨request, hrequest, ?_⟩
  intro call s stored response hcapture
  rw [observation_of_capture hcapture]
  unfold ruleMatches
  rw [hmatcher]
  show (validTokenReuse sigma).name ∈ _ ↔ _
  rw [mem_ruleNames hrule honly, validTokenReuse_iff hlower]
  dsimp only
  rw [hsurface, hasset, redactBodyPreview_getD, hbody]
  have hinternal : sigma.lower Surface.internalAsset.text = "internal" :=
    lower_ruleText hlower (by decide)
  rw [Option.getD_some, and_iff_right hinternal]
  refine and_congr_right fun _ => ?_
  cases hturned : turn.answered with
  | none =>
    show contains success _ = true ↔ _
    rw [Option.elim_none, body_of_parsed hparse]
    simp
  | some result =>
    rw [hturned] at hanswered
    show contains success _ = true ↔ _
    rw [Option.elim_some, body_withAuthResult, body_of_parsed hparse]
    rcases (answered_cases hanswered).2 with rfl | rfl
    · rw [contains_success_iff hlower typedBody_latin (by decide)]
      simp [granted]
    · rw [contains_success_iff hlower typedBody_latin (by decide)]
      simp [granted, denied]

end Observed

/-! ### A granted login -/

/-- `str.lower` on texts of the encoding. -/
def lowerText (s : String) : String := String.ofList (s.toList.map latinLower)

def latinBuiltins : Sigma.Builtins := ⟨lowerText, fun _ => "", Regex.reSearch Regex.ascii⟩

/-- Forms and targets in which nothing is escaped. -/
def plainBuiltins : HttpBuiltins where
  lower := lowerText
  str value := value.str?.getD ""
  loads _ := .error ⟨.valueError, "Expecting value: line 1 column 1 (char 0)"⟩
  parseQs text := (text.toList.splitOn '&').map fun pair =>
    (String.ofList (pair.takeWhile (· != '=')),
      [String.ofList ((pair.dropWhile (· != '=')).drop 1)])
  urlsplit target := .ok (String.ofList (target.toList.takeWhile (· != '?')),
    String.ofList ((target.toList.dropWhile (· != '?')).drop 1))

/-- An entrypoint with the one rule. -/
def portalEntrypoint : EntrypointService ℕ :=
  { quietEntrypoint with
    lower := lowerText
    profiler := none
    matchesFor := matchesFor latinBuiltins [validTokenReuse latinBuiltins] }

def portalRoute : GatewayRoute :=
  ⟨"198.51.100.7", "b-1", "internal-portal", "Internal Portal", "tcp", 18080, "portal", 80,
    "172.18.0.5", "2026-04-18T12:00:00Z"⟩

/-- The credential that is leaked on the public site. -/
def leakedLogin : List UInt8 :=
  ("POST /session HTTP/1.1\r\n\r\n" ++
    "username=portal.reader&token=nbp_reader_2026_04_window").toList.map fun c => UInt8.ofNat c.toNat

theorem granted_leakedLogin : ∃ turn payload,
    observeHttp plainBuiltins portalRoute leakedLogin = .ok turn ∧
      turn.answered = some granted ∧ turn.reported = some payload := by
  have hresult : ((observeHttp plainBuiltins portalRoute leakedLogin).toOption.bind
      HttpTurn.answered).map InternalPortalSessionResult.authResult = some "success" := by
    decide
  cases hturn : observeHttp plainBuiltins portalRoute leakedLogin with
  | error e =>
    rw [hturn] at hresult
    exact absurd hresult (by simp [Except.toOption])
  | ok turn =>
    rw [hturn] at hresult
    obtain ⟨result, hanswered, hsuccess⟩ := Option.map_eq_some_iff.mp hresult
    have hanswered : turn.answered = some result := hanswered
    rcases observeHttp_cases hturn with ⟨-, rfl⟩ | ⟨parsed, -, hparsed, hreported⟩
    · exact absurd hanswered (by simp)
    · rw [hanswered] at hparsed
      rcases (answered_cases hparsed).2 with rfl | rfl
      · exact ⟨turn, _, rfl, hanswered, hreported⟩
      · exact absurd hsuccess (by decide)

/-- **The login with the leaked credential is reported.** -/
theorem leaked_login_reported : ∃ turn payload request response stored,
    observeHttp plainBuiltins portalRoute leakedLogin = .ok turn ∧
      turn.reported = some payload ∧ captureRequest payload = some request ∧
        captureHttpRequest portalEntrypoint firstCall request {} = .ok (response, stored) ∧
          "internal_http_valid_token_reuse" ∈ response.observation.matchedRules := by
  obtain ⟨turn, payload, hturn, hanswered, hreported⟩ := granted_leakedLogin
  have hread : ReadBack payload payload := by
    refine ⟨fun _ _ => rfl, ?_⟩
    intro headers hheaders
    unfold Settings.get at hheaders
    cases hlookup : List.lookup "headers" payload with
    | none =>
      rw [hlookup] at hheaders
      exact absurd hheaders (by simp)
    | some value =>
      rw [hlookup] at hheaders
      exact ⟨headers, congrArg some hheaders, List.Perm.refl headers⟩
  obtain ⟨request, hrequest, hreports⟩ := @portal_login_reported ℕ portalEntrypoint latinBuiltins
    [validTokenReuse latinBuiltins] (fun _ _ => rfl) rfl List.mem_cons_self
    (fun rule hrule _ => List.mem_singleton.mp hrule) plainBuiltins portalRoute (by decide)
    leakedLogin turn hturn payload payload hreported hread
  have hcapture : ∃ response stored,
      captureHttpRequest portalEntrypoint firstCall request {} = .ok (response, stored) :=
    ⟨_, _, rfl⟩
  obtain ⟨response, stored, hcapture⟩ := hcapture
  refine ⟨turn, payload, request, response, stored, hturn, hreported, hrequest, hcapture, ?_⟩
  exact (hreports firstCall {} stored response hcapture).mpr ⟨by decide, Or.inl hanswered⟩

end Honeynet.Entrypoint
