import Honeynet.Sigma.Fields

/-!
# The HTTP and the high-interaction matcher

The two matchers run the same loop over the plans of a rule.  They differ in the fields a
normalized event has and in the names a rule may call them by.

* `ruleIndicators`: the markers of a rule that matches an event, none when it does not.
* `ruleIndicators_ne_nil_iff`: a rule is reported iff some plan has all its positive selections
  matched and none of its negative ones.
-/

namespace Honeynet.Matchers

open Collections Text Honeynet.Sigma

/-- The normalized lower-case fields of an event. -/
abbrev Fields := Dict String (List Char)

/-- The two matchers. -/
inductive Matcher
  | http
  | highInteraction
  deriving DecidableEq

def Http.fieldAliases : Dict String String :=
  [("method", "method"), ("http_method", "method"), ("http.request.method", "method"),
    ("http_request_method", "method"), ("request_method", "method"), ("url.path", "path"),
    ("url_path", "path"), ("uri_path", "path"), ("cs_uri_stem", "path"),
    ("query_string", "query_string"), ("url.query", "query_string"),
    ("url_query", "query_string"), ("cs_uri_query", "query_string"), ("body", "body_preview"),
    ("body_preview", "body_preview"), ("http.request.body.content", "body_preview"),
    ("http_request_body_content", "body_preview"), ("user_agent", "user_agent"),
    ("http.user_agent", "user_agent"), ("http_user_agent", "user_agent"),
    ("user_agent.original", "user_agent"), ("user_agent_original", "user_agent"),
    ("url.original", "combined"), ("url_original", "combined"), ("request", "combined"),
    ("request_uri", "combined"), ("http.url", "combined"), ("http_url", "combined"),
    ("combined", "combined"), ("honeynet.surface", "surface"), ("honeynet_surface", "surface"),
    ("surface", "surface"), ("honeynet.asset_id", "asset_id"),
    ("honeynet_asset_id", "asset_id"), ("asset_id", "asset_id")]

def HighInteraction.fieldAliases : Dict String String :=
  [("honeynet.source", "source"), ("honeynet_source", "source"), ("source", "source"),
    ("event_source", "source"), ("honeynet.service", "service"),
    ("honeynet_service", "service"), ("service", "service"), ("protocol", "service"),
    ("event_type", "event_type"), ("event.action", "event_type"),
    ("event_action", "event_type"), ("eventid", "event_type"),
    ("honeynet.asset_id", "asset_id"), ("honeynet_asset_id", "asset_id"),
    ("asset_id", "asset_id"), ("source.ip", "src_host"), ("source_ip", "src_host"),
    ("src_ip", "src_host"), ("src_host", "src_host"), ("destination.ip", "dst_host"),
    ("destination_ip", "dst_host"), ("dst_ip", "dst_host"), ("dst_host", "dst_host"),
    ("destination.port", "dst_port"), ("destination_port", "dst_port"),
    ("dst_port", "dst_port"), ("logdata.message", "logdata_message"),
    ("logdata_message", "logdata_message"), ("message", "logdata_message"),
    ("logdata", "logdata"), ("request", "logdata"), ("payload", "logdata"),
    ("combined", "combined")]

def Matcher.fieldAliases : Matcher → Dict String String
  | .http => Http.fieldAliases
  | .highInteraction => HighInteraction.fieldAliases

/-! ### Normalized events -/

/-- What the HTTP matcher is asked about. -/
structure HttpRequest where
  method : String
  path : String
  queryString : String := ""
  bodyPreview : Option String := none
  userAgent : Option String := none
  surface : String := "public"
  assetId : Option String := none

/-- The fields of a normalized high-interaction event that the matcher reads. -/
structure HighInteractionLogEvent where
  source : String
  attackerKey : String
  service : String := "unknown"
  eventType : String := "interaction"
  assetId : Option String := none
  srcHost : Option String := none
  dstHost : Option String := none
  dstPort : Option Int := none
  logdata : Settings := []

/-- Add `combined`, all fields in one text, and put everything in lower case. -/
def withCombined (py : Builtins) (fields : Dict String String) : Fields :=
  (Dict.set fields "combined" (" ".intercalate (fields.map Prod.snd))).map
    fun e => (e.1, (py.lower e.2).toList)

def normalizeHttpFields (py : Builtins) (r : HttpRequest) : Fields :=
  withCombined py
    [("method", r.method), ("path", r.path), ("query_string", r.queryString),
      ("body_preview", r.bodyPreview.getD ""), ("user_agent", r.userAgent.getD ""),
      ("surface", r.surface), ("asset_id", r.assetId.getD "")]

/-- `value or other` on an optional text. -/
def orElse (value : Option String) (other : String) : String :=
  match value with
  | some s => if s = "" then other else s
  | none => other

def normalizeEventFields (py : Builtins) (e : HighInteractionLogEvent) :
    Except PyError Fields :=
  match e.assetId with
  | none => .error ⟨.typeError, "sequence item 3: expected str instance, NoneType found"⟩
  | some assetId => .ok <| withCombined py
    [("source", e.source), ("service", e.service), ("event_type", e.eventType),
      ("asset_id", assetId), ("src_host", orElse e.srcHost e.attackerKey),
      ("dst_host", e.dstHost.getD ""),
      ("dst_port", if e.dstPort.getD 0 = 0 then "" else toString (e.dstPort.getD 0)),
      ("logdata_message", py.str ((e.logdata.get? "message").getD (.str ""))),
      ("logdata", " ".intercalate (e.logdata.map fun kv => py.str kv.2))]

/-! ### Matching -/

def formatIndicator (field : String) (marker : List Char) : String :=
  field ++ ":" ++ String.ofList marker

def fieldIndicators (py : Builtins) (field : String) (observed : List Char)
    (modifiers : List String) (values : List (List Char)) : List String :=
  if "contains" ∈ modifiers ∧ "all" ∈ modifiers then
    if values.all fun value => contains value observed then
      (values.filter fun value => contains value observed).map (formatIndicator field)
    else []
  else if "contains" ∈ modifiers then
    (values.filter fun value => contains value observed).map (formatIndicator field)
  else if "startswith" ∈ modifiers then
    (values.filter fun value => value.isPrefixOf observed).map (formatIndicator field)
  else if "endswith" ∈ modifiers then
    (values.filter fun value => value.isSuffixOf observed).map (formatIndicator field)
  else if "re" ∈ modifiers ∨ "regex" ∈ modifiers then
    (values.filter fun value => py.search value observed).map (formatIndicator field)
  else if modifiers = [] then
    (values.filter fun value => observed = value).map (formatIndicator field)
  else []

/-- One round of the loop over the items of a mapping. -/
def conditionIndicators (py : Builtins) (m : Matcher) (fields : Fields)
    (condition : String × Value) : List String :=
  let (field, modifiers) := splitSigmaField py condition.1
  match m.fieldAliases.get? field with
  | none => []
  | some normalizedField =>
    let values := sigmaValues py condition.2
    if values = [] then []
    else fieldIndicators py normalizedField (fields.getD normalizedField []) modifiers values

/-- The indicators of every item, none as soon as one item has none. -/
def everyIndicators {α : Type*} (f : α → List String) (xs : List α) : List String :=
  if xs.all fun x => !(f x).isEmpty then xs.flatMap f else []

/-- A keyword that is looked for: a nonempty string. -/
def keyword? : Value → Option String
  | .str s => if s = "" then none else some s
  | _ => none

def keywordIndicators (py : Builtins) (fields : Fields) (selection : List Value) : List String :=
  let combined := fields.getD "combined" []
  ((selection.filterMap keyword?).filter fun value =>
    py.search (sigmaKeywordToRegex py value) combined).map
      fun value => formatIndicator "combined" value.toList

def selectionIndicators (py : Builtins) (m : Matcher) (fields : Fields) : Value → List String
  | .list selection => keywordIndicators py fields selection
  | .dict selection => everyIndicators (conditionIndicators py m fields) selection
  | _ => []

/-- One round of the loop over the plans of a rule. -/
def planIndicators (py : Builtins) (m : Matcher) (fields : Fields) (plan : SigmaSelectionPlan) :
    List String :=
  let indicators := everyIndicators (selectionIndicators py m fields) plan.positives
  if indicators = [] then []
  else if plan.negatives.any fun s => !(selectionIndicators py m fields s).isEmpty then []
  else indicators

def ruleIndicators (py : Builtins) (m : Matcher) (fields : Fields)
    (plans : List SigmaSelectionPlan) : List String :=
  appendNew [] (plans.flatMap (planIndicators py m fields))

/-- One rule prepared for matching. -/
structure SigmaRule where
  name : String
  tags : List String
  evidenceLabel : Option String
  plans : List SigmaSelectionPlan

/-- One reported rule. -/
structure RuleMatch where
  ruleName : String
  tags : List String
  indicators : List String
  evidenceLabel : Option String

def matchesFor (py : Builtins) (m : Matcher) (rules : List SigmaRule) (fields : Fields) :
    List RuleMatch :=
  rules.filterMap fun rule =>
    let indicators := ruleIndicators py m fields rule.plans
    if indicators = [] then none
    else some ⟨rule.name, rule.tags, appendNew [] indicators, rule.evidenceLabel⟩

/-! ### When a rule is reported -/

section Spec

variable {py : Builtins} {m : Matcher} {fields : Fields}

/-- Every name a rule may call a field by is a field of a normalized event. -/
theorem aliased_field_present :
    (∀ e ∈ Http.fieldAliases, ∀ r, e.2 ∈ (normalizeHttpFields py r).map Prod.fst) ∧
      ∀ e ∈ HighInteraction.fieldAliases, ∀ ev fields, normalizeEventFields py ev = .ok fields →
        e.2 ∈ fields.map Prod.fst := by
  constructor
  · intro e he r
    have hkeys : (normalizeHttpFields py r).map Prod.fst = ["method", "path", "query_string",
        "body_preview", "user_agent", "surface", "asset_id", "combined"] := rfl
    rw [hkeys]
    revert he e
    decide
  · intro e he ev fields hok
    have hkeys : fields.map Prod.fst = ["source", "service", "event_type", "asset_id", "src_host",
        "dst_host", "dst_port", "logdata_message", "logdata", "combined"] := by
      rw [normalizeEventFields] at hok
      cases ha : ev.assetId with
      | none => simp [ha] at hok
      | some a =>
        simp only [ha, Except.ok.injEq] at hok
        rw [← hok]
        rfl
    rw [hkeys]
    revert he e
    decide

theorem everyIndicators_ne_nil_iff {α : Type*} {f : α → List String} {xs : List α} :
    everyIndicators f xs ≠ [] ↔ xs ≠ [] ∧ ∀ x ∈ xs, f x ≠ [] := by
  rw [everyIndicators]
  by_cases h : xs.all (fun x => !(f x).isEmpty) = true
  · have hall : ∀ x ∈ xs, f x ≠ [] := by simpa [List.isEmpty_iff] using h
    rw [if_pos h]
    constructor
    · intro hne
      refine ⟨?_, hall⟩
      rintro rfl
      exact hne rfl
    · rintro ⟨hne, _⟩ hnil
      obtain ⟨x, hx⟩ := List.exists_mem_of_ne_nil xs hne
      exact hall x hx (List.flatMap_eq_nil_iff.mp hnil x hx)
  · rw [if_neg h]
    refine ⟨fun hc => absurd rfl hc, fun hc => ?_⟩
    exact absurd (by simpa [List.isEmpty_iff] using hc.2) h

theorem planIndicators_ne_nil_iff {plan : SigmaSelectionPlan} :
    planIndicators py m fields plan ≠ [] ↔
      (plan.positives ≠ [] ∧ ∀ s ∈ plan.positives, selectionIndicators py m fields s ≠ []) ∧
        ∀ s ∈ plan.negatives, selectionIndicators py m fields s = [] := by
  have hpos := @everyIndicators_ne_nil_iff _ (selectionIndicators py m fields) plan.positives
  rw [planIndicators]
  by_cases hnil : everyIndicators (selectionIndicators py m fields) plan.positives = []
  · simp only [hnil, if_true]
    exact ⟨fun hc => absurd rfl hc, fun hc => absurd hnil (hpos.mpr hc.1)⟩
  · simp only [hnil, if_false]
    by_cases h : plan.negatives.any (fun s => !(selectionIndicators py m fields s).isEmpty) = true
    · rw [if_pos h]
      refine ⟨fun hc => absurd rfl hc, fun hc => ?_⟩
      obtain ⟨s, hs, hm⟩ := List.any_eq_true.mp h
      simp [hc.2 s hs] at hm
    · rw [if_neg h]
      have hneg : ∀ s ∈ plan.negatives, selectionIndicators py m fields s = [] := by
        simpa [List.isEmpty_iff] using h
      exact ⟨fun _ => ⟨hpos.mp hnil, hneg⟩, fun _ => hnil⟩

/-- **A rule is reported iff one of its plans is fulfilled as the matcher reads selections.** -/
theorem ruleIndicators_ne_nil_iff {plans : List SigmaSelectionPlan} :
    ruleIndicators py m fields plans ≠ [] ↔ ∃ plan ∈ plans,
      (plan.positives ≠ [] ∧ ∀ s ∈ plan.positives, selectionIndicators py m fields s ≠ []) ∧
        ∀ s ∈ plan.negatives, selectionIndicators py m fields s = [] := by
  have hdedupe : ∀ xs : List String, appendNew [] xs ≠ [] ↔ xs ≠ [] := by
    intro xs
    cases xs with
    | nil => simp
    | cons x xs =>
      simp only [ne_eq, reduceCtorEq, not_false_eq_true, iff_true]
      exact List.ne_nil_of_mem (mem_appendNew.mpr (Or.inr List.mem_cons_self))
  rw [ruleIndicators, hdedupe, ne_eq, List.flatMap_eq_nil_iff]
  simp only [not_forall, exists_prop, ← ne_eq, planIndicators_ne_nil_iff]

theorem matchesFor_reports {rules : List SigmaRule} {found : RuleMatch}
    (h : found ∈ matchesFor py m rules fields) :
    ∃ rule ∈ rules, rule.name = found.ruleName ∧ ruleIndicators py m fields rule.plans ≠ [] := by
  obtain ⟨rule, hrule, hfound⟩ := List.mem_filterMap.mp h
  by_cases hnil : ruleIndicators py m fields rule.plans = []
  · simp [hnil] at hfound
  · simp only [hnil, if_false, Option.some.injEq] at hfound
    exact ⟨rule, hrule, by rw [← hfound], hnil⟩

end Spec

end Honeynet.Matchers
