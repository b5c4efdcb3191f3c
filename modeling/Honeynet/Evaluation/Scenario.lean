import Honeynet.Evaluation.Baselines

/-!
# Scenarios

A scenario is a JSON object: what is known of the attacker, the classes of its assets, and a
timeline of steps, or nothing but one snapshot.

* `scenarioRequest`: the request of a scenario.
* `scenarioTimeline`: its steps.
* `scenarioForTimelineStep`: the scenario of one step, in the state that the earlier ones left.
-/

namespace Honeynet.Evaluation

open Collections Controller

/-! ### Reading a scenario -/

/-- The strings of a list value that are not empty. -/
def stringList : Value → List String
  | .list items => (Value.strings items).filter (· ≠ "")
  | _ => []

/-- The objects of a list value. -/
def objects : Value → List Settings
  | .list items => items.filterMap Value.dict?
  | _ => []

def revealedConfigurations : Value → Dict String (List String)
  | .dict d => d.map fun e => (e.1, stringList e.2)
  | _ => []

/-- The first text under one of the keys that is not empty, of each event. -/
def values (events : List Settings) (keys : List String) : List String :=
  events.filterMap fun event =>
    keys.findSome? fun key => (event.get key).str?.filter (· ≠ "")

section Profile

variable {F : Type} (fl : Floats F)

/-- `float(weight)`, for a weight that is a number. -/
def eventWeight (event : Settings) : Except PyError F :=
  match fl.number? (event.getD "weight" (.float (4 / 5))) with
  | some number => number
  | none => .ok (fl.ofRat (4 / 5))

def maxWeights (keys : List String) (events : List Settings) : Except PyError (Dict String F) :=
  events.foldlM (fun weights event => do
    let score ← eventWeight fl event
    return (values [event] keys).foldl (fun weights value =>
      Dict.set weights value (fl.max (weights.getD value fl.zero) (fl.clamp score))) weights) []

def profileFromEvidenceSequence (rawEvents : Value) : Except PyError (ProfileSnapshot F) := do
  let events := objects rawEvents
  let weightsByTechnique ← maxWeights fl ["technique", "tech_id"] events
  return {
    confByTechnique := weightsByTechnique
    recentTechniques := appendNew [] (values events ["technique", "tech_id"])
    recentTactics := appendNew [] (values events ["tactic", "group"])
    recentEvidenceIds := appendNew [] (values events ["evidence_id"])
    recentPublicHttpPaths := appendNew [] (values events ["public_http_path"])
    recentPublicHttpRules := appendNew [] (values events ["public_http_rule"])
    recentPublicHttpIndicators := appendNew [] (values events ["public_http_indicator"])
    recentInternalHttpPaths := appendNew [] (values events ["internal_http_path"])
    recentInternalHttpRules := appendNew [] (values events ["internal_http_rule"])
    recentInternalHttpIndicators := appendNew [] (values events ["internal_http_indicator"])
    recentAssetIds := appendNew [] (values events ["asset_id", "source_asset_id"]) }

end Profile

section Request

variable {F : Type} (ev : Evaluator F)

/-- `str(value or default)`. -/
def textOr (value : Value) (default : String) : String :=
  if value.truthy then ev.controller.str value else default

def scenarioAttackerKey (scenario : Settings) : String :=
  textOr ev (scenario.get "attacker_key") "198.51.100.200"

def scenarioProfile (scenario : Settings) : Except PyError (ProfileSnapshot F) :=
  match (scenario.get "profile").dict? with
  | some profilePayload =>
    ev.validateProfile
      (Dict.update [("attacker_key", .str (scenarioAttackerKey ev scenario))] profilePayload)
  | none => profileFromEvidenceSequence ev.controller.float (scenario.get "evidence_sequence")

def scenarioRequest (scenario : Settings) : Except PyError (ControllerTickRequest F) := do
  let profile ← scenarioProfile ev scenario
  return {
    attackerKey := scenarioAttackerKey ev scenario
    bindingId := textOr ev (scenario.get "binding_id")
      ("binding-" ++ ev.controller.str (scenario.getD "scenario_id" (.str "scenario")))
    profile
    unlockedAssetIds := stringList (scenario.get "initial_unlocked_assets")
    revealedConfigurations := revealedConfigurations (scenario.get "revealed_configurations") }

end Request

/-! ### The classes of assets -/

/-- The classes of the assets of a scenario. -/
structure AssetSets where
  reasonable : List String
  hidden : List String
  useful : List String
  diagnostic : List String

def scenarioAssetSets (scenario : Settings) : AssetSets :=
  let reasonable := stringList (scenario.get "expected_reasonable_assets")
  let useful := (scenario.get? "useful_followup_assets").elim reasonable stringList
  { reasonable
    hidden := stringList (scenario.get "expected_hidden_assets")
    useful
    diagnostic := (scenario.get? "diagnostic_followup_assets").elim useful stringList }

/-! ### The steps of a scenario -/

/-- The steps that a scenario lists. -/
def explicitTimeline (scenario : Settings) : Option (List Settings) :=
  match scenario.get "timeline" with
  | .list (item :: items) => some ((item :: items).filterMap Value.dict?)
  | _ => none

/-- The one step of a scenario that lists none. -/
def snapshotStep (scenario : Settings) : Settings :=
  [("step_id", .str "snapshot"), ("phase", .str "snapshot"),
    ("new_evidence", scenario.getD "evidence_sequence" (.list [])),
    ("profile", scenario.get "profile"),
    ("expected_reveals", scenario.get "expected_reveals"),
    ("allowed_reveals", scenario.get "allowed_reveals"),
    ("expected_no_reveal", scenario.get "expected_no_reveal"),
    ("touched_assets", scenario.get "touched_assets"),
    ("expected_reason", scenario.get "expected_behavior")]

def scenarioTimeline (scenario : Settings) : List Settings :=
  (explicitTimeline scenario).getD [snapshotStep scenario]

/-- The events that a step adds; one object is one event. -/
def stepNewEvidence (step : Settings) : List Settings :=
  match step.getD "new_evidence" (.list []) with
  | .dict event => [event]
  | rawEvidence => objects rawEvidence

/-- What the earlier steps of a replay leave. -/
structure ReplayState where
  cumulativeEvents : List Settings := []
  unlockedAssets : List String
  revealedConfigurations : Dict String (List String)

def texts (items : List String) : Value := .list (items.map .str)

section Step

variable {F : Type} (ev : Evaluator F)

/-- The fields of the scenario of a step that are not those of the whole scenario. -/
def stepFields (scenario step : Settings) (s : ReplayState) (index : ℕ) : Settings :=
  let stepId := textOr ev (step.get "step_id") ("step-" ++ toString index)
  [("scenario_id", .str (ev.controller.str (scenario.getD "scenario_id" (.str "scenario")) ++
      "::" ++ stepId)),
    ("initial_unlocked_assets", texts s.unlockedAssets),
    ("revealed_configurations", .dict (s.revealedConfigurations.map fun e => (e.1, texts e.2))),
    ("evidence_sequence", .list (s.cumulativeEvents.map .dict)),
    ("expected_reveals", step.getD "expected_reveals" (.list [])),
    ("allowed_reveals", step.getD "allowed_reveals" (.list [])),
    ("expected_no_reveal", .bool (step.get "expected_no_reveal").truthy),
    ("touched_assets", step.getD "touched_assets" (.list []))]

def scenarioForTimelineStep (scenario step : Settings) (s : ReplayState) (index : ℕ) : Settings :=
  let stepScenario : Settings := scenario.update (stepFields ev scenario step s index)
  match (step.get "profile").dict? with
  | some profile => (stepScenario.set "profile" (.dict profile)).pop "evidence_sequence"
  | none => stepScenario.pop "profile"

/-! ### Reading the scenario of a step -/

variable {ev}

theorem nodup_stepFields (scenario step : Settings) (s : ReplayState) (index : ℕ) :
    ((stepFields ev scenario step s index).map Prod.fst).Nodup := by
  show ["scenario_id", "initial_unlocked_assets", "revealed_configurations", "evidence_sequence",
    "expected_reveals", "allowed_reveals", "expected_no_reveal", "touched_assets"].Nodup
  decide

variable {scenario step : Settings} {s : ReplayState} {index : ℕ}

theorem lookup_scenarioForTimelineStep {key : String} (hprofile : key ≠ "profile")
    (hevidence : key ≠ "evidence_sequence") :
    (scenarioForTimelineStep ev scenario step s index).lookup key =
      ((stepFields ev scenario step s index).lookup key).or (scenario.lookup key) := by
  rw [scenarioForTimelineStep]
  cases (step.get "profile").dict? with
  | none =>
    rw [lookup_pop, if_neg hprofile, lookup_update (nodup_stepFields scenario step s index)]
  | some profile =>
    rw [lookup_pop, if_neg hevidence, lookup_set_ne _ hprofile,
      lookup_update (nodup_stepFields scenario step s index)]

/-- A field that steps do not have is read from the scenario. -/
theorem get_scenarioForTimelineStep {key : String} (hprofile : key ≠ "profile")
    (hevidence : key ≠ "evidence_sequence")
    (hfields : (stepFields ev scenario step s index).lookup key = none) :
    (scenarioForTimelineStep ev scenario step s index).get key = scenario.get key := by
  rw [Settings.get, lookup_scenarioForTimelineStep hprofile hevidence, hfields]
  rfl

theorem scenarioAttackerKey_step :
    scenarioAttackerKey ev (scenarioForTimelineStep ev scenario step s index) =
      scenarioAttackerKey ev scenario := by
  rw [scenarioAttackerKey, get_scenarioForTimelineStep (by decide) (by decide) rfl]
  rfl

theorem dict_profile_step :
    ((scenarioForTimelineStep ev scenario step s index).get "profile").dict? =
      (step.get "profile").dict? := by
  rw [scenarioForTimelineStep, Settings.get]
  cases (step.get "profile").dict? with
  | none => rw [lookup_pop, if_pos rfl]; rfl
  | some profile => rw [lookup_pop, if_neg (by decide), lookup_set_self]; rfl

theorem get_evidence_step (h : (step.get "profile").dict? = none) :
    (scenarioForTimelineStep ev scenario step s index).get "evidence_sequence" =
      .list (s.cumulativeEvents.map .dict) := by
  rw [scenarioForTimelineStep, Settings.get, h, lookup_pop, if_neg (by decide),
    lookup_update (nodup_stepFields scenario step s index)]
  rfl

theorem get_unlocked_step :
    (scenarioForTimelineStep ev scenario step s index).get "initial_unlocked_assets" =
      texts s.unlockedAssets := by
  rw [Settings.get, lookup_scenarioForTimelineStep (by decide) (by decide)]
  rfl

theorem get_revealed_step :
    (scenarioForTimelineStep ev scenario step s index).get "revealed_configurations" =
      .dict (s.revealedConfigurations.map fun e => (e.1, texts e.2)) := by
  rw [Settings.get, lookup_scenarioForTimelineStep (by decide) (by decide)]
  rfl

theorem stringList_texts (items : List String) :
    stringList (texts items) = items.filter (· ≠ "") := by
  have hstrings : Value.strings (items.map .str) = items := by
    rw [Value.strings, List.filterMap_map]
    exact List.filterMap_some
  show (Value.strings (items.map .str)).filter (· ≠ "") = _
  rw [hstrings]

theorem stringList_texts_stringList (value : Value) :
    stringList (texts (stringList value)) = stringList value := by
  rw [stringList_texts]
  cases value with
  | list items => exact List.filter_filter.trans (by simp [stringList])
  | _ => rfl

theorem revealedConfigurations_texts (value : Value) :
    revealedConfigurations (.dict ((revealedConfigurations value).map fun e => (e.1, texts e.2))) =
      revealedConfigurations value := by
  cases value with
  | dict d =>
    show ((d.map _).map _).map _ = d.map _
    rw [List.map_map, List.map_map]
    exact List.map_congr_left fun e _ => Prod.ext rfl (stringList_texts_stringList e.2)
  | _ => rfl

theorem objects_list_dict (events : List Settings) : objects (.list (events.map .dict)) = events := by
  show (events.map Value.dict).filterMap Value.dict? = events
  rw [List.filterMap_map]
  exact List.filterMap_some

end Step

end Honeynet.Evaluation
