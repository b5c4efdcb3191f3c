import Honeynet.Controller.Scoring

/-!
# A controller tick

Two passes over the options: the main reveal, and one that explores.  The second sees what the
first exposes.

* `pass`: the candidates of one pass and the one it selects.
* `tick`: the actions of a request with a decision event for each.
-/

namespace Honeynet.Controller

open Collections

/-- The identity of one scored option. -/
structure RevealOptionSummary where
  actionType : ActionType
  assetId : String
  configurationId : Option String
  targetAssetId : Option String
  deriving DecidableEq

inductive DecisionType
  | bind
  | unlock
  | configure
  | routeUpdate
  | recycle
  | noop
  deriving DecidableEq, Repr

/-- Why a decision was made: for a reveal, the scored candidate beside its competitors. -/
inductive DecisionDetails (F : Type)
  | noReveal (reason : String) (rejectedAssets : Dict String String)
  | reveal (candidate : CandidateScore F) (observedTechniques eligibleAssets : List String)
      (eligibleRevealOptions eligibleConfigurationVariants : List RevealOptionSummary)
      (rejectedAssets : Dict String String) (structuralPriorityRank : ℕ)

structure DecisionEvent (F : Type) where
  attackerKey : String
  bindingId : String
  decisionType : DecisionType
  reason : String
  triggerEvidenceIds : List String
  assetAdded : Option String := none
  priorDegraded : Option String
  priorSupportEnabled : Bool
  details : DecisionDetails F

structure ControllerTickResponse (F : Type) where
  bindingId : String
  actions : List ControllerAction
  decisionEvents : List (DecisionEvent F)
  candidateAssetIds : List String

section Tick

variable {F : Type} (ctl : ControllerService F)

/-- `prior_degraded` of an event. -/
def priorDegraded : Option String := if ctl.usePriorSupport then ctl.degradedReason else none

def buildAction (bindingId : String) (c : CandidateScore F) : ControllerAction :=
  if c.actionType = .configure then {
    actionType := .configure
    bindingId
    assetId := some c.asset.assetId
    configurationId := c.configurationId
    targetAssetId := c.targetAssetId
    configuration := c.configuration
    reason := c.strategy.value ++ " configured " ++ c.asset.assetId ++ " with " ++
      c.configurationId.getD "None" ++ " for technique " ++ c.selectedTechnique }
  else {
    actionType := .unlock
    bindingId
    assetId := some c.asset.assetId
    reason := c.strategy.value ++ " selected " ++ c.asset.assetId ++ " for technique " ++
      c.selectedTechnique ++ ": candidate_type=" ++ c.candidateType ++ ", gain=" ++
      ctl.float.render c.expectedTechniqueGain ++ ", telemetry=" ++
      ctl.float.render c.telemetryValue }

def revealOptionSummary (c : CandidateScore F) : RevealOptionSummary where
  actionType := c.actionType
  assetId := c.asset.assetId
  configurationId := c.configurationId
  targetAssetId := c.targetAssetId

def buildDecisionEvent (request : ControllerTickRequest F) (c : CandidateScore F)
    (rejected : Dict String String) (eligible : List (CandidateScore F)) : DecisionEvent F where
  attackerKey := request.attackerKey
  bindingId := request.bindingId
  decisionType := if c.actionType = .configure then .configure else .unlock
  reason :=
    c.strategy.value ++ " selected on " ++ c.exposedAssetId ++ " via " ++ c.selectedTechnique
  triggerEvidenceIds := request.profile.recentEvidenceIds
  assetAdded := some c.exposedAssetId
  priorDegraded := priorDegraded ctl
  priorSupportEnabled := ctl.usePriorSupport
  details := .reveal c (sortedSet (thresholdedObservedTechniques ctl request.profile))
    (appendNew [] ((eligible.filter fun e => e.actionType == .unlock).map fun e => e.asset.assetId))
    (eligible.map revealOptionSummary)
    ((eligible.map revealOptionSummary).filter fun o => o.actionType == .configure)
    rejected (structuralPriorityRank c)

def noopResponse (request : ControllerTickRequest F) (reason : String)
    (candidateAssetIds : List String) (rejected : Dict String String) :
    ControllerTickResponse F where
  bindingId := request.bindingId
  actions := [{ actionType := .noop, bindingId := request.bindingId, reason }]
  decisionEvents := [{
    attackerKey := request.attackerKey
    bindingId := request.bindingId
    decisionType := .noop
    reason
    triggerEvidenceIds := request.profile.recentEvidenceIds
    priorDegraded := priorDegraded ctl
    priorSupportEnabled := ctl.usePriorSupport
    details := .noReveal reason rejected }]
  candidateAssetIds

/-- What one pass finds. -/
structure Pass (F : Type) where
  candidates : List (CandidateScore F)
  rejected : Dict String String
  selected : Option (CandidateScore F)

/-- The catalog of a request. -/
def requestAssets (request : ControllerTickRequest F) : List AssetDefinition :=
  if request.assets = [] then ctl.listAll else request.assets

def pass (request : ControllerTickRequest F) (strategy : Strategy)
    (exploit : Option (CandidateScore F)) (planned : List String) (rejected : Dict String String) :
    Except PyError (Pass F) := do
  let options ← revealOptions ctl (requestAssets ctl request) request planned
  let observed := thresholdedObservedTechniques ctl request.profile
  let recommendations := if ctl.usePriorSupport then ctl.recommend observed else []
  let candidates := options.filterMap
    (scoreRevealOption ctl request strategy exploit observed recommendations)
  return {
    candidates
    rejected := recordRefusals ctl (requestAssets ctl request) request planned rejected
    selected := selectCandidate ctl candidates }

/-- The exposure list once a candidate is chosen. -/
def plannedAfter (planned : List String) (c : CandidateScore F) : List String :=
  if c.actionType = .unlock then planned ++ [c.asset.assetId]
  else
    match c.targetAssetId with
    | some target => if target = "" then planned else planned ++ [target]
    | none => planned

def tick (request : ControllerTickRequest F) : Except PyError (ControllerTickResponse F) :=
  if scannerOnlyProfile request.profile then
    .ok (noopResponse ctl request "no_reveal: scanner-like traffic without follow-up context" [] [])
  else do
    let main ← pass ctl request .exploit none request.unlockedAssetIds []
    match main.selected with
    | none =>
      return noopResponse ctl request
        "no_reveal: no eligible asset for observed or recommended techniques"
        (appendNew [] (main.candidates.map CandidateScore.exposedAssetId)) main.rejected
    | some c =>
      let follow ← pass ctl request .explore (some c)
        (plannedAfter request.unlockedAssetIds c) main.rejected
      return {
        bindingId := request.bindingId
        actions := buildAction ctl request.bindingId c ::
          follow.selected.toList.map (buildAction ctl request.bindingId)
        decisionEvents := buildDecisionEvent ctl request c main.rejected main.candidates ::
          follow.selected.toList.map fun d =>
            buildDecisionEvent ctl request d follow.rejected follow.candidates
        candidateAssetIds := appendNew []
          ((main.candidates ++ follow.candidates).map CandidateScore.exposedAssetId) }

end Tick

end Honeynet.Controller
