import Honeynet.Controller.Tick
import Honeynet.Evaluation.SignalGate

/-!
# The policies that are compared

Five baselines and the controller itself, each asked for what it reveals in one tick.

* `Decision`: the assets a policy opens and the actions it takes.
* `evaluatePolicyActions`: the decision of each policy.
* `evaluatePolicyActions_bindingId`: it does not depend on the id of the binding.
-/

namespace Honeynet.Evaluation

open Collections Controller

inductive PolicyName
  | passive
  | allOpen
  | randomEligible
  | gateOnly
  | topRecommendation
  | controller
  deriving DecidableEq, Repr

/-- The compact form of an action. -/
structure RevealAction where
  actionType : ActionType
  assetId : Option String
  targetAssetId : Option String := none
  configurationId : Option String := none
  deriving DecidableEq

/-- `action.get(key)`. -/
def RevealAction.get? (action : RevealAction) : String → Option String
  | "action_type" => some action.actionType.value
  | "asset_id" => action.assetId
  | "target_asset_id" => action.targetAssetId
  | "configuration_id" => action.configurationId
  | _ => none

/-- What a policy reveals. -/
structure Decision where
  openedAssets : List String
  revealActions : List RevealAction
  deriving DecidableEq

/-- What the policies run with: `assets` is the catalog of the baselines, `choice` the place that
`random.Random(0).choice` takes of `n + 1` items, and `validateProfile` the validation of a
profile. -/
structure Evaluator (F : Type) where
  controller : ControllerService F
  assets : List AssetDefinition
  choice : ∀ n : ℕ, Fin (n + 1)
  validateProfile : Settings → Except PyError (ProfileSnapshot F)

section Policies

variable {F : Type} (ev : Evaluator F) (request : ControllerTickRequest F)

/-! ### The baselines -/

def unlockActionSummaries (assetIds : List String) : List RevealAction :=
  assetIds.map fun assetId => { actionType := .unlock, assetId := some assetId }

/-- Whether the catalog allows an asset now. -/
def assetDependencyReady (asset : AssetDefinition) : Bool :=
  asset.exposureType == .internal && !(request.unlockedAssetIds.contains asset.assetId) &&
    asset.dependencies.all (· ∈ request.unlockedAssetIds)

def allOpenReveals : List String :=
  (ev.assets.filter (assetDependencyReady request)).map AssetDefinition.assetId

def randomEligibleReveals : List String :=
  match ev.assets.filter fun asset =>
    assetDependencyReady request asset && assetUnlockSignalsMatch asset request with
  | [] => []
  | asset :: assets => [((asset :: assets).get (ev.choice assets.length)).assetId]

def assetCoveredTechniques (asset : AssetDefinition) : List String :=
  match (asset.defaultSettings.get "selection_profile").dict? with
  | some selectionProfile => requiredSignals (selectionProfile.get "covered_techniques")
  | none => []

/-- The recommended techniques, those with more support first. -/
def orderedRecommendations (fl : Floats F) (recommendations : Dict String F) :
    Dict String F :=
  recommendations.insertionSort fun a b => fl.lt a.2 b.2 = false

def topRecommendationReveals : List String :=
  let observed := thresholdedObservedTechniques ev.controller request.profile
  let recommendations := ev.controller.recommend observed
  ((orderedRecommendations ev.controller.float recommendations).findSome? fun entry =>
    (ev.assets.find? fun asset => assetDependencyReady request asset &&
      (assetCoveredTechniques asset).contains entry.1).map AssetDefinition.assetId).toList

/-! ### Ticks of the controller -/

/-- The controller without the prior, over the catalog of the baselines. -/
def gateOnlyController : ControllerService F :=
  { ev.controller with
    listAll := ev.assets
    recommend := fun _ => []
    degradedReason := none
    usePriorSupport := false }

def isReveal (action : ControllerAction) : Bool :=
  action.actionType == .unlock || action.actionType == .configure

/-- A text that is neither missing nor empty. -/
def nonempty? (text : Option String) : Option String := text.filter (· ≠ "")

def gateOnlySummary (action : ControllerAction) : RevealAction where
  actionType := action.actionType
  assetId := action.assetId
  targetAssetId := nonempty? action.targetAssetId
  configurationId := nonempty? action.configurationId

def gateOnlyDecision (maxReveals : ℕ) (actions : List ControllerAction) : Decision where
  openedAssets := ((actions.filter isReveal).take maxReveals).filterMap fun action =>
    nonempty? action.exposed
  revealActions := ((actions.filter isReveal).take maxReveals).map gateOnlySummary

/-- The asset that an action of the controller makes visible. -/
def openedBy (action : ControllerAction) : Option String :=
  match action.actionType with
  | .unlock => action.assetId
  | .configure => action.exposed
  | _ => none

def controllerOpenedAssets (actions : List ControllerAction) : List String :=
  appendNew [] (actions.filterMap openedBy)

def controllerRevealActions (actions : List ControllerAction) : List RevealAction :=
  (actions.filter fun action => isReveal action && action.assetId.isSome).map fun action => {
    actionType := action.actionType
    assetId := action.assetId
    targetAssetId := action.targetAssetId
    configurationId := action.configurationId }

def controllerDecision (actions : List ControllerAction) : Decision where
  openedAssets := controllerOpenedAssets actions
  revealActions := controllerRevealActions actions

/-- A policy that only unlocks. -/
def unlocks (openedAssets : List String) : Decision where
  openedAssets
  revealActions := unlockActionSummaries openedAssets

def evaluatePolicyActions : PolicyName → Except PyError Decision
  | .allOpen => .ok (unlocks (allOpenReveals ev request))
  | .passive => .ok ⟨[], []⟩
  | .randomEligible => .ok (unlocks (randomEligibleReveals ev request))
  | .gateOnly => (tick (gateOnlyController ev) request).map fun response =>
      gateOnlyDecision 2 response.actions
  | .topRecommendation => .ok (unlocks (topRecommendationReveals ev request))
  | .controller => (tick ev.controller request).map fun response =>
      controllerDecision response.actions

/-! ### The id of the binding -/

/-- A response for another binding. -/
def rebind (bindingId : String) (response : ControllerTickResponse F) :
    ControllerTickResponse F :=
  { response with
    bindingId
    actions := response.actions.map fun action => { action with bindingId }
    decisionEvents := response.decisionEvents.map fun event => { event with bindingId } }

theorem buildAction_bindingId (ctl : ControllerService F) (bindingId bindingId' : String)
    (c : CandidateScore F) :
    buildAction ctl bindingId c = { buildAction ctl bindingId' c with bindingId } := by
  unfold buildAction
  split <;> rfl

/-- A tick for another binding has the same response, up to the id. -/
theorem tick_bindingId (ctl : ControllerService F) (bindingId : String) :
    tick ctl { request with bindingId } = (tick ctl request).map (rebind bindingId) := by
  have hpass (strategy : Strategy) (exploit : Option (CandidateScore F)) (planned : List String)
      (rejected : Dict String String) :
      pass ctl { request with bindingId } strategy exploit planned rejected =
        pass ctl request strategy exploit planned rejected := rfl
  have hbuild (cs : List (CandidateScore F)) : cs.map (buildAction ctl bindingId) =
      (cs.map (buildAction ctl request.bindingId)).map fun action => { action with bindingId } := by
    rw [List.map_map]
    exact List.map_congr_left fun c _ => buildAction_bindingId ctl _ _ c
  unfold tick
  dsimp only
  simp only [hpass]
  by_cases hscanner : scannerOnlyProfile request.profile = true
  · rw [if_pos hscanner, if_pos hscanner]
    rfl
  · rw [if_neg hscanner, if_neg hscanner]
    cases pass ctl request .exploit none request.unlockedAssetIds [] with
    | error e => rfl
    | ok main =>
      simp only [bind, Except.bind]
      cases main.selected with
      | none => rfl
      | some c =>
        dsimp only
        cases pass ctl request .explore (some c)
            (plannedAfter request.unlockedAssetIds c) main.rejected with
        | error e => rfl
        | ok follow =>
          simp only [pure, Except.pure, Except.map, rebind, List.map_cons, hbuild,
            ← buildAction_bindingId ctl bindingId request.bindingId c, List.map_map]
          rfl

theorem filter_rebound (keep : ControllerAction → Bool) (bindingId : String)
    (hkeep : ∀ action, keep { action with bindingId } = keep action)
    (actions : List ControllerAction) :
    (actions.map fun action => { action with bindingId }).filter keep =
      (actions.filter keep).map fun action => { action with bindingId } := by
  rw [List.filter_map]
  exact congrArg _ (List.filter_congr fun action _ => hkeep action)

theorem gateOnlyDecision_rebound (maxReveals : ℕ) (bindingId : String)
    (actions : List ControllerAction) :
    gateOnlyDecision maxReveals (actions.map fun action => { action with bindingId }) =
      gateOnlyDecision maxReveals actions := by
  unfold gateOnlyDecision
  rw [filter_rebound isReveal bindingId fun _ => rfl, ← List.map_take, List.filterMap_map,
    List.map_map]
  rfl

theorem controllerDecision_rebound (bindingId : String) (actions : List ControllerAction) :
    controllerDecision (actions.map fun action => { action with bindingId }) =
      controllerDecision actions := by
  unfold controllerDecision controllerOpenedAssets controllerRevealActions
  rw [filter_rebound _ bindingId fun _ => rfl, List.filterMap_map, List.map_map]
  rfl

theorem map_tick_bindingId (ctl : ControllerService F) (bindingId : String)
    {decision : List ControllerAction → Decision}
    (hdecision : ∀ actions : List ControllerAction,
      decision (actions.map fun action => { action with bindingId }) = decision actions) :
    (tick ctl { request with bindingId }).map (fun response => decision response.actions) =
      (tick ctl request).map fun response => decision response.actions := by
  rw [tick_bindingId]
  cases tick ctl request with
  | error e => rfl
  | ok response => exact congrArg Except.ok (hdecision response.actions)

/-- **The decision of a policy** is the same for every id of the binding. -/
theorem evaluatePolicyActions_bindingId (policy : PolicyName) (bindingId : String) :
    evaluatePolicyActions ev { request with bindingId } policy =
      evaluatePolicyActions ev request policy := by
  cases policy with
  | gateOnly =>
    exact map_tick_bindingId request (gateOnlyController ev) bindingId
      (gateOnlyDecision_rebound 2 bindingId)
  | controller =>
    exact map_tick_bindingId request ev.controller bindingId (controllerDecision_rebound bindingId)
  | _ => rfl

end Policies

end Honeynet.Evaluation
