import Honeynet.Common.Value

/-!
# What the services send each other

* `AssetDefinition`: one entry of the asset catalog.
* `ControllerAction`: one action the controller asks for, and the orchestrator applies.
-/

namespace Honeynet

inductive ExposureType
  | «public»
  | internal
  deriving DecidableEq, Repr

inductive ActionType
  | bind
  | unlock
  | configure
  | recycle
  | routeUpdate
  | noop
  deriving DecidableEq, Repr

/-- The action type as it is sent. -/
def ActionType.value : ActionType → String
  | bind => "bind"
  | unlock => "unlock"
  | configure => "configure"
  | recycle => "recycle"
  | routeUpdate => "route_update"
  | noop => "noop"

structure AssetDefinition where
  assetId : String
  assetName : String := ""
  exposureType : ExposureType
  templateFamily : Option String := none
  protocols : List String := []
  ports : List Int := []
  sourceRefs : List String := []
  defaultSettings : Settings := []
  dependencies : List String := []

structure ControllerAction where
  actionType : ActionType
  bindingId : String
  assetId : Option String := none
  configurationId : Option String := none
  targetAssetId : Option String := none
  configuration : Settings := []
  reason : String

/-- The asset an action exposes: its target, if it has one. -/
def ControllerAction.exposed (a : ControllerAction) : Option String :=
  match a.targetAssetId with
  | some target => if target = "" then a.assetId else some target
  | none => a.assetId

/-- The assets an action opens. -/
def ControllerAction.opened (a : ControllerAction) : List String :=
  match a.actionType with
  | .unlock => a.assetId.toList
  | .configure => (a.targetAssetId.filter (· != "")).toList
  | _ => []

end Honeynet
