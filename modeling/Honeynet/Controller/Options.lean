import Honeynet.Controller.Request
import Honeynet.Lib.Fallible
import Mathlib.Data.List.Sort
import Mathlib.Data.String.Basic

/-!
# Reveal options

What a tick may reveal, before it is scored: assets that pass every hard gate, and configurations
of assets that are already open.

* `eligibility`: the gates of an unlock, with the reason of a refusal.
* `upgradeContext`: the catalog's permission to replace one asset by another on the same port.
* `configurationRevealOptions`, `revealOptions`: the options of one pass.
-/

namespace Honeynet.Controller

open Collections Fallible

/-- `sorted(set(values))`. -/
def sortedSet (values : List String) : List String :=
  (appendNew [] values).insertionSort (· ≤ ·)

/-! ### The selection profile of an asset -/

section Profile

variable {F : Type} (ctl : ControllerService F) (asset : AssetDefinition)

/-- `default_settings.selection_profile`. -/
def selectionProfile : Settings :=
  ((asset.defaultSettings.get "selection_profile").dict?).getD []

def assetGroup : String :=
  let value := (selectionProfile asset).get "asset_group"
  if value.truthy then ctl.str value
  else
    match asset.templateFamily with
    | some family => if family = "" then "unknown" else family
    | none => "unknown"

/-- The nonempty strings of a list value. -/
def techniqueItems : Value → List String
  | .list items => (Value.strings items).filter (· != "")
  | _ => []

def coveredTechniques : List String :=
  techniqueItems ((selectionProfile asset).get "covered_techniques")

def telemetryValue : Except PyError F :=
  let value := (selectionProfile asset).get "telemetry_value"
  match ctl.float.number? value with
  | some number => number.map ctl.float.clamp
  | none =>
    match value with
    | .str s =>
      .ok (ctl.float.ofRat (if ctl.lower s = "low" then 1 / 4
        else if ctl.lower s = "medium" then 11 / 20
        else if ctl.lower s = "high" then 17 / 20
        else 1 / 2))
    | _ => .ok (ctl.float.ofRat (1 / 2))

def implementationStatus : String :=
  let value := (selectionProfile asset).get "implementation_status"
  if value.truthy then ctl.str value else "ready"

def optionalDependencySignals : Settings :=
  (((selectionProfile asset).get "optional_dependency_signals").dict?).getD []

/-- The objects of a list value. -/
def objectItems : Value → List Settings
  | .list items => items.filterMap Value.dict?
  | _ => []

def upgradeCandidates : List Settings :=
  objectItems ((selectionProfile asset).get "upgrade_candidates")

def configurationVariants : List Settings :=
  objectItems (asset.defaultSettings.get "configuration_variants")

end Profile

/-! ### Gates -/

section Gates

variable {F : Type} (ctl : ControllerService F) (asset : AssetDefinition)
  (request : ControllerTickRequest F)

def runtimeIsAvailable : Bool :=
  match asset.defaultSettings.get "runtime" with
  | .dict runtime =>
    if (Settings.get runtime "backend").str? = some "compose" then
      match Settings.get runtime "compose_file" with
      | .str composeFile => if composeFile = "" then false else ctl.pathExists composeFile
      | _ => false
    else true
  | _ => true

def matchesUnlockSignals : Bool :=
  let recent := !(request.profile.recentEvidenceIds.isEmpty &&
    request.profile.recentTechniques.isEmpty)
  match asset.defaultSettings.get "unlock_signals" with
  | .dict [] => recent
  | .dict unlockSignals =>
    let configured := (observedSignalSets request).filterMap fun (key, observed) =>
      match Settings.get unlockSignals key with
      | .list (v :: vs) => some (key, observed, Value.strings (v :: vs))
      | _ => none
    configured.isEmpty ||
      configured.any fun (key, observed, required) => signalsMatch observed required key
  | _ => recent

/-- The markers of one source of signals that are observed. -/
def markersOf (observed : List (String × List String)) (source : Settings) : List String :=
  source.flatMap fun (key, values) =>
    match List.lookup key observed, values with
    | some set, .list items =>
      ((Value.strings items).filter fun value => signalsMatch set [value] key).map
        fun value => key ++ ":" ++ value
    | _, _ => []

def matchedDependencyMarkers : List String :=
  let observed := observedSignalSets request
  appendNew [] (markersOf observed (((asset.defaultSettings.get "unlock_signals").dict?).getD []) ++
    markersOf observed (optionalDependencySignals asset))

/-- The hard gates, with the reason of the answer. -/
def eligibility (unlocked : List String) : Bool × String :=
  if asset.exposureType ≠ .internal then (false, "not an internal asset")
  else if implementationStatus ctl asset ∉ ["ready", "prototype"] then (false, "asset not ready")
  else if asset.assetId ∈ unlocked then (false, "already unlocked")
  else if ctl.unlockCap ≤ (unlocked.length : Int) then (false, "unlock cap reached")
  else if ¬ asset.dependencies ⊆ unlocked then
    (false, "missing dependencies: " ++
      ctl.str (.list ((sortedSet (asset.dependencies.filter (· ∉ unlocked))).map .str)))
  else if runtimeIsAvailable ctl asset = false then (false, "runtime unavailable on this host")
  else if isBootstrapAsset asset request then (true, "bootstrap internal portal")
  else if matchesUnlockSignals asset request = false then
    (false, "profile does not match unlock signals")
  else (true, "eligible")

end Gates

/-! ### Options -/

/-- The metadata of a same-port upgrade. -/
structure UpgradeContext where
  previousBackendAsset : String
  upgradedBackendAsset : String
  publicPort : Value
  matchedMarkers : List String
  reason : Value

structure RevealOption (F : Type) where
  asset : AssetDefinition
  actionType : ActionType
  coveredTechniques : List String
  telemetryValue : F
  matchedDependencyMarkers : List String
  assetGroup : String
  candidateTypeOverride : Option String := none
  upgradeContext : Option UpgradeContext := none
  configurationId : Option String := none
  configurationKind : Option String := none
  targetAssetId : Option String := none
  configuration : Settings := []

section Options

variable {F : Type} (ctl : ControllerService F) (assets : List AssetDefinition)
  (request : ControllerTickRequest F)

/-- The first upgrade entry that allows the candidate.  An entry's markers are iterated over as
they are. -/
def scanUpgrades (candidate : AssetDefinition) (matchedMarkers : List String) :
    List (AssetDefinition × Settings) → Except PyError (Option UpgradeContext)
  | [] => .ok none
  | (source, upgrade) :: rest =>
    if (upgrade.get "asset_id").str? ≠ some candidate.assetId then
      scanUpgrades candidate matchedMarkers rest
    else do
      let items ← (upgrade.getD "required_markers" (.list [])).items
      let required := Value.strings items
      let matchedRequired := sortedSet (required.filter (· ∈ matchedMarkers))
      if required ≠ [] ∧ matchedRequired = [] then scanUpgrades candidate matchedMarkers rest
      else if matchedRequired ≠ [] ∧ hasConcreteDependencyMarker matchedRequired = false then
        scanUpgrades candidate matchedMarkers rest
      else .ok (some {
        previousBackendAsset := source.assetId
        upgradedBackendAsset := candidate.assetId
        publicPort := upgrade.get "public_port"
        reason := upgrade.getD "reason" (.str "explicit catalog upgrade candidate")
        matchedMarkers := if matchedRequired = [] then matchedMarkers else matchedRequired })

/-- The upgrade entries of the open assets. -/
def openUpgrades (unlocked : List String) : List (AssetDefinition × Settings) :=
  (assets.filter fun source => source.assetId ∈ unlocked).flatMap fun source =>
    (upgradeCandidates source).map fun upgrade => (source, upgrade)

def upgradeContext (candidate : AssetDefinition) (unlocked matchedMarkers : List String) :
    Except PyError (Option UpgradeContext) :=
  scanUpgrades candidate matchedMarkers (openUpgrades assets unlocked)

def assetRevealOption (asset : AssetDefinition) (unlocked : List String) :
    Except PyError (Option (RevealOption F)) :=
  if coveredTechniques asset = [] then .ok none
  else do
    let markers := matchedDependencyMarkers asset request
    let telemetry ← telemetryValue ctl asset
    let upgrade ← upgradeContext assets asset unlocked markers
    return some {
      asset
      actionType := .unlock
      coveredTechniques := coveredTechniques asset
      telemetryValue := telemetry
      matchedDependencyMarkers := markers
      assetGroup := assetGroup ctl asset
      upgradeContext := upgrade }

/-! ### Configurations -/

def variantRequiredMarkers (variant : Settings) : List String :=
  match variant.get "required_markers" with
  | .list items => (Value.strings items).filter fun item => ':' ∈ item.toList
  | _ => []

/-- `marker.split(":", 1)`. -/
def splitMarker (marker : String) : String × String :=
  (String.ofList (marker.toList.takeWhile (· != ':')),
    String.ofList ((marker.toList.dropWhile (· != ':')).drop 1))

def matchedVariantMarkers (variant : Settings) (observed : List (String × List String)) :
    List String :=
  appendNew [] ((variantRequiredMarkers variant).filter fun marker =>
    match List.lookup (splitMarker marker).1 observed with
    | some set => (splitMarker marker).2 ∈ set
    | none => false)

def variantVisibleOnActivePath (sourceAssetId : String) (variant : Settings)
    (activeAssetIds : List String) : Bool :=
  let visibleFrom :=
    match variant.get "visible_from_asset_ids" with
    | .list items => Value.strings items
    | _ => []
  activeAssetIds.any fun id => id ∈ sourceAssetId :: visibleFrom

def variantCoveredTechniques (variant : Settings) (fallback : AssetDefinition) : List String :=
  let techniques := techniqueItems (variant.get "covered_techniques")
  if techniques = [] then coveredTechniques fallback else techniques

def variantTelemetryValue (variant : Settings) (fallback : AssetDefinition) : Except PyError F :=
  match ctl.float.number? (variant.get "telemetry_value") with
  | some number => number.map ctl.float.clamp
  | none => telemetryValue ctl fallback

/-- The target of a variant in the catalog, later entries winning. -/
def targetAsset? (variant : Settings) : Option AssetDefinition :=
  (stringOrNone (variant.get "target_asset_id")).bind fun target =>
    findLast AssetDefinition.assetId target assets

/-- Why a variant is not offered. -/
def variantSkipped (source : AssetDefinition) (planned : List String) (variant : Settings)
    (configurationId : String) : Bool :=
  decide (configurationId ∈ request.revealedConfigurations.getD source.assetId []) ||
  !variantVisibleOnActivePath source.assetId variant request.profile.recentAssetIds ||
  (!(variantRequiredMarkers variant).isEmpty &&
    (matchedVariantMarkers variant (observedSignalSets request)).isEmpty) ||
  match stringOrNone (variant.get "target_asset_id"), targetAsset? assets variant with
  | none, _ => false
  | some _, none => true
  | some target, some targetAsset =>
    decide (target ≠ source.assetId ∧ target ∈ planned) || !runtimeIsAvailable ctl targetAsset

/-- The option of one variant. -/
def variantOption (source : AssetDefinition) (planned : List String) (variant : Settings) :
    Except PyError (Option (RevealOption F)) :=
  match stringOrNone (variant.get "configuration_id") with
  | none => .ok none
  | some configurationId =>
    if variantSkipped ctl assets request source planned variant configurationId then .ok none
    else do
      let fallback := (targetAsset? assets variant).getD source
      let markers := matchedVariantMarkers variant (observedSignalSets request)
      let telemetry ← variantTelemetryValue ctl variant fallback
      return some {
        asset := source
        actionType := .configure
        coveredTechniques := variantCoveredTechniques variant fallback
        telemetryValue := telemetry
        matchedDependencyMarkers := markers
        assetGroup := assetGroup ctl fallback
        candidateTypeOverride := some "configuration"
        upgradeContext := (targetAsset? assets variant).map fun target => {
          previousBackendAsset := source.assetId
          upgradedBackendAsset := target.assetId
          publicPort := variant.get "public_port"
          matchedMarkers := markers
          reason := variant.getD "reason" (.str "") }
        configurationId := some configurationId
        configurationKind := stringOrNone (variant.get "kind")
        targetAssetId := stringOrNone (variant.get "target_asset_id")
        configuration := variant }

def configurationRevealOptions (planned : List String) : Except PyError (List (RevealOption F)) :=
  collect (fun (source, variant) => variantOption ctl assets request source planned variant)
    ((assets.filter fun source => source.assetId ∈ request.unlockedAssetIds).flatMap fun source =>
      (configurationVariants source).map fun variant => (source, variant))

/-- The options of one pass. -/
def revealOptions (planned : List String) : Except PyError (List (RevealOption F)) := do
  let unlocks ← collect (fun asset => assetRevealOption ctl assets request asset planned)
    (assets.filter fun asset => (eligibility ctl asset request planned).1)
  let configurations ← configurationRevealOptions ctl assets request planned
  return unlocks ++ configurations

/-- The reasons of one pass, by asset. -/
def recordRefusals (planned : List String) (rejected : Dict String String) : Dict String String :=
  assets.foldl (fun rejected asset =>
    if (eligibility ctl asset request planned).1 then rejected
    else rejected.set asset.assetId (eligibility ctl asset request planned).2) rejected

end Options

end Honeynet.Controller
