import Honeynet.Common.Contracts

/-!
# What the controller reads

* `Floats`: the floating-point operations the scores are computed with.
* `ProfileSnapshot`, `ControllerTickRequest`: one attacker's profile and the request of one tick.
* `ControllerService`: the catalog, the technique prior, the configuration and the host.
* `observedSignalSets`, `signalsMatch`: the signals of a profile and how they match.
-/

namespace Honeynet.Controller

open Collections

/-- The floating-point operations of the language.  `ofInt` raises on an integer that is too
large, and the comparisons need not be total. -/
structure Floats (F : Type) where
  ofRat : Rat → F
  ofInt : Int → Except PyError F
  eq : F → F → Bool
  lt : F → F → Bool
  add : F → F → F
  sub : F → F → F
  mul : F → F → F
  neg : F → F
  round4 : F → F
  render : F → String

namespace Floats

variable {F : Type} (fl : Floats F)

def zero : F := fl.ofRat 0

def one : F := fl.ofRat 1

/-- `max(a, b)`. -/
def max (a b : F) : F := if fl.lt a b then b else a

/-- `min(a, b)`. -/
def min (a b : F) : F := if fl.lt b a then b else a

/-- `value > 0`. -/
def pos (x : F) : Bool := fl.lt fl.zero x

/-- `float(value)`, when `isinstance(value, (int, float))`. -/
def number? : Value → Option (Except PyError F)
  | .int n => some (fl.ofInt n)
  | .bool b => some (.ok (if b then fl.one else fl.zero))
  | .float x => some (.ok (fl.ofRat x))
  | _ => none

/-- `max(0.0, min(1.0, x))`. -/
def clamp (x : F) : F := fl.max fl.zero (fl.min fl.one x)

end Floats

/-- Exact arithmetic in place of floating point. -/
def exactFloats : Floats Rat where
  ofRat x := x
  ofInt n := .ok n
  eq a b := a == b
  lt a b := decide (a < b)
  add := (· + ·)
  sub := (· - ·)
  mul := (· * ·)
  neg := (- ·)
  round4 x := (x * 10000 + 1 / 2).floor / 10000
  render _ := ""

structure ProfileSnapshot (F : Type) where
  confByTechnique : Dict String F := []
  recentTactics : List String := []
  recentTechniques : List String := []
  recentEvidenceIds : List String := []
  recentPublicHttpPaths : List String := []
  recentPublicHttpRules : List String := []
  recentPublicHttpIndicators : List String := []
  recentInternalHttpPaths : List String := []
  recentInternalHttpRules : List String := []
  recentInternalHttpIndicators : List String := []
  recentAssetIds : List String := []

structure ControllerTickRequest (F : Type) where
  attackerKey : String
  bindingId : String
  profile : ProfileSnapshot F
  assets : List AssetDefinition := []
  unlockedAssetIds : List String := []
  revealedConfigurations : Dict String (List String) := []

/-- A controller: its configuration, its repositories and the host it runs on.  `recommend` is
the prior's answer to the observed techniques. -/
structure ControllerService (F : Type) where
  float : Floats F
  lower : String → String
  str : Value → String
  pathExists : String → Bool
  listAll : List AssetDefinition
  recommend : List String → Dict String F
  degradedReason : Option String
  unlockCap : Int
  observedTechniqueThreshold : F
  usePriorSupport : Bool

/-! ### Techniques -/

/-- The parent technique. -/
def techniqueFamily (technique : String) : String :=
  String.ofList (technique.toList.takeWhile (· != '.'))

def sameTechniqueFamily (left right : String) : Bool :=
  techniqueFamily left == techniqueFamily right

/-! ### Signals -/

section Signals

variable {F : Type}

def observedSignalSets (request : ControllerTickRequest F) : List (String × List String) :=
  [("any_http_paths", request.profile.recentPublicHttpPaths),
    ("any_http_rules", request.profile.recentPublicHttpRules),
    ("any_http_indicators", request.profile.recentPublicHttpIndicators),
    ("any_internal_http_paths", request.profile.recentInternalHttpPaths),
    ("any_internal_http_rules", request.profile.recentInternalHttpRules),
    ("any_internal_http_indicators", request.profile.recentInternalHttpIndicators),
    ("any_asset_ids", request.profile.recentAssetIds),
    ("any_techniques", request.profile.recentTechniques),
    ("any_tactics", request.profile.recentTactics)]

def signalsMatch (observed required : List String) (key : String) : Bool :=
  observed.any (· ∈ required) ||
    (key == "any_techniques" &&
      observed.any fun o => required.any fun r => sameTechniqueFamily o r)

/-- A marker is concrete unless it only names a technique or a tactic. -/
def hasConcreteDependencyMarker (markers : List String) : Bool :=
  markers.any fun marker =>
    !("any_techniques:".toList.isPrefixOf marker.toList ||
      "any_tactics:".toList.isPrefixOf marker.toList)

def isBootstrapAsset (asset : AssetDefinition) (request : ControllerTickRequest F) : Bool :=
  asset.assetId == "internal-portal" && request.unlockedAssetIds.isEmpty &&
    !(request.profile.recentEvidenceIds.isEmpty && request.profile.recentTechniques.isEmpty &&
      request.profile.recentTactics.isEmpty)

def scannerTechniques : List String :=
  ["T1190", "T1189", "T1046", "T1595", "T1595.001", "T1595.002", "T1595.003"]

def scannerOnlyProfile (profile : ProfileSnapshot F) : Bool :=
  !profile.recentTechniques.isEmpty && profile.recentTechniques.all (· ∈ scannerTechniques) &&
    (profile.recentPublicHttpIndicators.isEmpty && profile.recentPublicHttpRules.isEmpty &&
      profile.recentInternalHttpIndicators.isEmpty && profile.recentInternalHttpPaths.isEmpty &&
      profile.recentInternalHttpRules.isEmpty)

end Signals

end Honeynet.Controller
