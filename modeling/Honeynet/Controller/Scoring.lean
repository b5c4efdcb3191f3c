import Honeynet.Controller.Options
import Honeynet.Lib.Selection

/-!
# Scoring reveal options

* `techniqueCandidateParts`: what speaks for one technique.
* `scoreRevealOption`: an option with its scores, or nothing where no technique speaks for it.
* `selectCandidate`: the candidate that comes first.
-/

namespace Honeynet.Controller

open Collections

/-- The two passes of a tick. -/
inductive Strategy
  | exploit
  | explore
  deriving DecidableEq, Repr

def Strategy.value : Strategy → String
  | exploit => "exploit"
  | explore => "explore"

/-- What a technique counts as. -/
inductive CandidateType
  | none
  | continuation
  | gateOnly
  | recommended
  | weakEvidence
  | bootstrap
  deriving DecidableEq, Repr

def CandidateType.value : CandidateType → String
  | none => "none"
  | continuation => "continuation"
  | gateOnly => "gate_only"
  | recommended => "recommended"
  | weakEvidence => "weak_evidence"
  | bootstrap => "bootstrap"

/-- How a technique matched. -/
inductive MatchType
  | none
  | exact
  | family
  deriving DecidableEq, Repr

def MatchType.value : MatchType → String
  | none => "none"
  | exact => "exact"
  | family => "family"

structure TechniqueParts (F : Type) where
  signalScore : F
  confidence : F
  recommendationSupport : F
  candidateType : CandidateType
  matchType : MatchType
  matchedProfileTechnique : Option String
  matchedPriorTechnique : Option String

structure GainTerm (F : Type) where
  technique : String
  support : F
  confidence : F
  gain : F

structure CandidateScore (F : Type) where
  asset : AssetDefinition
  strategy : Strategy
  candidateType : String
  selectedTechnique : String
  techniqueSignalScore : F
  confidenceScore : F
  recommendationSupport : F
  expectedTechniqueGain : F
  telemetryValue : F
  matchedDependencyMarkerCount : ℕ
  techniqueMatchType : MatchType
  matchedProfileTechnique : Option String
  matchedPriorTechnique : Option String
  upgradeContext : Option UpgradeContext
  matchedDependencyMarkers : List String
  assetGroup : String
  coveredTechniques : List String
  gainTerms : List (GainTerm F)
  actionType : ActionType
  configurationId : Option String
  configurationKind : Option String
  targetAssetId : Option String
  configuration : Settings

/-- The asset a reveal exposes: its target, if it has one. -/
def CandidateScore.exposedAssetId {F : Type} (c : CandidateScore F) : String :=
  match c.targetAssetId with
  | some target => if target = "" then c.asset.assetId else target
  | none => c.asset.assetId

/-- The first member that no later one is better than. -/
def firstBest {α : Type} (better : α → α → Bool) : List α → Option α
  | [] => none
  | a :: as => some (as.foldl (fun best x => if better x best then x else best) a)

theorem firstBest_mem {α : Type} {better : α → α → Bool} {xs : List α} {x : α}
    (h : firstBest better xs = some x) : x ∈ xs := by
  cases xs with
  | nil => exact absurd h (by simp [firstBest])
  | cons a as => exact Option.some.inj h ▸ Selection.bestFrom_mem a as

section Scoring

variable {F : Type} (ctl : ControllerService F)

/-- The best parent or sub-technique score, discounted. -/
def bestFamilyScore (technique : String) (scores : Dict String F) : F × Option String :=
  scores.foldl (fun best entry =>
    if entry.1 = technique ∨ sameTechniqueFamily entry.1 technique = false then best
    else
      let discounted := ctl.float.mul entry.2 (ctl.float.ofRat (3 / 4))
      if ctl.float.lt best.1 discounted then (discounted, some entry.1) else best)
    (ctl.float.zero, none)

def techniqueCandidateParts (technique : String) (confidences : Dict String F)
    (thresholdedObserved : List String) (recommendations : Dict String F)
    (hasConcreteMarker : Bool) : TechniqueParts F :=
  let fl := ctl.float
  let exactConfidence := confidences.getD technique fl.zero
  let exactSupport :=
    if ctl.usePriorSupport then recommendations.getD technique fl.zero else fl.zero
  let family := bestFamilyScore ctl technique confidences
  let familyPrior :=
    if ctl.usePriorSupport then bestFamilyScore ctl technique recommendations else (fl.zero, none)
  let byFamily := fl.lt exactConfidence family.1
  let byFamilyPrior := ctl.usePriorSupport && fl.lt exactSupport familyPrior.1
  let confidence := if byFamily then family.1 else exactConfidence
  let support := if byFamilyPrior then familyPrior.1 else exactSupport
  let observed := thresholdedObserved.any fun item => sameTechniqueFamily technique item
  let (candidateType, signalScore) :=
    if observed then (CandidateType.continuation, fl.min fl.one confidence)
    else if ctl.usePriorSupport = false then (.gateOnly, fl.one)
    else if fl.pos support then (.recommended, support)
    else if hasConcreteMarker && fl.pos confidence then
      (.weakEvidence, fl.min fl.one confidence)
    else (.none, fl.zero)
  { signalScore
    confidence
    recommendationSupport := support
    candidateType
    matchType := if byFamily || byFamilyPrior then .family
      else if fl.pos exactConfidence then .exact else .none
    matchedProfileTechnique := if byFamily then family.2
      else if fl.pos exactConfidence then some technique else none
    matchedPriorTechnique := if byFamilyPrior then familyPrior.2
      else if ctl.usePriorSupport && fl.pos exactSupport then some technique else none }

/-- The plausibility of a technique. -/
def techniqueSupport (technique : String) (recommendations : Dict String F) : F :=
  if ctl.usePriorSupport then
    ctl.float.max (recommendations.getD technique ctl.float.zero)
      (bestFamilyScore ctl technique recommendations).1
  else ctl.float.one

def techniqueGain (technique : String) (confidences recommendations : Dict String F) : F :=
  ctl.float.mul (techniqueSupport ctl technique recommendations)
    (ctl.float.max ctl.float.zero
      (ctl.float.sub ctl.float.one (confidences.getD technique ctl.float.zero)))

def expectedTechniqueGain (techniques : List String) (confidences recommendations : Dict String F) :
    F :=
  techniques.foldl (fun sum technique =>
    ctl.float.add sum (techniqueGain ctl technique confidences recommendations)) ctl.float.zero

def gainTermDetails (techniques : List String) (confidences recommendations : Dict String F) :
    List (GainTerm F) :=
  techniques.map fun technique => {
    technique
    support := ctl.float.round4 (techniqueSupport ctl technique recommendations)
    confidence := ctl.float.round4 (confidences.getD technique ctl.float.zero)
    gain := ctl.float.round4 (techniqueGain ctl technique confidences recommendations) }

def thresholdedObservedTechniques (profile : ProfileSnapshot F) : List String :=
  (profile.confByTechnique.filter fun entry =>
    ctl.float.eq entry.2 ctl.observedTechniqueThreshold ||
      ctl.float.lt ctl.observedTechniqueThreshold entry.2).map Prod.fst

/-- A technique family that the main reveal does not ask about. -/
def isDistinctExploreTechnique (technique : String) (exploit : CandidateScore F) : Bool :=
  !(exploit.selectedTechnique != "" && sameTechniqueFamily technique exploit.selectedTechnique) &&
    !(exploit.coveredTechniques.any fun covered => sameTechniqueFamily technique covered)

def requiresUpgradeContextForExplore (option : RevealOption F) : Bool :=
  option.actionType != .configure &&
    (option.assetGroup == "generic-capture" || option.assetGroup == "payload-transfer-high")

/-- The techniques of an option that something speaks for. -/
def techniqueScores (option : RevealOption F) (request : ControllerTickRequest F)
    (thresholdedObserved : List String) (recommendations : Dict String F) :
    List (String × TechniqueParts F) :=
  let scores := (appendNew [] option.coveredTechniques).map fun technique =>
    (technique, techniqueCandidateParts ctl technique request.profile.confByTechnique
      thresholdedObserved recommendations
      (hasConcreteDependencyMarker option.matchedDependencyMarkers))
  let bootstrapped :=
    if option.actionType = .unlock ∧ isBootstrapAsset option.asset request then
      scores.map fun (technique, parts) =>
        (technique, { parts with signalScore := ctl.float.one, candidateType := .bootstrap })
    else scores
  bootstrapped.filter fun (_, parts) =>
    parts.candidateType != .none && ctl.float.pos parts.signalScore

/-- An explore option must leave the direction of the main reveal. -/
def exploreTechniqueScores (option : RevealOption F) (exploit : Option (CandidateScore F))
    (thresholdedObserved : List String) (scores : List (String × TechniqueParts F)) :
    List (String × TechniqueParts F) :=
  match exploit with
  | none => []
  | some exploit =>
    if (appendNew [] (thresholdedObserved.map techniqueFamily)).length < 2 then []
    else if hasConcreteDependencyMarker option.matchedDependencyMarkers = false ∧
        option.upgradeContext.isNone then []
    else if requiresUpgradeContextForExplore option ∧ option.upgradeContext.isNone then []
    else scores.filter fun (technique, _) => isDistinctExploreTechnique technique exploit

/-- Compared by gain, then by signal, then by name. -/
def techniqueBetter (request : ControllerTickRequest F) (recommendations : Dict String F)
    (a b : String × TechniqueParts F) : Bool :=
  let gain := fun technique =>
    techniqueGain ctl technique request.profile.confByTechnique recommendations
  if ctl.float.eq (gain a.1) (gain b.1) = false then ctl.float.lt (gain b.1) (gain a.1)
  else if ctl.float.eq a.2.signalScore b.2.signalScore = false then
    ctl.float.lt b.2.signalScore a.2.signalScore
  else decide (b.1 < a.1)

/-- The techniques an option is scored by in a pass. -/
def scoredTechniques (request : ControllerTickRequest F) (strategy : Strategy)
    (exploit : Option (CandidateScore F)) (thresholdedObserved : List String)
    (recommendations : Dict String F) (option : RevealOption F) :
    List (String × TechniqueParts F) :=
  let scores := techniqueScores ctl option request thresholdedObserved recommendations
  match strategy with
  | .exploit => scores
  | .explore => exploreTechniqueScores option exploit thresholdedObserved scores

def scoreRevealOption (request : ControllerTickRequest F) (strategy : Strategy)
    (exploit : Option (CandidateScore F)) (thresholdedObserved : List String)
    (recommendations : Dict String F) (option : RevealOption F) : Option (CandidateScore F) :=
  let scores := scoredTechniques ctl request strategy exploit thresholdedObserved recommendations
    option
  match firstBest (techniqueBetter ctl request recommendations) scores with
  | none => none
  | some (selectedTechnique, parts) => some {
      asset := option.asset
      strategy
      candidateType := option.candidateTypeOverride.getD parts.candidateType.value
      selectedTechnique
      techniqueSignalScore := ctl.float.round4 parts.signalScore
      confidenceScore := ctl.float.round4 parts.confidence
      recommendationSupport := ctl.float.round4 parts.recommendationSupport
      expectedTechniqueGain := ctl.float.round4 (expectedTechniqueGain ctl (scores.map Prod.fst)
        request.profile.confByTechnique recommendations)
      telemetryValue := ctl.float.round4 option.telemetryValue
      matchedDependencyMarkerCount := option.matchedDependencyMarkers.length
      techniqueMatchType := parts.matchType
      matchedProfileTechnique :=
        parts.matchedProfileTechnique.bind fun technique => stringOrNone (.str technique)
      matchedPriorTechnique :=
        parts.matchedPriorTechnique.bind fun technique => stringOrNone (.str technique)
      upgradeContext := option.upgradeContext
      matchedDependencyMarkers := option.matchedDependencyMarkers
      assetGroup := option.assetGroup
      coveredTechniques := option.coveredTechniques
      gainTerms := gainTermDetails ctl (scores.map Prod.fst) request.profile.confByTechnique
        recommendations
      actionType := option.actionType
      configurationId := option.configurationId
      configurationKind := option.configurationKind
      targetAssetId := option.targetAssetId
      configuration := option.configuration }

/-! ### The order of candidates -/

/-- The two hard exceptions before the order by gain. -/
def structuralPriorityRank (c : CandidateScore F) : ℕ :=
  if c.candidateType = "bootstrap" then 2 else if c.actionType = .configure then 1 else 0

/-- `key(a) < key(b)` for the ordering key of a candidate. -/
def candidateBefore (a b : CandidateScore F) : Bool :=
  let fl := ctl.float
  if structuralPriorityRank a ≠ structuralPriorityRank b then
    decide (structuralPriorityRank b < structuralPriorityRank a)
  else if fl.eq (fl.neg a.expectedTechniqueGain) (fl.neg b.expectedTechniqueGain) = false then
    fl.lt (fl.neg a.expectedTechniqueGain) (fl.neg b.expectedTechniqueGain)
  else if a.matchedDependencyMarkerCount ≠ b.matchedDependencyMarkerCount then
    decide (b.matchedDependencyMarkerCount < a.matchedDependencyMarkerCount)
  else if fl.eq (fl.neg a.telemetryValue) (fl.neg b.telemetryValue) = false then
    fl.lt (fl.neg a.telemetryValue) (fl.neg b.telemetryValue)
  else decide (a.exposedAssetId < b.exposedAssetId)

/-- `min(candidates, key=...)`. -/
def selectCandidate (candidates : List (CandidateScore F)) : Option (CandidateScore F) :=
  firstBest (candidateBefore ctl) candidates

end Scoring

end Honeynet.Controller
