import Honeynet.Loop.Feedback

/-!
# One pass of the adaptive loop

* `attempt`: what a pass does with one attacker's profile, up to the orchestrator call.
* `attackerStep`, `tickOnce`: a pass over all profiles.
* `Reveal`: what the pass has revealed, kept beside the files.
-/

namespace Honeynet.Loop

open Collections

/-- A logged touch of an asset by an attacker. -/
structure Touch where
  attackerKey : String
  assetId : String
  ts : Int
  deriving DecidableEq

/-- A reveal that was applied, with the touches logged until then. -/
structure Reveal where
  attackerKey : String
  bindingId : String
  assets : List String
  time : Int
  seen : List Touch

/-- The files of the loop, and beside them what has been revealed, latest first, and which
touches have been logged. -/
structure LoopState where
  rows : List FeedbackRow := []
  processed : Dict String (List String) := []
  history : List Reveal := []
  seen : List Touch := []

/-- The request of one controller call. -/
structure TickPayload where
  attackerKey : String
  bindingId : String
  profile : Settings
  unlockedAssetIds : List Value
  revealedConfigurations : Settings

/-- What a pass meets: the files it reads, the clock, and the two services; `none` and `false`
where a call raises. -/
structure PassInput where
  bindings : List Value
  profiles : List (String × Value)
  evidence : List Settings
  internalHttpEvents : List Settings
  now : Int
  controller : TickPayload → Option LoopResponse
  orchestrator : String → List ControllerAction → Bool
  appliedAt : String → Int
  rowClock : String → ℕ → Int

/-! ### Actions -/

def isRevealAction (action : ControllerAction) : Bool :=
  action.actionType == .unlock || action.actionType == .configure

/-- Keep at most `n` reveal actions, and all others. -/
def limitFrom : ℕ → List ControllerAction → List ControllerAction
  | _, [] => []
  | n, action :: actions =>
    if isRevealAction action then
      match n with
      | 0 => limitFrom 0 actions
      | n + 1 => action :: limitFrom n actions
    else action :: limitFrom n actions

def limitRevealActions (actions : List ControllerAction) (maxActions : Int) :
    List ControllerAction :=
  if maxActions ≤ 0 then [] else limitFrom maxActions.toNat actions

/-- What an applied action reveals: an unlock the assets it names, a configuration the asset it
exposes. -/
def revealedBy (action : ControllerAction) : List String :=
  match action.actionType with
  | .unlock => namedAssets action
  | _ => action.exposed.toList

section Pass

variable (opts : LoopOptions) (inp : PassInput)

/-! ### Bindings and evidence -/

/-- The last binding record of each attacker. -/
def bindingsByAttacker : Dict String Settings :=
  inp.bindings.foldl (fun d record =>
    match record with
    | .dict binding =>
      if (Settings.get binding "attacker_key").truthy then
        Dict.set d (opts.str (Settings.get binding "attacker_key")) binding
      else d
    | _ => d) []

def bindingRuntimeInputs (binding : Settings) : Option (String × List Value × Settings) :=
  match binding.get "binding_id" with
  | .str bindingId =>
    some (bindingId, (binding.getD "unlocked_assets" (.list [])).list?.getD [],
      (binding.getD "revealed_configurations" (.dict [])).dict?.getD [])
  | _ => none

def hasNewEvidence (processed : Dict String (List String)) (attackerKey : String)
    (recentEvidenceIds : List String) : Bool :=
  recentEvidenceIds.any fun id => !(id ∈ processed.getD attackerKey [])

def markEvidenceProcessed (processed : Dict String (List String)) (attackerKey : String)
    (recentEvidenceIds : List String) : Dict String (List String) :=
  processed.set attackerKey
    (appendNew [] (processed.getD attackerKey [] ++ recentEvidenceIds))

theorem mem_markEvidenceProcessed {processed : Dict String (List String)} {attackerKey id : String}
    {ids : List String} :
    id ∈ (markEvidenceProcessed processed attackerKey ids).getD attackerKey [] ↔
      id ∈ processed.getD attackerKey [] ∨ id ∈ ids := by
  rw [markEvidenceProcessed, Dict.getD, lookup_set_self, Option.getD_some, mem_appendNew,
    List.mem_append]
  simp

theorem getD_markEvidenceProcessed_of_ne (processed : Dict String (List String))
    {attackerKey other : String} (hne : other ≠ attackerKey) (ids : List String) :
    (markEvidenceProcessed processed attackerKey ids).getD other [] = processed.getD other [] := by
  rw [markEvidenceProcessed, Dict.getD, lookup_set_ne _ hne, ← Dict.getD]

/-! ### One attacker -/

/-- What a pass does with one profile. -/
inductive Attempt
  | skipped
  | finished
  | raised
  | applied (bindingId : String) (profile : Settings) (response : LoopResponse)
      (actions : List ControllerAction)

def recentEvidenceIds (profile : Settings) : List String :=
  stringItems (profile.getD "recent_evidence_ids" (.list []))

/-- The call of the controller and of the orchestrator for a binding that may be revealed to. -/
def requestReveal (attackerKey bindingId : String) (profile : Settings) (unlocked : List Value)
    (revealed : Settings) : Attempt :=
  match inp.controller ⟨attackerKey, bindingId, profile, unlocked, revealed⟩ with
  | none => .raised
  | some response =>
    if response.actions.filter isRevealAction = [] then .finished
    else
      let actions := limitRevealActions response.actions opts.maxActionsPerTrigger
      if inp.orchestrator bindingId actions then
        .applied bindingId profile response (actions.filter isRevealAction)
      else .raised

def attempt (s : LoopState) (attackerKey : String) (profile : Value) : Attempt :=
  match profile with
  | .dict profile =>
    if opts.keepsLoopState &&
        !hasNewEvidence s.processed attackerKey (recentEvidenceIds profile) then .skipped
    else
      match (bindingsByAttacker opts inp).get? attackerKey with
      | none => .skipped
      | some binding =>
        match bindingRuntimeInputs binding with
        | none => .skipped
        | some (bindingId, unlocked, revealed) =>
          if (responseGateDecision s.rows attackerKey bindingId profile).allowed then
            requestReveal opts inp attackerKey bindingId profile unlocked revealed
          else .finished
  | _ => .skipped

/-- The state after one profile, and the number of reveal actions sent; `none` where the pass
ends with an exception. -/
def attackerStep (s : LoopState) (attackerKey : String) (profile : Value) : LoopState × Option ℕ :=
  let processed := markEvidenceProcessed s.processed attackerKey
    (recentEvidenceIds (profile.dict?.getD []))
  match attempt opts inp s attackerKey profile with
  | .skipped => (s, some 0)
  | .finished => ({ s with processed }, some 0)
  | .raised => (s, none)
  | .applied bindingId _ response actions =>
    ({ rows := s.rows ++ recordRevealFeedback attackerKey bindingId response actions
        (inp.rowClock attackerKey)
       processed
       history :=
        if actions = [] then s.history
        else ⟨attackerKey, bindingId, actions.flatMap revealedBy, inp.appliedAt attackerKey,
          s.seen⟩ :: s.history
       seen := s.seen }, some actions.length)

def runAttackers : LoopState → List (String × Value) → LoopState × Option ℕ
  | s, [] => (s, some 0)
  | s, (attackerKey, profile) :: rest =>
    match attackerStep opts inp s attackerKey profile with
    | (s, none) => (s, none)
    | (s, some n) =>
      let (s, m) := runAttackers s rest
      (s, m.map (n + ·))

/-! ### A pass -/

/-- The dated touches of a log. -/
def touchesOf (asset : Settings → Option String) (records : List Settings) : List Touch :=
  records.filterMap fun record =>
    match (record.get "attacker_key").str?, asset record,
        opts.parseIsoDatetime (record.get "ts") with
    | some attackerKey, some assetId, some ts => some ⟨attackerKey, assetId, ts⟩
    | _, _, _ => none

/-- The touches in the logs of a pass. -/
def loggedTouches (evidence events : List Settings) : List Touch :=
  touchesOf opts evidenceAsset evidence ++
    touchesOf opts (fun event => (event.get "asset_id").str?) events

/-- The state once a pass has read its files and resolved the pending rows. -/
def beginPass (s : LoopState) : LoopState where
  rows := s.rows.map (updateRow opts inp.evidence inp.internalHttpEvents inp.now)
  processed := if opts.keepsLoopState then s.processed else []
  history := s.history
  seen := s.seen ++ loggedTouches opts inp.evidence inp.internalHttpEvents

/-- One pass, with the number of reveal actions sent. -/
def tickOnce (s : LoopState) : LoopState × Option ℕ :=
  runAttackers opts inp (beginPass opts inp s) inp.profiles

end Pass

end Honeynet.Loop
