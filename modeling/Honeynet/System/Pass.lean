import Honeynet.Controller.Tick
import Honeynet.Dashboard.LatestBinding
import Honeynet.Loop.Requests
import Honeynet.Orchestrator.Openings

/-!
# The honeynet as a whole

The loop, the controller, the orchestrator and the binding service share the files of one state
directory.  A pass of the loop reads the bindings once and then handles one profile after the
other, while attackers connect and operators recycle; every request of the loop can be lost, and
so can its answer.

* `tickRequest`, `controllerTick`, `orchestrationApply`: the two services as the loop meets them.
* `State`, `Step`: the stores, the files of the loop and the pass under way.
* `Answered`: the ticks that have been answered, kept beside the stores.
-/

namespace Honeynet.System

open Collections Binding Controller Loop Orchestrator

/-! ### The controller over HTTP -/

/-- The two services while a profile is handled.  `profileSnapshot` is the model of a profile,
`none` where it refuses the profile. -/
structure Services (F : Type) where
  controller : ControllerService F
  profileSnapshot : Settings → Option (ProfileSnapshot F)
  host : Host

/-- `List[str]`. -/
def stringList? (items : List Value) : Option (List String) := items.mapM Value.str?

/-- One entry of a `Dict[str, List[str]]`. -/
def stringLists? (entry : String × Value) : Option (String × List String) := do
  let items ← entry.2.list?
  let strings ← stringList? items
  return (entry.1, strings)

section Services

variable {F : Type} (services : Services F)

/-- The request model of a tick; the loop sends no assets. -/
def tickRequest (q : TickPayload) : Option (ControllerTickRequest F) := do
  let profile ← services.profileSnapshot q.profile
  let unlockedAssetIds ← stringList? q.unlockedAssetIds
  let revealedConfigurations ← q.revealedConfigurations.mapM stringLists?
  return {
    attackerKey := q.attackerKey
    bindingId := q.bindingId
    profile
    unlockedAssetIds
    revealedConfigurations }

/-- `POST /v1/controller/tick`, with the request it was. -/
def controllerTick (q : TickPayload) :
    Option (ControllerTickRequest F × ControllerTickResponse F) := do
  let request ← tickRequest services q
  let response ← (tick services.controller request).toOption
  return (request, response)

/-- What the loop reads of the details of a decision. -/
def decisionDetails : DecisionDetails F → Settings
  | .noReveal reason _ =>
    [("reveal_action", .str "no_reveal"), ("no_reveal_reason", .str reason)]
  | .reveal c _ _ _ _ _ _ =>
    [("selected_technique", .str c.selectedTechnique), ("asset_group", .str c.assetGroup),
      ("matched_dependency_markers", .list (c.matchedDependencyMarkers.map .str))]

/-- What the loop reads of an answer. -/
def loopResponse (r : ControllerTickResponse F) : LoopResponse where
  actions := r.actions
  decisionEvents := r.decisionEvents.map fun e => ⟨e.assetAdded, decisionDetails e.details⟩
  candidateAssetIds := r.candidateAssetIds

/-- `POST /v1/orchestration/apply`: whether it succeeds, and the stores it leaves.  The request
model refuses an empty binding id. -/
def orchestrationApply (bindingId : String) (actions : List ControllerAction) (w : World) :
    Bool × World :=
  if bindingId = "" then (false, w)
  else
    match Effect.exec (apply services.host bindingId actions) w with
    | (.ok _, t) => (true, t)
    | (.error _, t) => (false, t)

end Services

/-! ### A pass among other calls -/

/-- What becomes of the requests for one profile: whether the controller's answer is received,
whether the orchestrator gets its request, and whether its answer is received. -/
structure Network where
  tick : Bool
  apply : Bool
  applied : Bool

/-- The services, the network and the clock of the loop while a profile is handled. -/
structure Moment (F : Type) where
  services : Services F
  network : Network
  appliedAt : String → Int
  rowClock : String → ℕ → Int

/-- A pass under way: the bindings it has read, and the profiles it has yet to handle. -/
structure PassState where
  bindings : List BindingRecord
  profiles : List (String × Value)

/-- A tick that was answered, and what the loop had stored when it asked. -/
structure Answered (F : Type) where
  controller : ControllerService F
  loop : LoopState
  payload : TickPayload
  request : ControllerTickRequest F
  response : ControllerTickResponse F

/-- The stores, the files of the loop and its pass; beside them the answered ticks, latest first. -/
structure State (F : Type) where
  world : World := {}
  loop : LoopState := {}
  pass : Option PassState := none
  answered : List (Answered F) := []

section Pass

variable {F : Type} (opts : LoopOptions) (text : Datetime → String)

/-- What a pass meets while it handles a profile. -/
def Moment.input (m : Moment F) (bindings : List BindingRecord) (w : World) : PassInput where
  bindings := bindings.map fun r => .dict (Dashboard.modelDump text r)
  profiles := []
  evidence := []
  internalHttpEvents := []
  now := 0
  controller q :=
    if m.network.tick then (controllerTick m.services q).map fun answer => loopResponse answer.2
    else none
  orchestrator bindingId actions := m.network.apply && m.network.applied &&
    (orchestrationApply m.services bindingId actions w).1
  appliedAt := m.appliedAt
  rowClock := m.rowClock

/-- What the orchestrator is asked for a profile, if it is asked. -/
def applyRequest (inp : PassInput) (s : LoopState) (attackerKey : String) (profile : Value) :
    Option (String × List ControllerAction) := do
  let q ← controllerRequest opts inp s attackerKey profile
  let response ← inp.controller q
  if response.actions.filter isRevealAction = [] then none
  else return (q.bindingId, limitRevealActions response.actions opts.maxActionsPerTrigger)

/-- The stores once a profile is handled: what a request has changed stays so when its answer is
lost. -/
def worldAfter (m : Moment F) (inp : PassInput) (s : LoopState) (attackerKey : String)
    (profile : Value) (w : World) : World :=
  match applyRequest opts inp s attackerKey profile with
  | some (bindingId, actions) =>
    if m.network.apply then (orchestrationApply m.services bindingId actions w).2 else w
  | none => w

/-- The tick that is answered for a profile, if there is one. -/
def answeredTick (m : Moment F) (inp : PassInput) (s : LoopState) (attackerKey : String)
    (profile : Value) : Option (Answered F) := do
  let q ← controllerRequest opts inp s attackerKey profile
  let answer ← controllerTick m.services q
  return ⟨m.services.controller, s, q, answer.1, answer.2⟩

/-- The system once the next profile of the pass is handled; an exception ends the pass. -/
def State.handle (st : State F) (m : Moment F) (bindings : List BindingRecord)
    (attackerKey : String) (profile : Value) (rest : List (String × Value)) : State F :=
  let inp := m.input text bindings st.world
  let out := attackerStep opts inp st.loop attackerKey profile
  { world := worldAfter opts m inp st.loop attackerKey profile st.world
    loop := out.1
    pass := out.2.map fun _ => ⟨bindings, rest⟩
    answered := (answeredTick opts m inp st.loop attackerKey profile).toList ++ st.answered }

/-- **One step of the system**, on hosts and with ticks that meet a condition: a call of the
binding service, a prewarm, the start of a pass, its next profile, or its end, which can come at
any time. -/
inductive Step (H : Host → Prop) (P : ControllerService F → ControllerTickRequest F → Prop) :
    State F → State F → Prop
  | binding (st : State F) (host : Host) (op : BindingOp) (hhost : H host)
      (hserved : Served op) :
      Step H P st { st with world := (Call.binding op).run host st.world }
  | prewarm (st : State F) (host : Host) (bindingId : String) (assetIds : List String)
      (hhost : H host) :
      Step H P st { st with world := (Call.prewarm bindingId assetIds).run host st.world }
  | start (st : State F) (inp : PassInput) (hidle : st.pass = none)
      (hkeys : (inp.profiles.map Prod.fst).Nodup) :
      Step H P st { st with
        loop := beginPass opts inp st.loop
        pass := some ⟨st.world.bindings, inp.profiles⟩ }
  | handle (st : State F) (m : Moment F) (bindings : List BindingRecord) (attackerKey : String)
      (profile : Value) (rest : List (String × Value)) (hhost : H m.services.host)
      (hpass : st.pass = some ⟨bindings, (attackerKey, profile) :: rest⟩)
      (htick : ∀ q request, controllerRequest opts (m.input text bindings st.world) st.loop
        attackerKey profile = some q → tickRequest m.services q = some request →
          P m.services.controller request) :
      Step H P st (st.handle opts text m bindings attackerKey profile rest)
  | finish (st : State F) : Step H P st { st with pass := none }

end Pass

end Honeynet.System
