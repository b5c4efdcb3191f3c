import Honeynet.Loop.Tick

/-!
# The requests of a pass

A pass handles the profiles one after the other, and asks the controller about some of them.

* `controllerRequest`, `passRequests`: what a pass asks the controller.
* `raises`: a request for an attacker fails, which ends the pass.
* `attempt_eq`: a profile is asked about, or held back by the gate, or skipped.
* `allowed_of_applied`: what is applied has passed the gate.
* `LoopState.viewOf`: what the loop has stored about one attacker.
* `viewOf_attackerStep`: handling one attacker leaves what is stored about the others.
* `attempt_congr`: what is done with an attacker depends on what is stored about it.
-/

namespace Honeynet.Loop

open Collections

section Requests

variable (opts : LoopOptions) (inp : PassInput)

/-! ### Requests -/

/-- What a request takes from the binding of an attacker. -/
def runtimeBinding (attackerKey : String) : Option (String × List Value × Settings) :=
  ((bindingsByAttacker opts inp).get? attackerKey).bind bindingRuntimeInputs

/-- The profile is not passed over for want of new evidence. -/
def triggers (s : LoopState) (attackerKey : String) (profile : Settings) : Bool :=
  !opts.keepsLoopState || hasNewEvidence s.processed attackerKey (recentEvidenceIds profile)

def gateAllows (s : LoopState) (attackerKey bindingId : String) (profile : Settings) : Bool :=
  (responseGateDecision s.rows attackerKey bindingId profile).allowed

/-- What the controller is asked about a profile, if it is asked. -/
def controllerRequest (s : LoopState) (attackerKey : String) (profile : Value) :
    Option TickPayload :=
  match profile.dict?, runtimeBinding opts inp attackerKey with
  | some profile, some (bindingId, unlocked, revealed) =>
    if triggers opts s attackerKey profile && gateAllows s attackerKey bindingId profile then
      some ⟨attackerKey, bindingId, profile, unlocked, revealed⟩
    else none
  | _, _ => none

/-- The gate holds the attacker back, although there is new evidence. -/
def heldBack (s : LoopState) (attackerKey : String) (profile : Value) : Bool :=
  match profile.dict?, runtimeBinding opts inp attackerKey with
  | some profile, some (bindingId, _, _) =>
    triggers opts s attackerKey profile && !gateAllows s attackerKey bindingId profile
  | _, _ => false

/-- What the controller is asked in the course of a pass. -/
def passRequests : LoopState → List (String × Value) → List TickPayload
  | _, [] => []
  | s, (attackerKey, profile) :: rest =>
    (controllerRequest opts inp s attackerKey profile).toList ++
      match attackerStep opts inp s attackerKey profile with
      | (_, none) => []
      | (s, some _) => passRequests s rest

/-- A request for the attacker fails. -/
def raises (s : LoopState) (attackerKey : String) (profile : Value) : Bool :=
  match attempt opts inp s attackerKey profile with
  | .raised => true
  | _ => false

/-- **A profile is asked about, or held back, or skipped.** -/
theorem attempt_eq (s : LoopState) (attackerKey : String) (profile : Value) :
    attempt opts inp s attackerKey profile =
      match controllerRequest opts inp s attackerKey profile with
      | some q => requestReveal opts inp q.attackerKey q.bindingId q.profile q.unlockedAssetIds
          q.revealedConfigurations
      | none => if heldBack opts inp s attackerKey profile then .finished else .skipped := by
  cases profile with
  | dict profile =>
    have htriggers : triggers opts s attackerKey profile = !(opts.keepsLoopState &&
        !hasNewEvidence s.processed attackerKey (recentEvidenceIds profile)) := by
      simp [triggers]
    rcases Option.eq_none_or_eq_some ((bindingsByAttacker opts inp).get? attackerKey) with
      hlookup | ⟨binding, hlookup⟩
    · simp only [attempt, controllerRequest, heldBack, Value.dict?, runtimeBinding, hlookup]
      simp
    · rcases Option.eq_none_or_eq_some (bindingRuntimeInputs binding) with
        hinputs | ⟨⟨bindingId, unlocked, revealed⟩, hinputs⟩
      · simp only [attempt, controllerRequest, heldBack, Value.dict?, runtimeBinding, hlookup,
          hinputs, Option.bind_some]
        simp
      · simp only [attempt, controllerRequest, heldBack, Value.dict?, runtimeBinding, htriggers,
          gateAllows, hlookup, hinputs, Option.bind_some]
        cases opts.keepsLoopState &&
          !hasNewEvidence s.processed attackerKey (recentEvidenceIds profile) with
        | true => rfl
        | false =>
          cases (responseGateDecision s.rows attackerKey bindingId profile).allowed with
          | true => rfl
          | false => rfl
  | _ => rfl

variable {opts inp}

theorem controllerRequest_spec {s : LoopState} {attackerKey : String} {profile : Value}
    {q : TickPayload} (h : controllerRequest opts inp s attackerKey profile = some q) :
    q.attackerKey = attackerKey ∧ profile = .dict q.profile ∧
      gateAllows s attackerKey q.bindingId q.profile := by
  cases profile with
  | dict profile =>
    rw [controllerRequest, Value.dict?] at h
    rcases Option.eq_none_or_eq_some (runtimeBinding opts inp attackerKey) with
      hbinding | ⟨⟨bindingId, unlocked, revealed⟩, hbinding⟩
    · simp [hbinding] at h
    · simp only [hbinding] at h
      split at h
      · rename_i hopen
        rw [← Option.some.inj h]
        exact ⟨rfl, rfl, (Bool.and_eq_true_iff.mp hopen).2⟩
      · exact absurd h (by simp)
  | _ => exact absurd h (by simp [controllerRequest, Value.dict?])

theorem requestReveal_applied {attackerKey bindingId b : String} {profile data : Settings}
    {unlocked : List Value} {revealed : Settings} {response : LoopResponse}
    {actions : List ControllerAction}
    (h : requestReveal opts inp attackerKey bindingId profile unlocked revealed =
      .applied b data response actions) : b = bindingId ∧ data = profile := by
  rw [requestReveal] at h
  cases hanswer : inp.controller ⟨attackerKey, bindingId, profile, unlocked, revealed⟩ with
  | none => rw [hanswer] at h; exact absurd h (by simp)
  | some answer =>
    simp only [hanswer] at h
    split at h
    · exact absurd h (by simp)
    split at h
    · obtain ⟨hb, hdata, -, -⟩ := Attempt.applied.inj h
      exact ⟨hb.symm, hdata.symm⟩
    · exact absurd h (by simp)

/-- **A reveal is applied behind an open gate.** -/
theorem allowed_of_applied {s : LoopState} {attackerKey bindingId : String} {profile : Value}
    {data : Settings} {response : LoopResponse} {actions : List ControllerAction}
    (h : attempt opts inp s attackerKey profile = .applied bindingId data response actions) :
    (responseGateDecision s.rows attackerKey bindingId data).allowed := by
  rw [attempt_eq] at h
  cases hq : controllerRequest opts inp s attackerKey profile with
  | none =>
    rw [hq] at h
    by_cases hheld : heldBack opts inp s attackerKey profile
    · rw [if_pos hheld] at h
      exact absurd h (by simp)
    · rw [if_neg hheld] at h
      exact absurd h (by simp)
  | some q =>
    rw [hq] at h
    obtain ⟨-, -, hgate⟩ := controllerRequest_spec hq
    obtain ⟨rfl, rfl⟩ := requestReveal_applied h
    exact hgate

theorem attackerStep_eq_none_iff {s : LoopState} {attackerKey : String} {profile : Value} :
    (attackerStep opts inp s attackerKey profile).2 = none ↔
      raises opts inp s attackerKey profile := by
  rw [attackerStep, raises]
  cases attempt opts inp s attackerKey profile <;> simp

theorem passRequests_cons_of_some {s t : LoopState} {attackerKey : String} {profile : Value}
    {n : ℕ} (h : attackerStep opts inp s attackerKey profile = (t, some n))
    (rest : List (String × Value)) :
    passRequests opts inp s ((attackerKey, profile) :: rest) =
      (controllerRequest opts inp s attackerKey profile).toList ++
        passRequests opts inp t rest := by
  rw [passRequests, h]

/-! ### What is stored about an attacker -/

/-- What the loop has stored about one attacker. -/
structure AttackerView where
  processed : List String
  rows : List FeedbackRow
  history : List Reveal

def LoopState.viewOf (s : LoopState) (attackerKey : String) : AttackerView where
  processed := s.processed.getD attackerKey []
  rows := s.rows.filter fun row => row.attackerKey == attackerKey
  history := s.history.filter fun R => R.attackerKey == attackerKey

theorem feedbackRecordsForBinding_viewOf (s : LoopState) (attackerKey bindingId : String) :
    feedbackRecordsForBinding s.rows attackerKey bindingId =
      (s.viewOf attackerKey).rows.filter fun row => row.bindingId == bindingId := by
  rw [feedbackRecordsForBinding, LoopState.viewOf, List.filter_filter]
  simp only [Bool.and_comm]

section Congr

variable {s t : LoopState} {attackerKey : String} (h : s.viewOf attackerKey = t.viewOf attackerKey)

include h

theorem triggers_congr (profile : Settings) :
    triggers opts s attackerKey profile = triggers opts t attackerKey profile := by
  have hprocessed : s.processed.getD attackerKey [] = t.processed.getD attackerKey [] :=
    congrArg AttackerView.processed h
  rw [triggers, triggers, hasNewEvidence, hasNewEvidence, hprocessed]

theorem gateAllows_congr (bindingId : String) (profile : Settings) :
    gateAllows s attackerKey bindingId profile = gateAllows t attackerKey bindingId profile := by
  rw [gateAllows, gateAllows, responseGateDecision, responseGateDecision,
    feedbackRecordsForBinding_viewOf s, feedbackRecordsForBinding_viewOf t, h]

theorem controllerRequest_congr (profile : Value) :
    controllerRequest opts inp s attackerKey profile =
      controllerRequest opts inp t attackerKey profile := by
  simp only [controllerRequest, triggers_congr h, gateAllows_congr h]

theorem heldBack_congr (profile : Value) :
    heldBack opts inp s attackerKey profile = heldBack opts inp t attackerKey profile := by
  simp only [heldBack, triggers_congr h, gateAllows_congr h]

/-- **What a pass does with an attacker depends on what is stored about it.** -/
theorem attempt_congr (profile : Value) :
    attempt opts inp s attackerKey profile = attempt opts inp t attackerKey profile := by
  rw [attempt_eq, attempt_eq, controllerRequest_congr h, heldBack_congr h]

theorem raises_congr (profile : Value) :
    raises opts inp s attackerKey profile = raises opts inp t attackerKey profile := by
  rw [raises, raises, attempt_congr h]

end Congr

theorem filter_recordRevealFeedback {attackerKey other : String} (hne : other ≠ attackerKey)
    (bindingId : String) (response : LoopResponse) (actions : List ControllerAction)
    (clock : ℕ → Int) :
    (recordRevealFeedback attackerKey bindingId response actions clock).filter
      (fun row => row.attackerKey == other) = [] := by
  rw [List.filter_eq_nil_iff]
  intro row hrow hkey
  rw [(mem_recordRevealFeedback hrow).1, beq_iff_eq] at hkey
  exact hne hkey.symm

variable (opts inp) in
/-- **Handling one attacker leaves what is stored about the others.** -/
theorem viewOf_attackerStep (s : LoopState) {attackerKey other : String}
    (hne : other ≠ attackerKey) (profile : Value) :
    (attackerStep opts inp s attackerKey profile).1.viewOf other = s.viewOf other := by
  cases hattempt : attempt opts inp s attackerKey profile with
  | skipped => simp only [attackerStep, hattempt]
  | raised => simp only [attackerStep, hattempt]
  | finished =>
    simp only [attackerStep, hattempt, LoopState.viewOf, getD_markEvidenceProcessed_of_ne _ hne]
  | applied b data response actions =>
    simp only [attackerStep, hattempt, LoopState.viewOf, getD_markEvidenceProcessed_of_ne _ hne,
      List.filter_append, filter_recordRevealFeedback hne, List.append_nil]
    by_cases hnil : actions = []
    · rw [if_pos hnil]
    · rw [if_neg hnil, List.filter_cons_of_neg]
      simpa using hne.symm

theorem viewOf_runAttackers (s : LoopState) {other : String} {profiles : List (String × Value)}
    (hother : other ∉ profiles.map Prod.fst) :
    (runAttackers opts inp s profiles).1.viewOf other = s.viewOf other := by
  induction profiles generalizing s with
  | nil => rfl
  | cons entry profiles ih =>
    obtain ⟨attackerKey, profile⟩ := entry
    rw [List.map_cons, List.mem_cons, not_or] at hother
    have hstep := viewOf_attackerStep opts inp s hother.1 profile
    cases hout : attackerStep opts inp s attackerKey profile with
    | mk t count =>
      rw [hout] at hstep
      cases count with
      | none => simp only [runAttackers, hout]; exact hstep
      | some n => simp only [runAttackers, hout]; exact (ih t hother.2).trans hstep

end Requests

end Honeynet.Loop
