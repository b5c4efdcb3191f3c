import Honeynet.Loop.Pacing

/-!
# When the loop goes on after a response

A response to the latest reveal should be enough for the loop to ask about evidence it has not
asked about.  While the gate is closed, the loop already takes the evidence for processed.

* `LoopRun`: the files of the loop together with what it has asked so far.
* `Responsive`: a pass asks about every attacker with an open gate and evidence not asked about.
* `Attentive`: a pass that holds nobody back with such evidence, and whose requests succeed.
* `heard_pass`: along attentive passes, what is processed has been asked about.
* `responsive_of_run`: after attentive passes, an attentive pass is responsive.
* `response_not_enough`: evidence that was seen behind a closed gate is never asked about.
-/

namespace Honeynet.Loop

open Collections Relation

/-- The files of the loop, and what it has asked the controller. -/
structure LoopRun where
  state : LoopState := {}
  requests : List TickPayload := []

/-- The evidence the controller has been asked about. -/
def asked (requests : List TickPayload) (attackerKey : String) : List String :=
  (requests.filter fun q => q.attackerKey == attackerKey).flatMap fun q =>
    recentEvidenceIds q.profile

theorem mem_asked {requests : List TickPayload} {attackerKey id : String} :
    id ∈ asked requests attackerKey ↔
      ∃ q ∈ requests, q.attackerKey = attackerKey ∧ id ∈ recentEvidenceIds q.profile := by
  simp only [asked, List.mem_flatMap, List.mem_filter, beq_iff_eq, and_assoc]

section Pass

variable (opts : LoopOptions) (inp : PassInput)

def LoopRun.pass (r : LoopRun) : LoopRun where
  state := (tickOnce opts inp r.state).1
  requests := r.requests ++ passRequests opts inp (beginPass opts inp r.state) inp.profiles

/-- **The pass asks about every attacker whose gate is open and who has evidence that has not
been asked about.** -/
def Responsive (r : LoopRun) : Prop :=
  ∀ attackerKey profile bindingId unlocked revealed, (attackerKey, .dict profile) ∈ inp.profiles →
    runtimeBinding opts inp attackerKey = some (bindingId, unlocked, revealed) →
    gateAllows (beginPass opts inp r.state) attackerKey bindingId profile →
    (∃ id ∈ recentEvidenceIds profile, id ∉ asked r.requests attackerKey) →
      ∃ q ∈ passRequests opts inp (beginPass opts inp r.state) inp.profiles,
        q.attackerKey = attackerKey

/-- Whoever is held back has been asked about, and no request fails before the last attacker of
the profiles file, which names each attacker once. -/
structure Attentive (r : LoopRun) : Prop where
  keys : (inp.profiles.map Prod.fst).Nodup
  heard : ∀ entry ∈ inp.profiles, heldBack opts inp (beginPass opts inp r.state) entry.1 entry.2 →
    ∀ id ∈ recentEvidenceIds (entry.2.dict?.getD []), id ∈ asked r.requests entry.1
  answered : ∀ entry ∈ inp.profiles.dropLast,
    ¬ raises opts inp (beginPass opts inp r.state) entry.1 entry.2

end Pass

/-- A pass over a profiles file, which names each attacker once. -/
def LoopPass (opts : LoopOptions) (r r' : LoopRun) : Prop :=
  ∃ inp : PassInput, (inp.profiles.map Prod.fst).Nodup ∧ r.pass opts inp = r'

def AttentivePass (opts : LoopOptions) (r r' : LoopRun) : Prop :=
  ∃ inp, Attentive opts inp r ∧ r.pass opts inp = r'

section Keep

variable {opts : LoopOptions} {inp : PassInput}

/-! ### What a pass asks about -/

/-- What an attacker is asked about at the start of a pass is asked in its course. -/
theorem mem_passRequests {s : LoopState} {profiles : List (String × Value)}
    (hkeys : (profiles.map Prod.fst).Nodup)
    (hanswered : ∀ entry ∈ profiles.dropLast, ¬ raises opts inp s entry.1 entry.2)
    {attackerKey : String} {profile : Value} (hmem : (attackerKey, profile) ∈ profiles)
    {q : TickPayload} (hq : controllerRequest opts inp s attackerKey profile = some q) :
    q ∈ passRequests opts inp s profiles := by
  induction profiles generalizing s with
  | nil => exact absurd hmem List.not_mem_nil
  | cons entry rest ih =>
    obtain ⟨key, head⟩ := entry
    rw [List.map_cons, List.nodup_cons] at hkeys
    rcases List.mem_cons.mp hmem with heq | hmem
    · obtain ⟨rfl, rfl⟩ := Prod.mk.inj heq
      rw [passRequests, hq]
      exact List.mem_append_left _ (List.mem_singleton_self q)
    · have hne : ∀ other ∈ rest.map Prod.fst, other ≠ key := fun other hother heq =>
        hkeys.1 (heq ▸ hother)
      rw [List.dropLast_cons_of_ne_nil (List.ne_nil_of_mem hmem)] at hanswered
      have hstep : (attackerStep opts inp s key head).2 ≠ none := fun hnone =>
        hanswered _ List.mem_cons_self (attackerStep_eq_none_iff.mp hnone)
      cases hout : attackerStep opts inp s key head with
      | mk t count =>
        rw [hout] at hstep
        obtain ⟨n, rfl⟩ := Option.ne_none_iff_exists'.mp hstep
        have hview : ∀ other ∈ rest.map Prod.fst, t.viewOf other = s.viewOf other := by
          intro other hother
          have hframe := viewOf_attackerStep opts inp s (hne other hother) head
          rwa [hout] at hframe
        rw [passRequests_cons_of_some hout]
        refine List.mem_append_right _ (ih hkeys.2 ?_ hmem ?_)
        · intro entry hentry
          have hlater : entry.1 ∈ rest.map Prod.fst :=
            List.mem_map_of_mem (List.dropLast_subset rest hentry)
          rw [raises_congr (hview _ hlater)]
          exact hanswered entry (List.mem_cons_of_mem _ hentry)
        · rw [controllerRequest_congr (hview _ (List.mem_map_of_mem hmem))]
          exact hq

/-! ### What a pass takes for processed -/

/-- The evidence is in a profile the controller is asked about. -/
def AskedIn (requests : List TickPayload) (attackerKey id : String) : Prop :=
  ∃ q ∈ requests, q.attackerKey = attackerKey ∧ id ∈ recentEvidenceIds q.profile

/-- What a step takes for processed has been asked about, or is held back. -/
theorem processed_attackerStep {s : LoopState} {attackerKey id : String} {profile : Value}
    (h : id ∈ (attackerStep opts inp s attackerKey profile).1.processed.getD attackerKey []) :
    id ∈ s.processed.getD attackerKey [] ∨
      (heldBack opts inp s attackerKey profile ∧
        id ∈ recentEvidenceIds (profile.dict?.getD [])) ∨
      AskedIn (controllerRequest opts inp s attackerKey profile).toList attackerKey id := by
  have hattempt := attempt_eq opts inp s attackerKey profile
  cases hq : controllerRequest opts inp s attackerKey profile with
  | some q =>
    obtain ⟨hkey, hprofile, -⟩ := controllerRequest_spec hq
    have hasked : id ∈ recentEvidenceIds (profile.dict?.getD []) →
        AskedIn (some q).toList attackerKey id := by
      rw [hprofile]
      exact fun hid => ⟨q, List.mem_singleton_self q, hkey, hid⟩
    cases hout : attempt opts inp s attackerKey profile with
    | skipped => simp only [attackerStep, hout] at h; exact Or.inl h
    | raised => simp only [attackerStep, hout] at h; exact Or.inl h
    | finished =>
      simp only [attackerStep, hout] at h
      exact (mem_markEvidenceProcessed.mp h).imp_right fun hid => Or.inr (hasked hid)
    | applied b data response actions =>
      simp only [attackerStep, hout] at h
      exact (mem_markEvidenceProcessed.mp h).imp_right fun hid => Or.inr (hasked hid)
  | none =>
    rw [hq] at hattempt
    by_cases hheld : heldBack opts inp s attackerKey profile
    · rw [if_pos hheld] at hattempt
      simp only [attackerStep, hattempt] at h
      exact (mem_markEvidenceProcessed.mp h).imp_right fun hid => Or.inl ⟨hheld, hid⟩
    · rw [if_neg hheld] at hattempt
      simp only [attackerStep, hattempt] at h
      exact Or.inl h

/-- A step takes nothing for processed of the other attackers. -/
theorem processed_attackerStep_any {s : LoopState} {attackerKey key id : String} {profile : Value}
    (h : id ∈ (attackerStep opts inp s key profile).1.processed.getD attackerKey []) :
    id ∈ s.processed.getD attackerKey [] ∨
      (key = attackerKey ∧ heldBack opts inp s key profile ∧
        id ∈ recentEvidenceIds (profile.dict?.getD [])) ∨
      AskedIn (controllerRequest opts inp s key profile).toList attackerKey id := by
  by_cases hkey : attackerKey = key
  · subst hkey
    exact (processed_attackerStep h).imp_right fun h => h.imp_left fun hheld => ⟨rfl, hheld⟩
  · have hprocessed : (attackerStep opts inp s key profile).1.processed.getD attackerKey [] =
        s.processed.getD attackerKey [] :=
      congrArg AttackerView.processed (viewOf_attackerStep opts inp s hkey profile)
    exact Or.inl (hprocessed ▸ h)

theorem processed_runAttackers {s : LoopState} {profiles : List (String × Value)}
    (hkeys : (profiles.map Prod.fst).Nodup) {attackerKey id : String}
    (h : id ∈ (runAttackers opts inp s profiles).1.processed.getD attackerKey []) :
    id ∈ s.processed.getD attackerKey [] ∨
      (∃ entry ∈ profiles, entry.1 = attackerKey ∧ heldBack opts inp s entry.1 entry.2 ∧
        id ∈ recentEvidenceIds (entry.2.dict?.getD [])) ∨
      AskedIn (passRequests opts inp s profiles) attackerKey id := by
  induction profiles generalizing s with
  | nil => exact Or.inl h
  | cons entry rest ih =>
    obtain ⟨key, head⟩ := entry
    rw [List.map_cons, List.nodup_cons] at hkeys
    have hfirst : id ∈ (attackerStep opts inp s key head).1.processed.getD attackerKey [] →
        id ∈ s.processed.getD attackerKey [] ∨
          (∃ entry ∈ (key, head) :: rest, entry.1 = attackerKey ∧
            heldBack opts inp s entry.1 entry.2 ∧
            id ∈ recentEvidenceIds (entry.2.dict?.getD [])) ∨
          AskedIn (passRequests opts inp s ((key, head) :: rest)) attackerKey id := by
      intro hid
      rcases processed_attackerStep_any hid with hold | hheld | ⟨q, hq, hspec⟩
      · exact Or.inl hold
      · exact Or.inr (Or.inl ⟨_, List.mem_cons_self, hheld⟩)
      · exact Or.inr (Or.inr ⟨q, List.mem_append_left _ hq, hspec⟩)
    cases hout : attackerStep opts inp s key head with
    | mk t count =>
      rw [hout] at hfirst
      cases count with
      | none =>
        simp only [runAttackers, hout] at h
        exact hfirst h
      | some n =>
        simp only [runAttackers, hout] at h
        rcases ih hkeys.2 h with hid | ⟨entry, hentry, hkey, hheld, hid⟩ | ⟨q, hq, hspec⟩
        · exact hfirst hid
        · have hlater : entry.1 ∈ rest.map Prod.fst := List.mem_map_of_mem hentry
          have hne : entry.1 ≠ key := fun heq => hkeys.1 (heq ▸ hlater)
          have hframe := viewOf_attackerStep opts inp s hne head
          rw [hout] at hframe
          rw [heldBack_congr hframe] at hheld
          exact Or.inr (Or.inl ⟨entry, List.mem_cons_of_mem _ hentry, hkey, hheld, hid⟩)
        · refine Or.inr (Or.inr ⟨q, ?_, hspec⟩)
          rw [passRequests_cons_of_some hout]
          exact List.mem_append_right _ hq

/-! ### A pass and a run -/

variable (opts) in
/-- What a pass would take for processed has been asked about. -/
def Heard (r : LoopRun) : Prop :=
  ∀ attackerKey, ∀ id ∈ (if opts.keepsLoopState then r.state.processed else []).getD attackerKey [],
    id ∈ asked r.requests attackerKey

theorem heard_pass {r : LoopRun} (h : Heard opts r) (hpass : Attentive opts inp r) :
    Heard opts (r.pass opts inp) := by
  intro attackerKey id hid
  by_cases hkeeps : opts.keepsLoopState
  · rw [if_pos hkeeps] at hid
    rw [LoopRun.pass, mem_asked]
    rcases processed_runAttackers hpass.keys hid with hold | ⟨entry, hentry, rfl, hheld, hid⟩ |
      ⟨q, hq, hspec⟩
    · obtain ⟨q, hq, hspec⟩ := mem_asked.mp (h attackerKey id hold)
      exact ⟨q, List.mem_append_left _ hq, hspec⟩
    · obtain ⟨q, hq, hspec⟩ := mem_asked.mp (hpass.heard entry hentry hheld id hid)
      exact ⟨q, List.mem_append_left _ hq, hspec⟩
    · exact ⟨q, List.mem_append_right _ hq, hspec⟩
  · rw [if_neg hkeeps] at hid
    exact absurd hid List.not_mem_nil

/-- Where what is processed has been asked about, evidence not asked about is new. -/
theorem responsive_of_heard {r : LoopRun} (h : Heard opts r) (hpass : Attentive opts inp r) :
    Responsive opts inp r := by
  intro attackerKey profile bindingId unlocked revealed hmem hbinding hgate ⟨id, hid, hnew⟩
  have htriggers : triggers opts (beginPass opts inp r.state) attackerKey profile := by
    rw [triggers, Bool.or_eq_true, hasNewEvidence, List.any_eq_true]
    refine Or.inr ⟨id, hid, ?_⟩
    rw [Bool.not_eq_true', decide_eq_false_iff_not]
    exact fun hprocessed => hnew (h attackerKey id hprocessed)
  have hrequest : controllerRequest opts inp (beginPass opts inp r.state) attackerKey
      (.dict profile) = some ⟨attackerKey, bindingId, profile, unlocked, revealed⟩ := by
    simp only [controllerRequest, Value.dict?, hbinding, htriggers, hgate, Bool.and_self,
      if_true]
  exact ⟨_, mem_passRequests hpass.keys hpass.answered hmem hrequest, rfl⟩

end Keep

/-- **After attentive passes, an attentive pass is responsive.** -/
theorem responsive_of_run {opts : LoopOptions} {rows : List FeedbackRow} {r : LoopRun}
    (h : ReflTransGen (AttentivePass opts) { state := { rows } } r) {inp : PassInput}
    (hpass : Attentive opts inp r) : Responsive opts inp r := by
  have hinit : Heard opts { state := { rows } } := by
    intro attackerKey id hid
    rw [ite_self] at hid
    exact absurd hid List.not_mem_nil
  refine responsive_of_heard (Transition.invariant_of_step (P := Heard opts) ?_ h hinit) hpass
  rintro s t ⟨inp, hattentive, rfl⟩ hs
  exact heard_pass hs hattentive

/-- A repository is revealed, and requested before the next pass. -/
theorem responsive_after_request : ∃ r, ReflTransGen (AttentivePass demoOptions) {} r ∧
    Responsive demoOptions sharePass r := by
  have hfirst : Attentive demoOptions repositoryPass {} :=
    ⟨by decide +kernel, by decide +kernel, by decide +kernel⟩
  have hsecond : Attentive demoOptions sharePass (LoopRun.pass demoOptions repositoryPass {}) :=
    ⟨by decide +kernel, by decide +kernel, by decide +kernel⟩
  have hrun : ReflTransGen (AttentivePass demoOptions) { state := { rows := [] } }
      (LoopRun.pass demoOptions repositoryPass {}) :=
    ReflTransGen.single ⟨repositoryPass, hfirst, rfl⟩
  exact ⟨_, hrun, responsive_of_run hrun hsecond⟩

/-- New evidence arrives before the attacker responds. -/
def waitingPass : PassInput :=
  demoPass ["e-1", "e-2"] [] 1767225630000000 (unlockOf "finance-share")

/-- The evidence `e-2` is seen while the gate is closed, then the attacker responds, and the
controller is not asked about it. -/
theorem response_not_enough : ∃ r, ReflTransGen (LoopPass demoOptions) {} r ∧
    (sharePass.profiles.map Prod.fst).Nodup ∧ ¬ Responsive demoOptions sharePass r := by
  have hfirst : LoopPass demoOptions {} (LoopRun.pass demoOptions repositoryPass {}) :=
    ⟨repositoryPass, by decide +kernel, rfl⟩
  have hsecond : LoopPass demoOptions (LoopRun.pass demoOptions repositoryPass {}) _ :=
    ⟨waitingPass, by decide +kernel, rfl⟩
  refine ⟨_, (ReflTransGen.single hfirst).tail hsecond, by decide +kernel, ?_⟩
  intro h
  obtain ⟨q, hq, -⟩ := h "198.51.100.7" _ "b-1" [] [] List.mem_cons_self rfl (by decide +kernel)
    (by decide +kernel)
  have hnone : (passRequests demoOptions sharePass (beginPass demoOptions sharePass
      (LoopRun.pass demoOptions waitingPass
        (LoopRun.pass demoOptions repositoryPass {})).state) sharePass.profiles).isEmpty := by
    decide +kernel
  rw [List.isEmpty_iff.mp hnone] at hq
  exact absurd hq List.not_mem_nil

end Honeynet.Loop
