import Honeynet.Loop.Pacing

/-!
# A request that fails

A failing request ends the pass: the exception leaves the loop over the profiles and is caught
around the pass.

* `served`: the attackers before the first one for whom a request fails.
* `viewOf_of_mem_served`, `viewOf_of_not_mem_served`: they are handled, the others are not.
* `Faulty`: two runs of a pass, where some requests of the second one fail.
* `pass_isolated`: the attackers before the first failure are handled as if nothing failed.
* `starved`: an attacker after the failing one is not asked about.
-/

namespace Honeynet.Loop

open Collections

section Served

variable (opts : LoopOptions) (inp : PassInput)

/-- The attackers before the first one for whom a request fails. -/
def served (s : LoopState) (profiles : List (String × Value)) : List (String × Value) :=
  profiles.takeWhile fun entry => !raises opts inp s entry.1 entry.2

/-- What the controller is asked about one attacker in the course of a pass. -/
def requestsAbout (s : LoopState) (profiles : List (String × Value)) (attackerKey : String) :
    List TickPayload :=
  (passRequests opts inp s profiles).filter fun q => q.attackerKey == attackerKey

variable {opts inp}

variable (opts inp) in
theorem seen_attackerStep (s : LoopState) (attackerKey : String) (profile : Value) :
    (attackerStep opts inp s attackerKey profile).1.seen = s.seen := by
  rw [attackerStep]
  cases attempt opts inp s attackerKey profile <;> rfl

/-- What a step stores about its attacker depends on what was stored about it. -/
theorem viewOf_attackerStep_congr {s t : LoopState} {attackerKey : String}
    (h : s.viewOf attackerKey = t.viewOf attackerKey) (hseen : s.seen = t.seen) (profile : Value) :
    (attackerStep opts inp s attackerKey profile).1.viewOf attackerKey =
      (attackerStep opts inp t attackerKey profile).1.viewOf attackerKey := by
  have hattempt : attempt opts inp s attackerKey profile = attempt opts inp t attackerKey profile :=
    attempt_congr h profile
  have hprocessed : s.processed.getD attackerKey [] = t.processed.getD attackerKey [] :=
    congrArg AttackerView.processed h
  have hrows : (s.rows.filter fun row => row.attackerKey == attackerKey) =
      t.rows.filter fun row => row.attackerKey == attackerKey := congrArg AttackerView.rows h
  have hhistory : (s.history.filter fun R => R.attackerKey == attackerKey) =
      t.history.filter fun R => R.attackerKey == attackerKey := congrArg AttackerView.history h
  cases hout : attempt opts inp t attackerKey profile with
  | skipped => rw [hout] at hattempt; simp only [attackerStep, hattempt, hout]; exact h
  | raised => rw [hout] at hattempt; simp only [attackerStep, hattempt, hout]; exact h
  | finished =>
    rw [hout] at hattempt
    simp only [attackerStep, hattempt, hout, LoopState.viewOf, markEvidenceProcessed, hprocessed,
      hrows, hhistory]
    simp only [Dict.getD, lookup_set_self]
  | applied b data response actions =>
    rw [hout] at hattempt
    simp only [attackerStep, hattempt, hout, LoopState.viewOf, markEvidenceProcessed, hprocessed,
      List.filter_append, hrows, hseen]
    by_cases hnil : actions = []
    · simp only [if_pos hnil, hhistory, Dict.getD, lookup_set_self]
    · simp only [if_neg hnil, List.filter_cons, hhistory, Dict.getD, lookup_set_self]

/-! ### One step of a pass -/

theorem attackerStep_of_raises {s : LoopState} {attackerKey : String} {profile : Value}
    (h : raises opts inp s attackerKey profile) :
    attackerStep opts inp s attackerKey profile = (s, none) := by
  rw [raises] at h
  rw [attackerStep]
  cases hout : attempt opts inp s attackerKey profile with
  | raised => rfl
  | _ => rw [hout] at h; exact absurd h (by simp)

theorem attackerStep_of_not_raises {s : LoopState} {attackerKey : String} {profile : Value}
    (h : ¬ raises opts inp s attackerKey profile) : ∃ t n,
      attackerStep opts inp s attackerKey profile = (t, some n) ∧ t.seen = s.seen ∧
        ∀ other, other ≠ attackerKey → t.viewOf other = s.viewOf other := by
  have hseen := seen_attackerStep opts inp s attackerKey profile
  have hframe : ∀ other, other ≠ attackerKey →
      (attackerStep opts inp s attackerKey profile).1.viewOf other = s.viewOf other :=
    fun other hne => viewOf_attackerStep opts inp s hne profile
  rw [← attackerStep_eq_none_iff] at h
  cases hout : attackerStep opts inp s attackerKey profile with
  | mk t count =>
    rw [hout] at h hseen hframe
    obtain ⟨n, rfl⟩ := Option.ne_none_iff_exists'.mp h
    exact ⟨t, n, rfl, hseen, hframe⟩

theorem served_congr {s t : LoopState} {profiles : List (String × Value)}
    (h : ∀ entry ∈ profiles, t.viewOf entry.1 = s.viewOf entry.1) :
    served opts inp t profiles = served opts inp s profiles := by
  refine takeWhile_congr ?_
  intro entry hentry
  rw [raises_congr (h entry hentry)]

theorem ne_of_mem_rest {key : String} {rest : List (String × Value)}
    (hkey : key ∉ rest.map Prod.fst) {entry : String × Value} (hentry : entry ∈ rest) :
    entry.1 ≠ key := by
  rintro rfl
  exact hkey (List.mem_map_of_mem hentry)

/-! ### A whole pass -/

/-- **An attacker before the first failure is handled.** -/
theorem viewOf_of_mem_served {s : LoopState} {profiles : List (String × Value)}
    (hkeys : (profiles.map Prod.fst).Nodup) {entry : String × Value}
    (h : entry ∈ served opts inp s profiles) :
    (runAttackers opts inp s profiles).1.viewOf entry.1 =
      (attackerStep opts inp s entry.1 entry.2).1.viewOf entry.1 := by
  induction profiles generalizing s with
  | nil => exact absurd h List.not_mem_nil
  | cons head rest ih =>
    rw [List.map_cons, List.nodup_cons] at hkeys
    by_cases hraises : raises opts inp s head.1 head.2
    · rw [served, List.takeWhile_cons_of_neg (by simpa using hraises)] at h
      exact absurd h List.not_mem_nil
    · rw [served, List.takeWhile_cons_of_pos (by simpa using hraises), ← served] at h
      obtain ⟨t, n, hout, hseen, hframe⟩ := attackerStep_of_not_raises hraises
      rw [runAttackers, hout]
      rcases List.mem_cons.mp h with rfl | hmem
      · rw [hout]
        exact viewOf_runAttackers t hkeys.1
      · have hrest : entry ∈ rest := (List.takeWhile_prefix _).subset hmem
        have hne : entry.1 ≠ head.1 := ne_of_mem_rest hkeys.1 hrest
        rw [← viewOf_attackerStep_congr (hframe _ hne) hseen]
        refine ih hkeys.2 ?_
        rw [served_congr fun other hother => hframe _ (ne_of_mem_rest hkeys.1 hother)]
        exact hmem

/-- **The first failing attacker and those after it are left as they were.** -/
theorem viewOf_of_not_mem_served {s : LoopState} {profiles : List (String × Value)}
    (hkeys : (profiles.map Prod.fst).Nodup) {attackerKey : String}
    (h : attackerKey ∉ (served opts inp s profiles).map Prod.fst) :
    (runAttackers opts inp s profiles).1.viewOf attackerKey = s.viewOf attackerKey := by
  induction profiles generalizing s with
  | nil => rfl
  | cons head rest ih =>
    rw [List.map_cons, List.nodup_cons] at hkeys
    by_cases hraises : raises opts inp s head.1 head.2
    · rw [runAttackers, attackerStep_of_raises hraises]
    · rw [served, List.takeWhile_cons_of_pos (by simpa using hraises), ← served, List.map_cons,
        List.mem_cons, not_or] at h
      obtain ⟨t, n, hout, hseen, hframe⟩ := attackerStep_of_not_raises hraises
      rw [runAttackers, hout, ← hframe attackerKey h.1]
      refine ih hkeys.2 ?_
      rw [served_congr fun other hother => hframe _ (ne_of_mem_rest hkeys.1 hother)]
      exact h.2

theorem runAttackers_eq_none_iff {s : LoopState} {profiles : List (String × Value)}
    (hkeys : (profiles.map Prod.fst).Nodup) :
    (runAttackers opts inp s profiles).2 = none ↔ served opts inp s profiles ≠ profiles := by
  induction profiles generalizing s with
  | nil => simp [runAttackers, served]
  | cons head rest ih =>
    rw [List.map_cons, List.nodup_cons] at hkeys
    by_cases hraises : raises opts inp s head.1 head.2
    · rw [runAttackers, attackerStep_of_raises hraises, served,
        List.takeWhile_cons_of_neg (by simpa using hraises)]
      simp
    · obtain ⟨t, n, hout, hseen, hframe⟩ := attackerStep_of_not_raises hraises
      have hrest := ih (s := t) hkeys.2
      rw [served_congr fun other hother => hframe _ (ne_of_mem_rest hkeys.1 hother)] at hrest
      rw [runAttackers, hout, served, List.takeWhile_cons_of_pos (by simpa using hraises), ← served]
      simpa using hrest

/-! ### The requests of a pass -/

theorem filter_controllerRequest_self (s : LoopState) (attackerKey : String) (profile : Value) :
    (controllerRequest opts inp s attackerKey profile).toList.filter
        (fun q => q.attackerKey == attackerKey) =
      (controllerRequest opts inp s attackerKey profile).toList := by
  rw [List.filter_eq_self]
  intro q hq
  rw [Option.mem_toList] at hq
  exact beq_iff_eq.mpr (controllerRequest_spec hq).1

theorem filter_controllerRequest_of_ne (s : LoopState) {attackerKey other : String}
    (hne : other ≠ attackerKey) (profile : Value) :
    (controllerRequest opts inp s attackerKey profile).toList.filter
      (fun q => q.attackerKey == other) = [] := by
  rw [List.filter_eq_nil_iff]
  intro q hq hkey
  rw [Option.mem_toList] at hq
  rw [(controllerRequest_spec hq).1, beq_iff_eq] at hkey
  exact hne hkey.symm

theorem requestsAbout_of_raises {s : LoopState} {head : String × Value}
    {rest : List (String × Value)} (h : raises opts inp s head.1 head.2) (attackerKey : String) :
    requestsAbout opts inp s (head :: rest) attackerKey =
      (controllerRequest opts inp s head.1 head.2).toList.filter
        fun q => q.attackerKey == attackerKey := by
  rw [requestsAbout, passRequests, attackerStep_of_raises h, List.append_nil]

theorem requestsAbout_of_step {s t : LoopState} {head : String × Value} {n : ℕ}
    (h : attackerStep opts inp s head.1 head.2 = (t, some n)) (rest : List (String × Value))
    (attackerKey : String) :
    requestsAbout opts inp s (head :: rest) attackerKey =
      ((controllerRequest opts inp s head.1 head.2).toList.filter
        fun q => q.attackerKey == attackerKey) ++ requestsAbout opts inp t rest attackerKey := by
  rw [requestsAbout, passRequests_cons_of_some h, List.filter_append, ← requestsAbout]

theorem requestsAbout_of_not_mem {s : LoopState} {profiles : List (String × Value)}
    {attackerKey : String} (h : attackerKey ∉ profiles.map Prod.fst) :
    requestsAbout opts inp s profiles attackerKey = [] := by
  induction profiles generalizing s with
  | nil => rfl
  | cons head rest ih =>
    rw [List.map_cons, List.mem_cons, not_or] at h
    by_cases hraises : raises opts inp s head.1 head.2
    · rw [requestsAbout_of_raises hraises, filter_controllerRequest_of_ne s h.1]
    · obtain ⟨t, n, hout, -, -⟩ := attackerStep_of_not_raises hraises
      rw [requestsAbout_of_step hout, filter_controllerRequest_of_ne s h.1, ih h.2]
      rfl

/-- **An attacker before the first failure is asked about as at the start of the pass.** -/
theorem requestsAbout_of_mem_served {s : LoopState} {profiles : List (String × Value)}
    (hkeys : (profiles.map Prod.fst).Nodup) {entry : String × Value}
    (h : entry ∈ served opts inp s profiles) :
    requestsAbout opts inp s profiles entry.1 =
      (controllerRequest opts inp s entry.1 entry.2).toList := by
  induction profiles generalizing s with
  | nil => exact absurd h List.not_mem_nil
  | cons head rest ih =>
    rw [List.map_cons, List.nodup_cons] at hkeys
    by_cases hraises : raises opts inp s head.1 head.2
    · rw [served, List.takeWhile_cons_of_neg (by simpa using hraises)] at h
      exact absurd h List.not_mem_nil
    · rw [served, List.takeWhile_cons_of_pos (by simpa using hraises), ← served] at h
      obtain ⟨t, n, hout, hseen, hframe⟩ := attackerStep_of_not_raises hraises
      rw [requestsAbout_of_step hout]
      rcases List.mem_cons.mp h with rfl | hmem
      · rw [filter_controllerRequest_self, requestsAbout_of_not_mem hkeys.1, List.append_nil]
      · have hne : entry.1 ≠ head.1 :=
          ne_of_mem_rest hkeys.1 ((List.takeWhile_prefix _).subset hmem)
        rw [filter_controllerRequest_of_ne s hne, List.nil_append,
          ← controllerRequest_congr (hframe _ hne)]
        refine ih hkeys.2 ?_
        rw [served_congr fun other hother => hframe _ (ne_of_mem_rest hkeys.1 hother)]
        exact hmem

/-- **Nobody after the first failure is asked about.** -/
theorem requestsAbout_of_later {s : LoopState} {profiles : List (String × Value)}
    (hkeys : (profiles.map Prod.fst).Nodup) {entry : String × Value}
    (h : entry ∈ profiles.drop ((served opts inp s profiles).length + 1)) :
    requestsAbout opts inp s profiles entry.1 = [] := by
  induction profiles generalizing s with
  | nil => rfl
  | cons head rest ih =>
    rw [List.map_cons, List.nodup_cons] at hkeys
    rw [List.drop_succ_cons] at h
    have hne : entry.1 ≠ head.1 := ne_of_mem_rest hkeys.1 (List.mem_of_mem_drop h)
    by_cases hraises : raises opts inp s head.1 head.2
    · rw [requestsAbout_of_raises hraises, filter_controllerRequest_of_ne s hne]
    · rw [served, List.takeWhile_cons_of_pos (by simpa using hraises), ← served,
        List.length_cons] at h
      obtain ⟨t, n, hout, hseen, hframe⟩ := attackerStep_of_not_raises hraises
      rw [requestsAbout_of_step hout, filter_controllerRequest_of_ne s hne, List.nil_append]
      refine ih hkeys.2 ?_
      rw [served_congr fun other hother => hframe _ (ne_of_mem_rest hkeys.1 hother)]
      exact h

end Served

/-! ### Two runs of a pass -/

/-- The same files and clock; no request of `inp` fails, and those of `faulty` that do not fail
have the same answers. -/
structure Faulty (inp faulty : PassInput) : Prop where
  files : faulty = { inp with
    controller := faulty.controller, orchestrator := faulty.orchestrator }
  asks : ∀ q, (inp.controller q).isSome
  applies : ∀ bindingId actions, inp.orchestrator bindingId actions
  answers : ∀ q, faulty.controller q = none ∨ faulty.controller q = inp.controller q

section Faulty

variable {opts : LoopOptions} {inp faulty : PassInput}

theorem controllerRequest_faulty (h : Faulty inp faulty) (s : LoopState) (attackerKey : String)
    (profile : Value) : controllerRequest opts faulty s attackerKey profile =
      controllerRequest opts inp s attackerKey profile := by
  rw [h.files]; rfl

theorem beginPass_faulty (h : Faulty inp faulty) (s : LoopState) :
    beginPass opts faulty s = beginPass opts inp s := by
  rw [h.files]; rfl

theorem heldBack_faulty (h : Faulty inp faulty) (s : LoopState) (attackerKey : String)
    (profile : Value) : heldBack opts faulty s attackerKey profile =
      heldBack opts inp s attackerKey profile := by
  rw [h.files]; rfl

theorem not_raises_of_faulty (h : Faulty inp faulty) (s : LoopState) (attackerKey : String)
    (profile : Value) : ¬ raises opts inp s attackerKey profile := by
  rw [raises, attempt_eq]
  cases controllerRequest opts inp s attackerKey profile with
  | none =>
    by_cases hheld : heldBack opts inp s attackerKey profile
    · simp [hheld]
    · simp [hheld]
  | some q =>
    obtain ⟨response, hresponse⟩ := Option.isSome_iff_exists.mp (h.asks q)
    simp only [requestReveal, hresponse, h.applies, if_true]
    by_cases hnone : response.actions.filter isRevealAction = []
    · simp [hnone]
    · simp [hnone]

/-- A request that does not fail has the same outcome. -/
theorem requestReveal_faulty (h : Faulty inp faulty) {attackerKey bindingId : String}
    {profile : Settings} {unlocked : List Value} {revealed : Settings}
    (hok : requestReveal opts faulty attackerKey bindingId profile unlocked revealed ≠ .raised) :
    requestReveal opts faulty attackerKey bindingId profile unlocked revealed =
      requestReveal opts inp attackerKey bindingId profile unlocked revealed := by
  rw [requestReveal] at hok ⊢
  rw [requestReveal]
  rcases h.answers ⟨attackerKey, bindingId, profile, unlocked, revealed⟩ with hnone | hsame
  · rw [hnone] at hok
    exact absurd rfl hok
  · rw [hsame] at hok ⊢
    cases hresponse : inp.controller ⟨attackerKey, bindingId, profile, unlocked, revealed⟩ with
    | none => rfl
    | some response =>
      simp only [hresponse] at hok ⊢
      by_cases hnil : response.actions.filter isRevealAction = []
      · rw [if_pos hnil, if_pos hnil]
      · rw [if_neg hnil] at hok
        rw [if_neg hnil, if_neg hnil, if_pos (h.applies _ _)]
        by_cases happlied : faulty.orchestrator bindingId
            (limitRevealActions response.actions opts.maxActionsPerTrigger)
        · rw [if_pos happlied]
        · rw [if_neg happlied] at hok
          exact absurd rfl hok

theorem attackerStep_faulty (h : Faulty inp faulty) {s : LoopState} {attackerKey : String}
    {profile : Value} (hok : ¬ raises opts faulty s attackerKey profile) :
    attackerStep opts faulty s attackerKey profile =
      attackerStep opts inp s attackerKey profile := by
  have hattempt : attempt opts faulty s attackerKey profile =
      attempt opts inp s attackerKey profile := by
    rw [raises, attempt_eq, controllerRequest_faulty h, heldBack_faulty h] at hok
    rw [attempt_eq, attempt_eq, controllerRequest_faulty h, heldBack_faulty h]
    cases hq : controllerRequest opts inp s attackerKey profile with
    | none => rfl
    | some q =>
      simp only [hq] at hok ⊢
      refine requestReveal_faulty h ?_
      intro hraised
      rw [hraised] at hok
      exact hok rfl
  have hclock : faulty.rowClock = inp.rowClock := by rw [h.files]
  have happlied : faulty.appliedAt = inp.appliedAt := by rw [h.files]
  rw [attackerStep, attackerStep, hattempt, hclock, happlied]

/-- Where nothing fails, everybody is served. -/
theorem served_of_faulty (h : Faulty inp faulty) (s : LoopState)
    (profiles : List (String × Value)) : served opts inp s profiles = profiles := by
  rw [served, List.takeWhile_eq_self_iff]
  intro entry _
  simpa using not_raises_of_faulty h s entry.1 entry.2

theorem not_raises_of_mem_served {s : LoopState} {profiles : List (String × Value)}
    {entry : String × Value} (h : entry ∈ served opts faulty s profiles) :
    ¬ raises opts faulty s entry.1 entry.2 := by
  simpa using List.mem_takeWhile_imp h

variable (opts inp faulty) in
/-- Every attacker whose requests succeed is handled as in the run without failures. -/
def Isolates (s : LoopState) : Prop :=
  ∀ entry ∈ inp.profiles, ¬ raises opts faulty (beginPass opts faulty s) entry.1 entry.2 →
    (tickOnce opts faulty s).1.viewOf entry.1 = (tickOnce opts inp s).1.viewOf entry.1 ∧
      requestsAbout opts faulty (beginPass opts faulty s) inp.profiles entry.1 =
        requestsAbout opts inp (beginPass opts inp s) inp.profiles entry.1

/-- **The attackers before the first failure are handled as in the run without failures; the
others keep what is stored about them, and nobody after the first failure is asked about.** -/
theorem pass_isolated (h : Faulty inp faulty) (hkeys : (inp.profiles.map Prod.fst).Nodup)
    (s : LoopState) :
    (∀ entry ∈ served opts faulty (beginPass opts faulty s) inp.profiles,
      (tickOnce opts faulty s).1.viewOf entry.1 = (tickOnce opts inp s).1.viewOf entry.1 ∧
        requestsAbout opts faulty (beginPass opts faulty s) inp.profiles entry.1 =
          requestsAbout opts inp (beginPass opts inp s) inp.profiles entry.1) ∧
      (∀ attackerKey ∉ (served opts faulty (beginPass opts faulty s) inp.profiles).map Prod.fst,
        (tickOnce opts faulty s).1.viewOf attackerKey =
          (beginPass opts faulty s).viewOf attackerKey) ∧
      (∀ entry ∈ inp.profiles.drop
          ((served opts faulty (beginPass opts faulty s) inp.profiles).length + 1),
        requestsAbout opts faulty (beginPass opts faulty s) inp.profiles entry.1 = []) ∧
      ((tickOnce opts faulty s).2 = none ↔
        served opts faulty (beginPass opts faulty s) inp.profiles ≠ inp.profiles) := by
  have hprofiles : faulty.profiles = inp.profiles := by rw [h.files]
  rw [tickOnce, tickOnce, hprofiles, beginPass_faulty h]
  refine ⟨?_, fun _ => viewOf_of_not_mem_served hkeys, fun _ => requestsAbout_of_later hkeys,
    runAttackers_eq_none_iff hkeys⟩
  intro entry hentry
  have hserved : entry ∈ served opts inp (beginPass opts inp s) inp.profiles := by
    rw [served_of_faulty h]
    exact (List.takeWhile_prefix _).subset hentry
  constructor
  · rw [viewOf_of_mem_served hkeys hentry, viewOf_of_mem_served hkeys hserved,
      attackerStep_faulty h (not_raises_of_mem_served hentry)]
  · rw [requestsAbout_of_mem_served hkeys hentry, requestsAbout_of_mem_served hkeys hserved,
      controllerRequest_faulty h]

end Faulty

/-! ### Two attackers -/

/-- Two attackers with new evidence, both of whom are revealed the repository. -/
def pairPass : PassInput :=
  { repositoryPass with
    bindings :=
      [.dict [("attacker_key", .str "198.51.100.7"), ("binding_id", .str "b-1")],
        .dict [("attacker_key", .str "198.51.100.8"), ("binding_id", .str "b-2")]]
    profiles :=
      [("198.51.100.7", .dict [("recent_evidence_ids", .list [.str "e-1"])]),
        ("198.51.100.8", .dict [("recent_evidence_ids", .list [.str "e-2"])])] }

/-- The request about the first of them fails. -/
def failingPass : PassInput :=
  { pairPass with
    controller := fun q =>
      if q.attackerKey = "198.51.100.7" then none else pairPass.controller q }

theorem faulty_failingPass : Faulty pairPass failingPass where
  files := rfl
  asks _ := rfl
  applies _ _ := rfl
  answers q := by
    by_cases hkey : q.attackerKey = "198.51.100.7"
    · exact Or.inl (if_pos hkey)
    · exact Or.inr (if_neg hkey)

/-- The pass ends with the exception of its first request. -/
theorem failingPass_raises : (tickOnce demoOptions failingPass {}).2 = none := by
  refine (pass_isolated faulty_failingPass (by decide +kernel) {}).2.2.2.mpr ?_
  intro hall
  have hlength := congrArg List.length hall
  exact absurd hlength (by decide +kernel)

/-- The second attacker is not asked about. -/
theorem starved : Faulty pairPass failingPass ∧ ¬ Isolates demoOptions pairPass failingPass {} := by
  refine ⟨faulty_failingPass, ?_⟩
  intro h
  have hrequests := (h ("198.51.100.8", _) (List.mem_cons_of_mem _ List.mem_cons_self)
    (by decide +kernel)).2
  have hlength := congrArg List.length hrequests
  exact absurd hlength (by decide +kernel)

end Honeynet.Loop
