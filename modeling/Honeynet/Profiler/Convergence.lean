import Honeynet.Lib.Transition
import Honeynet.Profiler.Profile
import Mathlib.Logic.Function.Basic

/-!
# Ingesting in several processes

Adapters run `ingest` in processes of their own. A call appends its evidence, reads all evidence
of the attacker and writes the profile; each of the three is atomic, and other calls come between
them.

* `Step`: one step of one process.
* `Current`: a write whose list is no shorter than the one the stored profile was computed from.
* `converged_of_run`: along runs whose writes are all `Current`, an attacker for whom no call is
  running has the profile of all its evidence.
* `older_list_written_last`: a call that read before another one and writes after it.
-/

namespace Honeynet.Profiler

open Collections Relation

/-- How far a call has come. -/
inductive Phase
  | mapped (evidences : List TechniqueEvidence)
  | appended
  | listed (evidences : List TechniqueEvidence)

structure IngestCall where
  attackerKey : String
  phase : Phase

/-- The two files and the running call of each process, and beside them what the stored profiles
were computed from. -/
structure Adapters (F : Type) where
  store : ProfilerStore F
  inFlight : ℕ → Option IngestCall
  basis : Dict String (List TechniqueEvidence)

section Steps

variable {F : Type} (svc : ProfilerService F)

/-- No process is running a call. -/
def Adapters.start (store : ProfilerStore F) : Adapters F := ⟨store, fun _ => none, store.evidence⟩

def Adapters.setCall (s : Adapters F) (p : ℕ) (call : Option IngestCall) : Adapters F :=
  { s with inFlight := Function.update s.inFlight p call }

/-- Process `p` has mapped an event. -/
def Adapters.map (s : Adapters F) (p : ℕ) (a : String) (evidences : List TechniqueEvidence) :
    Adapters F := s.setCall p (some ⟨a, .mapped evidences⟩)

/-- Process `p` has appended its evidence. -/
def Adapters.append (s : Adapters F) (p : ℕ) (a : String) (evidences : List TechniqueEvidence) :
    Adapters F :=
  Adapters.setCall { s with store := s.store.addMany a evidences } p (some ⟨a, .appended⟩)

/-- Process `p` has read all evidence of its attacker. -/
def Adapters.list (s : Adapters F) (p : ℕ) (a : String) : Adapters F :=
  s.setCall p (some ⟨a, .listed (s.store.listByAttacker a)⟩)

/-- Process `p` has written the profile of what it read. -/
def Adapters.write (s : Adapters F) (p : ℕ) (a : String) (evidences : List TechniqueEvidence)
    (now : Int) : Adapters F :=
  Adapters.setCall
    { s with
      store := s.store.upsert (rebuildProfile svc a evidences now)
      basis := Dict.set s.basis a evidences } p none

inductive Event
  | map (p : ℕ)
  | append (p : ℕ)
  | list (p : ℕ)
  | write (p : ℕ)

/-- One step of one process. -/
inductive Step : Event → Adapters F → Adapters F → Prop
  | map {s : Adapters F} {p : ℕ} (request : EvidenceIngestRequest) (ids : ℕ → String) :
      s.inFlight p = none →
      Step (.map p) s (s.map p request.attackerKey (requestEvidence svc ids request))
  | append {s : Adapters F} {p : ℕ} {a : String} {evidences : List TechniqueEvidence} :
      s.inFlight p = some ⟨a, .mapped evidences⟩ →
      Step (.append p) s (s.append p a evidences)
  | list {s : Adapters F} {p : ℕ} {a : String} :
      s.inFlight p = some ⟨a, .appended⟩ →
      Step (.list p) s (s.list p a)
  | write {s : Adapters F} {p : ℕ} {a : String} {evidences : List TechniqueEvidence} (now : Int) :
      s.inFlight p = some ⟨a, .listed evidences⟩ →
      Step (.write p) s (s.write svc p a evidences now)

/-- **The write of process `p` is up to date**: the list it read is no shorter than the one the
stored profile was computed from. -/
def Current (s : Adapters F) (p : ℕ) : Prop :=
  ∀ a evidences earlier, s.inFlight p = some ⟨a, .listed evidences⟩ →
    s.basis.get? a = some earlier → earlier.length ≤ evidences.length

/-- A step of any process. -/
def AnyStep (s t : Adapters F) : Prop := ∃ e, Step svc e s t

/-- A step whose write, if it is one, is up to date. -/
def CurrentStep (s t : Adapters F) : Prop := ∃ e, Step svc e s t ∧ ∀ p, e = .write p → Current s p

/-- An attacker with evidence, for whom no call is running, has the profile of all of it. -/
def Converged (s : Adapters F) : Prop :=
  ∀ a, (∀ p call, s.inFlight p = some call → call.attackerKey ≠ a) →
    s.store.listByAttacker a ≠ [] →
    ∀ now, s.store.profiles.get? a = some (rebuildProfile svc a (s.store.listByAttacker a) now)

/-! ### What the running calls know -/

/-- A call is still to write the profile of all evidence. -/
def Due (s : Adapters F) (a : String) : Prop :=
  ∃ p call, s.inFlight p = some call ∧ call.attackerKey = a ∧
    (call.phase = .appended ∨ call.phase = .listed (s.store.listByAttacker a))

/-- What a call has listed, and what a stored profile was computed from, was all evidence at the
time; the profile of what came since is due. -/
structure Traced (s : Adapters F) : Prop where
  listed : ∀ p a evidences, s.inFlight p = some ⟨a, .listed evidences⟩ →
    evidences <+: s.store.listByAttacker a
  basis : ∀ a evidences, s.basis.get? a = some evidences → evidences <+: s.store.listByAttacker a
  profile : ∀ a evidences, s.basis.get? a = some evidences → evidences ≠ [] →
    ∀ now, s.store.profiles.get? a = some (rebuildProfile svc a evidences now)
  latest : ∀ a, s.store.listByAttacker a ≠ [] →
    s.basis.get? a = some (s.store.listByAttacker a) ∨ Due s a

variable {svc}

theorem inFlight_setCall (s : Adapters F) (p p' : ℕ) (call : Option IngestCall) :
    (s.setCall p call).inFlight p' = if p' = p then call else s.inFlight p' :=
  Function.update_apply _ _ _ _

theorem inFlight_map (s : Adapters F) (p p' : ℕ) (a : String) (evidences : List TechniqueEvidence) :
    (s.map p a evidences).inFlight p' =
      if p' = p then some ⟨a, .mapped evidences⟩ else s.inFlight p' :=
  inFlight_setCall _ _ _ _

theorem inFlight_append (s : Adapters F) (p p' : ℕ) (a : String)
    (evidences : List TechniqueEvidence) :
    (s.append p a evidences).inFlight p' =
      if p' = p then some ⟨a, .appended⟩ else s.inFlight p' :=
  inFlight_setCall _ _ _ _

theorem inFlight_list (s : Adapters F) (p p' : ℕ) (a : String) :
    (s.list p a).inFlight p' =
      if p' = p then some ⟨a, .listed (s.store.listByAttacker a)⟩ else s.inFlight p' :=
  inFlight_setCall _ _ _ _

theorem inFlight_write (s : Adapters F) (p p' : ℕ) (a : String)
    (evidences : List TechniqueEvidence) (now : Int) :
    (s.write svc p a evidences now).inFlight p' = if p' = p then none else s.inFlight p' :=
  inFlight_setCall _ _ _ _

/-- Where one call changes, another list was read by another process. -/
theorem listed_setCall {s : Adapters F} {p p' : ℕ} {call : Option IngestCall} {a : String}
    {evidences : List TechniqueEvidence}
    (h : (s.setCall p call).inFlight p' = some ⟨a, .listed evidences⟩) :
    call = some ⟨a, .listed evidences⟩ ∨ s.inFlight p' = some ⟨a, .listed evidences⟩ := by
  rw [inFlight_setCall] at h
  by_cases hp : p' = p
  · rw [if_pos hp] at h
    exact Or.inl h
  · rw [if_neg hp] at h
    exact Or.inr h

/-- What is due stays due while the calls it is due from go on. -/
theorem due_of_calls {s t : Adapters F} {a : String} (h : Due s a)
    (hlist : t.store.listByAttacker a = s.store.listByAttacker a)
    (hcalls : ∀ p call, s.inFlight p = some call → call.attackerKey = a →
      (call.phase = .appended ∨ call.phase = .listed (s.store.listByAttacker a)) →
      t.inFlight p = some call) : Due t a := by
  obtain ⟨p, call, hcall, ha, hphase⟩ := h
  exact ⟨p, call, hcalls p call hcall ha hphase, ha, by rwa [hlist]⟩

/-- A call of one attacker takes nothing from what is due to another one. -/
theorem due_setCall_of_ne {s : Adapters F} {p : ℕ} {old : IngestCall} {call : Option IngestCall}
    {a : String} (h : Due s a) (hold : s.inFlight p = some old) (hne : a ≠ old.attackerKey) :
    Due (s.setCall p call) a := by
  refine due_of_calls h rfl ?_
  intro p' call' hcall ha _
  have hp : p' ≠ p := by
    rintro rfl
    obtain rfl := Option.some.inj (hold.symm.trans hcall)
    exact hne ha.symm
  rw [inFlight_setCall, if_neg hp, hcall]

theorem traced_start {store : ProfilerStore F} (h : Converged svc (Adapters.start store)) :
    Traced svc (Adapters.start store) := by
  have hlist : ∀ a evidences, store.evidence.get? a = some evidences →
      store.listByAttacker a = evidences := by
    intro a evidences ha
    have hlookup : store.evidence.lookup a = some evidences := ha
    rw [ProfilerStore.listByAttacker, Dict.getD, hlookup, Option.getD_some]
  refine ⟨?_, ?_, ?_, ?_⟩
  · intro p a evidences hp
    exact absurd hp (by simp [Adapters.start])
  · intro a evidences ha
    exact (hlist a evidences ha) ▸ List.prefix_refl _
  · intro a evidences ha hne
    have hidle : ∀ p call, (Adapters.start store).inFlight p = some call → call.attackerKey ≠ a :=
      fun p call hp => absurd hp (by simp [Adapters.start])
    have hprofile := h a hidle
    rw [Adapters.start, hlist a evidences ha] at hprofile
    exact hprofile hne
  · intro a hne
    left
    rcases Option.eq_none_or_eq_some (store.evidence.lookup a) with hnone | ⟨evidences, hsome⟩
    · refine absurd ?_ hne
      rw [Adapters.start, ProfilerStore.listByAttacker, Dict.getD, hnone, Option.getD_none]
    · exact hsome.trans (congrArg some (hlist a evidences hsome).symm)

/-! ### What a step keeps -/

theorem traced_map {s : Adapters F} (hs : Traced svc s) {p : ℕ} (hp : s.inFlight p = none)
    (a : String) (evidences : List TechniqueEvidence) :
    Traced svc (s.map p a evidences) := by
  refine ⟨?_, hs.basis, hs.profile, ?_⟩
  · intro p' b listed hcall
    rcases listed_setCall hcall with hmapped | hcall
    · exact absurd hmapped (by simp)
    · exact hs.listed p' b listed hcall
  · intro b hne
    rcases hs.latest b hne with hbasis | hdue
    · exact Or.inl hbasis
    · refine Or.inr (due_of_calls hdue rfl ?_)
      intro p' call hcall _ _
      have hp' : p' ≠ p := by
        rintro rfl
        exact absurd (hp.symm.trans hcall) (by simp)
      rw [inFlight_map, if_neg hp', hcall]

theorem traced_append {s : Adapters F} (hs : Traced svc s) {p : ℕ} {a : String}
    {added : List TechniqueEvidence} (hp : s.inFlight p = some ⟨a, .mapped added⟩) :
    Traced svc (s.append p a added) := by
  have hgrows : ∀ b, s.store.listByAttacker b <+: (s.store.addMany a added).listByAttacker b :=
    fun b => listByAttacker_prefix_addMany s.store a b added
  refine ⟨?_, fun b listed hb => (hs.basis b listed hb).trans (hgrows b), hs.profile, ?_⟩
  · intro p' b listed hcall
    rcases listed_setCall hcall with happended | hcall
    · exact absurd happended (by simp)
    · exact (hs.listed p' b listed hcall).trans (hgrows b)
  · intro b hne
    by_cases hab : b = a
    · -- the call itself is to write the profile of what it has added
      exact Or.inr ⟨p, _, by rw [inFlight_append, if_pos rfl], hab.symm, Or.inl rfl⟩
    · have hlist : (s.store.addMany a added).listByAttacker b = s.store.listByAttacker b :=
        listByAttacker_addMany_of_ne s.store hab added
      rcases hs.latest b (hlist ▸ hne) with hbasis | hdue
      · exact Or.inl (hbasis.trans (congrArg some hlist.symm))
      · have hstored : Due { s with store := s.store.addMany a added } b :=
          due_of_calls hdue hlist fun _ _ hcall _ _ => hcall
        exact Or.inr (due_setCall_of_ne hstored hp hab)

theorem traced_list {s : Adapters F} (hs : Traced svc s) {p : ℕ} {a : String}
    (hp : s.inFlight p = some ⟨a, .appended⟩) :
    Traced svc (s.list p a) := by
  refine ⟨?_, hs.basis, hs.profile, ?_⟩
  · intro p' b listed hcall
    rcases listed_setCall hcall with hlisted | hcall
    · obtain ⟨rfl, rfl⟩ : a = b ∧ s.store.listByAttacker a = listed := by
        simpa using hlisted
      exact List.prefix_refl _
    · exact hs.listed p' b listed hcall
  · intro b hne
    by_cases hab : b = a
    · exact Or.inr ⟨p, _, by rw [inFlight_list, if_pos rfl], hab.symm, Or.inr (by rw [hab]; rfl)⟩
    · rcases hs.latest b hne with hbasis | hdue
      · exact Or.inl hbasis
      · exact Or.inr (due_setCall_of_ne hdue hp hab)

/-- An up-to-date write of an attacker whose latest profile is not due from another call is of all
evidence. -/
theorem latest_of_write {s : Adapters F} (hs : Traced svc s) {p : ℕ} {a : String}
    {listed : List TechniqueEvidence} (hp : s.inFlight p = some ⟨a, .listed listed⟩)
    (hcurrent : Current s p) (hne : s.store.listByAttacker a ≠ []) :
    listed = s.store.listByAttacker a ∨ ∃ p' call, p' ≠ p ∧ s.inFlight p' = some call ∧
      call.attackerKey = a ∧
        (call.phase = .appended ∨ call.phase = .listed (s.store.listByAttacker a)) := by
  rcases hs.latest a hne with hbasis | ⟨p', call, hcall, ha, hphase⟩
  · left
    have hprefix := hs.listed p a listed hp
    exact hprefix.eq_of_length_le (hcurrent a listed _ hp hbasis)
  · by_cases hpp : p' = p
    · left
      obtain rfl := Option.some.inj (hcall.symm.trans (hpp ▸ hp))
      simpa using hphase
    · exact Or.inr ⟨p', call, hpp, hcall, ha, hphase⟩

theorem traced_write {s : Adapters F} (hs : Traced svc s) {p : ℕ} {a : String}
    {listed : List TechniqueEvidence} (hp : s.inFlight p = some ⟨a, .listed listed⟩)
    (hcurrent : Current s p) (now : Int) :
    Traced svc (s.write svc p a listed now) := by
  have hbasis : ∀ b, (s.write svc p a listed now).basis.get? b =
      if b = a then some listed else s.basis.get? b := fun b => lookup_set _ _ _ _
  have hprofile : ∀ b, (s.write svc p a listed now).store.profiles.get? b =
      if b = a then some (rebuildProfile svc a listed now) else s.store.profiles.get? b := by
    intro b
    have hset := lookup_set s.store.profiles (rebuildProfile svc a listed now).attackerKey b
      (rebuildProfile svc a listed now)
    exact hset.trans (by rw [rebuildProfile_attackerKey])
  refine ⟨?_, ?_, ?_, ?_⟩
  · intro p' b listed' hcall
    rcases listed_setCall hcall with hnone | hcall
    · exact absurd hnone (by simp)
    · exact hs.listed p' b listed' hcall
  · intro b listed' hb
    rw [hbasis] at hb
    by_cases hab : b = a
    · rw [if_pos hab] at hb
      obtain rfl := Option.some.inj hb
      exact hs.listed p b listed (hab ▸ hp)
    · rw [if_neg hab] at hb
      exact hs.basis b listed' hb
  · intro b listed' hb hne now'
    rw [hbasis] at hb
    rw [hprofile]
    by_cases hab : b = a
    · rw [if_pos hab] at hb ⊢
      obtain rfl := Option.some.inj hb
      rw [hab, rebuildProfile_now hne a now now']
    · rw [if_neg hab] at hb ⊢
      exact hs.profile b listed' hb hne now'
  · intro b hne
    rw [hbasis]
    by_cases hab : b = a
    · subst hab
      rw [if_pos rfl]
      rcases latest_of_write hs hp hcurrent hne with hall | ⟨p', call, hpp, hcall, ha, hphase⟩
      · exact Or.inl (congrArg some hall)
      · exact Or.inr ⟨p', call, by rw [inFlight_write, if_neg hpp]; exact hcall, ha, hphase⟩
    · rw [if_neg hab]
      rcases hs.latest b hne with hlatest | hdue
      · exact Or.inl hlatest
      · have hcalls : Due (s.setCall p none) b := due_setCall_of_ne hdue hp hab
        exact Or.inr (due_of_calls hcalls rfl fun _ _ hcall _ _ => hcall)

theorem traced_step {s t : Adapters F} (h : CurrentStep svc s t) (hs : Traced svc s) :
    Traced svc t := by
  obtain ⟨e, hstep, hcurrent⟩ := h
  cases hstep with
  | map request ids hp => exact traced_map hs hp _ _
  | append hp => exact traced_append hs hp
  | list hp => exact traced_list hs hp
  | write now hp => exact traced_write hs hp (hcurrent _ rfl) now

/-! ### Converging -/

theorem converged_of_traced {s : Adapters F} (hs : Traced svc s) : Converged svc s := by
  intro a hidle hne now
  rcases hs.latest a hne with hbasis | ⟨p, call, hcall, ha, -⟩
  · exact hs.profile a _ hbasis hne now
  · exact absurd ha (hidle p call hcall)

/-- A call that runs alone is `ingest`. -/
theorem ingest_of_run {s : Adapters F} (hs : Traced svc s) {p : ℕ} (hp : s.inFlight p = none)
    (request : EvidenceIngestRequest) (ids : ℕ → String) (now : Int) :
    ∃ t, ReflTransGen (CurrentStep svc) s t ∧ t.store = ingest svc s.store ids request now ∧
      t.inFlight = s.inFlight := by
  let added := requestEvidence svc ids request
  let mapped := s.map p request.attackerKey added
  let appended := mapped.append p request.attackerKey added
  let listed := appended.list p request.attackerKey
  have hmapped : mapped.inFlight p = some ⟨request.attackerKey, .mapped added⟩ := by
    rw [inFlight_map, if_pos rfl]
  have happended : appended.inFlight p = some ⟨request.attackerKey, .appended⟩ := by
    rw [inFlight_append, if_pos rfl]
  have hlisted : listed.inFlight p = some ⟨request.attackerKey,
      .listed (appended.store.listByAttacker request.attackerKey)⟩ := by
    rw [inFlight_list, if_pos rfl]
  have hmap : CurrentStep svc s mapped := ⟨_, Step.map request ids hp, fun _ he => nomatch he⟩
  have happend : CurrentStep svc mapped appended :=
    ⟨_, Step.append hmapped, fun _ he => nomatch he⟩
  have hlist : CurrentStep svc appended listed := ⟨_, Step.list happended, fun _ he => nomatch he⟩
  have htraced : Traced svc listed := traced_step hlist (traced_step happend (traced_step hmap hs))
  refine ⟨_, (((ReflTransGen.single hmap).tail happend).tail hlist).tail
    ⟨_, Step.write now hlisted, ?_⟩, rfl, ?_⟩
  · -- what it has listed is all evidence there is
    rintro p' he a evidences earlier hcall hearlier
    obtain rfl : p = p' := by simpa using he
    obtain ⟨rfl, rfl⟩ : request.attackerKey = a ∧ _ = evidences := by
      simpa using hlisted.symm.trans hcall
    exact (htraced.basis _ earlier hearlier).length_le
  · funext p'
    rw [inFlight_write]
    by_cases hpp : p' = p
    · rw [if_pos hpp, hpp, hp]
    · rw [if_neg hpp, inFlight_list, if_neg hpp, inFlight_append, if_neg hpp, inFlight_map,
        if_neg hpp]

/-- **Along a run whose writes are all up to date, the stored profiles are of all evidence once no
call is running.** -/
theorem converged_of_run {store : ProfilerStore F} {t : Adapters F}
    (hstore : Converged svc (Adapters.start store))
    (h : ReflTransGen (CurrentStep svc) (Adapters.start store) t) : Converged svc t :=
  converged_of_traced (Transition.invariant_of_step (P := Traced svc)
    (fun _ _ hstep hs => traced_step hstep hs) h (traced_start hstore))

end Steps

/-! ### Two calls -/

/-- A port scan by an attacker. -/
def scanRequest : EvidenceIngestRequest :=
  ⟨"198.51.100.7", "b-1", ⟨.utc 100000000, "Port scan", "low", "", none, ["T1046"], []⟩⟩

theorem start_converged : Converged sampleProfiler (Adapters.start {}) :=
  fun _ _ hne => absurd rfl hne

theorem scan_converged : ∃ t, ReflTransGen (CurrentStep sampleProfiler) (Adapters.start {}) t ∧
    t.store = ingest sampleProfiler {} (fun _ => "e-1") scanRequest 0 ∧
      Converged sampleProfiler t := by
  obtain ⟨t, hrun, hstore, -⟩ := ingest_of_run (traced_start start_converged) (p := 0) rfl
    scanRequest (fun _ => "e-1") 0
  exact ⟨t, hrun, hstore, converged_of_run start_converged hrun⟩

def firstScan : List TechniqueEvidence :=
  requestEvidence sampleProfiler (fun _ => "e-1") scanRequest

def secondScan : List TechniqueEvidence :=
  requestEvidence sampleProfiler (fun _ => "e-2") scanRequest

/-- Both calls have mapped their events. -/
def bothMapped : Adapters ℕ :=
  ((Adapters.start {}).map 0 "198.51.100.7" firstScan).map 1 "198.51.100.7" secondScan

/-- The first call has listed its evidence. -/
def firstListed : Adapters ℕ :=
  (bothMapped.append 0 "198.51.100.7" firstScan).list 0 "198.51.100.7"

/-- The second call has written its profile. -/
def overtaken : Adapters ℕ :=
  ((firstListed.append 1 "198.51.100.7" secondScan).list 1 "198.51.100.7").write sampleProfiler 1
    "198.51.100.7" (firstScan ++ secondScan) 0

theorem firstListed_reached :
    ReflTransGen (AnyStep sampleProfiler) (Adapters.start {}) firstListed := by
  have hfirst : AnyStep sampleProfiler (Adapters.start {})
      ((Adapters.start {}).map 0 "198.51.100.7" firstScan) :=
    ⟨_, Step.map scanRequest (fun _ => "e-1") rfl⟩
  have hsecond : AnyStep sampleProfiler ((Adapters.start {}).map 0 "198.51.100.7" firstScan)
      bothMapped :=
    ⟨_, Step.map scanRequest (fun _ => "e-2") rfl⟩
  have happend : AnyStep sampleProfiler bothMapped
      (bothMapped.append 0 "198.51.100.7" firstScan) :=
    ⟨_, Step.append rfl⟩
  have hlist : AnyStep sampleProfiler (bothMapped.append 0 "198.51.100.7" firstScan)
      firstListed :=
    ⟨_, Step.list rfl⟩
  exact (((ReflTransGen.single hfirst).tail hsecond).tail happend).tail hlist

theorem overtaken_reached :
    ReflTransGen (AnyStep sampleProfiler) (Adapters.start {}) overtaken := by
  have happend : AnyStep sampleProfiler firstListed
      (firstListed.append 1 "198.51.100.7" secondScan) :=
    ⟨_, Step.append rfl⟩
  have hlist : AnyStep sampleProfiler (firstListed.append 1 "198.51.100.7" secondScan)
      ((firstListed.append 1 "198.51.100.7" secondScan).list 1 "198.51.100.7") :=
    ⟨_, Step.list rfl⟩
  have hwrite : AnyStep sampleProfiler
      ((firstListed.append 1 "198.51.100.7" secondScan).list 1 "198.51.100.7") overtaken :=
    ⟨_, Step.write 0 rfl⟩
  exact ((firstListed_reached.tail happend).tail hlist).tail hwrite

/-- The second scan is stored, and the profile names the first one only. -/
theorem older_list_written_last : ¬ ∀ store t, Converged sampleProfiler (Adapters.start store) →
    ReflTransGen (AnyStep sampleProfiler) (Adapters.start store) t →
    Converged sampleProfiler t := by
  intro h
  let last := overtaken.write sampleProfiler 0 "198.51.100.7" firstScan 0
  have hwrite : AnyStep sampleProfiler overtaken last := ⟨_, Step.write 0 rfl⟩
  have hidle : ∀ p call, last.inFlight p = some call → call.attackerKey ≠ "198.51.100.7" := by
    intro p call hcall
    simp +contextual [last, overtaken, firstListed, bothMapped, inFlight_write, inFlight_list,
      inFlight_append, inFlight_map, Adapters.start] at hcall
  have hnames : (last.store.profiles.get? "198.51.100.7").map ProfileSnapshot.recentEvidenceIds =
      some ["e-1"] := by
    decide +kernel
  have hlast := h {} last start_converged (overtaken_reached.tail hwrite) "198.51.100.7" hidle
    (by decide +kernel) 0
  rw [hlast, Option.map_some] at hnames
  exact absurd hnames (by decide +kernel)

end Honeynet.Profiler
