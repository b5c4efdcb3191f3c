import Honeynet.Binding.Service
import Honeynet.Lib.Transition
import Mathlib.Logic.Function.Basic

/-!
# Binding operations of several processes

Any number of processes run binding operations against one `bindings.json`.  A
repository call is atomic under the file lock, but an operation is two of them:
it reads a record and later upserts a whole record computed from what it read.

* `Step` is one such repository call of one process.
* `Current` says that an upsert loses nothing: what the stored record of the
  binding holds was already in the record the process read, or is added by the
  process itself.
* `holds_of_run`: along runs whose upserts are all `Current`, the promise of an
  operation that has returned is never broken.
* `noLostUnlock_of_current`: so no unlock and no reveal is lost on such runs.
* `lost_unlock`: a heartbeat that read before an unlock and wrote after it loses it.
-/

namespace Honeynet.Binding

open Collections Relation

/-- An operation between its read step and its upsert step. -/
structure Pending where
  call : Call
  op : BindingOp
  existing : Option BindingRecord

/-- The record the upsert step will write. -/
def Pending.record (q : Pending) : Except PyError BindingRecord := q.op.write q.call q.existing

/-- The shared file and what each process is in the middle of. -/
structure Shared where
  records : List BindingRecord
  inFlight : ℕ → Option Pending

/-- An id no stored record and no running operation has: what `uuid4()` returns. -/
def Shared.Unused (s : Shared) (uuid : String) : Prop :=
  uuid ∉ s.records.map BindingRecord.bindingId ∧
    ∀ p q, s.inFlight p = some q → q.call.uuid ≠ uuid

inductive Event
  | read (p : ℕ)
  | upsert (p : ℕ)
  | raised (p : ℕ)

/-- Process `p` has read and will upsert. -/
def Shared.begin (s : Shared) (p : ℕ) (q : Pending) : Shared :=
  { s with inFlight := Function.update s.inFlight p (some q) }

/-- Process `p` has returned, leaving `records` behind. -/
def Shared.finish (s : Shared) (p : ℕ) (records : List BindingRecord) : Shared :=
  { records := records, inFlight := Function.update s.inFlight p none }

/-- One atomic step of one process. -/
inductive Step : Event → Shared → Shared → Prop
  | read {s : Shared} {p : ℕ} (c : Call) (op : BindingOp) :
      s.inFlight p = none → s.Unused c.uuid →
      Step (.read p) s (s.begin p ⟨c, op, op.read s.records⟩)
  | upsert {s : Shared} {p : ℕ} {q : Pending} {w : BindingRecord} :
      s.inFlight p = some q → q.record = .ok w →
      Step (.upsert p) s (s.finish p (Binding.upsert w s.records))
  | raised {s : Shared} {p : ℕ} {q : Pending} {e : PyError} :
      s.inFlight p = some q → q.record = .error e →
      Step (.raised p) s (s.finish p s.records)

theorem inFlight_begin {s : Shared} {p p' : ℕ} {q q' : Pending}
    (h : (s.begin p q).inFlight p' = some q') :
    (p' = p ∧ q' = q) ∨ (p' ≠ p ∧ s.inFlight p' = some q') := by
  rw [Shared.begin] at h
  by_cases hp : p' = p
  · subst hp
    exact Or.inl ⟨rfl, by simpa [eq_comm] using h⟩
  · exact Or.inr ⟨hp, by simpa [hp] using h⟩

theorem inFlight_finish {s : Shared} {p p' : ℕ} {q' : Pending} {records : List BindingRecord}
    (h : (s.finish p records).inFlight p' = some q') : p' ≠ p ∧ s.inFlight p' = some q' := by
  rw [Shared.finish] at h
  by_cases hp : p' = p
  · subst hp
    exact absurd h (by simp)
  · exact ⟨hp, by simpa [hp] using h⟩

/-- No operation is running. -/
def Shared.Idle (s : Shared) : Prop := ∀ p, s.inFlight p = none

/-- The stored record of `b` holds everything `op` adds. -/
def Holds (op : BindingOp) (b : String) (s : Shared) : Prop :=
  ∃ r, getByBinding s.records b = some r ∧ (∀ a ∈ op.ownAssets, a ∈ r.unlockedAssets) ∧
    ∀ x, ∀ d ∈ op.ownConfigurations x, d ∈ r.revealedFor x

/-- **The upsert of process `p` is up to date**: whatever the stored record of its binding
holds was in the record it read, or is added by its own operation. -/
def Current (s : Shared) (p : ℕ) : Prop :=
  ∀ q r cur, s.inFlight p = some q → q.existing = some r →
    getByBinding s.records r.bindingId = some cur →
    (∀ a ∈ cur.unlockedAssets, a ∈ r.unlockedAssets ∨ a ∈ q.op.ownAssets) ∧
      ∀ x, ∀ d ∈ cur.revealedFor x, d ∈ r.revealedFor x ∨ d ∈ q.op.ownConfigurations x

/-- A step of any process. -/
def AnyStep (s t : Shared) : Prop := ∃ e, Step e s t

/-- A step whose upsert, if it is one, is up to date. -/
def CurrentStep (s t : Shared) : Prop := ∃ e, Step e s t ∧ ∀ p, e = .upsert p → Current s p

/-! ### Fresh ids stay unused until they are written -/

/-- What is known of the running operations: no stored record has the id one of them drew, no
two drew the same, and what one read is of the binding it named. -/
structure Tracked (s : Shared) : Prop where
  unstored : ∀ p q, s.inFlight p = some q → q.call.uuid ∉ s.records.map BindingRecord.bindingId
  distinct : ∀ p p' q q', s.inFlight p = some q → s.inFlight p' = some q' → p ≠ p' →
    q.call.uuid ≠ q'.call.uuid
  /-- The binding an operation read is still stored, and is the one it named. -/
  stored : ∀ p q r, s.inFlight p = some q → q.existing = some r →
    r.bindingId ∈ s.records.map BindingRecord.bindingId ∧
      ∀ b, q.op.target = some b → r.bindingId = b

theorem tracked_of_idle {s : Shared} (h : s.Idle) : Tracked s := by
  refine ⟨?_, ?_, ?_⟩
  · intro p q hq; rw [h p] at hq; exact absurd hq (by simp)
  · intro p _ q _ hq; rw [h p] at hq; exact absurd hq (by simp)
  · intro p q _ hq; rw [h p] at hq; exact absurd hq (by simp)

theorem tracked_step {e : Event} {s t : Shared} (h : Step e s t) (hs : Tracked s) :
    Tracked t := by
  cases h with
  | @read s p c op hp hc =>
    refine ⟨?_, ?_, ?_⟩
    · intro p' q hq
      rcases inFlight_begin hq with ⟨_, rfl⟩ | ⟨_, hq⟩
      · exact hc.1
      · exact hs.unstored p' q hq
    · intro p₁ p₂ q₁ q₂ h₁ h₂ hne
      rcases inFlight_begin h₁ with ⟨rfl, rfl⟩ | ⟨_, h₁⟩
      · rcases inFlight_begin h₂ with ⟨rfl, _⟩ | ⟨_, h₂⟩
        · exact absurd rfl hne
        · exact fun he => hc.2 p₂ q₂ h₂ he.symm
      · rcases inFlight_begin h₂ with ⟨_, rfl⟩ | ⟨_, h₂⟩
        · exact hc.2 p₁ q₁ h₁
        · exact hs.distinct p₁ p₂ q₁ q₂ h₁ h₂ hne
    · intro p' q r hq hr
      rcases inFlight_begin hq with ⟨_, rfl⟩ | ⟨_, hq⟩
      · exact ⟨mem_ids_of_get (BindingOp.read_spec hr).1, (BindingOp.read_spec hr).2⟩
      · exact hs.stored p' q r hq hr
  | @upsert s p q w hq hw =>
    refine ⟨?_, ?_, ?_⟩
    · intro p' q' hq'
      obtain ⟨hne, hq'⟩ := inFlight_finish hq'
      rw [Shared.finish, mem_ids_upsert]
      rintro (hm | he)
      · exact hs.unstored p' q' hq' hm
      · rcases BindingOp.write_keeps hw with ha | ⟨r, hr, hx⟩
        · rw [ha.bindingId] at he
          exact hs.distinct p' p q' q hq' hq hne he
        · rw [hx.bindingId] at he
          exact hs.unstored p' q' hq' (he ▸ (hs.stored p q r hq hr).1)
    · intro p₁ p₂ q₁ q₂ h₁ h₂ hne
      exact hs.distinct p₁ p₂ q₁ q₂ (inFlight_finish h₁).2 (inFlight_finish h₂).2 hne
    · intro p' q' r hq' hr
      obtain ⟨hm, hb⟩ := hs.stored p' q' r (inFlight_finish hq').2 hr
      exact ⟨mem_ids_upsert.mpr (Or.inl hm), hb⟩
  | @raised s p q e hq he =>
    refine ⟨?_, ?_, ?_⟩
    · intro p' q' hq'
      exact hs.unstored p' q' (inFlight_finish hq').2
    · intro p₁ p₂ q₁ q₂ h₁ h₂ hne
      exact hs.distinct p₁ p₂ q₁ q₂ (inFlight_finish h₁).2 (inFlight_finish h₂).2 hne
    · intro p' q' r hq' hr
      exact hs.stored p' q' r (inFlight_finish hq').2 hr

/-! ### A returned operation keeps its promise -/

/-- An up-to-date upsert breaks no promise. -/
theorem holds_step {op : BindingOp} {b : String} {s t : Shared} (h : CurrentStep s t)
    (hs : Tracked s) (hb : Holds op b s) : Holds op b t := by
  obtain ⟨e, hstep, hcur⟩ := h
  cases hstep with
  | read c op' hp hc => exact hb
  | @upsert s p q w hq hw =>
    obtain ⟨cur, hget, hassets, hconfigs⟩ := hb
    by_cases hbw : b = w.bindingId
    · subst hbw
      refine ⟨w, getByBinding_upsert_self w s.records, ?_⟩
      rcases BindingOp.write_keeps hw with ha | ⟨r, hr, hx⟩
      · -- a freshly drawn id is not stored yet
        rw [ha.bindingId] at hget
        exact absurd (mem_ids_of_get hget) (hs.unstored p q hq)
      · rw [hx.bindingId] at hget
        obtain ⟨hA, hC⟩ := hcur p rfl q r cur hq hr hget
        exact ⟨fun a ha => hx.unlocked a (hA a (hassets a ha)),
          fun x d hd => hx.revealed x d (hC x d (hconfigs x d hd))⟩
    · exact ⟨cur, (getByBinding_upsert_ne w s.records hbw).trans hget, hassets, hconfigs⟩
  | raised hq he => exact hb

/-- An operation that returns has kept its promise. -/
theorem holds_of_upsert {s t : Shared} {p : ℕ} {q : Pending} {b : String}
    (h : Step (.upsert p) s t) (hs : Tracked s) (hq : s.inFlight p = some q)
    (hb : q.op.target = some b) : Holds q.op b t := by
  cases h with
  | @upsert s p q' w hq' hw =>
    obtain rfl := Option.some.inj (hq.symm.trans hq')
    have hnew : getByBinding (s.finish p (upsert w s.records)).records w.bindingId = some w :=
      getByBinding_upsert_self w s.records
    rcases BindingOp.write_keeps hw with ha | ⟨r, hr, hx⟩
    · cases hop : q.op with
      | resolve a => rw [hop] at hb; exact absurd hb (by simp [BindingOp.target])
      | heartbeat b' ts => exact absurd ha.op (by simp [hop])
      | recycle b' mode => exact absurd ha.op (by simp [hop])
      | unlockAssets b' assets => exact absurd ha.op (by simp [hop])
      | revealConfigurations b' configs => exact absurd ha.op (by simp [hop])
    · refine ⟨w, ?_, fun a ha => hx.unlocked a (Or.inr ha),
        fun x d hd => hx.revealed x d (Or.inr hd)⟩
      rw [← (hs.stored p q r hq hr).2 b hb, ← hx.bindingId]
      exact hnew

theorem holds_of_run {op : BindingOp} {b : String} {s t : Shared}
    (h : ReflTransGen CurrentStep s t) (hs : Tracked s) (hb : Holds op b s) : Holds op b t := by
  have hpair : Tracked t ∧ Holds op b t :=
    Transition.invariant_of_step (P := fun u => Tracked u ∧ Holds op b u)
      (fun u v huv hu => ⟨tracked_step huv.choose_spec.1 hu.1, holds_step huv hu.1 hu.2⟩)
      h ⟨hs, hb⟩
  exact hpair.2

/-! ### No lost unlock -/

/-- The stored record of the binding contains what an unlock or a reveal adds. -/
def Recorded (op : BindingOp) (records : List BindingRecord) : Prop :=
  (∀ b assets, op = .unlockAssets b assets →
    ∃ r, getByBinding records b = some r ∧ ∀ a ∈ assets, a ∈ r.unlockedAssets) ∧
  (∀ b configs, op = .revealConfigurations b configs →
    ∃ r, getByBinding records b = some r ∧
      ∀ e ∈ configs, ∀ d ∈ e.2, d ∈ r.revealedFor e.1)

/-- Once an unlock or a reveal has returned, every later stored record of its binding contains
what it added, on every run of `step` from a file no operation is in the middle of. -/
def NoLostUnlock (step : Shared → Shared → Prop) : Prop :=
  ∀ (s₀ s₁ s₂ s₃ : Shared) (p : ℕ) (q : Pending), s₀.Idle → ReflTransGen step s₀ s₁ →
    s₁.inFlight p = some q → Step (.upsert p) s₁ s₂ → ReflTransGen step s₂ s₃ →
    Recorded q.op s₃.records

/-- **No unlock and no reveal is lost on a run whose upserts are all up to date.** -/
theorem noLostUnlock_of_current {s₀ s₁ s₂ s₃ : Shared} {p : ℕ} {q : Pending} (hidle : s₀.Idle)
    (h₀₁ : ReflTransGen CurrentStep s₀ s₁) (hq : s₁.inFlight p = some q)
    (hret : Step (.upsert p) s₁ s₂) (h₂₃ : ReflTransGen CurrentStep s₂ s₃) :
    Recorded q.op s₃.records := by
  have hs₁ : Tracked s₁ := Transition.invariant_of_step (P := Tracked)
    (fun s t hst hs => tracked_step hst.choose_spec.1 hs) h₀₁ (tracked_of_idle hidle)
  have hkept : ∀ b, q.op.target = some b → Holds q.op b s₃ := fun b hb =>
    holds_of_run h₂₃ (tracked_step hret hs₁) (holds_of_upsert hret hs₁ hq hb)
  constructor
  · intro b assets hop
    obtain ⟨r, hget, hassets, _⟩ := hkept b (by rw [hop]; rfl)
    exact ⟨r, hget, fun a ha => hassets a (by rw [hop]; exact ha)⟩
  · intro b configs hop
    obtain ⟨r, hget, _, hconfigs⟩ := hkept b (by rw [hop]; rfl)
    refine ⟨r, hget, fun e he d hd => hconfigs e.1 d ?_⟩
    rw [hop, BindingOp.ownConfigurations, List.mem_flatMap]
    exact ⟨e, List.mem_filter.mpr ⟨he, by simp⟩, hd⟩

/-! ### The unlock that is lost

Process `1` reads the binding for a heartbeat.  Process `0` then runs a whole unlock, and
process `1` writes back the record it read before. -/

/-- A stored binding with nothing unlocked. -/
def bareBinding : BindingRecord :=
  ⟨"b-1", "198.51.100.7", "ns-b-1", .active, .utc 0, .utc 0, .utc 60, none, [], []⟩

def bareFile : Shared := ⟨[bareBinding], fun _ => none⟩

def unlockGit : Pending :=
  ⟨⟨60, 2, "u-0"⟩, .unlockAssets "b-1" ["git-internal"], some bareBinding⟩

def gitUnlocked : BindingRecord :=
  { bareBinding with lastSeenTs := .utc 2, unlockedAssets := ["git-internal"] }

/-- Alone, the unlock is kept. -/
theorem unlockGit_kept : ∃ r, getByBinding [gitUnlocked] "b-1" = some r ∧
    ∀ a ∈ ["git-internal"], a ∈ r.unlockedAssets := by
  have hread : CurrentStep bareFile (bareFile.begin 0 unlockGit) :=
    ⟨.read 0, Step.read (s := bareFile) (p := 0) unlockGit.call unlockGit.op rfl
      ⟨by decide, fun p q hq => by simp [bareFile] at hq⟩, fun p hp => by cases hp⟩
  have hwrite : Step (.upsert 0) (bareFile.begin 0 unlockGit)
      ((bareFile.begin 0 unlockGit).finish 0 [gitUnlocked]) :=
    Step.upsert (q := unlockGit) (w := gitUnlocked) rfl rfl
  have hidle : bareFile.Idle := fun _ => rfl
  exact (noLostUnlock_of_current hidle
    (ReflTransGen.single hread) rfl hwrite ReflTransGen.refl).1 "b-1" _ rfl

def beat : Pending := ⟨⟨60, 1, "u-1"⟩, .heartbeat "b-1" (.utc 1), some bareBinding⟩

def gitLost : BindingRecord :=
  { bareBinding with lastSeenTs := .utc 1, ttlExpiresAt := .utc 61 }

/-- The two operations have both read the bare binding. -/
def bothRead : Shared := (bareFile.begin 1 beat).begin 0 unlockGit

theorem bothRead_reached : ReflTransGen AnyStep bareFile bothRead := by
  have hbeat : Step (.read 1) bareFile (bareFile.begin 1 beat) :=
    Step.read (s := bareFile) (p := 1) beat.call beat.op rfl
      ⟨by decide, fun p q hq => by simp [bareFile] at hq⟩
  have hunlock : Step (.read 0) (bareFile.begin 1 beat) bothRead := by
    refine Step.read (p := 0) unlockGit.call unlockGit.op rfl ⟨by decide, fun p q hq => ?_⟩
    rcases inFlight_begin hq with ⟨_, rfl⟩ | ⟨_, hq⟩
    · decide
    · simp [bareFile] at hq
  exact (ReflTransGen.single ⟨_, hbeat⟩).tail ⟨_, hunlock⟩

theorem lost_unlock : ¬ NoLostUnlock AnyStep := by
  intro h
  have hret : Step (.upsert 0) bothRead (bothRead.finish 0 [gitUnlocked]) :=
    Step.upsert (q := unlockGit) (w := gitUnlocked) rfl rfl
  have hover : Step (.upsert 1) (bothRead.finish 0 [gitUnlocked])
      ((bothRead.finish 0 [gitUnlocked]).finish 1 [gitLost]) :=
    Step.upsert (q := beat) (w := gitLost) rfl rfl
  have hkept := h bareFile bothRead _ _ 0 unlockGit (fun _ => rfl) bothRead_reached rfl hret
    (ReflTransGen.single ⟨_, hover⟩)
  obtain ⟨r, hget, hmem⟩ := hkept.1 "b-1" ["git-internal"] rfl
  obtain rfl := Option.some.inj hget
  exact absurd (hmem "git-internal" (by simp)) (by decide)

end Honeynet.Binding
