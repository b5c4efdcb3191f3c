import Mathlib.Logic.Basic

/-!
# Computations with a state that can raise

`Effect σ ε α` reads and writes a `σ` and returns an `α` or raises an `ε`; a computation that
raises keeps what it has written.

* `exec`: a computation run from a state, with one equation for each way of building one.
* `Triple P x Q E`: started in a state with `P`, the computation ends in `Q` when it returns
  and in `E` when it raises.  One rule for each way of building a computation.
-/

/-- A computation over a state that can raise. -/
abbrev Effect (σ ε α : Type) : Type := ExceptT ε (StateM σ) α

namespace Effect

variable {σ ε α β : Type}

/-- What a computation gives from a state: its result, and the state it leaves behind. -/
def exec (x : Effect σ ε α) (s : σ) : Except ε α × σ := x s

@[simp] theorem exec_pure (a : α) (s : σ) : exec (pure a : Effect σ ε α) s = (.ok a, s) := rfl

@[simp] theorem exec_throw (e : ε) (s : σ) :
    exec (throw e : Effect σ ε α) s = (.error e, s) := rfl

@[simp] theorem exec_get (s : σ) : exec (get : Effect σ ε σ) s = (.ok s, s) := rfl

@[simp] theorem exec_modify (f : σ → σ) (s : σ) :
    exec (modify f : Effect σ ε PUnit) s = (.ok ⟨⟩, f s) := rfl

/-- A computation that does not touch the state. -/
def ofExcept : Except ε α → Effect σ ε α
  | .ok a => pure a
  | .error e => throw e

@[simp] theorem exec_ofExcept (x : Except ε α) (s : σ) :
    exec (ofExcept x : Effect σ ε α) s = (x, s) := by
  cases x <;> rfl

theorem exec_bind (x : Effect σ ε β) (f : β → Effect σ ε α) (s : σ) :
    exec (x >>= f) s = match exec x s with
      | (.ok b, t) => exec (f b) t
      | (.error e, t) => (.error e, t) := by
  simp only [exec, bind, ExceptT.bind, ExceptT.mk, StateT.bind]
  cases x s with
  | mk r t => cases r <;> rfl

/-- What two steps return, the second returns after the first. -/
theorem exec_bind_ok {x : Effect σ ε β} {f : β → Effect σ ε α} {s t : σ} {a : α}
    (h : exec (x >>= f) s = (.ok a, t)) :
    ∃ b u, exec x s = (.ok b, u) ∧ exec (f b) u = (.ok a, t) := by
  rw [exec_bind] at h
  cases hx : exec x s with
  | mk r u =>
    rw [hx] at h
    cases r with
    | ok b => exact ⟨b, u, rfl, h⟩
    | error e => cases h

/-- A computation on a part of the state. -/
def zoom {τ : Type} (part : τ → σ) (put : σ → τ → τ) (x : Effect σ ε α) : Effect τ ε α :=
  fun t => ((exec x (part t)).1, put (exec x (part t)).2 t)

@[simp] theorem exec_zoom {τ : Type} (part : τ → σ) (put : σ → τ → τ) (x : Effect σ ε α) (t : τ) :
    exec (zoom part put x) t = ((exec x (part t)).1, put (exec x (part t)).2 t) := rfl

theorem exec_tryCatch (x : Effect σ ε α) (f : ε → Effect σ ε α) (s : σ) :
    exec (tryCatch x f) s = match exec x s with
      | (.ok a, t) => (.ok a, t)
      | (.error e, t) => exec (f e) t := by
  simp only [exec, tryCatch, tryCatchThe, MonadExceptOf.tryCatch, ExceptT.tryCatch, ExceptT.mk,
    bind, StateT.bind]
  cases x s with
  | mk r t => cases r <;> rfl

/-- **Pre- and postconditions**, one for a result and one for an exception. -/
def Triple (P : σ → Prop) (x : Effect σ ε α) (Q : α → σ → Prop) (E : σ → Prop) : Prop :=
  ∀ s, P s → (∀ a t, exec x s = (.ok a, t) → Q a t) ∧ ∀ e t, exec x s = (.error e, t) → E t

namespace Triple

variable {P P' E E' : σ → Prop} {Q Q' : α → σ → Prop} {R : β → σ → Prop} {x : Effect σ ε α}

theorem of_exec_ok {a : α} {f : σ → σ} (hx : ∀ s, exec x s = (.ok a, f s))
    (h : ∀ s, P s → Q a (f s)) : Triple P x Q E := by
  intro s hs
  refine ⟨?_, fun e t ht => absurd ht (by simp [hx])⟩
  intro b t ht
  rw [hx, Prod.mk.injEq, Except.ok.injEq] at ht
  obtain ⟨rfl, rfl⟩ := ht
  exact h s hs

/-- A run that is known. -/
theorem of_exec {a : α} {s t : σ} (hx : exec x s = (.ok a, t)) (h : Q a t) :
    Triple (· = s) x Q E := by
  rintro _ rfl
  refine ⟨?_, fun e u hu => absurd hu (by simp [hx])⟩
  intro b u hu
  obtain ⟨hb, rfl⟩ := Prod.mk.inj (hx.symm.trans hu)
  exact Except.ok.inj hb ▸ h

theorem pure {a : α} (h : ∀ s, P s → Q a s) : Triple P (pure a : Effect σ ε α) Q E :=
  of_exec_ok (f := id) (fun _ => rfl) h

theorem modify {f : σ → σ} {Q : PUnit → σ → Prop} (h : ∀ s, P s → Q ⟨⟩ (f s)) :
    Triple P (modify f : Effect σ ε PUnit) Q E :=
  of_exec_ok (fun _ => rfl) h

theorem throw {e : ε} (h : ∀ s, P s → E s) : Triple P (throw e : Effect σ ε α) Q E := by
  intro s hs
  refine ⟨fun a t ht => absurd ht (by simp), ?_⟩
  intro e' t ht
  rw [exec_throw, Prod.mk.injEq] at ht
  exact ht.2 ▸ h s hs

theorem bind {x : Effect σ ε β} {f : β → Effect σ ε α} (hx : Triple P x R E)
    (hf : ∀ b, Triple (R b) (f b) Q E) : Triple P (x >>= f) Q E := by
  intro s hs
  rw [exec_bind]
  cases hr : exec x s with
  | mk r t =>
    cases r with
    | ok b => exact hf b t ((hx s hs).1 b t hr)
    | error e =>
      refine ⟨fun a u hu => absurd hu (by simp), ?_⟩
      intro e' u hu
      rw [Prod.mk.injEq] at hu
      exact hu.2 ▸ (hx s hs).2 e t hr

/-- After a read, the state is the one that was read. -/
theorem get_bind {f : σ → Effect σ ε α} (h : ∀ s, P s → Triple (· = s) (f s) Q E) :
    Triple P (MonadState.get >>= f) Q E := by
  intro s hs
  have hrun : exec (MonadState.get >>= f) s = exec (f s) s := exec_bind _ _ _
  rw [hrun]
  exact h s hs s rfl

theorem tryCatch {f : ε → Effect σ ε α} (hx : Triple P x Q E') (hf : ∀ e, Triple E' (f e) Q E) :
    Triple P (tryCatch x f) Q E := by
  intro s hs
  rw [exec_tryCatch]
  cases hr : exec x s with
  | mk r t =>
    cases r with
    | ok a =>
      refine ⟨?_, fun e u hu => absurd hu (by simp)⟩
      intro b u hu
      rw [Prod.mk.injEq, Except.ok.injEq] at hu
      obtain ⟨rfl, rfl⟩ := hu
      exact (hx s hs).1 a t hr
    | error e => exact hf e t ((hx s hs).2 e t hr)

theorem ite {c : Prop} [Decidable c] {x y : Effect σ ε α}
    (hx : c → Triple P x Q E) (hy : ¬ c → Triple P y Q E) :
    Triple P (if c then x else y) Q E := by
  by_cases h : c
  · rw [if_pos h]; exact hx h
  · rw [if_neg h]; exact hy h

theorem conseq (h : Triple P x Q E) (hP : ∀ s, P' s → P s) (hQ : ∀ a s, Q a s → Q' a s)
    (hE : ∀ s, E s → E' s) : Triple P' x Q' E' := by
  intro s hs
  obtain ⟨hok, herror⟩ := h s (hP s hs)
  exact ⟨fun a t ht => hQ a t (hok a t ht), fun e t ht => hE t (herror e t ht)⟩

theorem pre (h : Triple P x Q E) (hP : ∀ s, P' s → P s) : Triple P' x Q E :=
  h.conseq hP (fun _ _ => id) fun _ => id

theorem post (h : Triple P x Q E) (hQ : ∀ a s, Q a s → Q' a s) : Triple P x Q' E :=
  h.conseq (fun _ => id) hQ fun _ => id

/-- What is left behind by an exception need not be told. -/
theorem any_error (h : Triple P x Q E) : Triple P x Q fun _ => True :=
  h.conseq (fun _ => id) (fun _ _ => id) fun _ _ => trivial

/-- A fact about the starting state may be used as a hypothesis. -/
theorem of_forall (h : ∀ s, P s → Triple (· = s) x Q E) : Triple P x Q E :=
  fun s hs => h s hs s rfl

/-- A fact that is not about the state is a hypothesis. -/
theorem of_and {p : Prop} (h : p → Triple P x Q E) : Triple (fun s => P s ∧ p) x Q E :=
  fun s hs => h hs.2 s hs.1

/-- From one state, the result and the final state are those of the run. -/
theorem with_exec (h : Triple P x Q E) {s : σ} (hs : P s) :
    Triple (· = s) x (fun a t => Q a t ∧ exec x s = (.ok a, t)) E := by
  rintro _ rfl
  exact ⟨fun a t ht => ⟨(h _ hs).1 a t ht, ht⟩, (h _ hs).2⟩

/-- A computation that never raises returns. -/
theorem returns (h : Triple P x Q fun _ => False) {s : σ} (hs : P s) :
    ∃ a t, exec x s = (.ok a, t) ∧ Q a t := by
  cases hr : exec x s with
  | mk r t =>
    cases r with
    | ok a => exact ⟨a, t, rfl, (h s hs).1 a t hr⟩
    | error e => exact ((h s hs).2 e t hr).elim

/-- What a computation with a triple leaves behind. -/
theorem after {I : σ → Prop} (h : Triple P x (fun _ => I) I) {s : σ} (hs : P s) :
    I (exec x s).2 := by
  cases hr : exec x s with
  | mk r t =>
    cases r with
    | ok a => exact (h s hs).1 a t hr
    | error e => exact (h s hs).2 e t hr

end Triple

end Effect
