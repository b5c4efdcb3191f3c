import Mathlib.Data.List.Basic

/-!
# Computations that can raise

* `bind_eq_ok`, `map_eq_ok`: what a computation that returned has returned on the way.
* `collect`: the results of a fallible partial function along a list.
* `map_collect_sublist`: they stand in the order of the list.
-/

namespace Fallible

variable {ε α β : Type}

theorem bind_eq_ok {x : Except ε α} {f : α → Except ε β} {b : β} :
    (x >>= f) = .ok b ↔ ∃ a, x = .ok a ∧ f a = .ok b := by
  cases x <;> simp [bind, Except.bind]

theorem map_eq_ok {x : Except ε α} {f : α → β} {b : β} :
    x.map f = .ok b ↔ ∃ a, x = .ok a ∧ f a = b := by
  cases x <;> simp [Except.map]

theorem toOption_join_eq_some {x : Except ε (Option α)} {y : α} :
    x.toOption.join = some y ↔ x = .ok (some y) := by
  cases x <;> simp [Except.toOption]

/-- `[y for x in xs if (y := f(x)) is not None]`. -/
def collect (f : α → Except ε (Option β)) : List α → Except ε (List β)
  | [] => .ok []
  | x :: xs => do
    let y ← f x
    let ys ← collect f xs
    return y.toList ++ ys

theorem collect_cons_eq_ok {f : α → Except ε (Option β)} {x : α} {xs : List α} {ys : List β} :
    collect f (x :: xs) = .ok ys ↔
      ∃ y zs, f x = .ok y ∧ collect f xs = .ok zs ∧ ys = y.toList ++ zs := by
  rw [collect]
  simp only [bind_eq_ok, pure, Except.pure, Except.ok.injEq]
  constructor
  · rintro ⟨y, hy, zs, hzs, rfl⟩
    exact ⟨y, zs, hy, hzs, rfl⟩
  · rintro ⟨y, zs, hy, hzs, rfl⟩
    exact ⟨y, hy, zs, hzs, rfl⟩

/-- **A collection succeeds iff each call does.** -/
theorem collect_ok_iff {f : α → Except ε (Option β)} {xs : List α} :
    (∃ ys, collect f xs = .ok ys) ↔ ∀ x ∈ xs, ∃ y, f x = .ok y := by
  induction xs with
  | nil => simp [collect]
  | cons x xs ih =>
    rw [List.forall_mem_cons, ← ih]
    simp only [collect_cons_eq_ok]
    constructor
    · rintro ⟨_, y, zs, hy, hzs, _⟩
      exact ⟨⟨y, hy⟩, zs, hzs⟩
    · rintro ⟨⟨y, hy⟩, zs, hzs⟩
      exact ⟨_, y, zs, hy, hzs, rfl⟩

theorem mem_collect {f : α → Except ε (Option β)} {xs : List α} {ys : List β}
    (h : collect f xs = .ok ys) {y : β} : y ∈ ys ↔ ∃ x ∈ xs, f x = .ok (some y) := by
  induction xs generalizing ys with
  | nil =>
    obtain rfl := Except.ok.inj h
    simp
  | cons x xs ih =>
    obtain ⟨o, zs, ho, hzs, rfl⟩ := collect_cons_eq_ok.mp h
    rw [List.mem_append, ih hzs, List.exists_mem_cons_iff, ho, Option.mem_toList]
    simp

/-- What a collection that succeeds holds. -/
theorem collect_eq_filterMap {f : α → Except ε (Option β)} {xs : List α} {ys : List β}
    (h : collect f xs = .ok ys) : ys = xs.filterMap fun x => (f x).toOption.join := by
  induction xs generalizing ys with
  | nil => exact (Except.ok.inj h).symm
  | cons x xs ih =>
    obtain ⟨o, zs, ho, hzs, rfl⟩ := collect_cons_eq_ok.mp h
    rw [ih hzs]
    cases o with
    | none => simp [ho, Except.toOption]
    | some y => simp [ho, Except.toOption]

/-- Results that keep a key have their keys in the order of the list. -/
theorem map_collect_sublist {κ : Type} {f : α → Except ε (Option β)} {key : α → κ} {key' : β → κ}
    (hkey : ∀ x y, f x = .ok (some y) → key' y = key x) {xs : List α} {ys : List β}
    (h : collect f xs = .ok ys) : (ys.map key').Sublist (xs.map key) := by
  induction xs generalizing ys with
  | nil =>
    obtain rfl := Except.ok.inj h
    exact List.Sublist.slnil
  | cons x xs ih =>
    obtain ⟨o, zs, ho, hzs, rfl⟩ := collect_cons_eq_ok.mp h
    cases o with
    | none => exact (ih hzs).cons (key x)
    | some y =>
      rw [Option.toList_some, List.singleton_append, List.map_cons, List.map_cons, hkey x y ho]
      exact (ih hzs).cons_cons (key x)

/-! ### Computations that turn out not to raise -/

theorem mapM_eq_some {f : α → Option β} {g : α → β} {xs : List α}
    (h : ∀ x ∈ xs, f x = some (g x)) : xs.mapM f = some (xs.map g) := by
  induction xs with
  | nil => rfl
  | cons x xs ih =>
    rw [List.mapM_cons, h x List.mem_cons_self, ih fun y hy => h y (List.mem_cons_of_mem x hy)]
    rfl

theorem exists_mapM_some {f : α → Option β} {xs : List α} (h : ∀ x ∈ xs, ∃ y, f x = some y) :
    ∃ ys, xs.mapM f = some ys := by
  induction xs with
  | nil => exact ⟨[], rfl⟩
  | cons x xs ih =>
    obtain ⟨y, hy⟩ := h x List.mem_cons_self
    obtain ⟨ys, hys⟩ := ih fun z hz => h z (List.mem_cons_of_mem x hz)
    refine ⟨y :: ys, ?_⟩
    rw [List.mapM_cons, hy, hys]
    rfl

theorem exists_mapM_ok {f : α → Except ε β} {xs : List α} (h : ∀ x ∈ xs, ∃ y, f x = .ok y) :
    ∃ ys, xs.mapM f = .ok ys := by
  induction xs with
  | nil => exact ⟨[], rfl⟩
  | cons x xs ih =>
    obtain ⟨y, hy⟩ := h x List.mem_cons_self
    obtain ⟨ys, hys⟩ := ih fun z hz => h z (List.mem_cons_of_mem x hz)
    refine ⟨y :: ys, ?_⟩
    rw [List.mapM_cons, hy, hys]
    rfl

theorem forall_of_mapM_ok {f : α → Except ε β} {xs : List α} {ys : List β}
    (h : xs.mapM f = .ok ys) : ∀ x ∈ xs, ∃ y, f x = .ok y := by
  induction xs generalizing ys with
  | nil => exact fun x hx => absurd hx List.not_mem_nil
  | cons x xs ih =>
    rw [List.mapM_cons] at h
    obtain ⟨y, hy, h⟩ := bind_eq_ok.mp h
    obtain ⟨zs, hzs, -⟩ := bind_eq_ok.mp h
    exact List.forall_mem_cons.mpr ⟨⟨y, hy⟩, ih hzs⟩

theorem foldlM_eq_some {f : β → α → Option β} {g : β → α → β} {xs : List α}
    (h : ∀ x ∈ xs, ∀ acc, f acc x = some (g acc x)) (acc : β) :
    xs.foldlM f acc = some (xs.foldl g acc) := by
  induction xs generalizing acc with
  | nil => rfl
  | cons x xs ih =>
    rw [List.foldlM_cons, h x List.mem_cons_self, List.foldl_cons]
    exact ih (fun y hy => h y (List.mem_cons_of_mem x hy)) (g acc x)

end Fallible
