import Mathlib.Data.List.Forall2
import Mathlib.Data.String.Basic
import Mathlib.Tactic.Common

/-!
# Padded numbers as text

Numbers written with a fixed number of digits are ordered as texts as they are as numbers.

* `digits w n`: the last `w` decimal digits of `n`, first the greatest.
* `fields pattern ns tail`: numbers in a pattern of widths and separators, and what follows.
* `fields_lt_fields`: the first different field decides.
-/

namespace Padded

/-- `n` with `w` digits. -/
def digits : ℕ → ℕ → List Char
  | 0, _ => []
  | w + 1, n => Nat.digitChar (n / 10 ^ w) :: digits w (n % 10 ^ w)

/-- Numbers, each with a width and a separator after it, and then the rest. -/
def fields : List (ℕ × List Char) → List ℕ → List Char → List Char
  | (w, separator) :: pattern, n :: ns, tail =>
    digits w n ++ (separator ++ fields pattern ns tail)
  | _, _, tail => tail

theorem length_digits (w n : ℕ) : (digits w n).length = w := by
  induction w generalizing n with
  | zero => rfl
  | succ w ih => rw [digits, List.length_cons, ih]

theorem digitChar_lt_digitChar {a b : ℕ} (h : a < b) (hb : b < 10) :
    Nat.digitChar a < Nat.digitChar b := by
  have hall : ∀ b < 10, ∀ a < b, Nat.digitChar a < Nat.digitChar b := by decide
  exact hall b hb a h

theorem digits_lt_digits {w n m : ℕ} (h : n < m) (hm : m < 10 ^ w) : digits w n < digits w m := by
  induction w generalizing n m with
  | zero => omega
  | succ w ih =>
    rw [digits, digits, List.cons_lt_cons_iff]
    have hpos : 0 < 10 ^ w := Nat.pow_pos (by omega)
    have hfirst : m / 10 ^ w < 10 := Nat.div_lt_of_lt_mul (by rwa [Nat.pow_succ] at hm)
    rcases (Nat.div_le_div_right h.le : n / 10 ^ w ≤ m / 10 ^ w).lt_or_eq with hlt | heq
    · exact Or.inl (digitChar_lt_digitChar hlt hfirst)
    · refine Or.inr ⟨by rw [heq], ih ?_ (Nat.mod_lt _ hpos)⟩
      have hn := Nat.div_add_mod n (10 ^ w)
      have hm := Nat.div_add_mod m (10 ^ w)
      rw [heq] at hn
      omega

/-- Where texts of one length differ, what follows does not matter. -/
theorem append_lt_append {α : Type*} [LinearOrder α] {xs ys : List α}
    (hlength : xs.length = ys.length) (h : xs < ys) (us vs : List α) : xs ++ us < ys ++ vs := by
  induction xs generalizing ys with
  | nil =>
    rw [List.length_nil, eq_comm, List.length_eq_zero_iff] at hlength
    exact absurd (hlength ▸ h) (lt_irrefl _)
  | cons x xs ih =>
    cases ys with
    | nil => exact absurd hlength (by simp)
    | cons y ys =>
      rw [List.cons_append, List.cons_append, List.cons_lt_cons_iff]
      rcases List.cons_lt_cons_iff.mp h with hlt | ⟨rfl, hlt⟩
      · exact Or.inl hlt
      · exact Or.inr ⟨rfl, ih (Nat.succ.inj hlength) hlt⟩

theorem lt_or_eq_of_append_lt {α : Type*} [LinearOrder α] {xs ys us vs : List α}
    (hlength : xs.length = ys.length) (h : xs ++ us < ys ++ vs) :
    xs < ys ∨ xs = ys ∧ us < vs := by
  rcases lt_trichotomy xs ys with hlt | rfl | hgt
  · exact Or.inl hlt
  · refine Or.inr ⟨rfl, not_le.mp fun hle => ?_⟩
    rcases hle.lt_or_eq with hgt | rfl
    · exact lt_asymm h (List.append_left_lt hgt)
    · exact lt_irrefl _ h
  · exact absurd h (append_lt_append hlength.symm hgt vs us).not_gt

/-- **The first different field decides.** -/
theorem fields_lt_fields {pattern : List (ℕ × List Char)} {ns ms : List ℕ}
    (hns : ns.length = pattern.length)
    (hms : List.Forall₂ (fun p m => m < 10 ^ p.1) pattern ms) (h : ns < ms)
    (tail tail' : List Char) : fields pattern ns tail < fields pattern ms tail' := by
  induction hms generalizing ns with
  | nil => exact absurd h (List.not_lt_nil _)
  | @cons p m pattern ms hm hms ih =>
    cases ns with
    | nil => exact absurd hns (by simp)
    | cons n ns =>
      rw [fields, fields]
      rcases List.cons_lt_cons_iff.mp h with hlt | ⟨rfl, hlt⟩
      · exact append_lt_append (by rw [length_digits, length_digits]) (digits_lt_digits hlt hm) _ _
      · exact List.append_left_lt (List.append_left_lt (ih (Nat.succ.inj hns) hlt))

theorem fields_lt_fields_of_tail (pattern : List (ℕ × List Char)) (ns : List ℕ)
    {tail tail' : List Char} (h : tail < tail') :
    fields pattern ns tail < fields pattern ns tail' := by
  induction pattern generalizing ns with
  | nil => exact h
  | cons p pattern ih =>
    cases ns with
    | nil => exact h
    | cons n ns => exact List.append_left_lt (List.append_left_lt (ih ns))

end Padded
