import Mathlib.Data.List.Infix

/-!
# Writing a line and taking it apart

* `fill`: a template with names in braces, filled with the values of the names.
* `IsPlain`: a template in which braces hold a name each.
* `partition`: a text cut at the first place of a separator.
* `partition_pair`: a separator of two characters is found after a text without it.
* `partition_inside`: it is found inside a text with it.
-/

namespace Formatted

/-! ### Templates -/

/-- A template filled: `name` is what has been read of a name in braces, the last character first,
`none` outside of braces.  There is no result where a name has no value. -/
def fill (value : List Char → Option (List Char)) :
    Option (List Char) → List Char → Option (List Char)
  | none, [] => some []
  | none, c :: t =>
    if c = '\x7b' then fill value (some []) t else (fill value none t).map (c :: ·)
  | some _, [] => none
  | some name, c :: t =>
    if c = '\x7d' then (value name.reverse).bind fun v => (fill value none t).map (v ++ ·)
    else fill value (some (c :: name)) t

/-- Braces come in pairs, and hold letters, digits and underscores only, at least one; `name` is as
for `fill`. -/
def isPlainFrom : Option (List Char) → List Char → Bool
  | none, [] => true
  | none, c :: t => if c = '\x7b' then isPlainFrom (some []) t else c != '\x7d' && isPlainFrom none t
  | some _, [] => false
  | some name, c :: t =>
    if c = '\x7d' then name != [] && isPlainFrom none t
    else (c.isAlphanum || c == '_') && isPlainFrom (some (c :: name)) t

def IsPlain (template : List Char) : Prop := isPlainFrom none template = true

instance (template : List Char) : Decidable (IsPlain template) :=
  inferInstanceAs (Decidable (_ = true))

section Fill

variable {value : List Char → Option (List Char)}

theorem fill_literal {t : List Char} (h : '\x7b' ∉ t) (rest : List Char) :
    fill value none (t ++ rest) = (fill value none rest).map (t ++ ·) := by
  induction t with
  | nil => exact (Option.map_id' : _).symm
  | cons c t ih =>
    rw [List.mem_cons, not_or] at h
    rw [List.cons_append, fill, if_neg (Ne.symm h.1), ih h.2, Option.map_map]
    rfl

theorem fill_name {name : List Char} (h : '\x7d' ∉ name) (read rest : List Char) :
    fill value (some read) (name ++ '\x7d' :: rest) =
      (value (read.reverse ++ name)).bind fun v => (fill value none rest).map (v ++ ·) := by
  induction name generalizing read with
  | nil => rw [List.nil_append, fill, if_pos rfl, List.append_nil]
  | cons c name ih =>
    rw [List.mem_cons, not_or] at h
    rw [List.cons_append, fill, if_neg (Ne.symm h.1), ih h.2, List.reverse_cons, List.append_assoc,
      List.singleton_append]

end Fill

/-! ### Separators -/

theorem pair_infix_append {α : Type*} {x y : α} {s t : List α} (hx : x ∉ s) :
    [x, y] <:+: s ++ t ↔ [x, y] <:+: t := by
  induction s with
  | nil => rw [List.nil_append]
  | cons z s ih =>
    rw [List.mem_cons, not_or] at hx
    rw [List.cons_append, List.infix_cons_iff, List.cons_prefix_cons, ih hx.2]
    exact or_iff_right fun h => hx.1 h.1

section Partition

variable {α : Type*} [DecidableEq α]

/-- `text.partition(separator)`, where the separator is found. -/
def partition (separator : List α) : List α → Option (List α × List α)
  | [] => none
  | x :: t =>
    if separator <+: x :: t then some ([], (x :: t).drop separator.length)
    else (partition separator t).map fun p => (x :: p.1, p.2)

/-- What stands before the first separator, all of the text if there is none. -/
def beforeFirst (separator t : List α) : List α :=
  match partition separator t with
  | some p => p.1
  | none => t

/-- **A separator is found after a text without it.** -/
theorem partition_pair {x y : α} (hne : x ≠ y) {t : List α} (h : ¬ [x, y] <:+: t) (rest : List α) :
    partition [x, y] (t ++ x :: y :: rest) = some (t, rest) := by
  induction t with
  | nil =>
    rw [List.nil_append, partition, if_pos (by simp)]
    rfl
  | cons z t ih =>
    have hnot : ¬ [x, y] <+: z :: (t ++ x :: y :: rest) := by
      intro hpre
      rw [List.cons_prefix_cons] at hpre
      obtain ⟨rfl, hy⟩ := hpre
      cases t with
      | nil =>
        rw [List.nil_append, List.cons_prefix_cons] at hy
        exact hne hy.1.symm
      | cons w t =>
        rw [List.cons_append, List.cons_prefix_cons] at hy
        obtain ⟨rfl, -⟩ := hy
        exact h (List.IsPrefix.isInfix (by simp))
    rw [List.cons_append, partition, if_neg hnot,
      ih fun hin => h (hin.trans (List.suffix_cons z t).isInfix)]
    rfl

/-- **It is found inside a text with it.** -/
theorem partition_inside {separator : List α} (hne : separator ≠ []) {t : List α}
    (h : separator <:+: t) (rest : List α) : ∃ before after,
      partition separator (t ++ rest) = some (before, after) ∧ before.length < t.length := by
  induction t with
  | nil => exact absurd (List.infix_nil.mp h) hne
  | cons z t ih =>
    by_cases hpre : separator <+: z :: (t ++ rest)
    · refine ⟨[], (z :: (t ++ rest)).drop separator.length, ?_, by simp⟩
      rw [List.cons_append, partition, if_pos hpre]
    · rcases List.infix_cons_iff.mp h with hhere | hlater
      · exact absurd (hhere.trans (List.prefix_append (z :: t) rest)) hpre
      · obtain ⟨before, after, hfound, hlen⟩ := ih hlater
        refine ⟨z :: before, after, ?_, by simpa using hlen⟩
        rw [List.cons_append, partition, if_neg hpre, hfound]
        rfl

end Partition

end Formatted
