import Mathlib.Data.List.Basic
import Mathlib.Data.List.Count
import Mathlib.Data.List.TakeWhile

/-!
# Lines of a text

A line ends with its terminator, which stands nowhere else in it.

* `linesOf`: the complete lines of a text, without what is left unterminated.
* `firstLine`: the text up to and with the first terminator, or all of it.
* `linesOf_flatten`: lines laid end to end are read back.
* `Whole`: a text made of lines, closed under laying end to end and under taking the first line
  off.
-/

namespace Lines

variable {α : Type*} {nl : α}

/-- Ended by the terminator, and by nothing before. -/
def IsLine (nl : α) (l : List α) : Prop := ∃ body, nl ∉ body ∧ l = body ++ [nl]

/-- Lines laid end to end. -/
def Whole (nl : α) (text : List α) : Prop := ∃ ls : List (List α), (∀ l ∈ ls, IsLine nl l) ∧
  ls.flatten = text

theorem IsLine.ne_nil {l : List α} (h : IsLine nl l) : l ≠ [] := by
  obtain ⟨body, _, rfl⟩ := h
  simp

theorem IsLine.mem {l : List α} (h : IsLine nl l) : nl ∈ l := by
  obtain ⟨body, _, rfl⟩ := h
  simp

theorem IsLine.count [BEq α] [LawfulBEq α] {l : List α} (h : IsLine nl l) : l.count nl = 1 := by
  obtain ⟨body, hbody, rfl⟩ := h
  rw [List.count_append, List.count_eq_zero_of_not_mem hbody, List.count_singleton_self]

theorem Whole.nil : Whole nl [] := ⟨[], by simp, rfl⟩

theorem Whole.append {s t : List α} (hs : Whole nl s) (ht : Whole nl t) : Whole nl (s ++ t) := by
  obtain ⟨ls, hls, rfl⟩ := hs
  obtain ⟨ls', hls', rfl⟩ := ht
  refine ⟨ls ++ ls', fun l hl => ?_, List.flatten_append⟩
  exact (List.mem_append.mp hl).elim (hls l) (hls' l)

theorem Whole.flatten {ts : List (List α)} (h : ∀ t ∈ ts, Whole nl t) : Whole nl ts.flatten := by
  induction ts with
  | nil => exact .nil
  | cons t ts ih =>
    exact (h t List.mem_cons_self).append (ih fun s hs => h s (List.mem_cons_of_mem t hs))

/-- A text ended by the terminator is made of lines. -/
theorem Whole.concat (t : List α) : Whole nl (t ++ [nl]) := by
  induction t with
  | nil => exact ⟨[[nl]], by simp [IsLine], rfl⟩
  | cons c t ih =>
    obtain ⟨ls, hls, htext⟩ := ih
    by_cases hc : c = nl
    · have hline : IsLine nl [c] := ⟨[], by simp, by rw [hc]; rfl⟩
      refine ⟨[c] :: ls, fun l hl => ?_, by rw [List.flatten_cons, htext]; rfl⟩
      rcases List.mem_cons.mp hl with rfl | hl
      · exact hline
      · exact hls l hl
    · cases ls with
      | nil => simp at htext
      | cons l ls =>
        obtain ⟨body, hbody, hl⟩ := hls l List.mem_cons_self
        have hline : IsLine nl (c :: l) := by
          refine ⟨c :: body, ?_, by rw [hl]; rfl⟩
          rw [List.mem_cons, not_or]
          exact ⟨fun h => hc h.symm, hbody⟩
        refine ⟨(c :: l) :: ls, fun l' hl' => ?_, ?_⟩
        · rcases List.mem_cons.mp hl' with rfl | hl'
          · exact hline
          · exact hls l' (List.mem_cons_of_mem l hl')
        · rw [List.flatten_cons] at htext ⊢
          rw [List.cons_append, List.cons_append, htext]

/-- A text made of lines has a terminator in it, unless it is empty. -/
theorem Whole.mem {t : List α} (h : Whole nl t) (hne : t ≠ []) : nl ∈ t := by
  obtain ⟨ls, hls, rfl⟩ := h
  cases ls with
  | nil => exact absurd rfl hne
  | cons l ls =>
    rw [List.flatten_cons]
    exact List.mem_append_left _ (hls l List.mem_cons_self).mem

section DecidableEq

variable [DecidableEq α]

/-- The text up to the first terminator and with it, or all of it. -/
def firstLine (nl : α) (text : List α) : List α :=
  text.takeWhile (· ≠ nl) ++ (text.dropWhile (· ≠ nl)).take 1

/-- The complete lines. -/
def linesOf (nl : α) : List α → List (List α)
  | [] => []
  | c :: cs =>
    if c = nl then [c] :: linesOf nl cs
    else
      match linesOf nl cs with
      | [] => []
      | l :: ls => (c :: l) :: ls

/-! ### The first line -/

theorem firstLine_append_drop (nl : α) (text : List α) :
    firstLine nl text ++ text.drop (firstLine nl text).length = text := by
  have hsplit : firstLine nl text ++ (text.dropWhile (· ≠ nl)).drop 1 = text := by
    rw [firstLine, List.append_assoc, List.take_append_drop, List.takeWhile_append_dropWhile]
  have hdrop : text.drop (firstLine nl text).length = (text.dropWhile (· ≠ nl)).drop 1 := by
    calc text.drop (firstLine nl text).length
        = (firstLine nl text ++ (text.dropWhile (· ≠ nl)).drop 1).drop
            (firstLine nl text).length := by rw [hsplit]
      _ = (text.dropWhile (· ≠ nl)).drop 1 := List.drop_left
  rw [hdrop, hsplit]

/-- **The first line of a text that begins with a line** is that line. -/
theorem firstLine_line {l : List α} (h : IsLine nl l) (text : List α) :
    firstLine nl (l ++ text) = l := by
  obtain ⟨body, hbody, rfl⟩ := h
  have hne : ∀ c ∈ body, decide (c ≠ nl) = true := fun c hc =>
    decide_eq_true fun hcn => hbody (hcn ▸ hc)
  rw [firstLine, List.append_assoc, List.takeWhile_append_of_pos hne,
    List.dropWhile_append_of_pos hne]
  simp

theorem isLine_firstLine {text : List α} (h : nl ∈ text) : IsLine nl (firstLine nl text) := by
  refine ⟨text.takeWhile (· ≠ nl), fun hmem => ?_, ?_⟩
  · have hne := List.mem_takeWhile_imp hmem
    simp at hne
  · cases hrest : text.dropWhile (· ≠ nl) with
    | nil =>
      have hall := List.dropWhile_eq_nil_iff.mp hrest nl h
      simp at hall
    | cons c cs =>
      have hhead := List.head?_dropWhile_not (fun c => decide (c ≠ nl)) text
      rw [hrest] at hhead
      have hc : c = nl := by simpa using hhead
      rw [firstLine, hrest, hc, List.take_succ_cons, List.take_zero]

theorem firstLine_of_not_mem {text : List α} (h : nl ∉ text) : firstLine nl text = text := by
  have hne : ∀ c ∈ text, decide (c ≠ nl) = true := fun c hc =>
    decide_eq_true fun hcn => h (hcn ▸ hc)
  rw [firstLine, List.takeWhile_eq_self_iff.mpr hne, List.dropWhile_eq_nil_iff.mpr hne,
    List.take_nil, List.append_nil]

theorem firstLine_eq_nil {text : List α} : firstLine nl text = [] ↔ text = [] := by
  constructor
  · intro h
    by_cases hmem : nl ∈ text
    · exact absurd h (isLine_firstLine hmem).ne_nil
    · rwa [firstLine_of_not_mem hmem] at h
  · rintro rfl
    rfl

/-- The text after the first line is made of lines too. -/
theorem Whole.drop_firstLine {t : List α} (h : Whole nl t) :
    Whole nl (t.drop (firstLine nl t).length) := by
  obtain ⟨ls, hls, rfl⟩ := h
  cases ls with
  | nil => exact .nil
  | cons l ls =>
    rw [List.flatten_cons, firstLine_line (hls l List.mem_cons_self), List.drop_left]
    exact ⟨ls, fun l' hl' => hls l' (List.mem_cons_of_mem l hl'), rfl⟩

theorem Whole.of_line_append {l t : List α} (hl : IsLine nl l) (h : Whole nl (l ++ t)) :
    Whole nl t := by
  have hdrop := h.drop_firstLine
  rwa [firstLine_line hl, List.drop_left] at hdrop

/-- What follows lines in a text made of lines is made of lines. -/
theorem Whole.of_flatten_append {ls : List (List α)} {t : List α} (hls : ∀ l ∈ ls, IsLine nl l)
    (h : Whole nl (ls.flatten ++ t)) : Whole nl t := by
  induction ls with
  | nil => exact h
  | cons l ls ih =>
    rw [List.flatten_cons, List.append_assoc] at h
    exact ih (fun l' hl' => hls l' (List.mem_cons_of_mem l hl'))
      (h.of_line_append (hls l List.mem_cons_self))

/-! ### All lines -/

theorem linesOf_line_append {l : List α} (h : IsLine nl l) (text : List α) :
    linesOf nl (l ++ text) = l :: linesOf nl text := by
  obtain ⟨body, hbody, rfl⟩ := h
  induction body with
  | nil => simp [linesOf]
  | cons c body ih =>
    rw [List.mem_cons, not_or] at hbody
    rw [List.cons_append, List.cons_append, linesOf, if_neg fun hc => hbody.1 hc.symm,
      ih hbody.2]

theorem linesOf_flatten_append {ls : List (List α)} (h : ∀ l ∈ ls, IsLine nl l)
    (text : List α) : linesOf nl (ls.flatten ++ text) = ls ++ linesOf nl text := by
  induction ls with
  | nil => rfl
  | cons l ls ih =>
    rw [List.flatten_cons, List.append_assoc, linesOf_line_append (h l List.mem_cons_self),
      ih fun l' hl' => h l' (List.mem_cons_of_mem l hl'), List.cons_append]

/-- **Lines laid end to end** are read back. -/
theorem linesOf_flatten {ls : List (List α)} (h : ∀ l ∈ ls, IsLine nl l) :
    linesOf nl ls.flatten = ls := by
  have hlines := linesOf_flatten_append h []
  rwa [List.append_nil, linesOf, List.append_nil] at hlines

theorem isLine_of_mem_linesOf {text l : List α} (h : l ∈ linesOf nl text) : IsLine nl l := by
  induction text generalizing l with
  | nil => exact absurd h List.not_mem_nil
  | cons c cs ih =>
    rw [linesOf] at h
    split_ifs at h with hc
    · rcases List.mem_cons.mp h with rfl | h
      · exact ⟨[], List.not_mem_nil, by rw [hc]; rfl⟩
      · exact ih h
    · cases hlines : linesOf nl cs with
      | nil => simp [hlines] at h
      | cons l' ls =>
        rw [hlines] at h ih
        rcases List.mem_cons.mp h with rfl | h
        · obtain ⟨body, hbody, rfl⟩ := ih List.mem_cons_self
          refine ⟨c :: body, ?_, rfl⟩
          rw [List.mem_cons, not_or]
          exact ⟨fun hcn => hc hcn.symm, hbody⟩
        · exact ih (List.mem_cons_of_mem l' h)

/-- A text made of lines has one for each terminator. -/
theorem length_linesOf {text : List α} (h : Whole nl text) :
    (linesOf nl text).length = text.count nl := by
  obtain ⟨ls, hls, rfl⟩ := h
  rw [linesOf_flatten hls]
  induction ls with
  | nil => rfl
  | cons l ls ih =>
    rw [List.length_cons, List.flatten_cons, List.count_append,
      (hls l List.mem_cons_self).count, ← ih fun l' hl' => hls l' (List.mem_cons_of_mem _ hl')]
    omega

end DecidableEq

end Lines
