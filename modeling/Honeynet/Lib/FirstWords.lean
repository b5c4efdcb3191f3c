import Honeynet.Lib.Text
import Mathlib.Data.List.TakeWhile

/-!
# The first words of the lines of a text

A line-oriented protocol names a command with the first word of a line.

* `firstWords`: the first word of each line that has one.
* `mem_firstWords`: each is a word and a piece of the text.
* `firstWords_word`: a text of one word.
* `head?_firstWords`: blanks before the first word of a text are skipped.
* `firstWords_append`: after a line break the rest is read as if it stood alone.
-/

namespace Text

/-- The first word of each line that has one. -/
def firstWords (t : List Char) : List (List Char) :=
  (t.splitOn '\n').filterMap fun line => (words (strip line)).head?

/-- Whether text after it starts a line of its own. -/
def EndsLine (t : List Char) : Prop := t.getLast? = some '\n'

instance (t : List Char) : Decidable (EndsLine t) :=
  inferInstanceAs (Decidable (t.getLast? = some '\n'))

/-! ### Words of a text with blanks around it -/

theorem words_dropWhile (t : List Char) : words (t.dropWhile isSpace) = words t := by
  induction t with
  | nil => rfl
  | cons c t ih =>
    by_cases hc : isSpace c = true
    · rw [List.dropWhile_cons_of_pos hc, ih, words, words, wordsFrom, if_pos hc, if_pos rfl]
    · rw [List.dropWhile_cons_of_neg hc]

theorem wordsFrom_concat_space {c : Char} (hc : isSpace c = true) (t cur : List Char) :
    wordsFrom cur (t ++ [c]) = wordsFrom cur t := by
  induction t generalizing cur with
  | nil =>
    rw [List.nil_append, wordsFrom, wordsFrom, if_pos hc, wordsFrom, if_pos rfl]
  | cons d t ih => simp only [List.cons_append, wordsFrom, ih]

theorem wordsFrom_append_spaces {s : List Char} (hs : ∀ c ∈ s, isSpace c = true)
    (t cur : List Char) : wordsFrom cur (t ++ s) = wordsFrom cur t := by
  induction s using List.reverseRecOn with
  | nil => rw [List.append_nil]
  | append_singleton s c ih =>
    rw [← List.append_assoc, wordsFrom_concat_space (hs c (by simp))]
    exact ih fun d hd => hs d (List.mem_append_left _ hd)

theorem words_strip (t : List Char) : words (strip t) = words t := by
  have hsplit : strip t ++ ((t.dropWhile isSpace).reverse.takeWhile isSpace).reverse =
      t.dropWhile isSpace := by
    rw [strip, ← List.reverse_append, List.takeWhile_append_dropWhile, List.reverse_reverse]
  have hspaces : ∀ c ∈ ((t.dropWhile isSpace).reverse.takeWhile isSpace).reverse,
      isSpace c = true := fun c hc => List.mem_takeWhile_imp (List.mem_reverse.mp hc)
  rw [← words_dropWhile t, ← hsplit]
  exact (wordsFrom_append_spaces hspaces _ _).symm

theorem wordsFrom_append_word {w : List Char} (hw : ∀ c ∈ w, isSpace c = false)
    (cur t : List Char) : wordsFrom cur (w ++ t) = wordsFrom (cur ++ w) t := by
  induction w generalizing cur with
  | nil => rw [List.nil_append, List.append_nil]
  | cons c w ih =>
    rw [List.cons_append, wordsFrom, if_neg (by simp [hw c List.mem_cons_self]),
      ih fun d hd => hw d (List.mem_cons_of_mem c hd)]
    simp

/-- A text that starts with a word. -/
theorem head?_words {w t : List Char} (hw : IsWord w) (ht : Ended t) :
    (words (w ++ t)).head? = some w := by
  rw [words, wordsFrom_append_word hw.2, List.nil_append]
  cases t with
  | nil => rw [wordsFrom, if_neg hw.1, List.head?_cons]
  | cons c t => rw [wordsFrom, if_pos (ht c rfl), if_neg hw.1, List.head?_cons]

theorem infix_of_mem_wordsFrom {cur t w : List Char} (h : w ∈ wordsFrom cur t) :
    w <:+: cur ++ t := by
  induction t generalizing cur with
  | nil =>
    rw [wordsFrom] at h
    by_cases hcur : cur = []
    · simp [hcur] at h
    · rw [if_neg hcur, List.mem_singleton] at h
      rw [h, List.append_nil]
  | cons c t ih =>
    rw [wordsFrom] at h
    by_cases hc : isSpace c = true
    · rw [if_pos hc] at h
      have hskip : w ∈ wordsFrom [] t → w <:+: cur ++ c :: t := fun hw => by
        have hpiece := ih hw
        rw [List.nil_append] at hpiece
        exact hpiece.trans ⟨cur ++ [c], [], by simp⟩
      by_cases hcur : cur = []
      · rw [if_pos hcur] at h
        exact hskip h
      · rw [if_neg hcur, List.mem_cons] at h
        rcases h with rfl | h
        · exact List.infix_append' [] w (c :: t)
        · exact hskip h
    · rw [if_neg hc] at h
      have hrest := ih h
      rwa [List.append_assoc, List.singleton_append] at hrest

/-! ### Lines -/

/-- A text starts with its first line. -/
theorem splitOn_eq_cons (t : List Char) :
    ∃ ls, t.splitOn '\n' = t.takeWhile (· ≠ '\n') :: ls := by
  induction t with
  | nil => exact ⟨[], rfl⟩
  | cons c t ih =>
    rw [List.splitOn_cons_eq_if_modifyHead]
    by_cases hc : c = '\n'
    · subst hc
      exact ⟨_, by rw [if_pos (by rfl), List.takeWhile_cons_of_neg (by simp)]⟩
    · obtain ⟨ls, hls⟩ := ih
      refine ⟨ls, ?_⟩
      rw [if_neg (by simpa using hc), hls, List.modifyHead_cons,
        List.takeWhile_cons_of_pos (by simpa using hc)]

theorem infix_of_mem_splitOn {l t : List Char} (h : l ∈ t.splitOn '\n') : l <:+: t := by
  induction t generalizing l with
  | nil =>
    rw [List.splitOn_nil, List.mem_singleton] at h
    rw [h]
  | cons c t ih =>
    rw [List.splitOn_cons_eq_if_modifyHead] at h
    by_cases hc : (c == '\n') = true
    · rw [if_pos hc, List.mem_cons] at h
      rcases h with rfl | h
      · exact List.nil_infix
      · exact (ih h).trans (List.suffix_cons c t).isInfix
    · rw [if_neg hc] at h
      obtain ⟨ls, hls⟩ := splitOn_eq_cons t
      rw [hls, List.modifyHead_cons, List.mem_cons] at h
      rcases h with rfl | h
      · exact (List.prefix_cons_inj c).mpr (List.takeWhile_prefix _) |>.isInfix
      · have hmem : l ∈ t.splitOn '\n' := by rw [hls]; exact List.mem_cons_of_mem _ h
        exact (ih hmem).trans (List.suffix_cons c t).isInfix

theorem infix_strip (t : List Char) : strip t <:+: t := by
  have hprefix : strip t <+: t.dropWhile isSpace := by
    rw [strip, ← List.reverse_suffix, List.reverse_reverse]
    exact List.dropWhile_suffix _
  exact hprefix.isInfix.trans (List.dropWhile_suffix _).isInfix

/-! ### First words -/

/-- **A first word is a word, and a piece of the text.** -/
theorem mem_firstWords {w t : List Char} (h : w ∈ firstWords t) : IsWord w ∧ w <:+: t := by
  obtain ⟨line, hline, hhead⟩ := List.mem_filterMap.mp h
  have hword : w ∈ words (strip line) := List.mem_of_mem_head? hhead
  have hpiece : w <:+: strip line := by simpa using infix_of_mem_wordsFrom hword
  exact ⟨isWord_of_mem_words hword,
    hpiece.trans ((infix_strip line).trans (infix_of_mem_splitOn hline))⟩

/-- The first word of a text whose first line starts with it. -/
theorem head?_firstWords_word {w t : List Char} (hw : IsWord w) (ht : Ended t) :
    (firstWords (w ++ t)).head? = some w := by
  have hline : ∀ c ∈ w, decide (c ≠ '\n') = true := by
    intro c hc
    refine decide_eq_true ?_
    rintro rfl
    exact absurd (hw.2 _ hc) (by decide)
  have hended : Ended (t.takeWhile (· ≠ '\n')) := by
    intro c hc
    cases t with
    | nil => exact absurd hc (by simp)
    | cons d t =>
      by_cases hd : d = '\n'
      · rw [List.takeWhile_cons_of_neg (by simpa using hd)] at hc
        exact absurd hc (by simp)
      · rw [List.takeWhile_cons_of_pos (by simpa using hd), List.head?_cons] at hc
        exact ht c hc
  obtain ⟨ls, hls⟩ := splitOn_eq_cons (w ++ t)
  rw [firstWords, hls, List.takeWhile_append_of_pos hline, List.filterMap_cons, words_strip,
    head?_words hw hended, List.head?_cons]

/-- Blanks at the start of a text are skipped. -/
theorem firstWords_cons_space {c : Char} (hc : isSpace c = true) (t : List Char) :
    firstWords (c :: t) = firstWords t := by
  rw [firstWords, firstWords, List.splitOn_cons_eq_if_modifyHead]
  by_cases hnl : (c == '\n') = true
  · rw [if_pos hnl, List.filterMap_cons]
    rfl
  · obtain ⟨ls, hls⟩ := splitOn_eq_cons t
    have hstrip : ∀ line, strip (c :: line) = strip line := fun line => by
      rw [strip, strip, List.dropWhile_cons_of_pos hc]
    rw [if_neg hnl, hls, List.modifyHead_cons, List.filterMap_cons, List.filterMap_cons, hstrip]

/-- **The first word of a text** comes after its blanks. -/
theorem head?_firstWords {before w t : List Char} (hbefore : ∀ c ∈ before, isSpace c = true)
    (hw : IsWord w) (ht : Ended t) : (firstWords (before ++ (w ++ t))).head? = some w := by
  induction before with
  | nil => exact head?_firstWords_word hw ht
  | cons c before ih =>
    rw [List.cons_append, firstWords_cons_space (hbefore c List.mem_cons_self)]
    exact ih fun d hd => hbefore d (List.mem_cons_of_mem c hd)

theorem firstWords_spaces {t : List Char} (h : ∀ c ∈ t, isSpace c = true) :
    firstWords t = [] := by
  induction t with
  | nil => rfl
  | cons c t ih =>
    rw [firstWords_cons_space (h c List.mem_cons_self)]
    exact ih fun d hd => h d (List.mem_cons_of_mem c hd)

/-- A text of one word. -/
theorem firstWords_word {w : List Char} (hw : IsWord w) : firstWords w = [w] := by
  have hline : '\n' ∉ w := fun hmem => absurd (hw.2 _ hmem) (by decide)
  have hhead := head?_words hw ended_nil
  rw [List.append_nil] at hhead
  rw [firstWords, List.splitOn_eq_singleton hline, List.filterMap_cons, words_strip, hhead]
  rfl

theorem firstWords_append_break (s t : List Char) :
    firstWords (s ++ '\n' :: t) = firstWords s ++ firstWords t := by
  rw [firstWords, List.splitOn_append_cons_self, List.filterMap_append]
  rfl

/-- **After a line break the rest is read as if it stood alone.** -/
theorem firstWords_append {s : List Char} (hs : EndsLine s) (t : List Char) :
    firstWords (s ++ t) = firstWords s ++ firstWords t := by
  obtain ⟨s', rfl⟩ := List.getLast?_eq_some_iff.mp hs
  have hempty : firstWords [] = [] := rfl
  rw [List.append_assoc, List.singleton_append, firstWords_append_break, firstWords_append_break,
    hempty, List.append_nil]

/-- A text is blank or has a first word. -/
theorem exists_first_word {t : List Char} (h : ¬ ∀ c ∈ t, isSpace c = true) :
    ∃ before w after, t = before ++ (w ++ after) ∧ (∀ c ∈ before, isSpace c = true) ∧
      IsWord w ∧ Ended after := by
  refine ⟨t.takeWhile isSpace, (t.dropWhile isSpace).takeWhile fun c => !isSpace c,
    (t.dropWhile isSpace).dropWhile fun c => !isSpace c, ?_, fun c hc => List.mem_takeWhile_imp hc,
    ⟨?_, ?_⟩, ?_⟩
  · rw [List.takeWhile_append_dropWhile, List.takeWhile_append_dropWhile]
  · intro hnil
    cases hrest : t.dropWhile isSpace with
    | nil => exact h fun c hc => List.dropWhile_eq_nil_iff.mp hrest c hc
    | cons d rest =>
      have hd := List.head?_dropWhile_not isSpace t
      rw [hrest] at hd hnil
      have hfalse : isSpace d = false := by simpa using hd
      rw [List.takeWhile_cons_of_pos (by rw [hfalse]; rfl)] at hnil
      exact absurd hnil (by simp)
  · intro c hc
    have hnot := List.mem_takeWhile_imp hc
    simpa using hnot
  · intro c hc
    have hnot := List.head?_dropWhile_not (fun c => !isSpace c) (t.dropWhile isSpace)
    rw [hc] at hnot
    simpa using hnot

end Text
