import Mathlib.Data.List.Basic
import Mathlib.Data.List.Infix

/-!
# Texts as lists of characters

* `words`, `joinWords`: `text.split()` and `" ".join(words)`.
* `reSplit`: `re.split(r"\s+sep\s+", text)` for a separator that is one word.
* `reSplit_joinWords`: on single-spaced text it cuts the list of words at the separator.
* `lex`: words and parentheses as tokens; blanking the parentheses out of a text drops them
  from its tokens (`words_blankParens`).
-/

namespace Text

/-- `str.isspace()` of one character, which is also `\s` in a pattern. -/
def isSpace (c : Char) : Bool :=
  (9 ≤ c.toNat && c.toNat ≤ 13) || (28 ≤ c.toNat && c.toNat ≤ 32) || c.toNat == 133 ||
    c.toNat == 160 || c.toNat == 5760 || (8192 ≤ c.toNat && c.toNat ≤ 8202) ||
    c.toNat == 8232 || c.toNat == 8233 || c.toNat == 8239 || c.toNat == 8287 || c.toNat == 12288

instance (priority := high) lawfulBEqChars : LawfulBEq (List Char) := inferInstance

/-- A text is read through, where the alphabet would be run through instead. -/
instance (priority := high) decidableForallMem (p : Char → Prop) [DecidablePred p]
    (t : List Char) : Decidable (∀ c ∈ t, p c) := List.decidableBAll p t

/-- A nonempty run without whitespace. -/
def IsWord (w : List Char) : Prop := w ≠ [] ∧ ∀ c ∈ w, isSpace c = false

instance (w : List Char) : Decidable (IsWord w) :=
  inferInstanceAs (Decidable (w ≠ [] ∧ ∀ c ∈ w, isSpace c = false))

/-- `text.lower()` on ASCII text. -/
def asciiLower (s : String) : String := String.ofList (s.toList.map Char.toLower)

theorem toNat_toLower (c : Char) :
    c.toLower.toNat = if 65 ≤ c.toNat ∧ c.toNat ≤ 90 then c.toNat + 32 else c.toNat := by
  have hup : (c.val ≥ 'A'.val ∧ c.val ≤ 'Z'.val) ↔ 65 ≤ c.toNat ∧ c.toNat ≤ 90 := Iff.rfl
  by_cases h : c.val ≥ 'A'.val ∧ c.val ≤ 'Z'.val
  · have h90 := (hup.mp h).2
    have hlower : c.toLower.toNat = (c.val + 32).toNat := congrArg Char.toNat (dif_pos h)
    rw [hlower, if_pos (hup.mp h), UInt32.toNat_add]
    change (c.toNat + 32) % 2 ^ 32 = _
    omega
  · have hlower : c.toLower = c := dif_neg h
    rw [hlower, if_neg fun hc => h (hup.mpr hc)]

theorem toLower_toLower (c : Char) : c.toLower.toLower = c.toLower := by
  refine Char.toNat_inj.mp ?_
  rw [toNat_toLower c.toLower, toNat_toLower c]
  grind

theorem toLower_eq_newline {c : Char} (h : c.toLower = '\n') : c = '\n' := by
  refine Char.toNat_inj.mp ?_
  have hn := congrArg Char.toNat h
  rw [toNat_toLower] at hn
  have hten : '\n'.toNat = 10 := rfl
  grind

theorem asciiLower_asciiLower (s : String) : asciiLower (asciiLower s) = asciiLower s := by
  rw [asciiLower, asciiLower, String.toList_ofList, List.map_map]
  exact congrArg String.ofList (List.map_congr_left fun c _ => toLower_toLower c)

theorem getLast?_asciiLower {s : String} (h : (asciiLower s).toList.getLast? = some '\n') :
    s.toList.getLast? = some '\n' := by
  rw [asciiLower, String.toList_ofList, List.getLast?_map, Option.map_eq_some_iff] at h
  obtain ⟨c, hc, hlow⟩ := h
  rw [hc, toLower_eq_newline hlow]

/-- The characters `re.escape` puts a backslash in front of. -/
def special : List Char := "()[]\x7b\x7d?*+-|^$\\.&~# \t\n\r\u000b\u000c".toList

/-- `re.escape(text)`. -/
def reEscape (t : List Char) : List Char :=
  t.flatMap fun c => if c ∈ special then ['\\', c] else [c]

/-- `p in text`. -/
def contains (p t : List Char) : Bool := t.tails.any fun s => p.isPrefixOf s

theorem contains_iff {p t : List Char} : contains p t = true ↔ p <:+: t := by
  rw [contains, List.any_eq_true]
  constructor
  · rintro ⟨s, hs, hp⟩
    exact (List.isPrefixOf_iff_prefix.mp hp).isInfix.trans ((List.mem_tails s t).mp hs).isInfix
  · rintro ⟨a, b, rfl⟩
    exact ⟨p ++ b, (List.mem_tails _ _).mpr ⟨a, by simp⟩,
      List.isPrefixOf_iff_prefix.mpr (List.prefix_append p b)⟩

/-! ### Words -/

def wordsFrom (cur : List Char) : List Char → List (List Char)
  | [] => if cur = [] then [] else [cur]
  | c :: t =>
    if isSpace c then
      if cur = [] then wordsFrom [] t else cur :: wordsFrom [] t
    else wordsFrom (cur ++ [c]) t

/-- `text.split()`. -/
def words (t : List Char) : List (List Char) := wordsFrom [] t

/-- `" ".join(ws)`. -/
def joinWords (ws : List (List Char)) : List Char := [' '].intercalate ws

/-- `text.strip()`. -/
def strip (t : List Char) : List Char :=
  (((t.dropWhile isSpace).reverse).dropWhile isSpace).reverse

/-- `text.removeprefix(p)`. -/
def removePrefix (p t : List Char) : List Char := if p.isPrefixOf t then t.drop p.length else t

/-- What follows `p` in a text that starts with it. -/
def afterPrefix (p t : List Char) : Option (List Char) :=
  if p.isPrefixOf t then some (t.drop p.length) else none

/-- What follows the last occurrence of `sep`, if it occurs. -/
def afterLast (sep t : List Char) : Option (List Char) :=
  (t.tails.filter sep.isPrefixOf).getLast?.map (·.drop sep.length)

/-- What follows the last separator of a tail, or of the text itself. -/
theorem afterLast_cons (sep : List Char) (c : Char) (t : List Char) :
    afterLast sep (c :: t) = (afterLast sep t).or
      (if sep.isPrefixOf (c :: t) then some ((c :: t).drop sep.length) else none) := by
  rw [afterLast, afterLast, List.tails, List.filter_cons]
  by_cases h : sep.isPrefixOf (c :: t)
  · rw [if_pos h, if_pos h, List.getLast?_cons]
    cases (t.tails.filter sep.isPrefixOf).getLast? <;> rfl
  · rw [if_neg h, if_neg h, Option.or_none]

theorem getLast?_strip {t : List Char} {c : Char} (h : (strip t).getLast? = some c) :
    isSpace c = false := by
  rw [strip, List.getLast?_reverse] at h
  have hnot := List.head?_dropWhile_not isSpace ((t.dropWhile isSpace).reverse)
  rw [h] at hnot
  simpa using hnot

theorem isWord_of_mem_wordsFrom {cur t w : List Char} (hcur : ∀ c ∈ cur, isSpace c = false)
    (h : w ∈ wordsFrom cur t) : IsWord w := by
  induction t generalizing cur with
  | nil =>
    rw [wordsFrom] at h
    by_cases hc : cur = []
    · simp [hc] at h
    · rw [if_neg hc, List.mem_singleton] at h
      exact h ▸ ⟨hc, hcur⟩
  | cons c t ih =>
    rw [wordsFrom] at h
    by_cases hs : isSpace c = true
    · rw [if_pos hs] at h
      by_cases hc : cur = []
      · rw [if_pos hc] at h
        exact ih (by simp) h
      · rw [if_neg hc, List.mem_cons] at h
        rcases h with rfl | h
        · exact ⟨hc, hcur⟩
        · exact ih (by simp) h
    · rw [if_neg hs] at h
      refine ih ?_ h
      intro x hx
      rcases List.mem_append.mp hx with hx | hx
      · exact hcur x hx
      · rw [List.mem_singleton.mp hx]
        simpa using hs

theorem isWord_of_mem_words {t w : List Char} (h : w ∈ words t) : IsWord w :=
  isWord_of_mem_wordsFrom (by simp) h

@[simp] theorem joinWords_nil : joinWords [] = [] := rfl

@[simp] theorem joinWords_singleton (w : List Char) : joinWords [w] = w := by
  simp [joinWords, List.intercalate]

theorem joinWords_cons {w : List Char} {ws : List (List Char)} (h : ws ≠ []) :
    joinWords (w :: ws) = w ++ ' ' :: joinWords ws := by
  cases ws with
  | nil => exact absurd rfl h
  | cons v vs => simp [joinWords, List.intercalate]

theorem joinWords_append {ws vs : List (List Char)} (hw : ws ≠ []) (hv : vs ≠ []) :
    joinWords (ws ++ vs) = joinWords ws ++ ' ' :: joinWords vs := by
  induction ws with
  | nil => exact absurd rfl hw
  | cons w ws ih =>
    by_cases hws : ws = []
    · subst hws
      rw [List.singleton_append, joinWords_cons hv, joinWords_singleton]
    · rw [List.cons_append, joinWords_cons (by simp [hws]), ih hws, joinWords_cons hws]
      simp

/-- Nothing, or something that starts with whitespace: where a word has ended. -/
def Ended (t : List Char) : Prop := ∀ c, t.head? = some c → isSpace c = true

theorem ended_nil : Ended [] := by
  intro c h
  simp at h

theorem ended_space (t : List Char) : Ended (' ' :: t) := by
  intro c h
  obtain rfl : ' ' = c := by simpa using h
  decide

theorem takeWhile_word {w t : List Char} (hw : ∀ c ∈ w, isSpace c = false) (ht : Ended t) :
    (w ++ t).takeWhile (fun c => !isSpace c) = w := by
  induction w with
  | nil =>
    cases t with
    | nil => rfl
    | cons c t => simp [ht c rfl]
  | cons c w ih =>
    have hc := hw c (by simp)
    simp [hc, ih (fun x hx => hw x (by simp [hx]))]

theorem dropWhile_word {w t : List Char} (hw : ∀ c ∈ w, isSpace c = false) (ht : Ended t) :
    (w ++ t).dropWhile (fun c => !isSpace c) = t := by
  induction w with
  | nil =>
    cases t with
    | nil => rfl
    | cons c t => simp [ht c rfl]
  | cons c w ih =>
    have hc := hw c (by simp)
    simp [hc, ih (fun x hx => hw x (by simp [hx]))]

theorem dropWhile_space_word {w t : List Char} (hw : IsWord w) :
    (w ++ t).dropWhile isSpace = w ++ t := by
  cases w with
  | nil => exact absurd rfl hw.1
  | cons c w => simp [hw.2 c (by simp)]

/-- A single-spaced text starts with the first of its words. -/
theorem joinWords_eq_append {w : List Char} (ws : List (List Char)) :
    ∃ t, joinWords (w :: ws) = w ++ t ∧ Ended t := by
  by_cases hws : ws = []
  · subst hws
    exact ⟨[], by simp, ended_nil⟩
  · exact ⟨' ' :: joinWords ws, joinWords_cons hws, ended_space _⟩

/-- A single-spaced text ends with the last of its words. -/
theorem joinWords_concat {w : List Char} (ws : List (List Char)) :
    ∃ t, joinWords (ws ++ [w]) = t ++ w := by
  by_cases hws : ws = []
  · subst hws
    exact ⟨[], by simp⟩
  · exact ⟨joinWords ws ++ [' '], by rw [joinWords_append hws (by simp)]; simp⟩

theorem dropWhile_space_joinWords {ws : List (List Char)} (h : ∀ w ∈ ws, IsWord w)
    (t : List Char) (hne : ws ≠ []) :
    (joinWords ws ++ t).dropWhile isSpace = joinWords ws ++ t := by
  cases ws with
  | nil => exact absurd rfl hne
  | cons w ws =>
    obtain ⟨u, hu, _⟩ := joinWords_eq_append (w := w) ws
    rw [hu, List.append_assoc]
    exact dropWhile_space_word (h w (by simp))

theorem strip_joinWords {ws : List (List Char)} (h : ∀ w ∈ ws, IsWord w) :
    strip (joinWords ws) = joinWords ws := by
  rcases List.eq_nil_or_concat ws with rfl | ⟨vs, w, rfl⟩
  · rfl
  · rw [List.concat_eq_append] at h ⊢
    have hfront := dropWhile_space_joinWords h [] (by simp)
    rw [List.append_nil] at hfront
    rw [strip, hfront]
    obtain ⟨u, hu⟩ := joinWords_concat (w := w) vs
    rw [hu, List.reverse_append]
    have hw : IsWord w.reverse := ⟨by simpa using (h w (by simp)).1,
      fun c hc => (h w (by simp)).2 c (List.mem_reverse.mp hc)⟩
    rw [dropWhile_space_word hw, List.reverse_append, List.reverse_reverse, List.reverse_reverse]

theorem joinWords_ne_nil {ws : List (List Char)} (h : ∀ w ∈ ws, IsWord w) (hne : ws ≠ []) :
    joinWords ws ≠ [] := by
  cases ws with
  | nil => exact absurd rfl hne
  | cons w ws =>
    obtain ⟨u, hu, _⟩ := joinWords_eq_append (w := w) ws
    rw [hu]
    simp [(h w (by simp)).1]

theorem removePrefix_append (p t : List Char) : removePrefix p (p ++ t) = t := by
  rw [removePrefix, if_pos (by rw [List.isPrefixOf_iff_prefix]; exact List.prefix_append p t)]
  simp

/-- Whether a single-spaced text starts with the words `ps` and one more word. -/
theorem isPrefixOf_joinWords {p : List Char} {ws : List (List Char)} (hp : IsWord p)
    (h : ∀ w ∈ ws, IsWord w) :
    (p ++ [' ']).isPrefixOf (joinWords ws) = true ↔ ∃ vs, vs ≠ [] ∧ ws = p :: vs := by
  rw [List.isPrefixOf_iff_prefix]
  constructor
  · rintro ⟨t, ht⟩
    cases ws with
    | nil => simp at ht
    | cons w ws =>
      obtain ⟨u, hu, hended⟩ := joinWords_eq_append (w := w) ws
      have htake := congrArg (List.takeWhile (fun c => !isSpace c)) (ht.trans hu)
      rw [List.append_assoc, List.singleton_append, takeWhile_word hp.2 (ended_space t),
        takeWhile_word (h w (by simp)).2 hended] at htake
      subst htake
      refine ⟨ws, ?_, rfl⟩
      rintro rfl
      simp [joinWords, List.intercalate] at ht
  · rintro ⟨vs, hvs, rfl⟩
    exact ⟨joinWords vs, by rw [joinWords_cons hvs]; simp⟩

/-! ### Splitting at a word -/

/-- What follows a match of `\s+sep\s+` at the start of a text: the run of characters after the
leading whitespace is `sep`, and whitespace follows it. -/
@[irreducible] def afterSep (sep t : List Char) : Option (List Char) :=
  let u := t.dropWhile isSpace
  let rest := u.dropWhile (fun c => !isSpace c)
  if u.length < t.length ∧ u.takeWhile (fun c => !isSpace c) = sep ∧ rest ≠ [] then
    some (rest.dropWhile isSpace)
  else none

def reSplitFrom (sep : List Char) : ℕ → List Char → List Char → List (List Char)
  | 0, cur, t => [cur ++ t]
  | _ + 1, cur, [] => [cur]
  | n + 1, cur, c :: t =>
    match afterSep sep (c :: t) with
    | some rest => cur :: reSplitFrom sep n [] rest
    | none => reSplitFrom sep n (cur ++ [c]) t

/-- `re.split(r"\s+sep\s+", text)`; every step uses up a character, so the length is fuel
enough. -/
def reSplit (sep t : List Char) : List (List Char) := reSplitFrom sep t.length [] t

theorem reSplitFrom_nil (sep : List Char) (n : ℕ) (cur : List Char) :
    reSplitFrom sep n cur [] = [cur] := by
  cases n with
  | zero => simp [reSplitFrom]
  | succ n => rfl

theorem reSplitFrom_skip {sep : List Char} {n : ℕ} {cur t : List Char} {c : Char}
    (h : afterSep sep (c :: t) = none) :
    reSplitFrom sep (n + 1) cur (c :: t) = reSplitFrom sep n (cur ++ [c]) t := by
  simp only [reSplitFrom, h]

theorem afterSep_of_not_space {sep t : List Char} {c : Char} (h : isSpace c = false) :
    afterSep sep (c :: t) = none := by
  simp [afterSep, h]

/-- No match starts inside a word. -/
theorem reSplitFrom_word {sep w : List Char} (hw : ∀ c ∈ w, isSpace c = false) (n : ℕ)
    (cur t : List Char) :
    reSplitFrom sep (w.length + n) cur (w ++ t) = reSplitFrom sep n (cur ++ w) t := by
  induction w generalizing cur with
  | nil => simp
  | cons c w ih =>
    have hc : isSpace c = false := hw c (by simp)
    rw [List.length_cons, Nat.add_right_comm, List.cons_append,
      reSplitFrom_skip (afterSep_of_not_space hc), ih (fun x hx => hw x (by simp [hx]))]
    simp

theorem afterSep_space_word {sep w t : List Char} (hw : IsWord w) (ht : Ended t) :
    afterSep sep (' ' :: (w ++ t)) =
      if w = sep ∧ t ≠ [] then some (t.dropWhile isSpace) else none := by
  have hdrop : (' ' :: (w ++ t)).dropWhile isSpace = w ++ t := by
    rw [List.dropWhile_cons_of_pos (by decide)]
    exact dropWhile_space_word hw
  simp only [afterSep, hdrop, takeWhile_word hw.2 ht, dropWhile_word hw.2 ht, List.length_cons,
    Nat.lt_succ_self, true_and]

/-- No match starts before the end of words none of which is the separator. -/
theorem reSplitFrom_joinWords {sep : List Char} {ws : List (List Char)}
    (h : ∀ w ∈ ws, IsWord w ∧ w ≠ sep) (n : ℕ) (cur t : List Char) (ht : Ended t) :
    reSplitFrom sep ((joinWords ws).length + n) cur (joinWords ws ++ t) =
      reSplitFrom sep n (cur ++ joinWords ws) t := by
  induction ws generalizing cur with
  | nil => simp
  | cons w ws ih =>
    have hw := h w (by simp)
    cases ws with
    | nil =>
      rw [joinWords_singleton]
      exact reSplitFrom_word hw.1.2 n cur t
    | cons v vs =>
      have hv := h v (by simp)
      obtain ⟨u, hu, hended⟩ := joinWords_eq_append (w := v) vs
      have hspace : afterSep sep (' ' :: (joinWords (v :: vs) ++ t)) = none := by
        have hut : Ended (u ++ t) := by
          cases u with
          | nil => exact ht
          | cons c u => exact hended
        rw [hu, List.append_assoc, afterSep_space_word hv.1 hut, if_neg (fun hc => hv.2 hc.1)]
      have hlen : (joinWords (w :: v :: vs)).length + n =
          w.length + (((joinWords (v :: vs)).length + n) + 1) := by
        rw [joinWords_cons (List.cons_ne_nil v vs), List.length_append,
          List.length_cons]
        omega
      rw [hlen, joinWords_cons (List.cons_ne_nil v vs), List.append_assoc,
        List.cons_append, reSplitFrom_word hw.1.2, reSplitFrom_skip hspace,
        ih (fun x hx => h x (by simp [hx]))]
      simp

theorem reSplitFrom_sep {sep : List Char} (hsep : IsWord sep) (n : ℕ) (cur t : List Char) :
    reSplitFrom sep (n + 1) cur (' ' :: (sep ++ ' ' :: t)) =
      cur :: reSplitFrom sep n [] (t.dropWhile isSpace) := by
  have h : afterSep sep (' ' :: (sep ++ ' ' :: t)) = some (t.dropWhile isSpace) := by
    rw [afterSep_space_word hsep (ended_space t), if_pos ⟨rfl, by simp⟩,
      List.dropWhile_cons_of_pos (by decide)]
  simp only [reSplitFrom, h]

theorem mem_of_mem_intercalate {α : Type*} {sep : List α} {xs : List (List α)} {a : α}
    (h : a ∈ sep.intercalate xs) : a ∈ sep ∨ ∃ x ∈ xs, a ∈ x := by
  induction xs with
  | nil => simp [List.intercalate] at h
  | cons x xs ih =>
    cases xs with
    | nil => exact Or.inr ⟨x, by simp, by simpa [List.intercalate] using h⟩
    | cons y ys =>
      have h' : a ∈ x ∨ a ∈ sep ∨ a ∈ sep.intercalate (y :: ys) := by
        simpa [List.intercalate] using h
      rcases h' with h' | h' | h'
      · exact Or.inr ⟨x, by simp, h'⟩
      · exact Or.inl h'
      · rcases ih h' with h' | ⟨z, hz, hza⟩
        · exact Or.inl h'
        · exact Or.inr ⟨z, List.mem_cons_of_mem x hz, hza⟩

theorem reSplitFrom_pieces {sep : List Char} (hsep : IsWord sep)
    {pieces : List (List (List Char))} (hne : pieces ≠ [])
    (h : ∀ p ∈ pieces, p ≠ [] ∧ ∀ w ∈ p, IsWord w ∧ w ≠ sep) (n : ℕ)
    (hn : (joinWords ([sep].intercalate pieces)).length ≤ n) :
    reSplitFrom sep n [] (joinWords ([sep].intercalate pieces)) = pieces.map joinWords := by
  induction pieces generalizing n with
  | nil => exact absurd rfl hne
  | cons p pieces ih =>
    have hp := h p (by simp)
    cases pieces with
    | nil =>
      obtain ⟨k, rfl⟩ := Nat.exists_eq_add_of_le hn
      have hskip := reSplitFrom_joinWords hp.2 k [] [] ended_nil
      simp only [List.append_nil, List.nil_append] at hskip
      simp [List.intercalate, hskip, reSplitFrom_nil]
    | cons q pieces =>
      have hq := h q (by simp)
      have hrest : [sep].intercalate (q :: pieces) ≠ [] := by
        cases pieces <;> simp [List.intercalate, hq.1]
      have hwords : ∀ w ∈ [sep].intercalate (q :: pieces), IsWord w := by
        intro w hw
        rcases mem_of_mem_intercalate hw with hw | ⟨r, hr, hwr⟩
        · exact List.mem_singleton.mp hw ▸ hsep
        · exact ((h r (List.mem_cons_of_mem p hr)).2 w hwr).1
      have hcut : joinWords ([sep].intercalate (p :: q :: pieces)) =
          joinWords p ++ ' ' :: (sep ++ ' ' :: joinWords ([sep].intercalate (q :: pieces))) := by
        have : [sep].intercalate (p :: q :: pieces) =
            p ++ sep :: [sep].intercalate (q :: pieces) := by simp [List.intercalate]
        rw [this, joinWords_append hp.1 (by simp), joinWords_cons hrest]
      rw [hcut] at hn ⊢
      have hfuel : (joinWords p).length + 1 ≤ n := by
        rw [List.length_append, List.length_cons] at hn
        omega
      obtain ⟨k, rfl⟩ := Nat.exists_eq_add_of_le hfuel
      have hskip := reSplitFrom_joinWords hp.2 (k + 1) []
        (' ' :: (sep ++ ' ' :: joinWords ([sep].intercalate (q :: pieces)))) (ended_space _)
      rw [show (joinWords p).length + 1 + k = (joinWords p).length + (k + 1) by omega, hskip,
        reSplitFrom_sep hsep]
      have hfront := dropWhile_space_joinWords hwords [] hrest
      rw [List.append_nil] at hfront
      rw [hfront, ih (by simp) (fun r hr => h r (List.mem_cons_of_mem p hr)) k]
      · simp
      · simp only [List.length_append, List.length_cons] at hn
        omega

/-- **Splitting single-spaced text at a word** cuts the list of its words there. -/
theorem reSplit_joinWords {sep : List Char} (hsep : IsWord sep)
    {pieces : List (List (List Char))} (hne : pieces ≠ [])
    (h : ∀ p ∈ pieces, p ≠ [] ∧ ∀ w ∈ p, IsWord w ∧ w ≠ sep) :
    reSplit sep (joinWords ([sep].intercalate pieces)) = pieces.map joinWords :=
  reSplitFrom_pieces hsep hne h _ (Nat.le_refl _)

/-! ### Parentheses -/

def isParen (c : Char) : Bool := c == '(' || c == ')'

/-- `text.replace("(", " ").replace(")", " ")`. -/
def blankParens (t : List Char) : List Char := t.map fun c => if isParen c then ' ' else c

/-- The words and the parentheses of a text. -/
def lex (t : List Char) : List (List Char) :=
  words (t.flatMap fun c => if isParen c then [' ', c, ' '] else [c])

/-- A token that is not a parenthesis. -/
def notParen (w : List Char) : Bool := w != ['('] && w != [')']

theorem not_space_of_isParen {c : Char} (h : isParen c = true) : isSpace c = false := by
  rw [isParen, Bool.or_eq_true, beq_iff_eq, beq_iff_eq] at h
  rcases h with rfl | rfl <;> decide

theorem notParen_of_no_parens {w : List Char} (h : ∀ c ∈ w, isParen c = false) :
    notParen w = true := by
  rw [notParen, Bool.and_eq_true, bne_iff_ne, bne_iff_ne]
  constructor
  · rintro rfl
    exact absurd (h '(' (by simp)) (by decide)
  · rintro rfl
    exact absurd (h ')' (by simp)) (by decide)

theorem wordsFrom_blankParens (t cur : List Char) (hcur : ∀ c ∈ cur, isParen c = false) :
    (wordsFrom cur (t.flatMap fun c => if isParen c then [' ', c, ' '] else [c])).filter notParen =
      wordsFrom cur (blankParens t) := by
  have hspace : isSpace ' ' = true := by decide
  induction t generalizing cur with
  | nil =>
    by_cases hc : cur = []
    · simp [wordsFrom, blankParens, hc]
    · simp [wordsFrom, blankParens, hc, notParen_of_no_parens hcur]
  | cons c t ih =>
    have hnil := ih [] (by simp)
    rw [blankParens] at ih hnil ⊢
    by_cases hp : isParen c = true
    · -- the parenthesis is a token of its own, and the filter drops it
      have hdrop : notParen [c] = false := by
        rw [isParen, Bool.or_eq_true, beq_iff_eq, beq_iff_eq] at hp
        rcases hp with rfl | rfl <;> decide
      have hns := not_space_of_isParen hp
      by_cases hc : cur = []
      · simp [wordsFrom, hp, hspace, hns, hc, hdrop, hnil]
      · simp [wordsFrom, hp, hspace, hns, hc, hdrop, hnil, notParen_of_no_parens hcur]
    · by_cases hs : isSpace c = true
      · by_cases hc : cur = []
        · simp [wordsFrom, hp, hs, hc, hnil]
        · simp [wordsFrom, hp, hs, hc, hnil, notParen_of_no_parens hcur]
      · have hcur' : ∀ x ∈ cur ++ [c], isParen x = false := by
          intro x hx
          rcases List.mem_append.mp hx with hx | hx
          · exact hcur x hx
          · rw [List.mem_singleton.mp hx]
            simpa using hp
        simpa [wordsFrom, hp, hs] using ih (cur ++ [c]) hcur'

theorem words_blankParens (t : List Char) :
    words (blankParens t) = (lex t).filter notParen :=
  (wordsFrom_blankParens t [] (by simp)).symm

end Text
