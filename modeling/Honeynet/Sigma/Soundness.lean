import Honeynet.Sigma.Condition

/-!
# What the selection plans say about a condition

* `Cond.ReadsFlat`: the truth of the flat text, in which a positive term leaves out the
  selections named after a filter and a negated one must name exactly one selection.
* `exists_accepting_iff`: a valuation is accepted by some plan iff the flat text is true in it.
* `plansSound_iff`: so the plans are sound iff the flat text implies the condition.
* `weakened_group`: they are not for a conjunction with a parenthesised disjunction.
-/

namespace Honeynet.Sigma

open Collections Text

/-! ### Reading one term -/

/-- The selections called by what follows a first `not`. -/
def Literal.refused (names : List (List Char)) (nots : ℕ) (a : Atom) : List (List Char) :=
  match nots with
  | 0 => a.selects names
  | nots + 1 =>
    -- a second `not` is taken for the start of a name
    let text := joinWords ("not".toList :: (List.replicate nots "not".toList ++ a.words))
    if text.getLast? = some '*' then names.filter fun name => text.dropLast.isPrefixOf name
    else if text ∈ names then [text] else []

/-- The selections of a positive term that are not named after a filter. -/
def Atom.offered (names : List (List Char)) (a : Atom) : List (List Char) :=
  (a.selects names).filter fun name => !isFilterName name

/-- The truth of a term of the flat text. -/
def Literal.Reads (selections : Selections) (truth : Value → Prop) : Literal → Prop
  | ⟨0, .oneOf stem⟩ =>
    ∃ name ∈ (Atom.oneOf stem).offered (selections.map Prod.fst), selections.True truth name
  | ⟨0, a⟩ => ∀ name ∈ a.offered (selections.map Prod.fst), selections.True truth name
  | ⟨nots + 1, a⟩ =>
    ∃ name, Literal.refused (selections.map Prod.fst) nots a = [name] ∧ ¬ selections.True truth name

/-- A positive term that names some selection. -/
def Literal.Names (selections : Selections) (l : Literal) : Prop :=
  l.nots = 0 ∧ l.atom.offered (selections.map Prod.fst) ≠ []

/-- The truth of a branch: all of its terms, one of which asks for a selection. -/
def BranchReads (selections : Selections) (truth : Value → Prop) (b : List Literal) : Prop :=
  (∀ l ∈ b, l.Reads selections truth) ∧ ∃ l ∈ b, l.Names selections

/-- The truth of the flat text of a condition. -/
def Cond.ReadsFlat (selections : Selections) (truth : Value → Prop) (c : Cond) : Prop :=
  ∃ b ∈ c.branches, BranchReads selections truth b

section Reading

variable {selections : Selections} {truth : Value → Prop}

theorem not_prefix_of_head {p w : List Char} {ws : List (List Char)} (hp : IsWord p)
    (h : ∀ v ∈ w :: ws, IsWord v) (hne : w ≠ p) (t : List Char) :
    (p ++ ' ' :: t).isPrefixOf (joinWords (w :: ws)) = false := by
  rw [Bool.eq_false_iff]
  intro hpre
  rw [ne_eq, List.isPrefixOf_iff_prefix] at *
  have hshort : (p ++ [' ']).isPrefixOf (joinWords (w :: ws)) = true := by
    rw [List.isPrefixOf_iff_prefix]
    exact List.IsPrefix.trans ⟨t, by simp⟩ hpre
  obtain ⟨vs, _, hvs⟩ := (isPrefixOf_joinWords hp h).mp hshort
  exact hne (List.cons.inj hvs).1

/-- A text that starts with neither `all of` nor `1 of` is looked up as it is. -/
theorem selectionNamesForTerm_plain {w : List Char} {ws : List (List Char)}
    (h : ∀ v ∈ w :: ws, IsWord v) (hall : ws ≠ [] → w ≠ "all".toList)
    (hone : ws ≠ [] → w ≠ "1".toList) (includeFilters : Bool) :
    selectionNamesForTerm (joinWords (w :: ws)) selections includeFilters =
      selectionNamesForPattern (joinWords (w :: ws)) selections includeFilters := by
  have hplain : ∀ p t : List Char, IsWord p → (ws ≠ [] → w ≠ p) →
      (p ++ ' ' :: t).isPrefixOf (joinWords (w :: ws)) = false := by
    intro p t hp hne
    by_cases hws : ws = []
    · -- a single word has no space
      subst hws
      rw [Bool.eq_false_iff]
      intro hpre
      rw [ne_eq, List.isPrefixOf_iff_prefix] at *
      have hsp : ' ' ∈ w := by
        have hm : ' ' ∈ joinWords [w] := hpre.subset (by simp)
        rwa [joinWords_singleton] at hm
      exact absurd ((h w (by simp)).2 ' ' hsp) (by decide)
    · exact not_prefix_of_head hp h (hne hws) t
  rw [selectionNamesForTerm, if_neg, if_neg]
  · rw [Bool.not_eq_true]
    exact hplain "1".toList "of ".toList (by decide) hone
  · rw [Bool.not_eq_true]
    exact hplain "all".toList "of ".toList (by decide) hall

/-- Looking up the text of an atom, without or with the filters. -/
theorem selectionNamesForPattern_name {n : List Char} (hthem : n ≠ "them".toList)
    (hstar : n.getLast? ≠ some '*') (includeFilters : Bool) :
    selectionNamesForPattern n selections includeFilters =
      if includeFilters then (Atom.name n).selects (selections.map Prod.fst)
      else (Atom.name n).offered (selections.map Prod.fst) := by
  cases includeFilters with
  | true =>
    rw [selectionNamesForPattern, if_neg hthem, if_neg hstar]
    simp only [if_true, true_or, and_true, Atom.selects]
  | false =>
    rw [selectionNamesForPattern, if_neg hthem, if_neg hstar]
    by_cases hn : n ∈ selections.map Prod.fst
    · by_cases hf : isFilterName n = true
      · simp [hf, Atom.offered, Atom.selects, hn]
      · have hf' : isFilterName n = false := by simpa using hf
        rw [if_pos ⟨List.mem_filter.mpr ⟨hn, by simp [hf']⟩, Or.inr hf'⟩]
        simp [hf', Atom.offered, Atom.selects, hn]
    · rw [if_neg (fun hc => hn (List.mem_of_mem_filter hc.1))]
      simp [Atom.offered, Atom.selects, hn]

theorem selectionNamesForPattern_stem (stem : List Char) (includeFilters : Bool) :
    selectionNamesForPattern (stem ++ ['*']) selections includeFilters =
      if includeFilters then (selections.map Prod.fst).filter fun name => stem.isPrefixOf name
      else ((selections.map Prod.fst).filter fun name => stem.isPrefixOf name).filter
        fun name => !isFilterName name := by
  have hthem : stem ++ ['*'] ≠ "them".toList := pattern_ne (by decide)
  cases includeFilters with
  | true =>
    rw [selectionNamesForPattern, if_neg hthem, if_pos (by simp)]
    simp
  | false =>
    rw [selectionNamesForPattern, if_neg hthem, if_pos (by simp)]
    simp [List.filter_filter, Bool.and_comm]

/-- The two-word prefix of `1 of stem*` and `all of stem*` is cut off. -/
theorem selectionNamesForTerm_oneOf {stem : List Char}
    (h : ∀ c ∈ stem, isSpace c = false ∧ isParen c = false) (includeFilters : Bool) :
    selectionNamesForTerm (joinWords (Atom.oneOf stem).words) selections includeFilters =
      selectionNamesForPattern (stem ++ ['*']) selections includeFilters := by
  have hstrip : strip (stem ++ ['*']) = stem ++ ['*'] := by
    have hjoined : strip (joinWords [stem ++ ['*']]) = joinWords [stem ++ ['*']] :=
      strip_joinWords (by simpa using (isWord_pattern h).1)
    simpa using hjoined
  have htext : joinWords (Atom.oneOf stem).words = "1 of ".toList ++ (stem ++ ['*']) := by
    simp [Atom.words, joinWords, List.intercalate]
  have hall : ¬ "all of ".toList.isPrefixOf (joinWords (Atom.oneOf stem).words) = true := by
    rw [htext]
    simp
  rw [selectionNamesForTerm, if_neg hall, htext, if_pos (by simp), removePrefix_append, hstrip]

theorem selectionNamesForTerm_allOf {stem : List Char}
    (h : ∀ c ∈ stem, isSpace c = false ∧ isParen c = false) (includeFilters : Bool) :
    selectionNamesForTerm (joinWords (Atom.allOf stem).words) selections includeFilters =
      selectionNamesForPattern (stem ++ ['*']) selections includeFilters := by
  have hstrip : strip (stem ++ ['*']) = stem ++ ['*'] := by
    have hjoined : strip (joinWords [stem ++ ['*']]) = joinWords [stem ++ ['*']] :=
      strip_joinWords (by simpa using (isWord_pattern h).1)
    simpa using hjoined
  have htext : joinWords (Atom.allOf stem).words = "all of ".toList ++ (stem ++ ['*']) := by
    simp [Atom.words, joinWords, List.intercalate]
  rw [selectionNamesForTerm, htext, if_pos (by simp), removePrefix_append, hstrip]

/-- What an atom's own text is looked up as. -/
theorem selectionNamesForTerm_atom {a : Atom} (h : a.Lexical) (includeFilters : Bool) :
    selectionNamesForTerm (joinWords a.words) selections includeFilters =
      if includeFilters then a.selects (selections.map Prod.fst)
      else a.offered (selections.map Prod.fst) := by
  cases a with
  | name n =>
    obtain ⟨hword, _, hres, hstar⟩ := h
    have hthem : n ≠ "them".toList := by
      rintro rfl
      exact hres (by decide)
    have hplain : selectionNamesForTerm (joinWords [n]) selections includeFilters =
        selectionNamesForPattern (joinWords [n]) selections includeFilters :=
      selectionNamesForTerm_plain (by simpa using hword) (by simp) (by simp) includeFilters
    rw [joinWords_singleton] at hplain
    rw [Atom.words, joinWords_singleton, hplain, selectionNamesForPattern_name hthem hstar]
  | oneOf stem => rw [selectionNamesForTerm_oneOf h, selectionNamesForPattern_stem]; rfl
  | allOf stem => rw [selectionNamesForTerm_allOf h, selectionNamesForPattern_stem]; rfl

/-- What follows a first `not` is looked up as. -/
theorem selectionNamesForTerm_refused {a : Atom} (h : a.Lexical) (nots : ℕ) :
    selectionNamesForTerm (joinWords (List.replicate nots "not".toList ++ a.words))
        selections true =
      Literal.refused (selections.map Prod.fst) nots a := by
  cases nots with
  | zero =>
    rw [List.replicate_zero, List.nil_append, selectionNamesForTerm_atom h true]
    rfl
  | succ nots =>
    have hwords : ∀ v ∈ "not".toList :: (List.replicate nots "not".toList ++ a.words),
        IsWord v := by
      intro v hv
      rcases List.mem_cons.mp hv with rfl | hv
      · decide
      · rcases List.mem_append.mp hv with hv | hv
        · rw [List.eq_of_mem_replicate hv]
          decide
        · exact (h.words v hv).1
    have hrest : List.replicate nots "not".toList ++ a.words ≠ [] := by
      cases a <;> simp [Atom.words]
    have hplain := @selectionNamesForTerm_plain selections _ _ hwords
      (fun _ => by decide) (fun _ => by decide) true
    have hsplit : List.replicate (nots + 1) "not".toList ++ a.words =
        "not".toList :: (List.replicate nots "not".toList ++ a.words) := by
      rw [List.replicate_succ, List.cons_append]
    have hthem : joinWords ("not".toList :: (List.replicate nots "not".toList ++ a.words)) ≠
        "them".toList := by
      intro he
      have hspace : ' ' ∈ "them".toList := by
        rw [← he, joinWords_cons hrest]
        simp
      exact absurd hspace (by decide)
    rw [hsplit, hplain, Literal.refused, selectionNamesForPattern, if_neg hthem]
    simp only [if_true, true_or, and_true]

/-! ### Reading a branch -/

/-- The options a positive term offers. -/
def Literal.options (selections : Selections) : Literal → List (List (List Char))
  | ⟨_, .oneOf stem⟩ =>
    ((Atom.oneOf stem).offered (selections.map Prod.fst)).map fun name => [name]
  | ⟨_, a⟩ => [a.offered (selections.map Prod.fst)]

theorem isWord_of_mem_literal {l : Literal} (h : l.atom.Lexical) :
    ∀ w ∈ l.words, IsWord w ∧ w ≠ "and".toList ∧ w ≠ "or".toList := by
  intro w hw
  rcases List.mem_append.mp hw with hw | hw
  · rw [List.eq_of_mem_replicate hw]
    exact ⟨by decide, by decide, by decide⟩
  · obtain ⟨hword, _, hand, hor, _⟩ := h.words w hw
    exact ⟨hword, hand, hor⟩

theorem literal_words_ne_nil (l : Literal) : l.words ≠ [] := by
  rw [Literal.words]
  cases l.atom <;> simp [Atom.words]

/-- A term behind a `not`. -/
theorem readTerm_negated {l : Literal} (h : l.atom.Lexical) {nots : ℕ} (hn : l.nots = nots + 1) :
    readTerm selections l.text =
      negativeReading (Literal.refused (selections.map Prod.fst) nots l.atom) := by
  have hwords : ∀ w ∈ l.words, IsWord w := fun w hw => (isWord_of_mem_literal h w hw).1
  have hrest : List.replicate nots "not".toList ++ l.atom.words ≠ [] := by
    cases l.atom <;> simp [Atom.words]
  have hcut : l.words = "not".toList :: (List.replicate nots "not".toList ++ l.atom.words) := by
    rw [Literal.words, hn, List.replicate_succ, List.cons_append]
  have htext : l.text =
      "not ".toList ++ joinWords (List.replicate nots "not".toList ++ l.atom.words) := by
    rw [Literal.text, hcut, joinWords_cons hrest]
    simp
  have hstrip : strip l.text = l.text := strip_joinWords hwords
  have hstrip' : strip (joinWords (List.replicate nots "not".toList ++ l.atom.words)) =
      joinWords (List.replicate nots "not".toList ++ l.atom.words) :=
    strip_joinWords fun w hw => hwords w (by rw [hcut]; exact List.mem_cons_of_mem _ hw)
  have hne : l.text ≠ [] := by
    rw [htext]
    simp
  have hpre : "not ".toList.isPrefixOf l.text = true := by
    rw [htext]
    simp
  simp only [readTerm, hstrip]
  rw [if_neg hne, if_pos hpre, htext, removePrefix_append, hstrip',
    selectionNamesForTerm_refused h]

/-- A term without a `not`. -/
theorem readTerm_positive {l : Literal} (h : l.atom.Lexical) (hn : l.nots = 0) :
    readTerm selections l.text = positiveReading (l.options selections) := by
  obtain ⟨nots, a⟩ := l
  obtain rfl : nots = 0 := hn
  have hwords : ∀ w ∈ a.words, IsWord w := fun w hw => (Atom.Lexical.words h w hw).1
  have htext : Literal.text ⟨0, a⟩ = joinWords a.words := by simp [Literal.text, Literal.words]
  have hstrip : strip (joinWords a.words) = joinWords a.words := strip_joinWords hwords
  have hne : joinWords a.words ≠ [] := joinWords_ne_nil hwords (by cases a <;> simp [Atom.words])
  have hnot : ¬ "not ".toList.isPrefixOf (joinWords a.words) = true := by
    intro hpre
    obtain ⟨vs, _, hvs⟩ := (isPrefixOf_joinWords (p := "not".toList) (by decide) hwords).mp hpre
    exact (Atom.Lexical.words h "not".toList (by rw [hvs]; simp)).2.2.2.2 rfl
  have hoptions : positiveNameOptionsForTerm (joinWords a.words) selections =
      Literal.options selections ⟨0, a⟩ := by
    cases a with
    | oneOf stem =>
      have hone : joinWords (Atom.oneOf stem).words = "1 of ".toList ++ (stem ++ ['*']) := by
        simp [Atom.words, joinWords, List.intercalate]
      have hpattern : strip (stem ++ ['*']) = stem ++ ['*'] := by
        have hjoined : strip (joinWords [stem ++ ['*']]) = joinWords [stem ++ ['*']] :=
          strip_joinWords (by simpa using (isWord_pattern h).1)
        simpa using hjoined
      have hplain : selectionNamesForTerm (joinWords [stem ++ ['*']]) selections false =
          selectionNamesForPattern (joinWords [stem ++ ['*']]) selections false :=
        selectionNamesForTerm_plain (by simpa using (isWord_pattern h).1) (by simp) (by simp) false
      rw [joinWords_singleton] at hplain
      rw [positiveNameOptionsForTerm, hone, if_pos (by simp), removePrefix_append, hpattern, hplain,
        selectionNamesForPattern_stem]
      rfl
    | name n =>
      have hone : ¬ "1 of ".toList.isPrefixOf (joinWords (Atom.name n).words) = true := by
        rw [List.isPrefixOf_iff_prefix]
        intro hpre
        have hsp : ' ' ∈ n := by
          have hm : ' ' ∈ joinWords (Atom.name n).words := hpre.subset (by decide)
          rwa [Atom.words, joinWords_singleton] at hm
        exact absurd (h.1.2 ' ' hsp) (by decide)
      rw [positiveNameOptionsForTerm, if_neg hone, selectionNamesForTerm_atom h]
      rfl
    | allOf stem =>
      have hone : ¬ "1 of ".toList.isPrefixOf (joinWords (Atom.allOf stem).words) = true := by
        simp [Atom.words, joinWords, List.intercalate]
      rw [positiveNameOptionsForTerm, if_neg hone, selectionNamesForTerm_atom h]
      rfl
  simp only [readTerm, htext, hstrip]
  rw [if_neg hne, if_neg hnot, hoptions]

/-- One of the options of a positive term is true iff the term is. -/
theorem reads_iff_options {l : Literal} (hn : l.nots = 0) :
    l.Reads selections truth ↔
      ∃ option ∈ l.options selections, ∀ name ∈ option, selections.True truth name := by
  obtain ⟨nots, a⟩ := l
  obtain rfl : nots = 0 := hn
  cases a with
  | name n => simp [Literal.Reads, Literal.options]
  | oneOf stem => simp [Literal.Reads, Literal.options]
  | allOf stem => simp [Literal.Reads, Literal.options]

/-- An option is empty iff its term names no selection. -/
theorem option_ne_nil_iff {l : Literal} (hn : l.nots = 0) {option : List (List Char)}
    (h : option ∈ l.options selections) : option ≠ [] ↔ l.Names selections := by
  obtain ⟨nots, a⟩ := l
  obtain rfl : nots = 0 := hn
  cases a with
  | name n =>
    obtain rfl := List.mem_singleton.mp h
    simp [Literal.Names]
  | oneOf stem =>
    obtain ⟨name, hname, rfl⟩ := List.mem_map.mp h
    simp only [Literal.Names, true_and]
    exact ⟨fun _ => List.ne_nil_of_mem hname, fun _ => by simp⟩
  | allOf stem =>
    obtain rfl := List.mem_singleton.mp h
    simp [Literal.Names]

variable (selections truth) in
/-- The terms of a branch are read, some choice of their options is true and no refused selection
is; `q` stands for the terms that were read before. -/
def TermsAccept (b : List Literal) (q : Prop) : Prop :=
  ∃ rs, readTerms selections (b.map Literal.text) = some rs ∧
    (∃ choice, List.Forall₂ (· ∈ ·) choice (positiveOptions rs) ∧
      (∀ option ∈ choice, ∀ name ∈ option, selections.True truth name) ∧
      (q ∨ ∃ option ∈ choice, option ≠ [])) ∧
    ∀ name ∈ negativeNames rs, ¬ selections.True truth name

theorem termsAccept_positive {l : Literal} (hl : l.atom.Lexical) (hn : l.nots = 0)
    (b : List Literal) (q : Prop) : TermsAccept selections truth (l :: b) q ↔
      l.Reads selections truth ∧ TermsAccept selections truth b (q ∨ l.Names selections) := by
  rw [TermsAccept, List.map_cons]
  constructor
  · rintro ⟨rs, hrs, ⟨choice, hchoice, htrue, hne⟩, hneg⟩
    rw [readTerms, readTerm_positive hl hn] at hrs
    cases hopt : l.options selections with
    | nil => simp [hopt, positiveReading] at hrs
    | cons option options =>
      simp only [hopt, positiveReading, Option.map_eq_some_iff] at hrs
      obtain ⟨rs', hrs', rfl⟩ := hrs
      rw [positiveOptions, ← hopt, List.forall₂_cons_right_iff] at hchoice
      obtain ⟨o, rest, ho, hrest, rfl⟩ := hchoice
      have hq : (q ∨ l.Names selections) ∨ ∃ option ∈ rest, option ≠ [] := by
        rcases hne with hq | ⟨o', ho', hne'⟩
        · exact Or.inl (Or.inl hq)
        · rcases List.mem_cons.mp ho' with rfl | ho'
          · exact Or.inl (Or.inr ((option_ne_nil_iff hn ho).mp hne'))
          · exact Or.inr ⟨o', ho', hne'⟩
      exact ⟨(reads_iff_options hn).mpr ⟨o, ho, htrue o List.mem_cons_self⟩, rs', hrs',
        ⟨rest, hrest, fun o' ho' => htrue o' (List.mem_cons_of_mem o ho'), hq⟩, hneg⟩
  · rintro ⟨hhead, rs, hrs, ⟨rest, hrest, hall, hne⟩, hneg⟩
    obtain ⟨o, ho, htrue⟩ := (reads_iff_options hn).mp hhead
    cases hopt : l.options selections with
    | nil => rw [hopt] at ho; exact absurd ho List.not_mem_nil
    | cons option options =>
      refine ⟨.positive (option :: options) :: rs, ?_, ⟨o :: rest, ?_, ?_, ?_⟩, hneg⟩
      · simp [readTerms, readTerm_positive hl hn, hopt, positiveReading, hrs]
      · rw [positiveOptions, ← hopt]
        exact List.Forall₂.cons ho hrest
      · exact List.forall_mem_cons.mpr ⟨htrue, hall⟩
      · rw [List.exists_mem_cons_iff, option_ne_nil_iff hn ho, ← or_assoc]
        exact hne

theorem termsAccept_negated {l : Literal} (hl : l.atom.Lexical) {nots : ℕ}
    (hn : l.nots = nots + 1) (b : List Literal) (q : Prop) :
    TermsAccept selections truth (l :: b) q ↔
      l.Reads selections truth ∧ TermsAccept selections truth b q := by
  have hread : l.Reads selections truth ↔ ∃ name, Literal.refused (selections.map Prod.fst)
      nots l.atom = [name] ∧ ¬ selections.True truth name := by
    obtain ⟨_, a⟩ := l
    obtain rfl := hn
    rfl
  rw [TermsAccept, List.map_cons, hread]
  constructor
  · rintro ⟨rs, hrs, hchoice, hneg⟩
    rw [readTerms, readTerm_negated hl hn] at hrs
    cases hr : Literal.refused (selections.map Prod.fst) nots l.atom with
    | nil => simp [hr, negativeReading] at hrs
    | cons name names =>
      cases names with
      | cons _ _ => simp [hr, negativeReading] at hrs
      | nil =>
        simp only [hr, negativeReading, Option.map_eq_some_iff] at hrs
        obtain ⟨rs', hrs', rfl⟩ := hrs
        rw [negativeNames, List.forall_mem_cons] at hneg
        exact ⟨⟨name, rfl, hneg.1⟩, rs', hrs', hchoice, hneg.2⟩
  · rintro ⟨⟨name, hname, hfalse⟩, rs, hrs, hchoice, hneg⟩
    refine ⟨.negative name :: rs, ?_, hchoice, ?_⟩
    · simp [readTerms, readTerm_negated hl hn, hname, negativeReading, hrs]
    · rw [negativeNames]
      exact List.forall_mem_cons.mpr ⟨hfalse, hneg⟩

/-- The terms of a branch are read one by one. -/
theorem termsAccept_iff {b : List Literal} (h : ∀ l ∈ b, l.atom.Lexical) (q : Prop) :
    TermsAccept selections truth b q ↔
      (∀ l ∈ b, l.Reads selections truth) ∧ (q ∨ ∃ l ∈ b, l.Names selections) := by
  induction b generalizing q with
  | nil => simp [TermsAccept, readTerms, positiveOptions, negativeNames]
  | cons l b ih =>
    obtain ⟨hl, hb⟩ := List.forall_mem_cons.mp h
    rw [List.forall_mem_cons, List.exists_mem_cons_iff, and_assoc]
    cases hn : l.nots with
    | zero => rw [termsAccept_positive hl hn, ih hb, or_assoc]
    | succ nots =>
      have hnot : ¬ l.Names selections := by
        intro hnames
        have hzero := hnames.1
        omega
      rw [termsAccept_negated hl hn, ih hb, or_iff_right hnot]

/-- **The plans of a branch accept a valuation iff the branch is true in it.** -/
theorem exists_accepting_branch_iff {b : List Literal} (hb : b ≠ [])
    (h : ∀ l ∈ b, l.atom.Lexical) :
    (∃ plan ∈ plansFromAndBranch (joinWords (branchWords b)) selections, plan.Accepts truth) ↔
      BranchReads selections truth b := by
  have hsplit : reSplit "and".toList (joinWords (branchWords b)) = b.map Literal.text := by
    rw [branchWords, reSplit_joinWords (by decide) (by simpa using hb)]
    · rw [List.map_map]
      rfl
    · intro p hp
      obtain ⟨l, hl, rfl⟩ := List.mem_map.mp hp
      exact ⟨literal_words_ne_nil l, fun w hw =>
        ⟨(isWord_of_mem_literal (h l hl) w hw).1, (isWord_of_mem_literal (h l hl) w hw).2.1⟩⟩
  have hread := @termsAccept_iff selections truth _ h False
  simp only [TermsAccept, false_or] at hread
  rw [exists_accepting_plan_iff, hsplit, BranchReads, ← hread]
  rfl

end Reading

/-! ### The plans of a detection -/

/-- The selections of a detection, in its order. -/
def selectionsOf (lower : String → String) (detection : Settings) : Selections :=
  (detection.filter fun e => lower e.1 != "condition" && isSelection e.2).map
    fun e => ((lower e.1).toList, e.2)

theorem namedSelections_eq {lower : String → String} {detection : Settings}
    (h : ((selectionsOf lower detection).map Prod.fst).Nodup) :
    namedSelections lower detection = selectionsOf lower detection := by
  rw [selectionsOf, List.map_map] at h
  have hfold := foldl_set_of_nodup (fun e : String × Value => (lower e.1).toList) Prod.snd
    (detection.filter fun e => lower e.1 != "condition" && isSelection e.2) [] h
  exact hfold

section Detection

variable {lower : String → String} {render : Value → String} {detection : Settings}
  {text : String} {c : Condition}

theorem mem_branchesWords {w : List Char} (h : w ∈ branchesWords c.cond.branches) :
    IsWord w := by
  rcases mem_of_mem_intercalate h with h | ⟨ws, hws, h⟩
  · rw [List.mem_singleton.mp h]
    decide
  · obtain ⟨b, hb, rfl⟩ := List.mem_map.mp hws
    rcases mem_of_mem_intercalate h with h | ⟨ls, hls, h⟩
    · rw [List.mem_singleton.mp h]
      decide
    · obtain ⟨l, hl, rfl⟩ := List.mem_map.mp hls
      exact (isWord_of_mem_literal (lexical_of_mem_branches c.wellFormed hb hl) w h).1

theorem branchWords_ne_nil {b : List Literal} (h : b ≠ []) : branchWords b ≠ [] := by
  cases b with
  | nil => exact absurd rfl h
  | cons l b => cases b <;> simp [branchWords, List.intercalate, literal_words_ne_nil]

theorem branchesWords_ne_nil (bs : List (List Literal)) (h : Nonempty bs) :
    branchesWords bs ≠ [] := by
  cases bs with
  | nil => exact absurd rfl h.1
  | cons b bs =>
    have hb := branchWords_ne_nil (h.2 b (by simp))
    cases bs <;> simp [branchesWords, List.intercalate, hb]

/-- Cutting the normalized text at `or` yields the branches. -/
theorem reSplit_or :
    reSplit "or".toList (joinWords (branchesWords c.cond.branches)) =
      c.cond.branches.map fun b => joinWords (branchWords b) := by
  have hne := nonempty_branches c.cond
  rw [branchesWords, reSplit_joinWords (by decide) (by simpa using hne.1)]
  · rw [List.map_map]
    rfl
  · intro p hp
    obtain ⟨b, hb, rfl⟩ := List.mem_map.mp hp
    refine ⟨branchWords_ne_nil (hne.2 b hb), ?_⟩
    intro w hw
    rcases mem_of_mem_intercalate hw with hw | ⟨ls, hls, hw⟩
    · rw [List.mem_singleton.mp hw]
      exact ⟨by decide, by decide⟩
    · obtain ⟨l, hl, rfl⟩ := List.mem_map.mp hls
      have hword := isWord_of_mem_literal (lexical_of_mem_branches c.wellFormed hb hl) w hw
      exact ⟨hword.1, hword.2.2⟩

/-- **A valuation is accepted by some plan iff the flat text is true in it.** -/
theorem exists_accepting_iff (hnames : ((selectionsOf lower detection).map Prod.fst).Nodup)
    (htext : detection.lookup "condition" = some (.str text))
    (hc : lex (lower text).toList = c.cond.tokens) (truth : Value → Prop) :
    (∃ plan ∈ sigmaSelectionPlans lower render detection, plan.Accepts truth) ↔
      c.cond.ReadsFlat (selectionsOf lower detection) truth := by
  have hrender : conditionText render detection = text := by rw [conditionText, htext]
  have hne : joinWords (branchesWords c.cond.branches) ≠ [] :=
    joinWords_ne_nil (fun w hw => mem_branchesWords hw)
      (branchesWords_ne_nil _ (nonempty_branches c.cond))
  simp only [sigmaSelectionPlans, hrender, normalizeCondition_eq hc, namedSelections_eq hnames,
    if_neg hne, reSplit_or, Cond.ReadsFlat]
  constructor
  · rintro ⟨plan, hplan, hacc⟩
    obtain ⟨t, ht, hplan⟩ := List.mem_flatMap.mp hplan
    obtain ⟨b, hb, rfl⟩ := List.mem_map.mp ht
    exact ⟨b, hb, (exists_accepting_branch_iff ((nonempty_branches c.cond).2 b hb)
      fun l hl => lexical_of_mem_branches c.wellFormed hb hl).mp ⟨plan, hplan, hacc⟩⟩
  · rintro ⟨b, hb, hreads⟩
    obtain ⟨plan, hplan, hacc⟩ :=
      (exists_accepting_branch_iff ((nonempty_branches c.cond).2 b hb)
        fun l hl => lexical_of_mem_branches c.wellFormed hb hl).mpr hreads
    exact ⟨plan, List.mem_flatMap.mpr ⟨_, List.mem_map_of_mem hb, hplan⟩, hacc⟩

end Detection

/-- Whatever the selections are worth, a plan that accepts them makes the condition true. -/
def PlansSound (lower : String → String) (render : Value → String) (detection : Settings)
    (c : Condition) : Prop :=
  ∀ truth : Value → Prop,
    (∃ plan ∈ sigmaSelectionPlans lower render detection, plan.Accepts truth) →
      c.cond.Eval (selectionsOf lower detection) truth

/-- **The plans are sound iff the text without its parentheses, read without the selections
named after a filter in positive terms, implies the condition.** -/
theorem plansSound_iff (lower : String → String) (render : Value → String)
    (detection : Settings) (text : String) (c : Condition)
    (hnames : ((selectionsOf lower detection).map Prod.fst).Nodup)
    (htext : detection.lookup "condition" = some (.str text))
    (hc : lex (lower text).toList = c.cond.tokens) :
    PlansSound lower render detection c ↔
      ∀ truth : Value → Prop, c.cond.ReadsFlat (selectionsOf lower detection) truth →
        c.cond.Eval (selectionsOf lower detection) truth := by
  constructor
  · intro h truth hflat
    exact h truth ((exists_accepting_iff hnames htext hc truth).mpr hflat)
  · intro h truth hplan
    exact h truth ((exists_accepting_iff hnames htext hc truth).mp hplan)

/-! ### A group and a filter -/

/-- `selection and not filter`. -/
def filtered : Condition where
  cond := .and (.atom (.name "selection".toList)) (.not (.atom (.name "filter".toList)))
  wellFormed := by decide

def filteredDetection : Settings :=
  [("selection", .list [.str "curl"]), ("filter", .list [.str "localhost"]),
    ("condition", .str "selection and not filter")]

theorem filtered_sound : PlansSound asciiLower (fun _ => "") filteredDetection filtered := by
  refine (plansSound_iff asciiLower (fun _ => "") filteredDetection "selection and not filter"
    filtered (by decide) rfl (by decide)).mpr ?_
  rintro truth ⟨b, hb, hreads, _⟩
  obtain rfl := List.mem_singleton.mp hb
  constructor
  · exact hreads ⟨0, .name "selection".toList⟩ (by decide) "selection".toList (by decide)
  · obtain ⟨name, hname, hfalse⟩ := hreads ⟨1, .name "filter".toList⟩ (by decide)
    obtain rfl : "filter".toList = name := (List.cons.inj hname).1
    exact hfalse

/-- `a and (b or c)`. -/
def grouped : Condition where
  cond := .and (.atom (.name "a".toList))
    (.group (.or (.atom (.name "b".toList)) (.atom (.name "c".toList))))
  wellFormed := by decide

def groupedDetection : Settings :=
  [("a", .list [.str "a"]), ("b", .list [.str "b"]), ("c", .list [.str "c"]),
    ("condition", .str "a and (b or c)")]

theorem weakened_group : ¬ PlansSound asciiLower (fun _ => "") groupedDetection grouped := by
  intro h
  -- only `c` is true, and the plan of the second branch asks for nothing else
  have hc : Selections.True (selectionsOf asciiLower groupedDetection)
      (fun s => s = .list [.str "c"]) "c".toList := ⟨.list [.str "c"], rfl, rfl⟩
  have hflat : grouped.cond.ReadsFlat (selectionsOf asciiLower groupedDetection)
      (fun s => s = .list [.str "c"]) := by
    refine ⟨[⟨0, .name "c".toList⟩], by decide, ?_, ⟨0, .name "c".toList⟩, by decide, rfl,
      by decide⟩
    intro l hl
    obtain rfl := List.mem_singleton.mp hl
    intro name hname
    obtain rfl : name = "c".toList := List.mem_singleton.mp hname
    exact hc
  obtain ⟨⟨s, hs, htrue⟩, _⟩ := h _ ((exists_accepting_iff (by decide) rfl (by decide) _).mpr hflat)
  obtain rfl : Value.list [.str "a"] = s := Option.some.inj hs
  simp at htrue

end Honeynet.Sigma
