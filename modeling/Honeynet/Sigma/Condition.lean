import Honeynet.Sigma.Plans

/-!
# Sigma conditions as they are written

* `Cond` is a condition with its parentheses, `Cond.Eval` its truth.
* `Cond.branches` is what is left when the parentheses are dropped: the terms between `and`s
  between `or`s, read left to right.
* `normalizeCondition_eq`: the text the translator splits is exactly those branches.
-/

namespace Honeynet.Sigma

open Collections Text

/-- The reserved words of a condition. -/
def reserved : List (List Char) :=
  ["and".toList, "or".toList, "not".toList, "them".toList]

/-- A term that is not an operator: `name`, `1 of stem*` or `all of stem*`. -/
inductive Atom
  | name (n : List Char)
  | oneOf (stem : List Char)
  | allOf (stem : List Char)
  deriving DecidableEq

namespace Atom

def words : Atom → List (List Char)
  | name n => [n]
  | oneOf stem => ["1".toList, "of".toList, stem ++ ['*']]
  | allOf stem => ["all".toList, "of".toList, stem ++ ['*']]

/-- A name is one word that is not reserved and is not a pattern; a stem is part of a word. -/
def Lexical : Atom → Prop
  | name n => IsWord n ∧ (∀ c ∈ n, isParen c = false) ∧ n ∉ reserved ∧ n.getLast? ≠ some '*'
  | oneOf stem => ∀ c ∈ stem, isSpace c = false ∧ isParen c = false
  | allOf stem => ∀ c ∈ stem, isSpace c = false ∧ isParen c = false

instance decidableLexical : (a : Atom) → Decidable a.Lexical
  | name n => inferInstanceAs (Decidable (IsWord n ∧ (∀ c ∈ n, isParen c = false) ∧
      n ∉ reserved ∧ n.getLast? ≠ some '*'))
  | oneOf stem => inferInstanceAs (Decidable (∀ c ∈ stem, isSpace c = false ∧ isParen c = false))
  | allOf stem => inferInstanceAs (Decidable (∀ c ∈ stem, isSpace c = false ∧ isParen c = false))

/-- The selections an atom speaks of. -/
def selects (names : List (List Char)) : Atom → List (List Char)
  | name n => if n ∈ names then [n] else []
  | oneOf stem => names.filter fun name => stem.isPrefixOf name
  | allOf stem => names.filter fun name => stem.isPrefixOf name

end Atom

/-- A condition, with its parentheses. -/
inductive Cond
  | atom (a : Atom)
  | not (c : Cond)
  | and (c d : Cond)
  | or (c d : Cond)
  | group (c : Cond)
  deriving DecidableEq

namespace Cond

/-- How tightly the outermost operator binds. -/
def level : Cond → ℕ
  | or _ _ => 0
  | and _ _ => 1
  | _ => 2

/-- Every operand binds at least as tightly as its operator, or is in parentheses. -/
def WellFormed : Cond → Prop
  | atom a => a.Lexical
  | not c => c.level = 2 ∧ c.WellFormed
  | and c d => 1 ≤ c.level ∧ 1 ≤ d.level ∧ c.WellFormed ∧ d.WellFormed
  | or c d => c.WellFormed ∧ d.WellFormed
  | group c => c.WellFormed

instance decidableWellFormed : (c : Cond) → Decidable c.WellFormed
  | atom a => inferInstanceAs (Decidable a.Lexical)
  | not c =>
    have := decidableWellFormed c
    inferInstanceAs (Decidable (c.level = 2 ∧ c.WellFormed))
  | and c d =>
    have := decidableWellFormed c
    have := decidableWellFormed d
    inferInstanceAs (Decidable (1 ≤ c.level ∧ 1 ≤ d.level ∧ c.WellFormed ∧ d.WellFormed))
  | or c d =>
    have := decidableWellFormed c
    have := decidableWellFormed d
    inferInstanceAs (Decidable (c.WellFormed ∧ d.WellFormed))
  | group c => decidableWellFormed c

def tokens : Cond → List (List Char)
  | atom a => a.words
  | not c => "not".toList :: c.tokens
  | and c d => c.tokens ++ "and".toList :: d.tokens
  | or c d => c.tokens ++ "or".toList :: d.tokens
  | group c => "(".toList :: c.tokens ++ [")".toList]

/-- The truth of a condition, given the truth of the selections. -/
def Eval (selections : Selections) (truth : Value → Prop) : Cond → Prop
  | atom (.name n) => selections.True truth n
  | atom (.oneOf stem) => ∃ n ∈ selections.map Prod.fst, stem <+: n ∧ selections.True truth n
  | atom (.allOf stem) => ∀ n ∈ selections.map Prod.fst, stem <+: n → selections.True truth n
  | not c => ¬ c.Eval selections truth
  | and c d => c.Eval selections truth ∧ d.Eval selections truth
  | or c d => c.Eval selections truth ∨ d.Eval selections truth
  | group c => c.Eval selections truth

end Cond

/-- A condition in which `not` binds tighter than `and` and `and` tighter than `or`. -/
structure Condition where
  cond : Cond
  wellFormed : cond.WellFormed

/-! ### Without parentheses -/

/-- A term of the flat text: an atom behind a number of `not`s. -/
structure Literal where
  nots : ℕ
  atom : Atom
  deriving DecidableEq

namespace Literal

def words (l : Literal) : List (List Char) := List.replicate l.nots "not".toList ++ l.atom.words

def text (l : Literal) : List Char := joinWords l.words

end Literal

/-- A `not` in front of flat text negates its first term only. -/
def negateFirst : List (List Literal) → List (List Literal)
  | (l :: b) :: bs => ({ l with nots := l.nots + 1 } :: b) :: bs
  | bs => bs

/-- An `and` between flat texts joins the last branch of the one to the first of the other. -/
def joinBranches : List (List Literal) → List (List Literal) → List (List Literal)
  | [], ds => ds
  | [b], [] => [b]
  | [b], d :: ds => (b ++ d) :: ds
  | b :: b' :: bs, ds => b :: joinBranches (b' :: bs) ds

def Cond.branches : Cond → List (List Literal)
  | .atom a => [[⟨0, a⟩]]
  | .not c => negateFirst c.branches
  | .and c d => joinBranches c.branches d.branches
  | .or c d => c.branches ++ d.branches
  | .group c => c.branches

def branchWords (b : List Literal) : List (List Char) :=
  ["and".toList].intercalate (b.map Literal.words)

def branchesWords (bs : List (List Literal)) : List (List Char) :=
  ["or".toList].intercalate (bs.map branchWords)

theorem intercalate_append {α : Type*} (sep : α) {xs ys : List (List α)} (hx : xs ≠ [])
    (hy : ys ≠ []) :
    [sep].intercalate (xs ++ ys) = [sep].intercalate xs ++ sep :: [sep].intercalate ys := by
  induction xs with
  | nil => exact absurd rfl hx
  | cons x xs ih =>
    cases xs with
    | nil =>
      cases ys with
      | nil => exact absurd rfl hy
      | cons y ys => simp [List.intercalate]
    | cons x' xs =>
      have h := ih (by simp)
      simp only [List.intercalate, List.cons_append, List.intersperse_cons_cons,
        List.flatten_cons] at h ⊢
      rw [h]
      simp

/-- Branches that are there and have a term. -/
def Nonempty (bs : List (List Literal)) : Prop := bs ≠ [] ∧ ∀ b ∈ bs, b ≠ []

theorem nonempty_joinBranches {bs ds : List (List Literal)} (hb : Nonempty bs)
    (hd : Nonempty ds) : Nonempty (joinBranches bs ds) := by
  induction bs with
  | nil => exact absurd rfl hb.1
  | cons b bs ih =>
    cases bs with
    | nil =>
      cases ds with
      | nil => exact absurd rfl hd.1
      | cons d ds =>
        refine ⟨by simp [joinBranches], ?_⟩
        intro x hx
        rcases List.mem_cons.mp hx with rfl | hx
        · simp [hb.2 b (by simp)]
        · exact hd.2 x (List.mem_cons_of_mem d hx)
    | cons b' bs =>
      have hrest := ih ⟨by simp, fun x hx => hb.2 x (List.mem_cons_of_mem b hx)⟩
      refine ⟨by simp [joinBranches], ?_⟩
      intro x hx
      rcases List.mem_cons.mp hx with rfl | hx
      · exact hb.2 x List.mem_cons_self
      · exact hrest.2 x hx

theorem nonempty_branches (c : Cond) : Nonempty c.branches := by
  induction c with
  | atom a => simp [Nonempty, Cond.branches]
  | not c ih =>
    rw [Cond.branches]
    cases hc : c.branches with
    | nil => exact absurd hc ih.1
    | cons b bs =>
      cases b with
      | nil => exact absurd rfl (ih.2 [] (by rw [hc]; simp))
      | cons l b =>
        refine ⟨by simp [negateFirst], ?_⟩
        intro x hx
        rcases List.mem_cons.mp hx with rfl | hx
        · simp
        · exact ih.2 x (by rw [hc]; exact List.mem_cons_of_mem _ hx)
  | and c d ihc ihd => exact nonempty_joinBranches ihc ihd
  | or c d ihc ihd =>
    refine ⟨by simp [Cond.branches, ihc.1], ?_⟩
    intro x hx
    rcases List.mem_append.mp hx with hx | hx
    · exact ihc.2 x hx
    · exact ihd.2 x hx
  | group c ih => exact ih

theorem branchesWords_cons {b : List Literal} {bs : List (List Literal)} (h : bs ≠ []) :
    branchesWords (b :: bs) = branchWords b ++ "or".toList :: branchesWords bs := by
  have hmap : bs.map branchWords ≠ [] := by simpa using h
  have hcut := intercalate_append "or".toList (List.cons_ne_nil (branchWords b) []) hmap
  rw [List.singleton_append] at hcut
  rw [branchesWords, List.map_cons, hcut]
  simp [branchesWords, List.intercalate]

theorem branchWords_append {b d : List Literal} (hb : b ≠ []) (hd : d ≠ []) :
    branchWords (b ++ d) = branchWords b ++ "and".toList :: branchWords d := by
  rw [branchWords, List.map_append, intercalate_append _ (by simpa using hb) (by simpa using hd)]
  rfl

theorem branchesWords_joinBranches {bs ds : List (List Literal)} (hb : Nonempty bs)
    (hd : Nonempty ds) :
    branchesWords (joinBranches bs ds) = branchesWords bs ++ "and".toList :: branchesWords ds := by
  induction bs with
  | nil => exact absurd rfl hb.1
  | cons b bs ih =>
    cases bs with
    | nil =>
      cases ds with
      | nil => exact absurd rfl hd.1
      | cons d ds =>
        have hbd := branchWords_append (hb.2 b (by simp)) (hd.2 d (by simp))
        by_cases hds : ds = []
        · subst hds
          simp [joinBranches, branchesWords, List.intercalate, hbd]
        · rw [joinBranches, branchesWords_cons hds, branchesWords_cons hds, hbd]
          simp [branchesWords, List.intercalate]
    | cons b' bs =>
      have hrest : Nonempty (b' :: bs) :=
        ⟨by simp, fun x hx => hb.2 x (List.mem_cons_of_mem b hx)⟩
      rw [joinBranches, branchesWords_cons (nonempty_joinBranches hrest hd).1, ih hrest,
        branchesWords_cons (List.cons_ne_nil b' bs)]
      simp

theorem branchesWords_negateFirst {bs : List (List Literal)} (h : Nonempty bs) :
    branchesWords (negateFirst bs) = "not".toList :: branchesWords bs := by
  cases bs with
  | nil => exact absurd rfl h.1
  | cons b bs =>
    cases b with
    | nil => exact absurd rfl (h.2 [] (by simp))
    | cons l b =>
      have hb : branchWords ({ l with nots := l.nots + 1 } :: b) =
          "not".toList :: branchWords (l :: b) := by
        cases b <;> simp [branchWords, List.intercalate, Literal.words, List.replicate_succ]
      by_cases hbs : bs = []
      · subst hbs
        simp [negateFirst, branchesWords, List.intercalate, hb]
      · rw [negateFirst, branchesWords_cons hbs, branchesWords_cons hbs, hb, List.cons_append]

/-! ### The text the translator splits -/

theorem isWord_pattern {stem : List Char} (h : ∀ c ∈ stem, isSpace c = false ∧ isParen c = false) :
    IsWord (stem ++ ['*']) ∧ ∀ c ∈ stem ++ ['*'], isParen c = false := by
  refine ⟨⟨by simp, ?_⟩, ?_⟩
  · intro c hc
    rcases List.mem_append.mp hc with hc | hc
    · exact (h c hc).1
    · rw [List.mem_singleton.mp hc]; decide
  · intro c hc
    rcases List.mem_append.mp hc with hc | hc
    · exact (h c hc).2
    · rw [List.mem_singleton.mp hc]; decide

theorem pattern_ne {stem w : List Char} (h : w.getLast? ≠ some '*') : stem ++ ['*'] ≠ w := by
  rintro rfl
  exact h (by simp)

/-- The words of an atom are words, without parentheses, and none of them is an operator. -/
theorem Atom.Lexical.words {a : Atom} (h : a.Lexical) :
    ∀ w ∈ a.words, IsWord w ∧ (∀ c ∈ w, isParen c = false) ∧ w ≠ "and".toList ∧
      w ≠ "or".toList ∧ w ≠ "not".toList := by
  cases a with
  | name n =>
    intro w hw
    rw [List.mem_singleton.mp hw]
    obtain ⟨hword, hparen, hres, _⟩ := h
    simp only [reserved, List.mem_cons, not_or] at hres
    exact ⟨hword, hparen, hres.1, hres.2.1, hres.2.2.1⟩
  | oneOf stem =>
    intro w hw
    simp only [Atom.words, List.mem_cons, List.not_mem_nil, or_false] at hw
    rcases hw with rfl | rfl | rfl
    · exact ⟨by decide, by decide, by decide, by decide, by decide⟩
    · exact ⟨by decide, by decide, by decide, by decide, by decide⟩
    · exact ⟨(isWord_pattern h).1, (isWord_pattern h).2, pattern_ne (by decide),
        pattern_ne (by decide), pattern_ne (by decide)⟩
  | allOf stem =>
    intro w hw
    simp only [Atom.words, List.mem_cons, List.not_mem_nil, or_false] at hw
    rcases hw with rfl | rfl | rfl
    · exact ⟨by decide, by decide, by decide, by decide, by decide⟩
    · exact ⟨by decide, by decide, by decide, by decide, by decide⟩
    · exact ⟨(isWord_pattern h).1, (isWord_pattern h).2, pattern_ne (by decide),
        pattern_ne (by decide), pattern_ne (by decide)⟩

/-- Dropping the parentheses of a condition leaves the words of its branches. -/
theorem filter_tokens {c : Cond} (h : c.WellFormed) :
    c.tokens.filter notParen = branchesWords c.branches := by
  induction c with
  | atom a =>
    have hkeep : ∀ w ∈ a.words, notParen w = true := fun w hw =>
      notParen_of_no_parens (Atom.Lexical.words h w hw).2.1
    rw [Cond.tokens, List.filter_eq_self.mpr hkeep]
    simp [Cond.branches, branchesWords, branchWords, List.intercalate, Literal.words]
  | not c ih =>
    rw [Cond.tokens, List.filter_cons_of_pos (by decide), ih h.2, Cond.branches,
      branchesWords_negateFirst (nonempty_branches c)]
  | and c d ihc ihd =>
    rw [Cond.tokens, List.filter_append, List.filter_cons_of_pos (by decide), ihc h.2.2.1,
      ihd h.2.2.2, Cond.branches,
      branchesWords_joinBranches (nonempty_branches c) (nonempty_branches d)]
  | or c d ihc ihd =>
    rw [Cond.tokens, List.filter_append, List.filter_cons_of_pos (by decide), ihc h.1, ihd h.2,
      Cond.branches, branchesWords, branchesWords, branchesWords, List.map_append,
      intercalate_append _ (by simpa using (nonempty_branches c).1)
        (by simpa using (nonempty_branches d).1)]
  | group c ih =>
    rw [Cond.tokens, List.cons_append, List.filter_cons_of_neg (by decide), List.filter_append,
      ih h, Cond.branches]
    simp [notParen]

/-- **The normalized text is the branches without parentheses.** -/
theorem normalizeCondition_eq {lower : String → String} {text : String} {c : Condition}
    (h : lex (lower text).toList = c.cond.tokens) :
    normalizeCondition lower text = joinWords (branchesWords c.cond.branches) := by
  rw [normalizeCondition, words_blankParens, h, filter_tokens c.wellFormed]

theorem mem_joinBranches {bs ds : List (List Literal)} {b : List Literal} {l : Literal}
    (hb : b ∈ joinBranches bs ds) (hl : l ∈ b) :
    (∃ b' ∈ bs, l ∈ b') ∨ ∃ d ∈ ds, l ∈ d := by
  induction bs with
  | nil => exact Or.inr ⟨b, hb, hl⟩
  | cons x bs ih =>
    cases bs with
    | nil =>
      cases ds with
      | nil => exact Or.inl ⟨b, hb, hl⟩
      | cons d ds =>
        rcases List.mem_cons.mp hb with rfl | hb
        · rcases List.mem_append.mp hl with hl | hl
          · exact Or.inl ⟨x, by simp, hl⟩
          · exact Or.inr ⟨d, by simp, hl⟩
        · exact Or.inr ⟨b, List.mem_cons_of_mem d hb, hl⟩
    | cons y bs =>
      rcases List.mem_cons.mp hb with rfl | hb
      · exact Or.inl ⟨b, by simp, hl⟩
      · rcases ih hb with ⟨b', hb', hl'⟩ | hd
        · exact Or.inl ⟨b', List.mem_cons_of_mem x hb', hl'⟩
        · exact Or.inr hd

/-- The atoms of the branches are atoms of the condition. -/
theorem lexical_of_mem_branches {c : Cond} (h : c.WellFormed) {b : List Literal} {l : Literal}
    (hb : b ∈ c.branches) (hl : l ∈ b) : l.atom.Lexical := by
  induction c generalizing b l with
  | atom a =>
    rw [List.mem_singleton.mp hb] at hl
    rw [List.mem_singleton.mp hl]
    exact h
  | not c ih =>
    rw [Cond.branches] at hb
    cases hc : c.branches with
    | nil => exact absurd hc (nonempty_branches c).1
    | cons b' bs =>
      cases b' with
      | nil => exact absurd rfl ((nonempty_branches c).2 [] (by rw [hc]; simp))
      | cons l' b' =>
        rw [hc, negateFirst] at hb
        rcases List.mem_cons.mp hb with rfl | hb
        · rcases List.mem_cons.mp hl with rfl | hl
          · exact ih (b := l' :: b') (l := l') h.2 (by rw [hc]; simp) (by simp)
          · exact ih h.2 (b := l' :: b') (by rw [hc]; simp) (List.mem_cons_of_mem l' hl)
        · exact ih h.2 (by rw [hc]; exact List.mem_cons_of_mem _ hb) hl
  | and c d ihc ihd =>
    rcases mem_joinBranches hb hl with ⟨b', hb', hl'⟩ | ⟨d', hd', hl'⟩
    · exact ihc h.2.2.1 hb' hl'
    · exact ihd h.2.2.2 hd' hl'
  | or c d ihc ihd =>
    rcases List.mem_append.mp hb with hb | hb
    · exact ihc h.1 hb hl
    · exact ihd h.2 hb hl
  | group c ih => exact ih h hb hl

end Honeynet.Sigma
