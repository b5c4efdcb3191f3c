import Honeynet.Lib.Text

/-!
# Regular expressions and where they end

`ends` runs an expression from a position of a text and lists the positions it can reach.
`search` asks for a position from which it reaches any.

* `mem_ends_literal`: a literal ends after itself.
* `mem_ends_dotStar`: `.*` ends anywhere on the rest of the line.
* `search_iff`: what a search finds, as a split of the text.
-/

namespace Regex

/-- What an engine knows of characters: the other cases of one, the digits and the word
characters. -/
structure Alphabet where
  variants : Char → List Char
  digit : Char → Bool
  word : Char → Bool

/-- ASCII letters, digits and cases. -/
def ascii : Alphabet where
  variants c := [c.toLower, c.toUpper]
  digit := Char.isDigit
  word c := c.isAlphanum || c == '_'

/-- A member of a character class. -/
inductive ClassItem
  | lit (c : Char)
  | range (lo hi : Char)
  | digit (positive : Bool)
  | word (positive : Bool)
  | space (positive : Bool)
  deriving DecidableEq

def ClassItem.mem (A : Alphabet) : ClassItem → Char → Bool
  | lit d, c => d == c
  | range lo hi, c => lo.toNat ≤ c.toNat && c.toNat ≤ hi.toNat
  | digit positive, c => A.digit c == positive
  | word positive, c => A.word c == positive
  | space positive, c => Text.isSpace c == positive

/-- What one character is matched with. -/
inductive CharSet
  | dot
  | set (negated : Bool) (items : List ClassItem)
  deriving DecidableEq

/-- Whether a character is in a set, in one of its cases if `ic`. -/
def CharSet.mem (A : Alphabet) (ic : Bool) : CharSet → Char → Bool
  | dot, c => c != '\n'
  | set negated items, c =>
    (items.any fun item => (c :: if ic then A.variants c else []).any (item.mem A)) != negated

inductive Expr
  | eps
  | one (s : CharSet)
  | seq (r s : Expr)
  | alt (r s : Expr)
  | star (r : Expr)
  | textStart
  | lineEnd
  | textEnd
  | wordBoundary (positive : Bool)
  | lookahead (positive : Bool) (r : Expr)
  | lookbehind (positive : Bool) (r : Expr)
  | ignoreCase (r : Expr)
  deriving DecidableEq

/-- A position: what is before it, last character first, and what is after it. -/
abbrev Pos := List Char × List Char

/-- Up to `n` rounds of `f`, each of which moves on. -/
def iterate (f : Pos → List Pos) : ℕ → Pos → List Pos
  | 0, p => [p]
  | n + 1, p => p :: ((f p).filter fun q => q.2.length < p.2.length).flatMap (iterate f n)

/-- The positions `k` characters back for every `k`. -/
def backFrom : List Char → List Char → List Pos
  | [], a => [([], a)]
  | c :: b, a => (c :: b, a) :: backFrom b (c :: a)

/-- Where an expression can end when it starts at a position. -/
def ends (A : Alphabet) : Bool → Expr → Pos → List Pos
  | _, .eps, p => [p]
  | ic, .one s, p =>
    match p.2 with
    | [] => []
    | c :: a => if s.mem A ic c then [(c :: p.1, a)] else []
  | ic, .seq r s, p => (ends A ic r p).flatMap (ends A ic s)
  | ic, .alt r s, p => ends A ic r p ++ ends A ic s p
  | ic, .star r, p => iterate (ends A ic r) p.2.length p
  | _, .textStart, p => if p.1 = [] then [p] else []
  | _, .lineEnd, p => if p.2 = [] ∨ p.2 = ['\n'] then [p] else []
  | _, .textEnd, p => if p.2 = [] then [p] else []
  | _, .wordBoundary positive, p =>
    if ((p.1.head?.any A.word) != (p.2.head?.any A.word)) == positive then [p] else []
  | ic, .lookahead positive r, p => if (ends A ic r p).isEmpty = positive then [] else [p]
  | ic, .lookbehind positive r, p =>
    if ((backFrom p.1 p.2).any fun q => p ∈ ends A ic r q) = positive then [p] else []
  | _, .ignoreCase r, p => ends A true r p

/-- The expression can end somewhere. -/
def matchesAt (A : Alphabet) (r : Expr) (p : Pos) : Bool := !(ends A false r p).isEmpty

def positionsFrom : List Char → List Char → List Pos
  | b, [] => [(b, [])]
  | b, c :: a => (b, c :: a) :: positionsFrom (c :: b) a

/-- Every position of a text. -/
def positions (t : List Char) : List Pos := positionsFrom [] t

/-- `re.search`: the expression matches somewhere. -/
def search (A : Alphabet) (r : Expr) (t : List Char) : Bool := (positions t).any (matchesAt A r)

/-! ### Expressions built from others -/

def concat : List Expr → Expr
  | [] => .eps
  | r :: rs => .seq r (concat rs)

/-- One of a list of expressions; the list is not empty where it is used. -/
def oneOf : List Expr → Expr
  | [] => .eps
  | [r] => r
  | r :: rs => .alt r (oneOf rs)

def lit (c : Char) : Expr := .one (.set false [.lit c])

def literal (t : List Char) : Expr := concat (t.map lit)

/-- `.*` -/
def dotStar : Expr := .star (.one .dot)

/-! ### Where they end -/

section Ends

variable {A : Alphabet} {ic : Bool}

@[simp] theorem ends_eps (p : Pos) : ends A ic .eps p = [p] := rfl

theorem mem_ends_seq {r s : Expr} {p q : Pos} :
    q ∈ ends A ic (.seq r s) p ↔ ∃ m ∈ ends A ic r p, q ∈ ends A ic s m := by
  show q ∈ (ends A ic r p).flatMap (ends A ic s) ↔ _
  rw [List.mem_flatMap]

theorem mem_ends_alt {r s : Expr} {p q : Pos} :
    q ∈ ends A ic (.alt r s) p ↔ q ∈ ends A ic r p ∨ q ∈ ends A ic s p := by
  show q ∈ ends A ic r p ++ ends A ic s p ↔ _
  rw [List.mem_append]

theorem ends_lit (c : Char) (p : Pos) :
    ends A false (lit c) p =
      match p.2 with
      | [] => []
      | d :: a => if c = d then [(d :: p.1, a)] else [] := by
  obtain ⟨b, a⟩ := p
  cases a with
  | nil => rfl
  | cons d a =>
    show (if (CharSet.set false [.lit c]).mem A false d then [(d :: b, a)] else []) = _
    simp [CharSet.mem, ClassItem.mem]

/-- A literal ends after itself. -/
theorem mem_ends_literal {t : List Char} {p q : Pos} :
    q ∈ ends A false (literal t) p ↔ p.2 = t ++ q.2 ∧ q.1 = t.reverse ++ p.1 := by
  induction t generalizing p with
  | nil =>
    rw [literal, List.map_nil, concat, ends_eps, List.mem_singleton]
    constructor
    · rintro rfl
      exact ⟨rfl, rfl⟩
    · rintro ⟨ha, hb⟩
      exact Prod.ext hb ha.symm
  | cons c t ih =>
    have hcons : literal (c :: t) = .seq (lit c) (literal t) := rfl
    rw [hcons, mem_ends_seq]
    simp only [ih, ends_lit]
    cases hp : p.2 with
    | nil => simp
    | cons d a =>
      by_cases hcd : c = d
      · subst hcd
        simp [and_comm]
      · simp [hcd, Ne.symm hcd]

theorem mem_ends_concat_append {rs ss : List Expr} {p q : Pos} :
    q ∈ ends A ic (concat (rs ++ ss)) p ↔
      ∃ m ∈ ends A ic (concat rs) p, q ∈ ends A ic (concat ss) m := by
  induction rs generalizing p with
  | nil => simp [concat]
  | cons r rs ih =>
    rw [List.cons_append, concat, concat, mem_ends_seq]
    simp only [mem_ends_seq, ih]
    constructor
    · rintro ⟨m, hm, n, hn, hq⟩
      exact ⟨n, ⟨m, hm, hn⟩, hq⟩
    · rintro ⟨n, ⟨m, hm, hn⟩, hq⟩
      exact ⟨m, hm, n, hn, hq⟩

theorem mem_ends_oneOf {rs : List Expr} (h : rs ≠ []) {p q : Pos} :
    q ∈ ends A ic (oneOf rs) p ↔ ∃ r ∈ rs, q ∈ ends A ic r p := by
  induction rs with
  | nil => exact absurd rfl h
  | cons r rs ih =>
    cases rs with
    | nil => simp [oneOf]
    | cons s rs =>
      have hcons : oneOf (r :: s :: rs) = .alt r (oneOf (s :: rs)) := rfl
      have hrest := ih (by simp)
      rw [hcons, mem_ends_alt, hrest]
      exact (List.exists_mem_cons_iff (fun x => q ∈ ends A ic x p) r (s :: rs)).symm

/-- `q` is reached from `p` over a text without a line end. -/
def AlongLine (p q : Pos) : Prop :=
  ∃ w, '\n' ∉ w ∧ p.2 = w ++ q.2 ∧ q.1 = w.reverse ++ p.1

theorem alongLine_end {b : List Char} {q : Pos} : AlongLine (b, []) q ↔ q = (b, []) := by
  constructor
  · rintro ⟨w, _, hw, hb⟩
    obtain ⟨rfl, ha⟩ := List.append_eq_nil_iff.mp hw.symm
    exact Prod.ext hb ha
  · rintro rfl
    exact ⟨[], List.not_mem_nil, rfl, rfl⟩

theorem alongLine_newline {b a : List Char} {q : Pos} :
    AlongLine (b, '\n' :: a) q ↔ q = (b, '\n' :: a) := by
  constructor
  · rintro ⟨w, hw, ha, hb⟩
    cases w with
    | nil => exact Prod.ext hb ha.symm
    | cons d w =>
      obtain ⟨rfl, _⟩ := List.cons.inj ha
      exact absurd List.mem_cons_self hw
  · rintro rfl
    exact ⟨[], List.not_mem_nil, rfl, rfl⟩

theorem alongLine_cons {c : Char} (hc : c ≠ '\n') {b a : List Char} {q : Pos} :
    AlongLine (b, c :: a) q ↔ q = (b, c :: a) ∨ AlongLine (c :: b, a) q := by
  constructor
  · rintro ⟨w, hw, ha, hb⟩
    cases w with
    | nil => exact Or.inl (Prod.ext hb ha.symm)
    | cons d w =>
      obtain ⟨rfl, hrest⟩ := List.cons.inj ha
      refine Or.inr ⟨w, fun h => hw (List.mem_cons_of_mem _ h), hrest, ?_⟩
      rw [hb]
      simp
  · rintro (rfl | ⟨w, hw, ha, hb⟩)
    · exact ⟨[], List.not_mem_nil, rfl, rfl⟩
    · refine ⟨c :: w, ?_, congrArg (c :: ·) ha, by rw [hb]; simp⟩
      rw [List.mem_cons, not_or]
      exact ⟨hc.symm, hw⟩

theorem mem_iterate_dot (n : ℕ) (p q : Pos) (hn : p.2.length ≤ n) :
    q ∈ iterate (ends A false (.one .dot)) n p ↔ AlongLine p q := by
  induction n generalizing p with
  | zero =>
    obtain ⟨b, a⟩ := p
    obtain rfl : a = [] := List.eq_nil_of_length_eq_zero (Nat.le_zero.mp hn)
    rw [iterate, List.mem_singleton, alongLine_end]
  | succ n ih =>
    obtain ⟨b, a⟩ := p
    cases a with
    | nil =>
      show q ∈ [(b, [])] ↔ _
      rw [List.mem_singleton, alongLine_end]
    | cons c a =>
      have hstep : ends A false (.one .dot) (b, c :: a) =
          if c = '\n' then [] else [(c :: b, a)] := by
        show (if CharSet.dot.mem A false c then [(c :: b, a)] else []) = _
        by_cases hc : c = '\n' <;> simp [CharSet.mem, hc]
      rw [iterate, List.mem_cons, hstep]
      by_cases hc : c = '\n'
      · subst hc
        rw [alongLine_newline]
        simp
      · have hfilter : ([(c :: b, a)].filter fun q : Pos => q.2.length < (b, c :: a).2.length) =
            [(c :: b, a)] := by simp
        rw [if_neg hc, hfilter, List.flatMap_cons, List.flatMap_nil, List.append_nil,
          ih (c :: b, a) (Nat.le_of_succ_le_succ hn), alongLine_cons hc]

/-- `.*` ends anywhere on the rest of the line. -/
theorem mem_ends_dotStar {p q : Pos} :
    q ∈ ends A false dotStar p ↔ ∃ w, '\n' ∉ w ∧ p.2 = w ++ q.2 ∧ q.1 = w.reverse ++ p.1 := by
  exact mem_iterate_dot p.2.length p q (Nat.le_refl _)

theorem matchesAt_iff {r : Expr} {p : Pos} :
    matchesAt A r p = true ↔ ∃ q, q ∈ ends A false r p := by
  rw [matchesAt, Bool.not_eq_true', List.isEmpty_eq_false_iff_exists_mem]

/-- A lookahead stays where it is. -/
theorem mem_ends_lookahead {r : Expr} {p q : Pos} :
    q ∈ ends A false (.lookahead true r) p ↔ q = p ∧ matchesAt A r p = true := by
  show q ∈ (if (ends A false r p).isEmpty = true then [] else [p]) ↔ _
  rw [matchesAt]
  cases (ends A false r p).isEmpty <;> simp

end Ends

/-! ### Searching -/

theorem mem_positionsFrom {b a : List Char} {p : Pos} :
    p ∈ positionsFrom b a ↔ ∃ w, a = w ++ p.2 ∧ p.1 = w.reverse ++ b := by
  induction a generalizing b with
  | nil =>
    rw [positionsFrom, List.mem_singleton]
    constructor
    · rintro rfl
      exact ⟨[], rfl, rfl⟩
    · rintro ⟨w, hw, hb⟩
      obtain ⟨rfl, ha⟩ := List.append_eq_nil_iff.mp hw.symm
      exact Prod.ext hb ha
  | cons c a ih =>
    rw [positionsFrom, List.mem_cons, ih]
    constructor
    · rintro (rfl | ⟨w, hw, hb⟩)
      · exact ⟨[], rfl, rfl⟩
      · exact ⟨c :: w, by rw [hw]; rfl, by rw [hb]; simp⟩
    · rintro ⟨w, hw, hb⟩
      cases w with
      | nil => exact Or.inl (Prod.ext hb hw.symm)
      | cons d w =>
        obtain ⟨hcd, hrest⟩ := List.cons.inj hw
        exact Or.inr ⟨w, hrest, by rw [hb, ← hcd]; simp⟩

theorem mem_positions {t : List Char} {p : Pos} : p ∈ positions t ↔ p.1.reverse ++ p.2 = t := by
  rw [positions, mem_positionsFrom]
  constructor
  · rintro ⟨w, hw, hb⟩
    rw [hb, hw]
    simp
  · intro h
    exact ⟨p.1.reverse, h.symm, by simp⟩

/-- **A search finds a position from which the expression can end.** -/
theorem search_iff {A : Alphabet} {r : Expr} {t : List Char} :
    search A r t = true ↔ ∃ b a, b.reverse ++ a = t ∧ matchesAt A r (b, a) = true := by
  rw [search, List.any_eq_true]
  constructor
  · rintro ⟨p, hp, hm⟩
    exact ⟨p.1, p.2, mem_positions.mp hp, hm⟩
  · rintro ⟨b, a, ht, hm⟩
    exact ⟨(b, a), mem_positions.mpr ht, hm⟩

end Regex
