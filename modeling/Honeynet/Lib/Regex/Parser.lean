import Honeynet.Lib.Regex.Syntax

/-!
# Reading a pattern

The pattern is read one character at a time.  `lexer` turns a character into actions on a stack
of open groups and says how the next one is read; it never looks at the stack, which is what
makes a pattern mean the same inside a larger one.

* `parse`: the expression of a pattern; `none` when it is malformed or uses a construct that is
  not covered (backreferences, named groups, flags other than `i`, possessive quantifiers).
* `run_extend`: reading a pattern inside an open group does to that group what reading it alone
  does to an empty one.
* `run_escape`: an escaped text is read as itself.
-/

namespace Regex

/-- What a closing parenthesis makes of the group it closes. -/
inductive GroupKind
  | plain
  | lookahead (positive : Bool)
  | lookbehind (positive : Bool)
  | ignoreCase
  deriving DecidableEq

/-- How often the item before it is repeated. -/
inductive Quantifier
  | star
  | plus
  | optional
  | between (lo : ℕ) (hi : Option ℕ)
  deriving DecidableEq

/-- Whether an item can be repeated, or made lazy. -/
inductive Status
  | fresh
  | repeated
  | done
  deriving DecidableEq

/-- A group that is still open: its finished alternatives, and the items of the one being read,
last first. -/
structure Frame where
  kind : GroupKind := .plain
  alts : List Expr := []
  items : List (Expr × Status) := []

inductive Action
  | item (r : Expr) (status : Status)
  | quantify (q : Quantifier)
  | bar
  | open (kind : GroupKind)
  | close
  deriving DecidableEq

/-! ### Actions on the open groups -/

/-- The width of what an expression matches, if it is always the same. -/
def width : Expr → Option ℕ
  | .eps => some 0
  | .one _ => some 1
  | .seq r s => do return (← width r) + (← width s)
  | .alt r s =>
    match width r, width s with
    | some m, some n => if m = n then some m else none
    | _, _ => none
  | .star _ => none
  | .ignoreCase r => width r
  | _ => some 0

def upTo (r : Expr) : ℕ → Expr
  | 0 => .eps
  | n + 1 => .alt (.seq r (upTo r n)) .eps

def Quantifier.apply (r : Expr) : Quantifier → Option Expr
  | star => some (.star r)
  | plus => some (.seq r (.star r))
  | optional => some (.alt r .eps)
  | between lo none => some (.seq (concat (List.replicate lo r)) (.star r))
  | between lo (some hi) =>
    if lo ≤ hi then some (.seq (concat (List.replicate lo r)) (upTo r (hi - lo))) else none

/-- Repeat the last item.  A `?` behind a repetition makes it lazy, which changes what is
matched first but not whether anything is. -/
def quantifyItems (q : Quantifier) : List (Expr × Status) → Option (List (Expr × Status))
  | (r, .fresh) :: items => (q.apply r).map fun r' => (r', .repeated) :: items
  | (r, .repeated) :: items => if q = .optional then some ((r, .done) :: items) else none
  | _ => none

def Frame.current (f : Frame) : Expr := concat (f.items.reverse.map Prod.fst)

/-- The alternatives of a group that is closed now. -/
def Frame.options (f : Frame) : List Expr := f.alts ++ [f.current]

def Frame.close (f : Frame) : Option Expr :=
  match f.kind with
  | .plain => some (oneOf f.options)
  | .lookahead positive => some (.lookahead positive (oneOf f.options))
  | .lookbehind positive =>
    (width (oneOf f.options)).map fun _ => .lookbehind positive (oneOf f.options)
  | .ignoreCase => some (.ignoreCase (oneOf f.options))

def exec : Action → List Frame → Option (List Frame)
  | .item r status, f :: fs => some ({ f with items := (r, status) :: f.items } :: fs)
  | .quantify q, f :: fs => (quantifyItems q f.items).map fun items => { f with items } :: fs
  | .bar, f :: fs => some ({ f with alts := f.options, items := [] } :: fs)
  | .open kind, fs => some ({ kind } :: fs)
  | .close, f :: g :: fs =>
    f.close.map fun r => { g with items := (r, .fresh) :: g.items } :: fs
  | _, _ => none

def execAll : List Action → List Frame → Option (List Frame)
  | [], fs => some fs
  | a :: as, fs => (exec a fs).bind (execAll as)

/-! ### Characters -/

/-- Where a character class is being read.  `after` remembers a character that may begin a
range, `dash` that the range has begun. -/
inductive ClassMode
  | start
  | first
  | plain
  | after (lo : Option Char)
  | dash (lo : Option Char)
  | escaped (range : Option (Option Char))
  deriving DecidableEq

/-- How the next character is read. -/
inductive Mode
  | normal
  | escaped
  | hex (left value : ℕ)
  | braces (digits : List Char)
  | group
  | extension
  | behind
  | flag
  | set (negated : Bool) (items : List ClassItem) (m : ClassMode)
  deriving DecidableEq

def classEscape : Char → Option ClassItem
  | 'd' => some (.digit true)
  | 'D' => some (.digit false)
  | 'w' => some (.word true)
  | 'W' => some (.word false)
  | 's' => some (.space true)
  | 'S' => some (.space false)
  | _ => none

/-- The character an escape of one letter stands for. -/
def controlEscape : Char → Option Char
  | 'a' => some (Char.ofNat 7)
  | 'f' => some (Char.ofNat 12)
  | 'n' => some '\n'
  | 'r' => some '\r'
  | 't' => some '\t'
  | 'v' => some (Char.ofNat 11)
  | _ => none

def hexValue (c : Char) : Option ℕ :=
  if '0' ≤ c ∧ c ≤ '9' then some (c.toNat - '0'.toNat)
  else if 'a' ≤ c ∧ c ≤ 'f' then some (c.toNat - 'a'.toNat + 10)
  else if 'A' ≤ c ∧ c ≤ 'F' then some (c.toNat - 'A'.toNat + 10)
  else none

/-- The bounds between braces; `none` when the braces are ordinary characters. -/
def bounds (digits : List Char) : Option Quantifier :=
  let number (ds : List Char) : ℕ := ds.foldl (fun n d => 10 * n + (d.toNat - '0'.toNat)) 0
  match digits.splitOn ',' with
  | [[]] => none
  | [lo] => some (.between (number lo) (some (number lo)))
  | [lo, []] => some (.between (number lo) none)
  | [lo, hi] => some (.between (number lo) (some (number hi)))
  | _ => none

def lits (t : List Char) : List Action := t.map fun c => .item (lit c) .fresh

abbrev Lexed := Option (List Action × Mode)

def lexNormal (c : Char) : Lexed :=
  if c = '\\' then some ([], .escaped)
  else if c = '.' then some ([.item (.one .dot) .fresh], .normal)
  else if c = '^' then some ([.item .textStart .done], .normal)
  else if c = '$' then some ([.item .lineEnd .done], .normal)
  else if c = '(' then some ([], .group)
  else if c = ')' then some ([.close], .normal)
  else if c = '[' then some ([], .set false [] .start)
  else if c = '|' then some ([.bar], .normal)
  else if c = '*' then some ([.quantify .star], .normal)
  else if c = '+' then some ([.quantify .plus], .normal)
  else if c = '?' then some ([.quantify .optional], .normal)
  else if c = '{' then some ([], .braces [])
  else some ([.item (lit c) .fresh], .normal)

/-- Actions first, then what the character does by itself. -/
def andThen (actions : List Action) (next : Lexed) : Lexed :=
  next.map fun x => (actions ++ x.1, x.2)

def lexEscaped (c : Char) : Lexed :=
  if c = 'A' then some ([.item .textStart .done], .normal)
  else if c = 'Z' then some ([.item .textEnd .done], .normal)
  else if c = 'b' then some ([.item (.wordBoundary true) .done], .normal)
  else if c = 'B' then some ([.item (.wordBoundary false) .done], .normal)
  else if c = 'x' then some ([], .hex 2 0)
  else if c = 'u' then some ([], .hex 4 0)
  else if c = 'U' then some ([], .hex 8 0)
  else
    match classEscape c, controlEscape c with
    | some item, _ => some ([.item (.one (.set false [item])) .fresh], .normal)
    | _, some d => some ([.item (lit d) .fresh], .normal)
    | _, _ => if c.isAlphanum then none else some ([.item (lit c) .fresh], .normal)

def lexHex (left value : ℕ) (c : Char) : Lexed :=
  (hexValue c).bind fun d =>
    if left ≤ 1 then some ([.item (lit (Char.ofNat (16 * value + d))) .fresh], .normal)
    else some ([], .hex (left - 1) (16 * value + d))

def lexBraces (digits : List Char) (c : Char) : Lexed :=
  if c.isDigit ∨ (c = ',' ∧ ',' ∉ digits) then some ([], .braces (digits ++ [c]))
  else if c = '}' then
    match bounds digits with
    | some q => some ([.quantify q], .normal)
    | none => some (lits ('{' :: digits ++ ['}']), .normal)
  else andThen (lits ('{' :: digits)) (lexNormal c)

def lexExtension (c : Char) : Lexed :=
  if c = ':' then some ([.open .plain], .normal)
  else if c = '=' then some ([.open (.lookahead true)], .normal)
  else if c = '!' then some ([.open (.lookahead false)], .normal)
  else if c = '<' then some ([], .behind)
  else if c = 'i' then some ([], .flag)
  else none

def lexBehind (c : Char) : Lexed :=
  if c = '=' then some ([.open (.lookbehind true)], .normal)
  else if c = '!' then some ([.open (.lookbehind false)], .normal)
  else none

/-- An ordinary character of a class. -/
def classLit (negated : Bool) (items : List ClassItem) (c : Char) : Lexed :=
  some ([], .set negated (items ++ [.lit c]) (.after (some c)))

/-- The end of a range. -/
def classRange (negated : Bool) (items : List ClassItem) (lo : Option Char) (c : Char) : Lexed :=
  match lo with
  | none => none
  | some lo =>
    if lo.toNat ≤ c.toNat then some ([], .set negated (items ++ [.range lo c]) .plain) else none

def lexClass (negated : Bool) (items : List ClassItem) : ClassMode → Char → Lexed
  | .start, c =>
    if c = '^' then some ([], .set true [] .first)
    else if c = '\\' then some ([], .set false [] (.escaped none))
    else classLit false [] c
  | .first, c =>
    if c = '\\' then some ([], .set negated items (.escaped none)) else classLit negated items c
  | .plain, c =>
    if c = ']' then some ([.item (.one (.set negated items)) .fresh], .normal)
    else if c = '\\' then some ([], .set negated items (.escaped none))
    else classLit negated items c
  | .after lo, c =>
    if c = ']' then some ([.item (.one (.set negated items)) .fresh], .normal)
    else if c = '\\' then some ([], .set negated items (.escaped none))
    else if c = '-' then some ([], .set negated items (.dash lo))
    else classLit negated items c
  | .dash lo, c =>
    if c = ']' then some ([.item (.one (.set negated (items ++ [.lit '-']))) .fresh], .normal)
    else if c = '\\' then some ([], .set negated items (.escaped (some lo)))
    else classRange negated items lo c
  | .escaped range, c =>
    let char (d : Char) : Lexed :=
      match range with
      | none => classLit negated items d
      | some lo => classRange negated items lo d
    match classEscape c, controlEscape c with
    | some item, _ =>
      if range = none then some ([], .set negated (items ++ [item]) (.after none)) else none
    | _, some d => char d
    | _, _ =>
      if c = 'b' then char (Char.ofNat 8) else if c.isAlphanum then none else char c

def lexer : Mode → Char → Lexed
  | .normal, c => lexNormal c
  | .escaped, c => lexEscaped c
  | .hex left value, c => lexHex left value c
  | .braces digits, c => lexBraces digits c
  | .group, c => if c = '?' then some ([], .extension) else andThen [.open .plain] (lexNormal c)
  | .extension, c => lexExtension c
  | .behind, c => lexBehind c
  | .flag, c => if c = ':' then some ([.open .ignoreCase], .normal) else none
  | .set negated items m, c => lexClass negated items m c

abbrev State := Mode × List Frame

def step (c : Char) (s : State) : Option State :=
  (lexer s.1 c).bind fun x => (execAll x.1 s.2).map fun fs => (x.2, fs)

def run : List Char → State → Option State
  | [], s => some s
  | c :: t, s => (step c s).bind (run t)

/-- The end of the pattern: open braces were ordinary characters. -/
def finish : State → Option (List Frame)
  | (.normal, fs) => some fs
  | (.braces digits, fs) => execAll (lits ('{' :: digits)) fs
  | _ => none

/-- The alternatives of a pattern without leading flags. -/
def parseOptions (t : List Char) : Option (List Expr) :=
  match (run t (.normal, [{}])).bind finish with
  | some [f] => some f.options
  | _ => none

def ignoreCaseFlag : List Char := "(?i)".toList

/-- The expression of a pattern. -/
def parse (t : List Char) : Option Expr :=
  if ignoreCaseFlag.isPrefixOf t then
    (parseOptions (t.drop ignoreCaseFlag.length)).map fun rs => .ignoreCase (oneOf rs)
  else (parseOptions t).map oneOf

/-- `re.search(pattern, text) is not None`; a malformed pattern is found nowhere. -/
def reSearch (A : Alphabet) (pattern t : List Char) : Bool :=
  (parse pattern).any fun r => search A r t

/-! ### A pattern inside a group -/

/-- Give the outermost group a kind and alternatives before its own, and open groups around
it. -/
def extend (kind : GroupKind) (alts : List Expr) (outer : List Frame) : List Frame → List Frame
  | [] => outer
  | [f] => { f with kind, alts := alts ++ f.alts } :: outer
  | f :: g :: fs => f :: extend kind alts outer (g :: fs)

section Extend

variable (kind : GroupKind) (alts : List Expr) (outer : List Frame)

theorem exec_extend {a : Action} {fs fs' : List Frame} (hne : fs ≠ [])
    (h : exec a fs = some fs') :
    exec a (extend kind alts outer fs) = some (extend kind alts outer fs') ∧ fs' ≠ [] := by
  cases fs with
  | nil => exact absurd rfl hne
  | cons f fs =>
    cases a with
    | item r status =>
      simp only [exec, Option.some.injEq] at h
      subst h
      cases fs <;> simp [extend, exec]
    | quantify q =>
      simp only [exec, Option.map_eq_some_iff] at h
      obtain ⟨items, hq, rfl⟩ := h
      cases fs <;> simp [extend, exec, hq]
    | bar =>
      simp only [exec, Option.some.injEq] at h
      subst h
      cases fs <;> simp [extend, exec, Frame.options, Frame.current]
    | «open» k =>
      simp only [exec, Option.some.injEq] at h
      subst h
      cases fs <;> simp [extend, exec]
    | close =>
      cases fs with
      | nil => simp [exec] at h
      | cons g fs =>
        simp only [exec, Option.map_eq_some_iff] at h
        obtain ⟨r, hr, rfl⟩ := h
        cases fs <;> simp [extend, exec, hr]

theorem execAll_extend {as : List Action} {fs fs' : List Frame} (hne : fs ≠ [])
    (h : execAll as fs = some fs') :
    execAll as (extend kind alts outer fs) = some (extend kind alts outer fs') ∧ fs' ≠ [] := by
  induction as generalizing fs with
  | nil =>
    obtain rfl := Option.some.inj h
    exact ⟨rfl, hne⟩
  | cons a as ih =>
    rw [execAll, Option.bind_eq_some_iff] at h
    obtain ⟨mid, hmid, hrest⟩ := h
    obtain ⟨hexec, hne'⟩ := exec_extend kind alts outer hne hmid
    rw [execAll, hexec]
    exact ih hne' hrest

theorem step_extend {c : Char} {m m' : Mode} {fs fs' : List Frame} (hne : fs ≠ [])
    (h : step c (m, fs) = some (m', fs')) :
    step c (m, extend kind alts outer fs) = some (m', extend kind alts outer fs') ∧ fs' ≠ [] := by
  simp only [step, Option.bind_eq_some_iff, Option.map_eq_some_iff] at h ⊢
  obtain ⟨x, hx, gs, hgs, heq⟩ := h
  obtain ⟨rfl, rfl⟩ := Prod.mk.inj heq
  obtain ⟨hexec, hne'⟩ := execAll_extend kind alts outer hne hgs
  exact ⟨⟨x, hx, _, hexec, rfl⟩, hne'⟩

/-- **A pattern inside a group** does to it what it does alone to an empty group. -/
theorem run_extend {t : List Char} {m m' : Mode} {fs fs' : List Frame} (hne : fs ≠ [])
    (h : run t (m, fs) = some (m', fs')) :
    run t (m, extend kind alts outer fs) = some (m', extend kind alts outer fs') ∧ fs' ≠ [] := by
  induction t generalizing m fs with
  | nil =>
    obtain ⟨rfl, rfl⟩ := Prod.mk.inj (Option.some.inj h)
    exact ⟨rfl, hne⟩
  | cons c t ih =>
    rw [run, Option.bind_eq_some_iff] at h
    obtain ⟨⟨m₁, fs₁⟩, hstep, hrest⟩ := h
    obtain ⟨hs, hne'⟩ := step_extend kind alts outer hne hstep
    rw [run, hs]
    exact ih hne' hrest

theorem finish_extend {m : Mode} {fs fs' : List Frame} (hne : fs ≠ [])
    (h : finish (m, fs) = some fs') :
    finish (m, extend kind alts outer fs) = some (extend kind alts outer fs') := by
  cases m with
  | normal =>
    obtain rfl := Option.some.inj h
    rfl
  | braces digits => exact (execAll_extend kind alts outer hne h).1
  | _ => simp [finish] at h

end Extend

theorem run_append {t u : List Char} {s : State} : run (t ++ u) s = (run t s).bind (run u) := by
  induction t generalizing s with
  | nil => rfl
  | cons c t ih =>
    rw [List.cons_append, run, run]
    cases step c s with
    | none => rfl
    | some s' => exact ih

theorem execAll_append {as bs : List Action} {fs : List Frame} :
    execAll (as ++ bs) fs = (execAll as fs).bind (execAll bs) := by
  induction as generalizing fs with
  | nil => rfl
  | cons a as ih =>
    rw [List.cons_append, execAll, execAll]
    cases exec a fs with
    | none => rfl
    | some fs' => exact ih

/-- Where a pattern may end, a bar or a closing parenthesis is read as such. -/
theorem step_finish {c : Char} (hc : c = '|' ∨ c = ')') {m : Mode} {fs fs' : List Frame}
    (h : finish (m, fs) = some fs') : step c (m, fs) = step c (.normal, fs') := by
  cases m with
  | normal =>
    obtain rfl := Option.some.inj h
    rfl
  | braces digits =>
    have hlex : lexBraces digits c = andThen (lits ('{' :: digits)) (lexNormal c) := by
      rcases hc with rfl | rfl <;> simp [lexBraces]
    have hexec : execAll (lits ('{' :: digits)) fs = some fs' := h
    simp only [step, lexer, hlex, andThen]
    cases lexNormal c with
    | none => rfl
    | some x => simp [execAll_append, hexec]
  | _ => simp [finish] at h

/-! ### Escaped text -/

theorem lexEscaped_special {c : Char} (h : c ∈ Text.special) :
    lexEscaped c = some ([.item (lit c) .fresh], .normal) := by
  have hall : ∀ c ∈ Text.special, lexEscaped c = some ([.item (lit c) .fresh], .normal) := by
    decide
  exact hall c h

theorem lexNormal_ordinary {c : Char} (h : c ∉ Text.special) :
    lexNormal c = some ([.item (lit c) .fresh], .normal) := by
  have hne : ∀ d ∈ Text.special, c ≠ d := fun d hd he => h (he ▸ hd)
  rw [lexNormal, if_neg (hne '\\' (by decide)), if_neg (hne '.' (by decide)),
    if_neg (hne '^' (by decide)), if_neg (hne '$' (by decide)), if_neg (hne '(' (by decide)),
    if_neg (hne ')' (by decide)), if_neg (hne '[' (by decide)), if_neg (hne '|' (by decide)),
    if_neg (hne '*' (by decide)), if_neg (hne '+' (by decide)), if_neg (hne '?' (by decide)),
    if_neg (hne '{' (by decide))]

/-- **An escaped text is read as itself.** -/
theorem run_escape (t : List Char) (f : Frame) (fs : List Frame) :
    run (Text.reEscape t) (.normal, f :: fs) =
      some (.normal,
        { f with items := (t.map fun c => (lit c, .fresh)).reverse ++ f.items } :: fs) := by
  induction t generalizing f with
  | nil => rfl
  | cons c t ih =>
    have hc : run (if c ∈ Text.special then ['\\', c] else [c]) (.normal, f :: fs) =
        some (.normal, { f with items := (lit c, .fresh) :: f.items } :: fs) := by
      by_cases h : c ∈ Text.special
      · have hb : lexNormal '\\' = some ([], .escaped) := rfl
        simp [if_pos h, run, step, lexer, hb, lexEscaped_special h, execAll, exec]
      · simp [if_neg h, run, step, lexer, lexNormal_ordinary h, execAll, exec]
    have hcut : Text.reEscape (c :: t) =
        (if c ∈ Text.special then ['\\', c] else [c]) ++ Text.reEscape t := by
      rw [Text.reEscape, List.flatMap_cons]
      rfl
    rw [hcut, run_append, hc, Option.bind_some, ih]
    simp

end Regex
