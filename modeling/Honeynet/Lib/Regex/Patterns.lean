import Honeynet.Lib.Regex.Parser
import Mathlib.Data.List.Forall2

/-!
# Patterns built from escaped text and from other patterns

* `parse_leading`, `parse_suffix`, `parse_whole`: `^text`, `text$` and `^text$`.
* `parse_allAhead`: a row of `(?=.*text)`, one for each text.
* `parse_anyAhead`: a row of `(?=.*(?:p|q))`, one for each group of patterns; a pattern with a
  leading `(?i)` is put in as `(?i:p)`.
* `search_anyAhead_iff`: on a text without line breaks such a row is found iff every group has a
  pattern that is found.
-/

namespace Regex

/-- The items a text is read as, last first. -/
def litItems (t : List Char) : List (Expr × Status) :=
  (t.map fun c => (lit c, Status.fresh)).reverse

theorem current_litItems (t : List Char) (items : List (Expr × Status)) (kind : GroupKind)
    (alts : List Expr) :
    Frame.current { kind, alts, items := litItems t ++ items } =
      concat ((items.reverse.map Prod.fst) ++ t.map lit) := by
  simp [Frame.current, litItems, Function.comp_def]

/-! ### Anchored text -/

theorem parseOptions_escape (t : List Char) :
    parseOptions (Text.reEscape t) = some [literal t] := by
  rw [parseOptions, run_escape]
  simp [finish, Frame.options, Frame.current, literal, Function.comp_def]

theorem escape_head_ne_paren (t u : List Char) :
    ignoreCaseFlag.isPrefixOf (Text.reEscape t ++ u) = true → t = [] := by
  intro h
  cases t with
  | nil => rfl
  | cons c t =>
    exfalso
    rw [List.isPrefixOf_iff_prefix] at h
    obtain ⟨v, hv⟩ := h
    by_cases hc : c ∈ Text.special
    · have hhead := congrArg List.head? hv
      simp [ignoreCaseFlag, Text.reEscape, hc] at hhead
    · have hhead : '(' = c := by
        have := congrArg List.head? hv
        simpa [ignoreCaseFlag, Text.reEscape, hc] using this
      exact hc (hhead ▸ by decide)

/-- `^text` -/
theorem parse_leading (t : List Char) :
    parse ('^' :: Text.reEscape t) = some (.seq .textStart (literal t)) := by
  have hflag : ¬ ignoreCaseFlag.isPrefixOf ('^' :: Text.reEscape t) = true := by
    simp [ignoreCaseFlag]
  have hstart : step '^' (.normal, [{}]) =
      some (.normal, [{ items := [(.textStart, .done)] }]) := rfl
  rw [parse, if_neg hflag, parseOptions, run, hstart, Option.bind_some, run_escape]
  simp [finish, Frame.options, Frame.current, literal, Function.comp_def, concat, oneOf]

theorem run_lineEnd (f : Frame) (fs : List Frame) :
    run ['$'] (.normal, f :: fs) =
      some (.normal, { f with items := (.lineEnd, .done) :: f.items } :: fs) := rfl

/-- `text$` -/
theorem parse_suffix (t : List Char) :
    parse (Text.reEscape t ++ ['$']) = some (concat (t.map lit ++ [.lineEnd])) := by
  have hflag : ¬ ignoreCaseFlag.isPrefixOf (Text.reEscape t ++ ['$']) = true := by
    intro h
    rw [escape_head_ne_paren t ['$'] h] at h
    exact absurd h (by decide)
  rw [parse, if_neg hflag, parseOptions, run_append, run_escape, Option.bind_some, run_lineEnd]
  simp [finish, Frame.options, Frame.current, Function.comp_def, oneOf]

/-- `^text$` -/
theorem parse_whole (t : List Char) :
    parse ('^' :: (Text.reEscape t ++ ['$'])) =
      some (.seq .textStart (concat (t.map lit ++ [.lineEnd]))) := by
  have hflag : ¬ ignoreCaseFlag.isPrefixOf ('^' :: (Text.reEscape t ++ ['$'])) = true := by
    simp [ignoreCaseFlag]
  have hstart : step '^' (.normal, [{}]) =
      some (.normal, [{ items := [(.textStart, .done)] }]) := rfl
  rw [parse, if_neg hflag, parseOptions, run, hstart, Option.bind_some, run_append, run_escape,
    Option.bind_some, run_lineEnd]
  simp [finish, Frame.options, Frame.current, Function.comp_def, concat, oneOf]

/-! ### Lookaheads -/

/-- `(?=.*text)` for each text. -/
def allAhead (ts : List (List Char)) : List Char :=
  ts.flatMap fun t => "(?=.*".toList ++ Text.reEscape t ++ [')']

/-- `(?=.*(?:p|q))` for each group of patterns. -/
def anyAhead (groups : List (List (List Char))) : List Char :=
  groups.flatMap fun options => "(?=.*(?:".toList ++ ['|'].intercalate options ++ "))".toList

theorem run_openAhead (f : Frame) (fs : List Frame) :
    run "(?=.*".toList (.normal, f :: fs) =
      some (.normal, { kind := .lookahead true, items := [(dotStar, .repeated)] } :: f :: fs) := rfl

theorem run_allAhead (ts : List (List Char)) (f : Frame) (fs : List Frame) :
    run (allAhead ts) (.normal, f :: fs) = some (.normal, { f with
      items := (ts.map fun t => (Expr.lookahead true (concat (dotStar :: t.map lit)),
        Status.fresh)).reverse ++ f.items } :: fs) := by
  induction ts generalizing f with
  | nil => rfl
  | cons t ts ih =>
    have hclose : ∀ g : Frame, run [')'] (.normal,
        { kind := .lookahead true, items := litItems t ++ [(dotStar, .repeated)] } :: g :: fs) =
        some (.normal, { g with items :=
          (.lookahead true (concat (dotStar :: t.map lit)), .fresh) :: g.items } :: fs) := by
      intro g
      have hcur := current_litItems t [(dotStar, .repeated)] (.lookahead true) []
      simp only [List.reverse_singleton, List.map_cons, List.map_nil, List.singleton_append] at hcur
      simp [run, step, lexer, lexNormal, execAll, exec, Frame.close, Frame.options, hcur, oneOf]
    rw [allAhead, List.flatMap_cons, run_append, run_append, run_append, run_openAhead,
      Option.bind_some, run_escape, Option.bind_some]
    rw [show (List.map (fun c => (lit c, Status.fresh)) t).reverse = litItems t from rfl, hclose,
      Option.bind_some]
    rw [show (ts.flatMap fun t => "(?=.*".toList ++ Text.reEscape t ++ [')']) =
        allAhead ts from rfl,
      ih]
    simp

/-- A row of lookaheads for escaped texts. -/
theorem parse_allAhead (ts : List (List Char)) :
    parse (allAhead ts) =
      some (concat (ts.map fun t => .lookahead true (concat (dotStar :: t.map lit)))) := by
  have hflag : ¬ ignoreCaseFlag.isPrefixOf (allAhead ts) = true := by
    cases ts <;> simp [ignoreCaseFlag, allAhead]
  rw [parse, if_neg hflag, parseOptions, run_allAhead]
  simp [finish, Frame.options, Frame.current, Function.comp_def, oneOf]

/-- What reading one pattern in a group leaves, up to the bar or parenthesis behind it. -/
theorem run_option {p : List Char} {rs : List Expr} (h : parseOptions p = some rs)
    (kind : GroupKind) (alts : List Expr) (outer : List Frame) :
    ∃ m f f', run p (.normal, { kind, alts } :: outer) = some (m, f) ∧
      finish (m, f) = some (f' :: outer) ∧ f'.kind = kind ∧ f'.options = alts ++ rs := by
  rw [parseOptions] at h
  cases hrun : run p (.normal, [{}]) with
  | none => simp [hrun] at h
  | some s =>
    obtain ⟨m, fs⟩ := s
    rw [hrun, Option.bind_some] at h
    obtain ⟨hext, hne⟩ := run_extend kind alts outer (by simp) hrun
    cases hfin : finish (m, fs) with
    | none => simp [hfin] at h
    | some gs =>
      rw [hfin] at h
      have hfin' := finish_extend kind alts outer hne hfin
      match gs, h with
      | [g], h =>
        have hopt : g.options = rs := Option.some.inj h
        refine ⟨m, extend kind alts outer fs, { g with kind, alts := alts ++ g.alts }, ?_, hfin',
          rfl, ?_⟩
        · simpa [extend] using hext
        · rw [← hopt]
          simp [Frame.options, Frame.current]
      | [], h => simp at h
      | _ :: _ :: _, h => simp at h

/-- Reading several patterns with bars between them in a group. -/
theorem run_intercalate {options : List (List Char)} {rss : List (List Expr)}
    (h : List.Forall₂ (fun p rs => parseOptions p = some rs) options rss) (hne : options ≠ [])
    (kind : GroupKind) (alts : List Expr) (outer : List Frame) :
    ∃ m f f', run (['|'].intercalate options) (.normal, { kind, alts } :: outer) = some (m, f) ∧
      finish (m, f) = some (f' :: outer) ∧ f'.kind = kind ∧ f'.options = alts ++ rss.flatten := by
  induction h generalizing alts with
  | nil => exact absurd rfl hne
  | @cons p rs options rss hp hrest ih =>
    obtain ⟨m, f, f', hrun, hfin, hkind, hopt⟩ := run_option hp kind alts outer
    by_cases hnil : options = []
    · subst hnil
      obtain rfl := List.forall₂_nil_left_iff.mp hrest
      exact ⟨m, f, f', by simpa [List.intercalate] using hrun, hfin, hkind, by simpa using hopt⟩
    · obtain ⟨m₂, f₂, f₂', hrun₂, hfin₂, hkind₂, hopt₂⟩ := ih hnil (alts ++ rs)
      refine ⟨m₂, f₂, f₂', ?_, hfin₂, hkind₂, by rw [hopt₂]; simp⟩
      have hcut : ['|'].intercalate (p :: options) = p ++ '|' :: ['|'].intercalate options := by
        cases options with
        | nil => exact absurd rfl hnil
        | cons o os => simp [List.intercalate]
      have hbar : step '|' (m, f) = some (.normal, { kind, alts := alts ++ rs } :: outer) := by
        rw [step_finish (Or.inl rfl) hfin]
        simp [step, lexer, lexNormal, execAll, exec, hopt, hkind]
      rw [hcut, run_append, hrun, Option.bind_some, run, hbar, Option.bind_some, hrun₂]

theorem run_openAny (f : Frame) (fs : List Frame) :
    run "(?=.*(?:".toList (.normal, f :: fs) = some (.normal, {} ::
      { kind := .lookahead true, items := [(dotStar, .repeated)] } :: f :: fs) := rfl

/-- The expression of one group of `anyAhead`. -/
def anyAheadExpr (rs : List Expr) : Expr :=
  .lookahead true (concat [dotStar, oneOf rs])

theorem run_anyAhead {groups : List (List (List Char))} {rsss : List (List (List Expr))}
    (h : List.Forall₂ (List.Forall₂ fun p rs => parseOptions p = some rs) groups rsss)
    (hne : ∀ options ∈ groups, options ≠ []) (f : Frame) (fs : List Frame) :
    run (anyAhead groups) (.normal, f :: fs) = some (.normal, { f with
      items := (rsss.map fun rss => (anyAheadExpr rss.flatten, Status.fresh)).reverse ++ f.items }
        :: fs) := by
  induction h generalizing f with
  | nil => rfl
  | @cons options rss groups rsss hoptions _ ih =>
    obtain ⟨m, g, g', hrun, hfin, hkind, hopt⟩ := run_intercalate hoptions (hne options (by simp))
      .plain [] ({ kind := .lookahead true, items := [(dotStar, .repeated)] } :: f :: fs)
    have hclose : run "))".toList (m, g) = some (.normal, { f with items :=
        (anyAheadExpr rss.flatten, .fresh) :: f.items } :: fs) := by
      have hfirst : step ')' (m, g) = some (.normal,
          ⟨.lookahead true, [], [(oneOf rss.flatten, .fresh), (dotStar, .repeated)]⟩ ::
            f :: fs) := by
        rw [step_finish (Or.inr rfl) hfin]
        simp [step, lexer, lexNormal, execAll, exec, Frame.close, hkind, hopt]
      rw [show "))".toList = [')', ')'] from rfl, run, hfirst, Option.bind_some]
      simp [run, step, lexer, lexNormal, execAll, exec, Frame.close, Frame.options, Frame.current,
        anyAheadExpr, oneOf]
    have hrest := ih (fun o ho => hne o (List.mem_cons_of_mem options ho))
    rw [anyAhead] at hrest
    rw [anyAhead, List.flatMap_cons, run_append, run_append, run_append, run_openAny,
      Option.bind_some, hrun, Option.bind_some, hclose, Option.bind_some, hrest]
    simp

/-- **A row of lookaheads for groups of patterns** asks for one pattern of each group. -/
theorem parse_anyAhead {groups : List (List (List Char))} {rsss : List (List (List Expr))}
    (h : List.Forall₂ (List.Forall₂ fun p rs => parseOptions p = some rs) groups rsss)
    (hne : ∀ options ∈ groups, options ≠ []) :
    parse (anyAhead groups) = some (concat (rsss.map fun rss => anyAheadExpr rss.flatten)) := by
  have hflag : ¬ ignoreCaseFlag.isPrefixOf (anyAhead groups) = true := by
    cases groups <;> simp [ignoreCaseFlag, anyAhead]
  rw [parse, if_neg hflag, parseOptions, run_anyAhead h hne]
  simp [finish, Frame.options, Frame.current, Function.comp_def, oneOf]

/-! ### A flag made local -/

/-- A pattern as part of a larger one: a leading `(?i)` becomes a group of its own. -/
def localFlag (p : List Char) : List Char :=
  if ignoreCaseFlag.isPrefixOf p then
    "(?i:".toList ++ p.drop ignoreCaseFlag.length ++ [')']
  else p

theorem parseOptions_ne_nil {t : List Char} {rs : List Expr} (h : parseOptions t = some rs) :
    rs ≠ [] := by
  rw [parseOptions] at h
  match hm : (run t (.normal, [{}])).bind finish, h with
  | some [f], h =>
    rw [← Option.some.inj h]
    simp [Frame.options]

/-- **The localized pattern matches what the pattern matches.** -/
theorem parseOptions_localFlag {p : List Char} {r : Expr} (h : parse p = some r) :
    ∃ rs, parseOptions (localFlag p) = some rs ∧
      ∀ (A : Alphabet) (ic : Bool) (x y : Pos),
        y ∈ ends A ic (oneOf rs) x ↔ y ∈ ends A ic r x := by
  rw [parse] at h
  rw [localFlag]
  by_cases hflag : ignoreCaseFlag.isPrefixOf p = true
  · rw [if_pos hflag] at h ⊢
    obtain ⟨rs, hrs, rfl⟩ := Option.map_eq_some_iff.mp h
    obtain ⟨m, f, f', hrun, hfin, hkind, hopt⟩ := run_option hrs .ignoreCase [] [{}]
    refine ⟨[.seq (.ignoreCase (oneOf rs)) .eps], ?_, ?_⟩
    · have hopen : run "(?i:".toList (.normal, [{}]) =
          some (.normal, [{ kind := .ignoreCase }, {}]) := rfl
      have hclose : run [')'] (m, f) =
          some (.normal, [{ items := [(.ignoreCase (oneOf rs), .fresh)] }]) := by
        rw [run, step_finish (Or.inr rfl) hfin]
        simp [run, step, lexer, lexNormal, execAll, exec, Frame.close, hkind, hopt]
      rw [parseOptions, run_append, run_append, hopen, Option.bind_some, hrun, Option.bind_some,
        hclose]
      simp [finish, Frame.options, Frame.current, concat]
    · intro A ic x y
      rw [oneOf, mem_ends_seq]
      simp
  · rw [if_neg hflag] at h ⊢
    obtain ⟨rs, hrs, rfl⟩ := Option.map_eq_some_iff.mp h
    exact ⟨rs, hrs, fun _ _ _ _ => Iff.rfl⟩

/-! ### What the patterns find -/

section Search

variable {A : Alphabet}

theorem reSearch_of_parse {p : List Char} {r : Expr} (h : parse p = some r) (x : List Char) :
    reSearch A p x = search A r x := by
  rw [reSearch, h]
  rfl

theorem parse_nil : parse [] = some .eps := rfl

/-- The empty pattern is found everywhere. -/
theorem reSearch_nil (x : List Char) : reSearch A [] x = true := by
  rw [reSearch_of_parse parse_nil, search_iff]
  exact ⟨[], x, rfl, matchesAt_iff.mpr ⟨([], x), by simp [ends]⟩⟩

theorem matchesAt_literal {t : List Char} {p : Pos} :
    matchesAt A (literal t) p = true ↔ t <+: p.2 := by
  rw [matchesAt_iff]
  constructor
  · rintro ⟨q, hq⟩
    exact ⟨q.2, (mem_ends_literal.mp hq).1.symm⟩
  · rintro ⟨a, ha⟩
    exact ⟨(t.reverse ++ p.1, a), mem_ends_literal.mpr ⟨ha.symm, rfl⟩⟩

/-- A row of lookaheads matches where each of them does. -/
theorem matchesAt_lookaheads {rs : List Expr} {p : Pos} :
    matchesAt A (concat (rs.map (Expr.lookahead true))) p = true ↔
      ∀ r ∈ rs, matchesAt A r p = true := by
  have hends : ∀ q, q ∈ ends A false (concat (rs.map (Expr.lookahead true))) p ↔
      q = p ∧ ∀ r ∈ rs, matchesAt A r p = true := by
    induction rs with
    | nil => simp [concat]
    | cons r rs ih =>
      intro q
      rw [List.map_cons, concat, mem_ends_seq]
      simp only [mem_ends_lookahead, List.forall_mem_cons]
      constructor
      · rintro ⟨m, ⟨rfl, hr⟩, hq⟩
        exact ⟨((ih q).mp hq).1, hr, ((ih q).mp hq).2⟩
      · rintro ⟨rfl, hr, hall⟩
        exact ⟨q, ⟨rfl, hr⟩, (ih q).mpr ⟨rfl, hall⟩⟩
  rw [matchesAt_iff]
  constructor
  · rintro ⟨q, hq⟩
    exact ((hends q).mp hq).2
  · intro h
    exact ⟨p, (hends p).mpr ⟨rfl, h⟩⟩

/-- `.*` and an expression match where the expression does further on in the line. -/
theorem matchesAt_dotStar {rs : List Expr} {b a : List Char} :
    matchesAt A (concat (dotStar :: rs)) (b, a) = true ↔
      ∃ w a', '\n' ∉ w ∧ a = w ++ a' ∧ matchesAt A (concat rs) (w.reverse ++ b, a') = true := by
  rw [matchesAt_iff, concat]
  simp only [mem_ends_seq, mem_ends_dotStar, matchesAt_iff]
  constructor
  · rintro ⟨q, ⟨mb, ma⟩, ⟨w, hw, ha, hb⟩, hq⟩
    have hb' : mb = w.reverse ++ b := hb
    exact ⟨w, ma, hw, ha, q, hb' ▸ hq⟩
  · rintro ⟨w, a', hw, ha, q, hq⟩
    exact ⟨q, (w.reverse ++ b, a'), ⟨w, hw, ha, rfl⟩, hq⟩

theorem mem_ends_concat_singleton {ic : Bool} {r : Expr} {p q : Pos} :
    q ∈ ends A ic (concat [r]) p ↔ q ∈ ends A ic r p := by
  rw [concat, concat, mem_ends_seq]
  simp

theorem matchesAt_concat_singleton {r : Expr} {p : Pos} :
    matchesAt A (concat [r]) p = matchesAt A r p := by
  rw [Bool.eq_iff_iff, matchesAt_iff, matchesAt_iff]
  simp only [mem_ends_concat_singleton]

/-- All texts start on one line, behind a common position. -/
def AllAhead (ts : List (List Char)) (x : List Char) : Prop :=
  ∃ b a, b ++ a = x ∧ ∀ t ∈ ts, ∃ w, '\n' ∉ w ∧ w ++ t <+: a

theorem reSearch_allAhead_iff (ts : List (List Char)) (x : List Char) :
    reSearch A (allAhead ts) x = true ↔ AllAhead ts x := by
  have hrow : (ts.map fun t => Expr.lookahead true (concat (dotStar :: t.map lit))) =
      (ts.map fun t => concat (dotStar :: t.map lit)).map (Expr.lookahead true) := by
    rw [List.map_map]
    rfl
  have hone : ∀ b a t, matchesAt A (concat (dotStar :: t.map lit)) (b, a) = true ↔
      ∃ w, '\n' ∉ w ∧ w ++ t <+: a := by
    intro b a t
    rw [matchesAt_dotStar]
    constructor
    · rintro ⟨w, a', hw, rfl, hm⟩
      exact ⟨w, hw, (List.prefix_append_right_inj w).mpr (matchesAt_literal.mp hm)⟩
    · rintro ⟨w, hw, s, hs⟩
      exact ⟨w, t ++ s, hw, by rw [← hs]; simp, matchesAt_literal.mpr (List.prefix_append t s)⟩
  rw [reSearch_of_parse (parse_allAhead ts), hrow, search_iff]
  simp only [matchesAt_lookaheads, List.forall_mem_map, hone]
  constructor
  · rintro ⟨b, a, hx, hall⟩
    exact ⟨b.reverse, a, hx, hall⟩
  · rintro ⟨b, a, hx, hall⟩
    exact ⟨b.reverse, a, by simpa using hx, hall⟩

/-- `^text` is found iff the text starts so. -/
theorem reSearch_prefix_iff (t x : List Char) :
    reSearch A ('^' :: Text.reEscape t) x = true ↔ t <+: x := by
  rw [reSearch_of_parse (parse_leading t), search_iff]
  simp only [matchesAt_iff, mem_ends_seq]
  constructor
  · rintro ⟨b, a, hx, q, m, hm, hq⟩
    rw [ends] at hm
    by_cases hb : b = []
    · subst hb
      obtain rfl : m = ([], a) := by simpa using hm
      rw [← hx]
      exact ⟨q.2, (mem_ends_literal.mp hq).1.symm⟩
    · simp [hb] at hm
  · rintro ⟨s, rfl⟩
    exact ⟨[], t ++ s, rfl, (t.reverse, s), ([], t ++ s), by simp [ends],
      mem_ends_literal.mpr ⟨rfl, by simp⟩⟩

theorem mem_ends_literal_lineEnd {t : List Char} {p q : Pos} :
    q ∈ ends A false (concat (t.map lit ++ [.lineEnd])) p ↔
      (p.2 = t ++ q.2 ∧ q.1 = t.reverse ++ p.1) ∧ (q.2 = [] ∨ q.2 = ['\n']) := by
  rw [mem_ends_concat_append]
  have hend : ∀ m, q ∈ ends A false (concat [.lineEnd]) m ↔ q = m ∧ (q.2 = [] ∨ q.2 = ['\n']) := by
    intro m
    rw [mem_ends_concat_singleton, ends]
    by_cases hm : m.2 = [] ∨ m.2 = ['\n']
    · rw [if_pos hm, List.mem_singleton]
      exact ⟨fun h => ⟨h, h ▸ hm⟩, fun h => h.1⟩
    · rw [if_neg hm]
      exact ⟨fun h => absurd h List.not_mem_nil, fun h => absurd (h.1 ▸ h.2) hm⟩
  simp only [hend]
  constructor
  · rintro ⟨m, hm, rfl, hq⟩
    exact ⟨mem_ends_literal.mp hm, hq⟩
  · rintro ⟨hm, hq⟩
    exact ⟨q, mem_ends_literal.mpr hm, rfl, hq⟩

/-- `text$` is found iff the text ends so, a final line break aside. -/
theorem reSearch_suffix_iff (t x : List Char) :
    reSearch A (Text.reEscape t ++ ['$']) x = true ↔ t <:+ x ∨ t ++ ['\n'] <:+ x := by
  rw [reSearch_of_parse (parse_suffix t), search_iff]
  simp only [matchesAt_iff, mem_ends_literal_lineEnd]
  constructor
  · rintro ⟨b, a, rfl, q, ⟨ha, _⟩, hq | hq⟩
    · exact Or.inl ⟨b.reverse, by simp [ha, hq]⟩
    · exact Or.inr ⟨b.reverse, by simp [ha, hq]⟩
  · rintro (⟨s, rfl⟩ | ⟨s, rfl⟩)
    · exact ⟨s.reverse, t, by simp, (t.reverse ++ s.reverse, []), ⟨by simp, rfl⟩, Or.inl rfl⟩
    · exact ⟨s.reverse, t ++ ['\n'], by simp, (t.reverse ++ s.reverse, ['\n']), ⟨rfl, rfl⟩,
        Or.inr rfl⟩

/-- `^text$` is found iff the text is it, a final line break aside. -/
theorem reSearch_whole_iff (t x : List Char) :
    reSearch A ('^' :: (Text.reEscape t ++ ['$'])) x = true ↔ x = t ∨ x = t ++ ['\n'] := by
  rw [reSearch_of_parse (parse_whole t), search_iff]
  simp only [matchesAt_iff, mem_ends_seq, mem_ends_literal_lineEnd]
  constructor
  · rintro ⟨b, a, hx, q, m, hm, ⟨ha, _⟩, hq⟩
    rw [ends] at hm
    by_cases hb : b = []
    · subst hb
      obtain rfl : m = ([], a) := by simpa using hm
      have ha' : a = t ++ q.2 := ha
      rcases hq with hq | hq
      · exact Or.inl (by rw [← hx, ha', hq]; simp)
      · exact Or.inr (by rw [← hx, ha', hq]; simp)
    · simp [hb] at hm
  · rintro (rfl | rfl)
    · exact ⟨[], x, rfl, (x.reverse, []), ([], x), by simp [ends], ⟨by simp, by simp⟩, Or.inl rfl⟩
    · exact ⟨[], t ++ ['\n'], rfl, (t.reverse, ['\n']), ([], t ++ ['\n']), by simp [ends],
        ⟨rfl, by simp⟩, Or.inr rfl⟩

/-- What a row of lookaheads for groups finds. -/
theorem search_anyAhead_iff (rsss : List (List (List Expr))) (x : List Char) :
    search A (concat (rsss.map fun rss => anyAheadExpr rss.flatten)) x = true ↔
      ∃ b a, b.reverse ++ a = x ∧ ∀ rss ∈ rsss, ∃ w a', '\n' ∉ w ∧ a = w ++ a' ∧
        matchesAt A (oneOf rss.flatten) (w.reverse ++ b, a') = true := by
  have hrow : (rsss.map fun rss => anyAheadExpr rss.flatten) =
      (rsss.map fun rss => concat [dotStar, oneOf rss.flatten]).map (Expr.lookahead true) := by
    rw [List.map_map]
    rfl
  rw [hrow, search_iff]
  simp only [matchesAt_lookaheads, List.forall_mem_map, matchesAt_dotStar,
    matchesAt_concat_singleton]

/-- **Without line breaks a row of lookaheads is found iff each group is.** -/
theorem search_anyAhead_line_iff (rsss : List (List (List Expr))) {x : List Char}
    (hx : '\n' ∉ x) :
    search A (concat (rsss.map fun rss => anyAheadExpr rss.flatten)) x = true ↔
      ∀ rss ∈ rsss, search A (oneOf rss.flatten) x = true := by
  rw [search_anyAhead_iff]
  simp only [search_iff]
  constructor
  · rintro ⟨b, a, rfl, hall⟩ rss hrss
    obtain ⟨w, a', _, rfl, hm⟩ := hall rss hrss
    exact ⟨w.reverse ++ b, a', by simp, hm⟩
  · intro hall
    refine ⟨[], x, rfl, fun rss hrss => ?_⟩
    obtain ⟨b, a, rfl, hm⟩ := hall rss hrss
    refine ⟨b.reverse, a, fun hn => hx (List.mem_append_left a hn), rfl, ?_⟩
    simpa using hm

/-- One text of each group starts on one line, behind a common position. -/
def AnyAhead (groups : List (List (List Char))) (x : List Char) : Prop :=
  ∃ b a, b ++ a = x ∧ ∀ ts ∈ groups, ∃ t ∈ ts, ∃ w, '\n' ∉ w ∧ w ++ t <+: a

/-- The patterns of escaped texts. -/
theorem forall₂_escape (groups : List (List (List Char))) :
    List.Forall₂ (List.Forall₂ fun p rs => parseOptions p = some rs)
      (groups.map fun ts => ts.map Text.reEscape)
      (groups.map fun ts => ts.map fun t => [literal t]) := by
  rw [List.forall₂_map_left_iff, List.forall₂_map_right_iff, List.forall₂_same]
  intro ts _
  rw [List.forall₂_map_left_iff, List.forall₂_map_right_iff, List.forall₂_same]
  exact fun t _ => parseOptions_escape t

theorem matchesAt_oneOf {rs : List Expr} (h : rs ≠ []) {p : Pos} :
    matchesAt A (oneOf rs) p = true ↔ ∃ r ∈ rs, matchesAt A r p = true := by
  simp only [matchesAt_iff, mem_ends_oneOf h]
  constructor
  · rintro ⟨q, r, hr, hq⟩
    exact ⟨r, hr, q, hq⟩
  · rintro ⟨r, hr, q, hq⟩
    exact ⟨q, r, hr, hq⟩

theorem reSearch_anyAhead_escape_iff {groups : List (List (List Char))}
    (hne : ∀ ts ∈ groups, ts ≠ []) (x : List Char) :
    reSearch A (anyAhead (groups.map fun ts => ts.map Text.reEscape)) x = true ↔
      AnyAhead groups x := by
  have hparse := parse_anyAhead (forall₂_escape groups) (by simpa using hne)
  rw [reSearch_of_parse hparse, search_anyAhead_iff]
  have hone : ∀ b a ts, ts ∈ groups → ((∃ w a', '\n' ∉ w ∧ a = w ++ a' ∧
      matchesAt A (oneOf (ts.map fun t => [literal t]).flatten) (w.reverse ++ b, a') = true) ↔
      ∃ t ∈ ts, ∃ w, '\n' ∉ w ∧ w ++ t <+: a) := by
    intro b a ts hts
    have hflat : (ts.map fun t => [literal t]).flatten = ts.map literal := by
      rw [← List.flatMap_def]
      exact List.flatMap_pure_eq_map literal ts
    have hnil : ts.map literal ≠ [] := by simpa using hne ts hts
    rw [hflat]
    simp only [matchesAt_oneOf hnil, List.mem_map, exists_exists_and_eq_and, matchesAt_literal]
    constructor
    · rintro ⟨w, a', hw, rfl, t, ht, hm⟩
      exact ⟨t, ht, w, hw, (List.prefix_append_right_inj w).mpr hm⟩
    · rintro ⟨t, ht, w, hw, s, hs⟩
      exact ⟨w, t ++ s, hw, by rw [← hs]; simp, t, ht, List.prefix_append t s⟩
  simp only [List.forall_mem_map]
  constructor
  · rintro ⟨b, a, hx, hall⟩
    exact ⟨b.reverse, a, hx, fun ts hts => (hone b a ts hts).mp (hall ts hts)⟩
  · rintro ⟨b, a, hx, hall⟩
    exact ⟨b.reverse, a, by simpa using hx, fun ts hts => (hone _ a ts hts).mpr (hall ts hts)⟩

/-! ### Groups of patterns on one line -/

/-- An alternative of a group is found. -/
def OptionFound (A : Alphabet) (option x : List Char) : Prop :=
  ∃ rs, parseOptions option = some rs ∧ search A (oneOf rs) x = true

theorem optionFound_escape {t x : List Char} :
    OptionFound A (Text.reEscape t) x ↔ t <:+: x := by
  rw [OptionFound, parseOptions_escape]
  simp only [Option.some.injEq, exists_eq_left', search_iff,
    matchesAt_oneOf (List.cons_ne_nil _ _), List.mem_singleton, exists_eq_left,
    matchesAt_literal]
  constructor
  · rintro ⟨b, a, rfl, s, rfl⟩
    exact ⟨b.reverse, s, by simp⟩
  · rintro ⟨b, s, rfl⟩
    exact ⟨b.reverse, t ++ s, by simp, List.prefix_append t s⟩

theorem optionFound_localFlag {p : List Char} (h : parse p ≠ none) {x : List Char} :
    OptionFound A (localFlag p) x ↔ reSearch A p x = true := by
  obtain ⟨r, hr⟩ := Option.ne_none_iff_exists'.mp h
  obtain ⟨rs, hrs, hends⟩ := parseOptions_localFlag hr
  rw [OptionFound, hrs, reSearch_of_parse hr]
  simp only [Option.some.injEq, exists_eq_left', search_iff, matchesAt_iff, hends]

theorem forall₂_parseOptions {groups : List (List (List Char))}
    (h : ∀ options ∈ groups, ∀ o ∈ options, parseOptions o ≠ none) :
    List.Forall₂ (List.Forall₂ fun p rs => parseOptions p = some rs) groups
      (groups.map fun options => options.map fun o => (parseOptions o).getD []) := by
  rw [List.forall₂_map_right_iff, List.forall₂_same]
  intro options hoptions
  rw [List.forall₂_map_right_iff, List.forall₂_same]
  intro o ho
  obtain ⟨rs, hrs⟩ := Option.ne_none_iff_exists'.mp (h options hoptions o ho)
  rw [hrs, Option.getD_some]

/-- **On one line a row of lookaheads asks for an alternative of each group.** -/
theorem reSearch_anyAhead_line_iff {groups : List (List (List Char))}
    (hne : ∀ options ∈ groups, options ≠ [])
    (hparse : ∀ options ∈ groups, ∀ o ∈ options, parseOptions o ≠ none) {x : List Char}
    (hx : '\n' ∉ x) :
    reSearch A (anyAhead groups) x = true ↔
      ∀ options ∈ groups, ∃ o ∈ options, OptionFound A o x := by
  have hsome : ∀ options ∈ groups, ∀ o ∈ options,
      parseOptions o = some ((parseOptions o).getD []) := by
    intro options hoptions o ho
    obtain ⟨rs, hrs⟩ := Option.ne_none_iff_exists'.mp (hparse options hoptions o ho)
    rw [hrs, Option.getD_some]
  rw [reSearch_of_parse (parse_anyAhead (forall₂_parseOptions hparse) hne),
    search_anyAhead_line_iff _ hx,
    List.forall_mem_map]
  refine forall₂_congr fun options hoptions => ?_
  obtain ⟨o₀, ho₀⟩ := List.exists_mem_of_ne_nil _ (hne options hoptions)
  have hflat : (options.map fun o => (parseOptions o).getD []).flatten ≠ [] := by
    obtain ⟨e, he⟩ :=
      List.exists_mem_of_ne_nil _ (parseOptions_ne_nil (hsome options hoptions o₀ ho₀))
    exact List.ne_nil_of_mem (List.mem_flatten.mpr ⟨_, List.mem_map_of_mem ho₀, he⟩)
  simp only [search_iff, matchesAt_oneOf hflat, List.mem_flatten, List.mem_map,
    exists_exists_and_eq_and]
  constructor
  · rintro ⟨b, a, ht, e, ⟨o, ho, he⟩, hm⟩
    refine ⟨o, ho, _, hsome options hoptions o ho, search_iff.mpr ⟨b, a, ht, ?_⟩⟩
    exact (matchesAt_oneOf (List.ne_nil_of_mem he)).mpr ⟨e, he, hm⟩
  · rintro ⟨o, ho, rs, hrs, hfound⟩
    obtain ⟨b, a, ht, hm⟩ := search_iff.mp hfound
    obtain ⟨e, he, hm⟩ := (matchesAt_oneOf (parseOptions_ne_nil hrs)).mp hm
    exact ⟨b, a, ht, e, ⟨o, ho, by rwa [hrs, Option.getD_some]⟩, hm⟩

end Search

end Regex
