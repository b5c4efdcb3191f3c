import Mathlib.Data.List.Basic
import Mathlib.Data.List.Infix

/-!
# POSIX paths as texts

A path is what is between its slashes: empty pieces and single dots say nothing, two dots are kept
as they are.

* `PosixPath`: a path without the pieces that say nothing.
* `parse`, `asPosix`: reading and writing a path.
* `join`: a path after another, which an absolute path takes the place of.
* `StrictlyInside`: a place below another one, as the texts say.
* `asPosix_parse`: a text that is nothing but pieces is written as it was read.
* `strictlyInside_join`: a relative path without two dots leads below.
-/

namespace PosixPath

/-- A piece that stands for a name. -/
def IsSegment (s : List Char) : Prop := s ≠ [] ∧ s ≠ ['.'] ∧ '/' ∉ s

instance (s : List Char) : Decidable (IsSegment s) :=
  inferInstanceAs (Decidable (s ≠ [] ∧ s ≠ ['.'] ∧ '/' ∉ s))

/-- How a path begins: without a slash, with one, or with exactly two. -/
inductive Root
  | relative
  | slash
  | twoSlashes
  deriving DecidableEq, Repr

end PosixPath

/-- A path, read. -/
structure PosixPath where
  root : PosixPath.Root
  tail : List (List Char)
  isSegment : ∀ s ∈ tail, PosixPath.IsSegment s
  deriving DecidableEq

namespace PosixPath

theorem ext {p q : PosixPath} (hroot : p.root = q.root) (htail : p.tail = q.tail) : p = q := by
  cases p
  cases q
  subst hroot
  subst htail
  rfl

/-! ### Reading and writing -/

/-- The slashes a path begins with, and the rest of it. -/
def splitRoot : List Char → Root × List Char
  | '/' :: '/' :: '/' :: rest => (.slash, rest)
  | '/' :: '/' :: rest => (.twoSlashes, rest)
  | '/' :: rest => (.slash, rest)
  | t => (.relative, t)

/-- The pieces that stand for names. -/
def segments (t : List Char) : List (List Char) :=
  (t.splitOn '/').filter fun s => s ≠ [] ∧ s ≠ ['.']

theorem notMem_of_mem_splitOn {c : Char} {t s : List Char} (h : s ∈ t.splitOn c) : c ∉ s := by
  induction t generalizing s with
  | nil =>
    rw [List.splitOn_nil, List.mem_singleton] at h
    rw [h]
    exact List.not_mem_nil
  | cons d t ih =>
    rw [List.splitOn_cons_eq_if_modifyHead] at h
    by_cases hd : (d == c) = true
    · rw [if_pos hd] at h
      rcases List.mem_cons.mp h with rfl | h
      · exact List.not_mem_nil
      · exact ih h
    · rw [if_neg hd] at h
      cases hsplit : t.splitOn c with
      | nil => exact absurd hsplit (List.splitOn_ne_nil c t)
      | cons l ls =>
        rw [hsplit] at h ih
        rcases List.mem_cons.mp h with rfl | h
        · rw [List.mem_cons, not_or]
          exact ⟨fun hcd => hd (by simp [hcd]), ih List.mem_cons_self⟩
        · exact ih (List.mem_cons_of_mem l h)

theorem isSegment_of_mem_segments {t s : List Char} (h : s ∈ segments t) : IsSegment s := by
  obtain ⟨hmem, hs⟩ := List.mem_filter.mp h
  have hne : s ≠ [] ∧ s ≠ ['.'] := by simpa using hs
  exact ⟨hne.1, hne.2, notMem_of_mem_splitOn hmem⟩

/-- `PurePosixPath(t)`. -/
def parse (t : List Char) : PosixPath where
  root := (splitRoot t).1
  tail := segments (splitRoot t).2
  isSegment _ h := isSegment_of_mem_segments h

def Root.text : Root → List Char
  | .relative => []
  | .slash => ['/']
  | .twoSlashes => ['/', '/']

/-- `path.parts`. -/
def parts (p : PosixPath) : List (List Char) :=
  if p.root = .relative then p.tail else Root.text p.root :: p.tail

/-- `path.as_posix()`. -/
def asPosix (p : PosixPath) : List Char :=
  if p.root = .relative ∧ p.tail = [] then ['.']
  else Root.text p.root ++ ['/'].intercalate p.tail

/-- A text without a slash at its start is a relative path. -/
theorem splitRoot_of_head {t : List Char} (h : t.head? ≠ some '/') :
    splitRoot t = (.relative, t) := by
  cases t with
  | nil => rfl
  | cons c t =>
    have hc : c ≠ '/' := by simpa using h
    unfold splitRoot
    split
    · next heq => exact absurd (List.cons.inj heq).1 hc
    · next heq => exact absurd (List.cons.inj heq).1 hc
    · next heq => exact absurd (List.cons.inj heq).1 hc
    · rfl

theorem parse_of_head {t : List Char} (h : t.head? ≠ some '/') :
    (parse t).root = .relative ∧ (parse t).tail = segments t :=
  ⟨congrArg Prod.fst (splitRoot_of_head h),
    congrArg (fun r : Root × List Char => segments r.2) (splitRoot_of_head h)⟩

/-- Nothing but pieces that stand for names. -/
def IsPlain (t : List Char) : Prop := ∀ s ∈ t.splitOn '/', IsSegment s

instance (t : List Char) : Decidable (IsPlain t) :=
  inferInstanceAs (Decidable (∀ s ∈ t.splitOn '/', IsSegment s))

theorem IsPlain.head {t : List Char} (h : IsPlain t) : t.head? ≠ some '/' := by
  cases t with
  | nil => simp
  | cons c t =>
    intro hc
    have hslash : c = '/' := by simpa using hc
    have hempty : [] ∈ (c :: t).splitOn '/' := by
      rw [List.splitOn_cons_eq_if_modifyHead, if_pos (by simpa using hslash)]
      exact List.mem_cons_self
    exact (h [] hempty).1 rfl

theorem IsPlain.segments {t : List Char} (h : IsPlain t) : segments t = t.splitOn '/' := by
  refine List.filter_eq_self.mpr fun s hs => ?_
  have hsegment := h s hs
  simpa using ⟨hsegment.1, hsegment.2.1⟩

/-- **A text that is nothing but pieces** is written as it was read. -/
theorem asPosix_parse {t : List Char} (h : IsPlain t) : (parse t).asPosix = t := by
  obtain ⟨hroot, htail⟩ := parse_of_head h.head
  rw [h.segments] at htail
  rw [asPosix, htail, hroot, if_neg fun hnil => List.splitOn_ne_nil '/' t hnil.2]
  exact List.intercalate_splitOn '/'

/-! ### One path after another -/

/-- `base / path`. -/
def join (base path : PosixPath) : PosixPath :=
  if path.root = .relative then {
    root := base.root
    tail := base.tail ++ path.tail
    isSegment := fun s hs => (List.mem_append.mp hs).elim (base.isSegment s) (path.isSegment s) }
  else path

theorem join_relative {base path : PosixPath} (h : path.root = .relative) :
    (base.join path).root = base.root ∧ (base.join path).tail = base.tail ++ path.tail := by
  rw [join, if_pos h]
  exact ⟨rfl, rfl⟩

/-- The path that says nothing. -/
def here : PosixPath := ⟨.relative, [], fun _ h => absurd h List.not_mem_nil⟩

/-- `PurePosixPath(*texts)`. -/
def ofParts (texts : List (List Char)) : PosixPath :=
  texts.foldl (fun p t => p.join (parse t)) here

theorem parse_segment {s : List Char} (h : IsSegment s) :
    (parse s).root = .relative ∧ (parse s).tail = [s] := by
  have hplain : IsPlain s := by
    intro x hx
    rw [List.splitOn_eq_singleton h.2.2, List.mem_singleton] at hx
    rw [hx]
    exact h
  obtain ⟨hroot, htail⟩ := parse_of_head hplain.head
  rw [hplain.segments, List.splitOn_eq_singleton h.2.2] at htail
  exact ⟨hroot, htail⟩

/-- Pieces that stand for names make a path of just these. -/
theorem ofParts_segments {texts : List (List Char)} (h : ∀ s ∈ texts, IsSegment s) :
    ofParts texts = ⟨.relative, texts, h⟩ := by
  have hfrom : ∀ (base : PosixPath), base.root = .relative →
      (texts.foldl (fun p t => p.join (parse t)) base).root = .relative ∧
        (texts.foldl (fun p t => p.join (parse t)) base).tail = base.tail ++ texts := by
    induction texts with
    | nil => intro base hbase; exact ⟨hbase, (List.append_nil _).symm⟩
    | cons s texts ih =>
      intro base hbase
      rw [List.forall_mem_cons] at h
      obtain ⟨hroot, htail⟩ := parse_segment h.1
      obtain ⟨hbroot, hbtail⟩ := @join_relative base (parse s) hroot
      rw [hbase] at hbroot
      rw [htail] at hbtail
      obtain ⟨hr, ht⟩ := ih h.2 (base.join (parse s)) hbroot
      refine ⟨hr, ?_⟩
      rw [List.foldl_cons, ht, hbtail, List.append_assoc, List.singleton_append]
  obtain ⟨hroot, htail⟩ := hfrom here rfl
  exact ext hroot htail

/-! ### Places below another -/

/-- Below `base` and not `base` itself: what follows `base` are names, none of them two dots. -/
def StrictlyInside (base p : PosixPath) : Prop :=
  p.root = base.root ∧ ∃ rest, rest ≠ [] ∧ p.tail = base.tail ++ rest ∧ ['.', '.'] ∉ rest

/-- **A relative path without two dots leads below.** -/
theorem strictlyInside_join {base path : PosixPath} (hroot : path.root = .relative)
    (hne : path.tail ≠ []) (hdots : ['.', '.'] ∉ path.tail) :
    base.StrictlyInside (base.join path) := by
  obtain ⟨hjroot, hjtail⟩ := @join_relative base path hroot
  exact ⟨hjroot, path.tail, hne, hjtail, hdots⟩

end PosixPath
