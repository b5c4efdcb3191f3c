import Honeynet.Lib.Text
import Mathlib.Data.List.Infix

/-!
# Pieces of a text that is added to

* `replaceFirst`, `replaceAll`: `str.replace`.
* `insertBefore`: a piece put before the first occurrence of a text, or at the end.
* `Unbroken`: a piece that no insertion before `sep` breaks.
* `infix_insertBefore`: such a piece stays in a text that is added to.
* `infix_of_infix_insertBefore`: what is new in the text is in what was added.
* `quoted_infix`: a quoted piece is found at the quotes of a text.
-/

namespace Text

/-- `text.replace(old, new, 1)` for a nonempty `old`. -/
def replaceFirst (old new : List Char) : List Char → List Char
  | [] => []
  | c :: t =>
    if old.isPrefixOf (c :: t) then new ++ (c :: t).drop old.length
    else c :: replaceFirst old new t

/-- What follows, with `skip` characters of the last occurrence still to pass. -/
def replaceAllFrom (old new : List Char) : ℕ → List Char → List Char
  | _, [] => []
  | skip + 1, _ :: t => replaceAllFrom old new skip t
  | 0, c :: t =>
    if old.isPrefixOf (c :: t) then new ++ replaceAllFrom old new (old.length - 1) t
    else c :: replaceAllFrom old new 0 t

/-- `text.replace(old, new)` for a nonempty `old`. -/
def replaceAll (old new t : List Char) : List Char := replaceAllFrom old new 0 t

/-- `piece` before the first `sep`, or at the end of a text that has none. -/
def insertBefore (sep piece t : List Char) : List Char :=
  if contains sep t then replaceFirst sep (piece ++ sep) t else t ++ piece

/-- No end of the piece can be the start of `sep` and what follows it. -/
def Unbroken (sep p : List Char) : Prop :=
  ∀ u v, p = u ++ v → u ≠ [] → v ≠ [] → ¬ v <+: sep ∧ ¬ sep <+: v

/-! ### Where a piece stands -/

theorem replaceFirst_eq {sep : List Char} (hsep : sep ≠ []) (piece : List Char) {t : List Char}
    (h : sep <:+: t) : ∃ a b, t = a ++ b ∧ sep <+: b ∧
      replaceFirst sep (piece ++ sep) t = a ++ (piece ++ b) := by
  induction t with
  | nil => exact absurd (List.infix_nil.mp h) hsep
  | cons c t ih =>
    rw [replaceFirst]
    by_cases hpre : sep.isPrefixOf (c :: t) = true
    · obtain ⟨rest, hrest⟩ := List.isPrefixOf_iff_prefix.mp hpre
      refine ⟨[], c :: t, rfl, ⟨rest, hrest⟩, ?_⟩
      rw [if_pos hpre, ← hrest, List.drop_left]
      simp
    · rw [if_neg hpre]
      rcases List.infix_cons_iff.mp h with hstart | hrest
      · exact absurd (List.isPrefixOf_iff_prefix.mpr hstart) hpre
      · obtain ⟨a, b, ht, hb, heq⟩ := ih hrest
        exact ⟨c :: a, b, by rw [ht]; rfl, hb, by rw [heq]; rfl⟩

theorem insertBefore_eq {sep : List Char} (hsep : sep ≠ []) (piece t : List Char) :
    ∃ a b, t = a ++ b ∧ (sep <+: b ∨ b = []) ∧
      insertBefore sep piece t = a ++ (piece ++ b) := by
  rw [insertBefore]
  by_cases h : contains sep t = true
  · obtain ⟨a, b, ht, hb, heq⟩ := replaceFirst_eq hsep piece (contains_iff.mp h)
    exact ⟨a, b, ht, Or.inl hb, by rw [if_pos h, heq]⟩
  · exact ⟨t, [], (List.append_nil t).symm, Or.inr rfl, by rw [if_neg h, List.append_nil]⟩

/-- A piece of a text that something is put into stands on one side, unless it is broken there. -/
theorem infix_insert {p a b : List Char} (piece : List Char) (h : p <:+: a ++ b)
    (hp : ∀ u v, p = u ++ v → u ≠ [] → v ≠ [] → ¬ v <+: b) : p <:+: a ++ (piece ++ b) := by
  rcases List.infix_append_iff_ne_nil.mp h with ha | hb | ⟨u, v, hu, hv, hpuv, -, hvb⟩
  · exact List.infix_append_of_infix_left ha
  · exact List.infix_append_of_infix_right (List.infix_append_of_infix_right hb)
  · exact absurd hvb (hp u v hpuv hu hv)

/-- A piece without the character stands on one side of it. -/
theorem infix_of_infix_append_cons {p a b : List Char} {c : Char} (hc : c ∉ p)
    (h : p <:+: a ++ c :: b) : p <:+: a ∨ p <:+: b := by
  have hcons : ∀ {q : List Char}, q ≠ [] → c ∉ q → ¬ q <+: c :: b := by
    intro q hq hcq hpre
    obtain ⟨d, q', rfl⟩ := List.exists_cons_of_ne_nil hq
    obtain ⟨rfl, -⟩ := List.cons_prefix_cons.mp hpre
    exact hcq List.mem_cons_self
  by_cases hp : p = []
  · exact Or.inl (hp ▸ List.nil_infix)
  rcases List.infix_append_iff_ne_nil.mp h with ha | hb | ⟨u, v, -, hv, hpuv, -, hvb⟩
  · exact Or.inl ha
  · rcases List.infix_cons_iff.mp hb with hpre | hrest
    · exact absurd hpre (hcons hp hc)
    · exact Or.inr hrest
  · exact absurd hvb (hcons hv fun hcv => hc (hpuv ▸ List.mem_append_right u hcv))

/-! ### Adding to a text -/

theorem infix_insertBefore_self {sep : List Char} (hsep : sep ≠ []) (piece t : List Char) :
    piece <:+: insertBefore sep piece t := by
  obtain ⟨a, b, -, -, heq⟩ := insertBefore_eq hsep piece t
  exact ⟨a, b, by rw [heq, List.append_assoc]⟩

/-- **A piece that is not broken stays**. -/
theorem infix_insertBefore {sep p : List Char} (hsep : sep ≠ []) (hp : Unbroken sep p)
    (piece : List Char) {t : List Char} (h : p <:+: t) : p <:+: insertBefore sep piece t := by
  obtain ⟨a, b, ht, hb, heq⟩ := insertBefore_eq hsep piece t
  rw [heq]
  refine infix_insert piece (ht ▸ h) fun u v huv hu hv hvb => ?_
  rcases hb with hb | hb
  · rcases List.prefix_or_prefix_of_prefix hvb hb with hvs | hsv
    · exact (hp u v huv hu hv).1 hvs
    · exact (hp u v huv hu hv).2 hsv
  · rw [hb] at hvb
    exact hv (List.prefix_nil.mp hvb)

/-- **What is new is in what was added**, where that stands between two characters the piece does
not have. -/
theorem infix_of_infix_insertBefore {sep p mid t : List Char} {c : Char} (hsep : sep ≠ [])
    (hc : c ∉ p) (h : p <:+: insertBefore sep (c :: (mid ++ [c])) t) : p <:+: t ∨ p <:+: mid := by
  obtain ⟨a, b, ht, -, heq⟩ := insertBefore_eq hsep (c :: (mid ++ [c])) t
  rw [heq, List.cons_append] at h
  rcases infix_of_infix_append_cons hc h with ha | hrest
  · exact Or.inl (ht ▸ ha.trans List.infix_append_left)
  · rw [List.append_assoc, List.singleton_append] at hrest
    rcases infix_of_infix_append_cons hc hrest with hmid | hb
    · exact Or.inr hmid
    · exact Or.inl (ht ▸ hb.trans List.infix_append_right)

/-! ### Quoted pieces -/

/-- A text is read up to its first quote. -/
theorem eq_of_append_cons {q : Char} {a b r s : List Char} (ha : q ∉ a) (hb : q ∉ b)
    (h : a ++ q :: r = b ++ q :: s) : a = b ∧ r = s := by
  induction a generalizing b with
  | nil =>
    cases b with
    | nil => exact ⟨rfl, (List.cons.inj h).2⟩
    | cons d b =>
      have hq : q = d := (List.cons.inj h).1
      exact absurd (hq ▸ List.mem_cons_self) hb
  | cons c a ih =>
    rw [List.mem_cons, not_or] at ha
    cases b with
    | nil =>
      have hq : c = q := (List.cons.inj h).1
      exact absurd hq.symm ha.1
    | cons d b =>
      rw [List.mem_cons, not_or] at hb
      obtain ⟨hcd, hrest⟩ := List.cons.inj h
      obtain ⟨hab, hrs⟩ := ih ha.2 hb.2 hrest
      exact ⟨by rw [hcd, hab], hrs⟩

/-- A piece that has a quote stands at the first quote of a text, or after it. -/
theorem quoted_infix {q : Char} {u r x y : List Char} (hu : q ∉ u) (hx : q ∉ x)
    (h : u ++ q :: r <:+: x ++ q :: y) : (u <:+ x ∧ r <+: y) ∨ u ++ q :: r <:+: y := by
  obtain ⟨a, b, hab⟩ := h
  by_cases ha : q ∈ a
  · -- the first quote of the text is before the piece
    obtain ⟨a', a'', ha', hfirst⟩ := List.eq_append_cons_of_mem ha
    rw [ha', List.append_assoc, List.append_assoc, List.cons_append] at hab
    obtain ⟨-, hy⟩ := eq_of_append_cons hfirst hx hab
    exact Or.inr ⟨a'', b, by rw [← hy, List.append_assoc]⟩
  · have hau : q ∉ a ++ u := fun hmem => (List.mem_append.mp hmem).elim ha hu
    rw [← List.append_assoc, List.append_assoc, List.cons_append] at hab
    obtain ⟨hxa, hy⟩ := eq_of_append_cons hau hx hab
    exact Or.inl ⟨⟨a, hxa⟩, ⟨b, hy⟩⟩

end Text
