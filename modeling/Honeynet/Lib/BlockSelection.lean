import Honeynet.Lib.Selection
import Mathlib.Data.List.Nodup

/-!
# The first best member of a list of blocks

A scan over blocks laid end to end, where the blocks may stand in another order.

* `GapOrder`: a strict order in which a member that compares with neither of two ordered ones
  stays behind the later of them.  Levels of comparison, each with members that compare with
  nothing, make one up (`Level.gapOrder`).
* `best_flatten`: a block whose best member comes before that of every other block decides the
  scan, wherever it stands.
* `best_perm_of_leads`, `leads_of_best_perm`: the scan ends the same in every order of the blocks
  iff there is such a block.
-/

namespace Selection

variable {α : Type*} {better : α → α → Bool}

/-! ### Orders -/

/-- A strict order in which what compares with neither of two ordered members comes before nothing
that the later one does not come before. -/
structure GapOrder (r : α → α → Prop) : Prop where
  irrefl : ∀ x, ¬ r x x
  trans : ∀ {x y z}, r x y → r y z → r x z
  gap : ∀ {w x y z}, r w y → ¬ r x w → ¬ r w x → ¬ r x y → ¬ r y x → r x z → r y z

/-- A linear order of keys. -/
theorem gapOrder_key {κ : Type*} [LinearOrder κ] (key : α → κ) :
    GapOrder fun x y => key x < key y where
  irrefl x := lt_irrefl (key x)
  trans := lt_trans
  gap hwy hxw hwx hxy hyx hxz := by
    rename_i w x y z
    have hw : key x = key w := le_antisymm (not_lt.mp hwx) (not_lt.mp hxw)
    have hy : key x = key y := le_antisymm (not_lt.mp hyx) (not_lt.mp hxy)
    exact absurd hwy (hw ▸ hy ▸ lt_irrefl (key y))

/-- One level of a comparison: `same` goes on to the next level, `less` decides.  What is not even
the same as itself compares with nothing. -/
structure Level (α : Type*) where
  same : α → α → Prop
  less : α → α → Prop

structure Level.Lawful (l : Level α) : Prop where
  symm : ∀ {x y}, l.same x y → l.same y x
  same_trans : ∀ {x y z}, l.same x y → l.same y z → l.same x z
  irrefl : ∀ x, ¬ l.less x x
  trans : ∀ {x y z}, l.less x y → l.less y z → l.less x z
  less_same : ∀ {x y z}, l.less x y → l.same y z → l.less x z
  same_less : ∀ {x y z}, l.same x y → l.less y z → l.less x z
  same_of_less : ∀ {x y}, l.less x y → l.same x x ∧ l.same y y
  total : ∀ {x y}, l.same x x → l.same y y → l.less x y ∨ l.same x y ∨ l.less y x

namespace Level

variable {l : Level α} {r : α → α → Prop}

/-- Compared at this level, and where that does not decide, further on. -/
def andThen (l : Level α) (r : α → α → Prop) (x y : α) : Prop :=
  l.less x y ∨ l.same x y ∧ r x y

theorem Lawful.not_same (h : l.Lawful) {x y : α} (hless : l.less x y) : ¬ l.same x y := fun hsame =>
  h.irrefl x (h.less_same hless (h.symm hsame))

/-- A level as it is computed: the further levels count only where this one finds the same. -/
theorem Lawful.andThen_iff (h : l.Lawful) {x y : α} :
    l.andThen r x y ↔ (l.same x y → r x y) ∧ (¬ l.same x y → l.less x y) := by
  by_cases hsame : l.same x y
  · have hless : ¬ l.less x y := fun hless => h.not_same hless hsame
    simp [andThen, hsame, hless]
  · simp [andThen, hsame]

/-- What compares with a member that is the same as itself in no way is not the same as itself. -/
theorem Lawful.not_self (h : l.Lawful) {x y : α} (hy : l.same y y) (hsame : ¬ l.same x y)
    (hxy : ¬ l.andThen r x y) (hyx : ¬ l.andThen r y x) : ¬ l.same x x := fun hx => by
  rcases h.total hx hy with hless | heq | hless
  · exact hxy (Or.inl hless)
  · exact hsame heq
  · exact hyx (Or.inl hless)

/-- What is not the same as itself comes before nothing. -/
theorem Lawful.not_andThen (h : l.Lawful) {x : α} (hx : ¬ l.same x x) (z : α) :
    ¬ l.andThen r x z := by
  rintro (hless | ⟨hsame, _⟩)
  · exact hx (h.same_of_less hless).1
  · exact hx (h.same_trans hsame (h.symm hsame))

/-- **A level in front of a gap order** is a gap order. -/
theorem Lawful.gapOrder (h : l.Lawful) (hr : GapOrder r) : GapOrder (l.andThen r) where
  irrefl x := by
    rintro (hless | ⟨_, hnext⟩)
    · exact h.irrefl x hless
    · exact hr.irrefl x hnext
  trans := by
    rintro x y z (hxy | ⟨hxy, hxy'⟩) (hyz | ⟨hyz, hyz'⟩)
    · exact Or.inl (h.trans hxy hyz)
    · exact Or.inl (h.less_same hxy hyz)
    · exact Or.inl (h.same_less hxy hyz)
    · exact Or.inr ⟨h.same_trans hxy hyz, hr.trans hxy' hyz'⟩
  gap := by
    rintro w x y z (hwy | ⟨hwy, hwy'⟩) hxw hwx hxy hyx hxz
    · have hsame : ¬ l.same x y := fun hsame =>
        hwx (Or.inl (h.less_same hwy (h.symm hsame)))
      exact absurd hxz (h.not_andThen (h.not_self (h.same_of_less hwy).2 hsame hxy hyx) z)
    · by_cases hsame : l.same x y
      · -- all three are the same here, and the next level decides
        have hsame' : l.same x w := h.same_trans hsame (h.symm hwy)
        rcases hxz with hless | ⟨hxz, hxz'⟩
        · exact Or.inl (h.same_less (h.symm hsame) hless)
        · refine Or.inr ⟨h.same_trans (h.symm hsame) hxz, hr.gap hwy' ?_ ?_ ?_ ?_ hxz'⟩
          · exact fun hnext => hxw (Or.inr ⟨hsame', hnext⟩)
          · exact fun hnext => hwx (Or.inr ⟨h.symm hsame', hnext⟩)
          · exact fun hnext => hxy (Or.inr ⟨hsame, hnext⟩)
          · exact fun hnext => hyx (Or.inr ⟨h.symm hsame, hnext⟩)
      · have hself : l.same y y := h.same_trans (h.symm hwy) hwy
        exact absurd hxz (h.not_andThen (h.not_self hself hsame hxy hyx) z)

/-- A linear order of keys as a level. -/
def ofKey {κ : Type*} [LinearOrder κ] (key : α → κ) : Level α where
  same x y := key x = key y
  less x y := key x < key y

theorem lawful_ofKey {κ : Type*} [LinearOrder κ] (key : α → κ) : (ofKey key).Lawful where
  symm h := h.symm
  same_trans h h' := h.trans h'
  irrefl x := lt_irrefl (key x)
  trans h h' := lt_trans h h'
  less_same h h' := lt_of_lt_of_eq h h'
  same_less h h' := lt_of_eq_of_lt h h'
  same_of_less _ := ⟨rfl, rfl⟩
  total _ _ := lt_trichotomy _ _

end Level

/-! ### The scan -/

/-- The first best member, if there is one. -/
def best (better : α → α → Bool) : List α → Option α
  | [] => none
  | a :: as => some (bestFrom better a as)

theorem bestFrom_append (a : α) (xs ys : List α) :
    bestFrom better a (xs ++ ys) = bestFrom better (bestFrom better a xs) ys := List.foldl_append

theorem best_append {xs : List α} {v : α} (h : best better xs = some v) (ys : List α) :
    best better (xs ++ ys) = some (bestFrom better v ys) := by
  cases xs with
  | nil => exact absurd h (by simp [best])
  | cons a as => rw [← Option.some.inj h, List.cons_append, best, bestFrom_append]

theorem best_mem {xs : List α} {v : α} (h : best better xs = some v) : v ∈ xs := by
  cases xs with
  | nil => exact absurd h (by simp [best])
  | cons a as => exact Option.some.inj h ▸ bestFrom_mem a as

theorem best_eq_none {xs : List α} : best better xs = none ↔ xs = [] := by
  cases xs <;> simp [best]

/-- Members that are compared by their images are selected by them. -/
theorem best_map {β : Type*} {better' : β → β → Bool} {f : α → β}
    (h : ∀ x y, better' (f x) (f y) = better x y) (xs : List α) :
    best better' (xs.map f) = (best better xs).map f := by
  have hscan : ∀ (ys : List α) (a : α),
      bestFrom better' (f a) (ys.map f) = f (bestFrom better a ys) := by
    intro ys
    induction ys with
    | nil => exact fun _ => rfl
    | cons y ys ih =>
      intro a
      rw [List.map_cons, bestFrom_cons, bestFrom_cons, h, ← apply_ite f, ih]
  cases xs with
  | nil => rfl
  | cons a as => exact congrArg some (hscan as a)

section GapOrder

variable (order : GapOrder fun x y => better x y = true)

include order

/-- A scan ends where it began or before. -/
theorem bestFrom_eq_or (a : α) (xs : List α) :
    bestFrom better a xs = a ∨ better (bestFrom better a xs) a = true := by
  induction xs generalizing a with
  | nil => exact Or.inl rfl
  | cons x xs ih =>
    rw [bestFrom_cons]
    by_cases hx : better x a = true
    · rw [if_pos hx]
      rcases ih x with heq | hbefore
      · rw [heq]
        exact Or.inr hx
      · exact Or.inr (order.trans hbefore hx)
    · rw [if_neg hx]
      exact ih a

/-- Nothing that is scanned comes before the end of the scan. -/
theorem not_better_bestFrom (a : α) (xs : List α) :
    ∀ x ∈ a :: xs, better x (bestFrom better a xs) ≠ true := by
  induction xs generalizing a with
  | nil =>
    intro x hx
    rw [List.mem_singleton.mp hx]
    exact order.irrefl a
  | cons y xs ih =>
    rw [bestFrom_cons]
    have hstart : better a (bestFrom better (if better y a then y else a) xs) ≠ true ∧
        better y (bestFrom better (if better y a then y else a) xs) ≠ true := by
      by_cases hy : better y a = true
      · rw [if_pos hy]
        have hlast := ih y y List.mem_cons_self
        exact ⟨fun ha => hlast (order.trans hy ha), hlast⟩
      · rw [if_neg hy]
        refine ⟨ih a a List.mem_cons_self, fun hbefore => ?_⟩
        rcases bestFrom_eq_or order a xs with heq | hless
        · exact hy (heq ▸ hbefore)
        · exact hy (order.trans hbefore hless)
    intro x hx
    rcases List.mem_cons.mp hx with rfl | hx
    · exact hstart.1
    rcases List.mem_cons.mp hx with rfl | hx
    · exact hstart.2
    · exact ih _ x (List.mem_cons_of_mem _ hx)

theorem not_better_best {xs : List α} {v : α} (h : best better xs = some v) :
    ∀ x ∈ xs, better x v ≠ true := by
  cases xs with
  | nil => exact fun x hx => absurd hx List.not_mem_nil
  | cons a as => exact Option.some.inj h ▸ not_better_bestFrom order a as

omit order in
theorem bestFrom_eq_self {w : α} {xs : List α} (h : ∀ x ∈ xs, better x w ≠ true) :
    bestFrom better w xs = w := by
  induction xs with
  | nil => rfl
  | cons x xs ih =>
    rw [bestFrom_cons, if_neg (h x List.mem_cons_self)]
    exact ih fun y hy => h y (List.mem_cons_of_mem x hy)

/-- A scan that is at `r` and one that is at `s` end alike, where the end comes before `s` and `r`
does not. -/
theorem bestFrom_eq_of_before {v r s : α} {xs : List α} (hv : bestFrom better r xs = v)
    (hvs : better v s = true) (hrs : better r s ≠ true) : bestFrom better s xs = v := by
  induction xs generalizing r s with
  | nil =>
    rw [bestFrom_nil] at hv
    exact absurd (hv ▸ hvs) hrs
  | cons x xs ih =>
    rw [bestFrom_cons] at hv ⊢
    by_cases hxr : better x r = true
    · rw [if_pos hxr] at hv
      by_cases hxs : better x s = true
      · rw [if_pos hxs, hv]
      · rw [if_neg hxs]
        exact ih hv hvs hxs
    · rw [if_neg hxr] at hv
      by_cases hxs : better x s = true
      · rw [if_pos hxs]
        have hvr : better v r = true := by
          rcases bestFrom_eq_or order r xs with heq | hless
          · exact absurd (heq.symm.trans hv ▸ hvs) hrs
          · exact hv ▸ hless
        have hrx : better r x ≠ true := fun hrx => hrs (order.trans hrx hxs)
        refine ih hv ?_ hrx
        -- otherwise `x` compares with neither of the two, and `r` comes before `s` too
        by_contra hvx
        have hxv : better x v ≠ true := fun hxv => hxr (order.trans hxv hvr)
        exact hrs (order.gap hvr hxv hvx hxr hrx hxs)
      · rw [if_neg hxs]
        exact ih hv hvs hrs

/-- A block whose best member comes before what the scan has so far takes over. -/
theorem bestFrom_block {t v : α} {block : List α} (hv : best better block = some v)
    (hvt : better v t = true) : bestFrom better t block = v := by
  cases block with
  | nil => exact absurd (best_mem hv) List.not_mem_nil
  | cons b bs =>
    have hblock : bestFrom better b bs = v := Option.some.inj hv
    rw [bestFrom_cons]
    by_cases hbt : better b t = true
    · rw [if_pos hbt, hblock]
    · rw [if_neg hbt]
      exact bestFrom_eq_of_before order hblock hvt hbt

/-- What comes before the scan so far and before the best of the next block comes before the scan
after it. -/
theorem before_bestFrom {w t : α} {block : List α} (hwt : better w t = true)
    (hwv : ∀ v, best better block = some v → better w v = true) :
    better w (bestFrom better t block) = true := by
  cases hbest : best better block with
  | none => rwa [best_eq_none.mp hbest, bestFrom_nil]
  | some v =>
    have hwv := hwv v hbest
    rcases bestFrom_eq_or order t block with heq | hless
    · rwa [heq]
    · by_contra hnot
      have hmem : bestFrom better t block ∈ block := by
        refine (List.mem_cons.mp (bestFrom_mem t block)).resolve_left fun heq => hnot ?_
        rwa [heq]
      have hmin := not_better_best order hbest _ hmem
      -- the scan has reached a member that compares with neither, so that the best comes before
      -- where it stood, and takes over
      have hvt : better v t = true := by
        refine order.gap hwv (fun hw => hmin (order.trans hw hwv)) hnot hmin (fun hv => ?_) hless
        exact hnot (order.trans hwv hv)
      exact hnot (bestFrom_block order hbest hvt ▸ hwv)

/-- **A block whose best member comes before that of every other block** decides the scan. -/
theorem best_flatten {pre post : List (List α)} {block : List α} {w : α}
    (hw : best better block = some w)
    (hlead : ∀ b ∈ pre ++ post, ∀ v, best better b = some v → better w v = true) :
    best better (pre ++ block :: post).flatten = some w := by
  have hscan : ∀ (blocks : List (List α)) (t : α), better w t = true →
      (∀ b ∈ blocks, ∀ v, best better b = some v → better w v = true) →
        better w (bestFrom better t blocks.flatten) = true := by
    intro blocks
    induction blocks with
    | nil => exact fun t ht _ => ht
    | cons b blocks ih =>
      intro t ht hblocks
      rw [List.flatten_cons, bestFrom_append]
      exact ih _ (before_bestFrom order ht (hblocks b List.mem_cons_self))
        fun b' hb' => hblocks b' (List.mem_cons_of_mem b hb')
  have hpost : bestFrom better w post.flatten = w := by
    refine bestFrom_eq_self fun x hx hxw => ?_
    obtain ⟨b, hb, hxb⟩ := List.mem_flatten.mp hx
    cases hbest : best better b with
    | none => exact absurd (best_eq_none.mp hbest) (List.ne_nil_of_mem hxb)
    | some v =>
      exact not_better_best order hbest x hxb
        (order.trans hxw (hlead b (List.mem_append_right pre hb) v hbest))
  induction pre with
  | nil => rw [List.nil_append, List.flatten_cons, best_append hw, hpost]
  | cons b pre ih =>
    have htail : ∀ b' ∈ pre ++ post, ∀ v, best better b' = some v → better w v = true :=
      fun b' hb' => hlead b' (List.mem_cons_of_mem b hb')
    rw [List.cons_append, List.flatten_cons]
    cases hbest : best better b with
    | none =>
      rw [best_eq_none.mp hbest, List.nil_append]
      exact ih htail
    | some v =>
      have hbefore := hscan pre v (hlead b List.mem_cons_self v hbest) fun b' hb' =>
        htail b' (List.mem_append_left post hb')
      rw [best_append hbest, List.flatten_append, List.flatten_cons, bestFrom_append,
        bestFrom_append, bestFrom_block order hw hbefore, hpost]

/-- A scan that ends with `w` begins with a block whose best member is `w` or comes after it. -/
theorem best_first_block {block rest : List α} {v w : α} (hv : best better block = some v)
    (hw : best better (block ++ rest) = some w) : w = v ∨ better w v = true := by
  rw [best_append hv] at hw
  exact Option.some.inj hw ▸ bestFrom_eq_or order v rest

omit order in
/-- What comes before everything scanned so far makes the scan begin anew. -/
theorem best_append_of_before {xs ys : List α} (hne : ys ≠ [])
    (h : ∀ y ∈ ys, ∀ x ∈ xs, better y x = true) : best better (xs ++ ys) = best better ys := by
  cases xs with
  | nil => rfl
  | cons a as =>
    obtain ⟨y, ys', rfl⟩ := List.exists_cons_of_ne_nil hne
    have hy : better y (bestFrom better a as) = true :=
      h y List.mem_cons_self _ (bestFrom_mem a as)
    rw [List.cons_append, best, best, bestFrom_append, bestFrom_cons, if_pos hy]

/-! ### Two groups of blocks -/

omit order in
/-- The members of one block, by the key of the block they are in. -/
theorem filter_flatMap_of_nodup {ι κ : Type*} [DecidableEq κ] {block : ι → List α} (key : α → κ)
    {key' : ι → κ} (hkey : ∀ i, ∀ x ∈ block i, key x = key' i) {indices : List ι}
    (hnodup : (indices.map key').Nodup) {i : ι} (hi : i ∈ indices) :
    (indices.flatMap block).filter (fun x => key x = key' i) = block i := by
  induction indices with
  | nil => exact absurd hi List.not_mem_nil
  | cons j indices ih =>
    rw [List.map_cons, List.nodup_cons] at hnodup
    rw [List.flatMap_cons, List.filter_append]
    rcases List.mem_cons.mp hi with rfl | hi
    · have hothers : (indices.flatMap block).filter (fun x => key x = key' i) = [] := by
        refine List.filter_eq_nil_iff.mpr fun x hx heq => hnodup.1 ?_
        obtain ⟨j, hj, hxj⟩ := List.mem_flatMap.mp hx
        exact List.mem_map.mpr ⟨j, hj, (hkey j x hxj).symm.trans (of_decide_eq_true heq)⟩
      have hown : (block i).filter (fun x => key x = key' i) = block i :=
        List.filter_eq_self.mpr fun x hx => decide_eq_true (hkey i x hx)
      rw [hothers, hown, List.append_nil]
    · have hother : (block j).filter (fun x => key x = key' i) = [] := by
        refine List.filter_eq_nil_iff.mpr fun x hx heq => hnodup.1 ?_
        exact List.mem_map.mpr ⟨i, hi, (of_decide_eq_true heq).symm.trans (hkey j x hx)⟩
      rw [hother, List.nil_append, ih hnodup.2 hi]

omit order in
/-- Blocks in two groups, of which each index has one at most.  A member of the first group comes
before all of the second or after all of it. -/
structure TwoGroups {ι : Type*} (better : α → α → Bool) (first second : ι → List α)
    (owner : α → ι) : Prop where
  owner_eq : ∀ i, ∀ x ∈ first i ++ second i, owner x = i
  one_group : ∀ i, first i = [] ∨ second i = []
  apart : ∀ i, ∀ x ∈ first i, (∀ j, ∀ y ∈ second j, better x y = true) ∨
    ∀ j, ∀ y ∈ second j, better y x = true

omit order in
/-- The best member of one index comes before that of every other one. -/
def Leads {ι : Type*} (better : α → α → Bool) (first second : ι → List α) (indices : List ι)
    (w : α) : Prop :=
  ∃ i ∈ indices, best better (first i ++ second i) = some w ∧
    ∀ j ∈ indices, j ≠ i → ∀ v, best better (first j ++ second j) = some v → better w v = true

variable {ι : Type*} {first second : ι → List α} {owner : α → ι} {indices : List ι} {w : α}

omit order in
theorem TwoGroups.best_first (h : TwoGroups better first second owner) {i : ι} {v : α}
    (hv : best better (first i) = some v) : best better (first i ++ second i) = some v := by
  rcases h.one_group i with hnil | hnil
  · rw [hnil] at hv
    exact absurd (best_mem hv) List.not_mem_nil
  · rw [hnil, List.append_nil, hv]

omit order in
theorem TwoGroups.best_second (h : TwoGroups better first second owner) {i : ι} {v : α}
    (hv : best better (second i) = some v) : best better (first i ++ second i) = some v := by
  rcases h.one_group i with hnil | hnil
  · rw [hnil, List.nil_append, hv]
  · rw [hnil] at hv
    exact absurd (best_mem hv) List.not_mem_nil

omit order in
/-- The best member of a block is that of the index it belongs to. -/
theorem TwoGroups.best_block (h : TwoGroups better first second owner) {js : List ι}
    {block : List α} (hblock : block ∈ js.map first ∨ block ∈ js.map second) {v : α}
    (hv : best better block = some v) : ∃ j ∈ js, best better (first j ++ second j) = some v := by
  rcases hblock with hblock | hblock
  · obtain ⟨j, hj, rfl⟩ := List.mem_map.mp hblock
    exact ⟨j, hj, h.best_first hv⟩
  · obtain ⟨j, hj, rfl⟩ := List.mem_map.mp hblock
    exact ⟨j, hj, h.best_second hv⟩

/-- **An index that leads** decides the scan in every order. -/
theorem best_perm_of_leads (h : TwoGroups better first second owner) (hnodup : indices.Nodup)
    (hw : Leads better first second indices w) {indices' : List ι}
    (hperm : indices'.Perm indices) :
    best better (indices'.flatMap first ++ indices'.flatMap second) = some w := by
  obtain ⟨i, hi, hbest, hlead⟩ := hw
  obtain ⟨pre, post, rfl⟩ := List.append_of_mem (hperm.mem_iff.mpr hi)
  have hothers : ∀ js ⊆ pre ++ post, ∀ b, b ∈ js.map first ∨ b ∈ js.map second →
      ∀ v, best better b = some v → better w v = true := by
    intro js hjs b hb v hv
    obtain ⟨j, hj, hv⟩ := h.best_block hb hv
    have hnodup' := List.nodup_middle.mp (hperm.nodup_iff.mpr hnodup)
    refine hlead j (hperm.mem_iff.mp (List.perm_middle.mem_iff.mpr ?_)) ?_ v hv
    · exact List.mem_cons_of_mem i (hjs hj)
    · rintro rfl
      exact (List.nodup_cons.mp hnodup').1 (hjs hj)
  have hpre := hothers pre (List.subset_append_left pre post)
  have hpost := hothers post (List.subset_append_right pre post)
  have hboth := hothers (pre ++ post) (List.Subset.refl _)
  rcases h.one_group i with hnil | hnil
  · rw [hnil, List.nil_append] at hbest
    have hsplit : (pre ++ i :: post).flatMap first ++ (pre ++ i :: post).flatMap second =
        (((pre ++ post).map first ++ pre.map second) ++ second i :: post.map second).flatten := by
      simp [List.flatMap_def, hnil]
    rw [hsplit]
    refine best_flatten order hbest fun b hb => ?_
    rcases List.mem_append.mp hb with hb | hb
    · rcases List.mem_append.mp hb with hb | hb
      · exact hboth b (Or.inl hb)
      · exact hpre b (Or.inr hb)
    · exact hpost b (Or.inr hb)
  · rw [hnil, List.append_nil] at hbest
    have hsplit : (pre ++ i :: post).flatMap first ++ (pre ++ i :: post).flatMap second =
        (pre.map first ++ first i :: (post.map first ++ (pre ++ post).map second)).flatten := by
      simp [List.flatMap_def, hnil]
    rw [hsplit]
    refine best_flatten order hbest fun b hb => ?_
    rcases List.mem_append.mp hb with hb | hb
    · exact hpre b (Or.inl hb)
    · rcases List.mem_append.mp hb with hb | hb
      · exact hpost b (Or.inl hb)
      · exact hboth b (Or.inr hb)

section EveryOrder

variable (hw : ∀ indices' : List ι, indices'.Perm indices →
  best better (indices'.flatMap first ++ indices'.flatMap second) = some w)

include hw

omit order in
/-- Each index can be scanned first. -/
theorem exists_scan_from {j : ι} (hj : j ∈ indices) : ∃ rest : List ι, rest ⊆ indices ∧
    best better ((first j ++ rest.flatMap first) ++ (second j ++ rest.flatMap second)) =
      some w := by
  obtain ⟨pre, post, rfl⟩ := List.append_of_mem hj
  have hscan := hw (j :: (pre ++ post)) List.perm_middle.symm
  rw [List.flatMap_cons, List.flatMap_cons] at hscan
  exact ⟨pre ++ post, fun i hi => List.perm_middle.mem_iff.mpr (List.mem_cons_of_mem j hi), hscan⟩

/-- What is scanned does not come before the end of the scan. -/
theorem not_better_of_best_perm {j : ι} (hj : j ∈ indices) {x : α}
    (hx : x ∈ first j ++ second j) : better x w ≠ true := by
  refine not_better_best order (hw indices (List.Perm.refl indices)) x ?_
  rcases List.mem_append.mp hx with hx | hx
  · exact List.mem_append_left _ (List.mem_flatMap.mpr ⟨j, hj, hx⟩)
  · exact List.mem_append_right _ (List.mem_flatMap.mpr ⟨j, hj, hx⟩)

/-- A scan that ends in the first group has begun with every index of it. -/
theorem TwoGroups.reaches_of_first (h : TwoGroups better first second owner) {i j : ι} {v : α}
    (hwi : w ∈ first i) (hj : j ∈ indices) (hv : best better (first j ++ second j) = some v) :
    w = v ∨ better w v = true := by
  have hmin := not_better_of_best_perm order hw hj (best_mem hv)
  rcases h.one_group j with hnil | hnil
  · -- the index is of the second group, and `w` comes before that or after it
    rw [hnil, List.nil_append] at hv
    exact Or.inr ((h.apart i w hwi).elim (fun hbefore => hbefore j v (best_mem hv))
      fun hafter => absurd (hafter j v (best_mem hv)) hmin)
  · obtain ⟨rest, _, hscan⟩ := exists_scan_from hw hj
    rw [hnil, List.append_nil] at hv
    rw [hnil, List.nil_append, List.append_assoc] at hscan
    exact best_first_block order hv hscan

/-- A scan that ends in the second group has passed over the first. -/
theorem TwoGroups.reaches_of_second (h : TwoGroups better first second owner) {i j : ι} {v : α}
    (hwi : w ∈ second i) (hj : j ∈ indices) (hv : best better (first j ++ second j) = some v) :
    w = v ∨ better w v = true := by
  have hafter : ∀ i' ∈ indices, ∀ x ∈ first i', ∀ j', ∀ y ∈ second j', better y x = true := by
    intro i' hi' x hx
    refine (h.apart i' x hx).resolve_left fun hbefore => ?_
    exact not_better_of_best_perm order hw hi' (List.mem_append_left _ hx) (hbefore i w hwi)
  rcases h.one_group j with hnil | hnil
  · obtain ⟨rest, hrest, hscan⟩ := exists_scan_from hw hj
    rw [hnil, List.nil_append] at hv hscan
    rw [best_append_of_before] at hscan
    · exact best_first_block order hv hscan
    · exact List.ne_nil_of_mem (List.mem_append_left _ (best_mem hv))
    · intro y hy x hx
      obtain ⟨i', hi', hx⟩ := List.mem_flatMap.mp hx
      rcases List.mem_append.mp hy with hy | hy
      · exact hafter i' (hrest hi') x hx j y hy
      · obtain ⟨j', _, hy⟩ := List.mem_flatMap.mp hy
        exact hafter i' (hrest hi') x hx j' y hy
  · rw [hnil, List.append_nil] at hv
    exact Or.inr (hafter j hj v (best_mem hv) i w hwi)

/-- **A scan that ends the same in every order** is decided by an index that leads. -/
theorem leads_of_best_perm (h : TwoGroups better first second owner) :
    Leads better first second indices w := by
  obtain ⟨i, hi, hwi, hreaches⟩ : ∃ i ∈ indices, w ∈ first i ++ second i ∧
      ∀ j ∈ indices, ∀ v, best better (first j ++ second j) = some v →
        w = v ∨ better w v = true := by
    rcases List.mem_append.mp (best_mem (hw indices (List.Perm.refl indices))) with hmem | hmem
    · obtain ⟨i, hi, hwi⟩ := List.mem_flatMap.mp hmem
      exact ⟨i, hi, List.mem_append_left _ hwi,
        fun j hj v hv => h.reaches_of_first order hw hwi hj hv⟩
    · obtain ⟨i, hi, hwi⟩ := List.mem_flatMap.mp hmem
      exact ⟨i, hi, List.mem_append_right _ hwi,
        fun j hj v hv => h.reaches_of_second order hw hwi hj hv⟩
  refine ⟨i, hi, ?_, fun j hj hne v hv => ?_⟩
  · obtain ⟨v, hv⟩ : ∃ v, best better (first i ++ second i) = some v :=
      Option.ne_none_iff_exists'.mp (mt best_eq_none.mp (List.ne_nil_of_mem hwi))
    rcases hreaches i hi v hv with heq | hbefore
    · exact heq ▸ hv
    · exact absurd hbefore (not_better_best order hv w hwi)
  · refine (hreaches j hj v hv).resolve_left fun heq => hne ?_
    exact (h.owner_eq j w (heq ▸ best_mem hv)).symm.trans (h.owner_eq i w hwi)

end EveryOrder

end GapOrder

end Selection
