import Mathlib.Data.List.Sort

/-!
# Sorting by a key

Insertion sort leaves members with equal keys in their order, so the place of a member is told by
the members before and after it.

* `insertionSort_split`: how many members stand after a given one in the sorted list.
* `getLast?_sortedBy_iff`: the last member stays last unless another has a greater key.
* `mem_last_of_insertionSort`: with fewer than `n` members after it, it is among the last `n` of
  those that pass a filter.
* `sortedBy_flatten_perm`: blocks without a common key are sorted the same in every order.
-/

namespace Collections

variable {α : Type*}

theorem orderedInsert_append_of_forall {r : α → α → Prop} [DecidableRel r] {x : α} {xs : List α}
    (h : ∀ y ∈ xs, ¬ r x y) (ys : List α) :
    (xs ++ ys).orderedInsert r x = xs ++ ys.orderedInsert r x := by
  induction xs with
  | nil => rfl
  | cons y xs ih =>
    rw [List.cons_append, List.orderedInsert_of_not_le _ _ (h y List.mem_cons_self),
      ih fun z hz => h z (List.mem_cons_of_mem y hz), List.cons_append]

theorem orderedInsert_append_of_rel {r : α → α → Prop} [DecidableRel r] {x y : α} (h : r x y)
    (xs ys : List α) :
    (xs ++ y :: ys).orderedInsert r x = xs.orderedInsert r x ++ y :: ys := by
  induction xs with
  | nil => exact List.orderedInsert_cons_of_le _ _ h
  | cons z xs ih =>
    by_cases hz : r x z
    · rw [List.cons_append, List.orderedInsert_cons_of_le _ _ hz,
        List.orderedInsert_cons_of_le _ _ hz]
      rfl
    · rw [List.cons_append, List.orderedInsert_of_not_le _ _ hz,
        List.orderedInsert_of_not_le _ _ hz, ih, List.cons_append]

/-- Where the members with a property stand last, they are what is left of the others. -/
theorem length_dropWhile_of_pairwise {p : α → Bool} {xs : List α}
    (h : xs.Pairwise fun x y => p x → p y) : (xs.dropWhile fun x => !p x).length = xs.countP p := by
  induction xs with
  | nil => rfl
  | cons x xs ih =>
    obtain ⟨hx, hxs⟩ := List.pairwise_cons.mp h
    by_cases hp : p x
    · rw [List.dropWhile_cons_of_neg (by simpa using hp), List.countP_cons_of_pos hp,
        List.length_cons, List.countP_eq_length.mpr fun y hy => hx y hy hp]
    · rw [List.dropWhile_cons_of_pos (by simpa using hp), List.countP_cons_of_neg hp, ih hxs]

variable {β : Type*} [LinearOrder β] (key : α → β)

/-- **After a member stand the earlier ones with a greater key and the later ones whose key is not
smaller.** -/
theorem insertionSort_split (before : List α) (x : α) (after : List α) : ∃ left right,
    (before ++ x :: after).insertionSort (fun a b => key a ≤ key b) = left ++ x :: right ∧
      right.length = before.countP (fun y => key x < key y) +
        after.countP (fun y => key x ≤ key y) := by
  induction before with
  | nil =>
    rw [List.nil_append, List.insertionSort_cons_eq_take_drop]
    refine ⟨_, _, rfl, ?_⟩
    have hsorted := List.pairwise_insertionSort (fun a b => key a ≤ key b) after
    have hlast : (after.insertionSort fun a b => key a ≤ key b).Pairwise fun a b =>
        decide (key x ≤ key a) → decide (key x ≤ key b) :=
      hsorted.imp fun hab ha => decide_eq_true ((of_decide_eq_true ha).trans hab)
    have hlength := length_dropWhile_of_pairwise hlast
    rw [List.countP_nil, Nat.zero_add, 
      ← (List.perm_insertionSort (fun a b => key a ≤ key b) after).countP_eq, ← hlength]
    simp only [decide_not]
  | cons y before ih =>
    obtain ⟨left, right, heq, hlength⟩ := ih
    rw [List.cons_append, List.insertionSort_cons, heq]
    by_cases hxy : key x < key y
    · have hsorted := List.pairwise_insertionSort (fun a b => key a ≤ key b) (before ++ x :: after)
      rw [heq] at hsorted
      have hleft : ∀ z ∈ left ++ [x], ¬ key y ≤ key z := by
        intro z hz
        rcases List.mem_append.mp hz with hz | hz
        · exact not_le.mpr (((List.pairwise_append.mp hsorted).2.2 z hz x
            List.mem_cons_self).trans_lt hxy)
        · rw [List.mem_singleton.mp hz]
          exact not_le.mpr hxy
      have hsplit : left ++ x :: right = (left ++ [x]) ++ right := by simp
      rw [hsplit, orderedInsert_append_of_forall hleft]
      refine ⟨left, right.orderedInsert (fun a b => key a ≤ key b) y, by simp, ?_⟩
      rw [List.orderedInsert_length, hlength, List.countP_cons_of_pos (by simpa using hxy)]
      omega
    · refine ⟨left.orderedInsert (fun a b => key a ≤ key b) y, right, ?_, ?_⟩
      · exact orderedInsert_append_of_rel (r := fun a b => key a ≤ key b) (not_lt.mp hxy) left right
      · rw [List.countP_cons_of_neg (by simpa using hxy), hlength]

/-- The members in the order of their keys, and of the list where keys are equal. -/
def sortedBy (xs : List α) : List α := xs.insertionSort fun a b => key a ≤ key b

theorem mem_sortedBy {xs : List α} {x : α} : x ∈ sortedBy key xs ↔ x ∈ xs :=
  (List.perm_insertionSort _ _).mem_iff

/-- Where equal keys mean equal members, the order of the list does not matter. -/
theorem sortedBy_eq_of_perm {xs ys : List α} (h : xs.Perm ys)
    (hkey : ∀ x ∈ xs, ∀ y ∈ xs, key x = key y → x = y) : sortedBy key xs = sortedBy key ys := by
  have hperm : (sortedBy key xs).Perm (sortedBy key ys) :=
    ((List.perm_insertionSort _ xs).trans h).trans (List.perm_insertionSort _ ys).symm
  refine hperm.eq_of_pairwise (fun x y hx hy hxy hyx => ?_)
    (List.pairwise_insertionSort (fun a b => key a ≤ key b) xs)
    (List.pairwise_insertionSort (fun a b => key a ≤ key b) ys)
  exact hkey x ((mem_sortedBy key).mp hx) y (h.mem_iff.mpr ((mem_sortedBy key).mp hy))
    (le_antisymm hxy hyx)

theorem sortedBy_map {γ : Type*} (f : γ → α) (xs : List γ) :
    sortedBy key (xs.map f) = (sortedBy (fun c => key (f c)) xs).map f :=
  (List.map_insertionSort (fun a b => key (f a) ≤ key (f b)) (fun a b => key a ≤ key b) f xs
    fun _ _ _ _ => Iff.rfl).symm

/-- **The last member stays last if and only if none has a greater key.** -/
theorem getLast?_sortedBy_iff {before : List α} {x : α} :
    (sortedBy key (before ++ [x])).getLast? = some x ↔ ∀ y ∈ before, key y ≤ key x := by
  rw [sortedBy]
  constructor
  · intro h y hy
    obtain ⟨first, hfirst⟩ := List.getLast?_eq_some_iff.mp h
    have hsorted := List.pairwise_insertionSort (fun a b => key a ≤ key b) (before ++ [x])
    rw [hfirst] at hsorted
    have hmem : y ∈ (before ++ [x]).insertionSort fun a b => key a ≤ key b :=
      (List.perm_insertionSort _ _).mem_iff.mpr (List.mem_append_left _ hy)
    rw [hfirst] at hmem
    rcases List.mem_append.mp hmem with hmem | hmem
    · exact (List.pairwise_append.mp hsorted).2.2 y hmem x (List.mem_singleton_self x)
    · rw [List.mem_singleton.mp hmem]
  · intro h
    obtain ⟨left, right, heq, hlength⟩ := insertionSort_split key before x []
    have hnone : before.countP (fun y => key x < key y) = 0 :=
      List.countP_eq_zero.mpr fun y hy => by simpa using h y hy
    rw [hnone, List.countP_nil] at hlength
    rw [heq, List.length_eq_zero_iff.mp hlength, List.getLast?_append]
    rfl

/-- **A member with fewer than `n` members after it is among the last `n` that pass a filter.** -/
theorem mem_last_of_insertionSort {p : α → Bool} {before : List α} {x : α} {after sorted : List α}
    {n : ℕ} (hsorted : sorted =
      ((before ++ x :: after).insertionSort fun a b => key a ≤ key b).filter p) (hx : p x)
    (hfew : before.countP (fun y => key x < key y) + after.countP (fun y => key x ≤ key y) < n) :
    x ∈ sorted.drop (sorted.length - n) := by
  obtain ⟨left, right, heq, hlength⟩ := insertionSort_split key before x after
  have hright := List.length_filter_le p right
  rw [heq, List.filter_append, List.filter_cons_of_pos hx] at hsorted
  have hdrop : sorted.length - n ≤ (left.filter p).length := by
    rw [hsorted, List.length_append, List.length_cons]
    omega
  have hsplit : sorted.drop (sorted.length - n) =
      (left.filter p).drop (sorted.length - n) ++ x :: right.filter p := by
    rw [← List.drop_append_of_le_length hdrop, ← hsorted]
  rw [hsplit]
  exact List.mem_append_right _ List.mem_cons_self

/-! ### Sorting blocks -/

/-- Members with one key stay as they are. -/
theorem filter_sortedBy (xs : List α) (k : β) :
    (sortedBy key xs).filter (fun x => key x = k) = xs.filter fun x => key x = k := by
  have hperm := (List.perm_insertionSort (fun a b => key a ≤ key b) xs).filter fun x => key x = k
  have hpairwise : (xs.filter fun x => key x = k).Pairwise fun a b => key a ≤ key b := by
    refine List.pairwise_of_forall_mem_list fun x hx y hy => ?_
    rw [List.mem_filter, decide_eq_true_iff] at hx hy
    rw [hx.2, hy.2]
  have hsublist : (xs.filter fun x => key x = k).Sublist (sortedBy key xs) :=
    List.sublist_insertionSort hpairwise List.filter_sublist
  have hfilter := hsublist.filter fun x => decide (key x = k)
  rw [List.filter_filter] at hfilter
  simp only [Bool.and_self] at hfilter
  exact (hfilter.eq_of_length hperm.length_eq.symm).symm

/-- Lists with the same members under each key have the same members. -/
theorem mem_iff_of_filter_key {xs ys : List α}
    (h : ∀ k, (xs.filter fun x => key x = k) = ys.filter fun x => key x = k) (x : α) :
    x ∈ xs ↔ x ∈ ys := by
  have hx : x ∈ (xs.filter fun y => key y = key x) ↔ x ∈ ys.filter fun y => key y = key x := by
    rw [h]
  simpa using hx

/-- Under each key one member is taken from both. -/
theorem filter_key_of_cons {x : α} {xs ys : List α}
    (h : ∀ k, ((x :: xs).filter fun y => key y = k) = (x :: ys).filter fun y => key y = k) (k : β) :
    (xs.filter fun y => key y = k) = ys.filter fun y => key y = k := by
  have hk := h k
  by_cases hxk : key x = k
  · rw [List.filter_cons_of_pos (by simpa using hxk),
      List.filter_cons_of_pos (by simpa using hxk)] at hk
    exact (List.cons.inj hk).2
  · rwa [List.filter_cons_of_neg (by simpa using hxk),
      List.filter_cons_of_neg (by simpa using hxk)] at hk

/-- Sorted lists with the same members under each key are the same. -/
theorem eq_of_filter_key {xs ys : List α} (hxs : xs.Pairwise fun a b => key a ≤ key b)
    (hys : ys.Pairwise fun a b => key a ≤ key b)
    (h : ∀ k, (xs.filter fun x => key x = k) = ys.filter fun x => key x = k) : xs = ys := by
  have hmem := mem_iff_of_filter_key key h
  induction xs generalizing ys with
  | nil =>
    cases ys with
    | nil => rfl
    | cons y ys => exact absurd ((hmem y).mpr List.mem_cons_self) List.not_mem_nil
  | cons x xs ih =>
    cases ys with
    | nil => exact absurd ((hmem x).mp List.mem_cons_self) List.not_mem_nil
    | cons y ys =>
      obtain ⟨hx, hxsTail⟩ := List.pairwise_cons.mp hxs
      obtain ⟨hy, hysTail⟩ := List.pairwise_cons.mp hys
      -- both heads have the least key, so they are the first members under it
      have hle : key x ≤ key y := by
        rcases List.mem_cons.mp ((hmem y).mpr List.mem_cons_self) with rfl | hmem'
        · exact le_refl _
        · exact hx y hmem'
      have hge : key y ≤ key x := by
        rcases List.mem_cons.mp ((hmem x).mp List.mem_cons_self) with rfl | hmem'
        · exact le_refl _
        · exact hy x hmem'
      have hkey : key y = key x := le_antisymm hge hle
      have hheads := h (key x)
      rw [List.filter_cons_of_pos (by simp), List.filter_cons_of_pos (by simpa using hkey)]
        at hheads
      obtain ⟨rfl, -⟩ := List.cons.inj hheads
      have htails := filter_key_of_cons key h
      rw [ih hxsTail hysTail htails (mem_iff_of_filter_key key htails)]

/-- Blocks of which at most one is not empty. -/
theorem flatten_eq_of_perm {bs bs' : List (List α)} (h : bs.Perm bs')
    (hone : bs.Pairwise fun b b' => b = [] ∨ b' = []) : bs.flatten = bs'.flatten := by
  induction h with
  | nil => rfl
  | cons b _ ih =>
    rw [List.flatten_cons, List.flatten_cons, ih (List.pairwise_cons.mp hone).2]
  | swap b b' bs =>
    have hempty := (List.pairwise_cons.mp hone).1 b List.mem_cons_self
    rcases hempty with rfl | rfl
    · rfl
    · rfl
  | trans hfirst _ ih ih' =>
    have hsymm : ∀ {b b' : List α}, b = [] ∨ b' = [] → b' = [] ∨ b = [] := Or.symm
    exact (ih hone).trans (ih' ((hfirst.pairwise_iff hsymm).mp hone))

/-- **Blocks without a common key are sorted the same in every order.** -/
theorem sortedBy_flatten_perm {bs bs' : List (List α)} (h : bs.Perm bs')
    (hkeys : bs.Pairwise fun b b' => ∀ x ∈ b, ∀ y ∈ b', key x ≠ key y) :
    sortedBy key bs.flatten = sortedBy key bs'.flatten := by
  refine eq_of_filter_key key (List.pairwise_insertionSort _ _) (List.pairwise_insertionSort _ _)
    fun k => ?_
  rw [filter_sortedBy, filter_sortedBy, List.filter_flatten, List.filter_flatten]
  refine flatten_eq_of_perm (h.map _) ?_
  rw [List.pairwise_map]
  refine hkeys.imp fun {b b'} hne => ?_
  by_contra hboth
  rw [not_or] at hboth
  obtain ⟨x, hx⟩ := List.exists_mem_of_ne_nil _ hboth.1
  obtain ⟨y, hy⟩ := List.exists_mem_of_ne_nil _ hboth.2
  rw [List.mem_filter, decide_eq_true_iff] at hx hy
  exact hne x hx.1 y hy.1 (hx.2.trans hy.2.symm)

end Collections
