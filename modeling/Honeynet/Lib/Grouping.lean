import Honeynet.Lib.Collections
import Mathlib.Algebra.Order.BigOperators.Group.Finset
import Mathlib.Order.Lattice

/-!
# Grouping by a key

* `groupsBy`: the items of each key, in the order in which the keys first occur.
* `sumBy`: the sum of the weights of each key.
* `greatestBy`: the greatest weight of each key.
* `fillSets`: the set of the values of each key, where the keys are known beforehand.
* `totalBy_le_totalBy`: the sum of the greatest weights grows with the items: it is enough that
  every item has one of its own key that weighs as much.
-/

namespace Collections

/-! ### Groups -/

section Groups

variable {α κ : Type*} [DecidableEq κ] (key : α → Option κ)

/-- The items of each key; an item without a key is in no group. -/
def groupsBy (xs : List α) : Dict κ (List α) :=
  xs.foldl (fun groups x =>
    match key x with
    | some k => Dict.set groups k (Dict.getD groups k [] ++ [x])
    | none => groups) []

variable {key}

theorem groupsBy_append_none {xs : List α} {x : α} (hx : key x = none) :
    groupsBy key (xs ++ [x]) = groupsBy key xs := by
  simp only [groupsBy, List.foldl_append, List.foldl_cons, List.foldl_nil, hx]

theorem groupsBy_append_some {xs : List α} {x : α} {k : κ} (hx : key x = some k) :
    groupsBy key (xs ++ [x]) =
      Dict.set (groupsBy key xs) k (Dict.getD (groupsBy key xs) k [] ++ [x]) := by
  simp only [groupsBy, List.foldl_append, List.foldl_cons, List.foldl_nil, hx]

/-- The keys are those of the items. -/
theorem keys_groupsBy (xs : List α) :
    (groupsBy key xs).map Prod.fst = appendNew [] (xs.filterMap key) := by
  induction xs using List.reverseRecOn with
  | nil => rfl
  | append_singleton xs x ih =>
    rw [List.filterMap_append, appendNew_append, ← ih]
    cases hx : key x with
    | none => rw [groupsBy_append_none hx, List.filterMap_cons_none hx]; rfl
    | some k => rw [groupsBy_append_some hx, keys_set, List.filterMap_cons_some hx]; rfl

/-- A group holds the items of its key, in order. -/
theorem getD_groupsBy (xs : List α) (k : κ) :
    (groupsBy key xs).getD k [] = xs.filter fun x => key x = some k := by
  induction xs using List.reverseRecOn with
  | nil => rfl
  | append_singleton xs x ih =>
    rw [List.filter_append, ← ih]
    cases hx : key x with
    | none =>
      rw [groupsBy_append_none hx, List.filter_cons_of_neg (by rw [hx]; simp), List.filter_nil,
        List.append_nil]
    | some k' =>
      rw [groupsBy_append_some hx, Dict.getD, lookup_set]
      by_cases hk : k = k'
      · subst hk
        rw [if_pos rfl, Option.getD_some, List.filter_cons_of_pos (by rw [hx]; simp),
          List.filter_nil]
      · rw [if_neg hk, List.filter_cons_of_neg (by rw [hx]; simpa using fun h => hk h.symm),
          List.filter_nil, List.append_nil, Dict.getD]

/-- A group is at the key of any of its items. -/
theorem lookup_groupsBy (xs : List α) (k : κ) :
    (groupsBy key xs).lookup k =
      if k ∈ xs.filterMap key then some (xs.filter fun x => key x = some k) else none := by
  have hkeys : ((groupsBy key xs).lookup k).isSome ↔ k ∈ xs.filterMap key := by
    rw [lookup_isSome_iff, keys_groupsBy, mem_appendNew]
    simp
  by_cases hk : k ∈ xs.filterMap key
  · obtain ⟨group, hgroup⟩ := Option.isSome_iff_exists.mp (hkeys.mpr hk)
    have hvalue : (groupsBy key xs).getD k [] = xs.filter fun x => key x = some k :=
      getD_groupsBy xs k
    rw [Dict.getD, hgroup, Option.getD_some] at hvalue
    rw [if_pos hk, hgroup, hvalue]
  · rw [if_neg hk]
    exact Option.not_isSome_iff_eq_none.mp fun h => hk (hkeys.mp h)

end Groups

/-! ### Sets -/

section Sets

variable {κ υ : Type*} [DecidableEq κ] [DecidableEq υ]

/-- Put each value into the set of its key. -/
def fillSets (sets : Dict κ (List υ)) (pairs : List (κ × υ)) : Dict κ (List υ) :=
  pairs.foldl (fun sets e => Dict.set sets e.1 (addNew (Dict.getD sets e.1 []) e.2)) sets

/-- The values of a key, each once. -/
def valuesAt (pairs : List (κ × υ)) (k : κ) : List υ :=
  appendNew [] ((pairs.filter fun e => e.1 = k).map Prod.snd)

theorem mem_valuesAt {pairs : List (κ × υ)} {k : κ} {v : υ} :
    v ∈ valuesAt pairs k ↔ (k, v) ∈ pairs := by
  rw [valuesAt, mem_appendNew, or_iff_right List.not_mem_nil, List.mem_map]
  constructor
  · intro h
    obtain ⟨e, he, rfl⟩ := h
    obtain ⟨hmem, hkey⟩ := List.mem_filter.mp he
    rw [← of_decide_eq_true hkey]
    exact hmem
  · exact fun h => ⟨(k, v), List.mem_filter.mpr ⟨h, decide_eq_true rfl⟩, rfl⟩

theorem nodup_valuesAt (pairs : List (κ × υ)) (k : κ) : (valuesAt pairs k).Nodup :=
  nodup_appendNew List.nodup_nil _

theorem valuesAt_append (pairs : List (κ × υ)) (e : κ × υ) (k : κ) :
    valuesAt (pairs ++ [e]) k =
      if k = e.1 then addNew (valuesAt pairs k) e.2 else valuesAt pairs k := by
  unfold valuesAt
  rw [List.filter_append, List.map_append, appendNew_append]
  by_cases hk : k = e.1
  · have hone : [e].filter (fun e => e.1 = k) = [e] := by simp [hk]
    rw [if_pos hk, hone]
    rfl
  · have hnone : [e].filter (fun e => e.1 = k) = [] := by simp [Ne.symm hk]
    rw [if_neg hk, hnone]
    rfl

/-- The values of a key do not depend on the order of the pairs, up to their own. -/
theorem valuesAt_perm {pairs pairs' : List (κ × υ)} (h : pairs.Perm pairs') (k : κ) :
    (valuesAt pairs k).Perm (valuesAt pairs' k) := by
  apply (List.perm_ext_iff_of_nodup (nodup_valuesAt pairs k) (nodup_valuesAt pairs' k)).mpr
  intro v
  rw [mem_valuesAt, mem_valuesAt, h.mem_iff]

omit [DecidableEq υ] in
/-- Setting one of the keys of a table. -/
theorem set_table {keys : List κ} (hkeys : keys.Nodup) {k : κ} (hk : k ∈ keys) (f : κ → υ)
    (v : υ) : Dict.set (keys.map fun key => (key, f key)) k v =
      keys.map fun key => (key, if key = k then v else f key) := by
  induction keys with
  | nil => exact absurd hk List.not_mem_nil
  | cons key keys ih =>
    obtain ⟨hnew, hkeys⟩ := List.nodup_cons.mp hkeys
    rw [List.map_cons, List.map_cons, Dict.set]
    by_cases heq : key = k
    · have hrest : ∀ other ∈ keys, other ≠ k := by
        intro other hother hsame
        exact hnew (heq ▸ hsame ▸ hother)
      rw [if_pos heq, if_pos heq, heq]
      congr 1
      exact List.map_congr_left fun other hother => by rw [if_neg (hrest other hother)]
    · rw [if_neg heq, if_neg heq, ih hkeys ((List.mem_cons.mp hk).resolve_left (Ne.symm heq))]

omit [DecidableEq υ] in
theorem lookup_table {keys : List κ} {k : κ} (hk : k ∈ keys) (f : κ → υ) :
    (keys.map fun key => (key, f key)).lookup k = some (f k) := by
  induction keys with
  | nil => exact absurd hk List.not_mem_nil
  | cons key keys ih =>
    rw [List.map_cons, lookup_cons_eq]
    by_cases heq : k = key
    · rw [if_pos heq, heq]
    · rw [if_neg heq, ih ((List.mem_cons.mp hk).resolve_left heq)]

/-- **Each of the known keys has the set of its values.** -/
theorem fillSets_eq {keys : List κ} (hkeys : keys.Nodup) {pairs : List (κ × υ)}
    (hpairs : ∀ e ∈ pairs, e.1 ∈ keys) :
    fillSets (keys.map fun k => (k, [])) pairs = keys.map fun k => (k, valuesAt pairs k) := by
  induction pairs using List.reverseRecOn with
  | nil => rfl
  | append_singleton pairs e ih =>
    have hk : e.1 ∈ keys := hpairs e (List.mem_append_right pairs (List.mem_singleton_self e))
    have hbefore := ih fun e' he' => hpairs e' (List.mem_append_left _ he')
    have hstep : fillSets (keys.map fun k => (k, [])) (pairs ++ [e]) =
        Dict.set (keys.map fun k => (k, valuesAt pairs k)) e.1
          (addNew (valuesAt pairs e.1) e.2) := by
      show (pairs ++ [e]).foldl _ _ = _
      rw [List.foldl_append]
      show Dict.set (fillSets (keys.map fun k => (k, [])) pairs) e.1
        (addNew (Dict.getD (fillSets (keys.map fun k => (k, [])) pairs) e.1 []) e.2) = _
      rw [hbefore, Dict.getD, lookup_table hk, Option.getD_some]
    rw [hstep, set_table hkeys hk]
    apply List.map_congr_left
    intro k _
    rw [valuesAt_append]
    by_cases heq : k = e.1
    · rw [if_pos heq, if_pos heq, heq]
    · rw [if_neg heq, if_neg heq]

end Sets

/-! ### Sums -/

section Sums

variable {α κ W : Type*} [DecidableEq κ] [AddMonoid W] (key : α → κ) (weight : α → W)

/-- The sum of the weights of each key. -/
def sumBy (xs : List α) : Dict κ W :=
  xs.foldl (fun sums x => Dict.set sums (key x) (Dict.getD sums (key x) 0 + weight x)) []

variable {key weight}

theorem sumBy_append (xs : List α) (x : α) :
    sumBy key weight (xs ++ [x]) = Dict.set (sumBy key weight xs) (key x)
      (Dict.getD (sumBy key weight xs) (key x) 0 + weight x) := by
  rw [sumBy, List.foldl_append]
  rfl

theorem keys_sumBy (xs : List α) :
    (sumBy key weight xs).map Prod.fst = appendNew [] (xs.map key) := by
  induction xs using List.reverseRecOn with
  | nil => rfl
  | append_singleton xs x ih =>
    rw [sumBy_append, keys_set, ih, List.map_append, appendNew_append]
    rfl

theorem getD_sumBy (xs : List α) (k : κ) :
    (sumBy key weight xs).getD k 0 = ((xs.filter fun x => key x = k).map weight).sum := by
  induction xs using List.reverseRecOn with
  | nil => rfl
  | append_singleton xs x ih =>
    rw [sumBy_append, Dict.getD, lookup_set, List.filter_append]
    by_cases hk : k = key x
    · subst hk
      rw [if_pos rfl, Option.getD_some, ih, List.filter_cons_of_pos (by simp), List.filter_nil,
        List.map_append, List.sum_append, List.map_singleton, List.sum_singleton]
    · rw [if_neg hk, ← Dict.getD, ih, List.filter_cons_of_neg (by simpa using Ne.symm hk),
        List.filter_nil, List.append_nil]

/-- An entry is a key with the sum of its weights. -/
theorem mem_sumBy {xs : List α} {entry : κ × W} :
    entry ∈ sumBy key weight xs ↔ entry.1 ∈ xs.map key ∧
      entry.2 = ((xs.filter fun x => key x = entry.1).map weight).sum := by
  have hkeys : (sumBy key weight xs).map Prod.fst = appendNew [] (xs.map key) := keys_sumBy xs
  have hnodup : ((sumBy key weight xs).map Prod.fst).Nodup :=
    hkeys ▸ nodup_appendNew List.nodup_nil _
  have hmem : entry.1 ∈ (sumBy key weight xs).map Prod.fst ↔ entry.1 ∈ xs.map key := by
    rw [hkeys, mem_appendNew, or_iff_right List.not_mem_nil]
  have hvalue {e : κ × W} (he : e ∈ sumBy key weight xs) :
      e.2 = ((xs.filter fun x => key x = e.1).map weight).sum := by
    rw [← getD_sumBy, Dict.getD, lookup_of_mem hnodup he, Option.getD_some]
  constructor
  · exact fun h => ⟨hmem.mp (List.mem_map_of_mem h), hvalue h⟩
  · rintro ⟨hkey, hsum⟩
    obtain ⟨e, he, hfst⟩ := List.mem_map.mp (hmem.mpr hkey)
    obtain rfl : e = entry := Prod.ext hfst ((hvalue he).trans (hfst ▸ hsum.symm))
    exact he

end Sums

/-! ### Greatest weights -/

section Greatest

variable {α κ W : Type*} [DecidableEq κ] [AddCommMonoid W] [LinearOrder W]
variable (key : α → κ) (weight : α → W)

/-- The greatest weight of each key, `0` at the least. -/
def greatestBy (xs : List α) : Dict κ W :=
  xs.foldl (fun weights x =>
    Dict.set weights (key x) (max (Dict.getD weights (key x) 0) (weight x))) []

/-- The sum of the greatest weights. -/
def totalBy (xs : List α) : W := ((greatestBy key weight xs).map Prod.snd).foldl (· + ·) 0

variable {key weight}

theorem greatestBy_append (xs : List α) (x : α) :
    greatestBy key weight (xs ++ [x]) =
      Dict.set (greatestBy key weight xs) (key x)
        (max (Dict.getD (greatestBy key weight xs) (key x) 0) (weight x)) := by
  rw [greatestBy, List.foldl_append]
  rfl

theorem keys_greatestBy (xs : List α) :
    (greatestBy key weight xs).map Prod.fst = appendNew [] (xs.map key) := by
  induction xs using List.reverseRecOn with
  | nil => rfl
  | append_singleton xs x ih =>
    rw [greatestBy_append, keys_set, ih, List.map_append, appendNew_append]
    rfl

theorem getD_greatestBy_le_iff {xs : List α} {k : κ} {b : W} :
    (greatestBy key weight xs).getD k 0 ≤ b ↔ 0 ≤ b ∧ ∀ x ∈ xs, key x = k → weight x ≤ b := by
  induction xs using List.reverseRecOn with
  | nil => exact ⟨fun h => ⟨h, fun _ hx => absurd hx List.not_mem_nil⟩, And.left⟩
  | append_singleton xs x ih =>
    rw [greatestBy_append, Dict.getD, lookup_set]
    by_cases hk : k = key x
    · subst hk
      rw [if_pos rfl, Option.getD_some, max_le_iff, ih]
      simp only [List.mem_append, List.mem_singleton, or_imp, forall_and, forall_eq, and_assoc,
        true_implies]
    · have hx : key x ≠ k := fun h => hk h.symm
      rw [if_neg hk, ← Dict.getD, ih]
      simp only [List.mem_append, List.mem_singleton, or_imp, forall_and, forall_eq, hx,
        false_implies, and_true]

theorem getD_greatestBy_nonneg (xs : List α) (k : κ) :
    0 ≤ (greatestBy key weight xs).getD k 0 := (getD_greatestBy_le_iff.mp le_rfl).1

omit [LinearOrder W] in
/-- The values of a dictionary, summed over its keys. -/
theorem sum_values {d : Dict κ W} (hd : (d.map Prod.fst).Nodup) :
    (d.map Prod.snd).sum = ∑ k ∈ (d.map Prod.fst).toFinset, d.getD k 0 := by
  rw [List.sum_toFinset _ hd, List.map_map]
  refine congrArg List.sum (List.map_congr_left fun e he => ?_)
  rw [Function.comp_apply, Dict.getD, lookup_of_mem hd he, Option.getD_some]

theorem totalBy_eq_sum (xs : List α) :
    totalBy key weight xs =
      ∑ k ∈ (xs.map key).toFinset, (greatestBy key weight xs).getD k 0 := by
  have hkeys : (greatestBy key weight xs).map Prod.fst = appendNew [] (xs.map key) :=
    keys_greatestBy xs
  have hnodup : ((greatestBy key weight xs).map Prod.fst).Nodup :=
    hkeys ▸ nodup_appendNew List.nodup_nil _
  rw [totalBy, ← List.sum_eq_foldl, sum_values hnodup, hkeys]
  refine Finset.sum_congr (Finset.ext fun k => ?_) fun _ _ => rfl
  simp

theorem totalBy_nonneg [IsOrderedAddMonoid W] (xs : List α) : 0 ≤ totalBy key weight xs := by
  rw [totalBy_eq_sum]
  exact Finset.sum_nonneg fun k _ => getD_greatestBy_nonneg xs k

/-- **Items that are covered weigh no more.** -/
theorem totalBy_le_totalBy [IsOrderedAddMonoid W] {xs ys : List α}
    (h : ∀ x ∈ xs, ∃ y ∈ ys, key y = key x ∧ weight x ≤ weight y) :
    totalBy key weight xs ≤ totalBy key weight ys := by
  have hle (k : κ) :
      (greatestBy key weight xs).getD k 0 ≤ (greatestBy key weight ys).getD k 0 := by
    refine getD_greatestBy_le_iff.mpr ⟨getD_greatestBy_nonneg ys k, fun x hx hk => ?_⟩
    obtain ⟨y, hy, hkey, hweight⟩ := h x hx
    exact hweight.trans ((getD_greatestBy_le_iff.mp le_rfl).2 y hy (hkey.trans hk))
  have hkeys : (xs.map key).toFinset ⊆ (ys.map key).toFinset := by
    intro k hk
    obtain ⟨x, hx, rfl⟩ := List.mem_map.mp (List.mem_toFinset.mp hk)
    obtain ⟨y, hy, hkey, -⟩ := h x hx
    exact List.mem_toFinset.mpr (List.mem_map.mpr ⟨y, hy, hkey⟩)
  rw [totalBy_eq_sum, totalBy_eq_sum]
  calc ∑ k ∈ (xs.map key).toFinset, (greatestBy key weight xs).getD k 0
      ≤ ∑ k ∈ (xs.map key).toFinset, (greatestBy key weight ys).getD k 0 :=
        Finset.sum_le_sum fun k _ => hle k
    _ ≤ ∑ k ∈ (ys.map key).toFinset, (greatestBy key weight ys).getD k 0 :=
        Finset.sum_le_sum_of_subset_of_nonneg hkeys fun k _ _ => getD_greatestBy_nonneg ys k

end Greatest

end Collections
