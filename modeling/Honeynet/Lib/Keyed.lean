import Honeynet.Lib.Collections
import Mathlib.Data.List.ReduceOption

/-!
# Writing items by their keys

Some members of a list have a key; the others stand between them and are never touched.

* `replaceBy`: the members with a key of the new ones go, and the new ones come last.
* `Written`: what any write of items by their keys does to a list.
* `written_upsertBy`, `written_replaceBy`: writing one item in place and writing items at the end.
-/

namespace Collections

section Keyed

variable {α κ : Type*} [DecidableEq κ] (key : α → Option κ)

/-- Take out every member with a key of the new ones and append these. -/
def replaceBy (new xs : List α) : List α := xs.filter (fun x => key x ∉ new.map key) ++ new

/-- What writing `items` by their keys does to a list: keys stay distinct, members with other keys
stay as they are and in their order, and the items are there afterwards. -/
structure Written (items xs ys : List α) : Prop where
  unique : (xs.filterMap key).Nodup → (ys.filterMap key).Nodup
  others : ys.filter (fun x => key x ∉ items.map key) = xs.filter fun x => key x ∉ items.map key
  present : ∀ x ∈ items, x ∈ ys

variable {key}

omit [DecidableEq κ] in
theorem filterMap_eq_reduceOption_map (xs : List α) :
    xs.filterMap key = (xs.map key).reduceOption := by
  rw [List.reduceOption, List.filterMap_map, Function.id_comp]

/-- **Writing one item** in the place of those with its key. -/
theorem written_upsertBy {item : α} (hkey : key item ≠ none) (xs : List α) :
    Written key [item] xs (upsertBy key item xs) where
  unique h := by
    rw [filterMap_eq_reduceOption_map] at h ⊢
    rw [map_key_upsertBy, addNew]
    by_cases hmem : key item ∈ xs.map key
    · rw [if_pos hmem]
      exact h
    · obtain ⟨k, hk⟩ := Option.ne_none_iff_exists'.mp hkey
      rw [if_neg hmem, List.reduceOption_append, hk, List.reduceOption_singleton,
        Option.toList_some, List.nodup_append]
      refine ⟨h, List.nodup_singleton k, fun a ha b hb hab => hmem ?_⟩
      rw [List.mem_singleton] at hb
      rw [hk, ← hb, ← hab]
      exact List.reduceOption_mem_iff.mp ha
  others := by
    have hothers : (upsertBy key item xs).filter (fun x => key x ≠ key item) =
        xs.filter fun x => key x ≠ key item := filter_upsertBy_ne item xs
    simpa using hothers
  present x hx := by
    rw [List.mem_singleton.mp hx]
    exact self_mem_upsertBy item xs

/-- **Writing items** after all that is kept. -/
theorem written_replaceBy {new : List α} (hnodup : (new.filterMap key).Nodup) (xs : List α) :
    Written key new xs (replaceBy key new xs) where
  unique h := by
    rw [replaceBy, List.filterMap_append, List.nodup_append]
    refine ⟨h.sublist (List.filter_sublist.filterMap key), hnodup, fun a ha b hb hab => ?_⟩
    obtain ⟨x, hx, hxa⟩ := List.mem_filterMap.mp ha
    obtain ⟨y, hy, hyb⟩ := List.mem_filterMap.mp hb
    have hkept := (List.mem_filter.mp hx).2
    rw [decide_eq_true_eq] at hkept
    exact hkept (List.mem_map.mpr ⟨y, hy, by rw [hyb, hxa, hab]⟩)
  others := by
    have hnew : new.filter (fun x => key x ∉ new.map key) = [] := by
      refine List.filter_eq_nil_iff.mpr fun x hx => ?_
      simpa using ⟨x, hx, rfl⟩
    rw [replaceBy, List.filter_append, hnew, List.append_nil, List.filter_filter]
    simp only [Bool.and_self]
  present x hx := List.mem_append_right _ hx

/-- A write that leaves more members alone leaves those alone too. -/
theorem Written.others_of {items xs ys : List α} (h : Written key items xs ys) {p : α → Bool}
    (hp : ∀ x, p x = true → key x ∉ items.map key) : ys.filter p = xs.filter p := by
  have hsame : ∀ zs : List α,
      (zs.filter fun x => key x ∉ items.map key).filter p = zs.filter p := fun zs => by
    rw [List.filter_filter]
    refine List.filter_congr fun x _ => ?_
    by_cases hx : p x = true
    · rw [hx, Bool.true_and, decide_eq_true (hp x hx)]
    · rw [Bool.not_eq_true] at hx
      rw [hx, Bool.false_and]
  rw [← hsame ys, h.others, hsame xs]

end Keyed

end Collections
