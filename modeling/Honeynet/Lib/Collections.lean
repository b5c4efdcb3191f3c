import Mathlib.Data.List.Basic
import Mathlib.Data.List.Find
import Mathlib.Data.List.Nodup
import Mathlib.Data.List.Infix
import Mathlib.Data.List.Forall2
import Mathlib.Data.List.TakeWhile

/-!
# Ordered collections

Three list-backed collections with the order conventions of a scripting
language's built-in ones.

* `appendNew xs ys` appends the members of `ys` to `xs`, skipping what is
  already there.  `mem_appendNew` says what it holds, `prefix_appendNew` that
  nothing moves, `nodup_appendNew` that it never repeats a member.
* `Dict`: an insertion-ordered dictionary as a list of pairs.  `set` replaces in
  place or appends, `lookup_set` is its law.
* `product xss` chooses one member of each list, in the order of nested loops.
* `upsertBy key item xs` replaces every member with `item`'s key by `item`, or
  appends `item`.  `findLast_upsertBy_self` and `findLast_upsertBy_ne` are its
  laws for a reader that lets later members win, `find?_upsertBy_self` and
  `find?_upsertBy_of_ne` for one that takes the first, `findLast_upsertBy_new` and
  `findLast_upsertBy_replaced` for one that reads by a second key.
-/

namespace Collections

variable {α κ υ : Type*}

/-! ### Choosing one of each -/

/-- `itertools.product(*xss)`. -/
def product : List (List α) → List (List α)
  | [] => [[]]
  | xs :: xss => xs.flatMap fun x => (product xss).map (x :: ·)

theorem mem_product {xss : List (List α)} {ys : List α} :
    ys ∈ product xss ↔ List.Forall₂ (· ∈ ·) ys xss := by
  induction xss generalizing ys with
  | nil => rw [product, List.mem_singleton, List.forall₂_nil_right_iff]
  | cons xs xss ih =>
    rw [product, List.mem_flatMap, List.forall₂_cons_right_iff]
    constructor
    · rintro ⟨x, hx, hys⟩
      obtain ⟨zs, hzs, rfl⟩ := List.mem_map.mp hys
      exact ⟨x, zs, hx, ih.mp hzs, rfl⟩
    · rintro ⟨x, zs, hx, hzs, rfl⟩
      exact ⟨x, hx, List.mem_map_of_mem (ih.mpr hzs)⟩

theorem mem_of_forall₂ {β : Type*} {r : α → β → Prop} {xs : List α} {ys : List β} {x : α}
    (h : List.Forall₂ r xs ys) (hx : x ∈ xs) : ∃ y ∈ ys, r x y := by
  induction h with
  | nil => exact absurd hx List.not_mem_nil
  | @cons a b as bs hab _ ih =>
    rcases List.mem_cons.mp hx with rfl | hx
    · exact ⟨b, List.mem_cons_self, hab⟩
    · obtain ⟨y, hy, hxy⟩ := ih hx
      exact ⟨y, List.mem_cons_of_mem b hy, hxy⟩

theorem eq_of_nodup_filterMap {β : Type*} {f : α → Option β} {xs : List α}
    (h : (xs.filterMap f).Nodup) {x y : α} (hx : x ∈ xs) (hy : y ∈ xs) {b : β} (hfx : f x = some b)
    (hfy : f y = some b) : x = y := by
  induction xs with
  | nil => exact absurd hx List.not_mem_nil
  | cons a xs ih =>
    have hlater : ∀ z ∈ xs, f z = some b → f a ≠ some b := by
      intro z hz hfz hfa
      rw [List.filterMap_cons_some hfa, List.nodup_cons] at h
      exact h.1 (List.mem_filterMap.mpr ⟨z, hz, hfz⟩)
    rcases List.mem_cons.mp hx with rfl | hx' <;> rcases List.mem_cons.mp hy with rfl | hy'
    · rfl
    · exact absurd hfx (hlater y hy' hfy)
    · exact absurd hfy (hlater x hx' hfx)
    · refine ih ?_ hx' hy'
      cases hfa : f a with
      | none => rwa [List.filterMap_cons_none hfa] at h
      | some c =>
        rw [List.filterMap_cons_some hfa] at h
        exact h.of_cons

/-- What a partial function keeps the key of stands in the order of the list. -/
theorem map_filterMap_sublist {β : Type*} {f : α → Option β} {key : α → κ} {key' : β → κ}
    (h : ∀ x y, f x = some y → key' y = key x) (xs : List α) :
    ((xs.filterMap f).map key').Sublist (xs.map key) := by
  induction xs with
  | nil => exact List.Sublist.slnil
  | cons x xs ih =>
    cases hx : f x with
    | none =>
      rw [List.filterMap_cons_none hx]
      exact ih.cons (key x)
    | some y =>
      rw [List.filterMap_cons_some hx, List.map_cons, List.map_cons, h x y hx]
      exact ih.cons_cons (key x)

theorem findSome?_congr {β : Type*} {f g : α → Option β} {xs : List α}
    (h : ∀ x ∈ xs, f x = g x) : xs.findSome? f = xs.findSome? g := by
  induction xs with
  | nil => rfl
  | cons x xs ih =>
    rw [List.findSome?_cons, List.findSome?_cons, h x List.mem_cons_self,
      ih fun y hy => h y (List.mem_cons_of_mem x hy)]

/-- A partial function that is defined less often gives less. -/
theorem filterMap_sublist {β : Type*} {f g : α → Option β}
    (h : ∀ x y, f x = some y → g x = some y) (xs : List α) :
    (xs.filterMap f).Sublist (xs.filterMap g) := by
  induction xs with
  | nil => exact List.Sublist.slnil
  | cons x xs ih =>
    cases hf : f x with
    | some y =>
      rw [List.filterMap_cons_some hf, List.filterMap_cons_some (h x y hf)]
      exact ih.cons_cons y
    | none =>
      rw [List.filterMap_cons_none hf]
      cases hg : g x with
      | none => rwa [List.filterMap_cons_none hg]
      | some y => rw [List.filterMap_cons_some hg]; exact ih.cons y

/-- Changing every member at its position leaves what is read of the members that pass. -/
theorem map_filter_mapIdx {β : Type*} {f : ℕ → α → α} {p : α → Bool} {k : α → β}
    (hp : ∀ i x, p (f i x) = p x) (hk : ∀ i x, k (f i x) = k x) (xs : List α) :
    ((xs.mapIdx f).filter p).map k = (xs.filter p).map k := by
  induction xs generalizing f with
  | nil => rfl
  | cons x xs ih =>
    have htail := ih (fun i x => hp (i + 1) x) fun i x => hk (i + 1) x
    rw [List.mapIdx_cons, List.filter_cons, List.filter_cons, hp 0 x]
    by_cases hx : p x = true
    · rw [if_pos hx, if_pos hx, List.map_cons, List.map_cons, hk 0 x, htail]
    · rw [if_neg hx, if_neg hx, htail]

/-- Only the members that pass contribute. -/
theorem flatMap_filter {β : Type*} {p : α → Bool} {f : α → List β} {xs : List α} :
    (xs.filter p).flatMap f = xs.flatMap fun x => if p x then f x else [] := by
  induction xs with
  | nil => rfl
  | cons x xs ih =>
    by_cases hx : p x = true
    · rw [List.filter_cons_of_pos hx, List.flatMap_cons, List.flatMap_cons, if_pos hx, ih]
    · rw [List.filter_cons_of_neg hx, List.flatMap_cons, if_neg hx, List.nil_append, ih]

theorem takeWhile_congr {p q : α → Bool} {xs : List α} (h : ∀ x ∈ xs, p x = q x) :
    xs.takeWhile p = xs.takeWhile q := by
  induction xs with
  | nil => rfl
  | cons x xs ih =>
    rw [List.takeWhile_cons, List.takeWhile_cons, h x List.mem_cons_self,
      ih fun y hy => h y (List.mem_cons_of_mem x hy)]

/-- Where an earlier match is visible with a later one, the first visible match is the first
match. -/
theorem find?_filter_of_pairwise {p q : α → Bool} {xs : List α}
    (h : xs.Pairwise fun a b => p a → p b → q b → q a) :
    (xs.filter q).find? p = (xs.find? p).filter q := by
  induction xs with
  | nil => rfl
  | cons x xs ih =>
    obtain ⟨hx, hxs⟩ := List.pairwise_cons.mp h
    by_cases hp : p x
    · rw [List.find?_cons_of_pos hp, Option.filter_some]
      by_cases hq : q x
      · rw [List.filter_cons_of_pos hq, List.find?_cons_of_pos hp, if_pos hq]
      · rw [List.filter_cons_of_neg hq, if_neg hq, List.find?_eq_none]
        intro y hy hpy
        obtain ⟨hy, hqy⟩ := List.mem_filter.mp hy
        exact hq (hx y hy hp hpy hqy)
    · rw [List.find?_cons_of_neg hp, ← ih hxs]
      by_cases hq : q x
      · rw [List.filter_cons_of_pos hq, List.find?_cons_of_neg hp]
      · rw [List.filter_cons_of_neg hq]

/-! ### Appending without repetition -/

section AppendNew

variable [DecidableEq α]

/-- One step of `appendNew`. -/
def addNew (xs : List α) (y : α) : List α := if y ∈ xs then xs else xs ++ [y]

/-- Append the members of `ys` to `xs`, each at most once. -/
def appendNew (xs ys : List α) : List α := ys.foldl addNew xs

@[simp] theorem appendNew_nil (xs : List α) : appendNew xs [] = xs := rfl

theorem appendNew_cons (xs ys : List α) (y : α) :
    appendNew xs (y :: ys) = appendNew (addNew xs y) ys := rfl

@[simp] theorem mem_addNew {xs : List α} {y x : α} : x ∈ addNew xs y ↔ x ∈ xs ∨ x = y := by
  rw [addNew]
  by_cases h : y ∈ xs
  · rw [if_pos h]
    constructor
    · exact Or.inl
    · rintro (hx | rfl)
      · exact hx
      · exact h
  · rw [if_neg h, List.mem_append, List.mem_singleton]

@[simp] theorem mem_appendNew {xs ys : List α} {x : α} :
    x ∈ appendNew xs ys ↔ x ∈ xs ∨ x ∈ ys := by
  induction ys generalizing xs with
  | nil => simp
  | cons y ys ih => rw [appendNew_cons, ih, mem_addNew, List.mem_cons, or_assoc]

theorem prefix_addNew (xs : List α) (y : α) : xs <+: addNew xs y := by
  rw [addNew]
  by_cases h : y ∈ xs
  · rw [if_pos h]
  · rw [if_neg h]; exact List.prefix_append xs [y]

theorem prefix_appendNew (xs ys : List α) : xs <+: appendNew xs ys := by
  induction ys generalizing xs with
  | nil => exact List.prefix_refl xs
  | cons y ys ih => exact (prefix_addNew xs y).trans (ih (addNew xs y))

theorem nodup_addNew {xs : List α} (h : xs.Nodup) (y : α) : (addNew xs y).Nodup := by
  rw [addNew]
  by_cases hy : y ∈ xs
  · rw [if_pos hy]; exact h
  · rw [if_neg hy]
    exact List.nodup_append.mpr ⟨h, List.nodup_singleton y,
      fun a ha b hb => by rw [List.mem_singleton.mp hb]; exact fun e => hy (e ▸ ha)⟩

theorem appendNew_append (xs ys zs : List α) :
    appendNew xs (ys ++ zs) = appendNew (appendNew xs ys) zs := List.foldl_append

theorem appendNew_addNew (xs ys : List α) (y : α) :
    appendNew xs (addNew ys y) = addNew (appendNew xs ys) y := by
  rw [addNew]
  by_cases hy : y ∈ ys
  · rw [if_pos hy, addNew, if_pos (mem_appendNew.mpr (Or.inr hy))]
  · rw [if_neg hy, appendNew_append]
    rfl

/-- Removing repetitions first makes no difference. -/
theorem appendNew_appendNew (xs ys zs : List α) :
    appendNew xs (appendNew ys zs) = appendNew (appendNew xs ys) zs := by
  induction zs generalizing ys with
  | nil => rfl
  | cons z zs ih => rw [appendNew_cons, ih, appendNew_addNew, appendNew_cons]

theorem appendNew_flatten_map {β : Type*} (f : β → List α) (xs : List α) (bs : List β) :
    appendNew xs (bs.map fun b => appendNew [] (f b)).flatten = appendNew xs (bs.flatMap f) := by
  induction bs generalizing xs with
  | nil => rfl
  | cons b bs ih =>
    rw [List.map_cons, List.flatten_cons, List.flatMap_cons, appendNew_append, appendNew_append, ih,
      appendNew_appendNew, appendNew_nil]

/-- What stands before the first occurrence of a member is not moved. -/
theorem takeWhile_appendNew {xs : List α} {y : α} (hy : y ∉ xs) (zs : List α) :
    (appendNew xs zs).takeWhile (· != y) = appendNew xs (zs.takeWhile (· != y)) := by
  have hall : ∀ ws : List α, y ∉ ws → ws.takeWhile (· != y) = ws := by
    intro ws hws
    refine List.takeWhile_eq_self_iff.mpr ?_
    intro w hw
    simpa using fun h : w = y => hws (h ▸ hw)
  induction zs generalizing xs with
  | nil => exact hall xs hy
  | cons z zs ih =>
    by_cases hz : z = y
    · subst hz
      obtain ⟨ws, hws⟩ := prefix_appendNew (addNew xs z) zs
      rw [List.takeWhile_cons_of_neg (by simp), appendNew_nil, appendNew_cons, ← hws, addNew,
        if_neg hy, List.append_assoc, List.takeWhile_append_of_pos]
      · simp
      · intro w hw
        simpa using fun h : w = z => hy (h ▸ hw)
    · rw [List.takeWhile_cons_of_pos (by simpa using hz), appendNew_cons, appendNew_cons]
      refine ih ?_
      rw [mem_addNew, not_or]
      exact ⟨hy, fun h => hz h.symm⟩

theorem appendNew_of_nodup {xs ys : List α} (h : (xs ++ ys).Nodup) : appendNew xs ys = xs ++ ys := by
  induction ys generalizing xs with
  | nil => exact (List.append_nil xs).symm
  | cons y ys ih =>
    have hy : y ∉ xs := fun hmem => (List.nodup_append.mp h).2.2 y hmem y List.mem_cons_self rfl
    rw [appendNew_cons, addNew, if_neg hy, ih (by rwa [List.append_assoc]), List.append_assoc]
    rfl

theorem nodup_appendNew {xs : List α} (h : xs.Nodup) (ys : List α) : (appendNew xs ys).Nodup := by
  induction ys generalizing xs with
  | nil => exact h
  | cons y ys ih => exact ih (nodup_addNew h y)

theorem appendNew_eq_self_iff {xs : List α} : appendNew [] xs = xs ↔ xs.Nodup := by
  constructor
  · intro h
    rw [← h]
    exact nodup_appendNew List.nodup_nil xs
  · intro h
    exact appendNew_of_nodup h

end AppendNew

section DedupeBy

variable {κ : Type*} [DecidableEq κ] {key : α → κ}

/-- The first member with each key, apart from the keys `seen`. -/
def dedupeBy (key : α → κ) (seen : List κ) : List α → List α
  | [] => []
  | x :: xs =>
    if key x ∈ seen then dedupeBy key seen xs else x :: dedupeBy key (key x :: seen) xs

theorem dedupeBy_sublist (seen : List κ) (xs : List α) : (dedupeBy key seen xs).Sublist xs := by
  induction xs generalizing seen with
  | nil => exact List.Sublist.slnil
  | cons x xs ih =>
    rw [dedupeBy]
    by_cases hx : key x ∈ seen
    · rw [if_pos hx]
      exact (ih seen).cons x
    · rw [if_neg hx]
      exact (ih (key x :: seen)).cons_cons x

/-- **No member is dropped** exactly if the keys are distinct and new. -/
theorem dedupeBy_eq_self_iff {seen : List κ} {xs : List α} :
    dedupeBy key seen xs = xs ↔ (xs.map key).Nodup ∧ ∀ x ∈ xs, key x ∉ seen := by
  induction xs generalizing seen with
  | nil => simp [dedupeBy]
  | cons x xs ih =>
    rw [dedupeBy]
    by_cases hx : key x ∈ seen
    · rw [if_pos hx]
      refine ⟨fun h => ?_, fun h => absurd hx (h.2 x List.mem_cons_self)⟩
      have hlength : (dedupeBy key seen xs).length ≤ xs.length :=
        (dedupeBy_sublist seen xs).length_le
      rw [h, List.length_cons] at hlength
      omega
    · rw [if_neg hx, List.cons_eq_cons, ih, List.map_cons, List.nodup_cons, List.forall_mem_cons]
      simp only [true_and, List.mem_cons, not_or, List.mem_map, not_exists, not_and]
      refine ⟨fun h => ?_, fun h => ?_⟩
      · exact ⟨⟨fun y hy => (h.2 y hy).1, h.1⟩, hx, fun y hy => (h.2 y hy).2⟩
      · exact ⟨h.1.2, fun y hy => ⟨h.1.1 y hy, h.2.2 y hy⟩⟩

end DedupeBy

/-! ### Insertion-ordered dictionaries -/

/-- A dictionary as the list of its entries in insertion order. -/
abbrev Dict (κ υ : Type*) := List (κ × υ)

section Dict

variable [DecidableEq κ]

/-- Replace the value at `k` in place, or append the entry. -/
def Dict.set : Dict κ υ → κ → υ → Dict κ υ
  | [], k, v => [(k, v)]
  | e :: d, k, v => if e.1 = k then (k, v) :: d else e :: Dict.set d k v

/-- Set every entry of `e`, in order. -/
def Dict.update (d e : Dict κ υ) : Dict κ υ := e.foldl (fun d kv => d.set kv.1 kv.2) d

/-- The value at `k`, if there is one. -/
abbrev Dict.get? (d : Dict κ υ) (k : κ) : Option υ := d.lookup k

/-- The value at `k`, or `default`. -/
def Dict.getD (d : Dict κ υ) (k : κ) (default : υ) : υ := (d.lookup k).getD default

theorem lookup_cons_eq (e : κ × υ) (d : Dict κ υ) (k : κ) :
    (e :: d).lookup k = if k = e.1 then some e.2 else d.lookup k := by
  obtain ⟨a, b⟩ := e
  by_cases h : k = a
  · subst h; simp
  · rw [List.lookup_cons, if_neg h, beq_eq_false_iff_ne.mpr h]

theorem lookup_map_value {υ' : Type*} (d : Dict κ υ) (f : υ → υ') (k : κ) :
    (d.map fun e => (e.1, f e.2)).lookup k = (d.lookup k).map f := by
  induction d with
  | nil => rfl
  | cons e d ih =>
    rw [List.map_cons, lookup_cons_eq, lookup_cons_eq, ih]
    split <;> rfl

/-- **Reading after writing.** -/
theorem lookup_set (d : Dict κ υ) (k k' : κ) (v : υ) :
    (d.set k v).lookup k' = if k' = k then some v else d.lookup k' := by
  induction d with
  | nil => rw [Dict.set, lookup_cons_eq]
  | cons e d ih =>
    rw [Dict.set]
    by_cases he : e.1 = k
    · rw [if_pos he, lookup_cons_eq, lookup_cons_eq, he]
      by_cases hk : k' = k
      · rw [if_pos hk, if_pos hk]
      · rw [if_neg hk, if_neg hk, if_neg hk]
    · rw [if_neg he, lookup_cons_eq, ih, lookup_cons_eq]
      by_cases hk : k' = k
      · subst hk
        rw [if_neg (fun h => he h.symm), if_pos rfl, if_pos rfl]
      · rw [if_neg hk, if_neg hk]

@[simp] theorem lookup_set_self (d : Dict κ υ) (k : κ) (v : υ) :
    (d.set k v).lookup k = some v := by rw [lookup_set, if_pos rfl]

theorem lookup_set_ne (d : Dict κ υ) {k k' : κ} (h : k' ≠ k) (v : υ) :
    (d.set k v).lookup k' = d.lookup k' := by rw [lookup_set, if_neg h]

/-- Writing what is there changes nothing. -/
theorem set_of_lookup {d : Dict κ υ} {k : κ} {v : υ} (h : d.lookup k = some v) :
    d.set k v = d := by
  induction d with
  | nil => simp at h
  | cons e d ih =>
    rw [lookup_cons_eq] at h
    rw [Dict.set]
    by_cases he : e.1 = k
    · rw [if_pos he.symm, Option.some.injEq] at h
      rw [if_pos he, ← he, ← h]
    · rw [if_neg fun heq => he heq.symm] at h
      rw [if_neg he, ih h]

theorem mem_dictSet {d : Dict κ υ} {k : κ} {v : υ} {e : κ × υ} (h : e ∈ Dict.set d k v) :
    e = (k, v) ∨ e ∈ d := by
  induction d with
  | nil => exact Or.inl (List.mem_singleton.mp h)
  | cons f d ih =>
    rw [Dict.set] at h
    by_cases hf : f.1 = k
    · rw [if_pos hf] at h
      rcases List.mem_cons.mp h with rfl | h
      · exact Or.inl rfl
      · exact Or.inr (List.mem_cons_of_mem f h)
    · rw [if_neg hf] at h
      rcases List.mem_cons.mp h with rfl | h
      · exact Or.inr List.mem_cons_self
      · exact (ih h).imp_right (List.mem_cons_of_mem f)

theorem keys_set (d : Dict κ υ) (k : κ) (v : υ) :
    (Dict.set d k v).map Prod.fst = addNew (d.map Prod.fst) k := by
  induction d with
  | nil => rfl
  | cons e d ih =>
    rw [Dict.set, addNew, List.map_cons]
    by_cases he : e.1 = k
    · rw [if_pos he, if_pos (he ▸ List.mem_cons_self), List.map_cons, he]
    · rw [if_neg he, List.map_cons, ih, addNew]
      by_cases hk : k ∈ d.map Prod.fst
      · rw [if_pos hk, if_pos (List.mem_cons_of_mem _ hk)]
      · rw [if_neg hk, if_neg (by
          rw [List.mem_cons]
          rintro (h | h)
          · exact he h.symm
          · exact hk h)]
        rfl

/-- Set the names that have a value, in order. -/
def Dict.copy (d : Dict κ υ) (names : List κ) (value : κ → Option υ) : Dict κ υ :=
  names.foldl (fun d name => (value name).elim d (Dict.set d name)) d

/-- A name that is copied has its value, every other the one it had. -/
theorem lookup_copy (d : Dict κ υ) (names : List κ) (value : κ → Option υ) (k : κ) :
    (d.copy names value).lookup k =
      if k ∈ names then (value k).or (d.lookup k) else d.lookup k := by
  induction names generalizing d with
  | nil => rfl
  | cons name names ih =>
    rw [Dict.copy, List.foldl_cons, ← Dict.copy, ih]
    have hstep : ((value name).elim d (Dict.set d name)).lookup k =
        if k = name then (value k).or (d.lookup k) else d.lookup k := by
      cases hvalue : value name with
      | none =>
        by_cases hk : k = name
        · rw [if_pos hk, hk, hvalue, Option.elim_none, Option.none_or]
        · rw [if_neg hk, Option.elim_none]
      | some v =>
        rw [Option.elim_some, lookup_set]
        by_cases hk : k = name
        · rw [if_pos hk, if_pos hk, hk, hvalue, Option.some_or]
        · rw [if_neg hk, if_neg hk]
    rw [hstep]
    by_cases hk : k = name
    · subst hk
      rw [if_pos rfl, if_pos List.mem_cons_self]
      by_cases hmem : k ∈ names
      · rw [if_pos hmem]
        cases value k with
        | none => rfl
        | some v => rfl
      · rw [if_neg hmem]
    · simp only [List.mem_cons, hk, false_or, if_false]

theorem set_of_not_mem {d : Dict κ υ} {k : κ} (h : k ∉ d.map Prod.fst) (v : υ) :
    Dict.set d k v = d ++ [(k, v)] := by
  induction d with
  | nil => rfl
  | cons e d ih =>
    rw [List.map_cons, List.mem_cons, not_or] at h
    rw [Dict.set, if_neg (fun he => h.1 he.symm), ih h.2, List.cons_append]

theorem nodup_keys_update {d : Dict κ υ} (h : (d.map Prod.fst).Nodup) (e : Dict κ υ) :
    ((d.update e).map Prod.fst).Nodup := by
  induction e generalizing d with
  | nil => exact h
  | cons entry e ih => exact ih (by rw [keys_set]; exact nodup_addNew h _)

/-- Setting distinct new keys one after the other appends them in order. -/
theorem foldl_set_of_nodup {α : Type*} (k : α → κ) (v : α → υ) (xs : List α) (d : Dict κ υ)
    (h : (d.map Prod.fst ++ xs.map k).Nodup) :
    xs.foldl (fun d x => Dict.set d (k x) (v x)) d = d ++ xs.map fun x => (k x, v x) := by
  induction xs generalizing d with
  | nil => simp
  | cons x xs ih =>
    have hx : k x ∉ d.map Prod.fst := by
      intro hm
      exact (List.nodup_append.mp h).2.2 _ hm _ List.mem_cons_self rfl
    rw [List.foldl_cons, set_of_not_mem hx, ih]
    · simp
    · simpa [List.append_assoc] using h

theorem update_nil_of_nodup {e : Dict κ υ} (h : (e.map Prod.fst).Nodup) :
    Dict.update [] e = e := by
  have hset := foldl_set_of_nodup Prod.fst Prod.snd e [] (by simpa using h)
  rw [Dict.update, hset]
  simp

theorem mem_foldl_set {α : Type*} {k : α → κ} {v : α → υ} {xs : List α} {d : Dict κ υ} {e : κ × υ}
    (h : e ∈ xs.foldl (fun d x => Dict.set d (k x) (v x)) d) :
    e ∈ d ∨ ∃ x ∈ xs, e = (k x, v x) := by
  induction xs generalizing d with
  | nil => exact Or.inl h
  | cons x xs ih =>
    rcases ih h with hd | ⟨y, hy, he⟩
    · rcases mem_dictSet hd with he | hd
      · exact Or.inr ⟨x, List.mem_cons_self, he⟩
      · exact Or.inl hd
    · exact Or.inr ⟨y, List.mem_cons_of_mem x hy, he⟩

theorem lookup_update_of_notMem {d e : Dict κ υ} {k : κ} (h : k ∉ e.map Prod.fst) :
    (d.update e).lookup k = d.lookup k := by
  induction e generalizing d with
  | nil => rfl
  | cons f e ih =>
    rw [List.map_cons, List.mem_cons, not_or] at h
    exact (ih h.2).trans (lookup_set_ne d h.1 f.2)

theorem lookup_isSome_iff {d : Dict κ υ} {k : κ} :
    (d.lookup k).isSome ↔ k ∈ d.map Prod.fst := by
  induction d with
  | nil => simp
  | cons e d ih =>
    rw [lookup_cons_eq, List.map_cons, List.mem_cons]
    by_cases hk : k = e.1
    · simp [hk]
    · rw [if_neg hk, ih]; simp [hk]

/-- **Reading after an update**, in which each key stands once. -/
theorem mem_keys_of_lookup {d : Dict κ υ} {k : κ} {v : υ} (h : d.lookup k = some v) :
    k ∈ d.map Prod.fst := by
  apply lookup_isSome_iff.mp
  rw [h]
  rfl

theorem lookup_update {e : Dict κ υ} (he : (e.map Prod.fst).Nodup) (d : Dict κ υ) (k : κ) :
    (d.update e).lookup k = (e.lookup k).or (d.lookup k) := by
  induction e generalizing d with
  | nil => rfl
  | cons f e ih =>
    rw [List.map_cons, List.nodup_cons] at he
    rw [lookup_cons_eq]
    by_cases hk : k = f.1
    · rw [if_pos hk, hk]
      exact (lookup_update_of_notMem he.1).trans (lookup_set_self d f.1 f.2)
    · rw [if_neg hk]
      exact (ih he.2 (d.set f.1 f.2)).trans (by rw [lookup_set_ne d hk])

/-- A new key is read from the update, where each key stands once. -/
theorem lookup_update_of_nodup {d e : Dict κ υ} {k : κ} (hd : k ∉ d.map Prod.fst)
    (he : (e.map Prod.fst).Nodup) : (d.update e).lookup k = e.lookup k := by
  have hnone : d.lookup k = none :=
    Option.not_isSome_iff_eq_none.mp (mt lookup_isSome_iff.mp hd)
  rw [lookup_update he, hnone, Option.or_none]

/-- `d.pop(k, None)`, what is left. -/
def Dict.pop (d : Dict κ υ) (k : κ) : Dict κ υ := d.filter fun e => e.1 ≠ k

theorem lookup_pop (d : Dict κ υ) (k k' : κ) :
    (d.pop k).lookup k' = if k' = k then none else d.lookup k' := by
  induction d with
  | nil => exact (ite_self none).symm
  | cons e d ih =>
    rw [Dict.pop, List.filter_cons]
    by_cases he : e.1 = k
    · rw [if_neg (by simpa using he), lookup_cons_eq, he]
      by_cases hk : k' = k
      · rw [if_pos hk]
        exact ih.trans (if_pos hk)
      · rw [if_neg hk, if_neg hk]
        exact ih.trans (if_neg hk)
    · rw [if_pos (by simpa using he), lookup_cons_eq, lookup_cons_eq]
      by_cases hk : k' = e.1
      · rw [if_pos hk, if_pos hk, if_neg fun h => he (hk ▸ h)]
      · rw [if_neg hk, if_neg hk]
        exact ih

theorem update_append (d e f : Dict κ υ) : d.update (e ++ f) = (d.update e).update f :=
  List.foldl_append

theorem lookup_of_mem {d : Dict κ υ} (hd : (d.map Prod.fst).Nodup) {e : κ × υ} (h : e ∈ d) :
    d.lookup e.1 = some e.2 := by
  induction d with
  | nil => exact absurd h List.not_mem_nil
  | cons f d ih =>
    rw [List.map_cons, List.nodup_cons] at hd
    rw [lookup_cons_eq]
    rcases List.mem_cons.mp h with rfl | h
    · rw [if_pos rfl]
    · have hne : e.1 ≠ f.1 := fun he => hd.1 (he ▸ List.mem_map_of_mem h)
      rw [if_neg hne]
      exact ih hd.2 h

/-- Where keys are distinct, a lookup does not depend on the order of the entries. -/
theorem lookup_perm {d d' : Dict κ υ} (hkeys : (d.map Prod.fst).Nodup) (h : d.Perm d') (k : κ) :
    d.lookup k = d'.lookup k := by
  have hkeys' : (d'.map Prod.fst).Nodup := (h.map Prod.fst).nodup_iff.mp hkeys
  by_cases hk : k ∈ d.map Prod.fst
  · obtain ⟨e, he, rfl⟩ := List.mem_map.mp hk
    rw [lookup_of_mem hkeys he, lookup_of_mem hkeys' (h.mem_iff.mp he)]
  · have hk' : k ∉ d'.map Prod.fst := fun hmem => hk ((h.map Prod.fst).mem_iff.mpr hmem)
    rw [Option.not_isSome_iff_eq_none.mp fun hsome => hk (lookup_isSome_iff.mp hsome),
      Option.not_isSome_iff_eq_none.mp fun hsome => hk' (lookup_isSome_iff.mp hsome)]

end Dict

/-! ### Keyed lists -/

section Upsert

variable [DecidableEq κ] (key : α → κ)

/-- Replace every member with `item`'s key by `item`; append `item` if there is none. -/
def upsertBy (item : α) (xs : List α) : List α :=
  if key item ∈ xs.map key then
    xs.map (fun x => if key x = key item then item else x)
  else xs ++ [item]

/-- The last member with key `k`: what a reader gets that lets later members win. -/
def findLast (k : κ) (xs : List α) : Option α := xs.reverse.find? (fun x => key x = k)

variable {key}

theorem mem_upsertBy {item x : α} {xs : List α} (h : x ∈ upsertBy key item xs) :
    x = item ∨ (x ∈ xs ∧ key x ≠ key item) := by
  rw [upsertBy] at h
  by_cases hk : key item ∈ xs.map key
  · rw [if_pos hk, List.mem_map] at h
    obtain ⟨y, hy, rfl⟩ := h
    by_cases he : key y = key item
    · rw [if_pos he]; exact Or.inl rfl
    · rw [if_neg he]; exact Or.inr ⟨hy, he⟩
  · rw [if_neg hk, List.mem_append, List.mem_singleton] at h
    rcases h with hx | rfl
    · exact Or.inr ⟨hx, fun he => hk (List.mem_map.mpr ⟨x, hx, he⟩)⟩
    · exact Or.inl rfl

theorem self_mem_upsertBy (item : α) (xs : List α) : item ∈ upsertBy key item xs := by
  rw [upsertBy]
  by_cases hk : key item ∈ xs.map key
  · rw [if_pos hk]
    obtain ⟨y, hy, he⟩ := List.mem_map.mp hk
    exact List.mem_map.mpr ⟨y, hy, by rw [if_pos he]⟩
  · rw [if_neg hk]; exact List.mem_append_right _ (List.mem_singleton_self item)

theorem mem_upsertBy_of_ne {item x : α} {xs : List α} (hx : x ∈ xs) (hne : key x ≠ key item) :
    x ∈ upsertBy key item xs := by
  rw [upsertBy]
  by_cases hk : key item ∈ xs.map key
  · rw [if_pos hk]; exact List.mem_map.mpr ⟨x, hx, by rw [if_neg hne]⟩
  · rw [if_neg hk]; exact List.mem_append_left _ hx

/-- What is found first is replaced where it stands. -/
theorem find?_upsertBy_self {item x : α} {xs : List α} {p : α → Bool} (hx : xs.find? p = some x)
    (hkey : key x = key item) (hp : p item = true) :
    (upsertBy key item xs).find? p = some item := by
  have hmem : key item ∈ xs.map key :=
    List.mem_map.mpr ⟨x, List.mem_of_find?_eq_some hx, hkey⟩
  rw [upsertBy, if_pos hmem]
  obtain ⟨_, before, after, rfl, hbefore⟩ := List.find?_eq_some_iff_append.mp hx
  rw [List.map_append, List.map_cons, if_pos hkey, List.find?_append]
  have hfound : (item :: after.map fun y => if key y = key item then item else y).find? p =
      some item := List.find?_cons_of_pos hp
  rw [hfound]
  cases hfirst : (before.map fun y => if key y = key item then item else y).find? p with
  | none => rfl
  | some y =>
    -- only a member with the same key can have come before
    obtain ⟨z, hz, rfl⟩ := List.mem_map.mp (List.mem_of_find?_eq_some hfirst)
    by_cases hzkey : key z = key item
    · rw [if_pos hzkey]; rfl
    · have hpz := List.find?_some hfirst
      rw [if_neg hzkey] at hpz
      exact absurd hpz (by simpa using hbefore z hz)

/-- What is found first is found again, if what is written is neither it nor in its way. -/
theorem find?_upsertBy_of_ne {item x : α} {xs : List α} {p : α → Bool} (hx : xs.find? p = some x)
    (h : ∀ y ∈ xs, key y = key item → p y = false ∧ p item = false) :
    (upsertBy key item xs).find? p = some x := by
  rw [upsertBy]
  by_cases hmem : key item ∈ xs.map key
  · obtain ⟨y, hy, hykey⟩ := List.mem_map.mp hmem
    have hitem := (h y hy hykey).2
    rw [if_pos hmem]
    obtain ⟨hpx, before, after, rfl, hbefore⟩ := List.find?_eq_some_iff_append.mp hx
    have hxkey : key x ≠ key item := by
      intro hkey
      exact absurd (h x (by simp) hkey).1 (by simp [hpx])
    rw [List.map_append, List.map_cons, if_neg hxkey]
    refine List.find?_eq_some_iff_append.mpr ⟨hpx, _, _, rfl, ?_⟩
    intro z hz
    obtain ⟨y', hy', rfl⟩ := List.mem_map.mp hz
    split
    · simp [hitem]
    · exact hbefore y' hy'
  · rw [if_neg hmem, List.find?_append, hx]; rfl

/-- Writing an item leaves the sequence of keys alone, up to one appended key. -/
theorem map_key_upsertBy (item : α) (xs : List α) :
    (upsertBy key item xs).map key = addNew (xs.map key) (key item) := by
  rw [upsertBy, addNew]
  by_cases hk : key item ∈ xs.map key
  · rw [if_pos hk, if_pos hk, List.map_map]
    refine List.map_congr_left fun x _ => ?_
    by_cases he : key x = key item
    · rw [Function.comp, if_pos he, he]
    · rw [Function.comp, if_neg he]
  · rw [if_neg hk, if_neg hk, List.map_append]; rfl

/-- Members without the item's key stay. -/
theorem map_replace_of_notMem {item : α} {xs : List α} (h : key item ∉ xs.map key) :
    xs.map (fun x => if key x = key item then item else x) = xs :=
  (List.map_congr_left fun x hx =>
    if_neg fun heq : key x = key item => h (heq ▸ List.mem_map_of_mem hx)).trans (List.map_id xs)

/-- An item whose key is among the first members alone is replaced there. -/
theorem upsertBy_append_left {item : α} {xs ys : List α} (hx : key item ∈ xs.map key)
    (hy : key item ∉ ys.map key) : upsertBy key item (xs ++ ys) = upsertBy key item xs ++ ys := by
  have hin : key item ∈ (xs ++ ys).map key := by
    rw [List.map_append]
    exact List.mem_append_left _ hx
  rw [upsertBy, upsertBy, if_pos hin, if_pos hx, List.map_append, map_replace_of_notMem hy]

/-- The last member is replaced, if it is the only one with its key. -/
theorem upsertBy_append_singleton {item y : α} {xs : List α} (hx : key item ∉ xs.map key)
    (hy : key y = key item) : upsertBy key item (xs ++ [y]) = xs ++ [item] := by
  have hin : key item ∈ (xs ++ [y]).map key := by
    rw [List.map_append, ← hy]
    exact List.mem_append_right _ (List.mem_singleton_self _)
  rw [upsertBy, if_pos hin, List.map_append, map_replace_of_notMem hx, List.map_singleton,
    if_pos hy]

/-- Writing an item leaves the others as they are, and in their order. -/
theorem filter_upsertBy_ne (item : α) (xs : List α) :
    (upsertBy key item xs).filter (fun x => key x ≠ key item) =
      xs.filter fun x => key x ≠ key item := by
  rw [upsertBy]
  by_cases hk : key item ∈ xs.map key
  · rw [if_pos hk]
    induction xs with
    | nil => rfl
    | cons x xs ih =>
      have hrest : (xs.map fun x => if key x = key item then item else x).filter
          (fun x => key x ≠ key item) = xs.filter fun x => key x ≠ key item := by
        by_cases hmem : key item ∈ xs.map key
        · exact ih hmem
        · rw [map_replace_of_notMem hmem]
      rw [List.map_cons, List.filter_cons, List.filter_cons, hrest]
      by_cases hx : key x = key item
      · simp [hx]
      · simp [hx]
  · rw [if_neg hk, List.filter_append]
    simp

/-- An item that fails a filter takes those with its key out of what passes. -/
theorem filter_upsertBy_of_not {item : α} {p : α → Bool} (hitem : p item = false) (xs : List α) :
    (upsertBy key item xs).filter p = (xs.filter p).filter fun x => key x ≠ key item := by
  have hmap : (xs.map fun x => if key x = key item then item else x).filter p =
      (xs.filter p).filter fun x => key x ≠ key item := by
    induction xs with
    | nil => rfl
    | cons x xs ih =>
      rw [List.map_cons]
      by_cases hx : key x = key item
      · cases hp : p x <;> simp [hx, hp, hitem, ih]
      · cases hp : p x <;> simp [hx, hp, ih]
  rw [upsertBy, ← hmap]
  by_cases hk : key item ∈ xs.map key
  · rw [if_pos hk]
  · rw [if_neg hk, map_replace_of_notMem hk, List.filter_append]
    simp [hitem]

/-- A new item that passes a filter comes after what passed before. -/
theorem filter_upsertBy_new {item : α} {xs : List α} {p : α → Bool} (hnew : key item ∉ xs.map key)
    (hitem : p item = true) : (upsertBy key item xs).filter p = xs.filter p ++ [item] := by
  rw [upsertBy, if_neg hnew, List.filter_append, List.filter_singleton, hitem]
  rfl

theorem findLast_mem {k : κ} {xs : List α} {x : α} (h : findLast key k xs = some x) :
    x ∈ xs ∧ key x = k :=
  ⟨List.mem_reverse.mp (List.mem_of_find?_eq_some h), by simpa using List.find?_some h⟩

variable (key) in
theorem findLast_isSome_of_mem {xs : List α} {x : α} (h : x ∈ xs) :
    ∃ y, findLast key (key x) xs = some y := by
  rw [← Option.isSome_iff_exists, findLast, List.find?_isSome]
  exact ⟨x, List.mem_reverse.mpr h, by simp⟩

theorem findLast_eq_getLast? (k : κ) (xs : List α) :
    findLast key k xs = (xs.filter fun x => key x = k).getLast? := by
  rw [findLast, List.getLast?_eq_head?_reverse, ← List.filter_reverse, List.head?_filter]

/-- Where keys are distinct, the last member with a key is the one with it. -/
theorem findLast_eq_some_of_nodup {xs : List α} (hnodup : (xs.map key).Nodup) {k : κ} {x : α} :
    findLast key k xs = some x ↔ x ∈ xs ∧ key x = k := by
  refine ⟨findLast_mem, ?_⟩
  rintro ⟨hx, rfl⟩
  obtain ⟨y, hy⟩ := findLast_isSome_of_mem key hx
  obtain ⟨hmem, hkey⟩ := findLast_mem hy
  rw [hy, List.inj_on_of_nodup_map hnodup hmem hx hkey]

theorem findLast_perm {xs ys : List α} (hperm : ys.Perm xs) (hnodup : (xs.map key).Nodup) (k : κ) :
    findLast key k ys = findLast key k xs := by
  refine Option.ext fun x => ?_
  rw [findLast_eq_some_of_nodup ((hperm.map key).nodup_iff.mpr hnodup),
    findLast_eq_some_of_nodup hnodup, hperm.mem_iff]

theorem findLast_append (k : κ) (xs ys : List α) :
    findLast key k (xs ++ ys) = (findLast key k ys).or (findLast key k xs) := by
  rw [findLast, List.reverse_append, List.find?_append]; rfl

theorem findLast_singleton (k : κ) (x : α) :
    findLast key k [x] = if key x = k then some x else none := by
  by_cases h : key x = k
  · rw [if_pos h, findLast, List.reverse_singleton, List.find?_cons_of_pos (by simpa using h)]
  · rw [if_neg h, findLast, List.reverse_singleton, List.find?_cons_of_neg (by simpa using h),
      List.find?_nil]

theorem findLast_map_replace (item : α) (k : κ) (xs : List α) :
    findLast key k (xs.map fun x => if key x = key item then item else x) =
      if k = key item then (findLast key k xs).map (fun _ => item) else findLast key k xs := by
  induction xs with
  | nil => rw [List.map_nil, findLast, List.reverse_nil, List.find?_nil]; simp
  | cons x xs ih =>
    rw [List.map_cons, ← List.singleton_append, findLast_append, ih,
      ← List.singleton_append (x := x), findLast_append, findLast_singleton, findLast_singleton]
    by_cases hk : k = key item
    · subst hk
      rw [if_pos rfl, if_pos rfl]
      cases findLast key (key item) xs with
      | some y => rfl
      | none =>
        by_cases hx : key x = key item
        · simp only [if_pos hx]; simp
        · simp only [if_neg hx]; simp
    · rw [if_neg hk, if_neg hk]
      cases findLast key k xs with
      | some y => rfl
      | none =>
        by_cases hx : key x = key item
        · rw [if_pos hx, if_neg (fun h => hk h.symm), if_neg (fun h => hk (h.symm.trans hx))]
        · rw [if_neg hx]

/-- **Reading back what was written.** -/
theorem findLast_upsertBy_self (item : α) (xs : List α) :
    findLast key (key item) (upsertBy key item xs) = some item := by
  rw [upsertBy]
  by_cases hk : key item ∈ xs.map key
  · rw [if_pos hk, findLast_map_replace, if_pos rfl]
    obtain ⟨x, hx, he⟩ := List.mem_map.mp hk
    obtain ⟨y, hy⟩ := findLast_isSome_of_mem key hx
    rw [he] at hy
    rw [hy]; rfl
  · rw [if_neg hk, findLast_append, findLast_singleton, if_pos rfl]; rfl

/-- **Other keys read as before.** -/
theorem findLast_upsertBy_ne (item : α) (xs : List α) {k : κ} (hne : k ≠ key item) :
    findLast key k (upsertBy key item xs) = findLast key k xs := by
  rw [upsertBy]
  by_cases hk : key item ∈ xs.map key
  · rw [if_pos hk, findLast_map_replace, if_neg hne]
  · rw [if_neg hk, findLast_append, findLast_singleton, if_neg (fun h => hne h.symm)]; rfl

/-! ### Keyed lists read by a second key -/

section SecondKey

variable {μ : Type*} [DecidableEq μ] {other : α → μ}

theorem findLast_map {g : α → α} {xs : List α} (hg : ∀ x ∈ xs, other (g x) = other x) (m : μ) :
    findLast other m (xs.map g) = (findLast other m xs).map g := by
  rw [findLast, findLast, ← List.map_reverse, List.find?_map]
  refine congrArg (Option.map g) (List.find?_congr fun x hx => ?_)
  rw [Function.comp, hg x (List.mem_reverse.mp hx)]

/-- A new item is the last of its kind. -/
theorem findLast_upsertBy_new {item : α} {xs : List α} (h : key item ∉ xs.map key) (m : μ) :
    findLast other m (upsertBy key item xs) =
      if other item = m then some item else findLast other m xs := by
  rw [upsertBy, if_neg h, findLast_append, findLast_singleton]
  by_cases hm : other item = m
  · rw [if_pos hm, if_pos hm]; rfl
  · rw [if_neg hm, if_neg hm]; rfl

/-- An item that is replaced by one of its kind keeps its place. -/
theorem findLast_upsertBy_replaced {item old : α} {xs : List α} (hxs : (xs.map key).Nodup)
    (hold : old ∈ xs) (hkey : key old = key item) (hother : other old = other item) (m : μ) :
    findLast other m (upsertBy key item xs) =
      (findLast other m xs).map fun x => if key x = key item then item else x := by
  rw [upsertBy, if_pos (List.mem_map.mpr ⟨old, hold, hkey⟩)]
  refine findLast_map (fun x hx => ?_) m
  split
  · rename_i hx'
    rw [List.inj_on_of_nodup_map hxs hx hold (hx'.trans hkey.symm), hother]
  · rfl

end SecondKey

/-! ### Dictionaries built from keyed lists -/

/-- The dictionary of `xs` by key: a later member replaces an earlier one in place. -/
def dictBy (key : α → κ) (xs : List α) : Dict κ α := xs.foldl (fun d x => Dict.set d (key x) x) []

theorem lookup_foldl_set_map {β : Type*} (value : α → β) (xs : List α) (d : Dict κ β) (k : κ) :
    (xs.foldl (fun d x => Dict.set d (key x) (value x)) d).lookup k =
      ((findLast key k xs).map value).or (d.lookup k) := by
  induction xs generalizing d with
  | nil => rfl
  | cons x xs ih =>
    rw [List.foldl_cons, ih, lookup_set, ← List.singleton_append, findLast_append,
      findLast_singleton, Option.map_or, Option.or_assoc]
    by_cases hk : k = key x
    · rw [if_pos hk, if_pos hk.symm]; rfl
    · rw [if_neg hk, if_neg (fun h => hk h.symm)]; rfl

theorem lookup_foldl_set (xs : List α) (d : Dict κ α) (k : κ) :
    (xs.foldl (fun d x => Dict.set d (key x) x) d).lookup k =
      (findLast key k xs).or (d.lookup k) := by
  have hmap : (xs.foldl (fun d x => Dict.set d (key x) (id x)) d).lookup k =
      ((findLast key k xs).map id).or (d.lookup k) := lookup_foldl_set_map id xs d k
  rwa [Option.map_id] at hmap

/-- **Looking up a key finds the last member with it.** -/
theorem lookup_dictBy (xs : List α) (k : κ) : (dictBy key xs).lookup k = findLast key k xs := by
  rw [dictBy, lookup_foldl_set, List.lookup_nil, Option.or_none]

theorem nodup_keys_foldl_set (xs : List α) {d : Dict κ α} (h : (d.map Prod.fst).Nodup) :
    ((xs.foldl (fun d x => Dict.set d (key x) x) d).map Prod.fst).Nodup := by
  induction xs generalizing d with
  | nil => exact h
  | cons x xs ih => exact ih (by rw [keys_set]; exact nodup_addNew h _)

/-- Every value of the dictionary is the one found under its own key. -/
theorem findLast_of_mem_dictBy {xs : List α} {e : κ × α} (h : e ∈ dictBy key xs) :
    e.1 = key e.2 ∧ findLast key (key e.2) xs = some e.2 := by
  rcases mem_foldl_set h with hd | ⟨x, _, hx⟩
  · exact absurd hd List.not_mem_nil
  · have hk : e.1 = key e.2 := by rw [hx]
    refine ⟨hk, ?_⟩
    rw [← hk, ← lookup_dictBy]
    have hd : (([] : Dict κ α).map Prod.fst).Nodup := List.nodup_nil
    exact lookup_of_mem (nodup_keys_foldl_set xs hd) h

/-- The values of the dictionary are the last members, in the order in which the keys came up. -/
theorem values_dictBy (xs : List α) : (dictBy key xs).map Prod.snd =
    (appendNew [] (xs.map key)).filterMap fun k => findLast key k xs := by
  have hkeys : (dictBy key xs).map Prod.fst = appendNew [] (xs.map key) := by
    have hfold : ∀ d : Dict κ α, (xs.foldl (fun d x => Dict.set d (key x) x) d).map Prod.fst =
        appendNew (d.map Prod.fst) (xs.map key) := by
      induction xs with
      | nil => exact fun d => rfl
      | cons x xs ih =>
        intro d
        rw [List.foldl_cons, ih, keys_set, List.map_cons, appendNew_cons]
    exact hfold []
  rw [← hkeys, List.filterMap_map, ← List.filterMap_eq_map]
  refine List.filterMap_congr fun e he => ?_
  obtain ⟨hkey, hlast⟩ := findLast_of_mem_dictBy he
  rw [Function.comp, Function.comp, hkey, hlast]

theorem mem_values_dictBy {xs : List α} {x : α} :
    x ∈ (dictBy key xs).map Prod.snd ↔ findLast key (key x) xs = some x := by
  constructor
  · intro h
    obtain ⟨e, he, rfl⟩ := List.mem_map.mp h
    exact (findLast_of_mem_dictBy he).2
  · intro h
    rw [values_dictBy, List.mem_filterMap]
    exact ⟨key x, mem_appendNew.mpr (Or.inr (List.mem_map_of_mem (findLast_mem h).1)), h⟩

/-- Where a key tells the members apart, each of them is a value. -/
theorem mem_values_dictBy_of_inj {xs : List α}
    (hinj : ∀ x ∈ xs, ∀ y ∈ xs, key x = key y → x = y) {x : α} :
    x ∈ (dictBy key xs).map Prod.snd ↔ x ∈ xs := by
  rw [mem_values_dictBy]
  refine ⟨fun h => (findLast_mem h).1, fun hx => ?_⟩
  obtain ⟨y, hy⟩ := findLast_isSome_of_mem key hx
  obtain ⟨hmem, hkey⟩ := findLast_mem hy
  rw [hy, hinj y hmem x hx hkey]

theorem nodup_values_dictBy (xs : List α) : (((dictBy key xs).map Prod.snd).map key).Nodup := by
  have hkeys : ((dictBy key xs).map Prod.snd).map key = (dictBy key xs).map Prod.fst := by
    rw [List.map_map]
    exact List.map_congr_left fun e he => ((findLast_of_mem_dictBy he).1).symm
  rw [hkeys]
  have hnil : (([] : Dict κ α).map Prod.fst).Nodup := List.nodup_nil
  exact nodup_keys_foldl_set xs hnil

/-- **Writing an item into the list writes it into the values.** -/
theorem values_dictBy_upsertBy (item : α) (xs : List α) :
    (dictBy key (upsertBy key item xs)).map Prod.snd =
      upsertBy key item ((dictBy key xs).map Prod.snd) := by
  have hread : ∀ k, findLast key k (upsertBy key item xs) =
      if k = key item then some item else findLast key k xs := by
    intro k
    by_cases hk : k = key item
    · rw [if_pos hk, hk, findLast_upsertBy_self]
    · rw [if_neg hk, findLast_upsertBy_ne item xs hk]
  have hkeys : ∀ k ∈ appendNew [] (xs.map key), ∃ x, findLast key k xs = some x ∧ key x = k := by
    intro k hk
    obtain ⟨x, hx, rfl⟩ := List.mem_map.mp ((mem_appendNew.mp hk).resolve_left List.not_mem_nil)
    obtain ⟨y, hy⟩ := findLast_isSome_of_mem key hx
    exact ⟨y, hy, (findLast_mem hy).2⟩
  have hmap : ((dictBy key xs).map Prod.snd).map key = appendNew [] (xs.map key) := by
    rw [values_dictBy, List.map_filterMap]
    refine (List.filterMap_congr fun k hk => ?_).trans List.filterMap_some
    obtain ⟨x, hx, hkx⟩ := hkeys k hk
    rw [hx, Option.map_some, hkx]
  rw [values_dictBy, map_key_upsertBy, appendNew_addNew,
    List.filterMap_congr fun k _ => hread k, addNew, upsertBy, hmap]
  by_cases hmem : key item ∈ appendNew [] (xs.map key)
  · rw [if_pos hmem, if_pos hmem, values_dictBy, List.map_filterMap]
    refine List.filterMap_congr fun k hk => ?_
    obtain ⟨x, hx, hkx⟩ := hkeys k hk
    rw [hx, Option.map_some, hkx]
    split
    · rfl
    · rfl
  · rw [if_neg hmem, if_neg hmem, List.filterMap_append, values_dictBy]
    refine congrArg₂ (· ++ ·) (List.filterMap_congr fun k hk => ?_) ?_
    · rw [if_neg fun heq : k = key item => hmem (heq ▸ hk)]
    · rw [List.filterMap_cons, if_pos rfl, List.filterMap_nil]

end Upsert

end Collections
