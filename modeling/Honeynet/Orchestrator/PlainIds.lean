import Honeynet.Orchestrator.Exposure

/-!
# Ids without blanks

An unlock reads the assets it starts back from its own route updates.  Ids without blanks are read
back as they are.

* `newAssetId_exposes`, `newAssetId_routes`: the two kinds of update.
* `readableFrom_of_plain`: actions on such ids are readable, whatever state they meet.
-/

namespace Honeynet.Orchestrator

open Collections Binding Text

/-- An id in which the words of a route update end. -/
def PlainId (id : String) : Prop := ' ' ∉ id.toList

/-- A binding id that is not taken for a word of an update either. -/
structure PlainBindingId (id : String) : Prop where
  plain : PlainId id
  not_marker : id ≠ "exposes"

section Words

variable {word rest : List Char}

/-- A separator that starts with a blank is not in a word. -/
theorem afterLast_word {sep t : List Char} (h : ' ' ∉ word) :
    afterLast (' ' :: sep) (word ++ t) = afterLast (' ' :: sep) t := by
  induction word with
  | nil => rfl
  | cons c word ih =>
    rw [List.mem_cons, not_or] at h
    have hnot : (' ' :: sep).isPrefixOf (c :: (word ++ t)) = false := by
      rw [List.isPrefixOf_cons_cons, beq_false_of_ne h.1, Bool.false_and]
    rw [List.cons_append, afterLast_cons, ih h.2, hnot]
    cases afterLast (' ' :: sep) t <;> rfl

/-- The last word is no separator. -/
theorem afterLast_last {sep : List Char} (h : ' ' ∉ word) (hblank : ' ' ∈ sep) :
    afterLast (' ' :: sep) (' ' :: word) = none := by
  have hnone : afterLast (' ' :: sep) word = none := by
    rw [← List.append_nil word, afterLast_word h]
    rfl
  have hnot : (' ' :: sep).isPrefixOf (' ' :: word) = false := by
    rw [Bool.eq_false_iff]
    intro hprefix
    have hsub := (List.isPrefixOf_iff_prefix.mp hprefix)
    rw [List.cons_prefix_cons] at hsub
    exact h (hsub.2.subset hblank)
  rw [afterLast_cons, hnone, hnot]
  rfl

end Words

theorem toList_exposesUpdate (bindingId assetId : String) :
    (exposesUpdate bindingId assetId).toList = "binding".toList ++ ' ' :: (bindingId.toList ++
      ' ' :: ("exposes".toList ++ ' ' :: assetId.toList)) := by
  simp [exposesUpdate]

theorem toList_routesUpdate (bindingId assetId : String) :
    (routesUpdate bindingId assetId).toList = "binding".toList ++ ' ' :: (bindingId.toList ++
      ' ' :: ("routes".toList ++ ' ' :: assetId.toList)) := by
  simp [routesUpdate]

section Ids

variable {bindingId assetId : String}

/-- The asset behind the marker that stands right before it. -/
theorem afterLast_marked {marker word : List Char} (hmarker : ' ' ∉ marker) (hword : ' ' ∉ word) :
    afterLast (' ' :: (marker ++ [' '])) (' ' :: (marker ++ ' ' :: word)) = some word := by
  have hblank : ' ' ∈ marker ++ [' '] := by simp
  have hlast := afterLast_last hword hblank
  have hprefix : (' ' :: (marker ++ [' '])).isPrefixOf (' ' :: (marker ++ ' ' :: word)) := by
    rw [List.isPrefixOf_iff_prefix]
    exact ⟨word, by simp⟩
  rw [afterLast_cons, afterLast_word hmarker, hlast, if_pos hprefix, Option.none_or]
  simp

/-- Another word than the marker stands there. -/
theorem afterLast_other {marker other word : List Char} (hmarker : ' ' ∉ marker)
    (hother : ' ' ∉ other) (hne : marker ≠ other) :
    afterLast (' ' :: (marker ++ [' '])) (' ' :: (other ++ ' ' :: word)) =
      afterLast (' ' :: (marker ++ [' '])) (' ' :: word) := by
  have hnot : (' ' :: (marker ++ [' '])).isPrefixOf (' ' :: (other ++ ' ' :: word)) = false := by
    rw [Bool.eq_false_iff]
    intro hprefix
    obtain ⟨t, ht⟩ := List.isPrefixOf_iff_prefix.mp hprefix
    rw [List.cons_append, List.cons.injEq, List.append_assoc, List.singleton_append] at ht
    have hword := congrArg (List.takeWhile (· != ' ')) ht.2
    have htake : ∀ w u : List Char, ' ' ∉ w → (w ++ ' ' :: u).takeWhile (· != ' ') = w := by
      intro w u hw
      have hne : ∀ c ∈ w, (c != ' ') = true := fun c hc =>
        bne_iff_ne.mpr fun heq => hw (heq ▸ hc)
      rw [List.takeWhile_append_of_pos hne]
      simp
    rw [htake _ _ hmarker, htake _ _ hother] at hword
    exact hne hword
  rw [afterLast_cons, hnot, afterLast_word hother]
  cases afterLast (' ' :: (marker ++ [' '])) (' ' :: word) <;> rfl

/-- A binding id before the rest of an update is passed over. -/
theorem afterLast_bound {sep rest word : List Char} (hplain : PlainId bindingId)
    (hrest : afterLast (' ' :: sep) rest = some word) :
    afterLast (' ' :: sep) ("binding".toList ++ ' ' :: (bindingId.toList ++ rest)) =
      some word := by
  rw [afterLast_word (by decide), afterLast_cons, afterLast_word hplain, hrest]
  rfl

theorem exposes_marker : " exposes ".toList = ' ' :: ("exposes".toList ++ [' ']) := by decide

theorem routes_marker : " routes ".toList = ' ' :: ("routes".toList ++ [' ']) := by decide

/-- **An exposed asset is read back.** -/
theorem newAssetId_exposes (hbinding : PlainId bindingId) (hasset : PlainId assetId) :
    newAssetId (exposesUpdate bindingId assetId) = some assetId := by
  have hmarker : ' ' ∉ "exposes".toList := by decide
  have hmarked := afterLast_marked hmarker hasset
  have hread : afterLast " exposes ".toList (exposesUpdate bindingId assetId).toList =
      some assetId.toList := by
    rw [toList_exposesUpdate, exposes_marker]
    exact afterLast_bound hbinding hmarked
  rw [newAssetId, hread, Option.some_or, Option.map_some, String.ofList_toList]

/-- **An asset that is routed again is read back.** -/
theorem newAssetId_routes (hbinding : PlainBindingId bindingId) (hasset : PlainId assetId) :
    newAssetId (routesUpdate bindingId assetId) = some assetId := by
  have hroutes : ' ' ∉ "routes".toList := by decide
  have hmarked := afterLast_marked hroutes hasset
  have hread : afterLast " routes ".toList (routesUpdate bindingId assetId).toList =
      some assetId.toList := by
    rw [toList_routesUpdate, routes_marker]
    exact afterLast_bound hbinding.plain hmarked
  have hmarker : "exposes".toList ≠ bindingId.toList := fun heq =>
    hbinding.not_marker (String.toList_injective heq.symm)
  have hnone : afterLast " exposes ".toList (routesUpdate bindingId assetId).toList = none := by
    rw [toList_routesUpdate, exposes_marker, afterLast_word (by decide),
      afterLast_other (by decide) hbinding.plain hmarker,
      afterLast_other (by decide) (by decide) (by decide)]
    exact afterLast_last hasset (by simp)
  rw [newAssetId, hnone, hread, Option.none_or, Option.map_some, String.ofList_toList]

/-- **Actions on plain ids are readable**, whatever state they meet. -/
theorem readableFrom_of_plain {host : Host} (hbinding : PlainBindingId bindingId)
    {actions : List ControllerAction} (hactions : ∀ assetId ∈ actions.filterMap requested,
      PlainId assetId) (w : World) (binding : BindingRecord) :
    ReadableFrom host bindingId w binding actions := by
  induction actions generalizing w binding with
  | nil => trivial
  | cons action actions ih =>
    refine ⟨?_, fun first t _ => ih (fun assetId hmem => hactions assetId ?_) t first.binding⟩
    · intro assetId hasset named hnamed
      have hplain : PlainId assetId :=
        hactions assetId (List.mem_filterMap.mpr ⟨action, List.mem_cons_self, hasset⟩)
      refine Or.inl ?_
      obtain ⟨update, hupdate, hread⟩ := List.mem_filterMap.mp hnamed
      rcases List.mem_append.mp hupdate with hupdate | hupdate
      · obtain ⟨id, hid, rfl⟩ := List.mem_map.mp hupdate
        obtain ⟨hcurrent, hprevious⟩ := List.mem_filter.mp hid
        -- what is open now and was not before is the requested asset
        obtain rfl : id = assetId := by
          rcases mem_appendNew.mp hcurrent with hold | hnew
          · exact absurd hold (by simpa using hprevious)
          · exact List.mem_singleton.mp hnew
        rw [newAssetId_exposes hbinding.plain hplain] at hread
        exact Option.some.inj hread ▸ hcurrent
      · obtain ⟨id, hid, rfl⟩ := List.mem_map.mp hupdate
        obtain ⟨hmem, hboth⟩ := List.mem_filter.mp hid
        obtain rfl := List.mem_singleton.mp hmem
        rw [newAssetId_routes hbinding hplain] at hread
        exact Option.some.inj hread ▸ (of_decide_eq_true hboth).2
    · rw [List.filterMap_cons]
      cases requested action with
      | none => exact hmem
      | some id => exact List.mem_cons_of_mem id hmem

end Ids

end Honeynet.Orchestrator
