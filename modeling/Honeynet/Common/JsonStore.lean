import Honeynet.Common.Value
import Honeynet.Lib.Effect
import Honeynet.Lib.Keyed
import Mathlib.Data.List.Sort

/-!
# Documents in files

Every service keeps its state in JSON documents.  A document is read, changed and written as a
whole under a lock, so a body that raises leaves the file as it was.

* `Value.tokens`: what `==` compares of two JSON values.
* `update`, `withLockedPayload`: a body run on the document of a file.
* `upsertListItem`, `replaceListItems`: items written into a list of the document by their keys.
* `update_raised`, `withLockedPayload_raised`: a body that raises leaves the file unchanged.
* `Call.laws`: what one call does to the list it names and to the rest of the document.
* `runCalls_laws`: what any sequence of calls does.
-/

namespace Honeynet

open Collections

/-! ### Equality of JSON values -/

/-- A piece of a JSON text without its layout; all numbers are alike. -/
inductive Token
  | null
  | number (x : Rat)
  | text (s : String)
  | entry (key : String)
  | bracket
  | brace
  | close
  deriving DecidableEq

-- Entries of an object are compared whatever their order.
mutual

/-- The pieces of a value: `a == b` if they are the same. -/
def Value.tokens : Value → List Token
  | .none => [.null]
  | .bool b => [.number (if b then 1 else 0)]
  | .int n => [.number n]
  | .float x => [.number x]
  | .str s => [.text s]
  | .list xs => .bracket :: (listTokens xs ++ [.close])
  | .dict d => .brace :: (((entryTokens d).insertionSort fun a b => a.1 ≤ b.1).flatMap
      (fun e => .entry e.1 :: e.2) ++ [.close])

def listTokens : List Value → List Token
  | [] => []
  | x :: xs => x.tokens ++ listTokens xs

def entryTokens : List (String × Value) → List (String × List Token)
  | [] => []
  | e :: d => (e.1, e.2.tokens) :: entryTokens d

end

/-- Lists and objects cannot be members of a set. -/
def Value.hashable : Value → Bool
  | .list _ => false
  | .dict _ => false
  | _ => true

namespace JsonStore

/-! ### Files -/

/-- What a body raises: it asked something that is no object for an entry, it put something
unhashable into a set, or it failed in another way. -/
inductive StoreError
  | attributeError
  | typeError
  | other (message : String)
  deriving DecidableEq

/-- A file store: the document of a missing file, and the exception with which writing a document
to the temporary file fails, if it does. -/
structure JsonFileStore where
  defaultData : Value
  dump : Value → Option StoreError

/-- The document in the file, if there is a file. -/
abbrev File := Option Value

section Store

variable (store : JsonFileStore)

def readUnlocked (file : File) : Value := file.getD store.defaultData

/-- The temporary file takes the place of the file once it is complete. -/
def writeUnlocked (data : Value) : Effect File StoreError PUnit :=
  match store.dump data with
  | some e => throw e
  | none => modify fun _ => some data

/-- One read-modify-write cycle; the mutator changes the document in place. -/
def update {α : Type} (mutator : Effect Value StoreError α) : Effect File StoreError α := do
  let file ← get
  match mutator.exec (readUnlocked store file) with
  | (.ok result, payload) => do
    writeUnlocked store payload
    return result
  | (.error e, _) => throw e

/-- `__exit__`, for the exception that ended the body. -/
def exit (raised : Option StoreError) (payload : Value) : Effect File StoreError PUnit :=
  match raised with
  | none => writeUnlocked store payload
  | some e => throw e

/-- `with self._locked_payload() as payload: body`. -/
def withLockedPayload (body : Effect Value StoreError PUnit) : Effect File StoreError PUnit := do
  let file ← get
  match body.exec (readUnlocked store file) with
  | (.ok _, payload) => exit store none payload
  | (.error e, payload) => exit store (some e) payload

end Store

/-! ### Items of a list -/

/-- `existing.get(match_key) == match_value` for an object. -/
def matchesItem (matchKey : String) (matchValue : Value) : Value → Bool
  | .dict existing => (Settings.get existing matchKey).tokens = matchValue.tokens
  | _ => false

/-- The list under a key, empty when there is none. -/
def listOf (doc : Settings) (listKey : String) : List Value := (doc.get listKey).list?.getD []

/-- The loop over the items: each match is replaced, and the item comes last if there is none. -/
def upsertItems (matchKey : String) (matchValue item : Value) (items : List Value) : List Value :=
  let output := items.map fun existing =>
    if matchesItem matchKey matchValue existing then item else existing
  if items.any (matchesItem matchKey matchValue) then output else output ++ [item]

def upsertListItem (listKey matchKey : String) (matchValue : Value) (item : Settings) :
    Effect Value StoreError PUnit := do
  match ← get with
  | .dict doc =>
    modify fun _ => .dict (Dict.set doc listKey
      (.list (upsertItems matchKey matchValue (.dict item) (listOf doc listKey))))
  | _ => throw .attributeError

/-- `_compound_key`. -/
def compoundKey (item : Settings) (fields : List String) : List Value := fields.map item.get

/-- What a set compares of a compound key; `none` for what is no object. -/
def itemKey (fields : List String) : Value → Option (List (List Token))
  | .dict item => some ((compoundKey item fields).map Value.tokens)
  | _ => none

/-- The set of the keys of new items. -/
def replacementKeys (newItems : List Settings) (fields : List String) : List (List (List Token)) :=
  (newItems.map fun item => compoundKey item fields).map (List.map Value.tokens)

/-- What is kept before the new items: no object, or an object with another key. -/
def preserved (newItems : List Settings) (fields : List String) (items : List Value) :
    List Value :=
  items.filter fun
    | .dict item =>
      (compoundKey item fields).map Value.tokens ∉ replacementKeys newItems fields
    | _ => true

/-- An object whose key no set can hold. -/
def unhashableKey (fields : List String) : Value → Bool
  | .dict item => !(compoundKey item fields).all Value.hashable
  | _ => false

def replaceListItems (listKey : String) (newItems : List Settings) (fields : List String) :
    Effect Value StoreError PUnit := do
  match ← get with
  | .dict doc =>
    if (listOf doc listKey).any (unhashableKey fields) then throw .typeError
    else
      modify fun _ => .dict (Dict.set doc listKey
        (.list (preserved newItems fields (listOf doc listKey) ++ newItems.map .dict)))
  | _ => throw .attributeError

/-! ### Calls -/

/-- A call of a store that writes items of a list. -/
inductive Call
  | upsert (listKey matchKey : String) (matchValue : Value) (item : Settings)
  | replace (listKey : String) (newItems : List Settings) (keyFields : List String)

namespace Call

def listKey : Call → String
  | upsert listKey _ _ _ => listKey
  | replace listKey _ _ => listKey

/-- The fields that make up a key. -/
def fields : Call → List String
  | upsert _ matchKey _ _ => [matchKey]
  | replace _ _ keyFields => keyFields

/-- The items written. -/
def items : Call → List Value
  | upsert _ _ _ item => [.dict item]
  | replace _ newItems _ => newItems.map .dict

/-- The set of the new keys is made before the file is locked. -/
def exec (store : JsonFileStore) : Call → Effect File StoreError PUnit
  | upsert listKey matchKey matchValue item =>
    withLockedPayload store (upsertListItem listKey matchKey matchValue item)
  | replace listKey newItems keyFields =>
    if newItems.any fun item => unhashableKey keyFields (.dict item) then throw .typeError
    else withLockedPayload store (replaceListItems listKey newItems keyFields)

/-- The item has the key it is looked up by; the new items have distinct keys. -/
def Proper : Call → Prop
  | upsert _ matchKey matchValue item => (item.get matchKey).tokens = matchValue.tokens
  | replace _ newItems keyFields =>
    (replacementKeys newItems keyFields).Nodup

end Call

/-! ### A body that raises -/

section Raised

variable {store : JsonFileStore} {file file' : File} {e : StoreError}

/-- Writing that fails leaves the file as it was. -/
theorem writeUnlocked_raised {data : Value}
    (h : (writeUnlocked store data).exec file = (.error e, file')) : file' = file := by
  unfold writeUnlocked at h
  cases hdump : store.dump data with
  | some e' =>
    rw [hdump, Effect.exec_throw, Prod.mk.injEq] at h
    exact h.2.symm
  | none =>
    rw [hdump, Effect.exec_modify, Prod.mk.injEq] at h
    exact absurd h.1 (by simp)

/-- **An update that raises** leaves the file unchanged, whatever the mutator had done to the
document. -/
theorem update_raised {α : Type} {mutator : Effect Value StoreError α}
    (h : (update store mutator).exec file = (.error e, file')) : file' = file := by
  rw [update, Effect.exec_bind, Effect.exec_get] at h
  cases hrun : mutator.exec (readUnlocked store file) with
  | mk result payload =>
    cases result with
    | error e' =>
      simp only [hrun, Effect.exec_throw, Prod.mk.injEq] at h
      exact h.2.symm
    | ok result =>
      simp only [hrun, Effect.exec_bind] at h
      cases hwrite : (writeUnlocked store payload).exec file with
      | mk written after =>
        cases written with
        | ok _ =>
          simp only [hwrite, Effect.exec_pure, Prod.mk.injEq] at h
          exact absurd h.1 (by simp)
        | error e' =>
          simp only [hwrite, Prod.mk.injEq] at h
          rw [← h.2]
          exact writeUnlocked_raised hwrite

/-- **A locked body that raises** leaves the file unchanged. -/
theorem withLockedPayload_raised {body : Effect Value StoreError PUnit}
    (h : (withLockedPayload store body).exec file = (.error e, file')) : file' = file := by
  rw [withLockedPayload, Effect.exec_bind, Effect.exec_get] at h
  cases hrun : body.exec (readUnlocked store file) with
  | mk result payload =>
    cases result with
    | error e' =>
      simp only [hrun, exit, Effect.exec_throw, Prod.mk.injEq] at h
      exact h.2.symm
    | ok _ =>
      simp only [hrun, exit] at h
      exact writeUnlocked_raised h

/-- A call that raises leaves the file unchanged. -/
theorem Call.exec_raised {call : Call} (h : (call.exec store).exec file = (.error e, file')) :
    file' = file := by
  cases call with
  | upsert listKey matchKey matchValue item => exact withLockedPayload_raised h
  | replace listKey newItems keyFields =>
    rw [Call.exec] at h
    by_cases hset : newItems.any (fun item => unhashableKey keyFields (.dict item)) = true
    · rw [if_pos hset, Effect.exec_throw, Prod.mk.injEq] at h
      exact h.2.symm
    · rw [if_neg hset] at h
      exact withLockedPayload_raised h

end Raised

/-! ### A call that returns -/

theorem upsertItems_eq {matchKey : String} {matchValue : Value} {item : Settings}
    (h : (item.get matchKey).tokens = matchValue.tokens) (items : List Value) :
    upsertItems matchKey matchValue (.dict item) items =
      upsertBy (itemKey [matchKey]) (.dict item) items := by
  have hmatch : ∀ x, matchesItem matchKey matchValue x = true ↔
      itemKey [matchKey] x = itemKey [matchKey] (.dict item) := fun x => by
    cases x with
    | dict existing =>
      simp only [matchesItem, itemKey, compoundKey, List.map_cons, List.map_nil, h,
        decide_eq_true_eq, Option.some.injEq, List.cons.injEq, and_true]
    | _ => simp [matchesItem, itemKey]
  have hany : items.any (matchesItem matchKey matchValue) = true ↔
      itemKey [matchKey] (.dict item) ∈ items.map (itemKey [matchKey]) := by
    rw [List.any_eq_true, List.mem_map]
    exact exists_congr fun x => and_congr_right fun _ => hmatch x
  rw [upsertItems, upsertBy]
  by_cases hfound : items.any (matchesItem matchKey matchValue) = true
  · rw [if_pos hfound, if_pos (hany.mp hfound)]
    refine List.map_congr_left fun x _ => ?_
    by_cases hx : matchesItem matchKey matchValue x = true
    · rw [if_pos hx, if_pos ((hmatch x).mp hx)]
    · rw [if_neg hx, if_neg fun heq => hx ((hmatch x).mpr heq)]
  · rw [if_neg hfound, if_neg fun hmem => hfound (hany.mpr hmem)]
    have hsame : ∀ x ∈ items, (if matchesItem matchKey matchValue x = true then .dict item
        else x) = x := fun x hx =>
      if_neg fun hm => hfound (List.any_eq_true.mpr ⟨x, hx, hm⟩)
    rw [List.map_congr_left hsame, List.map_id']

theorem filterMap_itemKey_dict (newItems : List Settings) (fields : List String) :
    (newItems.map Value.dict).filterMap (itemKey fields) = replacementKeys newItems fields := by
  have hkey : itemKey fields ∘ Value.dict =
      some ∘ (List.map Value.tokens ∘ fun item => compoundKey item fields) := rfl
  rw [List.filterMap_map, replacementKeys, List.map_map, hkey, List.filterMap_eq_map]

theorem preserved_append_eq (newItems : List Settings) (fields : List String)
    (items : List Value) : preserved newItems fields items ++ newItems.map .dict =
      replaceBy (itemKey fields) (newItems.map .dict) items := by
  have hkeys : (newItems.map Value.dict).map (itemKey fields) =
      (replacementKeys newItems fields).map some := by
    rw [replacementKeys, List.map_map, List.map_map, List.map_map]
    rfl
  rw [preserved, replaceBy, hkeys]
  congr 1
  refine List.filter_congr fun x _ => ?_
  cases x with
  | dict item => simp [itemKey]
  | _ => simp [itemKey]

variable {store : JsonFileStore} {file file' : File}

theorem withLockedPayload_returned {body : Effect Value StoreError PUnit} {u : PUnit}
    (h : (withLockedPayload store body).exec file = (.ok u, file')) :
    ∃ payload, body.exec (readUnlocked store file) = (.ok ⟨⟩, payload) ∧
      file' = some payload := by
  rw [withLockedPayload, Effect.exec_bind, Effect.exec_get] at h
  cases hrun : body.exec (readUnlocked store file) with
  | mk result payload =>
    cases result with
    | error e =>
      simp only [hrun, exit, Effect.exec_throw, Prod.mk.injEq] at h
      exact absurd h.1 (by simp)
    | ok _ =>
      simp only [hrun, exit, writeUnlocked] at h
      cases hdump : store.dump payload with
      | some e =>
        simp only [hdump, Effect.exec_throw, Prod.mk.injEq] at h
        exact absurd h.1 (by simp)
      | none =>
        simp only [hdump, Effect.exec_modify, Prod.mk.injEq] at h
        exact ⟨payload, rfl, h.2.symm⟩

/-- **What a call that returns has done**: the list it names is written, with its items. -/
theorem Call.exec_returned {call : Call} (hproper : call.Proper) {u : PUnit}
    (h : (call.exec store).exec file = (.ok u, file')) :
    ∃ doc ys, readUnlocked store file = .dict doc ∧
      file' = some (.dict (Dict.set doc call.listKey (.list ys))) ∧
      Written (itemKey call.fields) call.items (listOf doc call.listKey) ys := by
  cases call with
  | upsert listKey matchKey matchValue item =>
    obtain ⟨payload, hbody, hfile⟩ := withLockedPayload_returned h
    rw [upsertListItem, Effect.exec_bind, Effect.exec_get] at hbody
    cases hdoc : readUnlocked store file with
    | dict doc =>
      simp only [hdoc, Effect.exec_modify, Prod.mk.injEq, true_and] at hbody
      refine ⟨doc, _, rfl, by rw [hfile, ← hbody]; rfl, ?_⟩
      rw [upsertItems_eq hproper]
      exact written_upsertBy (by simp [itemKey]) _
    | _ => simp [hdoc] at hbody
  | replace listKey newItems keyFields =>
    rw [Call.exec] at h
    by_cases hset : newItems.any (fun item => unhashableKey keyFields (.dict item)) = true
    · rw [if_pos hset, Effect.exec_throw, Prod.mk.injEq] at h
      exact absurd h.1 (by simp)
    · rw [if_neg hset] at h
      obtain ⟨payload, hbody, hfile⟩ := withLockedPayload_returned h
      rw [replaceListItems, Effect.exec_bind, Effect.exec_get] at hbody
      cases hdoc : readUnlocked store file with
      | dict doc =>
        by_cases hold : (listOf doc listKey).any (unhashableKey keyFields) = true
        · simp [hdoc, hold] at hbody
        · simp only [hdoc, if_neg hold, Effect.exec_modify, Prod.mk.injEq, true_and] at hbody
          refine ⟨doc, _, rfl, by rw [hfile, ← hbody]; rfl, ?_⟩
          rw [preserved_append_eq]
          have hnodup : ((newItems.map Value.dict).filterMap (itemKey keyFields)).Nodup := by
            rw [filterMap_itemKey_dict]
            exact hproper
          exact written_replaceBy hnodup _
      | _ => simp [hdoc] at hbody

/-! ### Laws -/

/-- The list under a key of a document. -/
def itemsAt (listKey : String) : Value → List Value
  | .dict doc => listOf doc listKey
  | _ => []

/-- The top-level entry of a document under a key. -/
def entryAt (key : String) : Value → Option Value
  | .dict doc => List.lookup key doc
  | _ => none

theorem itemsAt_congr {listKey : String} {v w : Value} (h : entryAt listKey v = entryAt listKey w) :
    itemsAt listKey v = itemsAt listKey w := by
  have hitems : ∀ v : Value, itemsAt listKey v =
      ((entryAt listKey v).getD .none).list?.getD [] := fun v => by
    cases v <;> rfl
  rw [hitems, hitems, h]

/-- What a call does to a document: keys of the list stay distinct, items with other keys stay as
they are and in their order, and so do the other entries. -/
structure Call.Laws (call : Call) (before after : Value) : Prop where
  unique : ((itemsAt call.listKey before).filterMap (itemKey call.fields)).Nodup →
    ((itemsAt call.listKey after).filterMap (itemKey call.fields)).Nodup
  others : ∀ p : Value → Bool,
    (∀ x, p x = true → itemKey call.fields x ∉ call.items.map (itemKey call.fields)) →
    (itemsAt call.listKey after).filter p = (itemsAt call.listKey before).filter p
  entries : ∀ key ≠ call.listKey, entryAt key after = entryAt key before

theorem Call.Laws.refl (call : Call) (v : Value) : call.Laws v v where
  unique := id
  others _ _ := rfl
  entries _ _ := rfl

theorem itemsAt_set (doc : Settings) (listKey : String) (ys : List Value) :
    itemsAt listKey (.dict (Dict.set doc listKey (.list ys))) = ys := by
  rw [itemsAt, listOf, Settings.get, lookup_set_self]
  rfl

/-- **One call.** -/
theorem Call.laws {call : Call} (hproper : call.Proper) (file : File) :
    call.Laws (readUnlocked store file)
        (readUnlocked store ((call.exec store).exec file).2) ∧
      (((call.exec store).exec file).1 = .ok ⟨⟩ → ∀ x ∈ call.items,
        x ∈ itemsAt call.listKey (readUnlocked store ((call.exec store).exec file).2)) := by
  cases hrun : (call.exec store).exec file with
  | mk result after =>
    cases result with
    | error e =>
      rw [Call.exec_raised hrun]
      exact ⟨.refl call _, fun h => by simp at h⟩
    | ok u =>
      obtain ⟨doc, ys, hdoc, hfile, hwritten⟩ := Call.exec_returned hproper hrun
      have hafter : readUnlocked store after = .dict (Dict.set doc call.listKey (.list ys)) := by
        rw [hfile]
        rfl
      have hitems : itemsAt call.listKey (readUnlocked store after) = ys := by
        rw [hafter, itemsAt_set]
      have hbefore : itemsAt call.listKey (readUnlocked store file) = listOf doc call.listKey := by
        rw [hdoc]
        rfl
      refine ⟨⟨?_, ?_, ?_⟩, fun _ x hx => ?_⟩
      · rw [hitems, hbefore]
        exact hwritten.unique
      · intro p hp
        rw [hitems, hbefore]
        exact hwritten.others_of hp
      · intro key hkey
        rw [hafter, hdoc]
        exact lookup_set_ne doc hkey _
      · rw [hitems]
        exact hwritten.present x hx

/-! ### Sequences of calls -/

/-- The callers go on after a call that raised. -/
def runCalls (store : JsonFileStore) (calls : List Call) (file : File) : File :=
  calls.foldl (fun file call => ((call.exec store).exec file).2) file

theorem runCalls_append (pre post : List Call) (file : File) :
    runCalls store (pre ++ post) file = runCalls store post (runCalls store pre file) :=
  List.foldl_append

/-- A list and the fields that make up the keys of its items, as all calls of a sequence see
them. -/
def KeyedBy (calls : List Call) (listKey : String) (fields : List String) : Prop :=
  ∀ call ∈ calls, call.listKey = listKey → call.fields = fields

/-- Entries that no call names stay. -/
theorem runCalls_entries {calls : List Call} (hproper : ∀ call ∈ calls, call.Proper)
    {key : String} (hkey : ∀ call ∈ calls, key ≠ call.listKey) (file : File) :
    entryAt key (readUnlocked store (runCalls store calls file)) =
      entryAt key (readUnlocked store file) := by
  induction calls generalizing file with
  | nil => rfl
  | cons call calls ih =>
    rw [List.forall_mem_cons] at hproper hkey
    show entryAt key (readUnlocked store (runCalls store calls _)) = _
    rw [ih hproper.2 hkey.2]
    exact (Call.laws hproper.1 file).1.entries key hkey.1

/-- **Keys stay distinct** over any sequence of calls. -/
theorem runCalls_unique {calls : List Call} (hproper : ∀ call ∈ calls, call.Proper)
    {listKey : String} {fields : List String} (hkeyed : KeyedBy calls listKey fields)
    {file : File} (h : ((itemsAt listKey (readUnlocked store file)).filterMap
      (itemKey fields)).Nodup) :
    ((itemsAt listKey (readUnlocked store (runCalls store calls file))).filterMap
      (itemKey fields)).Nodup := by
  induction calls generalizing file with
  | nil => exact h
  | cons call calls ih =>
    rw [List.forall_mem_cons] at hproper
    rw [KeyedBy, List.forall_mem_cons] at hkeyed
    show ((itemsAt listKey (readUnlocked store (runCalls store calls _))).filterMap _).Nodup
    refine ih hproper.2 hkeyed.2 ?_
    have hlaws := (@Call.laws store call hproper.1 file).1
    by_cases hlist : call.listKey = listKey
    · have hunique := hlaws.unique
      rw [hlist, hkeyed.1 hlist] at hunique
      exact hunique h
    · rw [itemsAt_congr (hlaws.entries listKey fun heq => hlist heq.symm)]
      exact h

/-- **Items whose keys no call writes** stay as they are, in their order. -/
theorem runCalls_others {calls : List Call} (hproper : ∀ call ∈ calls, call.Proper)
    {listKey : String} {fields : List String} (hkeyed : KeyedBy calls listKey fields)
    {p : Value → Bool} (hp : ∀ call ∈ calls, call.listKey = listKey → ∀ x, p x = true →
      itemKey fields x ∉ call.items.map (itemKey fields)) (file : File) :
    (itemsAt listKey (readUnlocked store (runCalls store calls file))).filter p =
      (itemsAt listKey (readUnlocked store file)).filter p := by
  induction calls generalizing file with
  | nil => rfl
  | cons call calls ih =>
    rw [List.forall_mem_cons] at hproper hp
    rw [KeyedBy, List.forall_mem_cons] at hkeyed
    show (itemsAt listKey (readUnlocked store (runCalls store calls _))).filter p = _
    rw [ih hproper.2 hkeyed.2 hp.2]
    have hlaws := (@Call.laws store call hproper.1 file).1
    by_cases hlist : call.listKey = listKey
    · have hothers := hlaws.others p
      rw [hlist, hkeyed.1 hlist] at hothers
      exact hothers (hp.1 hlist)
    · rw [itemsAt_congr (hlaws.entries listKey fun heq => hlist heq.symm)]

/-- **A written item stays** until a later call writes its key. -/
theorem runCalls_present {pre post : List Call} {call : Call}
    (hproper : ∀ c ∈ pre ++ call :: post, c.Proper)
    (hkeyed : KeyedBy (pre ++ call :: post) call.listKey call.fields) {file : File}
    (hok : ((call.exec store).exec (runCalls store pre file)).1 = .ok ⟨⟩) {item : Value}
    (hitem : item ∈ call.items)
    (hlast : ∀ c ∈ post, c.listKey = call.listKey →
      itemKey call.fields item ∉ c.items.map (itemKey call.fields)) :
    item ∈ itemsAt call.listKey
      (readUnlocked store (runCalls store (pre ++ call :: post) file)) := by
  have hcall : call.Proper := hproper call (by simp)
  have hpost : ∀ c ∈ post, c.Proper := fun c hc => hproper c (by simp [hc])
  have hpresent := (@Call.laws store call hcall (runCalls store pre file)).2 hok item hitem
  have hkeyedPost : KeyedBy post call.listKey call.fields := fun c hc => hkeyed c (by simp [hc])
  have hlater : ∀ c ∈ post, c.listKey = call.listKey → ∀ x,
      decide (itemKey call.fields x = itemKey call.fields item) = true →
      itemKey call.fields x ∉ c.items.map (itemKey call.fields) := by
    intro c hc hlist x hx
    rw [of_decide_eq_true hx]
    exact hlast c hc hlist
  have hsame := @runCalls_others store post hpost call.listKey call.fields hkeyedPost _ hlater
    ((call.exec store).exec (runCalls store pre file)).2
  have hmem := List.mem_filter (p := fun x => decide (itemKey call.fields x =
    itemKey call.fields item)) |>.mpr ⟨hpresent, decide_eq_true rfl⟩
  rw [← hsame] at hmem
  rw [runCalls_append]
  exact (List.mem_filter.mp hmem).1

/-- What a sequence of calls does to a document, call by call and as a whole. -/
structure DocumentLaws (store : JsonFileStore) (calls : List Call) (file : File) : Prop where
  step : ∀ pre call post, calls = pre ++ call :: post →
    call.Laws (readUnlocked store (runCalls store pre file))
      (readUnlocked store (runCalls store (pre ++ [call]) file))
  written : ∀ pre call post, calls = pre ++ call :: post →
    ((call.exec store).exec (runCalls store pre file)).1 = .ok ⟨⟩ → ∀ item ∈ call.items,
    item ∈ itemsAt call.listKey (readUnlocked store (runCalls store (pre ++ [call]) file))
  unique : ∀ listKey fields, KeyedBy calls listKey fields →
    ((itemsAt listKey (readUnlocked store file)).filterMap (itemKey fields)).Nodup →
    ((itemsAt listKey (readUnlocked store (runCalls store calls file))).filterMap
      (itemKey fields)).Nodup
  others : ∀ listKey fields, KeyedBy calls listKey fields → ∀ p : Value → Bool,
    (∀ call ∈ calls, call.listKey = listKey → ∀ x, p x = true →
      itemKey fields x ∉ call.items.map (itemKey fields)) →
    (itemsAt listKey (readUnlocked store (runCalls store calls file))).filter p =
      (itemsAt listKey (readUnlocked store file)).filter p
  present : ∀ pre call post, calls = pre ++ call :: post →
    KeyedBy calls call.listKey call.fields →
    ((call.exec store).exec (runCalls store pre file)).1 = .ok ⟨⟩ → ∀ item ∈ call.items,
    (∀ c ∈ post, c.listKey = call.listKey →
      itemKey call.fields item ∉ c.items.map (itemKey call.fields)) →
    item ∈ itemsAt call.listKey (readUnlocked store (runCalls store calls file))
  entries : ∀ key, (∀ call ∈ calls, key ≠ call.listKey) →
    entryAt key (readUnlocked store (runCalls store calls file)) =
      entryAt key (readUnlocked store file)

/-- **The laws of a document**: of any sequence of calls on it, and of a body that raises. -/
theorem document_laws (store : JsonFileStore) (calls : List Call)
    (hproper : ∀ call ∈ calls, call.Proper) (file : File) :
    DocumentLaws store calls file ∧
      (∀ (α : Type) (mutator : Effect Value StoreError α) (e : StoreError) (file' : File),
        (update store mutator).exec file = (.error e, file') → file' = file) ∧
      ∀ (body : Effect Value StoreError PUnit) (e : StoreError) (file' : File),
        (withLockedPayload store body).exec file = (.error e, file') → file' = file := by
  have hone : ∀ pre (call : Call), runCalls store (pre ++ [call]) file =
      ((call.exec store).exec (runCalls store pre file)).2 := fun pre call => by
    rw [runCalls_append]
    rfl
  have hmem : ∀ {pre call post}, calls = pre ++ call :: post → call.Proper :=
    fun heq => hproper _ (by rw [heq]; simp)
  refine ⟨⟨?_, ?_, ?_, ?_, ?_, ?_⟩, ?_, ?_⟩
  · intro pre call post heq
    rw [hone]
    exact (Call.laws (hmem heq) _).1
  · intro pre call post heq
    rw [hone]
    exact (Call.laws (hmem heq) _).2
  · intro listKey fields hkeyed h
    exact runCalls_unique hproper hkeyed h
  · intro listKey fields hkeyed p hp
    exact runCalls_others hproper hkeyed hp file
  · intro pre call post heq hkeyed hok item hitem hlast
    subst heq
    exact runCalls_present hproper hkeyed hok hitem hlast
  · intro key hkey
    exact runCalls_entries hproper hkey file
  · intro α mutator e file' h
    exact update_raised h
  · intro body e file' h
    exact withLockedPayload_raised h

/-- A table of records and one of routes in one document, that is never too large to write. -/
def sampleStore : JsonFileStore where
  defaultData := .dict [("records", .list []), ("routes", .list [])]
  dump _ := none

/-- A record that is written, and two routes that replace what the binding had. -/
def sampleCalls : List Call :=
  [.upsert "records" "binding_id" (.str "b-1")
      [("binding_id", .str "b-1"), ("status", .str "active")],
    .replace "routes"
      [[("binding_id", .str "b-1"), ("public_port", .int 22)],
        [("binding_id", .str "b-1"), ("public_port", .int 80)]] ["binding_id", "public_port"]]

theorem document_laws_sample : DocumentLaws sampleStore sampleCalls none ∧
    (∀ (α : Type) (mutator : Effect Value StoreError α) (e : StoreError) (file' : File),
      (update sampleStore mutator).exec none = (.error e, file') → file' = none) ∧
    ∀ (body : Effect Value StoreError PUnit) (e : StoreError) (file' : File),
      (withLockedPayload sampleStore body).exec none = (.error e, file') → file' = none := by
  refine document_laws sampleStore sampleCalls ?_ none
  intro call hcall
  rcases List.mem_cons.mp hcall with rfl | hcall
  · show (Settings.get _ _).tokens = (Value.str "b-1").tokens
    rfl
  · rw [List.mem_singleton.mp hcall]
    show (replacementKeys _ _).Nodup
    decide

end JsonStore

end Honeynet
