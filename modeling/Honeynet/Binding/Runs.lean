import Honeynet.Binding.Service

/-!
# Runs of binding operations

Binding operations run alone, one after the other.  An operation that raises writes nothing.

* `Request`, `runRequests`: an operation with what it takes from its surroundings, and a run.
* `Written`: what an operation comes to.
* `getByAttacker_upsert_new`, `getByAttacker_upsert_stored`: which binding of an attacker is its
  current one after a write.
* `current_step`: until its attacker resolves again, the current binding stays the current one.
* `current_of_resolve`: what a resolve returns is its attacker's current binding afterwards.
-/

namespace Honeynet.Binding

open Collections

/-! ### Operations one after the other -/

/-- A binding operation, and what it takes from its surroundings. -/
structure Request where
  call : Call
  op : BindingOp

namespace Request

def run (request : Request) (records : List BindingRecord) :
    Except PyError (BindingRecord × List BindingRecord) :=
  request.op.call request.call records

def Returns (request : Request) (records : List BindingRecord) (w : BindingRecord) : Prop :=
  ∃ records', request.run records = .ok (w, records')

/-- The records an operation leaves behind. -/
def after (records : List BindingRecord) (request : Request) : List BindingRecord :=
  match request.run records with
  | .ok (_, records') => records'
  | .error _ => records

/-- The id an operation may draw is not in use. -/
def Fresh (records : List BindingRecord) (request : Request) : Prop :=
  request.call.uuid ∉ records.map BindingRecord.bindingId

end Request

def runRequests (records : List BindingRecord) (requests : List Request) : List BindingRecord :=
  requests.foldl Request.after records

/-- Every id that is drawn along the run is fresh. -/
def FreshRun : List BindingRecord → List Request → Prop
  | _, [] => True
  | records, request :: requests =>
    request.Fresh records ∧ FreshRun (request.after records) requests

instance (records : List BindingRecord) (request : Request) :
    Decidable (request.Fresh records) :=
  inferInstanceAs (Decidable (request.call.uuid ∉ records.map BindingRecord.bindingId))

instance decidableFreshRun : (records : List BindingRecord) → (requests : List Request) →
    Decidable (FreshRun records requests)
  | _, [] => isTrue trivial
  | records, request :: requests =>
    have := decidableFreshRun (request.after records) requests
    inferInstanceAs (Decidable (request.Fresh records ∧ _))

theorem runRequests_append (records : List BindingRecord) (xs ys : List Request) :
    runRequests records (xs ++ ys) = runRequests (runRequests records xs) ys := List.foldl_append

theorem freshRun_append {records : List BindingRecord} {xs ys : List Request} :
    FreshRun records (xs ++ ys) ↔ FreshRun records xs ∧ FreshRun (runRequests records xs) ys := by
  induction xs generalizing records with
  | nil => exact (iff_of_eq (true_and _)).symm
  | cons x xs ih => rw [List.cons_append, FreshRun, FreshRun, ih, and_assoc]; rfl

/-- **What every operation of a run keeps, the run keeps.** -/
theorem invariant_of_run {I : List BindingRecord → Prop} {requests : List Request}
    {records : List BindingRecord} (hfresh : FreshRun records requests)
    (hstep : ∀ before request after, requests = before ++ request :: after →
      request.Fresh (runRequests records before) → I (runRequests records before) →
      I (request.after (runRequests records before)))
    (h : I records) : I (runRequests records requests) := by
  induction requests generalizing records with
  | nil => exact h
  | cons request requests ih =>
    have hfirst := hstep [] request requests rfl hfresh.1 h
    refine ih hfresh.2 (fun before request' after heq => ?_) hfirst
    exact hstep (request :: before) request' after (by rw [heq]; rfl)

/-! ### What an operation comes to -/

section Written

variable {records : List BindingRecord} {request : Request}

/-- **An operation raises, writes a fresh record, or updates the one it read.** -/
inductive Written (records : List BindingRecord) (request : Request) : List BindingRecord → Prop
  | raised {e : PyError} : request.run records = .error e → Written records request records
  | allocated {attackerKey : String} : request.op = .resolve attackerKey →
      request.run records = .ok (freshRecord request.call attackerKey,
        upsert (freshRecord request.call attackerKey) records) →
      Written records request (upsert (freshRecord request.call attackerKey) records)
  | updated {r : BindingRecord} {status : BindingStatus} : request.op.read records = some r →
      request.run records = .ok (request.op.updated request.call status r,
        upsert (request.op.updated request.call status r) records) →
      Written records request (upsert (request.op.updated request.call status r) records)

theorem run_of_write {w : BindingRecord}
    (h : request.op.write request.call (request.op.read records) = .ok w) :
    request.run records = .ok (w, upsert w records) := by
  rw [Request.run, BindingOp.call, h]; rfl

theorem after_of_write {w : BindingRecord}
    (h : request.op.write request.call (request.op.read records) = .ok w) :
    request.after records = upsert w records := by
  rw [Request.after, run_of_write h]

theorem written_after (records : List BindingRecord) (request : Request) :
    Written records request (request.after records) := by
  cases hwrite : request.op.write request.call (request.op.read records) with
  | error e =>
    have hrun : request.run records = .error e := by rw [Request.run, BindingOp.call, hwrite]; rfl
    rw [Request.after, hrun]
    exact .raised hrun
  | ok w =>
    have hrun := run_of_write hwrite
    rw [Request.after, hrun]
    rcases BindingOp.write_eq hwrite with ⟨attackerKey, hop, rfl⟩ | ⟨r, status, hread, rfl⟩
    · exact .allocated hop hrun
    · exact .updated hread hrun

end Written

/-! ### Which binding is current -/

section Current

variable {records : List BindingRecord} {attackerKey : String}

theorem getByAttacker_eq (records : List BindingRecord) (attackerKey : String) :
    getByAttacker records attackerKey = findLast BindingRecord.attackerKey attackerKey
      ((recordsByBinding records).map Prod.snd) := lookup_dictBy _ _

/-- A binding with a new id is its attacker's current one. -/
theorem getByAttacker_upsert_new {w : BindingRecord}
    (h : w.bindingId ∉ records.map BindingRecord.bindingId) (attackerKey : String) :
    getByAttacker (upsert w records) attackerKey =
      if w.attackerKey = attackerKey then some w else getByAttacker records attackerKey := by
  rw [getByAttacker_eq, getByAttacker_eq, recordsByBinding, upsert, values_dictBy_upsertBy]
  refine findLast_upsertBy_new (fun hmem => h ?_) attackerKey
  obtain ⟨r, hr, hid⟩ := List.mem_map.mp hmem
  exact hid ▸ List.mem_map_of_mem (findLast_mem (mem_values_dictBy.mp hr)).1

/-- A binding that is written again stays where it is. -/
theorem getByAttacker_upsert_stored {w r : BindingRecord}
    (hr : getByBinding records w.bindingId = some r) (hkey : r.attackerKey = w.attackerKey)
    (attackerKey : String) :
    getByAttacker (upsert w records) attackerKey = (getByAttacker records attackerKey).map
      fun x => if x.bindingId = w.bindingId then w else x := by
  have hid := bindingId_of_getByBinding hr
  rw [getByBinding_eq, ← hid] at hr
  rw [getByAttacker_eq, getByAttacker_eq, recordsByBinding, upsert, values_dictBy_upsertBy]
  exact findLast_upsertBy_replaced (nodup_values_dictBy records) (mem_values_dictBy.mpr hr) hid hkey
    attackerKey

/-- Each id stands for one binding. -/
theorem current_unique {x y : BindingRecord} (hx : getByAttacker records attackerKey = some x)
    (hy : getByBinding records y.bindingId = some y) (hid : x.bindingId = y.bindingId) : x = y := by
  have hstored := (getByBinding_of_getByAttacker hx).2
  rw [hid, hy] at hstored
  exact (Option.some.inj hstored).symm

theorem mem_ids_of_current {x : BindingRecord} (h : getByAttacker records attackerKey = some x) :
    x.bindingId ∈ records.map BindingRecord.bindingId :=
  mem_ids_of_get (getByBinding_of_getByAttacker h).2

/-- A fresh binding is the current one of the attacker it is for. -/
theorem current_allocated {request : Request} (hfresh : request.Fresh records)
    (other attackerKey : String) :
    getByAttacker (upsert (freshRecord request.call other) records) attackerKey =
      if other = attackerKey then some (freshRecord request.call other)
      else getByAttacker records attackerKey :=
  getByAttacker_upsert_new (w := freshRecord request.call other) hfresh attackerKey

/-- What an update makes of the current binding of an attacker. -/
theorem current_updated {request : Request} {r : BindingRecord} {status : BindingStatus}
    (hread : request.op.read records = some r) (attackerKey : String) :
    getByAttacker (upsert (request.op.updated request.call status r) records) attackerKey =
      (getByAttacker records attackerKey).map fun x =>
        if x.bindingId = r.bindingId then request.op.updated request.call status r else x :=
  getByAttacker_upsert_stored (w := request.op.updated request.call status r)
    (BindingOp.read_spec hread).1 rfl attackerKey

/-- **The current binding changes in place until its attacker resolves again.** -/
theorem current_written {request : Request} {records' : List BindingRecord}
    (h : Written records request records') (hfresh : request.Fresh records)
    (hnext : request.op ≠ .resolve attackerKey) {x : BindingRecord}
    (hx : getByAttacker records attackerKey = some x) :
    getByAttacker records' attackerKey = some x ∨
      ∃ status, request.op.read records = some x ∧
        getByAttacker records' attackerKey =
          some (request.op.updated request.call status x) := by
  cases h with
  | raised => exact Or.inl hx
  | @allocated other hop hrun =>
    have hother : other ≠ attackerKey := fun heq => hnext (heq ▸ hop)
    rw [current_allocated hfresh, if_neg hother]
    exact Or.inl hx
  | @updated r status hread hrun =>
    rw [current_updated hread, hx, Option.map_some]
    by_cases hid : x.bindingId = r.bindingId
    · obtain rfl := current_unique hx (BindingOp.read_spec hread).1 hid
      rw [if_pos rfl]
      exact Or.inr ⟨status, hread, rfl⟩
    · rw [if_neg hid]
      exact Or.inl rfl

/-- **Until its attacker resolves again, the current binding stays the current one.** -/
theorem current_step {request : Request} (hfresh : request.Fresh records)
    (hnext : request.op ≠ .resolve attackerKey) {bindingId : String}
    (h : ∃ x, getByAttacker records attackerKey = some x ∧ x.bindingId = bindingId) :
    ∃ x, getByAttacker (request.after records) attackerKey = some x ∧ x.bindingId = bindingId := by
  obtain ⟨x, hx, hid⟩ := h
  rcases current_written (written_after _ _) hfresh hnext hx with hsame | ⟨status, _, hupdated⟩
  · exact ⟨x, hsame, hid⟩
  · exact ⟨_, hupdated, hid⟩

theorem current_run {requests : List Request} {bindingId : String}
    (hfresh : FreshRun records requests) (hnext : ∀ request ∈ requests,
      request.op ≠ .resolve attackerKey)
    (h : ∃ x, getByAttacker records attackerKey = some x ∧ x.bindingId = bindingId) :
    ∃ x, getByAttacker (runRequests records requests) attackerKey = some x ∧
      x.bindingId = bindingId :=
  invariant_of_run (I := fun s => ∃ x, getByAttacker s attackerKey = some x ∧
      x.bindingId = bindingId) hfresh
    (fun before request after heq hf => current_step hf (hnext request (by simp [heq]))) h

/-- **What a resolve returns is its attacker's current binding afterwards.** -/
theorem current_of_resolve {request : Request} (hfresh : request.Fresh records)
    (hop : request.op = .resolve attackerKey) {w : BindingRecord}
    (h : request.Returns records w) :
    getByAttacker (request.after records) attackerKey = some w := by
  obtain ⟨records', hrun⟩ := h
  have hafter : request.after records = records' := by rw [Request.after, hrun]
  have hwritten := written_after records request
  rw [hafter] at hwritten ⊢
  cases hwritten with
  | raised herror => exact absurd (hrun.symm.trans herror) (by simp)
  | @allocated other hother hwrite =>
    obtain ⟨rfl, -⟩ := Prod.mk.inj (Except.ok.inj (hrun.symm.trans hwrite))
    have hkey : other = attackerKey := by simpa [hop] using hother.symm
    rw [current_allocated hfresh, if_pos hkey, hkey]
  | @updated r status hread hwrite =>
    obtain ⟨rfl, -⟩ := Prod.mk.inj (Except.ok.inj (hrun.symm.trans hwrite))
    have hx : getByAttacker records attackerKey = some r := by rw [hop] at hread; exact hread
    rw [current_updated hread, hx, Option.map_some, if_pos rfl]

end Current

end Honeynet.Binding
