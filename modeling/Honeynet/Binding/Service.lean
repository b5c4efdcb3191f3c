import Honeynet.Common.Value

/-!
# Bindings and their lifecycle

The store of `bindings.json` and the operations of the binding service.  Every
operation is one read of the store, one computation and one upsert of a whole
record; the three are kept apart here because the concurrent system interleaves
them.

* `getByAttacker`, `getByBinding`, `upsert`: the file-backed repository.
* `resolve`, `heartbeat`, `recycle`, `unlockAssets`, `revealConfigurations`: the
  record each operation writes, from the record it read.
* `BindingOp.read` and `BindingOp.write` put the five under one type, and
  `BindingOp.call` is the operation run alone.
* `BindingOp.write_keeps`: what a written record keeps of the one that was read.
-/

namespace Honeynet.Binding

open Collections

inductive BindingStatus
  | active
  | idle
  | recycled
  | recovered
  deriving DecidableEq, Repr

/-- Persisted binding state for one attacker. -/
structure BindingRecord where
  bindingId : String
  attackerKey : String
  backendInstanceId : String
  status : BindingStatus
  firstSeenTs : Datetime
  lastSeenTs : Datetime
  ttlExpiresAt : Datetime
  volumeRef : Option String
  unlockedAssets : List String
  revealedConfigurations : Dict String (List String)
  deriving DecidableEq, Repr

inductive RecycleMode
  | idle
  | hard
  deriving DecidableEq, Repr

/-! ### The repository -/

/-- The records by binding id; a later record of an id replaces an earlier one in place. -/
def recordsByBinding (records : List BindingRecord) : Dict String BindingRecord :=
  dictBy BindingRecord.bindingId records

/-- The records by attacker; the last binding of an attacker wins. -/
def recordsByAttacker (records : List BindingRecord) : Dict String BindingRecord :=
  dictBy BindingRecord.attackerKey ((recordsByBinding records).map Prod.snd)

def getByAttacker (records : List BindingRecord) (attackerKey : String) : Option BindingRecord :=
  (recordsByAttacker records).lookup attackerKey

def getByBinding (records : List BindingRecord) (bindingId : String) : Option BindingRecord :=
  (recordsByBinding records).lookup bindingId

/-- `upsert_list_item` on the list of records. -/
def upsert (record : BindingRecord) (records : List BindingRecord) : List BindingRecord :=
  upsertBy BindingRecord.bindingId record records

/-! ### The record each operation writes -/

/-- What an operation takes from its surroundings: the service's ttl, `utcnow()` and a
fresh `uuid4()`. -/
structure Call where
  ttl : Int
  now : Int
  uuid : String

def bindingNotFound (bindingId : String) : PyError := ⟨.bindingNotFound, bindingId⟩

/-- Reuse an unexpired binding, or allocate a fresh one. -/
def resolve (c : Call) (attackerKey : String) (existing : Option BindingRecord) :
    Except PyError BindingRecord := do
  let fresh : BindingRecord :=
    { bindingId := c.uuid
      attackerKey := attackerKey
      backendInstanceId := "ns-" ++ String.ofList (c.uuid.toList.take 8)
      status := .active
      firstSeenTs := .utc c.now
      lastSeenTs := .utc c.now
      ttlExpiresAt := (Datetime.utc c.now).add c.ttl
      volumeRef := some ("vol-" ++ String.ofList (c.uuid.toList.take 8))
      unlockedAssets := []
      revealedConfigurations := [] }
  match existing with
  | none => return fresh
  | some r =>
    if ← (Datetime.utc c.now).le r.ttlExpiresAt then
      -- recycled bindings are resumed as recovered
      return { r with
        status := if r.status = .recycled then .recovered else .active
        lastSeenTs := .utc c.now
        ttlExpiresAt := (Datetime.utc c.now).add c.ttl }
    else return fresh

def heartbeat (c : Call) (bindingId : String) (ts : Datetime) (existing : Option BindingRecord) :
    Except PyError BindingRecord :=
  match existing with
  | none => .error (bindingNotFound bindingId)
  | some r => .ok { r with status := .active, lastSeenTs := ts, ttlExpiresAt := ts.add c.ttl }

/-- A hard recycle expires the binding at once, an idle one keeps it recoverable. -/
def recycle (c : Call) (bindingId : String) (mode : RecycleMode)
    (existing : Option BindingRecord) : Except PyError BindingRecord :=
  match existing with
  | none => .error (bindingNotFound bindingId)
  | some r => .ok { r with
      status := .recycled
      lastSeenTs := .utc c.now
      ttlExpiresAt := match mode with
        | .hard => .utc c.now
        | .idle => (Datetime.utc c.now).add c.ttl }

/-- Append unlocked assets without duplicating entries. -/
def unlockAssets (c : Call) (bindingId : String) (assetIds : List String)
    (existing : Option BindingRecord) : Except PyError BindingRecord :=
  match existing with
  | none => .error (bindingNotFound bindingId)
  | some r => .ok { r with
      status := .active
      lastSeenTs := .utc c.now
      unlockedAssets := appendNew r.unlockedAssets assetIds }

/-- Append the configurations of one asset to its bucket. -/
def revealInto (revealed : Dict String (List String)) (e : String × List String) :
    Dict String (List String) :=
  Dict.set revealed e.1 (appendNew ((revealed.lookup e.1).getD []) e.2)

/-- Append configuration reveals per asset without duplicating entries. -/
def revealConfigurations (c : Call) (bindingId : String)
    (configurations : Dict String (List String)) (existing : Option BindingRecord) :
    Except PyError BindingRecord :=
  match existing with
  | none => .error (bindingNotFound bindingId)
  | some r => .ok { r with
      status := .active
      lastSeenTs := .utc c.now
      revealedConfigurations := configurations.foldl revealInto r.revealedConfigurations }

/-! ### The operations under one type -/

inductive BindingOp
  | resolve (attackerKey : String)
  | heartbeat (bindingId : String) (ts : Datetime)
  | recycle (bindingId : String) (mode : RecycleMode)
  | unlockAssets (bindingId : String) (assetIds : List String)
  | revealConfigurations (bindingId : String) (configurations : Dict String (List String))
  deriving DecidableEq, Repr

namespace BindingOp

/-- The read step. -/
def read (op : BindingOp) (records : List BindingRecord) : Option BindingRecord :=
  match op with
  | resolve attackerKey => getByAttacker records attackerKey
  | heartbeat b _ | recycle b _ | unlockAssets b _ | revealConfigurations b _ =>
    getByBinding records b

/-- The record the upsert step writes. -/
def write (c : Call) (op : BindingOp) (existing : Option BindingRecord) :
    Except PyError BindingRecord :=
  match op with
  | resolve attackerKey => Binding.resolve c attackerKey existing
  | heartbeat b ts => Binding.heartbeat c b ts existing
  | recycle b mode => Binding.recycle c b mode existing
  | unlockAssets b assetIds => Binding.unlockAssets c b assetIds existing
  | revealConfigurations b configs => Binding.revealConfigurations c b configs existing

/-- The whole operation, with nothing in between. -/
def call (c : Call) (op : BindingOp) (records : List BindingRecord) :
    Except PyError (BindingRecord × List BindingRecord) := do
  let record ← op.write c (op.read records)
  return (record, upsert record records)

/-- The binding an operation names; a resolve names an attacker instead. -/
def target : BindingOp → Option String
  | resolve _ => none
  | heartbeat b _ | recycle b _ | unlockAssets b _ | revealConfigurations b _ => some b

theorem target_unlockAssets (bindingId : String) (assetIds : List String) :
    (unlockAssets bindingId assetIds).target = some bindingId := rfl

theorem target_revealConfigurations (bindingId : String)
    (configurations : Dict String (List String)) :
    (revealConfigurations bindingId configurations).target = some bindingId := rfl

/-- The assets an operation itself unlocks. -/
def ownAssets : BindingOp → List String
  | unlockAssets _ assetIds => assetIds
  | _ => []

/-- The configurations of asset `x` an operation itself reveals. -/
def ownConfigurations (x : String) : BindingOp → List String
  | revealConfigurations _ configs => (configs.filter (fun e => e.1 = x)).flatMap Prod.snd
  | _ => []

end BindingOp

/-! ### What each operation writes, in one place -/

/-- The record of a new attacker. -/
def freshRecord (c : Call) (attackerKey : String) : BindingRecord where
  bindingId := c.uuid
  attackerKey
  backendInstanceId := "ns-" ++ String.ofList (c.uuid.toList.take 8)
  status := .active
  firstSeenTs := .utc c.now
  lastSeenTs := .utc c.now
  ttlExpiresAt := (Datetime.utc c.now).add c.ttl
  volumeRef := some ("vol-" ++ String.ofList (c.uuid.toList.take 8))
  unlockedAssets := []
  revealedConfigurations := []

namespace BindingOp

/-- When the attacker was last seen, as an operation records it. -/
def seenAt (c : Call) : BindingOp → Datetime
  | heartbeat _ ts => ts
  | _ => .utc c.now

/-- When a binding expires after an operation on it. -/
def expiry (c : Call) (r : BindingRecord) : BindingOp → Datetime
  | resolve _ => (Datetime.utc c.now).add c.ttl
  | heartbeat _ ts => ts.add c.ttl
  | recycle _ .hard => .utc c.now
  | recycle _ .idle => (Datetime.utc c.now).add c.ttl
  | unlockAssets _ _ | revealConfigurations _ _ => r.ttlExpiresAt

/-- The configurations an operation itself reveals, by asset. -/
def ownReveals : BindingOp → Dict String (List String)
  | revealConfigurations _ configs => configs
  | _ => []

/-- What an operation makes of the record it read. -/
def updated (c : Call) (op : BindingOp) (status : BindingStatus) (r : BindingRecord) :
    BindingRecord :=
  { r with
    status
    lastSeenTs := op.seenAt c
    ttlExpiresAt := op.expiry c r
    unlockedAssets := appendNew r.unlockedAssets op.ownAssets
    revealedConfigurations := op.ownReveals.foldl revealInto r.revealedConfigurations }

end BindingOp

/-! ### When a resolve reuses the binding -/

section Resolve

variable {c : Call} {attackerKey : String} {r : BindingRecord}

theorem resolve_none : resolve c attackerKey none = .ok (freshRecord c attackerKey) := rfl

theorem resolve_live (haware : r.ttlExpiresAt.aware = true) (hlive : c.now ≤ r.ttlExpiresAt.micros) :
    resolve c attackerKey (some r) = .ok ((BindingOp.resolve attackerKey).updated c
      (if r.status = .recycled then .recovered else .active) r) := by
  simp only [resolve, Datetime.utc_le_aware c.now haware, decide_eq_true hlive]
  rfl

theorem resolve_expired (haware : r.ttlExpiresAt.aware = true)
    (hexpired : r.ttlExpiresAt.micros < c.now) :
    resolve c attackerKey (some r) = .ok (freshRecord c attackerKey) := by
  simp only [resolve, Datetime.utc_le_aware c.now haware, decide_eq_false (not_le.mpr hexpired)]
  rfl

/-- A naive time cannot be compared with the clock. -/
theorem resolve_naive (hnaive : r.ttlExpiresAt.aware = false) :
    resolve c attackerKey (some r) =
      .error ⟨.typeError, "can't compare offset-naive and offset-aware datetimes"⟩ := by
  simp only [resolve, Datetime.utc_le_naive c.now hnaive]
  rfl

/-- A resolve returns where the binding it reads does not expire at a naive time. -/
theorem exists_resolve {existing : Option BindingRecord}
    (h : ∀ x, existing = some x → x.ttlExpiresAt.aware = true) :
    ∃ w, resolve c attackerKey existing = .ok w := by
  cases existing with
  | none => exact ⟨_, resolve_none⟩
  | some x =>
    by_cases hlive : c.now ≤ x.ttlExpiresAt.micros
    · exact ⟨_, resolve_live (h x rfl) hlive⟩
    · exact ⟨_, resolve_expired (h x rfl) (not_le.mp hlive)⟩

end Resolve

/-- **An operation writes a fresh record or updates the one it read.** -/
theorem BindingOp.write_eq {c : Call} {op : BindingOp} {existing : Option BindingRecord}
    {w : BindingRecord} (h : op.write c existing = .ok w) :
    (∃ attackerKey, op = .resolve attackerKey ∧ w = freshRecord c attackerKey) ∨
      ∃ r status, existing = some r ∧ w = op.updated c status r := by
  cases op with
  | resolve a =>
    cases existing with
    | none => exact Or.inl ⟨a, rfl, (Except.ok.inj h).symm⟩
    | some r =>
      rw [write] at h
      cases haware : r.ttlExpiresAt.aware with
      | false => exact absurd (h.symm.trans (resolve_naive haware)) (by simp)
      | true =>
        by_cases hlive : c.now ≤ r.ttlExpiresAt.micros
        · rw [resolve_live haware hlive] at h
          exact Or.inr ⟨r, _, rfl, (Except.ok.inj h).symm⟩
        · rw [resolve_expired haware (not_le.mp hlive)] at h
          exact Or.inl ⟨a, rfl, (Except.ok.inj h).symm⟩
  | heartbeat b ts =>
    cases existing with
    | none => exact absurd h (by simp [write, Binding.heartbeat])
    | some r => exact Or.inr ⟨r, .active, rfl, (Except.ok.inj h).symm⟩
  | recycle b mode =>
    cases existing with
    | none => exact absurd h (by simp [write, Binding.recycle])
    | some r => cases mode <;> exact Or.inr ⟨r, .recycled, rfl, (Except.ok.inj h).symm⟩
  | unlockAssets b assets =>
    cases existing with
    | none => exact absurd h (by simp [write, Binding.unlockAssets])
    | some r => exact Or.inr ⟨r, .active, rfl, (Except.ok.inj h).symm⟩
  | revealConfigurations b configs =>
    cases existing with
    | none => exact absurd h (by simp [write, Binding.revealConfigurations])
    | some r => exact Or.inr ⟨r, .active, rfl, (Except.ok.inj h).symm⟩

/-! ### What the repository reads -/

theorem getByBinding_eq (records : List BindingRecord) (b : String) :
    getByBinding records b = findLast BindingRecord.bindingId b records := lookup_dictBy records b

theorem bindingId_of_getByBinding {records : List BindingRecord} {b : String} {r : BindingRecord}
    (h : getByBinding records b = some r) : r.bindingId = b := by
  rw [getByBinding_eq] at h
  exact (findLast_mem h).2

theorem getByBinding_upsert_self (w : BindingRecord) (records : List BindingRecord) :
    getByBinding (upsert w records) w.bindingId = some w := by
  rw [getByBinding_eq]
  exact findLast_upsertBy_self w records

theorem getByBinding_upsert_ne (w : BindingRecord) (records : List BindingRecord) {b : String}
    (h : b ≠ w.bindingId) : getByBinding (upsert w records) b = getByBinding records b := by
  rw [getByBinding_eq, getByBinding_eq]
  exact findLast_upsertBy_ne w records h

theorem mem_ids_of_get {records : List BindingRecord} {b : String} {r : BindingRecord}
    (h : getByBinding records b = some r) : b ∈ records.map BindingRecord.bindingId := by
  rw [getByBinding_eq] at h
  obtain ⟨hm, hb⟩ := findLast_mem h
  exact hb ▸ List.mem_map_of_mem hm

theorem mem_ids_upsert {w : BindingRecord} {records : List BindingRecord} {b : String} :
    b ∈ (upsert w records).map BindingRecord.bindingId ↔
      b ∈ records.map BindingRecord.bindingId ∨ b = w.bindingId := by
  rw [upsert, map_key_upsertBy, mem_addNew]

/-- The attacker's current binding is a stored binding of that attacker. -/
theorem getByBinding_of_getByAttacker {records : List BindingRecord} {a : String}
    {r : BindingRecord} (h : getByAttacker records a = some r) :
    r.attackerKey = a ∧ getByBinding records r.bindingId = some r := by
  rw [getByAttacker, recordsByAttacker, lookup_dictBy] at h
  obtain ⟨hm, ha⟩ := findLast_mem h
  obtain ⟨e, he, rfl⟩ := List.mem_map.mp hm
  exact ⟨ha, by rw [getByBinding_eq]; exact (findLast_of_mem_dictBy he).2⟩

/-- What an operation reads is stored under its own id, which is the id it named, if any. -/
theorem BindingOp.read_spec {op : BindingOp} {records : List BindingRecord} {r : BindingRecord}
    (h : op.read records = some r) :
    getByBinding records r.bindingId = some r ∧ ∀ b, op.target = some b → r.bindingId = b := by
  have hnamed : ∀ b, getByBinding records b = some r →
      getByBinding records r.bindingId = some r ∧ ∀ b', some b = some b' → r.bindingId = b' := by
    intro b hb
    have hid := bindingId_of_getByBinding hb
    exact ⟨by rw [hid]; exact hb, fun b' he => hid.trans (Option.some.inj he)⟩
  cases op with
  | resolve a =>
    exact ⟨(getByBinding_of_getByAttacker h).2, fun b he => absurd he (by simp [target])⟩
  | heartbeat b ts => exact hnamed b h
  | recycle b mode => exact hnamed b h
  | unlockAssets b assets => exact hnamed b h
  | revealConfigurations b configs => exact hnamed b h

/-! ### What a written record keeps -/

/-- The revealed configurations of asset `x`. -/
def BindingRecord.revealedFor (r : BindingRecord) (x : String) : List String :=
  (r.revealedConfigurations.lookup x).getD []

/-- `r` holds every asset and configuration of `r'`, and those `op` itself adds. -/
structure Extends (op : BindingOp) (r' r : BindingRecord) : Prop where
  bindingId : r.bindingId = r'.bindingId
  attackerKey : r.attackerKey = r'.attackerKey
  unlocked : ∀ a, a ∈ r'.unlockedAssets ∨ a ∈ op.ownAssets → a ∈ r.unlockedAssets
  revealed : ∀ x c, c ∈ r'.revealedFor x ∨ c ∈ op.ownConfigurations x → c ∈ r.revealedFor x

theorem mem_revealInto (revealed : Dict String (List String)) (e : String × List String)
    (x c : String) :
    c ∈ ((revealInto revealed e).lookup x).getD [] ↔
      c ∈ (revealed.lookup x).getD [] ∨ (e.1 = x ∧ c ∈ e.2) := by
  rw [revealInto, lookup_set]
  by_cases hx : x = e.1
  · subst hx
    simp
  · rw [if_neg hx]
    exact ⟨Or.inl, fun h => h.elim id fun h => absurd h.1.symm hx⟩

theorem mem_foldl_revealInto (configs revealed : Dict String (List String)) (x c : String) :
    c ∈ ((configs.foldl revealInto revealed).lookup x).getD [] ↔
      c ∈ (revealed.lookup x).getD [] ∨
        c ∈ (configs.filter (fun e => e.1 = x)).flatMap Prod.snd := by
  induction configs generalizing revealed with
  | nil => simp
  | cons e configs ih =>
    rw [List.foldl_cons, ih, mem_revealInto, or_assoc]
    refine or_congr_right ?_
    by_cases he : e.1 = x
    · rw [List.filter_cons_of_pos (by simpa using he), List.flatMap_cons, List.mem_append]
      exact or_congr_left ⟨And.right, fun h => ⟨he, h⟩⟩
    · rw [List.filter_cons_of_neg (by simpa using he)]
      exact ⟨fun h => h.elim (fun h => absurd h.1 he) id, Or.inr⟩

/-- A resolve that allocates writes a record under the fresh id, with nothing unlocked. -/
structure Allocates (c : Call) (op : BindingOp) (w : BindingRecord) : Prop where
  bindingId : w.bindingId = c.uuid
  unlocked : w.unlockedAssets = []
  revealed : w.revealedConfigurations = []
  op : ∃ attackerKey, op = .resolve attackerKey ∧ w.attackerKey = attackerKey

theorem BindingOp.ownConfigurations_eq (op : BindingOp) (x : String) :
    op.ownConfigurations x = (op.ownReveals.filter (fun e => e.1 = x)).flatMap Prod.snd := by
  cases op <;> rfl

/-- An update keeps every asset and configuration, and adds those of the operation. -/
theorem extends_updated (c : Call) (op : BindingOp) (status : BindingStatus) (r : BindingRecord) :
    Extends op r (op.updated c status r) where
  bindingId := rfl
  attackerKey := rfl
  unlocked _ ha := mem_appendNew.mpr ha
  revealed x d hd := by
    rw [op.ownConfigurations_eq] at hd
    exact (mem_foldl_revealInto op.ownReveals r.revealedConfigurations x d).mpr hd

/-- **A written record extends the one that was read**, unless a resolve allocates. -/
theorem BindingOp.write_keeps {c : Call} {op : BindingOp} {existing : Option BindingRecord}
    {w : BindingRecord} (h : op.write c existing = .ok w) :
    Allocates c op w ∨ ∃ r, existing = some r ∧ Extends op r w := by
  rcases write_eq h with ⟨attackerKey, hop, rfl⟩ | ⟨r, status, hread, rfl⟩
  · exact Or.inl ⟨rfl, rfl, rfl, attackerKey, hop, rfl⟩
  · exact Or.inr ⟨r, hread, extends_updated c op status r⟩

/-- An operation that names its binding returns once it has read it. -/
theorem BindingOp.write_returns {op : BindingOp} (hop : ∀ attackerKey, op ≠ .resolve attackerKey)
    (c : Call) (r : BindingRecord) : ∃ w, op.write c (some r) = .ok w := by
  cases op with
  | resolve attackerKey => exact absurd rfl (hop attackerKey)
  | heartbeat b ts => exact ⟨_, rfl⟩
  | recycle b mode => exact ⟨_, rfl⟩
  | unlockAssets b assets => exact ⟨_, rfl⟩
  | revealConfigurations b configs => exact ⟨_, rfl⟩

/-- **An operation on a stored binding returns**, and what it writes is stored in its place. -/
theorem BindingOp.call_of_stored {op : BindingOp} {bindingId : String}
    (htarget : op.target = some bindingId) {records : List BindingRecord} {old : BindingRecord}
    (hold : getByBinding records bindingId = some old) (c : Call) :
    ∃ new, op.call c records = .ok (new, upsert new records) ∧ Extends op old new := by
  have hread : op.read records = some old := by
    cases op with
    | resolve a => exact absurd htarget (by simp [target])
    | heartbeat b ts => obtain rfl := Option.some.inj htarget; exact hold
    | recycle b mode => obtain rfl := Option.some.inj htarget; exact hold
    | unlockAssets b assets => obtain rfl := Option.some.inj htarget; exact hold
    | revealConfigurations b configs => obtain rfl := Option.some.inj htarget; exact hold
  have hop : ∀ attackerKey, op ≠ .resolve attackerKey := by
    rintro attackerKey rfl
    exact absurd htarget (by simp [target])
  obtain ⟨new, hnew⟩ := write_returns hop c old
  refine ⟨new, by rw [call, hread, hnew]; rfl, ?_⟩
  rcases write_keeps hnew with halloc | ⟨r, hr, hextends⟩
  · obtain ⟨a, hresolve, _⟩ := halloc.op
    exact absurd hresolve (hop a)
  · obtain rfl := Option.some.inj hr
    exact hextends

end Honeynet.Binding
