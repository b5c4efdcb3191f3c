import Honeynet.Binding.Runs

/-!
# The life of a binding

A binding is its attacker's until it expires.  What a heartbeat writes into it may never be
comparable with the clock, and what a hard recycle writes into it is reached by the clock only
later.

* `resolvesReturn_iff`: every resolve returns if and only if the current bindings expire at aware
  times.
* `neverWedged_iff`: no run without a naive heartbeat of a current binding wedges an attacker.
* `hardRecycle_ends_iff`: a hard recycle ends the binding once the clock has moved on.
* `bindings_of_run`: resolves are sticky, exposure only grows, and no other record moves.
-/

namespace Honeynet.Binding

open Collections

/-! ### Times that can be compared -/

section Compared

variable {records : List BindingRecord}

/-- The current binding of every attacker expires at an aware time. -/
def CurrentAware (records : List BindingRecord) : Prop :=
  ∀ attackerKey x, getByAttacker records attackerKey = some x → x.ttlExpiresAt.aware = true

/-- Every resolve returns. -/
def ResolvesReturn (records : List BindingRecord) : Prop :=
  ∀ (c : Call) (attackerKey : String), ∃ out,
    (BindingOp.resolve attackerKey).call c records = .ok out

/-- The heartbeat of a current binding says when without a timezone. -/
def SpoilsCurrent (records : List BindingRecord) (request : Request) : Prop :=
  ∃ bindingId ts r, request.op = .heartbeat bindingId ts ∧ ts.aware = false ∧
    getByBinding records bindingId = some r ∧ getByAttacker records r.attackerKey = some r

/-- **Every resolve returns if and only if no current binding expires at a naive time.** -/
theorem resolvesReturn_iff : ResolvesReturn records ↔ CurrentAware records := by
  constructor
  · intro h attackerKey x hx
    obtain ⟨out, hout⟩ := h ⟨0, 0, ""⟩ attackerKey
    by_contra hnaive
    have hread : (BindingOp.resolve attackerKey).read records = some x := hx
    rw [BindingOp.call, hread, BindingOp.write,
      resolve_naive (Bool.eq_false_iff.mpr hnaive)] at hout
    exact absurd hout (by simp [bind, Except.bind])
  · intro h c attackerKey
    obtain ⟨w, hw⟩ := @exists_resolve c attackerKey _ (h attackerKey)
    have hrun : (Request.mk c (.resolve attackerKey)).run records = .ok (w, upsert w records) :=
      run_of_write hw
    exact ⟨(w, upsert w records), hrun⟩

theorem expiry_aware {c : Call} {op : BindingOp} {r : BindingRecord}
    (hbeat : ∀ bindingId ts, op = .heartbeat bindingId ts → ts.aware = true)
    (hr : r.ttlExpiresAt.aware = true) : (op.expiry c r).aware = true := by
  cases op with
  | resolve a => rfl
  | heartbeat b ts => exact hbeat b ts rfl
  | recycle b mode => cases mode <;> rfl
  | unlockAssets b assets => exact hr
  | revealConfigurations b configs => exact hr

/-- **One operation.** -/
theorem currentAware_step {request : Request} (hfresh : request.Fresh records)
    (hspared : ¬ SpoilsCurrent records request) (h : CurrentAware records) :
    CurrentAware (request.after records) := by
  intro attackerKey y hy
  have hwritten := written_after records request
  revert hy
  generalize request.after records = records' at hwritten
  intro hy
  cases hwritten with
  | raised => exact h attackerKey y hy
  | @allocated other hop hrun =>
    rw [current_allocated hfresh] at hy
    by_cases hother : other = attackerKey
    · rw [if_pos hother] at hy
      obtain rfl := Option.some.inj hy
      rfl
    · rw [if_neg hother] at hy
      exact h attackerKey y hy
  | @updated r status hread hrun =>
    rw [current_updated hread] at hy
    obtain ⟨x, hx, rfl⟩ := Option.map_eq_some_iff.mp hy
    by_cases hid : x.bindingId = r.bindingId
    · rw [if_pos hid]
      obtain rfl := current_unique hx (BindingOp.read_spec hread).1 hid
      refine expiry_aware (fun bindingId ts hop => ?_) (h attackerKey x hx)
      by_contra hnaive
      have hkey := (getByBinding_of_getByAttacker hx).1
      rw [hop] at hread
      exact hspared ⟨bindingId, ts, x, hop, Bool.eq_false_iff.mpr hnaive, hread, hkey.symm ▸ hx⟩
    · rw [if_neg hid]
      exact h attackerKey x hx

end Compared

/-! ### Runs that wedge no attacker -/

/-- At every moment of the run, every resolve returns. -/
def NeverWedged (requests : List Request) : Prop :=
  ∀ before after, requests = before ++ after → ResolvesReturn (runRequests [] before)

theorem currentAware_nil : CurrentAware [] := fun _ _ h => by
  rw [getByAttacker, recordsByAttacker, recordsByBinding] at h
  exact absurd h (by simp [dictBy])

/-- **A run wedges no attacker if and only if no heartbeat in it spoils a current binding.** -/
theorem neverWedged_iff {requests : List Request} (hfresh : FreshRun [] requests) :
    NeverWedged requests ↔ ∀ before request after, requests = before ++ request :: after →
      ¬ SpoilsCurrent (runRequests [] before) request := by
  constructor
  · rintro h before request after rfl ⟨bindingId, ts, r, hop, hnaive, hr, hcurrent⟩
    have hread : request.op.read (runRequests [] before) = some r := by rw [hop]; exact hr
    have hwrite : request.op.write request.call (request.op.read (runRequests [] before)) =
        .ok (request.op.updated request.call .active r) := by rw [hread, hop]; rfl
    have hreturn := h (before ++ [request]) after (by simp)
    rw [resolvesReturn_iff, runRequests_append] at hreturn
    have haware := hreturn r.attackerKey (request.op.updated request.call .active r) (by
      have hone : runRequests (runRequests [] before) [request] =
          request.after (runRequests [] before) := rfl
      rw [hone, after_of_write hwrite, current_updated hread, hcurrent, Option.map_some, if_pos rfl])
    rw [BindingOp.updated, hop] at haware
    exact absurd (haware.symm.trans hnaive) (by decide)
  · rintro h before after rfl
    rw [resolvesReturn_iff]
    refine invariant_of_run (freshRun_append.mp hfresh).1
      (fun first request rest heq hf => currentAware_step hf ?_) currentAware_nil
    exact h first request (rest ++ after) (by rw [heq]; simp)

/-- An attacker resolves, at a time in microseconds and with an hour to live. -/
def resolveAt (now : Int) (uuid : String) : Request :=
  ⟨⟨3600000000, now, uuid⟩, .resolve "198.51.100.7"⟩

def heartbeatAt (ts : Datetime) : Request := ⟨⟨3600000000, 0, "u-0"⟩, .heartbeat "b-1" ts⟩

/-- With a timezone, a heartbeat wedges nobody. -/
theorem aware_heartbeat_spares : NeverWedged [resolveAt 0 "b-1", heartbeatAt (.utc 60000000)] := by
  refine (neverWedged_iff (by decide)).mpr ?_
  rintro before request after heq ⟨bindingId, ts, r, hop, hnaive, -, -⟩
  have hmem : request ∈ [resolveAt 0 "b-1", heartbeatAt (.utc 60000000)] := by simp [heq]
  rcases List.mem_pair.mp hmem with rfl | rfl
  · exact absurd hop (by simp [resolveAt])
  · obtain ⟨-, rfl⟩ := BindingOp.heartbeat.inj hop
    exact absurd hnaive (by decide)

/-- **Without one, no resolve of the attacker returns any more.** -/
theorem naive_heartbeat_wedges : ¬ ∀ requests, FreshRun [] requests → NeverWedged requests := by
  intro h
  have hreturn := h [resolveAt 0 "b-1", heartbeatAt { micros := 60000000, aware := false }]
    (by decide) _ [] (List.append_nil _).symm ⟨3600000000, 120000000, "b-2"⟩ "198.51.100.7"
  obtain ⟨out, hout⟩ := hreturn
  have herror : ((BindingOp.resolve "198.51.100.7").call ⟨3600000000, 120000000, "b-2"⟩
      (runRequests [] [resolveAt 0 "b-1",
        heartbeatAt { micros := 60000000, aware := false }])).toOption = none := by decide +kernel
  rw [hout] at herror
  exact absurd herror (by simp [Except.toOption])

/-! ### A hard recycle -/

section Hard

variable {records : List BindingRecord} {attackerKey bindingId : String}

/-- When the binding expires, of which nothing but hard recycles has said when. -/
def expiredAt (bindingId : String) (recycled : Int) (requests : List Request) : Int :=
  requests.foldl (fun at_ request =>
    if request.op = .recycle bindingId .hard then request.call.now else at_) recycled

/-- The operation leaves an expired binding expired. -/
def LeavesExpired (bindingId : String) (op : BindingOp) : Prop :=
  op ≠ .recycle bindingId .idle ∧ ∀ ts, op ≠ .heartbeat bindingId ts

/-- **The binding is over**: the resolve allocates a fresh one, and no later resolve of its
attacker returns it. -/
structure Ended (records : List BindingRecord) (attackerKey bindingId : String)
    (resolve : Request) (rest : List Request) : Prop where
  allocates : resolve.Returns records (freshRecord resolve.call attackerKey)
  gone : ∀ before request after w, rest = before ++ request :: after →
    request.op = .resolve attackerKey →
    request.Returns (runRequests (resolve.after records) before) w → w.bindingId ≠ bindingId

/-- The attacker's current binding expires at the time. -/
def ExpiresAt (attackerKey bindingId : String) (time : Int) (records : List BindingRecord) :
    Prop :=
  ∃ x, getByAttacker records attackerKey = some x ∧ x.bindingId = bindingId ∧
    x.ttlExpiresAt = .utc time

/-- A hard recycle of the current binding makes it expire at the time of the recycle. -/
theorem expiresAt_hardRecycle {request : Request} (hop : request.op = .recycle bindingId .hard)
    {x : BindingRecord} (hx : getByAttacker records attackerKey = some x)
    (hid : x.bindingId = bindingId) :
    ExpiresAt attackerKey bindingId request.call.now (request.after records) := by
  have hread : request.op.read records = some x := by
    rw [hop, ← hid]
    exact (getByBinding_of_getByAttacker hx).2
  have hwrite : request.op.write request.call (request.op.read records) =
      .ok (request.op.updated request.call .recycled x) := by rw [hread, hop]; rfl
  refine ⟨request.op.updated request.call .recycled x, ?_, hid, ?_⟩
  · rw [after_of_write hwrite, current_updated hread, hx, Option.map_some, if_pos rfl]
  · rw [BindingOp.updated, hop]
    rfl

theorem expiresAt_step {request : Request} {time : Int} (hfresh : request.Fresh records)
    (hnext : request.op ≠ .resolve attackerKey) (hleaves : LeavesExpired bindingId request.op)
    (h : ExpiresAt attackerKey bindingId time records) :
    ExpiresAt attackerKey bindingId (expiredAt bindingId time [request])
      (request.after records) := by
  obtain ⟨x, hx, hid, httl⟩ := h
  have hkey := (getByBinding_of_getByAttacker hx).1
  by_cases hop : request.op = .recycle bindingId .hard
  · rw [expiredAt, List.foldl_cons, if_pos hop, List.foldl_nil]
    exact expiresAt_hardRecycle hop hx hid
  · have htime : expiredAt bindingId time [request] = time := by
      rw [expiredAt, List.foldl_cons, if_neg hop, List.foldl_nil]
    rw [htime]
    rcases current_written (written_after _ _) hfresh hnext hx with hsame | ⟨status, hread, hupdated⟩
    · exact ⟨x, hsame, hid, httl⟩
    · refine ⟨_, hupdated, hid, ?_⟩
      have htarget := (BindingOp.read_spec hread).2
      cases hcase : request.op with
      | resolve other =>
        rw [hcase] at hread hnext
        have hother := (getByBinding_of_getByAttacker hread).1
        exact absurd (by rw [← hother, hkey]) hnext
      | heartbeat b ts =>
        rw [hcase] at htarget hleaves
        exact absurd (by rw [← htarget b rfl, hid]) (hleaves.2 ts)
      | recycle b mode =>
        rw [hcase] at htarget hleaves hop
        have hb : b = bindingId := (htarget b rfl).symm.trans hid
        cases mode with
        | idle => exact absurd (by rw [hb]) hleaves.1
        | hard => exact absurd (by rw [hb]) hop
      | unlockAssets b assets => exact httl
      | revealConfigurations b configs => exact httl

theorem expiresAt_run {between : List Request} {time : Int} (hfresh : FreshRun records between)
    (hnext : ∀ request ∈ between, request.op ≠ .resolve attackerKey)
    (hleaves : ∀ request ∈ between, LeavesExpired bindingId request.op)
    (h : ExpiresAt attackerKey bindingId time records) :
    ExpiresAt attackerKey bindingId (expiredAt bindingId time between)
      (runRequests records between) := by
  induction between generalizing records time with
  | nil => exact h
  | cons request between ih =>
    obtain ⟨hfirst, hrest⟩ := List.forall_mem_cons.mp hnext
    obtain ⟨hleavesFirst, hleavesRest⟩ := List.forall_mem_cons.mp hleaves
    exact ih hfresh.2 hrest hleavesRest (expiresAt_step hfresh.1 hfirst hleavesFirst h)

/-- The binding is stored, and it is not its attacker's current one. -/
def Gone (attackerKey bindingId : String) (records : List BindingRecord) : Prop :=
  bindingId ∈ records.map BindingRecord.bindingId ∧
    ∀ x, getByAttacker records attackerKey = some x → x.bindingId ≠ bindingId

/-- **A binding that is gone does not come back.** -/
theorem gone_step {request : Request} (hfresh : request.Fresh records)
    (h : Gone attackerKey bindingId records) :
    Gone attackerKey bindingId (request.after records) := by
  obtain ⟨hstored, hgone⟩ := h
  have hwritten := written_after records request
  generalize request.after records = records' at hwritten
  cases hwritten with
  | raised => exact ⟨hstored, hgone⟩
  | @allocated other hop hrun =>
    refine ⟨mem_ids_upsert.mpr (Or.inl hstored), fun y hy => ?_⟩
    rw [current_allocated hfresh] at hy
    by_cases hother : other = attackerKey
    · rw [if_pos hother] at hy
      obtain rfl := Option.some.inj hy
      intro hid
      have hdrawn : request.call.uuid = bindingId := hid
      exact hfresh (hdrawn ▸ hstored)
    · rw [if_neg hother] at hy
      exact hgone y hy
  | @updated r status hread hrun =>
    refine ⟨mem_ids_upsert.mpr (Or.inl hstored), fun y hy => ?_⟩
    rw [current_updated hread] at hy
    obtain ⟨x, hx, rfl⟩ := Option.map_eq_some_iff.mp hy
    by_cases hid : x.bindingId = r.bindingId
    · rw [if_pos hid]
      exact fun heq => hgone x hx (hid.trans heq)
    · rw [if_neg hid]
      exact hgone x hx

theorem ended_of_gone {resolve : Request} {rest : List Request}
    (hallocates : resolve.Returns records (freshRecord resolve.call attackerKey))
    (hfresh : FreshRun (resolve.after records) rest)
    (h : Gone attackerKey bindingId (resolve.after records)) :
    Ended records attackerKey bindingId resolve rest := by
  refine ⟨hallocates, ?_⟩
  rintro before request after w rfl hop hreturns
  obtain ⟨hbefore, hrequest⟩ := freshRun_append.mp hfresh
  have hgone := invariant_of_run (I := Gone attackerKey bindingId) hbefore
    (fun _ _ _ _ hf => gone_step hf) h
  exact (gone_step hrequest.1 hgone).2 w (current_of_resolve hrequest.1 hop hreturns)

/-- **A hard recycle of the current binding ends it if and only if the clock reads later at the
next resolve than at the last hard recycle.** -/
theorem hardRecycle_ends_iff {old : BindingRecord} {recycle resolve : Request}
    {between rest : List Request} (hcurrent : getByAttacker records attackerKey = some old)
    (hrecycle : recycle.op = .recycle old.bindingId .hard)
    (hbetween : ∀ request ∈ between, request.op ≠ .resolve attackerKey ∧
      LeavesExpired old.bindingId request.op)
    (hresolve : resolve.op = .resolve attackerKey)
    (hfresh : FreshRun records (recycle :: between ++ resolve :: rest)) :
    Ended (runRequests records (recycle :: between)) attackerKey old.bindingId resolve rest ↔
      expiredAt old.bindingId recycle.call.now between < resolve.call.now := by
  obtain ⟨hfreshBetween, hfreshResolve, hfreshRest⟩ := freshRun_append.mp hfresh
  -- after the recycle and what comes between, the binding has expired at that time
  have hexpired : ExpiresAt attackerKey old.bindingId
      (expiredAt old.bindingId recycle.call.now between)
      (runRequests records (recycle :: between)) :=
    expiresAt_run hfreshBetween.2 (fun request hmem => (hbetween request hmem).1)
      (fun request hmem => (hbetween request hmem).2) (expiresAt_hardRecycle hrecycle hcurrent rfl)
  obtain ⟨x, hx, hid, httl⟩ := hexpired
  have haware : x.ttlExpiresAt.aware = true := by rw [httl]; rfl
  have hread : resolve.op.read (runRequests records (recycle :: between)) = some x := by
    rw [hresolve]; exact hx
  have hstoredNow := mem_ids_of_current hx
  constructor
  · intro h
    by_contra hlate
    have hlive : resolve.call.now ≤ x.ttlExpiresAt.micros := by rw [httl]; exact not_lt.mp hlate
    -- the binding is reused, and its id cannot be the one that was drawn
    have hwrite : resolve.op.write resolve.call
        (resolve.op.read (runRequests records (recycle :: between))) =
          .ok ((BindingOp.resolve attackerKey).updated resolve.call
            (if x.status = .recycled then .recovered else .active) x) := by
      rw [hread, hresolve]; exact resolve_live haware hlive
    obtain ⟨records', hrun⟩ := h.allocates
    have heq := (Prod.mk.inj (Except.ok.inj ((run_of_write hwrite).symm.trans hrun))).1
    have hsame : x.bindingId = resolve.call.uuid := congrArg BindingRecord.bindingId heq
    exact hfreshResolve (hsame ▸ hstoredNow)
  · intro hlater
    have hpast : x.ttlExpiresAt.micros < resolve.call.now := by rw [httl]; exact hlater
    have hwrite : resolve.op.write resolve.call
        (resolve.op.read (runRequests records (recycle :: between))) =
          .ok (freshRecord resolve.call attackerKey) := by
      rw [hread, hresolve]; exact resolve_expired haware hpast
    refine ended_of_gone ⟨_, run_of_write hwrite⟩ hfreshRest ?_
    rw [after_of_write hwrite]
    refine ⟨mem_ids_upsert.mpr (Or.inl (hid ▸ hstoredNow)), fun y hy => ?_⟩
    rw [current_allocated hfreshResolve, if_pos rfl] at hy
    obtain rfl := Option.some.inj hy
    intro heq
    have hdrawn : resolve.call.uuid = x.bindingId := heq.trans hid.symm
    exact hfreshResolve (hdrawn ▸ hstoredNow)

/-- The clock never runs backwards along the operations. -/
def NonDecreasing (requests : List Request) : Prop :=
  requests.Pairwise fun first second => first.call.now ≤ second.call.now

/-- The binding of `resolveAt 0 "b-1"`, recycled at a time in microseconds. -/
def hardRecycleAt (now : Int) : Request := ⟨⟨3600000000, now, "u-0"⟩, .recycle "b-1" .hard⟩

/-- A microsecond after the recycle, the next resolve allocates. -/
theorem later_resolve_ends :
    Ended (runRequests [freshRecord ⟨3600000000, 0, "b-1"⟩ "198.51.100.7"] [hardRecycleAt 60000000])
      "198.51.100.7" "b-1" (resolveAt 60000001 "b-2") [resolveAt 120000000 "b-3"] := by
  have hcurrent : getByAttacker [freshRecord ⟨3600000000, 0, "b-1"⟩ "198.51.100.7"]
      "198.51.100.7" = some (freshRecord ⟨3600000000, 0, "b-1"⟩ "198.51.100.7") := by
    decide +kernel
  have hrecycle : (hardRecycleAt 60000000).op =
      .recycle (freshRecord ⟨3600000000, 0, "b-1"⟩ "198.51.100.7").bindingId .hard := rfl
  have hbetween : ∀ request ∈ ([] : List Request), request.op ≠ .resolve "198.51.100.7" ∧
      LeavesExpired (freshRecord ⟨3600000000, 0, "b-1"⟩ "198.51.100.7").bindingId request.op := by
    simp
  exact (hardRecycle_ends_iff hcurrent hrecycle hbetween rfl (by decide +kernel)).mpr (by decide)

/-- **At the very instant of the recycle, the next resolve returns the recycled binding.** -/
theorem resolve_at_recycle_resumes : ¬ ∀ records attackerKey old recycle resolve between rest,
    getByAttacker records attackerKey = some old → recycle.op = .recycle old.bindingId .hard →
    (∀ request ∈ between, request.op ≠ .resolve attackerKey ∧
      LeavesExpired old.bindingId request.op) →
    resolve.op = .resolve attackerKey → FreshRun records (recycle :: between ++ resolve :: rest) →
    NonDecreasing (recycle :: between ++ resolve :: rest) →
    Ended (runRequests records (recycle :: between)) attackerKey old.bindingId resolve rest := by
  intro h
  have hended := h [freshRecord ⟨3600000000, 0, "b-1"⟩ "198.51.100.7"] "198.51.100.7"
    (freshRecord ⟨3600000000, 0, "b-1"⟩ "198.51.100.7") (hardRecycleAt 60000000)
    (resolveAt 60000000 "b-2") [] [] (by decide +kernel) rfl (by simp) rfl (by decide +kernel)
    (by simp [NonDecreasing, hardRecycleAt, resolveAt])
  obtain ⟨records', hrun⟩ := hended.allocates
  have hreused : ((resolveAt 60000000 "b-2").run (runRequests
      [freshRecord ⟨3600000000, 0, "b-1"⟩ "198.51.100.7"] [hardRecycleAt 60000000])).toOption.map
        (fun out => out.1.bindingId) = some "b-1" := by decide +kernel
  rw [hrun] at hreused
  exact absurd hreused (by simp [Except.toOption, freshRecord, resolveAt])

end Hard

/-! ### Exposure only grows -/

section Growing

variable {records : List BindingRecord}

/-- No asset and no configuration of an asset is listed twice. -/
structure BindingRecord.Distinct (r : BindingRecord) : Prop where
  unlocked : r.unlockedAssets.Nodup
  revealed : ∀ x, (r.revealedFor x).Nodup

/-- The later record of a binding lists what the earlier one lists, first and in its order. -/
structure Grows (earlier later : BindingRecord) : Prop where
  bindingId : later.bindingId = earlier.bindingId
  unlocked : earlier.unlockedAssets <+: later.unlockedAssets
  revealed : ∀ x, earlier.revealedFor x <+: later.revealedFor x

theorem Grows.refl (r : BindingRecord) : Grows r r :=
  ⟨rfl, List.prefix_refl _, fun _ => List.prefix_refl _⟩

theorem Grows.trans {r₁ r₂ r₃ : BindingRecord} (h : Grows r₁ r₂) (h' : Grows r₂ r₃) :
    Grows r₁ r₃ :=
  ⟨h'.bindingId.trans h.bindingId, h.unlocked.trans h'.unlocked,
    fun x => (h.revealed x).trans (h'.revealed x)⟩

theorem prefix_revealInto (revealed : Dict String (List String)) (e : String × List String)
    (x : String) :
    (revealed.lookup x).getD [] <+: ((revealInto revealed e).lookup x).getD [] := by
  rw [revealInto, lookup_set]
  by_cases hx : x = e.1
  · rw [if_pos hx, ← hx]
    exact prefix_appendNew _ _
  · rw [if_neg hx]

theorem nodup_revealInto {revealed : Dict String (List String)}
    (h : ∀ x, ((revealed.lookup x).getD []).Nodup) (e : String × List String) (x : String) :
    (((revealInto revealed e).lookup x).getD []).Nodup := by
  rw [revealInto, lookup_set]
  by_cases hx : x = e.1
  · rw [if_pos hx]
    exact nodup_appendNew (h e.1) e.2
  · rw [if_neg hx]
    exact h x

theorem prefix_foldl_revealInto (configs revealed : Dict String (List String)) (x : String) :
    (revealed.lookup x).getD [] <+: ((configs.foldl revealInto revealed).lookup x).getD [] := by
  induction configs generalizing revealed with
  | nil => exact List.prefix_refl _
  | cons e configs ih => exact (prefix_revealInto revealed e x).trans (ih _)

theorem nodup_foldl_revealInto (configs : Dict String (List String))
    {revealed : Dict String (List String)} (h : ∀ x, ((revealed.lookup x).getD []).Nodup)
    (x : String) : (((configs.foldl revealInto revealed).lookup x).getD []).Nodup := by
  induction configs generalizing revealed with
  | nil => exact h x
  | cons e configs ih => exact ih (nodup_revealInto h e)

theorem grows_updated (c : Call) (op : BindingOp) (status : BindingStatus) (r : BindingRecord) :
    Grows r (op.updated c status r) :=
  ⟨rfl, prefix_appendNew _ _, prefix_foldl_revealInto op.ownReveals r.revealedConfigurations⟩

theorem BindingRecord.Distinct.updated {r : BindingRecord} (h : r.Distinct) (c : Call)
    (op : BindingOp) (status : BindingStatus) : (op.updated c status r).Distinct :=
  ⟨nodup_appendNew h.unlocked _, nodup_foldl_revealInto op.ownReveals h.revealed⟩

/-- Each id is stored once, and every stored binding lists each thing once. -/
structure WellFormed (records : List BindingRecord) : Prop where
  ids : (records.map BindingRecord.bindingId).Nodup
  distinct : ∀ r ∈ records, r.Distinct

theorem wellFormed_nil : WellFormed [] := ⟨List.nodup_nil, fun _ h => absurd h (by simp)⟩

theorem wellFormed_upsert {w : BindingRecord} (h : WellFormed records) (hw : w.Distinct) :
    WellFormed (upsert w records) where
  ids := by
    rw [upsert, map_key_upsertBy]
    exact nodup_addNew h.ids _
  distinct r hr := by
    rcases mem_upsertBy hr with rfl | ⟨hstored, -⟩
    · exact hw
    · exact h.distinct r hstored

/-- The binding read by an operation is stored. -/
theorem mem_of_read {op : BindingOp} {r : BindingRecord} (h : op.read records = some r) :
    r ∈ records := by
  have hstored := (BindingOp.read_spec h).1
  rw [getByBinding_eq] at hstored
  exact (findLast_mem hstored).1

theorem wellFormed_step {request : Request} (h : WellFormed records) :
    WellFormed (request.after records) := by
  have hwritten := written_after records request
  generalize request.after records = records' at hwritten
  cases hwritten with
  | raised => exact h
  | allocated hop hrun => exact wellFormed_upsert h ⟨List.nodup_nil, fun _ => List.nodup_nil⟩
  | updated hread hrun =>
    exact wellFormed_upsert h ((h.distinct _ (mem_of_read hread)).updated _ _ _)

/-- Every stored binding is still stored, grown. -/
def Retains (earlier later : List BindingRecord) : Prop :=
  ∀ r ∈ earlier, ∃ r' ∈ later, Grows r r'

theorem retains_step {request : Request} (hfresh : request.Fresh records)
    (h : WellFormed records) : Retains records (request.after records) := by
  intro r hr
  have hwritten := written_after records request
  generalize request.after records = records' at hwritten
  cases hwritten with
  | raised => exact ⟨r, hr, .refl r⟩
  | @allocated attackerKey hop hrun =>
    have hne : r.bindingId ≠ (freshRecord request.call attackerKey).bindingId := fun heq =>
      hfresh (List.mem_map.mpr ⟨r, hr, heq⟩)
    exact ⟨r, mem_upsertBy_of_ne hr hne, .refl r⟩
  | @updated old status hread hrun =>
    by_cases hid : r.bindingId = old.bindingId
    · obtain rfl := List.inj_on_of_nodup_map h.ids hr (mem_of_read hread) hid
      exact ⟨_, self_mem_upsertBy _ _, grows_updated _ _ _ _⟩
    · exact ⟨r, mem_upsertBy_of_ne hr hid, .refl r⟩

theorem wellFormed_run (requests : List Request) (h : WellFormed records) :
    WellFormed (runRequests records requests) := by
  induction requests generalizing records with
  | nil => exact h
  | cons request requests ih => exact ih (wellFormed_step h)

theorem retains_run {requests : List Request} (hfresh : FreshRun records requests)
    (h : WellFormed records) : Retains records (runRequests records requests) := by
  induction requests generalizing records with
  | nil => exact fun r hr => ⟨r, hr, .refl r⟩
  | cons request requests ih =>
    intro r hr
    obtain ⟨r₁, hr₁, hgrows⟩ := retains_step hfresh.1 h r hr
    obtain ⟨r₂, hr₂, hgrows'⟩ := ih hfresh.2 (wellFormed_step h) r₁ hr₁
    exact ⟨r₂, hr₂, hgrows.trans hgrows'⟩

end Growing

/-! ### What a run does to the bindings -/

section Bindings

variable {records : List BindingRecord}

/-- Every heartbeat says when with a timezone. -/
def AwareTimes (requests : List Request) : Prop :=
  ∀ request ∈ requests, ∀ bindingId ts, request.op = .heartbeat bindingId ts → ts.aware = true

/-- A resolve returns the binding of the attacker's previous resolve, unless its stored ttl has
passed. -/
def Sticky (requests : List Request) : Prop :=
  ∀ before first between second after attackerKey,
    requests = before ++ first :: between ++ second :: after →
    first.op = .resolve attackerKey → second.op = .resolve attackerKey →
    (∀ request ∈ between, request.op ≠ .resolve attackerKey) →
    ∃ w w', first.Returns (runRequests [] before) w ∧
      second.Returns (runRequests [] (before ++ first :: between)) w' ∧
      (w'.bindingId = w.bindingId ∨
        ∃ x, getByBinding (runRequests [] (before ++ first :: between)) w.bindingId = some x ∧
          x.ttlExpiresAt.micros < second.call.now)

/-- At every moment each binding is stored once and lists each thing once, and every later moment
retains the bindings of the earlier ones. -/
def OnlyGrows (requests : List Request) : Prop :=
  ∀ before between after, requests = before ++ between ++ after →
    WellFormed (runRequests [] before) ∧
      Retains (runRequests [] before) (runRequests [] (before ++ between))

/-- What an operation leaves of the records: all of them where it raises, and otherwise all but
the one it writes, which is the one it names, or one of the attacker it resolves. -/
def LeavesOthers (records : List BindingRecord) (request : Request) : Prop :=
  (∃ e, request.run records = .error e ∧ request.after records = records) ∨
    ∃ w, request.Returns records w ∧
      (∀ bindingId, request.op.target = some bindingId → w.bindingId = bindingId) ∧
      (∀ attackerKey, request.op = .resolve attackerKey → w.attackerKey = attackerKey) ∧
      (request.after records).filter (fun r => r.bindingId ≠ w.bindingId) =
        records.filter (fun r => r.bindingId ≠ w.bindingId) ∧
      records.map BindingRecord.bindingId <+:
        (request.after records).map BindingRecord.bindingId

theorem leavesOthers (records : List BindingRecord) (request : Request) :
    LeavesOthers records request := by
  have hframe : ∀ w, (upsert w records).filter (fun r => r.bindingId ≠ w.bindingId) =
        records.filter (fun r => r.bindingId ≠ w.bindingId) ∧
      records.map BindingRecord.bindingId <+: (upsert w records).map BindingRecord.bindingId := by
    intro w
    refine ⟨filter_upsertBy_ne w records, ?_⟩
    rw [upsert, map_key_upsertBy]
    exact prefix_addNew _ _
  have hwritten := written_after records request
  generalize hafter : request.after records = records' at hwritten
  cases hwritten with
  | raised hrun => exact Or.inl ⟨_, hrun, hafter⟩
  | @allocated other hop hrun =>
    refine Or.inr ⟨_, ⟨_, hrun⟩, fun bindingId htarget => ?_, fun attackerKey hkey => ?_, ?_⟩
    · rw [hop] at htarget
      exact absurd htarget (by simp [BindingOp.target])
    · exact BindingOp.resolve.inj (hop.symm.trans hkey)
    · rw [hafter]
      exact hframe _
  | @updated r status hread hrun =>
    refine Or.inr ⟨_, ⟨_, hrun⟩, (BindingOp.read_spec hread).2, fun attackerKey hkey => ?_, ?_⟩
    · rw [hkey] at hread
      exact (getByBinding_of_getByAttacker hread).1
    · rw [hafter]
      exact hframe _

theorem currentAware_of_aware {requests : List Request} (hfresh : FreshRun records requests)
    (haware : AwareTimes requests) (h : CurrentAware records) :
    CurrentAware (runRequests records requests) := by
  refine invariant_of_run hfresh (fun before request after heq hf => currentAware_step hf ?_) h
  rintro ⟨bindingId, ts, r, hop, hnaive, -, -⟩
  have hts := haware request (by simp [heq]) bindingId ts hop
  exact absurd (hts.symm.trans hnaive) (by decide)

/-- Where no current binding expires at a naive time, every resolve returns. -/
theorem resolve_returns (h : CurrentAware records) {request : Request} {attackerKey : String}
    (hop : request.op = .resolve attackerKey) : ∃ w, request.Returns records w := by
  obtain ⟨⟨w, records'⟩, hrun⟩ := resolvesReturn_iff.mpr h request.call attackerKey
  exact ⟨w, records', by rw [Request.run, hop]; exact hrun⟩

theorem sticky_of_run {requests : List Request} (hfresh : FreshRun [] requests)
    (haware : AwareTimes requests) : Sticky requests := by
  rintro before first between second after attackerKey rfl hfirst hsecond hbetween
  have hfreshUntil := (freshRun_append.mp hfresh).1
  obtain ⟨hfreshBefore, hfreshFirst, hfreshBetween⟩ := freshRun_append.mp hfreshUntil
  have hawareBefore : CurrentAware (runRequests [] before) :=
    currentAware_of_aware hfreshBefore (fun r hr => haware r (by simp [hr])) currentAware_nil
  have hawareSecond : CurrentAware (runRequests [] (before ++ first :: between)) :=
    currentAware_of_aware hfreshUntil (fun r hr => haware r (List.mem_append_left _ hr))
      currentAware_nil
  obtain ⟨w, hw⟩ := resolve_returns hawareBefore hfirst
  obtain ⟨w', hw'⟩ := resolve_returns hawareSecond hsecond
  refine ⟨w, w', hw, hw', ?_⟩
  -- the binding the first resolve returned is still the current one
  obtain ⟨x, hx, hid⟩ := current_run hfreshBetween hbetween
    ⟨w, current_of_resolve hfreshFirst hfirst hw, rfl⟩
  have hstate : runRequests (first.after (runRequests [] before)) between =
      runRequests [] (before ++ first :: between) := by rw [runRequests_append]; rfl
  rw [hstate] at hx
  by_cases hpast : x.ttlExpiresAt.micros < second.call.now
  · exact Or.inr ⟨x, hid ▸ (getByBinding_of_getByAttacker hx).2, hpast⟩
  · refine Or.inl ?_
    have hread : second.op.read (runRequests [] (before ++ first :: between)) = some x := by
      rw [hsecond]; exact hx
    have hwrite : second.op.write second.call (second.op.read
        (runRequests [] (before ++ first :: between))) =
          .ok ((BindingOp.resolve attackerKey).updated second.call
            (if x.status = .recycled then .recovered else .active) x) := by
      rw [hread, hsecond]
      exact resolve_live (hawareSecond attackerKey x hx) (not_lt.mp hpast)
    obtain ⟨records', hrun⟩ := hw'
    have heq := (Prod.mk.inj (Except.ok.inj ((run_of_write hwrite).symm.trans hrun))).1
    rw [← heq]
    exact hid

/-- **Along every run, resolves are sticky, exposure only grows, and an operation leaves the other
bindings as they are and where they are.** -/
theorem bindings_of_run {requests : List Request} (hfresh : FreshRun [] requests)
    (haware : AwareTimes requests) :
    Sticky requests ∧ OnlyGrows requests ∧
      ∀ before request after, requests = before ++ request :: after →
        LeavesOthers (runRequests [] before) request := by
  refine ⟨sticky_of_run hfresh haware, ?_, fun before request _ _ =>
    leavesOthers (runRequests [] before) request⟩
  rintro before between after rfl
  have hwell := wellFormed_run before wellFormed_nil
  refine ⟨hwell, ?_⟩
  rw [runRequests_append]
  exact retains_run (freshRun_append.mp (freshRun_append.mp hfresh).1).2 hwell

/-- A binding that is unlocked between two resolves. -/
theorem bindings_of_unlock : Sticky [resolveAt 0 "b-1",
    ⟨⟨3600000000, 1, "u-0"⟩, .unlockAssets "b-1" ["ssh-decoy"]⟩, resolveAt 60000000 "b-2"] :=
  (bindings_of_run (by decide +kernel) (by simp [AwareTimes, resolveAt])).1

end Bindings

end Honeynet.Binding
