import Honeynet.Binding.Runs
import Mathlib.Data.List.Chain

/-!
# Heartbeats that arrive late

A heartbeat brings its own time along, and the binding is last seen then.  What is stored is
what the last heartbeat to arrive has said.

* `heartbeatRequest`: a heartbeat, as a request that draws no id and reads no clock.
* `get_beat`: what a heartbeat makes of the stored record of its binding.
* `get_beats`: a run of heartbeats stores what the last of them says.
* `neverBack_of_chain`: heartbeats that arrive in the order of their times never move time back.
* `commute_iff`: two heartbeats commute and move nothing back if and only if they say the same
  time, and a time that moves nothing back.
-/

namespace Honeynet.Binding

open Collections

/-- A heartbeat; the clock and the id of a call are not used by it. -/
def heartbeatRequest (ttl : Int) (bindingId : String) (ts : Datetime) : Request :=
  ⟨⟨ttl, 0, ""⟩, .heartbeat bindingId ts⟩

/-- What a heartbeat makes of the record it reads. -/
def beaten (ttl : Int) (ts : Datetime) (r : BindingRecord) : BindingRecord :=
  { r with status := .active, lastSeenTs := ts, ttlExpiresAt := ts.add ttl }

/-- `a` is not later than `b`, and the two can be compared. -/
def NotLater (a b : Datetime) : Prop := a.le b = .ok true

instance (a b : Datetime) : Decidable (NotLater a b) := inferInstanceAs (Decidable (_ = _))

/-- Neither time of a binding is earlier afterwards. -/
structure NotBack (before after : BindingRecord) : Prop where
  lastSeen : NotLater before.lastSeenTs after.lastSeenTs
  expiry : NotLater before.ttlExpiresAt after.ttlExpiresAt

theorem notLater_iff {a b : Datetime} : NotLater a b ↔ a.aware = b.aware ∧ a.micros ≤ b.micros := by
  rw [NotLater, Datetime.le]
  by_cases haware : a.aware = b.aware
  · simp [haware]
  · simp [haware]

theorem NotLater.refl (a : Datetime) : NotLater a a := notLater_iff.mpr ⟨rfl, le_rfl⟩

theorem NotLater.add {a b : Datetime} (h : NotLater a b) (delta : Int) :
    NotLater (a.add delta) (b.add delta) := by
  obtain ⟨haware, hle⟩ := notLater_iff.mp h
  exact notLater_iff.mpr ⟨haware, Int.add_le_add_right hle delta⟩

section Beats

variable {records : List BindingRecord} {ttl : Int} {bindingId : String}

/-- **A heartbeat is stored as it came**, whatever was stored before. -/
theorem get_beat (ts : Datetime) :
    getByBinding ((heartbeatRequest ttl bindingId ts).after records) bindingId =
      (getByBinding records bindingId).map (beaten ttl ts) := by
  cases hr : getByBinding records bindingId with
  | none =>
    have hrun : (heartbeatRequest ttl bindingId ts).run records =
        .error (bindingNotFound bindingId) := by
      rw [Request.run, BindingOp.call, heartbeatRequest, BindingOp.read, hr]; rfl
    rw [Request.after, hrun, Option.map_none]
    exact hr
  | some r =>
    have hid : (beaten ttl ts r).bindingId = bindingId := by
      rw [beaten, bindingId_of_getByBinding hr]
    have hwrite : (heartbeatRequest ttl bindingId ts).op.write
        (heartbeatRequest ttl bindingId ts).call
        ((heartbeatRequest ttl bindingId ts).op.read records) = .ok (beaten ttl ts r) := by
      rw [heartbeatRequest, BindingOp.read, hr]; rfl
    rw [after_of_write hwrite, Option.map_some]
    have hself := getByBinding_upsert_self (beaten ttl ts r) records
    rw [hid] at hself
    exact hself

/-- The heartbeats of one binding, in the order in which they arrive. -/
def beats (ttl : Int) (bindingId : String) (times : List Datetime) : List Request :=
  times.map (heartbeatRequest ttl bindingId)

/-- **A run of heartbeats stores what the last of them says.** -/
theorem get_beats (times : List Datetime) (ts : Datetime) :
    getByBinding (runRequests records (beats ttl bindingId (times ++ [ts]))) bindingId =
      (getByBinding records bindingId).map (beaten ttl ts) := by
  induction times generalizing records with
  | nil => exact get_beat ts
  | cons first times ih =>
    have hrest : getByBinding (runRequests ((heartbeatRequest ttl bindingId first).after records)
        (beats ttl bindingId (times ++ [ts]))) bindingId =
          (getByBinding ((heartbeatRequest ttl bindingId first).after records) bindingId).map
            (beaten ttl ts) := ih
    rw [get_beat, Option.map_map] at hrest
    exact hrest

/-- No heartbeat of the run moves a stored time back. -/
def NeverBack (records : List BindingRecord) (ttl : Int) (bindingId : String)
    (times : List Datetime) : Prop :=
  ∀ before ts rest old new, times = before ++ ts :: rest →
    getByBinding (runRequests records (beats ttl bindingId before)) bindingId = some old →
    getByBinding (runRequests records (beats ttl bindingId (before ++ [ts]))) bindingId =
      some new → NotBack old new

theorem neverBack_cons {r : BindingRecord} (hr : getByBinding records bindingId = some r)
    (ts : Datetime) (times : List Datetime) :
    NeverBack records ttl bindingId (ts :: times) ↔
      NotBack r (beaten ttl ts r) ∧
        NeverBack ((heartbeatRequest ttl bindingId ts).after records) ttl bindingId times := by
  have hfirst : getByBinding (runRequests records (beats ttl bindingId [ts])) bindingId =
      some (beaten ttl ts r) := by
    rw [beats, List.map_singleton, runRequests, List.foldl_cons, List.foldl_nil, get_beat, hr,
      Option.map_some]
  constructor
  · intro h
    refine ⟨h [] ts times r _ rfl hr hfirst, ?_⟩
    intro before ts' rest old new heq hold hnew
    exact h (ts :: before) ts' rest old new (by rw [heq]; rfl) hold hnew
  · rintro ⟨hhead, htail⟩ before ts' rest old new heq hold hnew
    cases before with
    | nil =>
      obtain ⟨rfl, rfl⟩ := List.cons.inj heq
      obtain rfl := Option.some.inj (hr.symm.trans hold)
      obtain rfl := Option.some.inj (hfirst.symm.trans hnew)
      exact hhead
    | cons first before =>
      rw [List.cons_append] at heq
      obtain ⟨rfl, hrest⟩ := List.cons.inj heq
      exact htail before ts' rest old new hrest hold hnew

theorem neverBack_nil : NeverBack records ttl bindingId [] := by
  intro before ts rest old new heq
  exact absurd heq (by simp)

/-- **Heartbeats that arrive in the order of their times never move time back.** -/
theorem neverBack_of_chain {r : BindingRecord} (hr : getByBinding records bindingId = some r)
    {times : List Datetime} (hfirst : ∀ ts ∈ times.head?, NotBack r (beaten ttl ts r))
    (hchain : times.IsChain NotLater) : NeverBack records ttl bindingId times := by
  induction times generalizing records r with
  | nil => exact neverBack_nil
  | cons ts times ih =>
    rw [neverBack_cons hr]
    refine ⟨hfirst ts rfl, ?_⟩
    have hr' : getByBinding ((heartbeatRequest ttl bindingId ts).after records) bindingId =
        some (beaten ttl ts r) := by rw [get_beat, hr, Option.map_some]
    obtain ⟨hnext, htail⟩ := List.isChain_cons.mp hchain
    refine ih hr' (fun next hmem => ?_) htail
    exact ⟨hnext next hmem, (hnext next hmem).add ttl⟩

/-! ### Two heartbeats in either order -/

/-- **Two heartbeats commute and never move time backwards.** -/
structure Commute (records : List BindingRecord) (ttl : Int) (bindingId : String)
    (ts₁ ts₂ : Datetime) : Prop where
  same : getByBinding (runRequests records (beats ttl bindingId [ts₁, ts₂])) bindingId =
    getByBinding (runRequests records (beats ttl bindingId [ts₂, ts₁])) bindingId
  forth : NeverBack records ttl bindingId [ts₁, ts₂]
  back : NeverBack records ttl bindingId [ts₂, ts₁]

/-- **Two heartbeats commute if and only if they say one time, and it moves nothing back.** -/
theorem commute_iff {r : BindingRecord} (hr : getByBinding records bindingId = some r)
    (ts₁ ts₂ : Datetime) : Commute records ttl bindingId ts₁ ts₂ ↔
      ts₁ = ts₂ ∧ NotLater r.lastSeenTs ts₁ ∧ NotLater r.ttlExpiresAt (ts₁.add ttl) := by
  have hlast : ∀ first last : Datetime,
      getByBinding (runRequests records (beats ttl bindingId [first, last])) bindingId =
        some (beaten ttl last r) := fun first last => by
    refine (get_beats [first] last).trans ?_
    rw [hr, Option.map_some]
  constructor
  · intro h
    have hsame := h.same
    rw [hlast, hlast] at hsame
    have hts : ts₁ = ts₂ :=
      (congrArg BindingRecord.lastSeenTs (Option.some.inj hsame)).symm
    have hfirst := ((neverBack_cons hr ts₁ [ts₂]).mp h.forth).1
    exact ⟨hts, hfirst.lastSeen, hfirst.expiry⟩
  · rintro ⟨rfl, hseen, hexpiry⟩
    have hrun : NeverBack records ttl bindingId [ts₁, ts₁] := by
      refine neverBack_of_chain hr (fun ts hts => ?_) ?_
      · obtain rfl := Option.some.inj hts
        exact ⟨hseen, hexpiry⟩
      · exact List.isChain_pair.mpr (NotLater.refl ts₁)
    exact ⟨rfl, hrun, hrun⟩

end Beats

/-! ### A heartbeat that was held up -/

/-- A binding that was seen a minute ago and lives for an hour, in microseconds. -/
def seenBinding : BindingRecord :=
  ⟨"b-1", "198.51.100.7", "ns-b-1", .active, .utc 0, .utc 60000000, .utc 3660000000, none,
    ["git-internal"], []⟩

/-- Two heartbeats of the same minute. -/
theorem commute_same_minute :
    Commute [seenBinding] 3600000000 "b-1" (.utc 120000000) (.utc 120000000) :=
  (commute_iff (r := seenBinding) (by decide) _ _).mpr ⟨rfl, by decide, by decide⟩

/-- **The older of two heartbeats arrives last and takes a minute off the binding.** -/
theorem late_heartbeat_moves_back : ¬ ∀ (records : List BindingRecord) (ttl : Int)
    (bindingId : String) (r : BindingRecord) (ts₁ ts₂ : Datetime),
    getByBinding records bindingId = some r → ts₁.aware = true → ts₂.aware = true →
    Commute records ttl bindingId ts₁ ts₂ := by
  intro h
  have hcommute := h [seenBinding] 3600000000 "b-1" seenBinding (.utc 120000000) (.utc 180000000)
    (by decide) rfl rfl
  have hsame := hcommute.same
  revert hsame
  decide +kernel

end Honeynet.Binding
