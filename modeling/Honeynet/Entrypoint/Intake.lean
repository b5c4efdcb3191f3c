import Honeynet.Entrypoint.PortalLogin
import Honeynet.Forwarders.Posting

/-!
# Posts to the entrypoint

A forwarder posts to the entrypoint over a network that may lose a POST, or its answer, while other
requests come in.

* `ingestEntrypointEvent`: the answer to a POST, and what it leaves.
* `Surroundings.serve`: what comes of the posts of a forwarder.
* `Taken`, `taken_serve`: a POST leaves at most one observation, and one where it is counted.
-/

namespace Honeynet.Entrypoint

open AssetGateway Collections Forwarders

/-! ### The endpoint -/

section Endpoint

variable {F : Type} (svc : EntrypointService F)

/-- The answer to a POST, with the observation that is left. -/
def ingestEntrypointEvent (call : CaptureCall) (event : Settings) (s : Stores F) :
    PostOutcome × Option EntrypointObservation × Stores F :=
  match captureRequest event with
  | none => (.rejected 422, none, s)
  | some request =>
    match captureHttpRequest svc call request s with
    | .error _ => (.rejected 500, none, s)
    | .ok (response, stored) => (.answered 200, some response.observation, stored)

/-! ### The network -/

/-- What becomes of a POST on its way. -/
inductive Passage
  | lost
  | unread (e : PyError)
  | answered

/-- What the posts of a forwarder meet: the network, the clock and generated ids, and what others do
to the stores before each. -/
structure Surroundings (F : Type) where
  passage : ℕ → Passage
  call : ℕ → CaptureCall
  others : ℕ → Stores F → Stores F

/-- Others take away no observations. -/
def Surroundings.Adding (env : Surroundings F) : Prop :=
  ∀ i (s : Stores F), s.observations.Sublist (env.others i s).observations

/-- The stores, and the observations that posts have left, each with the number of its POST. -/
structure Intake (F : Type) where
  stores : Stores F
  observed : List (ℕ × EntrypointObservation) := []

/-- What comes of a POST. -/
def Surroundings.serve (env : Surroundings F) (i : ℕ) (event : Settings) (k : Intake F) :
    Except PyError PostOutcome × Intake F :=
  let stores := env.others i k.stores
  let (outcome, observation, stored) := ingestEntrypointEvent svc (env.call i) event stores
  let taken : Intake F := ⟨stored, k.observed ++ observation.toList.map (i, ·)⟩
  match env.passage i with
  | .lost => (.ok .unreachable, { k with stores })
  | .unread e => (.error e, taken)
  | .answered => (.ok outcome, taken)

end Endpoint

/-! ### What posts leave -/

section Taken

variable {F : Type} {svc : EntrypointService F} {env : Surroundings F}

/-- The observation of a request. -/
structure Of (svc : EntrypointService F) (request : EntrypointCaptureRequest)
    (o : EntrypointObservation) : Prop where
  attackerKey : o.attackerKey = request.attackerKey
  surface : o.surface = request.surface
  assetId : o.assetId = request.assetId
  body : o.bodyPreview = redactBodyPreview svc.wide request.bodyPreview

/-- A request that is captured leaves its observation at the end. -/
theorem of_captureHttpRequest {call : CaptureCall} {request : EntrypointCaptureRequest}
    {s stored : Stores F} {response : EntrypointCaptureResponse F}
    (h : captureHttpRequest svc call request s = .ok (response, stored)) :
    Of svc request response.observation ∧
      stored.observations = s.observations ++ [response.observation] := by
  unfold captureHttpRequest at h
  obtain ⟨⟨binding, bindings⟩, -, h⟩ := Fallible.bind_eq_ok.mp h
  have hstore := Except.ok.inj h
  unfold store at hstore
  split at hstore
  · obtain ⟨rfl, rfl⟩ := Prod.mk.inj hstore
    exact ⟨⟨rfl, rfl, rfl, rfl⟩, rfl⟩
  · obtain ⟨rfl, rfl⟩ := Prod.mk.inj hstore
    exact ⟨⟨rfl, rfl, rfl, rfl⟩, rfl⟩

/-- What the endpoint does: it refuses what is no request, or fails, or captures. -/
theorem ingest_cases (call : CaptureCall) (event : Settings) (s : Stores F) :
    (captureRequest event = none ∧
        ingestEntrypointEvent svc call event s = (.rejected 422, none, s)) ∨
      (∃ request, captureRequest event = some request) ∧
        ingestEntrypointEvent svc call event s = (.rejected 500, none, s) ∨
      ∃ request o stored, captureRequest event = some request ∧ Of svc request o ∧
        stored.observations = s.observations ++ [o] ∧
        ingestEntrypointEvent svc call event s = (.answered 200, some o, stored) := by
  unfold ingestEntrypointEvent
  cases hrequest : captureRequest event with
  | none => exact Or.inl ⟨rfl, rfl⟩
  | some request =>
    dsimp only
    cases hcapture : captureHttpRequest svc call request s with
    | error e => exact Or.inr (Or.inl ⟨⟨request, rfl⟩, rfl⟩)
    | ok captured =>
      obtain ⟨response, stored⟩ := captured
      obtain ⟨hof, hstored⟩ := of_captureHttpRequest hcapture
      exact Or.inr (Or.inr ⟨request, response.observation, stored, rfl, hof, hstored, rfl⟩)

/-- **What posts have left**: at most one observation for a POST, in their order, of the request in
it, and one for each that is counted; none is taken from the stores. -/
structure Taken (svc : EntrypointService F) (posts : List Post) (k : Intake F) : Prop where
  order : (k.observed.map Prod.fst).Pairwise (· < ·)
  of : ∀ i o, (i, o) ∈ k.observed → ∃ p request, posts[i]? = some p ∧
    captureRequest p.event = some request ∧ Of svc request o
  counted : ∀ i p, posts[i]? = some p → p.counted = true → ∃ o, (i, o) ∈ k.observed
  refused : ∀ p ∈ posts, p.outcome.toOption = some (.rejected 422) → captureRequest p.event = none
  kept : (k.observed.map Prod.snd).Sublist k.stores.observations

theorem taken_init (stores : Stores F) : Taken svc [] ⟨stores, []⟩ where
  order := List.Pairwise.nil
  of _ _ h := absurd h List.not_mem_nil
  counted _ _ h := absurd h (by simp)
  refused _ h := absurd h List.not_mem_nil
  kept := List.nil_sublist _

variable {posts : List Post} {k : Intake F}

theorem Taken.number_lt (h : Taken svc posts k) {i : ℕ} (hi : i ∈ k.observed.map Prod.fst) :
    i < posts.length := by
  obtain ⟨⟨j, o⟩, hmem, rfl⟩ := List.mem_map.mp hi
  obtain ⟨p, request, hp, -⟩ := h.of j o hmem
  exact (List.getElem?_eq_some_iff.mp hp).1

/-- What is at a place of the posts when one has been added. -/
theorem getElem?_concat {α : Type} {xs : List α} {x y : α} {i : ℕ} :
    (xs ++ [x])[i]? = some y ↔ xs[i]? = some y ∨ i = xs.length ∧ x = y := by
  by_cases hlt : i < xs.length
  · rw [List.getElem?_append_left hlt, or_iff_left]
    intro h
    omega
  · rw [List.getElem?_append_right (by omega), List.getElem?_eq_none (by omega : xs.length ≤ i)]
    by_cases hi : i = xs.length
    · subst hi
      simp
    · have hsub : i - xs.length ≠ 0 := by omega
      simp [hi, hsub]

/-- A POST that leaves nothing. -/
theorem Taken.nothing (h : Taken svc posts k) {p : Post} {stores : Stores F}
    (hstores : k.stores.observations.Sublist stores.observations) (hcounted : p.counted = false)
    (hrefused : p.outcome.toOption = some (.rejected 422) → captureRequest p.event = none) :
    Taken svc (posts ++ [p]) { k with stores } where
  order := h.order
  of i o hmem := by
    obtain ⟨q, request, hq, hrequest⟩ := h.of i o hmem
    exact ⟨q, request, getElem?_concat.mpr (Or.inl hq), hrequest⟩
  counted i q hq hcount := by
    rcases getElem?_concat.mp hq with hq | ⟨-, rfl⟩
    · exact h.counted i q hq hcount
    · exact absurd (hcount.symm.trans hcounted) Bool.noConfusion
  refused q hq hout := by
    rcases List.mem_append.mp hq with hq | hq
    · exact h.refused q hq hout
    · obtain rfl := List.mem_singleton.mp hq
      exact hrefused hout
  kept := h.kept.trans hstores

/-- A POST that leaves an observation. -/
theorem Taken.one (h : Taken svc posts k) {p : Post} {stores : Stores F}
    {request : EntrypointCaptureRequest} {o : EntrypointObservation}
    (hstores : (k.stores.observations ++ [o]).Sublist stores.observations)
    (hrequest : captureRequest p.event = some request) (hof : Of svc request o)
    (hrefused : p.outcome.toOption ≠ some (.rejected 422)) :
    Taken svc (posts ++ [p]) ⟨stores, k.observed ++ [(posts.length, o)]⟩ where
  order := by
    rw [List.map_append, List.pairwise_append]
    refine ⟨h.order, List.pairwise_singleton _ _, ?_⟩
    intro i hi j hj
    rw [List.mem_singleton.mp hj]
    exact h.number_lt hi
  of i o' hmem := by
    rcases List.mem_append.mp hmem with hmem | hmem
    · obtain ⟨q, request', hq, hrequest'⟩ := h.of i o' hmem
      exact ⟨q, request', getElem?_concat.mpr (Or.inl hq), hrequest'⟩
    · obtain ⟨rfl, rfl⟩ := Prod.mk.inj (List.mem_singleton.mp hmem)
      exact ⟨p, request, getElem?_concat.mpr (Or.inr ⟨rfl, rfl⟩), hrequest, hof⟩
  counted i q hq hcount := by
    rcases getElem?_concat.mp hq with hq | ⟨rfl, -⟩
    · obtain ⟨o', ho'⟩ := h.counted i q hq hcount
      exact ⟨o', List.mem_append_left _ ho'⟩
    · exact ⟨o, List.mem_append_right _ (List.mem_singleton_self _)⟩
  refused q hq hout := by
    rcases List.mem_append.mp hq with hq | hq
    · exact h.refused q hq hout
    · obtain rfl := List.mem_singleton.mp hq
      exact absurd hout hrefused
  kept := by
    rw [List.map_append]
    exact (h.kept.append (List.Sublist.refl [o])).trans hstores

/-- **Every POST.** -/
theorem taken_serve (hadding : env.Adding) (event : Settings) (h : Taken svc posts k) :
    Taken svc (posts ++ [⟨event, (env.serve svc posts.length event k).1⟩])
      (env.serve svc posts.length event k).2 := by
  have hothers := hadding posts.length k.stores
  have hnil : k.observed ++ (none : Option EntrypointObservation).toList.map (posts.length, ·) =
      k.observed := List.append_nil _
  -- no refusal is read where the POST is lost, raises or has been answered otherwise
  have hlost : (Except.ok .unreachable : Except PyError PostOutcome).toOption ≠
      some (.rejected 422) := by decide
  have hunread (e : PyError) : (Except.error e : Except PyError PostOutcome).toOption ≠
      some (.rejected 422) := (Option.some_ne_none _).symm
  have hfailed : (Except.ok (.rejected 500) : Except PyError PostOutcome).toOption ≠
      some (.rejected 422) := by decide
  have hanswered : (Except.ok (.answered 200) : Except PyError PostOutcome).toOption ≠
      some (.rejected 422) := by decide
  unfold Surroundings.serve
  dsimp only
  obtain ⟨hnone, hingest⟩ | ⟨-, hingest⟩ | ⟨request, o, stored, hrequest, hof, hstored, hingest⟩ :=
    @ingest_cases F svc (env.call posts.length) event (env.others posts.length k.stores)
  · rw [hingest]
    dsimp only
    rw [hnil]
    cases env.passage posts.length with
    | lost => exact h.nothing hothers rfl fun _ => hnone
    | unread e => exact h.nothing hothers rfl fun _ => hnone
    | answered => exact h.nothing hothers rfl fun _ => hnone
  · rw [hingest]
    dsimp only
    rw [hnil]
    cases env.passage posts.length with
    | lost => exact h.nothing hothers rfl fun hout => absurd hout hlost
    | unread e => exact h.nothing hothers rfl fun hout => absurd hout (hunread e)
    | answered => exact h.nothing hothers rfl fun hout => absurd hout hfailed
  · have hadded : (k.stores.observations ++ [o]).Sublist stored.observations := by
      rw [hstored]
      exact hothers.append (List.Sublist.refl [o])
    rw [hingest]
    dsimp only
    cases env.passage posts.length with
    | lost => exact h.nothing hothers rfl fun hout => absurd hout hlost
    | unread e => exact h.one hadded hrequest hof (hunread e)
    | answered => exact h.one hadded hrequest hof hanswered

end Taken

end Honeynet.Entrypoint
