import Honeynet.Common.Value
import Honeynet.Forwarders.Rotation
import Honeynet.Lib.Text

/-!
# What is posted of the lines

A forwarder posts each JSON object that it reads, and goes on whatever is answered.  It ends with
the first exception that is not one of an HTTP status or of a host that is not reached.

* `iterJsonObject`, `forwardEvents`, `forwardLines`: a line, the events of it, and what is posted.
* `postTo`: a POST to a server.
* `forwardLines_sent`: each event is posted once, in order, up to one that raises.
* `forwardLines_keeps`: what every POST keeps.
* `handed_of_appends`: what is appended line by line is handed over line by line.
-/

namespace Honeynet.Forwarders

open Collections Lines Text

/-! ### Lines and posts -/

/-- What comes of a POST: an answer, an error status, or nothing. -/
inductive PostOutcome
  | answered (status : ℕ)
  | rejected (code : ℕ)
  | unreachable
  deriving DecidableEq

def PostOutcome.succeeded : PostOutcome → Bool
  | answered status => 200 ≤ status && status < 300
  | _ => false

/-- The object in a line; what is no JSON text and what is no object is skipped.  `loads` is
`json.loads`. -/
def iterJsonObject (loads : List Char → Except PyError Value) (line : List Char) :
    Except PyError (Option Settings) :=
  let stripped := strip line
  if stripped = [] then .ok none
  else
    match loads stripped with
    | .ok (.dict item) => .ok (some item)
    | .ok _ => .ok none
    | .error e => if e.kind = .valueError then .ok none else .error e

section Forward

variable {σ : Type} (post : Settings → σ → Except PyError PostOutcome × σ)

/-- Post the events and count the answers of success; a POST leaves something behind also where it
raises. -/
def forwardEvents (forwarded : ℕ) : List Settings → σ → Except PyError ℕ × σ
  | [], s => (.ok forwarded, s)
  | event :: events, s =>
    match post event s with
    | (.error e, s) => (.error e, s)
    | (.ok outcome, s) =>
      forwardEvents (forwarded + if outcome.succeeded then 1 else 0) events s

/-- The lines of a follower, one by one. -/
def forwardLines (loads : List Char → Except PyError Value) (forwarded : ℕ) :
    List (List Char) → σ → Except PyError ℕ × σ
  | [], s => (.ok forwarded, s)
  | line :: lines, s =>
    match iterJsonObject loads line with
    | .error e => (.error e, s)
    | .ok event =>
      match forwardEvents post forwarded event.toList s with
      | (.error e, s) => (.error e, s)
      | (.ok forwarded, s) => forwardLines loads forwarded lines s

end Forward

/-! ### A server -/

/-- A POST that was made, and what has come of it. -/
structure Post where
  event : Settings
  outcome : Except PyError PostOutcome

/-- It is counted. -/
def Post.counted (p : Post) : Bool := p.outcome.toOption.elim false PostOutcome.succeeded

/-- The posts that were made, and what they have left behind. -/
structure Posts (σ : Type) where
  posts : List Post := []
  server : σ

/-- `serve` says what comes of the posts, one by one. -/
def postTo {σ : Type} (serve : ℕ → Settings → σ → Except PyError PostOutcome × σ)
    (event : Settings) (s : Posts σ) : Except PyError PostOutcome × Posts σ :=
  let served := serve s.posts.length event s.server
  (served.1, ⟨s.posts ++ [⟨event, served.1⟩], served.2⟩)

/-! ### Every event once -/

/-- **These events have been posted**, each once and in order, all of them unless one has raised,
and the successes have been counted. -/
structure Sent (events : List Settings) (forwarded : ℕ) (made : List Post)
    (returned : Except PyError ℕ) : Prop where
  order : made.map Post.event <+: events
  ended : (∀ p ∈ made, p.outcome.isOk = true) → ∃ n, returned = .ok n
  counted : ∀ n, returned = .ok n →
    made.map Post.event = events ∧ n = forwarded + made.countP Post.counted

section Sent

variable {σ : Type} {serve : ℕ → Settings → σ → Except PyError PostOutcome × σ}
  {loads : List Char → Except PyError Value}

theorem forwardEvents_went {event : Settings} {events : List Settings} {forwarded : ℕ}
    {s : Posts σ} {outcome : PostOutcome} {server : σ}
    (h : serve s.posts.length event s.server = (.ok outcome, server)) :
    forwardEvents (postTo serve) forwarded (event :: events) s =
      forwardEvents (postTo serve) (forwarded + if outcome.succeeded then 1 else 0) events
        ⟨s.posts ++ [⟨event, .ok outcome⟩], server⟩ := by
  rw [forwardEvents]
  unfold postTo
  rw [h]

theorem forwardEvents_raised {event : Settings} {events : List Settings} {forwarded : ℕ}
    {s : Posts σ} {e : PyError} {server : σ}
    (h : serve s.posts.length event s.server = (.error e, server)) :
    forwardEvents (postTo serve) forwarded (event :: events) s =
      (.error e, ⟨s.posts ++ [⟨event, .error e⟩], server⟩) := by
  rw [forwardEvents]
  unfold postTo
  rw [h]

theorem forwardEvents_sent (events : List Settings) (forwarded : ℕ) (s : Posts σ) :
    ∃ made, (forwardEvents (postTo serve) forwarded events s).2.posts = s.posts ++ made ∧
      Sent events forwarded made (forwardEvents (postTo serve) forwarded events s).1 := by
  induction events generalizing forwarded s with
  | nil =>
    refine ⟨[], (List.append_nil _).symm, List.prefix_rfl, fun _ => ⟨forwarded, rfl⟩, ?_⟩
    intro n hn
    exact ⟨rfl, (Except.ok.inj hn).symm⟩
  | cons event events ih =>
    cases hserve : serve s.posts.length event s.server with
    | mk outcome server =>
    cases outcome with
    | error e =>
      rw [forwardEvents_raised hserve]
      refine ⟨[⟨event, .error e⟩], rfl, ⟨events, rfl⟩, ?_, ?_⟩
      · intro hok
        exact absurd (hok _ List.mem_cons_self) Bool.false_ne_true
      · intro n hn
        exact absurd hn (by simp)
    | ok outcome =>
      rw [forwardEvents_went hserve]
      obtain ⟨made, hposts, hsent⟩ := ih (forwarded + if outcome.succeeded then 1 else 0)
        ⟨s.posts ++ [⟨event, .ok outcome⟩], server⟩
      refine ⟨⟨event, .ok outcome⟩ :: made, ?_, ?_, ?_, ?_⟩
      · rw [hposts, List.append_assoc, List.singleton_append]
      · exact (List.prefix_cons_inj event).mpr hsent.order
      · intro hok
        exact hsent.ended fun p hp => hok p (List.mem_cons_of_mem _ hp)
      · intro n hn
        obtain ⟨hevents, hcount⟩ := hsent.counted n hn
        refine ⟨congrArg (event :: ·) hevents, ?_⟩
        rw [hcount, List.countP_cons, Nat.add_assoc, Nat.add_comm (List.countP _ _)]
        rfl

/-- **Each object that is read is posted once**, whatever comes of it, up to one that raises. -/
theorem forwardLines_sent {lines : List (List Char)} {events : List (Option Settings)}
    (h : List.Forall₂ (fun line event => iterJsonObject loads line = .ok event) lines events)
    (forwarded : ℕ) (s : Posts σ) :
    ∃ made, (forwardLines (postTo serve) loads forwarded lines s).2.posts = s.posts ++ made ∧
      Sent (events.filterMap id) forwarded made
        (forwardLines (postTo serve) loads forwarded lines s).1 := by
  induction h generalizing forwarded s with
  | nil =>
    refine ⟨[], (List.append_nil _).symm, List.prefix_rfl, fun _ => ⟨forwarded, rfl⟩, ?_⟩
    intro n hn
    exact ⟨rfl, (Except.ok.inj hn).symm⟩
  | @cons line event lines events hline hrest ih =>
    have hevents : (event :: events).filterMap id = event.toList ++ events.filterMap id := by
      cases event <;> rfl
    rw [hevents, forwardLines, hline]
    dsimp only
    obtain ⟨made, hposts, hsent⟩ := @forwardEvents_sent σ serve event.toList forwarded s
    cases hforward : forwardEvents (postTo serve) forwarded event.toList s with
    | mk returned t =>
    rw [hforward] at hposts hsent
    cases returned with
    | error e =>
      refine ⟨made, hposts, hsent.order.trans (List.prefix_append _ _), ?_, ?_⟩
      · intro hok
        obtain ⟨n, hn⟩ := hsent.ended hok
        exact absurd hn (by simp)
      · intro n hn
        exact absurd hn (by simp)
    | ok count =>
      obtain ⟨hfirst, hcount⟩ := hsent.counted count rfl
      obtain ⟨more, hmore, hrest⟩ := ih count t
      refine ⟨made ++ more, ?_, ?_, ?_, ?_⟩
      · rw [hmore, hposts, List.append_assoc]
      · rw [List.map_append, hfirst]
        exact (List.prefix_append_right_inj _).mpr hrest.order
      · intro hok
        exact hrest.ended fun p hp => hok p (List.mem_append_right made hp)
      · intro n hn
        obtain ⟨hevents', htotal⟩ := hrest.counted n hn
        rw [List.map_append, hfirst, hevents', htotal, hcount, List.countP_append, Nat.add_assoc]
        exact ⟨rfl, rfl⟩

/-- **What every POST keeps**, the forwarder keeps. -/
theorem forwardEvents_keeps {P : List Post → σ → Prop}
    (hserve : ∀ posts event server, P posts server →
      P (posts ++ [⟨event, (serve posts.length event server).1⟩])
        (serve posts.length event server).2)
    (events : List Settings) (forwarded : ℕ) {s : Posts σ} (hs : P s.posts s.server) :
    P (forwardEvents (postTo serve) forwarded events s).2.posts
      (forwardEvents (postTo serve) forwarded events s).2.server := by
  induction events generalizing forwarded s with
  | nil => exact hs
  | cons event events ih =>
    have hstep := hserve s.posts event s.server hs
    cases h : serve s.posts.length event s.server with
    | mk outcome server =>
    rw [h] at hstep
    cases outcome with
    | error e =>
      rw [forwardEvents_raised h]
      exact hstep
    | ok outcome =>
      rw [forwardEvents_went h]
      exact ih _ hstep

theorem forwardLines_keeps {P : List Post → σ → Prop}
    (hserve : ∀ posts event server, P posts server →
      P (posts ++ [⟨event, (serve posts.length event server).1⟩])
        (serve posts.length event server).2)
    (lines : List (List Char)) (forwarded : ℕ) {s : Posts σ} (hs : P s.posts s.server) :
    P (forwardLines (postTo serve) loads forwarded lines s).2.posts
      (forwardLines (postTo serve) loads forwarded lines s).2.server := by
  induction lines generalizing forwarded s with
  | nil => exact hs
  | cons line lines ih =>
    rw [forwardLines]
    cases iterJsonObject loads line with
    | error e => exact hs
    | ok event =>
      have hevents := forwardEvents_keeps hserve event.toList forwarded hs
      dsimp only
      cases hforward : forwardEvents (postTo serve) forwarded event.toList s with
      | mk returned t =>
      rw [hforward] at hevents
      cases returned with
      | error e => exact hevents
      | ok count => exact ih count hevents

end Sent

/-! ### What a follower hands over -/

/-- The texts that are appended in a run, one by one. -/
def appends : List TailEvent → List (List Char)
  | [] => []
  | .append text :: events => text :: appends events
  | _ :: events => appends events

theorem appended_eq (events : List TailEvent) : appended events = (appends events).flatten := by
  induction events with
  | nil => rfl
  | cons e events ih =>
    cases e with
    | append text =>
      show text ++ appended events = (text :: appends events).flatten
      rw [ih, List.flatten_cons]
    | rotate => exact ih
    | turn => exact ih

theorem mem_appends {events : List TailEvent} {text : List Char} (h : .append text ∈ events) :
    text ∈ appends events := by
  induction events with
  | nil => exact absurd h List.not_mem_nil
  | cons e events ih =>
    cases e with
    | append other =>
      rcases List.mem_cons.mp h with heq | h
      · rw [TailEvent.append.inj heq]
        exact List.mem_cons_self
      · exact List.mem_cons_of_mem _ (ih h)
    | rotate => exact ih (List.mem_of_ne_of_mem TailEvent.noConfusion h)
    | turn => exact ih (List.mem_of_ne_of_mem TailEvent.noConfusion h)

/-- **What is appended line by line is handed over line by line**, wherever the reads of the
follower fall, and all of it in the end. -/
theorem handed_of_appends {opts : FollowOptions} (honce : opts.once = false)
    (hstart : opts.fromStart = true) {events : List TailEvent} (hrotate : .rotate ∉ events)
    (hlines : ∀ text ∈ appends events, IsLine '\n' text) :
    (run opts { files := { current := none } } events).follower.handed <+: appends events ∧
      ∃ n, ∀ m ≥ n,
        (run opts { files := { current := none } } (events ++ polls m)).follower.handed =
          appends events := by
  have htailing : Tailing opts { files := { current := none } } := .unopened rfl hstart rfl
  have hpath : AtPath { files := { current := none } } := fun log hlog => absurd hlog (by simp)
  have haligned : Aligned { files := { current := none } } :=
    ⟨fun text htext => absurd htext List.not_mem_nil, .nil⟩
  have hwhole : WholeAppends events := by
    intro text htext
    obtain ⟨body, -, rfl⟩ := hlines text (mem_appends htext)
    exact .concat body
  have hnone {later : List TailEvent} (hlater : .rotate ∉ later) :
      RotatesOpen { files := { current := none } } later := fun hmem => absurd hmem hlater
  have hpolls : ∀ m, .rotate ∉ events ++ polls m := fun m hmem =>
    (List.mem_append.mp hmem).elim hrotate fun hpoll =>
      absurd (List.eq_of_mem_replicate hpoll) (by decide)
  have hread : linesOf '\n' (appended events) = appends events := by
    rw [appended_eq, linesOf_flatten hlines]
  constructor
  · have hhanded : HandedLines (run opts { files := { current := none } } events) :=
      handedLines_run htailing (hnone hrotate) (fun l hl => absurd hl List.not_mem_nil)
        (everyTurn_wholeRead_of_aligned htailing (hnone hrotate) hwhole haligned)
    have htext := handed_pending_run htailing (hnone hrotate)
      (everyTurn_nothingBehind htailing hpath hrotate)
    have hbegins := linesOf_flatten_append hhanded
      (pending (run opts { files := { current := none } } events))
    rw [htext] at hbegins
    rw [← hread]
    exact ⟨_, hbegins.symm⟩
  · obtain ⟨n, hn⟩ := delivered htailing (hnone hrotate) honce (fun h => Stage.noConfusion h) rfl
      (fun m => everyTurn_nothingBehind htailing hpath (hpolls m))
      fun m => everyTurn_wholeRead_of_aligned htailing (hnone (hpolls m)) (hwhole.polls m) haligned
    refine ⟨n, fun m hm => ?_⟩
    rw [← hread]
    exact hn m hm

end Honeynet.Forwarders
