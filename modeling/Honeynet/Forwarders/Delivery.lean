import Honeynet.Forwarders.Follow

/-!
# What a follower hands over

Every line that is appended is handed over whole and once, as long as no read meets a line that is
not ended yet and no refresh leaves a file that has more to be read.

* `EveryTurn`: a condition on the states in which the loop takes its steps.
* `handed_pending_run`: what has been handed over and what is still to be read make up what was to
  be read and what was appended.
* `drained`: left alone, the loop reads all there is.
* `appends_delivered_iff`: without rotations, a read that meets a part of a line is the only way a
  line is not handed over whole.
-/

namespace Honeynet.Forwarders

open Lines

/-- A condition holds in each state of a run in which the loop takes a step. -/
def EveryTurn (opts : FollowOptions) (P : Tail → Prop) : Tail → List TailEvent → Prop
  | _, [] => True
  | s, e :: events => (e = .turn → P s) ∧ EveryTurn opts P (step opts s e) events

instance decidableEveryTurn (opts : FollowOptions) (P : Tail → Prop) [DecidablePred P] :
    ∀ s events, Decidable (EveryTurn opts P s events)
  | _, [] => isTrue trivial
  | s, e :: events =>
    have := decidableEveryTurn opts P (step opts s e) events
    inferInstanceAs (Decidable (_ ∧ _))

/-- A read meets the end of the file or the end of a line. -/
def WholeRead (s : Tail) : Prop :=
  s.follower.stage = .readline → available s = [] ∨ '\n' ∈ available s

/-- A refresh leaves no file that has more to be read. -/
def NothingBehind (s : Tail) : Prop := s.follower.stage = .refresh → behind s = []

instance (s : Tail) : Decidable (WholeRead s) := by unfold WholeRead; infer_instance

instance (s : Tail) : Decidable (NothingBehind s) := by unfold NothingBehind; infer_instance

/-- The log is rotated only once it is open. -/
def RotatesOpen (s : Tail) (events : List TailEvent) : Prop :=
  .rotate ∈ events → s.follower.currentLog ≠ none

/-- What a follower has handed over are lines. -/
def HandedLines (s : Tail) : Prop := ∀ l ∈ s.follower.handed, IsLine '\n' l

section Runs

variable {opts : FollowOptions} {P : Tail → Prop} {s : Tail} {e : TailEvent}
  {events later : List TailEvent}

theorem run_cons : run opts s (e :: events) = run opts (step opts s e) events := rfl

theorem run_append : run opts s (events ++ later) = run opts (run opts s events) later :=
  List.foldl_append

theorem appended_append (events later : List TailEvent) :
    appended (events ++ later) = appended events ++ appended later := by
  induction events with
  | nil => rfl
  | cons e events ih =>
    cases e with
    | append text => rw [List.cons_append, appended, appended, ih, List.append_assoc]
    | rotate => exact ih
    | turn => exact ih

theorem appended_polls (n : ℕ) : appended (polls n) = [] := by
  induction n with
  | zero => rfl
  | succ n ih => exact ih

theorem everyTurn_append : EveryTurn opts P s (events ++ later) ↔
    EveryTurn opts P s events ∧ EveryTurn opts P (run opts s events) later := by
  induction events generalizing s with
  | nil => exact ⟨fun h => ⟨trivial, h⟩, fun h => h.2⟩
  | cons e events ih =>
    rw [List.cons_append, EveryTurn, EveryTurn, ih, run_cons, and_assoc]

/-! ### What every run keeps -/

theorem step_opened (h : s.follower.currentLog ≠ none) (e : TailEvent) :
    (step opts s e).follower.currentLog ≠ none := by
  cases e with
  | append text => exact h
  | rotate => exact h
  | turn =>
    rw [step]
    fun_cases turn opts s <;> simp_all

theorem RotatesOpen.tail (h : RotatesOpen s (e :: events)) :
    RotatesOpen (step opts s e) events := fun hmem =>
  step_opened (h (List.mem_cons_of_mem e hmem)) e

/-- The first event of a run is a step as `step_effect` tells. -/
theorem head_effect (h : Tailing opts s) (hopen : RotatesOpen s (e :: events)) :
    Tailing opts (step opts s e) ∧ Effect opts s (step opts s e) e :=
  step_effect h e fun he => hopen (he ▸ List.mem_cons_self)

theorem tailing_run (h : Tailing opts s) (hopen : RotatesOpen s events) :
    Tailing opts (run opts s events) := by
  induction events generalizing s with
  | nil => exact h
  | cons e events ih => exact ih (head_effect h hopen).1 hopen.tail

/-- What is handed over is not taken back. -/
theorem Effect.handed_prefix {s' : Tail} (h : Effect opts s s' e) :
    s.follower.handed <+: s'.follower.handed := by
  rcases h.handed_eq with hhanded | ⟨_, _, _, hhanded⟩
  · exact ⟨[], (List.append_nil _).trans hhanded.symm⟩
  · exact ⟨_, hhanded.symm⟩

theorem handed_prefix_run (h : Tailing opts s) (hopen : RotatesOpen s events) :
    s.follower.handed <+: (run opts s events).follower.handed := by
  induction events generalizing s with
  | nil => exact List.prefix_rfl
  | cons e events ih =>
    obtain ⟨htailing, heffect⟩ := head_effect h hopen
    exact heffect.handed_prefix.trans (ih htailing hopen.tail)

/-- A follower that is not asked to stop at the end goes on. -/
theorem Effect.stage_ne_returned {s' : Tail} (h : Effect opts s s' e) (honce : opts.once = false)
    (hstage : s.follower.stage ≠ .returned) : s'.follower.stage ≠ .returned := by
  cases h with
  | appended text hstage' _ _ _ => rwa [hstage']
  | rotated hstage' _ _ _ => rwa [hstage']
  | refreshed _ hstage' _ _ _ _ =>
    rw [hstage']
    decide
  | read _ hstage' _ _ _ _ =>
    rw [hstage']
    decide
  | waited _ hstage' _ _ _ _ =>
    rw [hstage', honce]
    decide
  | idle hreturned _ => exact absurd hreturned hstage

theorem stage_ne_returned_run (h : Tailing opts s) (hopen : RotatesOpen s events)
    (honce : opts.once = false) (hstage : s.follower.stage ≠ .returned) :
    (run opts s events).follower.stage ≠ .returned := by
  induction events generalizing s with
  | nil => exact hstage
  | cons e events ih =>
    obtain ⟨htailing, heffect⟩ := head_effect h hopen
    exact ih htailing hopen.tail (heffect.stage_ne_returned honce hstage)

/-! ### What a run hands over -/

/-- A read that meets the end of a line hands over a line. -/
theorem Effect.handedLines {s' : Tail} (h : Effect opts s s' e) (hlines : HandedLines s)
    (hwhole : e = .turn → WholeRead s) : HandedLines s' := by
  intro l hl
  rcases h.handed_eq with hhanded | ⟨he, hstage, hne, hhanded⟩
  · exact hlines l (hhanded ▸ hl)
  · rw [hhanded] at hl
    rcases List.mem_append.mp hl with hl | hl
    · exact hlines l hl
    · rw [List.mem_singleton.mp hl]
      exact isLine_firstLine ((hwhole he hstage).resolve_left hne)

/-- **One step** that leaves nothing behind moves text from what is to be read to what is handed
over. -/
theorem handed_pending_step {s' : Tail} (h : Effect opts s s' e)
    (hbehind : e = .turn → NothingBehind s) : s'.follower.handed.flatten ++ pending s' =
      s.follower.handed.flatten ++ pending s ++ appended [e] := by
  cases h with
  | appended text _ hhanded hpending _ =>
    rw [hhanded, hpending, appended, appended, List.append_nil, List.append_assoc]
  | rotated _ hhanded hpending _ =>
    rw [hhanded, hpending]
    exact (List.append_nil _).symm
  | refreshed hstage _ hhanded hpending _ _ =>
    rw [hhanded, hpending, hbehind rfl hstage]
    exact (List.append_nil _).symm
  | read _ _ _ hhanded hpending _ =>
    rw [hhanded, hpending, List.flatten_append, List.flatten_singleton, List.append_assoc]
    exact (List.append_nil _).symm
  | waited _ _ _ hhanded hpending _ =>
    rw [hhanded, hpending]
    exact (List.append_nil _).symm
  | idle _ hsame =>
    rw [hsame]
    exact (List.append_nil _).symm

theorem handedLines_run (h : Tailing opts s) (hopen : RotatesOpen s events)
    (hlines : HandedLines s) (hwhole : EveryTurn opts WholeRead s events) :
    HandedLines (run opts s events) := by
  induction events generalizing s with
  | nil => exact hlines
  | cons e events ih =>
    obtain ⟨htailing, heffect⟩ := head_effect h hopen
    exact ih htailing hopen.tail (heffect.handedLines hlines hwhole.1) hwhole.2

/-- **What has been handed over and what is still to be read** make up what was to be read and what
was appended. -/
theorem handed_pending_run (h : Tailing opts s) (hopen : RotatesOpen s events)
    (hbehind : EveryTurn opts NothingBehind s events) :
    (run opts s events).follower.handed.flatten ++ pending (run opts s events) =
      s.follower.handed.flatten ++ pending s ++ appended events := by
  induction events generalizing s with
  | nil => exact (List.append_nil _).symm
  | cons e events ih =>
    obtain ⟨htailing, heffect⟩ := head_effect h hopen
    have happended : appended (e :: events) = appended [e] ++ appended events :=
      appended_append [e] events
    rw [run_cons, ih htailing hopen.tail hbehind.2, handed_pending_step heffect hbehind.1,
      happended, List.append_assoc _ (appended [e])]

/-- A follower that has handed over nothing but lines has met no part of a line. -/
theorem everyTurn_wholeRead (h : Tailing opts s) (hopen : RotatesOpen s events)
    (hlines : HandedLines (run opts s events)) : EveryTurn opts WholeRead s events := by
  induction events generalizing s with
  | nil => trivial
  | cons e events ih =>
    obtain ⟨htailing, heffect⟩ := head_effect h hopen
    refine ⟨fun he hstage => ?_, ih htailing hopen.tail hlines⟩
    by_contra hpart
    rw [not_or] at hpart
    subst he
    -- the read hands over the part of a line, which is then among the lines at the end
    obtain ⟨hempty, _⟩ | ⟨_, _, hread, _⟩ := heffect.of_readline hstage
    · exact hpart.1 hempty
    have hlast : firstLine '\n' (available s) ∈ (step opts s .turn).follower.handed := by
      rw [hread]
      exact List.mem_append_right _ (List.mem_singleton_self _)
    have hline := hlines _ ((handed_prefix_run htailing hopen.tail).subset hlast)
    rw [firstLine_of_not_mem hpart.2] at hline
    exact hpart.2 hline.mem

/-! ### A follower left alone -/

/-- **A follower left alone** that leaves nothing behind reads some of what there is. -/
theorem pending_shrinks (h : Tailing opts s) (hstage : s.follower.stage = .refresh)
    (hbehind : NothingBehind s) (hne : pending s ≠ []) :
    (run opts s (polls 2)).follower.stage = .refresh ∧
      (pending (run opts s (polls 2))).length < (pending s).length := by
  have hafter : run opts s (polls 2) = turn opts (turn opts s) := rfl
  obtain ⟨htailing, hrefresh⟩ := refresh_effect h hstage
  obtain ⟨hreadline, hpending, havailable⟩ := hrefresh.of_refresh hstage
  rw [hbehind hstage, List.nil_append] at hpending
  obtain ⟨_, hread⟩ := readline_effect htailing hreadline
  obtain ⟨hempty, _⟩ | ⟨hmore, hstage', _, hrest⟩ := hread.of_readline hreadline
  · exact absurd (hpending.trans (havailable.symm.trans hempty)) hne
  · have hline : 0 < (firstLine '\n' (available (turn opts s))).length :=
      List.length_pos_iff.mpr fun hnil => hmore (firstLine_eq_nil.mp hnil)
    rw [hafter, hpending, hrest, List.length_append]
    exact ⟨hstage', by omega⟩

theorem polls_add (n m : ℕ) : polls (n + m) = polls n ++ polls m :=
  List.replicate_add n m TailEvent.turn

theorem rotatesOpen_polls (s : Tail) (n : ℕ) : RotatesOpen s (polls n) := fun hmem =>
  absurd (List.eq_of_mem_replicate hmem) (by decide)

theorem everyTurn_polls_drop {n : ℕ} (h : ∀ m, EveryTurn opts P s (polls m)) :
    ∀ m, EveryTurn opts P (run opts s (polls n)) (polls m) := fun m =>
  (everyTurn_append.mp (polls_add n m ▸ h (n + m))).2

theorem drained_of_refresh (h : Tailing opts s) (hstage : s.follower.stage = .refresh)
    (hbehind : ∀ m, EveryTurn opts NothingBehind s (polls m)) :
    ∃ n, pending (run opts s (polls n)) = [] := by
  induction hlen : (pending s).length using Nat.strong_induction_on generalizing s with
  | _ len ih =>
    by_cases hne : pending s = []
    · exact ⟨0, hne⟩
    · obtain ⟨hstage', hless⟩ := pending_shrinks h hstage ((hbehind 1).1 rfl) hne
      obtain ⟨n, hn⟩ := ih _ (hlen ▸ hless) (tailing_run h (rotatesOpen_polls s 2)) hstage'
        (everyTurn_polls_drop hbehind) rfl
      exact ⟨2 + n, by rw [polls_add, run_append, hn]⟩

/-- **Left alone**, a follower that goes on and leaves nothing behind reads all there is. -/
theorem drained (h : Tailing opts s) (honce : opts.once = false)
    (hstage : s.follower.stage ≠ .returned)
    (hbehind : ∀ m, EveryTurn opts NothingBehind s (polls m)) :
    ∃ n, pending (run opts s (polls n)) = [] := by
  cases hreadline : s.follower.stage with
  | refresh => exact drained_of_refresh h hreadline hbehind
  | returned => exact absurd hreadline hstage
  | readline =>
    obtain ⟨htailing, hread⟩ := readline_effect h hreadline
    have hrefresh : (run opts s (polls 1)).follower.stage = .refresh := by
      obtain ⟨_, hstage'⟩ | ⟨_, hstage', _⟩ := hread.of_readline hreadline
      · rw [honce] at hstage'
        exact hstage'
      · exact hstage'
    obtain ⟨n, hn⟩ := drained_of_refresh (s := run opts s (polls 1)) htailing hrefresh
      (everyTurn_polls_drop hbehind)
    exact ⟨1 + n, by rw [polls_add, run_append, hn]⟩

/-- Where nothing is to be read, nothing is handed over. -/
theorem polls_of_drained (h : Tailing opts s) (hpending : pending s = []) (n : ℕ) :
    pending (run opts s (polls n)) = [] ∧
      (run opts s (polls n)).follower.handed = s.follower.handed := by
  induction n generalizing s with
  | zero => exact ⟨hpending, rfl⟩
  | succ n ih =>
    obtain ⟨htailing, heffect⟩ := head_effect h (rotatesOpen_polls s (n + 1))
    have hstep : pending (step opts s .turn) = [] ∧
        (step opts s .turn).follower.handed = s.follower.handed := by
      cases heffect with
      | refreshed _ _ hhanded hrest _ _ =>
        rw [hpending] at hrest
        exact ⟨(List.append_eq_nil_iff.mp hrest.symm).2, hhanded⟩
      | read _ _ hne _ hrest _ =>
        rw [hpending] at hrest
        exact absurd (firstLine_eq_nil.mp (List.append_eq_nil_iff.mp hrest.symm).1) hne
      | waited _ _ _ hhanded hsame _ => exact ⟨hsame.trans hpending, hhanded⟩
      | idle _ hsame => exact ⟨by rw [hsame, hpending], by rw [hsame]⟩
    obtain ⟨hrest, hhanded⟩ := ih htailing hstep.1
    exact ⟨hrest, hhanded.trans hstep.2⟩

/-- **A follower that has handed over nothing yet**, leaves nothing behind and meets no part of a
line, ends up having handed over the lines that were to be read and those that were appended. -/
theorem delivered (h : Tailing opts s) (hopen : RotatesOpen s events) (honce : opts.once = false)
    (hstage : s.follower.stage ≠ .returned) (hhanded : s.follower.handed = [])
    (hbehind : ∀ m, EveryTurn opts NothingBehind s (events ++ polls m))
    (hwhole : ∀ m, EveryTurn opts WholeRead s (events ++ polls m)) :
    ∃ n, ∀ m ≥ n, (run opts s (events ++ polls m)).follower.handed =
      linesOf '\n' (pending s ++ appended events) := by
  have hlines : HandedLines s := fun l hl => absurd (hhanded ▸ hl) List.not_mem_nil
  have htailing : Tailing opts (run opts s events) := tailing_run h hopen
  obtain ⟨n, hn⟩ := drained htailing honce (stage_ne_returned_run h hopen honce hstage)
    fun m => (everyTurn_append.mp (hbehind m)).2
  refine ⟨n, fun m hm => ?_⟩
  have hopen' : RotatesOpen s (events ++ polls m) := fun hmem =>
    (List.mem_append.mp hmem).elim hopen fun hpoll => rotatesOpen_polls s m hpoll
  have hdrained : pending (run opts s (events ++ polls m)) = [] := by
    obtain ⟨k, rfl⟩ := Nat.exists_eq_add_of_le hm
    rw [run_append, polls_add, run_append]
    exact (polls_of_drained (tailing_run htailing (rotatesOpen_polls _ n)) hn k).1
  have htext := handed_pending_run h hopen' (hbehind m)
  rw [hdrained, hhanded, List.append_nil, appended_append, appended_polls, List.append_nil,
    List.flatten_nil, List.nil_append] at htext
  rw [← htext, linesOf_flatten (handedLines_run h hopen' hlines (hwhole m))]

/-! ### A log that is not rotated -/

/-- The file that is open is the one at the path. -/
def AtPath (s : Tail) : Prop :=
  ∀ log, s.follower.currentLog = some log → log.identity = s.files.rotated.length

/-- The handle that a refresh leaves is of the file at the path. -/
theorem refreshLogHandle_identity (opts : FollowOptions) (fs : LogFiles)
    (currentLog : Option OpenLog) (initialOpen : Bool) :
    (refreshLogHandle opts fs currentLog initialOpen).identity = fs.rotated.length := by
  cases currentLog with
  | none => rfl
  | some log =>
    simp only [refreshLogHandle, apply_ite OpenLog.identity]
    split
    · rfl
    · next hkeep => exact not_not.mp (not_or.mp hkeep).1

theorem atPath_turn (h : AtPath s) : AtPath (turn opts s) := by
  fun_cases turn opts s with
  | case1 hstage files =>
    rintro log ⟨⟩
    exact refreshLogHandle_identity opts files _ _
  | case2 log hlog hstage line hline =>
    rintro log' ⟨⟩
    exact h log hlog
  | case3 log hlog hstage line hline => exact h
  | case4 hlog => exact h
  | case5 hstage => exact h

theorem atPath_run (h : AtPath s) (hrotate : .rotate ∉ events) : AtPath (run opts s events) := by
  induction events generalizing s with
  | nil => exact h
  | cons e events ih =>
    rw [List.mem_cons, not_or] at hrotate
    refine ih ?_ hrotate.2
    cases e with
    | append text => exact h
    | rotate => exact absurd rfl hrotate.1
    | turn => exact atPath_turn h

/-- At the path, nothing is left behind. -/
theorem AtPath.behind_eq (hpath : AtPath s) (h : Tailing opts s) : behind s = [] := by
  cases h with
  | placed log hlog h _ =>
    obtain ⟨text, htext⟩ := Option.isSome_iff_exists.mp h.present
    rw [behind, hlog]
    exact (unread_current log htext (hpath log hlog)).1
  | unopened hlog _ _ => rw [behind, hlog]

/-- At the path, a read meets all that is still to be read. -/
theorem AtPath.available_eq (hpath : AtPath s) (h : Tailing opts s)
    (hstage : s.follower.stage = .readline) : available s = pending s := by
  cases h with
  | placed log hlog h _ =>
    obtain ⟨text, htext⟩ := Option.isSome_iff_exists.mp h.present
    have hidentity := hpath log hlog
    rw [available, pending, hlog]
    simp only [(unread_current log htext hidentity).2, hidentity, content_current htext]
  | unopened _ _ hrefresh => exact absurd (hstage.symm.trans hrefresh) (by decide)

theorem everyTurn_nothingBehind (h : Tailing opts s) (hpath : AtPath s)
    (hrotate : .rotate ∉ events) : EveryTurn opts NothingBehind s events := by
  induction events generalizing s with
  | nil => trivial
  | cons e events ih =>
    have hhead : AtPath (run opts s [e]) := atPath_run hpath fun hmem =>
      hrotate (List.mem_cons.mpr (Or.inl (List.mem_singleton.mp hmem)))
    have hopen : RotatesOpen s (e :: events) := fun hmem => absurd hmem hrotate
    exact ⟨fun _ _ => hpath.behind_eq h, ih (head_effect h hopen).1 hhead fun hmem =>
      hrotate (List.mem_cons_of_mem e hmem)⟩

/-- A follower left alone with nothing but lines to be read meets no part of a line. -/
theorem everyTurn_wholeRead_polls (h : Tailing opts s) (hpath : AtPath s)
    (hpending : Whole '\n' (pending s)) (n : ℕ) : EveryTurn opts WholeRead s (polls n) := by
  induction n generalizing s with
  | zero => trivial
  | succ n ih =>
    obtain ⟨htailing, heffect⟩ := head_effect h (rotatesOpen_polls s (n + 1))
    refine ⟨fun _ hstage => ?_, ih htailing (atPath_turn hpath) ?_⟩
    · rw [hpath.available_eq h hstage]
      exact (em (pending s = [])).imp_right hpending.mem
    · cases heffect with
      | refreshed _ _ _ hrest _ _ =>
        rw [hpath.behind_eq h, List.nil_append] at hrest
        exact hrest ▸ hpending
      | read hstage _ _ _ hrest _ =>
        have hdrop := hpending.drop_firstLine
        rw [← hpath.available_eq h hstage] at hdrop hrest
        have heq := hrest.symm.trans (firstLine_append_drop '\n' (available s)).symm
        exact List.append_cancel_left heq ▸ hdrop
      | waited _ _ _ _ hsame _ => exact hsame ▸ hpending
      | idle _ hsame =>
        rw [hsame]
        exact hpending

end Runs

/-- **Lines that are appended to a log that is not rotated** are handed over whole and once, in
order, and nothing else is: exactly when no read meets a part of a line. -/
theorem appends_delivered_iff (opts : FollowOptions) (hstart : opts.fromStart = true)
    (files : LogFiles) (events : List TailEvent) (hrotate : .rotate ∉ events)
    (hwhole : Whole '\n' (files.current.getD [] ++ appended events)) :
    ((run opts { files } events).follower.handed <+:
        linesOf '\n' (files.current.getD [] ++ appended events) ∧
      (opts.once = false → ∃ n, ∀ m ≥ n, (run opts { files } (events ++ polls m)).follower.handed =
        linesOf '\n' (files.current.getD [] ++ appended events))) ↔
      EveryTurn opts WholeRead { files } events := by
  have htailing : Tailing opts { files } := .unopened rfl hstart rfl
  have hopen : RotatesOpen { files } events := fun hmem => absurd hmem hrotate
  have hpath : AtPath { files } := fun log hlog => absurd hlog (by simp)
  constructor
  · rintro ⟨hhanded, _⟩
    exact everyTurn_wholeRead htailing hopen fun l hl =>
      isLine_of_mem_linesOf (hhanded.subset hl)
  · intro hread
    have hlines : HandedLines (run opts { files } events) :=
      handedLines_run htailing hopen (fun l hl => absurd hl List.not_mem_nil) hread
    have htext : (run opts { files } events).follower.handed.flatten ++
        pending (run opts { files } events) = files.current.getD [] ++ appended events :=
      handed_pending_run htailing hopen (everyTurn_nothingBehind htailing hpath hrotate)
    refine ⟨?_, fun honce => ?_⟩
    · rw [← htext, linesOf_flatten_append hlines]
      exact List.prefix_append _ _
    · have hpending : Whole '\n' (pending (run opts { files } events)) :=
        Whole.of_flatten_append hlines (htext ▸ hwhole)
      have hpolls : ∀ m, .rotate ∉ events ++ polls m := fun m hmem =>
        (List.mem_append.mp hmem).elim hrotate fun hpoll =>
          absurd (List.eq_of_mem_replicate hpoll) (by decide)
      exact delivered htailing hopen honce (fun hstage => Stage.noConfusion hstage) rfl
        (fun m => everyTurn_nothingBehind htailing hpath (hpolls m))
        fun m => everyTurn_append.mpr ⟨hread, everyTurn_wholeRead_polls
          (tailing_run htailing hopen) (atPath_run hpath hrotate) hpending m⟩

/-- A line that is written before it is read is handed over. -/
theorem appends_delivered_line : ∃ n, ∀ m ≥ n,
    (run ⟨true, false, fun _ => 1⟩ { files := { current := none } }
      ([.append ['a', '\n'], .turn, .turn] ++ polls m)).follower.handed = [['a', '\n']] :=
  ((appends_delivered_iff ⟨true, false, fun _ => 1⟩ rfl { current := none }
    [.append ['a', '\n'], .turn, .turn] (by decide)
    ⟨[['a', '\n']], fun l hl => ⟨['a'], by decide, List.mem_singleton.mp hl⟩, rfl⟩).mpr
    (by decide)).2 rfl

/-- A read between the two writes of a line hands over its first half. -/
theorem partial_line_handed :
    Whole '\n' (appended [.append ['a'], .turn, .turn, .append ['b', '\n']]) ∧
    ¬ (run ⟨true, false, fun _ => 1⟩ { files := { current := none } }
      [.append ['a'], .turn, .turn, .append ['b', '\n']]).follower.handed <+:
        linesOf '\n' (appended [.append ['a'], .turn, .turn, .append ['b', '\n']]) := by
  refine ⟨⟨[['a', 'b', '\n']], fun l hl => ?_, rfl⟩, by decide⟩
  exact ⟨['a', 'b'], by decide, List.mem_singleton.mp hl⟩

end Honeynet.Forwarders
