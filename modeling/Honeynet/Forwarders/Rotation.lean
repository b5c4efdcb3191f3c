import Honeynet.Forwarders.Delivery

/-!
# Rotation

The handle of a file that has been rotated away is closed at the next refresh, read to its end or
not.

* `Aligned`: writers that only write lines leave a follower at the beginning of one.
* `weight`: the lines that are handed over or to be read, of which a refresh takes away those that
  are left behind.
* `rotations_delivered_iff`: a refresh that leaves lines behind is the only way lines are lost.
-/

namespace Honeynet.Forwarders

open Lines

/-- All that has been written, and what is to be read of the open file, are lines. -/
structure Aligned (s : Tail) : Prop where
  whole_files : ∀ text ∈ s.files.all, Whole '\n' text
  whole_available : Whole '\n' (available s)

/-- Writers only append lines. -/
def WholeAppends (events : List TailEvent) : Prop :=
  ∀ text, .append text ∈ events → Whole '\n' text

/-- The lines that have been handed over or are to be read. -/
def weight (s : Tail) : ℕ := s.follower.handed.length + (pending s).count '\n'

section Runs

variable {opts : FollowOptions} {s : Tail} {e : TailEvent} {events : List TailEvent}

theorem WholeAppends.head (h : WholeAppends (e :: events)) : WholeAppends [e] := fun text htext =>
  h text (List.mem_singleton.mp htext ▸ List.mem_cons_self)

theorem WholeAppends.tail (h : WholeAppends (e :: events)) : WholeAppends events :=
  fun text htext => h text (List.mem_cons_of_mem e htext)

theorem WholeAppends.polls (h : WholeAppends events) (n : ℕ) :
    WholeAppends (events ++ polls n) := fun text htext =>
  (List.mem_append.mp htext).elim (h text) fun hpoll =>
    absurd (List.eq_of_mem_replicate hpoll) (by simp)

/-! ### Whole lines -/

theorem WholeAppends.whole_appended (h : WholeAppends events) : Whole '\n' (appended events) := by
  induction events with
  | nil => exact .nil
  | cons e events ih =>
    cases e with
    | append text => exact (h text List.mem_cons_self).append (ih h.tail)
    | rotate => exact ih h.tail
    | turn => exact ih h.tail

theorem whole_current {fs : LogFiles} (h : ∀ text ∈ fs.all, Whole '\n' text) :
    Whole '\n' (fs.current.getD []) := by
  cases hcurrent : fs.current with
  | none => exact .nil
  | some text =>
    refine h text ?_
    rw [all_eq hcurrent]
    exact List.mem_append_right _ (List.mem_singleton_self text)

theorem turn_files (opts : FollowOptions) (s : Tail) :
    (turn opts s).files = s.files ∨ (turn opts s).files = ensureLogFile s.files := by
  fun_cases turn opts s with
  | case1 hstage files => exact Or.inr rfl
  | case2 log hlog hstage line hline => exact Or.inl rfl
  | case3 log hlog hstage line hline => exact Or.inl rfl
  | case4 hlog => exact Or.inl rfl
  | case5 hstage => exact Or.inl rfl

theorem whole_files_step (opts : FollowOptions) (h : ∀ text ∈ s.files.all, Whole '\n' text)
    (hwhole : WholeAppends [e]) : ∀ text ∈ (step opts s e).files.all, Whole '\n' text := by
  have hlast : ∀ more, Whole '\n' more →
      ∀ text ∈ s.files.rotated ++ [s.files.current.getD [] ++ more], Whole '\n' text := by
    intro more hmore text htext
    rcases List.mem_append.mp htext with hrotated | hcurrent
    · exact h text (List.mem_append_left _ hrotated)
    · rw [List.mem_singleton.mp hcurrent]
      exact (whole_current h).append hmore
  cases e with
  | append more => exact hlast more (hwhole more (List.mem_singleton_self _))
  | rotate =>
    intro text htext
    rcases List.mem_append.mp htext with hold | hnew
    · exact h text hold
    · rw [List.mem_singleton.mp hnew]
      exact .nil
  | turn =>
    rcases turn_files opts s with hsame | hensured
    · rwa [step, hsame]
    · rw [step, hensured]
      have hempty := hlast [] .nil
      rwa [List.append_nil] at hempty

/-- **Writers that only append lines** leave a follower at the beginning of one. -/
theorem aligned_step (h : Tailing opts s) (hopen : RotatesOpen s [e]) (hwhole : WholeAppends [e])
    (haligned : Aligned s) : Aligned (step opts s e) := by
  have hfiles := whole_files_step opts haligned.whole_files hwhole
  refine ⟨hfiles, ?_⟩
  obtain ⟨_, heffect⟩ := head_effect h hopen
  cases heffect with
  | appended text _ _ _ havailable =>
    rcases havailable with hsame | hmore
    · exact hsame ▸ haligned.whole_available
    · rw [hmore]
      exact haligned.whole_available.append (hwhole text (List.mem_singleton_self _))
  | rotated _ _ _ havailable => exact havailable ▸ haligned.whole_available
  | refreshed _ _ _ _ _ hsource =>
    rcases hsource with hsame | hfile
    · exact hsame ▸ haligned.whole_available
    · exact hfiles _ hfile
  | read _ _ _ _ _ havailable =>
    rw [havailable]
    exact haligned.whole_available.drop_firstLine
  | waited _ _ _ _ _ havailable => exact havailable ▸ haligned.whole_available
  | idle _ hsame =>
    rw [hsame]
    exact haligned.whole_available

theorem Aligned.wholeRead (h : Aligned s) : WholeRead s := fun _ =>
  (em (available s = [])).imp_right h.whole_available.mem

theorem everyTurn_wholeRead_of_aligned (h : Tailing opts s) (hopen : RotatesOpen s events)
    (hwhole : WholeAppends events) (haligned : Aligned s) :
    EveryTurn opts WholeRead s events := by
  induction events generalizing s with
  | nil => trivial
  | cons e events ih =>
    have hhead : RotatesOpen s [e] := fun hmem =>
      hopen (List.mem_singleton.mp hmem ▸ List.mem_cons_self)
    exact ⟨fun _ => haligned.wholeRead, ih (head_effect h hopen).1 hopen.tail hwhole.tail
      (aligned_step h hhead hwhole.head haligned)⟩

/-- What is left behind are lines. -/
theorem whole_behind (haligned : Aligned s) (h : Tailing opts s) : Whole '\n' (behind s) := by
  cases h with
  | placed log hlog h _ =>
    obtain ⟨text, htext⟩ := Option.isSome_iff_exists.mp h.present
    have hbehind : behind s = unread s.files.rotated log := by rw [behind, hlog]
    by_cases hidentity : log.identity = s.files.rotated.length
    · rw [hbehind, (unread_current log htext hidentity).1]
      exact .nil
    · have havailable : available s = (s.files.content log.identity).drop log.position := by
        rw [available, hlog]
      rw [hbehind, h.unread_rotated_eq hidentity, ← havailable]
      refine haligned.whole_available.append (.flatten fun file hfile =>
        haligned.whole_files file (List.mem_append_left _ (List.mem_of_mem_drop hfile)))
  | unopened hlog _ _ =>
    rw [behind, hlog]
    exact .nil

/-! ### What a refresh takes away -/

/-- **One step** adds what is appended, less the lines that a refresh leaves behind. -/
theorem weight_step (h : Tailing opts s) (haligned : Aligned s)
    (heffect : Effect opts s (step opts s e) e) :
    weight (step opts s e) ≤ weight s + (appended [e]).count '\n' ∧
      (weight s + (appended [e]).count '\n' ≤ weight (step opts s e) →
        e = .turn → NothingBehind s) := by
  cases heffect with
  | appended text _ hhanded hpending _ =>
    have happended : appended [.append text] = text := List.append_nil text
    rw [weight, weight, hhanded, hpending, List.count_append, happended]
    exact ⟨by omega, fun _ he => absurd he (by simp)⟩
  | rotated _ hhanded hpending _ =>
    rw [weight, weight, hhanded, hpending]
    exact ⟨Nat.le_add_right _ _, fun _ he => absurd he (by decide)⟩
  | refreshed _ _ hhanded hpending _ _ =>
    rw [weight, weight, hhanded, hpending, List.count_append]
    refine ⟨by omega, fun hle _ _ => ?_⟩
    by_contra hlost
    have hline : 0 < (behind s).count '\n' :=
      List.count_pos_iff.mpr ((whole_behind haligned h).mem hlost)
    omega
  | read hstage _ hne hhanded hpending _ =>
    have hline : IsLine '\n' (firstLine '\n' (available s)) :=
      isLine_firstLine (haligned.whole_available.mem hne)
    rw [weight, weight, hhanded, hpending, List.count_append, hline.count, List.length_append,
      List.length_singleton]
    exact ⟨by omega, fun _ _ hrefresh => absurd (hstage.symm.trans hrefresh) (by decide)⟩
  | waited hstage _ _ hhanded hpending _ =>
    rw [weight, weight, hhanded, hpending]
    exact ⟨Nat.le_add_right _ _, fun _ _ hrefresh =>
      absurd (hstage.symm.trans hrefresh) (by decide)⟩
  | idle hstage hsame =>
    rw [hsame]
    exact ⟨Nat.le_add_right _ _, fun _ _ hrefresh =>
      absurd (hstage.symm.trans hrefresh) (by decide)⟩

/-- **A run** in which no line is lost leaves nothing behind. -/
theorem weight_run (h : Tailing opts s) (hopen : RotatesOpen s events)
    (hwhole : WholeAppends events) (haligned : Aligned s) :
    weight (run opts s events) ≤ weight s + (appended events).count '\n' ∧
      (weight s + (appended events).count '\n' ≤ weight (run opts s events) →
        EveryTurn opts NothingBehind s events) := by
  induction events generalizing s with
  | nil => exact ⟨Nat.le_add_right _ _, fun _ => trivial⟩
  | cons e events ih =>
    have hhead : RotatesOpen s [e] := fun hmem =>
      hopen (List.mem_singleton.mp hmem ▸ List.mem_cons_self)
    obtain ⟨htailing, heffect⟩ := head_effect h hopen
    obtain ⟨hstep, hturn⟩ := weight_step h haligned heffect
    obtain ⟨hrun, hevery⟩ := ih htailing hopen.tail hwhole.tail
      (aligned_step h hhead hwhole.head haligned)
    have happended : appended (e :: events) = appended [e] ++ appended events :=
      appended_append [e] events
    rw [run_cons, happended, List.count_append]
    refine ⟨by omega, fun hle => ⟨hturn (by omega), hevery (by omega)⟩⟩

/-! ### Following from its start -/

/-- What is to be read when following starts. -/
def toFollow (opts : FollowOptions) (files : LogFiles) : List Char :=
  if opts.fromStart then files.current.getD [] else []

/-- The state in which a log has just been opened. -/
theorem following_start (opts : FollowOptions) (files : LogFiles) :
    Tailing opts (turn opts { files }) ∧ (turn opts { files }).follower.currentLog ≠ none ∧
      available (turn opts { files }) = toFollow opts files ∧
      pending (turn opts { files }) = toFollow opts files := by
  have htext : (ensureLogFile files).current = some (files.current.getD []) := rfl
  have hcontent : (ensureLogFile files).content files.rotated.length = files.current.getD [] :=
    content_current htext
  have hopened : (turn opts { files }).follower.currentLog = some ⟨files.rotated.length,
      if opts.fromStart then 0 else (files.current.getD []).length⟩ := by
    rw [← hcontent]
    cases hstart : opts.fromStart <;> simp [turn, refreshLogHandle, hstart, ensureLogFile]
  have hfollow : (files.current.getD []).drop
      (if opts.fromStart then 0 else (files.current.getD []).length) = toFollow opts files := by
    rw [toFollow]
    split
    · exact List.drop_zero
    · exact List.drop_length
  refine ⟨.placed _ hopened ⟨rfl, le_refl _, ?_⟩ rfl, by simp [hopened], ?_, ?_⟩
  · have hfile : (turn opts { files }).files.content files.rotated.length =
        files.current.getD [] := hcontent
    simp only [hfile]
    split
    · exact Nat.zero_le _
    · exact le_refl _
  · rw [available, hopened]
    exact (congrArg _ hcontent).trans hfollow
  · rw [pending, hopened]
    exact (unread_current _ htext rfl).2.trans hfollow

theorem whole_toFollow (opts : FollowOptions) {files : LogFiles}
    (h : ∀ text ∈ files.all, Whole '\n' text) : Whole '\n' (toFollow opts files) := by
  rw [toFollow]
  split
  · exact whole_current h
  · exact .nil

theorem aligned_start {files : LogFiles} (h : ∀ text ∈ files.all, Whole '\n' text) :
    Aligned (turn opts { files }) := by
  refine ⟨whole_files_step (s := { files }) (e := .turn) opts h fun text htext => ?_, ?_⟩
  · exact absurd (List.mem_singleton.mp htext) (by simp)
  · rw [(following_start opts files).2.2.1]
    exact whole_toFollow opts h

end Runs

/-- **Lines that are appended to a log that is rotated** are handed over once each, with those that
were to be read when following started: exactly when no refresh leaves a file that has more to be
read. -/
theorem rotations_delivered_iff (opts : FollowOptions) (honce : opts.once = false)
    (files : LogFiles) (hfiles : ∀ text ∈ files.all, Whole '\n' text) (events : List TailEvent)
    (hwhole : WholeAppends events) :
    (∃ n, ∀ m ≥ n, (run opts (turn opts { files }) (events ++ polls m)).follower.handed.Perm
      (linesOf '\n' (toFollow opts files ++ appended events))) ↔
    ∀ m, EveryTurn opts NothingBehind (turn opts { files }) (events ++ polls m) := by
  obtain ⟨htailing, hopened, _, hpending⟩ := following_start opts files
  have haligned : Aligned (turn opts { files }) := aligned_start hfiles
  have hopen : ∀ later, RotatesOpen (turn opts { files }) later := fun _ _ => hopened
  constructor
  · rintro ⟨n, hdelivered⟩ m
    have hperm := hdelivered (m + n) (Nat.le_add_left n m)
    have hlater : WholeAppends (events ++ polls (m + n)) := hwhole.polls _
    have htext : Whole '\n' (toFollow opts files ++ appended events) :=
      (whole_toFollow opts hfiles).append hwhole.whole_appended
    -- every line is among those that are handed over
    have hweight : weight (turn opts { files }) + (appended (events ++ polls (m + n))).count '\n' ≤
        weight (run opts (turn opts { files }) (events ++ polls (m + n))) := by
      have hlength := hperm.length_eq
      rw [length_linesOf htext, List.count_append] at hlength
      rw [weight, weight, hpending, appended_append, appended_polls, List.append_nil, hlength]
      exact (Nat.zero_add _).symm ▸ Nat.le_add_right _ _
    have hevery := (weight_run htailing (hopen _) hlater haligned).2 hweight
    rw [polls_add, ← List.append_assoc] at hevery
    exact (everyTurn_append.mp hevery).1
  · intro hbehind
    obtain ⟨n, hn⟩ := delivered htailing (hopen events) honce
      (fun hstage => Stage.noConfusion hstage) rfl hbehind fun m =>
      everyTurn_wholeRead_of_aligned htailing (hopen _) (hwhole.polls m) haligned
    exact ⟨n, fun m hm => by rw [hn m hm, hpending]⟩

/-- A line that is read before the log is rotated is handed over. -/
theorem rotations_delivered_line : ∃ n, ∀ m ≥ n,
    (run ⟨false, false, fun _ => 1⟩ (turn ⟨false, false, fun _ => 1⟩ { files := ⟨[], none⟩ })
      ([.append ['a', '\n'], .turn, .rotate] ++ polls m)).follower.handed.Perm
        [['a', '\n']] := by
  have hwhole : WholeAppends [.append ['a', '\n'], .turn, .rotate] := fun text htext =>
    ⟨[['a', '\n']], fun l hl => ⟨['a'], by decide, List.mem_singleton.mp hl⟩, by simp_all⟩
  refine (rotations_delivered_iff ⟨false, false, fun _ => 1⟩ rfl ⟨[], none⟩
    (fun text htext => absurd htext List.not_mem_nil) _ hwhole).mpr fun m => ?_
  cases m with
  | zero => decide
  | succ m =>
    rw [Nat.add_comm m 1, polls_add, ← List.append_assoc, everyTurn_append]
    refine ⟨by decide, everyTurn_nothingBehind (tailing_run (following_start _ _).1 fun _ =>
      (following_start _ _).2.1) ?_ fun hpoll => ?_⟩
    swap
    · exact absurd (List.eq_of_mem_replicate hpoll) (by decide)
    rintro log ⟨⟩
    rfl

/-- A line that is written while the loop sleeps, before the log is rotated, is not handed over. -/
theorem rotated_line_lost : WholeAppends [.turn, .append ['a', '\n'], .rotate] ∧
    ¬ ∃ n, ∀ m ≥ n,
      (run ⟨false, false, fun _ => 1⟩ (turn ⟨false, false, fun _ => 1⟩ { files := ⟨[], none⟩ })
        ([.turn, .append ['a', '\n'], .rotate] ++ polls m)).follower.handed.Perm
          (linesOf '\n' (appended [.turn, .append ['a', '\n'], .rotate])) := by
  refine ⟨fun text htext => ⟨[['a', '\n']], fun l hl =>
    ⟨['a'], by decide, List.mem_singleton.mp hl⟩, by simp_all⟩, ?_⟩
  rintro ⟨n, hn⟩
  have hhanded := hn (1 + n) (Nat.le_add_left n 1)
  have htailing : Tailing ⟨false, false, fun _ => 1⟩
      (run ⟨false, false, fun _ => 1⟩ (turn ⟨false, false, fun _ => 1⟩ { files := ⟨[], none⟩ })
        ([.turn, .append ['a', '\n'], .rotate] ++ polls 1)) :=
    tailing_run (following_start _ _).1 fun _ => (following_start _ _).2.1
  rw [polls_add, ← List.append_assoc, run_append, (polls_of_drained htailing (by decide) n).2]
    at hhanded
  exact absurd hhanded.length_eq (by decide)

end Honeynet.Forwarders
