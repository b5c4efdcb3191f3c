import Honeynet.Lib.Lines

/-!
# Following a log

A forwarder tails a log that others append to and rotate.

* `LogFiles`: the files that have stood at the path.
* `refreshLogHandle`, `readline`, `turn`: the loop of a follower, one step at a time.
* `TailEvent`, `run`: what the writers and the follower do, in any order.
* `pending`: what is still to be read.
* `Effect`, `step_effect`: what one event changes.
-/

namespace Honeynet.Forwarders

open Lines

/-! ### Files -/

/-- The files that have stood at the path, in order: those rotated away and the one that is there
now.  The identity of a file is its place among them. -/
structure LogFiles where
  rotated : List (List Char) := []
  current : Option (List Char)

namespace LogFiles

def all (fs : LogFiles) : List (List Char) := fs.rotated ++ fs.current.toList

/-- What has been written to a file, under whatever name it stands now. -/
def content (fs : LogFiles) (identity : ℕ) : List Char := fs.all.getD identity []

/-- A writer appends to the file at the path. -/
def append (fs : LogFiles) (text : List Char) : LogFiles :=
  { fs with current := some (fs.current.getD [] ++ text) }

/-- The file at the path is renamed and a new one takes its place. -/
def rotate (fs : LogFiles) : LogFiles := ⟨fs.all, some []⟩

end LogFiles

/-- A missing file is created. -/
def ensureLogFile (fs : LogFiles) : LogFiles := { fs with current := some (fs.current.getD []) }

/-! ### The loop -/

/-- The file that is open, and how far it has been read. -/
structure OpenLog where
  identity : ℕ
  position : ℕ
  deriving DecidableEq

/-- `handleLine` forwards a line and tells how many events it was. -/
structure FollowOptions where
  fromStart : Bool
  once : Bool
  handleLine : List Char → ℕ

/-- Where the loop stands: before the handle is refreshed, before a line is read, or past the
end. -/
inductive Stage
  | refresh
  | readline
  | returned
  deriving DecidableEq, Repr

/-- The variables of the loop, and the lines handed to `handleLine` so far. -/
structure Follower where
  currentLog : Option OpenLog := none
  initialOpen : Bool := true
  forwarded : ℕ := 0
  stage : Stage := .refresh
  handed : List (List Char) := []

/-- Reopen the log when it rotates or is truncated. -/
def refreshLogHandle (opts : FollowOptions) (fs : LogFiles) (currentLog : Option OpenLog)
    (initialOpen : Bool) : OpenLog :=
  let identity := fs.rotated.length
  let size := (fs.content identity).length
  let reopened : OpenLog := ⟨identity, if initialOpen && !opts.fromStart then size else 0⟩
  match currentLog with
  | none => reopened
  | some log => if log.identity ≠ identity ∨ size < log.position then reopened else log

/-- Everything available up to and including the next newline. -/
def readline (fs : LogFiles) (log : OpenLog) : List Char :=
  firstLine '\n' ((fs.content log.identity).drop log.position)

/-- The files and the follower. -/
structure Tail where
  files : LogFiles
  follower : Follower := {}

/-- The next step of the loop. -/
def turn (opts : FollowOptions) (s : Tail) : Tail :=
  match s.follower.stage, s.follower.currentLog with
  | .refresh, currentLog =>
    let files := ensureLogFile s.files
    { files
      follower := { s.follower with
        currentLog := some (refreshLogHandle opts files currentLog s.follower.initialOpen)
        initialOpen := false
        stage := .readline } }
  | .readline, some log =>
    let line := readline s.files log
    if line ≠ [] then
      { s with follower := { s.follower with
          currentLog := some { log with position := log.position + line.length }
          forwarded := s.follower.forwarded + opts.handleLine line
          stage := .refresh
          handed := s.follower.handed ++ [line] } }
    else { s with follower := { s.follower with
        stage := if opts.once then .returned else .refresh } }
  | .readline, none => s
  | .returned, _ => s

/-- What happens next: a writer appends a text, the log is rotated, or the loop takes a step. -/
inductive TailEvent
  | append (text : List Char)
  | rotate
  | turn
  deriving DecidableEq

def step (opts : FollowOptions) (s : Tail) : TailEvent → Tail
  | .append text => { s with files := s.files.append text }
  | .rotate => { s with files := s.files.rotate }
  | .turn => turn opts s

def run (opts : FollowOptions) (s : Tail) (events : List TailEvent) : Tail :=
  events.foldl (step opts) s

/-- All that is appended in a run. -/
def appended : List TailEvent → List Char
  | [] => []
  | .append text :: events => text ++ appended events
  | _ :: events => appended events

/-- The loop goes on with nobody writing. -/
def polls (n : ℕ) : List TailEvent := List.replicate n .turn

/-! ### What is still to be read -/

/-- What follows the position of a handle, in its file and the later ones. -/
def unread (files : List (List Char)) (log : OpenLog) : List Char :=
  ((files.drop log.identity).flatten).drop log.position

/-- What is still to be read by a follower that has opened its log. -/
def pending (s : Tail) : List Char :=
  match s.follower.currentLog with
  | some log => unread s.files.all log
  | none => s.files.current.getD []

/-- What is to be read in files that have been rotated away. -/
def behind (s : Tail) : List Char :=
  match s.follower.currentLog with
  | some log => unread s.files.rotated log
  | none => []

/-- What is to be read in the file that is open. -/
def available (s : Tail) : List Char :=
  match s.follower.currentLog with
  | some log => (s.files.content log.identity).drop log.position
  | none => []

/-- The open file is one of those that have stood at the path, and is read no further than it
goes. -/
structure Placed (fs : LogFiles) (log : OpenLog) : Prop where
  present : fs.current.isSome
  identity_le : log.identity ≤ fs.rotated.length
  position_le : log.position ≤ (fs.content log.identity).length

/-- A follower whose handle is placed, or that is yet to open the log from its start. -/
inductive Tailing (opts : FollowOptions) (s : Tail) : Prop
  | placed (log : OpenLog) (hlog : s.follower.currentLog = some log) (h : Placed s.files log)
    (hreopen : s.follower.initialOpen = false)
  | unopened (hlog : s.follower.currentLog = none) (hstart : opts.fromStart = true)
    (hstage : s.follower.stage = .refresh)

/-- What an event changes. -/
inductive Effect (opts : FollowOptions) (s s' : Tail) : TailEvent → Prop
  | appended (text : List Char) (hstage : s'.follower.stage = s.follower.stage)
      (hhanded : s'.follower.handed = s.follower.handed)
      (hpending : pending s' = pending s ++ text)
      (havailable : available s' = available s ∨ available s' = available s ++ text) :
    Effect opts s s' (.append text)
  | rotated (hstage : s'.follower.stage = s.follower.stage)
      (hhanded : s'.follower.handed = s.follower.handed) (hpending : pending s' = pending s)
      (havailable : available s' = available s) : Effect opts s s' .rotate
  | refreshed (hstage : s.follower.stage = .refresh) (hstage' : s'.follower.stage = .readline)
      (hhanded : s'.follower.handed = s.follower.handed)
      (hpending : pending s = behind s ++ pending s') (havailable : available s' = pending s')
      (hsource : available s' = available s ∨ available s' ∈ s'.files.all) :
    Effect opts s s' .turn
  | read (hstage : s.follower.stage = .readline) (hstage' : s'.follower.stage = .refresh)
      (hne : available s ≠ [])
      (hhanded : s'.follower.handed = s.follower.handed ++ [firstLine '\n' (available s)])
      (hpending : pending s = firstLine '\n' (available s) ++ pending s')
      (havailable : available s' =
        (available s).drop (firstLine '\n' (available s)).length) :
    Effect opts s s' .turn
  | waited (hstage : s.follower.stage = .readline)
      (hstage' : s'.follower.stage = if opts.once then .returned else .refresh)
      (hempty : available s = []) (hhanded : s'.follower.handed = s.follower.handed)
      (hpending : pending s' = pending s) (havailable : available s' = available s) :
    Effect opts s s' .turn
  | idle (hstage : s.follower.stage = .returned) (hsame : s' = s) : Effect opts s s' .turn

section Files

variable {fs : LogFiles} {log : OpenLog} {text : List Char}

theorem all_eq (h : fs.current = some text) : fs.all = fs.rotated ++ [text] := by
  rw [LogFiles.all, h]
  rfl

theorem content_eq (fs : LogFiles) (identity : ℕ) :
    fs.content identity = fs.all[identity]?.getD [] := List.getD_eq_getElem?_getD

/-- The file at the path. -/
theorem content_current (h : fs.current = some text) : fs.content fs.rotated.length = text := by
  rw [content_eq, all_eq h, List.getElem?_concat_length, Option.getD_some]

/-- A file that has been rotated away. -/
theorem content_rotated (fs : LogFiles) {identity : ℕ} (hlt : identity < fs.rotated.length) :
    fs.content identity = fs.rotated[identity] := by
  rw [content_eq, LogFiles.all, List.getElem?_append_left hlt, List.getElem?_eq_getElem hlt,
    Option.getD_some]

/-- What is unread begins in the open file. -/
theorem drop_all_eq (h : log.identity < fs.all.length) : fs.all.drop log.identity =
    fs.content log.identity :: fs.all.drop (log.identity + 1) := by
  rw [List.drop_eq_getElem_cons h, content_eq, List.getElem?_eq_getElem h, Option.getD_some]

theorem Placed.identity_lt (h : Placed fs log) : log.identity < fs.all.length := by
  obtain ⟨text, htext⟩ := Option.isSome_iff_exists.mp h.present
  have hle := h.identity_le
  rw [all_eq htext, List.length_append, List.length_singleton]
  omega

theorem Placed.unread_eq (h : Placed fs log) : unread fs.all log =
    (fs.content log.identity).drop log.position ++ (fs.all.drop (log.identity + 1)).flatten := by
  rw [unread, drop_all_eq h.identity_lt, List.flatten_cons,
    List.drop_append_of_le_length h.position_le]

theorem Placed.position_le_flatten (h : Placed fs log) :
    log.position ≤ ((fs.all.drop log.identity).flatten).length := by
  have hle := h.position_le
  rw [drop_all_eq h.identity_lt, List.flatten_cons, List.length_append]
  omega

theorem flatten_drop_all (htext : fs.current = some text) (hle : log.identity ≤ fs.rotated.length) :
    (fs.all.drop log.identity).flatten = (fs.rotated.drop log.identity).flatten ++ text := by
  rw [all_eq htext, List.drop_append_of_le_length hle, List.flatten_append, List.flatten_singleton]

/-- What is unread of an open file that stands at the path. -/
theorem unread_current (log : OpenLog) (htext : fs.current = some text)
    (hidentity : log.identity = fs.rotated.length) :
    unread fs.rotated log = [] ∧ unread fs.all log = text.drop log.position := by
  have hdrop : fs.rotated.drop log.identity = [] := by rw [hidentity, List.drop_length]
  rw [unread, unread, flatten_drop_all htext hidentity.le, hdrop]
  exact ⟨List.drop_nil, rfl⟩

theorem Placed.unread_rotated_eq (h : Placed fs log)
    (hidentity : log.identity ≠ fs.rotated.length) : unread fs.rotated log =
      (fs.content log.identity).drop log.position ++
        (fs.rotated.drop (log.identity + 1)).flatten := by
  have hlt : log.identity < fs.rotated.length := lt_of_le_of_ne h.identity_le hidentity
  have hle := h.position_le
  rw [content_rotated fs hlt] at hle ⊢
  rw [unread, List.drop_eq_getElem_cons hlt, List.flatten_cons, List.drop_append_of_le_length hle]

/-- What is unread of an open file that has been rotated away. -/
theorem Placed.unread_rotated (h : Placed fs log) (htext : fs.current = some text)
    (hidentity : log.identity ≠ fs.rotated.length) :
    unread fs.all log = unread fs.rotated log ++ text := by
  have hlt : log.identity < fs.rotated.length := lt_of_le_of_ne h.identity_le hidentity
  rw [h.unread_eq, h.unread_rotated_eq hidentity, all_eq htext,
    List.drop_append_of_le_length hlt, List.flatten_append, List.flatten_singleton,
    List.append_assoc]

/-! ### Writers -/

theorem Placed.append (h : Placed fs log) (more : List Char) : Placed (fs.append more) log ∧
    unread (fs.append more).all log = unread fs.all log ++ more ∧
    ((fs.append more).content log.identity = fs.content log.identity ∨
      (fs.append more).content log.identity = fs.content log.identity ++ more) := by
  obtain ⟨text, htext⟩ := Option.isSome_iff_exists.mp h.present
  have hmore : (fs.append more).current = some (text ++ more) := by
    rw [LogFiles.append, htext]
    rfl
  have hflatten : ((fs.append more).all.drop log.identity).flatten =
      (fs.all.drop log.identity).flatten ++ more := by
    rw [flatten_drop_all hmore h.identity_le, flatten_drop_all htext h.identity_le,
      List.append_assoc]
    rfl
  have hcontent : (fs.append more).content log.identity = fs.content log.identity ∨
      (fs.append more).content log.identity = fs.content log.identity ++ more := by
    rcases h.identity_le.lt_or_eq with hlt | heq
    · have hsame : (fs.append more).content log.identity = fs.rotated[log.identity] :=
        content_rotated (fs.append more) hlt
      exact Or.inl (hsame.trans (content_rotated fs hlt).symm)
    · have hcurrent : (fs.append more).content fs.rotated.length = text ++ more :=
        content_current hmore
      rw [heq, content_current htext]
      exact Or.inr hcurrent
  have hle : log.position ≤ ((fs.append more).content log.identity).length := by
    have hposition := h.position_le
    rcases hcontent with hsame | hmore
    · rwa [hsame]
    · rw [hmore, List.length_append]
      omega
  refine ⟨⟨rfl, h.identity_le, hle⟩, ?_, hcontent⟩
  rw [unread, hflatten, List.drop_append_of_le_length h.position_le_flatten, unread]

theorem Placed.rotate (h : Placed fs log) : Placed fs.rotate log ∧
    unread fs.rotate.all log = unread fs.all log ∧
    fs.rotate.content log.identity = fs.content log.identity := by
  have hall : fs.rotate.all = fs.all ++ [[]] := rfl
  have hcontent : fs.rotate.content log.identity = fs.content log.identity := by
    rw [content_eq, content_eq, hall, List.getElem?_append_left h.identity_lt]
  refine ⟨⟨rfl, h.identity_lt.le, hcontent ▸ h.position_le⟩, ?_, hcontent⟩
  rw [unread, hall, List.drop_append_of_le_length h.identity_lt.le, List.flatten_append,
    List.flatten_singleton, List.append_nil, unread]

end Files

/-! ### One step -/

section Steps

variable {opts : FollowOptions} {s : Tail}

theorem ensureLogFile_of_present {fs : LogFiles} (h : fs.current.isSome) :
    ensureLogFile fs = fs := by
  obtain ⟨text, htext⟩ := Option.isSome_iff_exists.mp h
  obtain ⟨rotated, current⟩ := fs
  obtain rfl : current = some text := htext
  rfl

/-- **A writer** only adds to what is to be read. -/
theorem append_effect (h : Tailing opts s) (text : List Char) :
    Tailing opts (step opts s (.append text)) ∧
      Effect opts s (step opts s (.append text)) (.append text) := by
  cases h with
  | placed log hlog h hreopen =>
    obtain ⟨hplaced, hunread, hcontent⟩ := h.append text
    refine ⟨.placed log hlog hplaced hreopen, .appended text rfl rfl ?_ ?_⟩
    · simp only [pending, step, hlog, hunread]
    · simp only [available, step, hlog]
      rcases hcontent with hsame | hmore
      · exact Or.inl (by rw [hsame])
      · exact Or.inr (by rw [hmore, List.drop_append_of_le_length h.position_le])
  | unopened hlog hstart hstage =>
    refine ⟨.unopened hlog hstart hstage, .appended text rfl rfl ?_ (Or.inl ?_)⟩
    · simp only [pending, step, hlog]
      rfl
    · simp only [available, step, hlog]

/-- **A rotation** leaves what is to be read. -/
theorem rotate_effect (h : Tailing opts s) (hopen : s.follower.currentLog ≠ none) :
    Tailing opts (step opts s .rotate) ∧ Effect opts s (step opts s .rotate) .rotate := by
  cases h with
  | placed log hlog h hreopen =>
    obtain ⟨hplaced, hunread, hcontent⟩ := h.rotate
    refine ⟨.placed log hlog hplaced hreopen, .rotated rfl rfl ?_ ?_⟩
    · simp only [pending, step, hlog, hunread]
    · simp only [available, step, hlog, hcontent]
  | unopened hlog _ _ => exact absurd hlog hopen

/-- A handle that has been opened at the start of the file at the path. -/
theorem reopened_effect {s' : Tail} {text : List Char} (hstage : s.follower.stage = .refresh)
    (hstage' : s'.follower.stage = .readline) (hhanded : s'.follower.handed = s.follower.handed)
    (htext : s'.files.current = some text) (hreopen : s'.follower.initialOpen = false)
    (hlog : s'.follower.currentLog = some ⟨s'.files.rotated.length, 0⟩)
    (hpending : pending s = behind s ++ text) : Tailing opts s' ∧ Effect opts s s' .turn := by
  have hplaced : Placed s'.files ⟨s'.files.rotated.length, 0⟩ :=
    ⟨Option.isSome_iff_exists.mpr ⟨text, htext⟩, le_refl _, Nat.zero_le _⟩
  have hunread : pending s' = text := by
    simp only [pending, hlog, (unread_current ⟨s'.files.rotated.length, 0⟩ htext rfl).2,
      List.drop_zero]
  have havailable : available s' = text := by
    simp only [available, hlog, content_current htext, List.drop_zero]
  refine ⟨.placed _ hlog hplaced hreopen, .refreshed hstage hstage' hhanded ?_ ?_ (Or.inr ?_)⟩
  · rw [hpending, hunread]
  · rw [havailable, hunread]
  · rw [havailable, all_eq htext]
    exact List.mem_append_right _ (List.mem_singleton_self text)

/-- **The refreshed handle** is open at the path: what was to be read behind it is not read. -/
theorem refresh_effect (h : Tailing opts s) (hstage : s.follower.stage = .refresh) :
    Tailing opts (turn opts s) ∧ Effect opts s (turn opts s) .turn := by
  cases h with
  | placed log hlog h hreopen =>
    obtain ⟨text, htext⟩ := Option.isSome_iff_exists.mp h.present
    have hturn : turn opts s = { s with follower := { s.follower with
        currentLog := some (refreshLogHandle opts s.files (some log) false)
        initialOpen := false
        stage := .readline } } := by
      rw [turn, hstage, hlog, hreopen]
      simp only [ensureLogFile_of_present h.present]
    rw [hturn]
    by_cases hidentity : log.identity = s.files.rotated.length
    · have hkeep : refreshLogHandle opts s.files (some log) false = log := by
        have hposition := h.position_le
        rw [hidentity] at hposition
        rw [refreshLogHandle, if_neg (by omega)]
      obtain ⟨hbehind, hunread⟩ := unread_current log htext hidentity
      rw [hkeep]
      refine ⟨.placed log rfl h rfl, .refreshed hstage rfl rfl ?_ ?_ (Or.inl ?_)⟩
      · simp only [pending, behind, hlog, hbehind, List.nil_append]
      · simp only [pending, available, hunread, hidentity, content_current htext]
      · simp only [available, hlog]
    · have hreopened : refreshLogHandle opts s.files (some log) false =
          ⟨s.files.rotated.length, 0⟩ := by
        rw [refreshLogHandle, if_pos (Or.inl hidentity)]
        rfl
      rw [hreopened]
      refine reopened_effect hstage rfl rfl htext rfl rfl ?_
      simp only [pending, behind, hlog, h.unread_rotated htext hidentity]
  | unopened hlog hstart _ =>
    have hturn : turn opts s = { s with
        files := ensureLogFile s.files
        follower := { s.follower with
          currentLog := some (refreshLogHandle opts (ensureLogFile s.files) none
            s.follower.initialOpen)
          initialOpen := false
          stage := .readline } } := by
      rw [turn, hstage, hlog]
    have hopened : refreshLogHandle opts (ensureLogFile s.files) none s.follower.initialOpen =
        ⟨s.files.rotated.length, 0⟩ := by
      rw [refreshLogHandle, hstart]
      simp [ensureLogFile]
    rw [hturn, hopened]
    refine reopened_effect hstage rfl rfl rfl rfl rfl ?_
    simp only [pending, behind, hlog, List.nil_append]

/-- **A read** hands over the first line of what is available. -/
theorem readline_effect (h : Tailing opts s) (hstage : s.follower.stage = .readline) :
    Tailing opts (turn opts s) ∧ Effect opts s (turn opts s) .turn := by
  cases h with
  | placed log hlog h hreopen =>
    have havailable : available s = (s.files.content log.identity).drop log.position := by
      simp only [available, hlog]
    by_cases hline : readline s.files log = []
    · have hturn : turn opts s = { s with follower := { s.follower with
          stage := if opts.once then .returned else .refresh } } := by
        rw [turn, hstage, hlog]
        simp only [hline, ne_eq, not_true_eq_false, if_false]
      rw [hturn]
      refine ⟨.placed log hlog h hreopen, .waited hstage rfl ?_ rfl ?_ ?_⟩
      · rw [havailable]
        exact firstLine_eq_nil.mp hline
      · simp only [pending, hlog]
      · simp only [available, hlog]
    · have hturn : turn opts s = { s with follower := { s.follower with
          currentLog := some { log with position := log.position + (readline s.files log).length }
          forwarded := s.follower.forwarded + opts.handleLine (readline s.files log)
          stage := .refresh
          handed := s.follower.handed ++ [readline s.files log] } } := by
        rw [turn, hstage, hlog]
        simp only [hline, ne_eq, not_false_eq_true, if_true]
      have hsplit : readline s.files log ++ (s.files.content log.identity).drop
          (log.position + (readline s.files log).length) = available s := by
        rw [havailable, ← List.drop_drop]
        exact firstLine_append_drop '\n' _
      have hposition : log.position + (readline s.files log).length ≤
          (s.files.content log.identity).length := by
        have hlength := congrArg List.length hsplit
        have hle := h.position_le
        rw [havailable, List.length_append, List.length_drop, List.length_drop] at hlength
        omega
      have hplaced : Placed s.files
          { log with position := log.position + (readline s.files log).length } :=
        ⟨h.present, h.identity_le, hposition⟩
      have hfirst : readline s.files log = firstLine '\n' (available s) := by
        rw [havailable, readline]
      rw [hturn]
      refine ⟨.placed _ rfl hplaced hreopen, .read hstage rfl ?_ ?_ ?_ ?_⟩
      · exact fun hempty => hline (hfirst.trans (firstLine_eq_nil.mpr hempty))
      · rw [← hfirst]
      · simp only [pending, hlog]
        rw [h.unread_eq, hplaced.unread_eq, ← List.append_assoc, ← hfirst, hsplit, havailable]
      · rw [← hfirst, havailable, List.drop_drop]
        rfl
  | unopened hlog _ hrefresh => exact absurd (hstage.symm.trans hrefresh) (by simp)

/-- **One step**, once the log is open or as long as it is not rotated. -/
theorem step_effect (h : Tailing opts s) (e : TailEvent)
    (hopen : e = .rotate → s.follower.currentLog ≠ none) :
    Tailing opts (step opts s e) ∧ Effect opts s (step opts s e) e := by
  cases e with
  | append text => exact append_effect h text
  | rotate => exact rotate_effect h (hopen rfl)
  | turn =>
    cases hstage : s.follower.stage with
    | refresh => exact refresh_effect h hstage
    | readline => exact readline_effect h hstage
    | returned =>
      have hturn : turn opts s = s := by
        rw [turn, hstage]
      rw [step, hturn]
      exact ⟨h, .idle hstage rfl⟩

/-! ### Inversions -/

/-- A refresh skips what was to be read behind the path. -/
theorem Effect.of_refresh {s' : Tail} (h : Effect opts s s' .turn)
    (hstage : s.follower.stage = .refresh) : s'.follower.stage = .readline ∧
      pending s = behind s ++ pending s' ∧ available s' = pending s' := by
  cases h with
  | refreshed _ hstage' _ hpending havailable _ => exact ⟨hstage', hpending, havailable⟩
  | read hreadline _ _ _ _ _ => exact absurd (hstage.symm.trans hreadline) (by decide)
  | waited hreadline _ _ _ _ _ => exact absurd (hstage.symm.trans hreadline) (by decide)
  | idle hreturned _ => exact absurd (hstage.symm.trans hreturned) (by decide)

/-- A read hands over what it meets, or waits at the end. -/
theorem Effect.of_readline {s' : Tail} (h : Effect opts s s' .turn)
    (hstage : s.follower.stage = .readline) :
    (available s = [] ∧ s'.follower.stage = if opts.once then .returned else .refresh) ∨
    (available s ≠ [] ∧ s'.follower.stage = .refresh ∧
      s'.follower.handed = s.follower.handed ++ [firstLine '\n' (available s)] ∧
      pending s = firstLine '\n' (available s) ++ pending s') := by
  cases h with
  | refreshed hrefresh _ _ _ _ _ => exact absurd (hstage.symm.trans hrefresh) (by decide)
  | read _ hstage' hne hhanded hpending _ => exact Or.inr ⟨hne, hstage', hhanded, hpending⟩
  | waited _ hstage' hempty _ _ _ => exact Or.inl ⟨hempty, hstage'⟩
  | idle hreturned _ => exact absurd (hstage.symm.trans hreturned) (by decide)

/-- Only a read hands something over. -/
theorem Effect.handed_eq {s' : Tail} {e : TailEvent} (h : Effect opts s s' e) :
    s'.follower.handed = s.follower.handed ∨
      e = .turn ∧ s.follower.stage = .readline ∧ available s ≠ [] ∧
        s'.follower.handed = s.follower.handed ++ [firstLine '\n' (available s)] := by
  cases h with
  | appended text _ hhanded _ _ => exact Or.inl hhanded
  | rotated _ hhanded _ _ => exact Or.inl hhanded
  | refreshed _ _ hhanded _ _ _ => exact Or.inl hhanded
  | read hstage _ hne hhanded _ _ => exact Or.inr ⟨rfl, hstage, hne, hhanded⟩
  | waited _ _ _ hhanded _ _ => exact Or.inl hhanded
  | idle _ hsame => exact Or.inl (by rw [hsame])

end Steps

end Honeynet.Forwarders
