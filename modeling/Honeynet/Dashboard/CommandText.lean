import Honeynet.Cowrie.Ingest
import Honeynet.Lib.Formatted

/-!
# Commands on the dashboard

The evidence of a command refers to it in one line of text only: the line of the event with a
bracket for the rule.  The dashboard takes the line apart again.

* `cowrieCommandFromSourceRef`: the command the dashboard shows.
* `formatOutput_command`: the line of a command.
* `commandText_line`: what the dashboard reads in a line.
* `shown_iff`: the dashboard shows the command itself iff no bracket stands in it after a blank.
-/

namespace Honeynet.Dashboard

open Collections Cowrie Formatted Profiler Text

/-- The end of the address in a line. -/
def colonBlank : List Char := [':', ' ']

/-- The begin of the bracket in a line. -/
def blankBracket : List Char := [' ', '[']

/-- The command in a line. -/
def commandText (output : String) : String :=
  match partition colonBlank output.toList with
  | some (_, tail) => String.ofList (strip (beforeFirst blankBracket tail))
  | none => ""

def cowrieCommandFromSourceRef (sourceRef : Settings) : String :=
  let command :=
    if (sourceRef.get "command").truthy then sourceRef.get "command" else sourceRef.get "input"
  match command.str?.filter fun command => strip command.toList ≠ [] with
  | some command => String.ofList (strip command.toList)
  | none => ((sourceRef.get "output").str?.map commandText).getD ""

/-! ### The line of a command -/

section Line

variable {F : Type} {svc : CowrieService F} {event : CowrieLogEvent}

/-- `str(value)`. -/
def text (py : ProfilerBuiltins) : Value → List Char
  | .str s => s.toList
  | value => (py.str value).toList

/-- `template.format(**context)` as the language documents it, on templates whose braces hold a
name each. -/
def StrFormat (svc : CowrieService F) : Prop :=
  ∀ (template : String) (context : Settings), IsPlain template.toList →
    svc.strFormat template context = (fill (fun name =>
      (context.get? (String.ofList name)).map (text svc.profiler.py)) none template.toList).map
        String.ofList

/-- The fields of an event that have a name of their own. -/
def eventFields : List String :=
  ["schema_version", "eventid", "timestamp", "src_ip", "session", "sensor", "username", "password",
    "input", "message"]

/-- The further keys of an event are none of its fields. -/
def ExtrasApart (event : CowrieLogEvent) : Prop :=
  ∀ key ∈ event.modelExtra.map Prod.fst, key ∉ eventFields

/-- What stands before the address in a line. -/
def lineStart : List Char := "cowrie.command.input from ".toList

/-- **The line of a command**: the address and then the command itself. -/
theorem formatOutput_command (hformat : StrFormat svc) (hextra : ExtrasApart event)
    (command : String) : (formatOutput svc (event.withInput command) commandInput).toList =
      lineStart ++ (event.srcIp.toList ++ (colonBlank ++ command.toList)) := by
  let value : List Char → Option (List Char) := fun name =>
    ((eventContext (event.withInput command)).get? (String.ofList name)).map
      (text svc.profiler.py)
  have hnot : ∀ key ∈ eventFields, key ∉ event.modelExtra.map Prod.fst := fun key hkey hmem =>
    hextra key hmem hkey
  have haddress : value "src_ip".toList = some event.srcIp.toList := by
    have hlookup : (eventContext (event.withInput command)).lookup "src_ip" =
        some (.str event.srcIp) := lookup_update_of_notMem (hnot "src_ip" (by decide))
    show (List.lookup (String.ofList "src_ip".toList) _).map _ = _
    rw [String.ofList_toList, hlookup]
    rfl
  have hinput : value "input".toList = some command.toList := by
    have hlookup : (eventContext (event.withInput command)).lookup "input" =
        some (.str command) := lookup_update_of_notMem (hnot "input" (by decide))
    show (List.lookup (String.ofList "input".toList) _).map _ = _
    rw [String.ofList_toList, hlookup]
    rfl
  have htemplate : commandInput.outputTemplate.toList = lineStart ++ ('\x7b' ::
      ("src_ip".toList ++ '\x7d' :: (colonBlank ++ '\x7b' :: ("input".toList ++ ['\x7d'])))) := by
    decide
  have hfill : fill value none commandInput.outputTemplate.toList =
      some (lineStart ++ (event.srcIp.toList ++ (colonBlank ++ command.toList))) := by
    rw [htemplate, fill_literal (by decide), fill, if_pos rfl, fill_name (by decide),
      List.reverse_nil, List.nil_append, haddress, Option.bind_some, fill_literal (by decide), fill,
      if_pos rfl, fill_name (by decide), List.reverse_nil, List.nil_append, hinput,
      Option.bind_some, fill]
    simp
  rw [formatOutput, hformat _ _ (by decide)]
  show ((Option.map String.ofList (fill value none _)).getD _).toList = _
  rw [hfill, Option.map_some, Option.getD_some, String.toList_ofList]

/-! ### The line taken apart -/

theorem length_strip_le (t : List Char) : (strip t).length ≤ t.length := by
  have hback := (List.dropWhile_sublist (l := (t.dropWhile isSpace).reverse) isSpace).length_le
  have hfront := (List.dropWhile_sublist (l := t) isSpace).length_le
  rw [List.length_reverse] at hback
  rw [strip, List.length_reverse]
  omega

/-- **What the dashboard reads in a line** is the command iff no bracket stands in it after a
blank. -/
theorem commandText_line {address command : List Char} (haddress : ¬ colonBlank <:+: address)
    (hstrip : strip command = command) (bracket : List Char) :
    commandText (String.ofList (lineStart ++ (address ++ (colonBlank ++
        (command ++ ' ' :: '[' :: bracket))))) = String.ofList command ↔
      ¬ blankBracket <:+: command := by
  have hcolon : ':' ∉ lineStart := by decide
  have hhead : ¬ [':', ' '] <:+: lineStart ++ address := by
    rw [pair_infix_append hcolon]
    exact haddress
  have hcut : partition colonBlank (lineStart ++ (address ++ (colonBlank ++
      (command ++ ' ' :: '[' :: bracket)))) =
        some (lineStart ++ address, command ++ ' ' :: '[' :: bracket) := by
    rw [← List.append_assoc]
    exact partition_pair (by decide) hhead _
  rw [commandText, String.toList_ofList, hcut]
  show String.ofList (strip (beforeFirst blankBracket _)) = _ ↔ _
  unfold beforeFirst
  by_cases hinside : blankBracket <:+: command
  · obtain ⟨before, after, hfound, hlen⟩ :=
      partition_inside (by decide) hinside (' ' :: '[' :: bracket)
    rw [hfound]
    refine iff_of_false (fun heq => ?_) (not_not_intro hinside)
    have hshort := length_strip_le before
    rw [String.ofList_injective heq] at hshort
    omega
  · rw [show partition blankBracket _ = _ from partition_pair (by decide) hinside bracket]
    refine iff_of_true ?_ hinside
    show String.ofList (strip command) = _
    rw [hstrip]

/-! ### What the evidence shows -/

theorem command_of_output {sourceRef : Settings} {output : String}
    (hcommand : sourceRef.lookup "command" = none) (hinput : sourceRef.lookup "input" = none)
    (houtput : sourceRef.lookup "output" = some (.str output)) :
    cowrieCommandFromSourceRef sourceRef = commandText output := by
  have hget {key : String} (h : sourceRef.lookup key = none) : sourceRef.get key = .none := by
    show (sourceRef.lookup key).getD .none = .none
    rw [h]
    rfl
  have hline : sourceRef.get "output" = .str output := by
    show (sourceRef.lookup "output").getD .none = .str output
    rw [houtput]
    rfl
  unfold cowrieCommandFromSourceRef
  rw [hget hcommand, hget hinput, hline]
  rfl

/-- The evidence of a command refers to its line with a bracket for the rule, and not to the
command. -/
theorem exists_rule_of_stored {call : IngestCall} {command : String} {s : Stores F}
    {e : TechniqueEvidence} (heventid : event.eventid = "cowrie.command.input")
    (h : e ∈ evidenceStored svc call (event.withInput command) s) :
    ∃ rule ∈ svc.matchRules command, cowrieCommandFromSourceRef e.sourceRef = commandText
      (ruleInput (formatOutput svc (event.withInput command) commandInput) rule).output := by
  by_cases hnaive : NaiveExpiry s event.srcIp
  · rw [evidenceStored_naive call (event.withInput command) hnaive] at h
    exact absurd h List.not_mem_nil
  obtain ⟨bindingId, hstored⟩ := evidenceStored_eq svc call (event.withInput command) hnaive
  have hmapping : svc.mappingFor (event.withInput command).eventid = commandInput :=
    (congrArg svc.mappingFor heventid).trans svc.mappingFor_command
  rw [hstored, hmapping, profileRequests_command] at h
  obtain ⟨request, hrequest, ids, he⟩ := mem_ingestAll h
  obtain ⟨rule, hrule, rfl⟩ := List.mem_map.mp hrequest
  refine ⟨rule, hrule, ?_⟩
  rw [sourceRef_of_mem_mapEvent he]
  apply command_of_output
  · rw [lookup_buildSourceRef rfl, if_neg (by decide)]
    rfl
  · rw [lookup_buildSourceRef rfl, if_neg (by decide)]
    rfl
  · rw [lookup_buildSourceRef rfl, if_neg (by decide)]
    rfl

/-- A rule that matches leaves evidence. -/
theorem exists_stored (call : IngestCall) {command : String} {s : Stores F}
    (heventid : event.eventid = "cowrie.command.input") (hnaive : ¬ NaiveExpiry s event.srcIp)
    (hrules : svc.matchRules command ≠ []) :
    ∃ e, e ∈ evidenceStored svc call (event.withInput command) s := by
  obtain ⟨rule, hrule⟩ := List.exists_mem_of_ne_nil _ hrules
  obtain ⟨bindingId, hstored⟩ := evidenceStored_eq svc call (event.withInput command) hnaive
  have hmapping : svc.mappingFor (event.withInput command).eventid = commandInput :=
    (congrArg svc.mappingFor heventid).trans svc.mappingFor_command
  have hleaves (ids : ℕ → String) (request : EvidenceIngestRequest) :
      ∃ e ∈ requestEvidence svc.profiler ids request, True := by
    obtain ⟨e, he⟩ := List.exists_mem_of_ne_nil _ (mapEvent_ne_nil ids _ _ _)
    exact ⟨e, he, trivial⟩
  rw [hstored, hmapping, profileRequests_command]
  obtain ⟨e, he, -⟩ := mem_ingestAll_of_mem (List.mem_map_of_mem hrule)
    (fun ids => hleaves ids _) 0 _
  exact ⟨e, he⟩

/-- **Evidence shows its command** iff no bracket stands in the command after a blank. -/
theorem command_of_stored {call : IngestCall} {command : String} {s : Stores F}
    {e : TechniqueEvidence} (hformat : StrFormat svc) (hextra : ExtrasApart event)
    (heventid : event.eventid = "cowrie.command.input")
    (haddress : ¬ colonBlank <:+: event.srcIp.toList)
    (hstrip : strip command.toList = command.toList)
    (h : e ∈ evidenceStored svc call (event.withInput command) s) :
    cowrieCommandFromSourceRef e.sourceRef = command ↔ ¬ blankBracket <:+: command.toList := by
  obtain ⟨rule, -, hshown⟩ := exists_rule_of_stored heventid h
  have hline : (ruleInput (formatOutput svc (event.withInput command) commandInput) rule).output =
      String.ofList (lineStart ++ (event.srcIp.toList ++ (colonBlank ++ (command.toList ++ ' ' ::
        '[' :: (rule.name ++ "; confidence=" ++ rule.confidence ++ "]").toList)))) := by
    apply String.toList_injective
    show (formatOutput svc (event.withInput command) commandInput ++ " [" ++ rule.name ++
      "; confidence=" ++ rule.confidence ++ "]").toList = _
    simp only [String.toList_append, formatOutput_command hformat hextra command,
      String.toList_ofList, List.append_assoc]
    rfl
  rw [hshown, hline, ← commandText_line haddress hstrip, String.ofList_toList]

/-- The dashboard shows the command of an event in all the evidence that the event leaves. -/
def ShownAsSent (svc : CowrieService F) (call : IngestCall) (event : CowrieLogEvent)
    (command : String) (s : Stores F) : Prop :=
  ∀ e ∈ evidenceStored svc call (event.withInput command) s,
    cowrieCommandFromSourceRef e.sourceRef = command

/-- **The dashboard shows the command of an event** in all the evidence it leaves, exactly where no
bracket stands in it after a blank, or it leaves no evidence. -/
theorem shown_iff (call : IngestCall) (s : Stores F) {command : String} (hformat : StrFormat svc)
    (hextra : ExtrasApart event) (heventid : event.eventid = "cowrie.command.input")
    (haddress : ¬ colonBlank <:+: event.srcIp.toList)
    (hstrip : strip command.toList = command.toList) :
    ShownAsSent svc call event command s ↔
      ¬ blankBracket <:+: command.toList ∨ NaiveExpiry s event.srcIp ∨
        svc.matchRules command = [] := by
  constructor
  · intro hshown
    by_contra hcond
    rw [not_or, not_or, not_not] at hcond
    obtain ⟨hinside, hnaive, hrules⟩ := hcond
    obtain ⟨e, he⟩ := exists_stored call heventid hnaive hrules
    exact (command_of_stored hformat hextra heventid haddress hstrip he).mp (hshown e he) hinside
  · intro hcond e he
    rcases hcond with hnone | hnaive | hrules
    · exact (command_of_stored hformat hextra heventid haddress hstrip he).mpr hnone
    · rw [evidenceStored_naive call (event.withInput command) hnaive] at he
      exact absurd he List.not_mem_nil
    · obtain ⟨rule, hrule, -⟩ := exists_rule_of_stored heventid he
      rw [hrules] at hrule
      exact absurd hrule List.not_mem_nil

end Line

/-! ### A listing -/

/-- The service with its rule for listings, and the templates filled. -/
def filledService : CowrieService ℕ :=
  { listingService "T1083" with
    strFormat := fun template context => (fill (fun name =>
      (context.get? (String.ofList name)).map (text sampleProfiler.py)) none template.toList).map
        String.ofList }

/-- The event has no further keys. -/
theorem extrasApart_commandEvent : ExtrasApart commandEvent := fun _ hkey =>
  absurd hkey List.not_mem_nil

theorem listing_shown : ShownAsSent filledService (callAt 0) commandEvent "ls /" {} :=
  (shown_iff (callAt 0) {} (fun _ _ _ => rfl) extrasApart_commandEvent rfl (by decide)
    (by decide)).mpr (Or.inl (by decide))

/-- **A listing of a pattern is shown without the pattern.** -/
theorem pattern_cut : ¬ ShownAsSent filledService (callAt 0) commandEvent "ls [a-z]*" {} := by
  intro hshown
  have hrules : filledService.matchRules "ls [a-z]*" ≠ [] := by decide
  obtain ⟨e, he⟩ := exists_stored (callAt 0) rfl not_naiveExpiry_empty hrules
  have hnone : ¬ blankBracket <:+: "ls [a-z]*".toList :=
    (command_of_stored (fun _ _ _ => rfl) extrasApart_commandEvent rfl (by decide) (by decide)
      he).mp (hshown e he)
  exact hnone (by decide)

end Honeynet.Dashboard
