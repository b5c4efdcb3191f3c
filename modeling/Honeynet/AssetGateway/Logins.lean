import Honeynet.AssetGateway.Observer
import Mathlib.Logic.Relation

/-!
# What a login leaves of what was typed

On the ports of SSH and Telnet user names and passwords are typed in the clear.  The event of a
chunk has the first word of each of its lines in it, whatever the word is.

* `Retyped`: two chunks that differ in one typed word.
* `NoTypedText`: the commands of the event come from the vocabulary of the protocol, and are the
  same for chunks that only differ in what was typed.
* `written_login`: the commands of the event of a chunk.
* `noTypedText_iff`: nothing typed is written if and only if the chunk is the hello of an SSH
  client or blank.
-/

namespace Honeynet.AssetGateway

open Collections Orchestrator Relation Text

/-- The hello of an SSH client, and what stands for typed text. -/
def LoginProtocol.vocabulary (protocol : LoginProtocol) : List String :=
  ["SSH_CLIENT_HELLO", protocol.fallback]

/-- The commands of the protocol events of one chunk. -/
def written (origin : Origin) (data : List UInt8) : List String :=
  (observeData origin data).flatMap ProtocolEvent.allCommands

/-- One typed word is another one.  The hello of an SSH client is not typed. -/
structure Retyped (data data' : List UInt8) : Prop where
  hello : isHello data = isHello data'
  typed : ∃ before word word' after : List UInt8,
    data = before ++ (word ++ after) ∧ data' = before ++ (word' ++ after) ∧
      IsWord (decode word) ∧ IsWord (decode word') ∧
      (∀ c ∈ (decode before).getLast?, isSpace c = true) ∧ Ended (decode after)

/-- **The event of a chunk has nothing in it that was typed.** -/
structure NoTypedText (origin : Origin) (protocol : LoginProtocol) (data : List UInt8) : Prop where
  drawn : ∀ command ∈ written origin data, command ∈ protocol.vocabulary
  same : ∀ data', ReflTransGen Retyped data data' → written origin data' = written origin data

/-! ### The commands of an event -/

theorem head?_dedupePreserve (values : List String) :
    (dedupePreserve values).head? = values.head? := by
  cases values with
  | nil => rfl
  | cons value values =>
    obtain ⟨rest, hrest⟩ := prefix_appendNew [value] values
    have hfirst : dedupePreserve (value :: values) = appendNew [value] values := rfl
    rw [hfirst, ← hrest]
    rfl

/-- The commands of a simple event, of which the first is told again. -/
theorem allCommands_simple {origin : Origin} {service : String} {logtype : ℕ}
    {commands : List String} {extra : Settings} {data : List UInt8} (hdata : data ≠ [])
    (hextra : "COMMANDS" ∉ extra.map Prod.fst ∧ "COMMAND" ∉ extra.map Prod.fst) :
    (reportSimpleProtocolEvent origin service logtype commands extra data).flatMap
      ProtocolEvent.allCommands = commands ++ commands.head?.toList := by
  rw [reportSimpleProtocolEvent, if_neg fun h => hdata h.1, List.flatMap_singleton,
    ProtocolEvent.allCommands]
  cases commands with
  | nil =>
    refine congrArg₂ (· ++ ·) (commands_of_lookup ?_) (congrArg Option.toList ?_)
    · exact lookup_update_of_notMem hextra.1
    · rw [ProtocolEvent.command, Settings.get]
      exact congrArg (fun v => (v.getD Value.none).str?) (lookup_update_of_notMem hextra.2)
  | cons command commands =>
    refine congrArg₂ (· ++ ·) (commands_of_lookup ?_) (congrArg Option.toList ?_)
    · exact (lookup_update_of_notMem hextra.1).trans
        (lookup_set_ne _ (by decide) _)
    · rw [ProtocolEvent.command, Settings.get]
      exact congrArg (fun v => (v.getD Value.none).str?)
        ((lookup_update_of_notMem hextra.2).trans (lookup_set_self _ _ _))

section Login

variable {origin : Origin} {protocol : LoginProtocol} {data : List UInt8}

/-- **The commands of the event of a chunk** on a login route. -/
theorem written_login (hroute : protocolObserver origin.route = some (.login protocol))
    (hdata : data ≠ []) : written origin data =
      parseLoginProtocolCommands protocol.fallback data ++
        (parseLoginProtocolCommands protocol.fallback data).head?.toList := by
  rw [written, observeData, hroute, Option.elim_some, Observer.report]
  cases protocol with
  | ssh => exact allCommands_simple hdata (by decide)
  | telnet => exact allCommands_simple hdata (by decide)

theorem written_nil (hroute : protocolObserver origin.route = some (.login protocol)) :
    written origin [] = [] := by
  rw [written, observeData, hroute, Option.elim_some, Observer.report]
  cases protocol with
  | ssh => rfl
  | telnet => rfl

theorem ne_nil_of_hello (h : isHello data = true) : data ≠ [] := by
  rintro rfl
  exact absurd h (by decide)

theorem written_hello (hroute : protocolObserver origin.route = some (.login protocol))
    (h : isHello data = true) : written origin data = ["SSH_CLIENT_HELLO", "SSH_CLIENT_HELLO"] := by
  rw [written_login hroute (ne_nil_of_hello h), parseLoginProtocolCommands, if_pos h]
  rfl

/-- Of a blank chunk only the marker is written. -/
theorem written_blank (hroute : protocolObserver origin.route = some (.login protocol))
    (hhello : isHello data = false) (hblank : ∀ c ∈ decode data, isSpace c = true)
    (hdata : data ≠ []) : written origin data = [protocol.fallback, protocol.fallback] := by
  have hnone : parseTextCommands data = [] := by rw [parseTextCommands, verbs_blank hblank]; rfl
  have hparse : parseLoginProtocolCommands protocol.fallback data = [protocol.fallback] := by
    rw [parseLoginProtocolCommands, hhello, if_neg (by decide), hnone]
    exact if_neg hdata
  rw [written_login hroute hdata, hparse]
  rfl

/-- **Of any other chunk the first word is written.** -/
theorem head?_written (hroute : protocolObserver origin.route = some (.login protocol))
    (hhello : isHello data = false) {verb : String} (hverb : (verbs data).head? = some verb) :
    (written origin data).head? = some verb := by
  have hdata : data ≠ [] := by
    rintro rfl
    have hnone : (verbs []).head? = none := rfl
    exact absurd (hnone.symm.trans hverb) (by simp)
  have htext : (parseTextCommands data).head? = some verb := by
    rw [parseTextCommands, head?_dedupePreserve, hverb]
  obtain ⟨commands, hcommands⟩ := List.head?_eq_some_iff.mp htext
  have hparse : parseLoginProtocolCommands protocol.fallback data = verb :: commands := by
    rw [parseLoginProtocolCommands, hhello, if_neg (by decide), hcommands]
  rw [written_login hroute hdata, hparse]
  rfl

/-! ### Chunks that differ in what was typed -/

theorem hello_of_retyped {data' : List UInt8} (h : ReflTransGen Retyped data data') :
    isHello data = isHello data' := by
  induction h with
  | refl => rfl
  | tail _ hstep ih => exact ih.trans hstep.hello

/-- In a blank chunk nothing was typed. -/
theorem eq_of_retyped_blank (hblank : ∀ c ∈ decode data, isSpace c = true) {data' : List UInt8}
    (h : ReflTransGen Retyped data data') : data' = data := by
  rcases h.cases_head with heq | ⟨middle, hstep, -⟩
  · exact heq.symm
  · obtain ⟨before, word, word', after, rfl, -, hword, -⟩ := hstep.typed
    obtain ⟨c, hc⟩ := List.exists_mem_of_ne_nil _ hword.1
    have hmem : c ∈ decode (before ++ (word ++ after)) := by
      rw [decode, List.map_append, List.map_append]
      exact List.mem_append_right _ (List.mem_append_left _ hc)
    exact absurd (hblank c hmem) (by rw [hword.2 c hc]; decide)

theorem head?_of_hello (h : isHello data = true) : (decode data).head? = some 'S' := by
  obtain ⟨rest, hrest⟩ := List.isPrefixOf_iff_prefix.mp h
  rw [← hrest]
  rfl

/-- A letter that is not what a word is in capitals. -/
def otherLetter (word : List UInt8) : List UInt8 :=
  if upper (decode word) = ['A'] then [66] else [65]

theorem otherLetter_eq (word : List UInt8) : otherLetter word = [65] ∨ otherLetter word = [66] := by
  rw [otherLetter]
  by_cases h : upper (decode word) = ['A']
  · rw [if_pos h]; exact Or.inr rfl
  · rw [if_neg h]; exact Or.inl rfl

theorem isWord_otherLetter (word : List UInt8) : IsWord (decode (otherLetter word)) := by
  rcases otherLetter_eq word with h | h <;> rw [h] <;> decide

theorem upper_otherLetter_ne (word : List UInt8) :
    upper (decode (otherLetter word)) ≠ upper (decode word) := by
  rw [otherLetter]
  by_cases h : upper (decode word) = ['A']
  · rw [if_pos h, h]; decide
  · rw [if_neg h]; exact fun heq => h (heq.symm.trans (by decide))

theorem not_hello_otherLetter {before : List UInt8}
    (hbefore : ∀ c ∈ decode before, isSpace c = true) (word after : List UInt8) :
    isHello (before ++ (otherLetter word ++ after)) = false := by
  refine Bool.eq_false_iff.mpr fun h => ?_
  have hhead := head?_of_hello h
  cases before with
  | nil =>
    rcases otherLetter_eq word with hl | hl
    · rw [hl] at hhead
      have hletter : 'A' = 'S' := Option.some.inj hhead
      exact absurd hletter (by decide)
    · rw [hl] at hhead
      have hletter : 'B' = 'S' := Option.some.inj hhead
      exact absurd hletter (by decide)
  | cons b before =>
    have hs : Char.ofNat b.toNat = 'S' := Option.some.inj hhead
    have hspace := hbefore (Char.ofNat b.toNat) List.mem_cons_self
    rw [hs] at hspace
    exact absurd hspace (by decide)

/-- **Nothing typed is written if and only if the chunk is a hello or blank.** -/
theorem noTypedText_iff (hroute : protocolObserver origin.route = some (.login protocol))
    (data : List UInt8) : NoTypedText origin protocol data ↔
      isHello data = true ∨ ∀ c ∈ decode data, isSpace c = true := by
  constructor
  · intro h
    by_contra hneither
    obtain ⟨hnot, htyped⟩ := not_or.mp hneither
    have hhello : isHello data = false := Bool.eq_false_iff.mpr hnot
    obtain ⟨before', word', after', hsplit, hbefore, hword, hafter⟩ := exists_first_word htyped
    obtain ⟨before, rest, rfl, rfl, hrest⟩ := List.map_eq_append_iff.mp hsplit
    obtain ⟨word, after, rfl, rfl, rfl⟩ := List.map_eq_append_iff.mp hrest
    have hlast : ∀ c ∈ (decode before).getLast?, isSpace c = true := fun c hc =>
      hbefore c (List.mem_of_mem_getLast? hc)
    have hother := not_hello_otherLetter hbefore word after
    have hretyped : Retyped (before ++ (word ++ after)) (before ++ (otherLetter word ++ after)) :=
      ⟨hhello.trans hother.symm, before, word, otherLetter word, after, rfl, rfl, hword,
        isWord_otherLetter word, hlast, hafter⟩
    have hsame := h.same _ (ReflTransGen.single hretyped)
    have hfirst := head?_written hroute hhello (head?_verbs hbefore hword hafter)
    have hsecond := head?_written hroute hother
      (head?_verbs hbefore (isWord_otherLetter word) hafter)
    rw [hsame, hfirst] at hsecond
    exact upper_otherLetter_ne word (String.ofList_injective (Option.some.inj hsecond)).symm
  · rintro (hhello | hblank)
    · refine ⟨fun command hcommand => ?_, fun data' h => ?_⟩
      · rw [written_hello hroute hhello] at hcommand
        rcases List.mem_pair.mp hcommand with rfl | rfl <;> exact List.mem_cons_self
      · have hhello' : isHello data' = true := (hello_of_retyped h).symm.trans hhello
        rw [written_hello hroute hhello', written_hello hroute hhello]
    · refine ⟨fun command hcommand => ?_, fun data' h => by rw [eq_of_retyped_blank hblank h]⟩
      by_cases hdata : data = []
      · rw [hdata, written_nil hroute] at hcommand
        exact absurd hcommand List.not_mem_nil
      · have hhello : isHello data = false := by
          refine Bool.eq_false_iff.mpr fun h => ?_
          have hmem := List.mem_of_mem_head? (head?_of_hello h)
          exact absurd (hblank 'S' hmem) (by decide)
        rw [written_blank hroute hhello hblank hdata] at hcommand
        rcases List.mem_pair.mp hcommand with rfl | rfl <;>
          exact List.mem_cons_of_mem _ List.mem_cons_self

end Login

/-! ### A user name that is written -/

/-- The route of the Telnet asset. -/
def telnetOrigin : Origin :=
  ⟨⟨"198.51.100.7", "b-1", "legacy-telnet", "Legacy Telnet", "tcp", 12323, "legacy-telnet", 23,
    "172.18.0.9", "2026-04-18T12:00:00Z"⟩, "198.51.100.7", "2026-04-18T12:00:01Z"⟩

/-- An empty line. -/
theorem empty_line_untyped : NoTypedText telnetOrigin .telnet [13, 10] :=
  (noTypedText_iff (by decide) [13, 10]).mpr (Or.inr (by decide))

/-- **`root` is typed at the login prompt.** -/
theorem typed_name_written : ¬ ∀ (origin : Origin) (protocol : LoginProtocol) (data : List UInt8),
    protocolObserver origin.route = some (.login protocol) → NoTypedText origin protocol data := by
  intro h
  have hdrawn := (h telnetOrigin .telnet [114, 111, 111, 116, 13, 10] (by decide)).drawn "ROOT"
    (by decide +kernel)
  exact absurd hdrawn (by decide)

end Honeynet.AssetGateway
