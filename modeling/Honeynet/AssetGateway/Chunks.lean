import Honeynet.AssetGateway.Logins

/-!
# A command stream cut into chunks

The observer of a mail or a file transfer route reads each chunk on its own, wherever the network
has cut the stream.

* `Cut`: the chunks in which a stream is received.
* `mem_reported`: what is reported of the chunks.
* `mem_reported_of_lineEnds`: chunks that end where lines end report the commands of the stream.
* `chunkInvariant_iff`: all ways to cut a stream report the same if and only if no piece of it is a
  command.
-/

namespace Honeynet.AssetGateway

open Collections Orchestrator Text

/-- What one `read` returned, and when. -/
structure Received where
  data : List UInt8
  now : String

/-- `_pipe` observes what it reads until a read returns nothing. -/
def piped (reads : List Received) : List Received := reads.takeWhile fun r => r.data ≠ []

/-- The commands reported over a connection. -/
def reported (route : GatewayRoute) (clientIp : String) (reads : List Received) : List String :=
  (piped reads).flatMap fun r => written ⟨route, clientIp, r.now⟩ r.data

/-- The stream is received in these chunks. -/
structure Cut (stream : List UInt8) (reads : List Received) : Prop where
  whole : reads.flatMap Received.data = stream
  read : ∀ r ∈ reads, r.data ≠ [] ∧ r.data.length ≤ 65536

/-- **What is reported of a stream does not depend on how it is cut**, and it is what the stream
in one piece has. -/
structure ChunkInvariant (protocol : MailProtocol) (route : GatewayRoute) (clientIp : String)
    (stream : List UInt8) : Prop where
  agree : ∀ reads reads', Cut stream reads → Cut stream reads' → ∀ command,
    command ∈ reported route clientIp reads ↔ command ∈ reported route clientIp reads'
  whole : ∀ reads, Cut stream reads → ∀ command,
    command ∈ reported route clientIp reads ↔ command ∈ parseCommands protocol.commands stream

/-! ### What is reported -/

section Reported

variable {protocol : MailProtocol} {route : GatewayRoute} {clientIp : String}
  {stream : List UInt8} {reads : List Received}

theorem allCommands_mail {origin : Origin} (service : String) {logtype : ℕ}
    {commands : List String} {logdata : Settings}
    (h : List.lookup "COMMANDS" logdata =
      List.lookup "COMMANDS" (baseLogdata origin service commands))
    (hnone : List.lookup "COMMAND" logdata = none) :
    (protocolEvent origin logtype logdata).allCommands = commands := by
  have hlist : List.lookup "COMMANDS" logdata = some (.list (commands.map .str)) := h
  rw [ProtocolEvent.allCommands, commands_of_lookup hlist, ProtocolEvent.command, Settings.get,
    protocolEvent, hnone]
  exact List.append_nil commands

/-- **A mail event has the valid verbs of its chunk.** -/
theorem written_mail {origin : Origin}
    (hroute : protocolObserver origin.route = some (.mail protocol)) (data : List UInt8) :
    written origin data = parseCommands protocol.commands data := by
  rw [written, observeData, hroute, Option.elim_some, Observer.report]
  cases protocol with
  | smtp =>
    rw [MailProtocol.report, reportSmtpCommands]
    by_cases hnone : parseSmtpCommands data = []
    · rw [if_pos hnone]
      exact hnone.symm
    · rw [if_neg hnone, List.flatMap_singleton]
      refine allCommands_mail "smtp" ?_ ?_
      · split_ifs
        · exact lookup_set_ne _ (by decide) _
        · rfl
      · split_ifs
        · exact lookup_set_ne _ (by decide) _
        · rfl
  | ftp =>
    rw [MailProtocol.report, reportFtpCommands]
    by_cases hnone : parseFtpCommands data = []
    · rw [if_pos hnone]
      exact hnone.symm
    · rw [if_neg hnone, List.flatMap_singleton]
      refine allCommands_mail "ftp" ?_ ?_
      · split_ifs
        · exact (lookup_set_ne _ (by decide) _).trans (lookup_set_ne _ (by decide) _)
        · exact lookup_set_ne _ (by decide) _
        · exact lookup_set_ne _ (by decide) _
        · rfl
      · split_ifs
        · exact (lookup_set_ne _ (by decide) _).trans (lookup_set_ne _ (by decide) _)
        · exact lookup_set_ne _ (by decide) _
        · exact lookup_set_ne _ (by decide) _
        · rfl

theorem piped_cut (h : Cut stream reads) : piped reads = reads :=
  List.takeWhile_eq_self_iff.mpr fun r hr => decide_eq_true (h.read r hr).1

/-- **What is reported of the chunks**: the valid verbs of each. -/
theorem mem_reported (hroute : protocolObserver route = some (.mail protocol))
    (h : Cut stream reads) {command : String} :
    command ∈ reported route clientIp reads ↔
      (∃ r ∈ reads, command ∈ verbs r.data) ∧ command ∈ protocol.commands := by
  have hchunk : ∀ r : Received, written ⟨route, clientIp, r.now⟩ r.data =
      parseCommands protocol.commands r.data := fun r => written_mail hroute r.data
  rw [reported, piped_cut h, List.mem_flatMap]
  constructor
  · rintro ⟨r, hr, hcommand⟩
    rw [hchunk, mem_parseCommands] at hcommand
    exact ⟨⟨r, hr, hcommand.1⟩, hcommand.2⟩
  · rintro ⟨⟨r, hr, hverb⟩, hvalid⟩
    exact ⟨r, hr, by rw [hchunk, mem_parseCommands]; exact ⟨hverb, hvalid⟩⟩

/-! ### Chunks that end where lines end -/

/-- The last byte of a chunk is a carriage return or a line feed. -/
def EndsInBreak (data : List UInt8) : Prop := data.getLast? = some 13 ∨ data.getLast? = some 10

theorem endsLine_of_endsInBreak {data : List UInt8} (h : EndsInBreak data) :
    EndsLine (unifyBreaks (decode data)) := by
  rw [EndsLine, unifyBreaks, decode, List.getLast?_map, List.getLast?_map]
  rcases h with h | h <;> rw [h] <;> rfl

/-- After a line break the rest of a stream is read as if it stood alone. -/
theorem verbs_append {data : List UInt8} (h : EndsInBreak data) (rest : List UInt8) :
    verbs (data ++ rest) = verbs data ++ verbs rest := by
  have hunified : unifyBreaks (decode (data ++ rest)) =
      unifyBreaks (decode data) ++ unifyBreaks (decode rest) := by
    rw [unifyBreaks, decode, List.map_append, List.map_append]
    rfl
  rw [verbs, hunified, firstWords_append (endsLine_of_endsInBreak h), List.map_append]
  rfl

theorem verbs_flatMap (hends : ∀ r ∈ reads.dropLast, EndsInBreak r.data) :
    verbs (reads.flatMap Received.data) = reads.flatMap fun r => verbs r.data := by
  induction reads with
  | nil => rfl
  | cons r reads ih =>
    rw [List.flatMap_cons, List.flatMap_cons]
    cases reads with
    | nil => rw [List.flatMap_nil, List.flatMap_nil, List.append_nil, List.append_nil]
    | cons next reads =>
      rw [List.dropLast_cons_cons] at hends
      rw [verbs_append (hends r List.mem_cons_self),
        ih fun r' hr' => hends r' (List.mem_cons_of_mem r hr')]

/-- **Chunks that end where lines end report the commands of the stream.** -/
theorem mem_reported_of_lineEnds (hroute : protocolObserver route = some (.mail protocol))
    (h : Cut stream reads) (hends : ∀ r ∈ reads.dropLast, EndsInBreak r.data) {command : String} :
    command ∈ reported route clientIp reads ↔ command ∈ parseCommands protocol.commands stream := by
  rw [mem_reported hroute h, mem_parseCommands, ← h.whole, verbs_flatMap hends, List.mem_flatMap]

/-! ### All cuts -/

/-- The commands of a protocol are words of three or four letters. -/
theorem valid_word {command : String} (h : command ∈ protocol.commands) :
    (3 ≤ command.toList.length ∧ command.toList.length ≤ 4) ∧
      ∀ c ∈ command.toList, isSpace c = false := by
  revert command
  cases protocol with
  | smtp => decide
  | ftp => decide

theorem length_upper_le (t : List Char) : (upper t).length ≤ 2 * t.length := by
  induction t with
  | nil => exact le_rfl
  | cons c t ih =>
    have hc := length_upperChar c
    have hsplit : upper (c :: t) = upperChar c ++ upper t := rfl
    rw [hsplit, List.length_append, List.length_cons]
    omega

theorem le_length_upper (t : List Char) : t.length ≤ (upper t).length := by
  induction t with
  | nil => exact le_rfl
  | cons c t ih =>
    have hc : 1 ≤ (upperChar c).length := by
      rw [upperChar]
      split_ifs <;> simp
    have hsplit : upper (c :: t) = upperChar c ++ upper t := rfl
    rw [hsplit, List.length_append, List.length_cons]
    omega

/-- A single byte is no command. -/
theorem verbs_byte {b : UInt8} {command : String} (h : command ∈ verbs [b]) :
    command ∉ protocol.commands := by
  obtain ⟨piece, hpiece, rfl, -⟩ := verb_piece h
  intro hvalid
  have hlong := (valid_word hvalid).1.1
  have hshort := length_upper_le (decode piece)
  have hone := hpiece.length_le
  rw [String.toList_ofList] at hlong
  rw [decode, List.length_map] at hshort
  rw [List.length_singleton] at hone
  rw [decode] at hlong
  omega

/-- A piece that is a command is a word, and fits into a chunk. -/
theorem piece_word {piece : List UInt8}
    (h : String.ofList (upper (decode piece)) ∈ protocol.commands) :
    IsWord (decode piece) ∧ piece ≠ [] ∧ piece.length ≤ 65536 := by
  obtain ⟨⟨hlong, hshort⟩, hword⟩ := valid_word h
  rw [String.toList_ofList] at hlong hshort hword
  have hlength : (decode piece).length = piece.length := List.length_map _
  have hle := le_length_upper (decode piece)
  have hle' := length_upper_le (decode piece)
  have hne : piece ≠ [] := by
    rintro rfl
    exact absurd hlong (by decide)
  refine ⟨⟨fun hnil => hne (List.map_eq_nil_iff.mp hnil), fun c hc => ?_⟩, hne, by omega⟩
  by_contra hspace
  have htrue : isSpace c = true := by simpa using hspace
  exact absurd (hword c (mem_upper htrue hc)) hspace

/-- The stream, byte by byte. -/
def bytewise (stream : List UInt8) : List Received := stream.map fun b => ⟨[b], ""⟩

theorem flatMap_bytewise (stream : List UInt8) :
    (bytewise stream).flatMap Received.data = stream := by
  rw [bytewise, List.flatMap_map]
  exact List.flatMap_singleton' stream

theorem read_bytewise {r : Received} (hr : r ∈ bytewise stream) :
    ∃ b, r.data = [b] := by
  obtain ⟨b, -, rfl⟩ := List.mem_map.mp hr
  exact ⟨b, rfl⟩

theorem read_bytewise_fits {r : Received} (hr : r ∈ bytewise stream) :
    r.data ≠ [] ∧ r.data.length ≤ 65536 := by
  obtain ⟨b, hb⟩ := read_bytewise hr
  rw [hb]
  exact ⟨by simp, by simp⟩

theorem cut_bytewise (stream : List UInt8) : Cut stream (bytewise stream) :=
  ⟨flatMap_bytewise stream, fun _ hr => read_bytewise_fits hr⟩

/-- One piece is received at once, and what is around it byte by byte. -/
theorem cut_around (before after : List UInt8) {piece : List UInt8} (hne : piece ≠ [])
    (hfits : piece.length ≤ 65536) : Cut (before ++ piece ++ after)
      (bytewise before ++ ⟨piece, ""⟩ :: bytewise after) := by
  refine ⟨?_, fun r hr => ?_⟩
  · rw [List.flatMap_append, List.flatMap_cons, flatMap_bytewise, flatMap_bytewise,
      List.append_assoc]
  · rcases List.mem_append.mp hr with hr | hr
    · exact read_bytewise_fits hr
    · rcases List.mem_cons.mp hr with rfl | hr
      · exact ⟨hne, hfits⟩
      · exact read_bytewise_fits hr

/-- **All ways to cut a stream report the same if and only if no piece of it is a command.** -/
theorem chunkInvariant_iff (hroute : protocolObserver route = some (.mail protocol))
    (clientIp : String) (stream : List UInt8) : ChunkInvariant protocol route clientIp stream ↔
      ∀ piece, piece <:+: stream → String.ofList (upper (decode piece)) ∉ protocol.commands := by
  constructor
  · rintro h piece ⟨before, after, rfl⟩ hvalid
    obtain ⟨hword, hne, hfits⟩ := piece_word hvalid
    have hcut := cut_around before after hne hfits
    have hpiece : String.ofList (upper (decode piece)) ∈ reported route clientIp
        (bytewise before ++ ⟨piece, ""⟩ :: bytewise after) := by
      refine (mem_reported hroute hcut).mpr ⟨⟨⟨piece, ""⟩, by simp, ?_⟩, hvalid⟩
      rw [verbs_word hword]
      exact List.mem_singleton_self _
    have hbytes := (h.agree _ _ hcut (cut_bytewise _) _).mp hpiece
    obtain ⟨⟨r, hr, hverb⟩, -⟩ := (mem_reported hroute (cut_bytewise _)).mp hbytes
    obtain ⟨b, hb⟩ := read_bytewise hr
    rw [hb] at hverb
    exact verbs_byte hverb hvalid
  · intro h
    have hnone : ∀ {data : List UInt8}, data <:+: stream → ∀ command ∈ verbs data,
        command ∉ protocol.commands := fun {data} hdata command hcommand => by
      obtain ⟨piece, hpiece, rfl, -⟩ := verb_piece hcommand
      exact h piece (hpiece.trans hdata)
    have hreported : ∀ reads, Cut stream reads → ∀ command,
        command ∉ reported route clientIp reads := fun reads hcut command hcommand => by
      obtain ⟨⟨r, hr, hverb⟩, hvalid⟩ := (mem_reported hroute hcut).mp hcommand
      have hinfix : r.data <:+: stream := by
        rw [← hcut.whole, List.flatMap_def]
        exact List.infix_of_mem_flatten (List.mem_map_of_mem hr)
      exact hnone hinfix command hverb hvalid
    refine ⟨fun reads reads' hcut hcut' command => ?_, fun reads hcut command => ?_⟩
    · exact iff_of_false (hreported reads hcut command) (hreported reads' hcut' command)
    · refine iff_of_false (hreported reads hcut command) fun hparsed => ?_
      rw [mem_parseCommands] at hparsed
      exact hnone List.infix_rfl command hparsed.1 hparsed.2

end Reported

/-! ### A command that is cut in two -/

/-- The route of the mail relay. -/
def mailRoute : GatewayRoute :=
  ⟨"198.51.100.7", "b-1", "mail-relay", "Mail Relay", "tcp", 2525, "mail-relay", 25, "172.18.0.8",
    "2026-04-18T12:00:00Z"⟩

/-- A greeting that is no command. -/
theorem greeting_invariant : ChunkInvariant .smtp mailRoute "198.51.100.7" [72, 73] := by
  refine (chunkInvariant_iff (by decide) "198.51.100.7" [72, 73]).mpr fun piece hpiece => ?_
  have hpieces : piece = [] ∨ piece = [73] ∨
      ∃ rest, piece = 72 :: rest ∧ (rest = [] ∨ rest = [73]) := by
    simpa [List.infix_cons_iff, List.prefix_cons_iff, or_assoc, or_comm, or_left_comm] using hpiece
  rcases hpieces with rfl | rfl | ⟨rest, rfl, rfl | rfl⟩ <;> decide +kernel

/-- **`QUIT` is received as `QU` and `IT`.** -/
theorem cut_command_missed : ¬ ∀ (protocol : MailProtocol) (route : GatewayRoute)
    (clientIp : String) (stream : List UInt8), protocolObserver route = some (.mail protocol) →
    ChunkInvariant protocol route clientIp stream := by
  intro h
  have hcut : Cut [81, 85, 73, 84, 13, 10] [⟨[81, 85], ""⟩, ⟨[73, 84, 13, 10], ""⟩] :=
    ⟨by decide, by decide⟩
  have hwhole := ((h .smtp mailRoute "198.51.100.7" _ (by decide)).whole _ hcut "QUIT").mpr
    (by decide +kernel)
  exact absurd hwhole (by decide +kernel)

end Honeynet.AssetGateway
