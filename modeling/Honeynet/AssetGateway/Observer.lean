import Honeynet.Lib.FirstWords
import Honeynet.Orchestrator.World

/-!
# What the asset gateway writes down of a connection

The gateway copies bytes between a client and the backend of a route.  Each chunk it receives
from the client is read on its own by the observer of the route, which may append a protocol
event.

* `parseTextCommands`, `parseCommands`: the verbs of the lines of a chunk.
* `protocolObserver`: which observer a route has.
* `Observer.report`: the events an observer appends for one chunk.
* `mem_parseCommands`, `parseCommands_piece`: a chunk reports the valid verbs it has, each of which
  is a piece of it.
-/

namespace Honeynet.AssetGateway

open Collections Orchestrator Text

/-! ### Texts -/

/-- `data.decode("iso-8859-1")`. -/
def decode (data : List UInt8) : List Char := data.map fun b => Char.ofNat b.toNat

/-- `str.upper()` of one character of that encoding. -/
def upperChar (c : Char) : List Char :=
  if 97 ≤ c.toNat ∧ c.toNat ≤ 122 then [Char.ofNat (c.toNat - 32)]
  else if c.toNat = 181 then [Char.ofNat 924]
  else if c.toNat = 223 then ['S', 'S']
  else if c.toNat = 255 then [Char.ofNat 376]
  else if 224 ≤ c.toNat ∧ c.toNat ≤ 254 ∧ c.toNat ≠ 247 then [Char.ofNat (c.toNat - 32)]
  else [c]

/-- `text.upper()`. -/
def upper (t : List Char) : List Char := t.flatMap upperChar

/-- `text.replace("\r", "\n")`. -/
def unifyBreaks (t : List Char) : List Char := t.map fun c => if c = '\r' then '\n' else c

/-- The first word of each line of a chunk, in capitals. -/
def verbs (data : List UInt8) : List String :=
  (firstWords (unifyBreaks (decode data))).map fun w => String.ofList (upper w)

/-- `dedupe_preserve`. -/
def dedupePreserve (values : List String) : List String := appendNew [] values

/-! ### The commands of one chunk -/

def parseTextCommands (data : List UInt8) : List String := dedupePreserve (verbs data)

/-- The verbs of a protocol. -/
def parseCommands (validCommands : List String) (data : List UInt8) : List String :=
  dedupePreserve ((verbs data).filter (· ∈ validCommands))

def ftpCommands : List String :=
  ["APPE", "CWD", "FEAT", "LIST", "MLSD", "NLST", "PASS", "PWD", "QUIT", "RETR", "STOR", "STOU",
    "SYST", "USER"]

def parseFtpCommands (data : List UInt8) : List String := parseCommands ftpCommands data

def smtpCommands : List String :=
  ["AUTH", "DATA", "EHLO", "EXPN", "HELO", "MAIL", "NOOP", "QUIT", "RCPT", "RSET", "VRFY"]

def parseSmtpCommands (data : List UInt8) : List String := parseCommands smtpCommands data

def sqlVerbs (data : List UInt8) : List String :=
  parseCommands ["ALTER", "CREATE", "DELETE", "DESC", "DESCRIBE", "DROP", "EXPLAIN", "INSERT",
    "SELECT", "SHOW", "UPDATE", "USE"] data

/-- An SSH client says hello. -/
def isHello (data : List UInt8) : Bool := "SSH-".toList.isPrefixOf (decode data)

def parseLoginProtocolCommands (fallback : String) (data : List UInt8) : List String :=
  if isHello data then ["SSH_CLIENT_HELLO"]
  else
    match parseTextCommands data with
    | [] => if data = [] then [] else [fallback]
    | command :: commands => command :: commands

/-- `re.findall(r"\r?\n([A-Za-z]+)\r?\n", text)` at the start of a text. -/
def redisName (t : List Char) : Option (List Char) :=
  match removePrefix ['\r'] t with
  | '\n' :: rest =>
    let name := rest.takeWhile Char.isAlpha
    match removePrefix ['\r'] (rest.dropWhile Char.isAlpha) with
    | '\n' :: _ => if name = [] then none else some name
    | _ => none
  | _ => none

def parseRedisCommands (data : List UInt8) : List String :=
  let text := decode data
  if ['*'].isPrefixOf text then
    -- only the first name of the array counts
    ((text.tails.findSome? redisName).map fun name => String.ofList (upper name)).toList
  else ((words (strip text)).head?.map fun word => String.ofList (upper word)).toList

def parseGitCommands (data : List UInt8) : List String :=
  let text := decode data
  let services := [("git-upload-pack", "GIT_UPLOAD_PACK"),
    ("git-receive-pack", "GIT_RECEIVE_PACK"), ("git-upload-archive", "GIT_UPLOAD_ARCHIVE")]
  let commands := (services.filter fun e => contains e.1.toList text).map Prod.snd
  let commands := if contains "command=ls-refs".toList text || contains "\nls-refs\n".toList text
    then commands ++ ["GIT_LS_REFS"] else commands
  let commands := if contains "command=fetch".toList text || contains "\nfetch\n".toList text
    then commands ++ ["GIT_FETCH"] else commands
  if commands = [] ∧ data ≠ [] then ["GIT_CONNECT"] else commands

/-- The path after the name of a Git service at the start of a text. -/
def gitPath (t : List Char) : Option (List Char) :=
  ["git-upload-pack", "git-receive-pack", "git-upload-archive"].findSome? fun name =>
    (afterPrefix name.toList t).bind fun rest =>
      let path := (rest.dropWhile isSpace).takeWhile fun c => c.toNat != 0 && !isSpace c
      if rest.takeWhile isSpace = [] ∨ path = [] then none else some path

/-- `text.strip("/")`. -/
def stripSlashes (t : List Char) : List Char :=
  (((t.dropWhile (· == '/')).reverse).dropWhile (· == '/')).reverse

def parseGitRepo (data : List UInt8) : Option String :=
  ((decode data).tails.findSome? gitPath).bind fun path =>
    let repo := String.ofList (stripSlashes path)
    if repo = "" then none else some repo

/-- The command a MySQL packet names by its fifth byte. -/
def mysqlPacketCommands (data : List UInt8) : List String :=
  match data[4]? with
  | none => []
  | some command =>
    if command = 3 then
      let queried := sqlVerbs (data.drop 5)
      if queried = [] then ["MYSQL_QUERY"] else queried
    else if command = 22 then ["MYSQL_STMT_PREPARE"]
    else if command = 23 then ["MYSQL_STMT_EXECUTE"]
    else if command = 2 then ["MYSQL_INIT_DB"]
    else if command = 14 then ["MYSQL_PING"]
    else if command = 1 then ["MYSQL_QUIT"]
    else []

def parseMysqlCommands (data : List UInt8) : List String :=
  if data = [] then []
  else
    let commands := mysqlPacketCommands data
    let commands := if commands = [] then sqlVerbs data else commands
    if commands = [] then ["MYSQL_LOGIN"] else commands

/-! ### Events -/

/-- A line of `internal_protocol_events.jsonl`. -/
structure ProtocolEvent where
  srcHost : String
  dstHost : String
  dstPort : Int
  utcTime : String
  logtype : ℕ
  nodeId : String
  logdata : Settings

/-- Where a chunk comes from, and when: the route, the address of the client and the text of the
clock. -/
structure Origin where
  route : GatewayRoute
  clientIp : String
  now : String

def baseLogdata (origin : Origin) (service : String) (commands : List String) : Settings :=
  [("SERVICE", .str service), ("ASSET_ID", .str origin.route.assetId),
    ("COMMANDS", .list (commands.map .str)),
    ("ASSET_GATEWAY_PUBLIC_PORT", .int origin.route.publicPort),
    ("ASSET_GATEWAY_BACKEND_HOST", .str origin.route.backendHost)]

def protocolEvent (origin : Origin) (logtype : ℕ) (logdata : Settings) : ProtocolEvent where
  srcHost := origin.clientIp
  dstHost := origin.route.backendHost
  dstPort := origin.route.backendPort
  utcTime := origin.now
  logtype
  nodeId := "asset-gateway-" ++ origin.route.assetId
  logdata

/-- What says that credentials were tried, but not which. -/
def credentialMarkers : Settings :=
  [("USERNAME", .str "observed"), ("PASSWORD", .str "[redacted]")]

def reportSmtpCommands (origin : Origin) (data : List UInt8) : List ProtocolEvent :=
  let commands := parseSmtpCommands data
  if commands = [] then []
  else
    let logdata := baseLogdata origin "smtp" commands
    [protocolEvent origin 25001
      (if "AUTH" ∈ commands then Dict.set logdata "PASSWORD" (.str "[redacted]") else logdata)]

def reportFtpCommands (origin : Origin) (data : List UInt8) : List ProtocolEvent :=
  let commands := parseFtpCommands data
  if commands = [] then []
  else
    let logdata := baseLogdata origin "ftp" commands
    let logdata :=
      if "USER" ∈ commands then Dict.set logdata "USERNAME" (.str "observed") else logdata
    [protocolEvent origin 21001
      (if "PASS" ∈ commands then Dict.set logdata "PASSWORD" (.str "[redacted]") else logdata)]

def reportSimpleProtocolEvent (origin : Origin) (service : String) (logtype : ℕ)
    (commands : List String) (extra : Settings) (data : List UInt8) : List ProtocolEvent :=
  if data = [] ∧ service ≠ "git" then []
  else
    let logdata := baseLogdata origin service commands
    let logdata := match commands with
      | [] => logdata
      | command :: _ => Dict.set logdata "COMMAND" (.str command)
    [protocolEvent origin logtype (Dict.update logdata extra)]

def reportGitProtocolEvent (origin : Origin) (data : List UInt8) : List ProtocolEvent :=
  let commands := parseGitCommands data
  if commands = [] then []
  else
    reportSimpleProtocolEvent origin "git" 941801 commands
      ((parseGitRepo data).map fun repo => ("REPO", Value.str repo)).toList data

def loginProbeContext (commands : List String) : Settings :=
  if commands = ["MYSQL_LOGIN"] then credentialMarkers else []

/-! ### Observers -/

/-- A protocol whose commands are looked up in a table. -/
inductive MailProtocol
  | smtp
  | ftp
  deriving DecidableEq, Repr

namespace MailProtocol

def commands : MailProtocol → List String
  | smtp => smtpCommands
  | ftp => ftpCommands

def report : MailProtocol → Origin → List UInt8 → List ProtocolEvent
  | smtp => reportSmtpCommands
  | ftp => reportFtpCommands

end MailProtocol

/-- A protocol on which a client logs in. -/
inductive LoginProtocol
  | ssh
  | telnet
  deriving DecidableEq, Repr

namespace LoginProtocol

/-- What stands for a chunk in which no command is found. -/
def fallback : LoginProtocol → String
  | ssh => "SSH_CLIENT_DATA"
  | telnet => "TELNET_INPUT"

def report (protocol : LoginProtocol) (origin : Origin) (data : List UInt8) :
    List ProtocolEvent :=
  let commands := parseLoginProtocolCommands protocol.fallback data
  match protocol with
  | ssh => reportSimpleProtocolEvent origin "ssh" 22001 commands credentialMarkers data
  | telnet => reportSimpleProtocolEvent origin "telnet" 23001 commands credentialMarkers data

end LoginProtocol

inductive Observer
  | mail (protocol : MailProtocol)
  | redis
  | git
  | mysql
  | login (protocol : LoginProtocol)
  /-- Writes to the events of the high-interaction backends only. -/
  | highInteraction (source : String)
  deriving DecidableEq, Repr

def highInteractionSource (assetId : String) : String :=
  if assetId = "dionaea-capture" then "dionaea"
  else if assetId = "honeytrap-generic" then "honeytrap"
  else ""

/-- The observer of a route. -/
def protocolObserver (route : GatewayRoute) : Option Observer :=
  if route.assetId = "mail-relay" ∨ route.publicPort = 2525 then some (.mail .smtp)
  else if route.assetId = "ftp-archive" ∨ route.publicPort = 12121 then some (.mail .ftp)
  else if route.assetId = "redis-cache" ∨ route.publicPort = 16379 then some .redis
  else if route.assetId = "git-internal" ∨ route.publicPort = 19418 then some .git
  else if route.assetId = "ops-db" ∨ route.publicPort = 13306 then some .mysql
  else if route.assetId = "ssh-canary" ∨ route.publicPort = 12222 then some (.login .ssh)
  else if route.assetId = "legacy-telnet" ∨ route.publicPort = 12323 then some (.login .telnet)
  else if highInteractionSource route.assetId ≠ "" then
    some (.highInteraction (highInteractionSource route.assetId))
  else none

/-- The protocol events an observer appends for one chunk. -/
def Observer.report (origin : Origin) (data : List UInt8) : Observer → List ProtocolEvent
  | mail protocol => protocol.report origin data
  | redis => reportSimpleProtocolEvent origin "redis" 637901 (parseRedisCommands data) [] data
  | git => reportGitProtocolEvent origin data
  | mysql => reportSimpleProtocolEvent origin "mysql" 330601 (parseMysqlCommands data)
      (loginProbeContext (parseMysqlCommands data)) data
  | login protocol => protocol.report origin data
  | highInteraction _ => []

/-- The protocol events of one chunk on a route. -/
def observeData (origin : Origin) (data : List UInt8) : List ProtocolEvent :=
  (protocolObserver origin.route).elim [] (Observer.report origin data)

/-! ### The commands of an event -/

namespace ProtocolEvent

/-- `event["logdata"]["COMMANDS"]`. -/
def commands (e : ProtocolEvent) : List String :=
  match e.logdata.get "COMMANDS" with
  | .list xs => Value.strings xs
  | _ => []

/-- `event["logdata"].get("COMMAND")`. -/
def command (e : ProtocolEvent) : Option String := (e.logdata.get "COMMAND").str?

/-- All texts that an event gives as commands. -/
def allCommands (e : ProtocolEvent) : List String := e.commands ++ e.command.toList

end ProtocolEvent

theorem strings_map_str (xs : List String) : Value.strings (xs.map .str) = xs := by
  induction xs with
  | nil => rfl
  | cons x xs ih => rw [List.map_cons, Value.strings, List.filterMap_cons]; exact congrArg _ ih

/-- Markers leave the commands as they are. -/
theorem commands_of_lookup {e : ProtocolEvent} {commands : List String}
    (h : List.lookup "COMMANDS" e.logdata = some (.list (commands.map .str))) :
    e.commands = commands := by
  rw [ProtocolEvent.commands, Settings.get, h]
  exact strings_map_str commands

/-! ### Verbs -/

section Verbs

variable {data : List UInt8}

theorem length_upperChar (c : Char) : (upperChar c).length ≤ 2 := by
  rw [upperChar]
  split_ifs <;> simp

/-- A blank is no letter. -/
theorem upperChar_space {c : Char} (h : isSpace c = true) : upperChar c = [c] := by
  have hrange : c.toNat ≤ 32 ∨ c.toNat = 133 ∨ c.toNat = 160 ∨ 5760 ≤ c.toNat := by
    simp only [isSpace, Bool.or_eq_true, Bool.and_eq_true, decide_eq_true_eq, beq_iff_eq] at h
    omega
  rw [upperChar, if_neg (by omega), if_neg (by omega), if_neg (by omega), if_neg (by omega),
    if_neg (by omega)]

theorem mem_upper {t : List Char} {c : Char} (h : isSpace c = true) (hc : c ∈ t) :
    c ∈ upper t :=
  List.mem_flatMap.mpr ⟨c, hc, by rw [upperChar_space h]; exact List.mem_cons_self⟩

/-- A piece of a text without breaks is a piece of it before the breaks were unified. -/
theorem infix_of_infix_unifyBreaks {w t : List Char} (hw : IsWord w) (h : w <:+: unifyBreaks t) :
    w <:+: t := by
  obtain ⟨a, b, hab⟩ := h
  rw [unifyBreaks] at hab
  obtain ⟨t₁, b', rfl, ht₁, hb⟩ := List.map_eq_append_iff.mp hab.symm
  obtain ⟨a', w', rfl, ha, hw'⟩ := List.map_eq_append_iff.mp ht₁
  have hsame : w' = w := by
    rw [← hw']
    refine (List.map_id w').symm.trans (List.map_congr_left fun c hc => ?_)
    by_cases hreturn : c = '\r'
    · have hbreak : '\n' ∈ w := by
        rw [← hw']
        exact List.mem_map.mpr ⟨c, hc, if_pos hreturn⟩
      exact absurd (hw.2 _ hbreak) (by decide)
    · rw [if_neg hreturn, id]
  rw [hsame]
  exact ⟨a', b', rfl⟩

/-- **A verb is a piece of the chunk in capitals.** -/
theorem verb_piece {verb : String} (h : verb ∈ verbs data) :
    ∃ piece, piece <:+: data ∧ verb = String.ofList (upper (decode piece)) ∧
      IsWord (decode piece) := by
  obtain ⟨w, hw, rfl⟩ := List.mem_map.mp h
  obtain ⟨hword, hinfix⟩ := mem_firstWords hw
  obtain ⟨a, b, hab⟩ := infix_of_infix_unifyBreaks hword hinfix
  obtain ⟨t₁, b', rfl, ht₁, hb⟩ := List.map_eq_append_iff.mp hab.symm
  obtain ⟨a', piece, rfl, ha, rfl⟩ := List.map_eq_append_iff.mp ht₁
  exact ⟨piece, ⟨a', b', rfl⟩, rfl, hword⟩

theorem unifyBreaks_word {w : List Char} (hw : ∀ c ∈ w, isSpace c = false) :
    unifyBreaks w = w := by
  refine (List.map_congr_left fun c hc => ?_).trans (List.map_id w)
  refine if_neg ?_
  rintro rfl
  exact absurd (hw _ hc) (by decide)

/-- A chunk that is one word has that verb. -/
theorem verbs_word (h : IsWord (decode data)) :
    verbs data = [String.ofList (upper (decode data))] := by
  rw [verbs, unifyBreaks_word h.2, firstWords_word h]
  rfl

/-- A blank chunk has no verb. -/
theorem verbs_blank (h : ∀ c ∈ decode data, isSpace c = true) : verbs data = [] := by
  rw [verbs, firstWords_spaces, List.map_nil]
  intro c hc
  obtain ⟨d, hd, rfl⟩ := List.mem_map.mp hc
  by_cases hreturn : d = '\r'
  · rw [if_pos hreturn]
    decide
  · rw [if_neg hreturn]
    exact h d hd

/-- **The first verb of a chunk** is its first word in capitals. -/
theorem head?_verbs {before word after : List UInt8}
    (hbefore : ∀ c ∈ decode before, isSpace c = true) (hword : IsWord (decode word))
    (hafter : Ended (decode after)) :
    (verbs (before ++ (word ++ after))).head? = some (String.ofList (upper (decode word))) := by
  have hunified : unifyBreaks (decode (before ++ (word ++ after))) =
      unifyBreaks (decode before) ++ (decode word ++ unifyBreaks (decode after)) := by
    have hkept := unifyBreaks_word hword.2
    rw [unifyBreaks] at hkept
    rw [decode, List.map_append, List.map_append, unifyBreaks, List.map_append, List.map_append]
    exact congrArg _ (congrArg (· ++ _) hkept)
  have hspaces : ∀ c ∈ unifyBreaks (decode before), isSpace c = true := by
    intro c hc
    obtain ⟨d, hd, rfl⟩ := List.mem_map.mp hc
    by_cases hreturn : d = '\r'
    · rw [if_pos hreturn]
      decide
    · rw [if_neg hreturn]
      exact hbefore d hd
  have hended : Ended (unifyBreaks (decode after)) := by
    intro c hc
    rw [unifyBreaks, List.head?_map] at hc
    obtain ⟨d, hd, rfl⟩ := Option.map_eq_some_iff.mp hc
    by_cases hreturn : d = '\r'
    · rw [if_pos hreturn]
      decide
    · rw [if_neg hreturn]
      exact hafter d hd
  rw [verbs, hunified, List.head?_map, head?_firstWords hspaces hword hended, Option.map_some]

theorem mem_parseCommands {validCommands : List String} {command : String} :
    command ∈ parseCommands validCommands data ↔
      command ∈ verbs data ∧ command ∈ validCommands := by
  rw [parseCommands, dedupePreserve, mem_appendNew, List.mem_filter, decide_eq_true_iff]
  simp

end Verbs

end Honeynet.AssetGateway
