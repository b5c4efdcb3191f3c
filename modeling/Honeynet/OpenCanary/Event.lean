import Honeynet.HighInteraction.Ingest
import Honeynet.Lib.FirstWords

/-!
# Events of OpenCanary

An event says in its logdata what a client did: the service, a user name, the commands.  The
service that ingests it reads this whatever the case of the keys, and tags the event with the
techniques it stands for.

* `caseInsensitiveGet`, `commandsFromLogdata`: what is read of the logdata.
* `profileTags`: the tags of an event.
* `Alike`: two logdatas that differ in their secrets only.
* `profileTags_alike`: they have the same tags, as they have the same readings.
-/

namespace Honeynet.OpenCanary

open Collections Redaction Text

structure OpenCanaryLogEvent where
  srcHost : String
  srcPort : Option Int := none
  dstHost : Option String := none
  dstPort : Option Int := none
  utcTime : Option Datetime := none
  logtype : Option Int := none
  nodeId : Option String := none
  logdata : Settings := []

section Read

-- `str.lower()` and `str.upper()`
variable (lower upper : String → String)

/-! ### Reading the logdata -/

def caseInsensitiveGet (logdata : Settings) (name : String) : Value :=
  ((logdata.find? fun e => lower e.1 = lower name).map Prod.snd).getD .none

/-- The first text that is not blank, of the names in order. -/
def textFromLogdata (logdata : Settings) (names : List String) : Option String :=
  names.findSome? fun name => stringOrNone (caseInsensitiveGet lower logdata name)

def usernameFromLogdata (logdata : Settings) : Option String :=
  textFromLogdata lower logdata ["USERNAME", "USER", "user", "username", "login"]

/-- `value not in (None, "", [], {})`. -/
def present : Value → Bool
  | .none => false
  | .str s => s != ""
  | .list xs => !xs.isEmpty
  | .dict d => !d.isEmpty
  | _ => true

def passwordSeen (logdata : Settings) : Bool :=
  logdata.any fun e => isSensitiveKey lower e.1 && present e.2

/-- The first word of a text, in capitals. -/
def commandVerb (text : String) : Option String :=
  (words (strip text.toList)).head?.map fun word => upper (String.ofList word)

def commandFromLogdata (logdata : Settings) : Option String :=
  let value := match caseInsensitiveGet lower logdata "COMMAND" with
    | .none => caseInsensitiveGet lower logdata "CMD"
    | value => value
  match value with
  | .str text => commandVerb upper text
  | .list (.str text :: _) => commandVerb upper text
  | _ => none

def commandsFromLogdata (logdata : Settings) : List String :=
  let commands := match caseInsensitiveGet lower logdata "COMMANDS" with
    | .list items => items.filterMap fun item => item.str?.bind (commandVerb upper)
    | _ => []
  let single := (commandFromLogdata lower upper logdata).filter (· ≠ "")
  appendNew [] (commands ++ single.toList)

def hasAnyCommand (logdata : Settings) (commands : List String) : Bool :=
  (commandsFromLogdata lower upper logdata).any (· ∈ commands)

/-! ### The service -/

/-- `_PORT_SERVICE_HINTS`. -/
def portServiceHints : Dict Int String :=
  [(21, "ftp"), (22, "ssh"), (23, "telnet"), (25, "smtp"), (80, "http"), (443, "https"),
    (3306, "mysql"), (6379, "redis"), (9418, "git")]

def serviceName (event : OpenCanaryLogEvent) : String :=
  match stringOrNone (caseInsensitiveGet lower event.logdata "SERVICE") with
  | some service => lower service
  | none => (event.dstPort.bind portServiceHints.get?).getD "unknown"

def loginLogtypes : List Int := [2000, 4002, 6001, 8001, 9001, 9002]

def isLoginProbe (event : OpenCanaryLogEvent) (service : String) (passwordSeen : Bool)
    (username : Option String) : Bool :=
  passwordSeen || (username.any (· ≠ "") || (event.logtype.any (· ∈ loginLogtypes) ||
    (service = "smtp" && hasAnyCommand lower upper event.logdata ["AUTH"])))

/-! ### Tags -/

def redisTags (logdata : Settings) : List String :=
  match commandFromLogdata lower upper logdata with
  | some command =>
    if command ∈ ["AUTH", "CONFIG"] then
      ["mitre_discovery", "T1046", "mitre_credential_access", "T1552.001"]
    else if command ∈ ["KEYS", "SCAN"] then
      ["mitre_discovery", "T1046", "mitre_collection", "T1213"]
    else if command ∈ ["GET", "HGET", "HGETALL", "LRANGE", "MGET", "SMEMBERS"] then
      ["mitre_discovery", "T1046", "mitre_collection", "T1005"]
    else ["mitre_discovery", "T1046"]
  | none => ["mitre_discovery", "T1046"]

def smtpTags (logdata : Settings) : List String :=
  let tags := if hasAnyCommand lower upper logdata ["AUTH"] then
      ["mitre_credential_access", "T1110"]
    else []
  if hasAnyCommand lower upper logdata ["EXPN", "RCPT", "VRFY"] then
    tags ++ ["mitre_discovery", "T1087.003"]
  else if tags = [] ∧ (commandsFromLogdata lower upper logdata = [] ∨
      hasAnyCommand lower upper logdata ["EHLO", "HELO"]) then
    tags ++ ["mitre_discovery", "T1046"]
  else tags

def ftpTags (logdata : Settings) (passwordSeen : Bool) (username : Option String) :
    List String :=
  let tags := if passwordSeen || username.any (· ≠ "") then
      ["mitre_credential_access", "T1110", "mitre_lateral_movement", "T1021"]
    else []
  if hasAnyCommand lower upper logdata ["APPE", "PUT", "STOR", "STOU", "UPLOAD"] then
    tags ++ ["mitre_exfiltration", "T1567.002"]
  else if hasAnyCommand lower upper logdata ["GET", "MGET", "RETR"] then
    tags ++ ["mitre_collection", "T1039"]
  else if tags = [] ∨ hasAnyCommand lower upper logdata
      ["CWD", "FEAT", "LIST", "MLSD", "NLST", "PWD", "SYST"] then
    tags ++ ["mitre_discovery", "T1046"]
  else tags

/-- The tags of a login attempt. -/
def loginTags (service : String) : List String :=
  ["mitre_credential_access", "T1110"] ++
    ((if service ∈ ["ftp", "ssh", "telnet"] then ["mitre_lateral_movement", "T1021"] else []) ++
      (if service = "ssh" then ["T1021.004"] else []))

def profileTags (event : OpenCanaryLogEvent) (service : String) (passwordSeen : Bool)
    (username : Option String) : List String :=
  let baseTags := ["opencanary", "opencanary_" ++ service]
  if service = "ftp" then
    appendNew [] (ftpTags lower upper event.logdata passwordSeen username ++ baseTags)
  else if service = "smtp" then
    appendNew [] (smtpTags lower upper event.logdata ++ baseTags)
  else if isLoginProbe lower upper event service passwordSeen username then
    appendNew [] (loginTags service ++ baseTags)
  else if service = "git" then
    appendNew [] (["mitre_discovery", "T1046", "mitre_collection", "T1213"] ++ baseTags)
  else if service = "redis" then
    appendNew [] (redisTags lower upper event.logdata ++ baseTags)
  else appendNew [] (["mitre_discovery", "T1046"] ++ baseTags)

/-! ### What is told of an event -/

def formatOutput (event : OpenCanaryLogEvent) (service : String) (username : Option String)
    (passwordSeen : Bool) : String :=
  let target := match event.dstPort with
    | some port => toString port
    | none => "unknown-port"
  let parts := ["OpenCanary " ++ service ++ " probe from " ++ event.srcHost ++ " to " ++ target]
  let parts := parts ++ (username.filter (· ≠ "")).toList.map ("username=" ++ ·)
  let parts := if passwordSeen then parts ++ ["password_seen=true"] else parts
  let command := (commandFromLogdata lower upper event.logdata).filter (· ≠ "")
  let parts := parts ++ command.toList.map ("command=" ++ ·)
  let repo := (textFromLogdata lower event.logdata ["REPO", "REPOSITORY"]).filter (· ≠ "")
  " ".intercalate (parts ++ repo.toList.map ("repo=" ++ ·))

def profileContext (logdata : Settings) : Settings :=
  let command := (commandFromLogdata lower upper logdata).filter (· ≠ "")
  let commands := commandsFromLogdata lower upper logdata
  let repo := (textFromLogdata lower logdata ["REPO", "REPOSITORY"]).filter (· ≠ "")
  command.toList.map (fun command => ("opencanary_command", Value.str command)) ++
    ((if commands = [] then [] else
        [("opencanary_commands", .list (commands.map .str))]) ++
      repo.toList.map fun repo => ("opencanary_repo", Value.str repo))

end Read

/-! ### Two logdatas that differ in their secrets -/

/-- `lower` is the lower-casing of ASCII texts. -/
def LowersAscii (lower : String → String) : Prop :=
  ∀ s : String, (∀ c ∈ s.toList, c.toNat < 128) → lower s = asciiLower s

/-- The names under which the service looks for something. -/
def readNames : List String :=
  ["SERVICE", "USERNAME", "USER", "user", "username", "login", "COMMAND", "CMD", "COMMANDS", "REPO",
    "REPOSITORY", "ASSET_ID", "asset_id"]

/-- The two have the same keys, the same values where the key is not sensitive, and secrets at the
same sensitive keys. -/
def Alike (lower : String → String) (a b : Settings) : Prop :=
  List.Forall₂ (fun e e' => e.1 = e'.1 ∧
    if isSensitiveKey lower e.1 then present e.2 = present e'.2 else e.2 = e'.2) a b

section Alike

variable {lower upper : String → String} {a b : Settings}

/-- Nothing is looked for under a sensitive name. -/
theorem not_sensitive_of_read (hlower : LowersAscii lower) {name : String}
    (hname : name ∈ readNames) : isSensitiveKey lower name = false := by
  have hascii : ∀ name ∈ readNames, ∀ c ∈ name.toList, c.toNat < 128 := by decide
  have hplain : ∀ name ∈ readNames, isSensitiveKey asciiLower name = false := by decide +kernel
  have hsame : isSensitiveKey lower name = isSensitiveKey asciiLower name := by
    unfold isSensitiveKey marked
    rw [hlower name (hascii name hname)]
  rw [hsame, hplain name hname]

theorem caseInsensitiveGet_alike (hlower : LowersAscii lower) (h : Alike lower a b)
    {name : String} (hname : name ∈ readNames) :
    caseInsensitiveGet lower a name = caseInsensitiveGet lower b name := by
  unfold caseInsensitiveGet
  induction h with
  | nil => rfl
  | @cons e e' a b hentry _ ih =>
    obtain ⟨hkey, hvalue⟩ := hentry
    by_cases hfound : lower e.1 = lower name
    · have hplain : isSensitiveKey lower e.1 = false := by
        rw [← not_sensitive_of_read hlower hname]
        unfold isSensitiveKey marked
        rw [hfound]
      rw [if_neg (by rw [hplain]; simp)] at hvalue
      rw [List.find?_cons_of_pos (by simpa using hfound),
        List.find?_cons_of_pos (by simpa [← hkey] using hfound)]
      exact hvalue
    · rw [List.find?_cons_of_neg (by simpa using hfound),
        List.find?_cons_of_neg (by simpa [← hkey] using hfound)]
      exact ih

theorem textFromLogdata_alike (hlower : LowersAscii lower) (h : Alike lower a b)
    {names : List String} (hnames : ∀ name ∈ names, name ∈ readNames) :
    textFromLogdata lower a names = textFromLogdata lower b names := by
  unfold textFromLogdata
  apply findSome?_congr
  intro name hname
  rw [caseInsensitiveGet_alike hlower h (hnames name hname)]

theorem usernameFromLogdata_alike (hlower : LowersAscii lower) (h : Alike lower a b) :
    usernameFromLogdata lower a = usernameFromLogdata lower b :=
  textFromLogdata_alike hlower h (by decide)

theorem commandFromLogdata_alike (hlower : LowersAscii lower) (h : Alike lower a b) :
    commandFromLogdata lower upper a = commandFromLogdata lower upper b := by
  have hcommand : "COMMAND" ∈ readNames := by decide
  have hcmd : "CMD" ∈ readNames := by decide
  unfold commandFromLogdata
  rw [caseInsensitiveGet_alike hlower h hcommand, caseInsensitiveGet_alike hlower h hcmd]

theorem commandsFromLogdata_alike (hlower : LowersAscii lower) (h : Alike lower a b) :
    commandsFromLogdata lower upper a = commandsFromLogdata lower upper b := by
  have hcommands : "COMMANDS" ∈ readNames := by decide
  unfold commandsFromLogdata
  rw [caseInsensitiveGet_alike hlower h hcommands, commandFromLogdata_alike hlower h]

/-- A secret is seen in both or in neither. -/
theorem passwordSeen_alike (h : Alike lower a b) : passwordSeen lower a = passwordSeen lower b := by
  unfold passwordSeen
  induction h with
  | nil => rfl
  | cons hentry _ ih =>
    obtain ⟨hkey, hvalue⟩ := hentry
    rw [List.any_cons, List.any_cons, ih, ← hkey]
    split at hvalue
    · rw [hvalue]
    · rw [hvalue]

/-- **What is stored of the two is the same.** -/
theorem redactLogdata_alike (h : Alike lower a b) : redactLogdata lower a = redactLogdata lower b := by
  unfold redactLogdata redactWith
  induction h with
  | nil => rfl
  | cons hentry _ ih =>
    obtain ⟨hkey, hvalue⟩ := hentry
    rw [List.map_cons, List.map_cons, ih, ← hkey]
    split at hvalue
    · rename_i hsensitive
      rw [if_pos hsensitive, if_pos hsensitive]
    · rename_i hplain
      rw [if_neg hplain, if_neg hplain, hvalue]

end Alike

section Events

variable {lower upper : String → String} (event : OpenCanaryLogEvent) {a b : Settings}

theorem serviceName_alike (hlower : LowersAscii lower) (h : Alike lower a b) :
    serviceName lower { event with logdata := a } =
      serviceName lower { event with logdata := b } := by
  have hservice : "SERVICE" ∈ readNames := by decide
  unfold serviceName
  rw [caseInsensitiveGet_alike hlower h hservice]

theorem hasAnyCommand_alike (hlower : LowersAscii lower) (h : Alike lower a b)
    (commands : List String) :
    hasAnyCommand lower upper a commands = hasAnyCommand lower upper b commands := by
  unfold hasAnyCommand
  rw [commandsFromLogdata_alike hlower h]

theorem isLoginProbe_alike (hlower : LowersAscii lower) (h : Alike lower a b) (service : String)
    (passwordSeen : Bool) (username : Option String) :
    isLoginProbe lower upper { event with logdata := a } service passwordSeen username =
      isLoginProbe lower upper { event with logdata := b } service passwordSeen username := by
  unfold isLoginProbe
  rw [hasAnyCommand_alike hlower h]

/-- **The two have the same tags.** -/
theorem profileTags_alike (hlower : LowersAscii lower) (h : Alike lower a b) (service : String)
    (passwordSeen : Bool) (username : Option String) :
    profileTags lower upper { event with logdata := a } service passwordSeen username =
      profileTags lower upper { event with logdata := b } service passwordSeen username := by
  unfold profileTags ftpTags smtpTags redisTags
  simp only [isLoginProbe_alike event hlower h, hasAnyCommand_alike hlower h,
    commandsFromLogdata_alike hlower h, commandFromLogdata_alike hlower h]

theorem formatOutput_alike (hlower : LowersAscii lower) (h : Alike lower a b) (service : String)
    (username : Option String) (passwordSeen : Bool) :
    formatOutput lower upper { event with logdata := a } service username passwordSeen =
      formatOutput lower upper { event with logdata := b } service username passwordSeen := by
  have hrepo : textFromLogdata lower a ["REPO", "REPOSITORY"] =
      textFromLogdata lower b ["REPO", "REPOSITORY"] :=
    textFromLogdata_alike hlower h (by decide)
  unfold formatOutput
  rw [commandFromLogdata_alike hlower h, hrepo]

theorem profileContext_alike (hlower : LowersAscii lower) (h : Alike lower a b) :
    profileContext lower upper a = profileContext lower upper b := by
  have hrepo : textFromLogdata lower a ["REPO", "REPOSITORY"] =
      textFromLogdata lower b ["REPO", "REPOSITORY"] :=
    textFromLogdata_alike hlower h (by decide)
  unfold profileContext
  rw [commandFromLogdata_alike hlower h, commandsFromLogdata_alike hlower h, hrepo]

end Events

end Honeynet.OpenCanary
