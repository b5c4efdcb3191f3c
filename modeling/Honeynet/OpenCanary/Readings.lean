import Honeynet.OpenCanary.Messages

/-!
# The service reads what is told

What the service reads in the logdata of an event of the gateway is what the logdata tells,
whatever the case of its keys and the blanks around its texts.

* `caseInsensitiveGet_known`: a name is found under its capitals only.
* `Tells.serviceName_eq`, `Tells.usernameFromLogdata_eq`, `Tells.passwordSeen_eq`: the readings.
* `Tells.hasAnyCommand_eq`, `Tells.commandFromLogdata_eq`: the commands.
-/

namespace Honeynet.OpenCanary

open AssetGateway Collections Forwarders Redaction Text

section Known

variable {lower upper : String → String} {logdata : Settings}

/-- A text in capitals is left as it is. -/
def KeepsCapitals (upper : String → String) : Prop :=
  ∀ s : String, (∀ c ∈ s.toList, IsCapital c) → upper s = s

/-- A name in the capitals that the gateway writes its keys in. -/
def inCapitals (name : String) : String := String.ofList (name.toList.map Char.toUpper)

theorem ascii_gatewayKeys : ∀ key ∈ gatewayKeys, ∀ c ∈ key.toList, c.toNat < 128 := by
  decide

theorem lower_eq_iff (hlower : LowersAscii lower) {key name : String} (hkey : key ∈ gatewayKeys)
    (hname : name ∈ readNames) : lower key = lower name ↔ key = inCapitals name := by
  have hascii : ∀ name ∈ readNames, ∀ c ∈ name.toList, c.toNat < 128 := by decide
  have hall : ∀ key ∈ gatewayKeys, ∀ name ∈ readNames,
      asciiLower key = asciiLower name ↔ key = inCapitals name := by decide
  rw [hlower key (ascii_gatewayKeys key hkey), hlower name (hascii name hname)]
  exact hall key hkey name hname

/-- **A name is found under its capitals only.** -/
theorem caseInsensitiveGet_known (hlower : LowersAscii lower) (h : Known logdata) {name : String}
    (hname : name ∈ readNames) :
    caseInsensitiveGet lower logdata name = logdata.get (inCapitals name) := by
  have hkeys := h.keys
  unfold caseInsensitiveGet Settings.get
  induction logdata with
  | nil => rfl
  | cons e logdata ih =>
    have hkey : e.1 ∈ gatewayKeys := hkeys e.1 List.mem_cons_self
    rw [lookup_cons_eq]
    by_cases hfound : e.1 = inCapitals name
    · have hsame := (lower_eq_iff hlower hkey hname).mpr hfound
      rw [List.find?_cons_of_pos (by simpa using hsame), if_pos hfound.symm]
      rfl
    · have hother := mt (lower_eq_iff hlower hkey hname).mp hfound
      rw [List.find?_cons_of_neg (by simpa using hother), if_neg fun heq => hfound heq.symm]
      exact ih ⟨fun key hmem => hkeys key (List.mem_cons_of_mem _ hmem),
        (List.nodup_cons.mp h.nodup).2⟩ fun key hmem => hkeys key (List.mem_cons_of_mem _ hmem)

/-- Only a password is a secret. -/
theorem isSensitiveKey_known (hlower : LowersAscii lower) {key : String}
    (hkey : key ∈ gatewayKeys) : isSensitiveKey lower key = decide (key = "PASSWORD") := by
  have hall : ∀ key ∈ gatewayKeys, isSensitiveKey asciiLower key = decide (key = "PASSWORD") := by
    decide
  rw [← hall key hkey]
  unfold isSensitiveKey marked
  rw [hlower key (ascii_gatewayKeys key hkey)]

/-- A secret is seen iff there is a password. -/
theorem passwordSeen_known (hlower : LowersAscii lower) (h : Known logdata) :
    passwordSeen lower logdata = present (logdata.get "PASSWORD") := by
  have hmem : ∀ e ∈ logdata, e.1 ∈ gatewayKeys := fun e he => h.keys e.1 (List.mem_map_of_mem he)
  apply Bool.eq_iff_iff.mpr
  unfold passwordSeen Settings.get
  rw [List.any_eq_true]
  constructor
  · intro hseen
    obtain ⟨e, he, hsecret⟩ := hseen
    obtain ⟨hsensitive, hpresent⟩ := Bool.and_eq_true_iff.mp hsecret
    rw [isSensitiveKey_known hlower (hmem e he)] at hsensitive
    rw [← of_decide_eq_true hsensitive, lookup_of_mem h.nodup he]
    exact hpresent
  · intro hpresent
    cases hfound : List.lookup "PASSWORD" logdata with
    | none =>
      rw [hfound] at hpresent
      exact absurd hpresent (by decide)
    | some value =>
      rw [hfound] at hpresent
      have he : ("PASSWORD", value) ∈ logdata := Value.mem_of_lookup hfound
      refine ⟨_, he, Bool.and_eq_true_iff.mpr ⟨?_, hpresent⟩⟩
      rw [isSensitiveKey_known hlower (hmem _ he)]
      rfl

/-- The verb of a command is the command. -/
theorem commandVerb_eq (hupper : KeepsCapitals upper) {command : String}
    (h : IsCommand command) : commandVerb upper command = some command := by
  have hfirst := head?_words h.word ended_nil
  rw [List.append_nil] at hfirst
  unfold commandVerb
  rw [words_strip, hfirst, Option.map_some, String.ofList_toList, hupper command h.capital]

end Known

/-! ### What is read of a message -/

section Read

variable {lower upper : String → String} {logdata : Settings} {m : Message}

/-- The commands of a message are words in capitals, and the first is one of them. -/
structure Message.Proper (m : Message) : Prop where
  commands : ∀ command ∈ m.commands, IsCommand command
  command : ∀ command, m.command = some command → command ∈ m.commands

theorem proper_messageOf (data : List UInt8) (o : Observer) : (messageOf data o).Proper := by
  have hcommands : (messageOf data o).commands = o.commands data := by
    cases o with
    | mail protocol => cases protocol <;> rfl
    | login protocol => cases protocol <;> rfl
    | redis => rfl
    | git => rfl
    | mysql => rfl
    | highInteraction source => rfl
  have hfirst : (messageOf data o).command = none ∨
      (messageOf data o).command = (o.commands data).head? := by
    cases o with
    | mail protocol => cases protocol <;> exact Or.inl rfl
    | login protocol => cases protocol <;> exact Or.inr rfl
    | redis => exact Or.inr rfl
    | git => exact Or.inr rfl
    | mysql => exact Or.inr rfl
    | highInteraction source => exact Or.inl rfl
  refine ⟨fun command h => isCommand_of_mem (hcommands ▸ h), fun command h => ?_⟩
  rw [hcommands]
  rcases hfirst with hnone | hhead
  · exact absurd (hnone.symm.trans h) (by simp)
  · exact List.mem_of_mem_head? (hhead.symm.trans h)

/-- The services that the gateway names. -/
def gatewayServices : List String := ["smtp", "ftp", "redis", "git", "mysql", "ssh", "telnet"]

theorem Tells.serviceName_eq (hlower : LowersAscii lower) {event : OpenCanaryLogEvent}
    (h : Tells event.logdata m) (hservice : m.service ∈ gatewayServices) :
    serviceName lower event = m.service := by
  have hall : ∀ s ∈ gatewayServices, stringOrNone (.str s) = some s ∧ asciiLower s = s ∧
      ∀ c ∈ s.toList, c.toNat < 128 := by decide
  have hread : caseInsensitiveGet lower event.logdata "SERVICE" = .str m.service :=
    (caseInsensitiveGet_known hlower h.toKnown (by decide)).trans h.service
  obtain ⟨htext, hsame, hascii⟩ := hall m.service hservice
  unfold serviceName
  rw [hread, htext]
  exact (hlower m.service hascii).trans hsame

theorem get_of_notMem (h : Known logdata) {name : String} (hname : name ∉ gatewayKeys) :
    logdata.get name = .none := by
  unfold Settings.get
  cases hfound : List.lookup name logdata with
  | none => rfl
  | some value => exact absurd (h.keys name (mem_keys_of_lookup hfound)) hname

theorem Tells.usernameFromLogdata_eq (hlower : LowersAscii lower) (h : Tells logdata m) :
    usernameFromLogdata lower logdata = if m.username then some "observed" else none := by
  have hread {name : String} (hname : name ∈ readNames) :
      caseInsensitiveGet lower logdata name = logdata.get (inCapitals name) :=
    caseInsensitiveGet_known hlower h.toKnown hname
  unfold usernameFromLogdata textFromLogdata
  cases hname : m.username with
  | true =>
    have hobserved : logdata.get "USERNAME" = .str "observed" := by
      rw [h.username, hname]
      rfl
    have hfirst : caseInsensitiveGet lower logdata "USERNAME" = .str "observed" :=
      (hread (by decide)).trans hobserved
    rw [List.findSome?_cons, hfirst]
    rfl
  | false =>
    have hnone : logdata.get "USERNAME" = .none := by
      rw [h.username, hname]
      rfl
    apply List.findSome?_eq_none_iff.mpr
    have hnames : ∀ name ∈ ["USERNAME", "USER", "user", "username", "login"], name ∈ readNames ∧
        (inCapitals name = "USERNAME" ∨ inCapitals name ∉ gatewayKeys) := by decide
    intro name hmem
    obtain ⟨hnameRead, hcapitals⟩ := hnames name hmem
    rw [hread hnameRead]
    rcases hcapitals with hsame | hother
    · rw [hsame, hnone]
      rfl
    · rw [get_of_notMem h.toKnown hother]
      rfl

theorem Tells.passwordSeen_eq (hlower : LowersAscii lower) (h : Tells logdata m) :
    passwordSeen lower logdata = m.password := by
  rw [passwordSeen_known hlower h.toKnown, h.password]
  cases m.password <;> rfl

/-- The first command is read. -/
theorem Tells.commandFromLogdata_eq (hlower : LowersAscii lower) (hupper : KeepsCapitals upper)
    (h : Tells logdata m) (hm : m.Proper) : commandFromLogdata lower upper logdata = m.command := by
  have hcommand : caseInsensitiveGet lower logdata "COMMAND" = m.command.elim .none .str :=
    (caseInsensitiveGet_known hlower h.toKnown (by decide)).trans h.command
  have hcmd : caseInsensitiveGet lower logdata "CMD" = .none :=
    (caseInsensitiveGet_known hlower h.toKnown (by decide)).trans
      (get_of_notMem h.toKnown (by decide))
  unfold commandFromLogdata
  rw [hcommand, hcmd]
  cases hfirst : m.command with
  | none => rfl
  | some command => exact commandVerb_eq hupper (hm.commands command (hm.command command hfirst))

theorem Tells.mem_commandsFromLogdata (hlower : LowersAscii lower) (hupper : KeepsCapitals upper)
    (h : Tells logdata m) (hm : m.Proper) {command : String} :
    command ∈ commandsFromLogdata lower upper logdata ↔ command ∈ m.commands := by
  have hread : caseInsensitiveGet lower logdata "COMMANDS" = .list (m.commands.map .str) :=
    (caseInsensitiveGet_known hlower h.toKnown (by decide)).trans h.commands
  have hverbs : (m.commands.map Value.str).filterMap (fun item =>
      item.str?.bind (commandVerb upper)) = m.commands := by
    rw [List.filterMap_map]
    apply (List.filterMap_congr fun c hc => commandVerb_eq hupper (hm.commands c hc)).trans
    exact List.filterMap_some
  unfold commandsFromLogdata
  rw [hread, h.commandFromLogdata_eq hlower hupper hm]
  dsimp only
  rw [hverbs, mem_appendNew, List.mem_append]
  constructor
  · intro hmem
    rcases hmem with hnil | hcommands | hsingle
    · exact absurd hnil List.not_mem_nil
    · exact hcommands
    · exact hm.command command (Option.filter_eq_some_iff.mp (Option.mem_toList.mp hsingle)).1
  · intro hmem
    exact Or.inr (Or.inl hmem)

/-- **The service sees the commands that the gateway has seen.** -/
theorem Tells.hasAnyCommand_eq (hlower : LowersAscii lower) (hupper : KeepsCapitals upper)
    (h : Tells logdata m) (hm : m.Proper) (commands : List String) :
    hasAnyCommand lower upper logdata commands = m.commands.any (· ∈ commands) := by
  apply Bool.eq_iff_iff.mpr
  unfold hasAnyCommand
  rw [List.any_eq_true, List.any_eq_true]
  simp only [h.mem_commandsFromLogdata hlower hupper hm]

theorem Tells.commandsFromLogdata_eq_nil (hlower : LowersAscii lower)
    (hupper : KeepsCapitals upper) (h : Tells logdata m) (hm : m.Proper) :
    commandsFromLogdata lower upper logdata = [] ↔ m.commands = [] := by
  rw [List.eq_nil_iff_forall_not_mem, List.eq_nil_iff_forall_not_mem]
  simp only [h.mem_commandsFromLogdata hlower hupper hm]

end Read

end Honeynet.OpenCanary
