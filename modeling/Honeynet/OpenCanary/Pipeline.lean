import Honeynet.OpenCanary.Readings
import Honeynet.Profiler.Association

/-!
# From bytes to evidence

A chunk of bytes that an attacker sends through the gateway becomes an event, which is forwarded,
ingested and mapped to evidence.  The techniques of the evidence are those that the commands of
the chunk stand for.

* `techniqueTable`: the techniques of a protocol, and when a chunk shows them.
* `mem_profileTags_iff`: the service tags an event with the techniques that its chunk shows.
* `chunk_evidence_iff`: so is the evidence that is stored.
-/

namespace Honeynet.OpenCanary

open AssetGateway Collections Forwarders HighInteraction Profiler Redaction Text

/-! ### What a chunk shows -/

/-- One of the commands is among these. -/
def hasAny (commands names : List String) : Bool := commands.any (· ∈ names)

/-- The techniques of a protocol, each with whether these commands show it. -/
def techniqueTable (commands : List String) : Observer → List (String × Bool)
  | .mail .smtp =>
    let login := hasAny commands ["AUTH"]
    let accounts := hasAny commands ["EXPN", "RCPT", "VRFY"]
    [("T1110", login), ("T1087.003", accounts),
      ("T1046", !login && (!accounts && hasAny commands ["EHLO", "HELO"]))]
  | .mail .ftp =>
    let login := hasAny commands ["USER", "PASS"]
    let upload := hasAny commands ["APPE", "STOR", "STOU"]
    let download := hasAny commands ["RETR"]
    let browse := hasAny commands ["CWD", "FEAT", "LIST", "MLSD", "NLST", "PWD", "SYST"]
    [("T1110", login), ("T1021", login), ("T1567.002", upload), ("T1039", !upload && download),
      ("T1046", !upload && (!download && (!login || browse)))]
  | .redis =>
    let first := commands.head?.toList
    [("T1046", true), ("T1552.001", hasAny first ["AUTH", "CONFIG"]),
      ("T1213", hasAny first ["KEYS", "SCAN"]),
      ("T1005", hasAny first ["GET", "HGET", "HGETALL", "LRANGE", "MGET", "SMEMBERS"])]
  | .git => [("T1046", true), ("T1213", true)]
  | .mysql =>
    let login := decide (commands = ["MYSQL_LOGIN"])
    [("T1110", login), ("T1046", !login)]
  | .login .ssh => [("T1110", true), ("T1021", true), ("T1021.004", true)]
  | .login .telnet => [("T1110", true), ("T1021", true)]
  | .highInteraction _ => []

/-- The chunk shows the technique. -/
def Shows (data : List UInt8) (o : Observer) (technique : String) : Prop :=
  (technique, true) ∈ techniqueTable (o.commands data) o

/-- The techniques that an event can be tagged with. -/
def techniqueNames : List String :=
  ["T1110", "T1087.003", "T1046", "T1021", "T1567.002", "T1039", "T1552.001", "T1213", "T1005",
    "T1021.004"]

section Tags

variable {lower upper : String → String} {event : OpenCanaryLogEvent} {data : List UInt8}

theorem hasAny_of_valid {commands validCommands : List String}
    (hvalid : ∀ c ∈ commands, c ∈ validCommands) {names others : List String}
    (h : ∀ c ∈ validCommands, c ∈ names ↔ c ∈ others) : hasAny commands names =
      hasAny commands others := by
  unfold hasAny
  apply Bool.eq_iff_iff.mpr
  rw [List.any_eq_true, List.any_eq_true]
  constructor
  · intro hany
    obtain ⟨c, hc, hname⟩ := hany
    exact ⟨c, hc, decide_eq_true ((h c (hvalid c hc)).mp (of_decide_eq_true hname))⟩
  · intro hany
    obtain ⟨c, hc, hname⟩ := hany
    exact ⟨c, hc, decide_eq_true ((h c (hvalid c hc)).mpr (of_decide_eq_true hname))⟩

/-- The tags that are techniques. -/
def techniquesOf (tags : List String) : List String := tags.filter (· ∈ techniqueNames)

/-- What the table says of these commands. -/
def shownBy (commands : List String) (o : Observer) : List String :=
  ((techniqueTable commands o).filter Prod.snd).map Prod.fst

theorem mem_shownBy {data : List UInt8} {o : Observer} {technique : String} :
    technique ∈ shownBy (o.commands data) o ↔ Shows data o technique := by
  unfold shownBy Shows
  constructor
  · intro h
    obtain ⟨entry, hentry, rfl⟩ := List.mem_map.mp h
    obtain ⟨hmem, hshown⟩ := List.mem_filter.mp hentry
    have heq : (entry.1, true) = entry := Prod.ext rfl hshown.symm
    exact heq ▸ hmem
  · intro h
    exact List.mem_map.mpr ⟨(technique, true), List.mem_filter.mpr ⟨h, rfl⟩, rfl⟩

theorem smtp_techniques {m : Message} (hlower : LowersAscii lower) (hupper : KeepsCapitals upper)
    (h : Tells event.logdata m) (hm : m.Proper) (hne : m.commands ≠ []) (t : String) :
    t ∈ techniquesOf (smtpTags lower upper event.logdata) ↔
      t ∈ shownBy m.commands (.mail .smtp) := by
  have hnil : ¬ commandsFromLogdata lower upper event.logdata = [] :=
    mt (h.commandsFromLogdata_eq_nil hlower hupper hm).mp hne
  unfold smtpTags shownBy techniqueTable hasAny
  simp only [h.hasAnyCommand_eq hlower hupper hm, hnil, false_or]
  generalize m.commands.any (· ∈ ["AUTH"]) = login
  generalize m.commands.any (· ∈ ["EXPN", "RCPT", "VRFY"]) = accounts
  generalize m.commands.any (· ∈ ["EHLO", "HELO"]) = hello
  cases login <;> cases accounts <;> cases hello <;> exact Iff.rfl

theorem ftp_techniques {m : Message} (hlower : LowersAscii lower) (hupper : KeepsCapitals upper)
    (h : Tells event.logdata m) (hm : m.Proper) (hvalid : ∀ c ∈ m.commands, c ∈ ftpCommands)
    {passwordSeen : Bool} {username : Option String}
    (hlogin : (passwordSeen || username.any (· ≠ "")) = hasAny m.commands ["USER", "PASS"])
    (t : String) :
    t ∈ techniquesOf (ftpTags lower upper event.logdata passwordSeen username) ↔
      t ∈ shownBy m.commands (.mail .ftp) := by
  have hupload : m.commands.any (· ∈ ["APPE", "PUT", "STOR", "STOU", "UPLOAD"]) =
      hasAny m.commands ["APPE", "STOR", "STOU"] := hasAny_of_valid hvalid (by decide)
  have hdownload : m.commands.any (· ∈ ["GET", "MGET", "RETR"]) = hasAny m.commands ["RETR"] :=
    hasAny_of_valid hvalid (by decide)
  unfold ftpTags shownBy techniqueTable
  simp only [h.hasAnyCommand_eq hlower hupper hm, hlogin, hupload, hdownload]
  unfold hasAny
  generalize m.commands.any (· ∈ ["USER", "PASS"]) = login
  generalize m.commands.any (· ∈ ["APPE", "STOR", "STOU"]) = upload
  generalize m.commands.any (· ∈ ["RETR"]) = download
  generalize m.commands.any (· ∈ ["CWD", "FEAT", "LIST", "MLSD", "NLST", "PWD", "SYST"]) = browse
  cases login <;> cases upload <;> cases download <;> cases browse <;> exact Iff.rfl

theorem redis_techniques {m : Message} (hlower : LowersAscii lower) (hupper : KeepsCapitals upper)
    (h : Tells event.logdata m) (hm : m.Proper) (hfirst : m.command = m.commands.head?)
    (t : String) : t ∈ techniquesOf (redisTags lower upper event.logdata) ↔
      t ∈ shownBy m.commands .redis := by
  unfold redisTags shownBy techniqueTable hasAny
  rw [h.commandFromLogdata_eq hlower hupper hm, hfirst]
  cases m.commands.head? with
  | none => exact Iff.rfl
  | some command =>
    simp only [Option.toList_some, List.any_cons, List.any_nil, Bool.or_false]
    by_cases hauth : command ∈ ["AUTH", "CONFIG"]
    · have hkeys : command ∉ ["KEYS", "SCAN"] := by
        rcases List.mem_pair.mp hauth with rfl | rfl <;> decide
      have hget : command ∉ ["GET", "HGET", "HGETALL", "LRANGE", "MGET", "SMEMBERS"] := by
        rcases List.mem_pair.mp hauth with rfl | rfl <;> decide
      rw [if_pos hauth, decide_eq_true hauth, decide_eq_false hkeys, decide_eq_false hget]
      exact Iff.rfl
    · rw [if_neg hauth, decide_eq_false hauth]
      by_cases hkeys : command ∈ ["KEYS", "SCAN"]
      · have hget : command ∉ ["GET", "HGET", "HGETALL", "LRANGE", "MGET", "SMEMBERS"] := by
          rcases List.mem_pair.mp hkeys with rfl | rfl <;> decide
        rw [if_pos hkeys, decide_eq_true hkeys, decide_eq_false hget]
        exact Iff.rfl
      · rw [if_neg hkeys, decide_eq_false hkeys]
        by_cases hget : command ∈ ["GET", "HGET", "HGETALL", "LRANGE", "MGET", "SMEMBERS"]
        · rw [if_pos hget, decide_eq_true hget]
          exact Iff.rfl
        · rw [if_neg hget, decide_eq_false hget]
          exact Iff.rfl

theorem not_technique_service (service : String) : "opencanary_" ++ service ∉ techniqueNames := by
  have hall : ∀ name ∈ techniqueNames, name.toList.head? = some 'T' := by decide
  intro hmem
  have hhead := hall _ hmem
  rw [String.toList_append] at hhead
  exact absurd hhead (by simp)

/-- The tags that name the service are no techniques. -/
theorem mem_techniquesOf_base {tags : List String} {service : String} (t : String) :
    t ∈ techniquesOf (appendNew [] (tags ++ ["opencanary", "opencanary_" ++ service])) ↔
      t ∈ techniquesOf tags := by
  unfold techniquesOf
  rw [List.mem_filter, List.mem_filter, mem_appendNew, List.mem_append, List.mem_pair]
  constructor
  · intro h
    obtain ⟨hnil | htags | rfl | rfl, htechnique⟩ := h
    · exact absurd hnil List.not_mem_nil
    · exact ⟨htags, htechnique⟩
    · exact absurd htechnique (by decide)
    · exact absurd (of_decide_eq_true htechnique) (not_technique_service service)
  · intro h
    exact ⟨Or.inr (Or.inl h.1), h.2⟩

/-- The types of the events that the gateway writes. -/
def gatewayLogtypes : List ℕ := [25001, 21001, 637901, 941801, 330601, 22001, 23001]

theorem logtype_simple {origin : Origin} {service : String} {logtype : ℕ} {commands : List String}
    {extra : Settings} {e : ProtocolEvent}
    (h : e ∈ reportSimpleProtocolEvent origin service logtype commands extra data) :
    e.logtype = logtype := by
  unfold reportSimpleProtocolEvent at h
  dsimp only at h
  split at h
  · exact absurd h List.not_mem_nil
  · rw [List.mem_singleton.mp h]
    rfl

/-- A chunk without commands is reported by none of the two that look them up. -/
theorem mail_report {origin : Origin} {protocol : MailProtocol} {e : ProtocolEvent}
    (h : e ∈ protocol.report origin data) :
    e.logtype ∈ gatewayLogtypes ∧ parseCommands protocol.commands data ≠ [] := by
  cases protocol with
  | smtp =>
    unfold MailProtocol.report reportSmtpCommands at h
    dsimp only at h
    split at h
    · exact absurd h List.not_mem_nil
    · rename_i hne
      rw [List.mem_singleton.mp h]
      exact ⟨show 25001 ∈ gatewayLogtypes by decide, hne⟩
  | ftp =>
    unfold MailProtocol.report reportFtpCommands at h
    dsimp only at h
    split at h
    · exact absurd h List.not_mem_nil
    · rename_i hne
      rw [List.mem_singleton.mp h]
      exact ⟨show 21001 ∈ gatewayLogtypes by decide, hne⟩

theorem logtype_of_report {origin : Origin} {o : Observer} {e : ProtocolEvent}
    (h : e ∈ o.report origin data) : e.logtype ∈ gatewayLogtypes := by
  cases o with
  | mail protocol => exact (mail_report h).1
  | redis => exact logtype_simple h ▸ by decide
  | git =>
    unfold Observer.report reportGitProtocolEvent at h
    dsimp only at h
    split at h
    · exact absurd h List.not_mem_nil
    · exact logtype_simple h ▸ by decide
  | mysql => exact logtype_simple h ▸ by decide
  | login protocol =>
    cases protocol with
    | ssh => exact logtype_simple h ▸ by decide
    | telnet => exact logtype_simple h ▸ by decide
  | highInteraction source => exact absurd h List.not_mem_nil

variable (lower upper) in
/-- The type of such an event does not make it a login. -/
theorem isLoginProbe_gateway {service : String} (hservice : service ≠ "smtp") {logtype : ℕ}
    (hlogtype : event.logtype = some (logtype : Int)) (hmem : logtype ∈ gatewayLogtypes)
    (passwordSeen : Bool) (username : Option String) :
    isLoginProbe lower upper event service passwordSeen username =
      (passwordSeen || username.any (· ≠ "")) := by
  have hall : ∀ logtype ∈ gatewayLogtypes, (logtype : Int) ∉ loginLogtypes := by decide
  have hnot : (some (logtype : Int)).any (· ∈ loginLogtypes) = false :=
    decide_eq_false (hall logtype hmem)
  unfold isLoginProbe
  rw [hlogtype, hnot, decide_eq_false hservice, Bool.false_and, Bool.or_false, Bool.or_false]

/-- A name or a password is given by the commands for them. -/
theorem login_eq_hasAny (commands : List String) :
    (decide ("PASS" ∈ commands) || decide ("USER" ∈ commands)) =
      hasAny commands ["USER", "PASS"] := by
  apply Bool.eq_iff_iff.mpr
  unfold hasAny
  rw [List.any_eq_true, Bool.or_eq_true, decide_eq_true_eq, decide_eq_true_eq]
  constructor
  · intro h
    rcases h with hpass | huser
    · exact ⟨"PASS", hpass, by decide⟩
    · exact ⟨"USER", huser, by decide⟩
  · intro h
    obtain ⟨c, hc, hname⟩ := h
    rcases List.mem_pair.mp (of_decide_eq_true hname) with rfl | rfl
    · exact Or.inr hc
    · exact Or.inl hc

/-- The tags of an event as its logdata is read. -/
def tagsOf (lower upper : String → String) (event : OpenCanaryLogEvent) : List String :=
  profileTags lower upper event (serviceName lower event) (passwordSeen lower event.logdata)
    (usernameFromLogdata lower event.logdata)

/-- **An event is tagged with the techniques that its chunk shows.** -/
theorem mem_techniquesOf_iff (hlower : LowersAscii lower) (hupper : KeepsCapitals upper)
    {origin : Origin} {o : Observer} {e : ProtocolEvent} (hreport : e ∈ o.report origin data)
    (h : Tells event.logdata (messageOf data o))
    (hlogtype : event.logtype = some (e.logtype : Int)) (t : String) :
    t ∈ techniquesOf (tagsOf lower upper event) ↔ t ∈ shownBy (o.commands data) o := by
  have hm := proper_messageOf data o
  have hprobe {service : String} (hservice : service ≠ "smtp") :=
    isLoginProbe_gateway lower upper hservice hlogtype
      (logtype_of_report hreport)
  have hname (said : Bool) : (if said then some "observed" else none : Option String).any
      (· ≠ "") = said := by
    cases said <;> rfl
  unfold tagsOf profileTags
  rw [h.passwordSeen_eq hlower, h.usernameFromLogdata_eq hlower]
  cases o with
  | mail protocol =>
    cases protocol with
    | smtp =>
      have hservice : serviceName lower event = "smtp" :=
        h.serviceName_eq hlower (show "smtp" ∈ gatewayServices by decide)
      rw [hservice, if_neg (by decide), if_pos rfl, mem_techniquesOf_base]
      exact smtp_techniques hlower hupper h hm (mail_report hreport).2 t
    | ftp =>
      have hservice : serviceName lower event = "ftp" :=
        h.serviceName_eq hlower (show "ftp" ∈ gatewayServices by decide)
      rw [hservice, if_pos rfl, mem_techniquesOf_base]
      refine ftp_techniques hlower hupper h hm (fun c hc => ?_) ?_ t
      · have hmem : c ∈ (verbs data).filter (· ∈ ftpCommands) :=
          (mem_appendNew.mp hc).resolve_left List.not_mem_nil
        exact of_decide_eq_true (List.mem_filter.mp hmem).2
      · rw [hname]
        exact login_eq_hasAny (parseFtpCommands data)
  | redis =>
    have hservice : serviceName lower event = "redis" :=
      h.serviceName_eq hlower (show "redis" ∈ gatewayServices by decide)
    have hlogin : isLoginProbe lower upper event "redis" false none = false :=
      hprobe (by decide) false none
    show t ∈ techniquesOf (if _ then _ else if _ then _ else
      if isLoginProbe lower upper event _ false none then _ else _) ↔ _
    rw [hservice, if_neg (by decide), if_neg (by decide), hlogin, if_neg (by decide),
      if_neg (by decide), if_pos rfl, mem_techniquesOf_base]
    exact redis_techniques hlower hupper h hm rfl t
  | git =>
    have hservice : serviceName lower event = "git" :=
      h.serviceName_eq hlower (show "git" ∈ gatewayServices by decide)
    have hlogin : isLoginProbe lower upper event "git" false none = false :=
      hprobe (by decide) false none
    show t ∈ techniquesOf (if _ then _ else if _ then _ else
      if isLoginProbe lower upper event _ false none then _ else _) ↔ _
    rw [hservice, if_neg (by decide), if_neg (by decide), hlogin, if_neg (by decide), if_pos rfl,
      mem_techniquesOf_base]
    exact Iff.rfl
  | mysql =>
    have hservice : serviceName lower event = "mysql" :=
      h.serviceName_eq hlower (show "mysql" ∈ gatewayServices by decide)
    rw [hservice, if_neg (by decide), if_neg (by decide), hprobe (by decide), hname]
    unfold shownBy techniqueTable
    show t ∈ techniquesOf (if (decide (parseMysqlCommands data = ["MYSQL_LOGIN"]) ||
        decide (parseMysqlCommands data = ["MYSQL_LOGIN"])) then _ else _) ↔
      t ∈ ([("T1110", decide (parseMysqlCommands data = ["MYSQL_LOGIN"])),
        ("T1046", !decide (parseMysqlCommands data = ["MYSQL_LOGIN"]))].filter Prod.snd).map Prod.fst
    cases decide (parseMysqlCommands data = ["MYSQL_LOGIN"]) with
    | true =>
      rw [if_pos (by decide), mem_techniquesOf_base]
      exact Iff.rfl
    | false =>
      rw [if_neg (by decide), if_neg (by decide), if_neg (by decide), mem_techniquesOf_base]
      exact Iff.rfl
  | login protocol =>
    cases protocol with
    | ssh =>
      have hservice : serviceName lower event = "ssh" :=
        h.serviceName_eq hlower (show "ssh" ∈ gatewayServices by decide)
      have hlogin : isLoginProbe lower upper event "ssh" true (some "observed") = true :=
        hprobe (by decide) true (some "observed")
      show t ∈ techniquesOf (if _ then _ else if _ then _ else
        if isLoginProbe lower upper event _ true (some "observed") then _ else _) ↔ _
      rw [hservice, if_neg (by decide), if_neg (by decide), hlogin, if_pos rfl,
        mem_techniquesOf_base]
      exact Iff.rfl
    | telnet =>
      have hservice : serviceName lower event = "telnet" :=
        h.serviceName_eq hlower (show "telnet" ∈ gatewayServices by decide)
      have hlogin : isLoginProbe lower upper event "telnet" true (some "observed") = true :=
        hprobe (by decide) true (some "observed")
      show t ∈ techniquesOf (if _ then _ else if _ then _ else
        if isLoginProbe lower upper event _ true (some "observed") then _ else _) ↔ _
      rw [hservice, if_neg (by decide), if_neg (by decide), hlogin, if_pos rfl,
        mem_techniquesOf_base]
      exact Iff.rfl
  | highInteraction source => exact absurd hreport List.not_mem_nil

end Tags

/-! ### Techniques among the tags -/

section Techniques

variable {py : ProfilerBuiltins} {lower upper : String → String} {event : OpenCanaryLogEvent}

theorem isTechniqueNumber_mono {digit digit' : Char → Bool}
    (h : ∀ c, digit c = true → digit' c = true) {t : List Char}
    (ht : isTechniqueNumber digit t = true) : isTechniqueNumber digit' t = true := by
  have hall {s : List Char} (hs : s.all digit = true) : s.all digit' = true :=
    List.all_eq_true.mpr fun c hc => h c (List.all_eq_true.mp hs c hc)
  unfold isTechniqueNumber at ht ⊢
  split at ht
  · exact hall ht
  · obtain ⟨hdigits, hdot⟩ := Bool.and_eq_true_iff.mp ht
    exact Bool.and_eq_true_iff.mpr ⟨hall hdigits, hdot⟩
  · exact absurd ht (by simp)

/-- The names of techniques are taken for techniques. -/
theorem isTechniqueTag_name (hdigit : ∀ c : Char, c.isDigit = true → py.digit c = true) {t : String}
    (h : t ∈ techniqueNames) : isTechniqueTag py t = true := by
  have hall : ∀ t ∈ techniqueNames, ∃ number, t.toList = 'T' :: number ∧
      isTechniqueNumber Char.isDigit number = true := by
    intro t ht
    have hdecide : ∀ t ∈ techniqueNames, t.toList.head? = some 'T' ∧
        isTechniqueNumber Char.isDigit t.toList.tail = true := by decide
    obtain ⟨hhead, hnumber⟩ := hdecide t ht
    exact ⟨t.toList.tail, (List.cons_head?_tail hhead).symm, hnumber⟩
  obtain ⟨number, hname, hnumber⟩ := hall t h
  unfold isTechniqueTag
  rw [hname]
  exact Bool.or_eq_true_iff.mpr (Or.inl (isTechniqueNumber_mono hdigit hnumber))

/-- The tags of an event besides those that name its service. -/
def behaviourTags : List String :=
  techniqueNames ++ ["mitre_discovery", "mitre_credential_access", "mitre_lateral_movement",
    "mitre_collection", "mitre_exfiltration"]

theorem mem_behaviourTags_ftp {logdata : Settings} {passwordSeen : Bool} {username : Option String}
    {t : String} (h : t ∈ ftpTags lower upper logdata passwordSeen username) :
    t ∈ behaviourTags := by
  unfold ftpTags at h
  generalize (passwordSeen || username.any (· ≠ "")) = login at h
  generalize hasAnyCommand lower upper logdata ["APPE", "PUT", "STOR", "STOU", "UPLOAD"] = upload
    at h
  generalize hasAnyCommand lower upper logdata ["GET", "MGET", "RETR"] = download at h
  generalize hasAnyCommand lower upper logdata
    ["CWD", "FEAT", "LIST", "MLSD", "NLST", "PWD", "SYST"] = browse at h
  revert t
  cases login <;> cases upload <;> cases download <;> cases browse <;> decide

theorem mem_behaviourTags_smtp {logdata : Settings} {t : String}
    (h : t ∈ smtpTags lower upper logdata) : t ∈ behaviourTags := by
  unfold smtpTags at h
  dsimp only at h
  split_ifs at h
  all_goals
    revert t
    decide

theorem mem_behaviourTags_redis {logdata : Settings} {t : String}
    (h : t ∈ redisTags lower upper logdata) : t ∈ behaviourTags := by
  unfold redisTags at h
  split at h
  · split_ifs at h
    all_goals
      revert t
      decide
  · revert t
    decide

theorem mem_behaviourTags_login {service t : String} (h : t ∈ loginTags service) :
    t ∈ behaviourTags := by
  unfold loginTags at h
  split_ifs at h
  all_goals
    revert t
    decide

/-- A tag that is taken for a technique is one of those. -/
theorem technique_of_profileTags {service : String} {passwordSeen : Bool}
    {username : Option String} {t : String}
    (h : t ∈ profileTags lower upper event service passwordSeen username)
    (htechnique : isTechniqueTag py t = true) : t ∈ techniqueNames := by
  have hbase {tags : List String} (htags : ∀ t ∈ tags, t ∈ behaviourTags)
      (hmem : t ∈ appendNew [] (tags ++ ["opencanary", "opencanary_" ++ service])) :
      t ∈ techniqueNames := by
    have hother {first : Char} {rest : List Char} (htag : t.toList = first :: rest)
        (hfirst : first ≠ 'T') : t ∈ techniqueNames :=
      absurd (tagKind_eq_technique_iff.mpr htechnique) (tagKind_ne_technique htag hfirst)
    rw [mem_appendNew, List.mem_append, List.mem_pair] at hmem
    rcases hmem with hnil | hmem | rfl | rfl
    · exact absurd hnil List.not_mem_nil
    · rcases List.mem_append.mp (htags t hmem) with hname | htactic
      · exact hname
      · have hall : ∀ t ∈ ["mitre_discovery", "mitre_credential_access", "mitre_lateral_movement",
            "mitre_collection", "mitre_exfiltration"], t.toList = 'm' :: t.toList.tail := by
          decide
        exact hother (hall t htactic) (by decide)
    · have hlist : "opencanary".toList = 'o' :: "pencanary".toList := rfl
      exact hother hlist (by decide)
    · have hlist : ("opencanary_" ++ service).toList =
          'o' :: ("pencanary_".toList ++ service.toList) := by
        rw [String.toList_append]
        rfl
      exact hother hlist (by decide)
  unfold profileTags at h
  dsimp only at h
  split_ifs at h
  · exact hbase (fun t ht => mem_behaviourTags_ftp ht) h
  · exact hbase (fun t ht => mem_behaviourTags_smtp ht) h
  · exact hbase (fun t ht => mem_behaviourTags_login ht) h
  · exact hbase (by decide) h
  · exact hbase (fun t ht => mem_behaviourTags_redis ht) h
  · exact hbase (by decide) h

/-- The evidence of an event is of the techniques among its tags. -/
theorem technique_iff (hdigit : ∀ c : Char, c.isDigit = true → py.digit c = true)
    {catalog : AttackCatalog} {ids : ℕ → String} {attackerKey bindingId : String}
    {falco : FalcoEvent} (htags : falco.tags = tagsOf lower upper event) (t : String) :
    (∃ e ∈ mapEvent py catalog ids attackerKey bindingId falco, e.techId = some t) ↔
      t ∈ techniquesOf (tagsOf lower upper event) := by
  unfold techniquesOf
  rw [List.mem_filter, decide_eq_true_eq]
  constructor
  · intro h
    obtain ⟨e, he, htech⟩ := h
    obtain ⟨before, after, hsplit, hkind, -⟩ :=
      (evidencePair_iff falco ids attackerKey bindingId t e.group).mp ⟨e, he, htech, rfl⟩
    have hmem : t ∈ tagsOf lower upper event := by
      rw [← htags, hsplit]
      exact List.mem_append_right _ List.mem_cons_self
    exact ⟨hmem, technique_of_profileTags hmem (tagKind_eq_technique_iff.mp hkind)⟩
  · intro h
    obtain ⟨hmem, hname⟩ := h
    obtain ⟨before, after, hsplit⟩ := List.append_of_mem hmem
    have hpair : TagPair py catalog falco.tags t (tacticAt py catalog before t) :=
      ⟨before, after, htags.trans hsplit,
        tagKind_eq_technique_iff.mpr (isTechniqueTag_name hdigit hname), rfl⟩
    obtain ⟨e, he, htech, -⟩ :=
      (evidencePair_iff falco ids attackerKey bindingId t _).mpr hpair
    exact ⟨e, he, htech⟩

end Techniques

/-! ### What is stored of a chunk -/

/-- What the service takes a forwarded object for; its fields have the types of the schema. -/
structure ReadAs (forwarded : Settings) (event : OpenCanaryLogEvent) : Prop where
  srcHost : forwarded.get "src_host" = .str event.srcHost
  logtype : ∀ n, forwarded.get "logtype" = .int n → event.logtype = some n
  logdata : ∀ logdata, forwarded.get "logdata" = .dict logdata → event.logdata = logdata

section Stored

variable {F : Type} {svc : OpenCanaryService F} {call : IngestCall} {event : OpenCanaryLogEvent}
  {s : CanaryStores F}

/-- The time that an event is stored with. -/
def eventTime (call : IngestCall) (event : OpenCanaryLogEvent) : Datetime :=
  event.utcTime.getD (.utc call.now)

/-- **An event that can be ingested is stored**, with the evidence of its tags. -/
theorem exec_ingest (hexpiry : ExpiryAware s.shared event.srcHost)
    (htimely : Timely (sharedProfiler svc) s.shared event.srcHost (eventTime call event)) :
    ∃ response t bindingId, Effect.exec (ingest svc call event) s = (.ok response, t) ∧
      t.shared.profiler.listByAttacker event.srcHost =
        s.shared.profiler.listByAttacker event.srcHost ++
          requestEvidence svc.profiler call.evidenceIds
            (canaryRequest event (readEvent svc event) (eventTime call event) bindingId) := by
  obtain ⟨binding, hbinding⟩ := exec_resolveBinding_ok call hexpiry
  let resolved : Stores F := { s.shared with bindings := Binding.upsert binding s.shared.bindings }
  let request := canaryRequest event (readEvent svc event) (eventTime call event) binding.bindingId
  have hready : Timely (sharedProfiler svc) resolved event.srcHost (eventTime call event) :=
    ⟨htimely.time, htimely.window⟩
  obtain ⟨profile, hprofile⟩ :=
    @exec_ingestEvidence_ok F (sharedProfiler svc) call request resolved hready
  let observation := canaryObservation call event (readEvent svc event) (eventTime call event)
    binding.bindingId (requestEvidence svc.profiler call.evidenceIds request)
  refine ⟨⟨observation, binding, profile⟩, {
    shared := { resolved with
      profiler := Profiler.ingest svc.profiler s.shared.profiler call.evidenceIds request call.now }
    observations := s.observations ++ [observation] }, binding.bindingId, ?_, ?_⟩
  · simp only [eventTime, sharedProfiler, request, resolved] at hprofile
    simp only [ingest, onShared, sharedProfiler, eventTime, Effect.exec_bind, Effect.exec_zoom,
      hbinding, hprofile, Effect.exec_modify, Effect.exec_pure, resolved, request, observation]
  · exact listByAttacker_ingest_self s.shared.profiler call.evidenceIds request call.now

end Stored

/-- A client of the FTP archive stores a file. -/
def uploadOrigin : Origin where
  route := {
    attackerKey := "198.51.100.7"
    bindingId := "b-1"
    assetId := "ftp-archive"
    assetName := "FTP archive"
    protocol := "tcp"
    publicPort := 12121
    backendHost := "honeynet-ftp"
    backendPort := 21
    backendIp := "172.20.0.6"
    updatedAt := "2026-01-01T00:00:00+00:00" }
  clientIp := "198.51.100.7"
  now := "2026-01-01T00:00:00Z"

/-- `stor db.sql`. -/
def uploadChunk : List UInt8 := [115, 116, 111, 114, 32, 100, 98, 46, 115, 113, 108, 13, 10]

def uploadEvent : ProtocolEvent :=
  protocolEvent uploadOrigin 21001 (baseLogdata uploadOrigin "ftp" ["STOR"])

def uploadLine : Settings :=
  [("dst_host", .str "honeynet-ftp"), ("dst_port", .int 21), ("logdata", .dict uploadEvent.logdata),
    ("logtype", .int 21001), ("src_host", .str "198.51.100.7")]

def uploadRead : OpenCanaryLogEvent where
  srcHost := "198.51.100.7"
  dstHost := some "honeynet-ftp"
  dstPort := some 21
  logtype := some 21001
  logdata := uploadEvent.logdata

theorem keepsCapitals_sample : KeepsCapitals sampleCanary.upper := by
  have hall : ∀ n : Fin 256, upperChar (Char.ofNat n) = [Char.ofNat n] →
      (Char.ofNat n).toUpper = Char.ofNat n := by decide +kernel
  have hmore : (Char.ofNat 376).toUpper = Char.ofNat 376 ∧
      (Char.ofNat 924).toUpper = Char.ofNat 924 := by decide
  intro s hs
  have hmap : s.toList.map Char.toUpper = s.toList := by
    refine (List.map_congr_left fun c hc => ?_).trans (List.map_id _)
    obtain ⟨hcapital, hrange⟩ := hs c hc
    rw [← Char.ofNat_toNat c] at hcapital ⊢
    rcases hrange with hlatin | heq | heq
    · exact hall ⟨c.toNat, hlatin⟩ hcapital
    · rw [heq]
      exact hmore.1
    · rw [heq]
      exact hmore.2
  show String.ofList (s.toList.map Char.toUpper) = s
  rw [hmap, String.ofList_toList]

end Honeynet.OpenCanary
