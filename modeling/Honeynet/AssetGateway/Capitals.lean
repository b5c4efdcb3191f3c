import Honeynet.AssetGateway.Observer

/-!
# Commands are words in capitals

A command that an observer reports is a word in capitals, so whoever reads the event takes its
first word, in capitals again, for the same command.

* `Observer.commands`: the commands of a chunk.
* `isCommand_of_mem`: each of them is a word in capitals.
-/

namespace Honeynet.AssetGateway

open Collections Text

/-- A character of the encoding, or the capital of one, that is its own capital. -/
def IsCapital (c : Char) : Prop :=
  upperChar c = [c] ∧ (c.toNat < 256 ∨ c.toNat = 376 ∨ c.toNat = 924)

instance (c : Char) : Decidable (IsCapital c) := inferInstanceAs (Decidable (_ ∧ _))

/-- A word in capitals. -/
structure IsCommand (command : String) : Prop where
  word : IsWord command.toList
  capital : ∀ c ∈ command.toList, IsCapital c

/-- The commands of a chunk. -/
def Observer.commands (data : List UInt8) : Observer → List String
  | mail protocol => parseCommands protocol.commands data
  | redis => parseRedisCommands data
  | git => parseGitCommands data
  | mysql => parseMysqlCommands data
  | login protocol => parseLoginProtocolCommands protocol.fallback data
  | highInteraction _ => []

section Upper

theorem toNat_decode {data : List UInt8} {c : Char} (hc : c ∈ decode data) : c.toNat < 256 := by
  obtain ⟨b, -, rfl⟩ := List.mem_map.mp hc
  have hall : ∀ n : Fin 256, (Char.ofNat n).toNat < 256 := by decide +kernel
  exact hall ⟨b.toNat, b.toNat_lt⟩

/-- The capital of a character of the encoding is a capital, and a letter where that is one. -/
theorem capital_of_upperChar {c d : Char} (hc : c.toNat < 256) (hd : d ∈ upperChar c) :
    IsCapital d ∧ (isSpace c = false → isSpace d = false) := by
  have hall : ∀ n : Fin 256, ∀ d ∈ upperChar (Char.ofNat n), IsCapital d ∧
      (isSpace (Char.ofNat n) = false → isSpace d = false) := by decide +kernel
  have h := hall ⟨c.toNat, hc⟩ d
  rw [Char.ofNat_toNat] at h
  exact h hd

theorem isCommand_upper {w : List Char} (hword : IsWord w) (hw : ∀ c ∈ w, c.toNat < 256) :
    IsCommand (String.ofList (upper w)) := by
  rw [upper]
  refine ⟨⟨?_, ?_⟩, ?_⟩
  · obtain ⟨c, t, rfl⟩ := List.exists_cons_of_ne_nil hword.1
    have hc : upperChar c ≠ [] := by
      unfold upperChar
      split_ifs <;> simp
    rw [String.toList_ofList, List.flatMap_cons]
    intro hnil
    exact hc (List.append_eq_nil_iff.mp hnil).1
  · intro d hd
    rw [String.toList_ofList] at hd
    obtain ⟨c, hc, hd⟩ := List.mem_flatMap.mp hd
    exact (capital_of_upperChar (hw c hc) hd).2 (hword.2 c hc)
  · intro d hd
    rw [String.toList_ofList] at hd
    obtain ⟨c, hc, hd⟩ := List.mem_flatMap.mp hd
    exact (capital_of_upperChar (hw c hc) hd).1

end Upper

section Commands

variable {data : List UInt8} {command : String}

theorem isCommand_verb (h : command ∈ verbs data) : IsCommand command := by
  obtain ⟨piece, -, rfl, hword⟩ := verb_piece h
  exact isCommand_upper hword fun c hc => toNat_decode hc

/-- A letter is a character of the encoding, and no blank. -/
theorem letter_of_isAlpha {c : Char} (h : c.isAlpha = true) :
    c.toNat < 256 ∧ isSpace c = false := by
  have hrange : 65 ≤ c.toNat ∧ c.toNat ≤ 122 := by
    have hcases : (decide (c.val ≥ 'A'.val ∧ c.val ≤ 'Z'.val) ||
        (decide (c.val ≥ 'a'.val) && decide (c.val ≤ 'z'.val))) = true := h
    simp only [Bool.or_eq_true, Bool.and_eq_true, decide_eq_true_eq, ge_iff_le,
      UInt32.le_iff_toNat_le] at hcases
    have hnat : c.val.toNat = c.toNat := rfl
    have hupper : 'A'.val.toNat = 65 ∧ 'Z'.val.toNat = 90 := ⟨rfl, rfl⟩
    have hlower : 'a'.val.toNat = 97 ∧ 'z'.val.toNat = 122 := ⟨rfl, rfl⟩
    omega
  have hall : ∀ n : Fin 256, 65 ≤ n.val ∧ n.val ≤ 122 → isSpace (Char.ofNat n) = false := by
    decide +kernel
  have hspace := hall ⟨c.toNat, by omega⟩ hrange
  rw [Char.ofNat_toNat] at hspace
  exact ⟨by omega, hspace⟩

theorem letters_of_redisName {t name : List Char} (h : redisName t = some name) :
    name ≠ [] ∧ ∀ c ∈ name, c.isAlpha = true := by
  unfold redisName at h
  split at h
  · dsimp only at h
    split at h
    · split at h
      · exact absurd h (by simp)
      · rename_i hne
        obtain rfl := Option.some.inj h
        exact ⟨hne, fun c hc => List.mem_takeWhile_imp hc⟩
    · exact absurd h (by simp)
  · exact absurd h (by simp)

theorem isCommand_redis (h : command ∈ parseRedisCommands data) : IsCommand command := by
  unfold parseRedisCommands at h
  dsimp only at h
  split at h
  · obtain ⟨name, hname, rfl⟩ := Option.map_eq_some_iff.mp (Option.mem_toList.mp h)
    obtain ⟨t, -, ht⟩ := List.exists_of_findSome?_eq_some hname
    obtain ⟨hne, hletters⟩ := letters_of_redisName ht
    exact isCommand_upper ⟨hne, fun c hc => (letter_of_isAlpha (hletters c hc)).2⟩
      fun c hc => (letter_of_isAlpha (hletters c hc)).1
  · obtain ⟨word, hword, rfl⟩ := Option.map_eq_some_iff.mp (Option.mem_toList.mp h)
    have hmem : word ∈ words (strip (decode data)) := List.mem_of_mem_head? hword
    have hinfix : word <:+: decode data :=
      (infix_of_mem_wordsFrom hmem).trans (infix_strip (decode data))
    exact isCommand_upper (isWord_of_mem_words hmem)
      fun c hc => toNat_decode (List.IsInfix.subset hinfix hc)

/-- The names that observers give to what they see themselves. -/
def ownNames : List String :=
  ["SSH_CLIENT_HELLO", "SSH_CLIENT_DATA", "TELNET_INPUT", "GIT_UPLOAD_PACK", "GIT_RECEIVE_PACK",
    "GIT_UPLOAD_ARCHIVE", "GIT_LS_REFS", "GIT_FETCH", "GIT_CONNECT", "MYSQL_QUERY",
    "MYSQL_STMT_PREPARE", "MYSQL_STMT_EXECUTE", "MYSQL_INIT_DB", "MYSQL_PING", "MYSQL_QUIT",
    "MYSQL_LOGIN"]

theorem isCommand_ownName (h : command ∈ ownNames) : IsCommand command := by
  have hword : ∀ name ∈ ownNames, name.toList ≠ [] ∧ ∀ c ∈ name.toList, isSpace c = false := by
    decide
  have hcapital : ∀ name ∈ ownNames, ∀ c ∈ name.toList, IsCapital c := by decide
  exact ⟨hword command h, hcapital command h⟩

theorem mem_parse_cases {validCommands : List String}
    (h : command ∈ parseCommands validCommands data) : command ∈ verbs data := by
  unfold parseCommands dedupePreserve at h
  rcases mem_appendNew.mp h with hnil | hmem
  · exact absurd hnil List.not_mem_nil
  · exact (List.mem_filter.mp hmem).1

theorem mem_ite_cases {p : Prop} [Decidable p] {xs ys : List String}
    (h : command ∈ if p then xs else ys) : command ∈ xs ∨ command ∈ ys := by
  split at h
  · exact Or.inl h
  · exact Or.inr h

theorem ite_subset {p : Prop} [Decidable p] {xs ys zs : List String} (hxs : xs ⊆ zs)
    (hys : ys ⊆ zs) : (if p then xs else ys) ⊆ zs := by
  split
  · exact hxs
  · exact hys

theorem mem_ite_concat {p : Prop} [Decidable p] {xs : List String} {name : String}
    (h : command ∈ if p then xs ++ [name] else xs) : command ∈ xs ∨ command = name := by
  rcases mem_ite_cases h with h | h
  · exact (List.mem_append.mp h).imp_right List.mem_singleton.mp
  · exact Or.inl h

theorem git_ownName (h : command ∈ parseGitCommands data) : command ∈ ownNames := by
  have hservice : ∀ e ∈ [("git-upload-pack", "GIT_UPLOAD_PACK"),
      ("git-receive-pack", "GIT_RECEIVE_PACK"), ("git-upload-archive", "GIT_UPLOAD_ARCHIVE")],
      e.2 ∈ ownNames := by decide
  unfold parseGitCommands at h
  rcases mem_ite_cases h with hconnect | h
  · rw [List.mem_singleton.mp hconnect]
    decide
  · rcases mem_ite_concat h with h | rfl
    · rcases mem_ite_concat h with h | rfl
      · obtain ⟨e, he, rfl⟩ := List.mem_map.mp h
        exact hservice e (List.mem_filter.mp he).1
      · decide
    · decide

theorem mysqlPacket_cases (h : command ∈ mysqlPacketCommands data) :
    command ∈ ownNames ∨ command ∈ sqlVerbs (data.drop 5) := by
  unfold mysqlPacketCommands at h
  split at h
  · exact absurd h List.not_mem_nil
  · split at h
    · rcases mem_ite_cases h with h | h
      · exact Or.inl (List.mem_singleton.mp h ▸ by decide)
      · exact Or.inr h
    · left
      have hprepare : ["MYSQL_STMT_PREPARE"] ⊆ ownNames := by decide
      have hexecute : ["MYSQL_STMT_EXECUTE"] ⊆ ownNames := by decide
      have hinit : ["MYSQL_INIT_DB"] ⊆ ownNames := by decide
      have hping : ["MYSQL_PING"] ⊆ ownNames := by decide
      have hquit : ["MYSQL_QUIT"] ⊆ ownNames := by decide
      exact ite_subset hprepare (ite_subset hexecute (ite_subset hinit
        (ite_subset hping (ite_subset hquit (List.nil_subset _))))) h

theorem isCommand_mysql (h : command ∈ parseMysqlCommands data) : IsCommand command := by
  unfold parseMysqlCommands at h
  rcases mem_ite_cases h with h | h
  · exact absurd h List.not_mem_nil
  · rcases mem_ite_cases h with h | h
    · exact isCommand_ownName (List.mem_singleton.mp h ▸ by decide)
    · rcases mem_ite_cases h with h | h
      · exact isCommand_verb (mem_parse_cases h)
      · rcases mysqlPacket_cases h with h | h
        · exact isCommand_ownName h
        · exact isCommand_verb (mem_parse_cases h)

theorem isCommand_login {fallback : String} (hfallback : fallback ∈ ownNames)
    (h : command ∈ parseLoginProtocolCommands fallback data) : IsCommand command := by
  unfold parseLoginProtocolCommands at h
  split at h
  · exact isCommand_ownName (List.mem_singleton.mp h ▸ by decide)
  · split at h
    · rcases mem_ite_cases h with hnil | hmem
      · exact absurd hnil List.not_mem_nil
      · exact isCommand_ownName (List.mem_singleton.mp hmem ▸ hfallback)
    · rename_i first rest hverbs
      rw [← hverbs] at h
      unfold parseTextCommands dedupePreserve at h
      rcases mem_appendNew.mp h with hnil | hmem
      · exact absurd hnil List.not_mem_nil
      · exact isCommand_verb hmem

/-- **A command that is reported is a word in capitals.** -/
theorem isCommand_of_mem {o : Observer} (h : command ∈ o.commands data) : IsCommand command := by
  cases o with
  | mail protocol => exact isCommand_verb (mem_parse_cases h)
  | redis => exact isCommand_redis h
  | git => exact isCommand_ownName (git_ownName h)
  | mysql => exact isCommand_mysql h
  | login protocol =>
    cases protocol with
    | ssh => exact isCommand_login (by decide) h
    | telnet => exact isCommand_login (by decide) h
  | highInteraction source => exact absurd h List.not_mem_nil

end Commands

end Honeynet.AssetGateway
