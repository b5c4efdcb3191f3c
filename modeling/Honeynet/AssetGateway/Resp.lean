import Honeynet.AssetGateway.Observer
import Honeynet.Lib.Lines

/-!
# The name of a Redis command

A client sends a command as an array of bulk strings, its name first.  The observer does not
decode the lengths of the array: it looks for the first line made of letters.

* `encodeArray`: the bytes of an array of bulk strings.
* `lettersOf`: the letters of a line that has nothing else.
* `firstLetters`: the first such line among the lines of the bulk strings.
* `parseRedisCommands_encodeArray`: that line, wherever it stands, is what is reported.
* `parseRedisCommands_encodeArray_iff`: when nothing but the name is reported.
-/

namespace Honeynet.AssetGateway

open Text Lines

/-! ### Arrays of bulk strings -/

def crlf : List UInt8 := [13, 10]

/-- A number in decimal. -/
def digits (n : ℕ) : List UInt8 := (Nat.toDigits 10 n).map fun c => UInt8.ofNat c.toNat

def encodeBulk (s : List UInt8) : List UInt8 := 36 :: (digits s.length ++ crlf ++ (s ++ crlf))

def encodeArray (bulks : List (List UInt8)) : List UInt8 :=
  42 :: (digits bulks.length ++ crlf ++ bulks.flatMap encodeBulk)

theorem decode_append (s t : List UInt8) : decode (s ++ t) = decode s ++ decode t :=
  List.map_append

theorem decode_crlf : decode crlf = ['\r', '\n'] := by decide

/-- The digits of a number hold no line break. -/
theorem newline_notMem_digits (n : ℕ) : '\n' ∉ decode (digits n) := by
  intro h
  rw [decode, digits, List.map_map] at h
  obtain ⟨c, hc, heq⟩ := List.mem_map.mp h
  have hdigit := Nat.isDigit_of_mem_toDigits (by omega) (by omega) hc
  have hbounds : 48 ≤ c.toNat ∧ c.toNat ≤ 57 := by
    rw [Char.isDigit_iff_toNat] at hdigit
    exact hdigit
  have hbyte : (UInt8.ofNat c.toNat).toNat = c.toNat := by
    rw [UInt8.toNat_ofNat']
    omega
  rw [Function.comp_apply, hbyte, Char.ofNat_toNat] at heq
  rw [heq] at hbounds
  exact absurd hbounds (by decide)

/-! ### The line the observer looks for -/

/-- The letters a text begins with, if its first line has nothing else. -/
def lettersOf (t : List Char) : Option (List Char) :=
  if (removePrefix ['\r'] (t.dropWhile Char.isAlpha)).head? = some '\n' ∧
      t.takeWhile Char.isAlpha ≠ [] then
    some (t.takeWhile Char.isAlpha)
  else none

/-- The first line of letters of the bulk strings. -/
def firstLetters (bulks : List (List UInt8)) : Option (List Char) :=
  (bulks.flatMap fun s => linesOf '\n' (decode s ++ ['\r', '\n'])).findSome? lettersOf

theorem removePrefix_cr_append {d : List Char} (h : d.getLast? = some '\n') (t : List Char) :
    (removePrefix ['\r'] (d ++ t)).head? = (removePrefix ['\r'] d).head? := by
  cases d with
  | nil => simp at h
  | cons c d =>
    by_cases hc : c = '\r'
    · have hcut : ∀ s : List Char, removePrefix ['\r'] ('\r' :: s) = s :=
        removePrefix_append ['\r']
      subst hc
      rw [List.cons_append, hcut, hcut]
      cases d with
      | nil => simp at h
      | cons e d => rfl
    · have hkeep : ∀ s : List Char, removePrefix ['\r'] (c :: s) = c :: s := fun s => by
        rw [removePrefix, if_neg]
        simpa using fun heq : '\r' = c => hc heq.symm
      rw [List.cons_append, hkeep, hkeep]
      rfl

/-- Only the first line of a text is read. -/
theorem lettersOf_line_append {l : List Char} (h : IsLine '\n' l) (t : List Char) :
    lettersOf (l ++ t) = lettersOf l := by
  have hsplit : l.takeWhile Char.isAlpha ++ l.dropWhile Char.isAlpha = l :=
    List.takeWhile_append_dropWhile
  have hne : l.dropWhile Char.isAlpha ≠ [] := fun hnil =>
    absurd (List.dropWhile_eq_nil_iff.mp hnil '\n' h.mem) (by decide)
  have hlast : (l.dropWhile Char.isAlpha).getLast? = some '\n' := by
    obtain ⟨body, -, rfl⟩ := h
    rw [← List.getLast?_append_of_ne_nil _ hne, hsplit, List.getLast?_concat]
  have hdrop : (l ++ t).dropWhile Char.isAlpha = l.dropWhile Char.isAlpha ++ t := by
    rw [List.dropWhile_append, if_neg (by simpa using hne)]
  have htake : (l ++ t).takeWhile Char.isAlpha = l.takeWhile Char.isAlpha := by
    rw [List.takeWhile_append, if_neg]
    intro hlen
    have hlength := congrArg List.length hsplit
    rw [List.length_append] at hlength
    exact hne (List.eq_nil_of_length_eq_zero (by omega))
  rw [lettersOf, lettersOf, hdrop, htake, removePrefix_cr_append hlast]

/-! ### The search -/

theorem redisName_newline (t : List Char) : redisName ('\n' :: t) = lettersOf t := by
  have hkeep : removePrefix ['\r'] ('\n' :: t) = '\n' :: t := rfl
  rw [redisName, hkeep, lettersOf]
  cases hrest : removePrefix ['\r'] (t.dropWhile Char.isAlpha) with
  | nil => simp [hrest]
  | cons c rest =>
    by_cases hc : c = '\n'
    · subst hc
      by_cases hname : t.takeWhile Char.isAlpha = [] <;> simp [hrest, hname]
    · simp [hrest, hc]

theorem redisName_nil : redisName [] = none := rfl

/-- A carriage return before a line break changes nothing. -/
theorem redisName_cr (t : List Char) :
    redisName ('\r' :: t) = none ∨ redisName ('\r' :: t) = redisName t := by
  have hskip : removePrefix ['\r'] ('\r' :: t) = t := removePrefix_append ['\r'] t
  cases t with
  | nil => exact Or.inl rfl
  | cons c t =>
    by_cases hc : c = '\n'
    · subst hc
      exact Or.inr (by rw [redisName, hskip]; rfl)
    · refine Or.inl ?_
      rw [redisName, hskip]
      split
      · next heq => exact absurd (List.cons.inj heq).1 hc
      · rfl

theorem redisName_of_ne {c : Char} (hn : c ≠ '\n') (hr : c ≠ '\r') (t : List Char) :
    redisName (c :: t) = none := by
  have hkeep : removePrefix ['\r'] (c :: t) = c :: t := by
    rw [removePrefix, if_neg]
    simpa using fun heq : '\r' = c => hr heq.symm
  rw [redisName, hkeep]
  split
  · next heq => exact absurd (List.cons.inj heq).1 hn
  · rfl

/-- The search passes over what is not a line break. -/
theorem findSome?_tails_skip {c : Char} (hc : c ≠ '\n') (t : List Char) :
    (c :: t).tails.findSome? redisName = t.tails.findSome? redisName := by
  have htails : (c :: t).tails = (c :: t) :: t.tails := rfl
  have hhead : redisName (c :: t) = none ∨ redisName (c :: t) = redisName t := by
    by_cases hr : c = '\r'
    · subst hr
      exact redisName_cr t
    · exact Or.inl (redisName_of_ne hc hr t)
  have hfirst : ∀ w, redisName t = some w → t.tails.findSome? redisName = some w := by
    intro w hw
    cases t with
    | nil => exact absurd hw (by simp [redisName_nil])
    | cons d t =>
      show ((d :: t) :: t.tails).findSome? redisName = some w
      rw [List.findSome?_cons, hw]
  rw [htails, List.findSome?_cons]
  rcases hhead with hnone | hsame
  · rw [hnone]
  · rw [hsame]
    cases hw : redisName t with
    | none => rfl
    | some w => exact (hfirst w hw).symm

theorem findSome?_tails_skip_all {s : List Char} (hs : '\n' ∉ s) (t : List Char) :
    (s ++ t).tails.findSome? redisName = t.tails.findSome? redisName := by
  induction s with
  | nil => rfl
  | cons c s ih =>
    rw [List.mem_cons, not_or] at hs
    rw [List.cons_append, findSome?_tails_skip (fun h => hs.1 h.symm), ih hs.2]

/-- **The search reads line by line**: after a line break, the first line of letters is found. -/
theorem findSome?_tails_lines {ls : List (List Char)} (h : ∀ l ∈ ls, IsLine '\n' l) :
    ('\n' :: ls.flatten).tails.findSome? redisName = ls.findSome? lettersOf := by
  have htails : ∀ t : List Char, ('\n' :: t).tails.findSome? redisName =
      (lettersOf t).or (t.tails.findSome? redisName) := fun t => by
    show (('\n' :: t) :: t.tails).findSome? redisName = _
    rw [List.findSome?_cons, redisName_newline]
    cases lettersOf t <;> rfl
  induction ls with
  | nil => rfl
  | cons l ls ih =>
    obtain ⟨body, hbody, hl⟩ := h l List.mem_cons_self
    have hrest : (l ++ ls.flatten).tails.findSome? redisName = ls.findSome? lettersOf := by
      rw [hl, List.append_assoc, findSome?_tails_skip_all hbody, List.singleton_append]
      exact ih fun l' hl' => h l' (List.mem_cons_of_mem l hl')
    rw [List.flatten_cons, htails, hrest, lettersOf_line_append ⟨body, hbody, hl⟩,
      List.findSome?_cons]
    cases lettersOf l <;> rfl

/-! ### What is reported of an array -/

/-- The line breaks of a bulk string and the one after it. -/
theorem whole_bulk (s : List UInt8) : Whole '\n' (decode s ++ ['\r', '\n']) := by
  have hsplit : decode s ++ ['\r', '\n'] = (decode s ++ ['\r']) ++ ['\n'] := by simp
  rw [hsplit]
  exact Whole.concat (decode s ++ ['\r'])

/-- The line of the length of a bulk string. -/
def lengthLine (s : List UInt8) : List Char := '$' :: (decode (digits s.length) ++ ['\r', '\n'])

theorem isLine_lengthLine (s : List UInt8) : IsLine '\n' (lengthLine s) := by
  refine ⟨'$' :: (decode (digits s.length) ++ ['\r']), ?_, by simp [lengthLine]⟩
  have hdigits := newline_notMem_digits s.length
  simpa using hdigits

theorem lettersOf_lengthLine (s : List UInt8) : lettersOf (lengthLine s) = none := by
  have htake : (lengthLine s).takeWhile Char.isAlpha = [] :=
    List.takeWhile_cons_of_neg (by decide)
  rw [lettersOf, htake, if_neg (by simp)]

theorem decode_encodeBulk (s : List UInt8) :
    decode (encodeBulk s) = lengthLine s ++ (decode s ++ ['\r', '\n']) := by
  have hdollar : decode (36 :: (digits s.length ++ crlf ++ (s ++ crlf))) =
      '$' :: decode (digits s.length ++ crlf ++ (s ++ crlf)) := rfl
  rw [encodeBulk, hdollar, lengthLine]
  simp only [decode_append, decode_crlf, List.cons_append, List.append_assoc]

/-- The lines of the bulk strings of an array, each after the line of its length. -/
def arrayLines (bulks : List (List UInt8)) : List (List Char) :=
  bulks.flatMap fun s => lengthLine s :: linesOf '\n' (decode s ++ ['\r', '\n'])

theorem isLine_of_mem_arrayLines {bulks : List (List UInt8)} {l : List Char}
    (h : l ∈ arrayLines bulks) : IsLine '\n' l := by
  obtain ⟨s, -, hl⟩ := List.mem_flatMap.mp h
  rcases List.mem_cons.mp hl with rfl | hl
  · exact isLine_lengthLine s
  · exact isLine_of_mem_linesOf hl

theorem flatten_arrayLines (bulks : List (List UInt8)) :
    (arrayLines bulks).flatten = decode (bulks.flatMap encodeBulk) := by
  induction bulks with
  | nil => rfl
  | cons s bulks ih =>
    have hlines : (linesOf '\n' (decode s ++ ['\r', '\n'])).flatten = decode s ++ ['\r', '\n'] := by
      obtain ⟨ls, hls, htext⟩ := whole_bulk s
      rw [← htext, linesOf_flatten hls]
    rw [arrayLines, List.flatMap_cons, List.flatten_append, List.flatten_cons, hlines,
      List.flatMap_cons, decode_append, decode_encodeBulk, ← ih]
    rfl

theorem findSome?_arrayLines (bulks : List (List UInt8)) :
    (arrayLines bulks).findSome? lettersOf = firstLetters bulks := by
  induction bulks with
  | nil => rfl
  | cons s bulks ih =>
    rw [firstLetters, List.flatMap_cons, List.findSome?_append]
    rw [arrayLines, List.flatMap_cons, List.findSome?_append, List.findSome?_cons,
      lettersOf_lengthLine]
    exact congrArg _ ih

/-- **The first line of letters is reported**, whichever bulk string it stands in. -/
theorem parseRedisCommands_encodeArray (bulks : List (List UInt8)) :
    parseRedisCommands (encodeArray bulks) =
      ((firstLetters bulks).map fun w => String.ofList (upper w)).toList := by
  have htext : decode (encodeArray bulks) =
      ('*' :: (decode (digits bulks.length) ++ ['\r'])) ++ '\n' :: (arrayLines bulks).flatten := by
    have hstar : decode (encodeArray bulks) =
        '*' :: decode (digits bulks.length ++ crlf ++ bulks.flatMap encodeBulk) := rfl
    rw [hstar, flatten_arrayLines]
    simp only [decode_append, decode_crlf, List.cons_append, List.append_assoc, List.nil_append]
  have hhead : '\n' ∉ '*' :: (decode (digits bulks.length) ++ ['\r']) := by
    have hdigits := newline_notMem_digits bulks.length
    simpa using hdigits
  have hsearch : (decode (encodeArray bulks)).tails.findSome? redisName = firstLetters bulks := by
    rw [htext, findSome?_tails_skip_all hhead,
      findSome?_tails_lines fun l hl => isLine_of_mem_arrayLines hl, findSome?_arrayLines]
  have hstar : ['*'].isPrefixOf (decode (encodeArray bulks)) = true := by
    rw [htext]
    rfl
  unfold parseRedisCommands
  simp only [if_pos hstar, hsearch]

/-- A name made of letters is what is reported. -/
theorem parseRedisCommands_letters {name : List UInt8} (args : List (List UInt8))
    (hne : name ≠ []) (h : ∀ c ∈ decode name, c.isAlpha = true) :
    parseRedisCommands (encodeArray (name :: args)) = [String.ofList (upper (decode name))] := by
  have hline : IsLine '\n' (decode name ++ ['\r', '\n']) := by
    refine ⟨decode name ++ ['\r'], fun hmem => ?_, by simp⟩
    rcases List.mem_append.mp hmem with hmem | hmem
    · exact absurd (h _ hmem) (by decide)
    · simp at hmem
  have hlines : linesOf '\n' (decode name ++ ['\r', '\n']) = [decode name ++ ['\r', '\n']] := by
    have hone := linesOf_line_append hline []
    rwa [List.append_nil] at hone
  have hdecode : decode name ≠ [] := by
    rw [decode]
    simpa using hne
  have hletters : lettersOf (decode name ++ ['\r', '\n']) = some (decode name) := by
    have htake : (decode name ++ ['\r', '\n']).takeWhile Char.isAlpha = decode name := by
      rw [List.takeWhile_append_of_pos h, List.takeWhile_cons_of_neg (by decide), List.append_nil]
    have hdrop : (decode name ++ ['\r', '\n']).dropWhile Char.isAlpha = ['\r', '\n'] := by
      rw [List.dropWhile_append_of_pos h, List.dropWhile_cons_of_neg (by decide)]
    rw [lettersOf, htake, hdrop, if_pos ⟨by decide, hdecode⟩]
  have hfirst : firstLetters (name :: args) = some (decode name) := by
    rw [firstLetters, List.flatMap_cons, hlines, List.singleton_append, List.findSome?_cons,
      hletters]
  rw [parseRedisCommands_encodeArray, hfirst]
  rfl

/-- **Nothing but the name is reported** exactly if the first line of letters of the bulk strings,
where there is one, has the capitals of the name. -/
theorem parseRedisCommands_encodeArray_iff (name : List UInt8) (args : List (List UInt8)) :
    (parseRedisCommands (encodeArray (name :: args)) = [String.ofList (upper (decode name))] ∨
      parseRedisCommands (encodeArray (name :: args)) = []) ↔
    ∀ w, firstLetters (name :: args) = some w → upper w = upper (decode name) := by
  rw [parseRedisCommands_encodeArray]
  cases hfirst : firstLetters (name :: args) with
  | none =>
    refine ⟨fun _ w hw => by simp at hw, fun _ => Or.inr rfl⟩
  | some w =>
    show [String.ofList (upper w)] = [String.ofList (upper (decode name))] ∨
      [String.ofList (upper w)] = [] ↔ _
    simp [String.ofList_inj]

/-- `JSON.GET doc` is reported as the command `DOC`. -/
theorem argument_reported : ¬ ∀ (name : List UInt8) (args : List (List UInt8)),
    parseRedisCommands (encodeArray (name :: args)) = [String.ofList (upper (decode name))] ∨
      parseRedisCommands (encodeArray (name :: args)) = [] := by
  intro h
  have hdoc := h [74, 83, 79, 78, 46, 71, 69, 84] [[100, 111, 99]]
  revert hdoc
  decide

end Honeynet.AssetGateway
