import Honeynet.Lib.Collections
import Honeynet.Lib.Text

/-!
# Secrets in the body of a request

The preview of a body is searched for `name=value` with the name of a secret, from left to right,
and each value found is replaced by a marker.

* `secretAt`: a match of the pattern at one place of a text.
* `redactFrom`: the text with the matches replaced.
* `redactFrom_ampersand`: no match goes past an ampersand.
* `redactBody_parameter`: of the value of a secret parameter nothing is left.
-/

namespace Honeynet.Redaction

open Text

/-- The names in the pattern. -/
def secretFields : List (List Char) :=
  ["password", "passwd", "pwd", "token", "secret", "api_key", "apikey", "access_key"].map
    String.toList

/-- A letter of the pattern and a letter of a text, whatever their case: the long `s`, the Kelvin
sign and the two Turkish letters are variants, too. -/
def sameLetter (p c : Char) : Bool :=
  c.toLower == p || (p == 's' && c.toNat == 383) || (p == 'k' && c.toNat == 8490) ||
    (p == 'i' && (c.toNat == 304 || c.toNat == 305))

def startsWithField : List Char → List Char → Bool
  | [], _ => true
  | p :: ps, c :: cs => sameLetter p c && startsWithField ps cs
  | _ :: _, [] => false

/-- `[^&\s]` -/
def valueChar (c : Char) : Bool := c != '&' && !isSpace c

/-- How long the value is where a text starts with `field=([^&\s]+)`. -/
def fieldAt (t field : List Char) : Option ℕ :=
  if startsWithField field t then
    match t.drop field.length with
    | '=' :: rest =>
      let value := rest.takeWhile valueChar
      if value = [] then none else some value.length
    | _ => none
  else none

section Scan

-- `\w` of a character that is not ASCII
variable (wide : Char → Bool)

/-- `\w` -/
def isWordChar (c : Char) : Bool :=
  if c.toNat < 128 then c.isAlphanum || c == '_' else wide c

/-- `\b` between two characters, if there are any. -/
def boundary (before next : Option Char) : Bool :=
  (before.elim false (isWordChar wide)) != (next.elim false (isWordChar wide))

/-- A match at the start of a text: how long its name and its value are. -/
def secretAt (before : Option Char) (t : List Char) : Option (ℕ × ℕ) :=
  if boundary wide before t.head? then
    secretFields.findSome? fun field => (fieldAt t field).map fun n => (field.length, n)
  else none

def marker : List Char := "=[redacted]".toList

/-- A text with its matches replaced; `skip` characters of it belong to a match already. -/
def redactFrom : ℕ → Option Char → List Char → List Char
  | _, _, [] => []
  | skip + 1, _, c :: t => redactFrom skip (some c) t
  | 0, before, c :: t =>
    match secretAt wide before (c :: t) with
    | some (name, value) => (c :: t).take name ++ marker ++ redactFrom (name + value) (some c) t
    | none => c :: redactFrom 0 (some c) t

/-- `_redact_body_preview` of a text. -/
def redactBody (t : List Char) : List Char := redactFrom wide 0 none t

end Scan

/-! ### A match ends before an ampersand -/

theorem sameLetter_ne {p c : Char} (hp : 'a' ≤ p ∧ p ≤ 'z' ∨ p = '_') (h : sameLetter p c = true) :
    c ≠ '&' ∧ c ≠ '=' := by
  constructor
  · rintro rfl
    have hmiss : sameLetter p '&' = ('&' == p) := by simp [sameLetter]
    rw [hmiss, beq_iff_eq] at h
    subst h
    exact absurd hp (by decide)
  · rintro rfl
    have hmiss : sameLetter p '=' = ('=' == p) := by simp [sameLetter]
    rw [hmiss, beq_iff_eq] at h
    subst h
    exact absurd hp (by decide)

/-- The names consist of small letters and underscores. -/
theorem field_letters {field : List Char} (h : field ∈ secretFields) :
    field ≠ [] ∧ ∀ p ∈ field, 'a' ≤ p ∧ p ≤ 'z' ∨ p = '_' := by
  revert field
  decide

/-- Names do not go past an ampersand. -/
theorem startsWithField_ampersand {field : List Char}
    (hfield : ∀ p ∈ field, 'a' ≤ p ∧ p ≤ 'z' ∨ p = '_') (s t : List Char) :
    startsWithField field (s ++ '&' :: t) = startsWithField field s := by
  induction field generalizing s with
  | nil => rw [startsWithField, startsWithField]
  | cons p field ih =>
    cases s with
    | nil =>
      have hmiss : sameLetter p '&' = false := by
        refine Bool.eq_false_iff.mpr fun h => ?_
        exact (sameLetter_ne (hfield p List.mem_cons_self) h).1 rfl
      rw [List.nil_append, startsWithField, hmiss]
      rfl
    | cons c s =>
      rw [List.cons_append, startsWithField, startsWithField,
        ih (fun q hq => hfield q (List.mem_cons_of_mem p hq))]

theorem length_le_of_startsWithField {field t : List Char} (h : startsWithField field t = true) :
    field.length ≤ t.length := by
  induction field generalizing t with
  | nil => exact Nat.zero_le _
  | cons p field ih =>
    cases t with
    | nil => exact absurd h (by simp [startsWithField])
    | cons c t =>
      rw [startsWithField, Bool.and_eq_true] at h
      exact Nat.succ_le_succ (ih h.2)

theorem takeWhile_valueChar_ampersand (s t : List Char) :
    (s ++ '&' :: t).takeWhile valueChar = s.takeWhile valueChar := by
  induction s with
  | nil => exact List.takeWhile_cons_of_neg (by decide)
  | cons c s ih =>
    by_cases hc : valueChar c = true
    · rw [List.cons_append, List.takeWhile_cons_of_pos hc, List.takeWhile_cons_of_pos hc, ih]
    · rw [List.cons_append, List.takeWhile_cons_of_neg hc, List.takeWhile_cons_of_neg hc]

theorem fieldAt_ampersand {field : List Char}
    (hfield : ∀ p ∈ field, 'a' ≤ p ∧ p ≤ 'z' ∨ p = '_') (s t : List Char) :
    fieldAt (s ++ '&' :: t) field = fieldAt s field := by
  rw [fieldAt, fieldAt, startsWithField_ampersand hfield]
  by_cases hstart : startsWithField field s = true
  · rw [if_pos hstart, if_pos hstart, List.drop_append_of_le_length
      (length_le_of_startsWithField hstart)]
    cases hrest : s.drop field.length with
    | nil => rfl
    | cons c rest =>
      by_cases hc : c = '='
      · subst hc
        simp only [List.cons_append, takeWhile_valueChar_ampersand]
      · simp [hc]
  · rw [if_neg hstart, if_neg hstart]

variable {wide : Char → Bool}

theorem redactFrom_none {before : Option Char} {c : Char} {t : List Char}
    (h : secretAt wide before (c :: t) = none) :
    redactFrom wide 0 before (c :: t) = c :: redactFrom wide 0 (some c) t := by
  rw [redactFrom, h]

theorem redactFrom_some {before : Option Char} {c : Char} {t : List Char} {name value : ℕ}
    (h : secretAt wide before (c :: t) = some (name, value)) :
    redactFrom wide 0 before (c :: t) =
      (c :: t).take name ++ marker ++ redactFrom wide (name + value) (some c) t := by
  rw [redactFrom, h]

theorem secretAt_ampersand (before : Option Char) {s : List Char} (hs : s ≠ []) (t : List Char) :
    secretAt wide before (s ++ '&' :: t) = secretAt wide before s := by
  obtain ⟨c, s, rfl⟩ := List.exists_cons_of_ne_nil hs
  rw [secretAt, secretAt, List.cons_append, List.head?_cons, List.head?_cons, ← List.cons_append]
  by_cases hb : boundary wide before (some c) = true
  · rw [if_pos hb, if_pos hb]
    refine Collections.findSome?_congr fun field hfield => ?_
    rw [fieldAt_ampersand (field_letters hfield).2]
  · rw [if_neg hb, if_neg hb]

theorem startsWithField_head {field t : List Char} (hne : field ≠ [])
    (hfield : ∀ p ∈ field, 'a' ≤ p ∧ p ≤ 'z' ∨ p = '_') :
    startsWithField field ('&' :: t) = false := by
  have hsplit := startsWithField_ampersand hfield [] t
  rw [List.nil_append] at hsplit
  rw [hsplit]
  obtain ⟨p, field, rfl⟩ := List.exists_cons_of_ne_nil hne
  rw [startsWithField]

/-- No match starts with an ampersand. -/
theorem secretAt_of_ampersand (before : Option Char) (t : List Char) :
    secretAt wide before ('&' :: t) = none := by
  rw [secretAt]
  by_cases hb : boundary wide before ('&' :: t).head? = true
  · rw [if_pos hb, List.findSome?_eq_none_iff]
    intro field hfield
    obtain ⟨hne, hletters⟩ := field_letters hfield
    rw [fieldAt, startsWithField_head hne hletters, if_neg (by decide), Option.map_none]
  · rw [if_neg hb]

/-- A match lies within the text. -/
theorem secretAt_le {before : Option Char} {t : List Char} {name value : ℕ}
    (h : secretAt wide before t = some (name, value)) :
    1 ≤ name ∧ name + 1 + value ≤ t.length := by
  rw [secretAt] at h
  by_cases hb : boundary wide before t.head? = true
  · rw [if_pos hb] at h
    obtain ⟨field, hfield, hmap⟩ := List.exists_of_findSome?_eq_some h
    obtain ⟨n, hn, heq⟩ := Option.map_eq_some_iff.mp hmap
    obtain ⟨rfl, rfl⟩ := Prod.mk.inj heq
    refine ⟨List.length_pos_of_ne_nil (field_letters hfield).1, ?_⟩
    rw [fieldAt] at hn
    by_cases hstart : startsWithField field t = true
    · rw [if_pos hstart] at hn
      have hlength := List.length_drop (i := field.length) (l := t)
      cases hrest : t.drop field.length with
      | nil => rw [hrest] at hn; exact absurd hn (by simp)
      | cons c rest =>
        rw [hrest] at hn hlength
        by_cases hc : c = '='
        · subst hc
          have hvalue := (List.takeWhile_sublist valueChar (l := rest)).length_le
          simp only at hn
          by_cases hnil : rest.takeWhile valueChar = []
          · rw [if_pos hnil] at hn
            exact absurd hn (by simp)
          · rw [if_neg hnil] at hn
            obtain rfl := Option.some.inj hn
            rw [List.length_cons] at hlength
            omega
        · exact absurd hn (by simp [hc])
    · rw [if_neg hstart] at hn
      exact absurd hn (by simp)
  · rw [if_neg hb] at h
    exact absurd h (by simp)

/-- **After an ampersand the search starts anew.** -/
theorem redactFrom_ampersand {s : List Char} {skip : ℕ} (hskip : skip ≤ s.length)
    (before : Option Char) (t : List Char) :
    redactFrom wide skip before (s ++ '&' :: t) =
      redactFrom wide skip before s ++ '&' :: redactFrom wide 0 (some '&') t := by
  induction s generalizing skip before with
  | nil =>
    obtain rfl : skip = 0 := by simpa using hskip
    rw [List.nil_append, redactFrom_none (secretAt_of_ampersand before t)]
    rfl
  | cons c s ih =>
    cases skip with
    | succ skip =>
      rw [List.cons_append, redactFrom, redactFrom]
      exact ih (Nat.le_of_succ_le_succ hskip) (some c)
    | zero =>
      have hsame : secretAt wide before (c :: s ++ '&' :: t) = secretAt wide before (c :: s) :=
        secretAt_ampersand before (List.cons_ne_nil c s) t
      rw [List.cons_append] at hsame ⊢
      cases hat : secretAt wide before (c :: s) with
      | none =>
        rw [redactFrom_none hat, redactFrom_none (hsame.trans hat), ih (Nat.zero_le _),
          List.cons_append]
      | some lengths =>
        obtain ⟨name, value⟩ := lengths
        obtain ⟨-, hle⟩ := secretAt_le hat
        rw [List.length_cons] at hle
        have htake : (c :: (s ++ '&' :: t)).take name = (c :: s).take name := by
          rw [← List.cons_append]
          exact List.take_append_of_le_length (by rw [List.length_cons]; omega)
        rw [redactFrom_some hat, redactFrom_some (hsame.trans hat), htake, ih (by omega)]
        simp only [List.append_assoc]

/-! ### A secret parameter -/

/-- Characters of a match are skipped. -/
theorem redactFrom_skip (s : List Char) (before : Option Char) (t : List Char) :
    ∃ before', redactFrom wide s.length before (s ++ t) = redactFrom wide 0 before' t := by
  induction s generalizing before with
  | nil => exact ⟨before, rfl⟩
  | cons c s ih =>
    obtain ⟨before', h⟩ := ih (some c)
    exact ⟨before', by rw [List.length_cons, List.cons_append, redactFrom]; exact h⟩

/-- The name of a secret parameter, whatever its case. -/
def IsSecretName (name : List Char) : Prop := name.map Char.toLower ∈ secretFields

instance (name : List Char) : Decidable (IsSecretName name) :=
  inferInstanceAs (Decidable (_ ∈ secretFields))

/-- What may be put as the value of a parameter. -/
def IsValue (v : List Char) : Prop := v ≠ [] ∧ ∀ c ∈ v, valueChar c = true

instance (v : List Char) : Decidable (IsValue v) :=
  inferInstanceAs (Decidable (v ≠ [] ∧ ∀ c ∈ v, valueChar c = true))

/-- A parameter starts here. -/
def Starts (before : List Char) : Prop := before = [] ∨ before.getLast? = some '&'

/-- A parameter has ended here. -/
def Stops (after : List Char) : Prop := after = [] ∨ after.head? = some '&'

instance (before : List Char) : Decidable (Starts before) :=
  inferInstanceAs (Decidable (before = [] ∨ before.getLast? = some '&'))

instance (after : List Char) : Decidable (Stops after) :=
  inferInstanceAs (Decidable (after = [] ∨ after.head? = some '&'))

theorem startsWithField_toLower (name t : List Char) :
    startsWithField (name.map Char.toLower) (name ++ t) = true := by
  induction name with
  | nil => rfl
  | cons c name ih =>
    rw [List.map_cons, List.cons_append, startsWithField, ih, sameLetter, beq_self_eq_true]
    rfl

/-- What starts with a name of the pattern starts with its letters. -/
theorem letters_of_startsWithField {field : List Char}
    (hfield : ∀ p ∈ field, 'a' ≤ p ∧ p ≤ 'z' ∨ p = '_') {t : List Char}
    (h : startsWithField field t = true) : ∀ c ∈ t.take field.length, c ≠ '=' := by
  induction field generalizing t with
  | nil => intro c hc; exact absurd hc (by simp)
  | cons p field ih =>
    cases t with
    | nil => intro c hc; exact absurd hc (by simp)
    | cons d t =>
      rw [startsWithField, Bool.and_eq_true] at h
      intro c hc
      rw [List.length_cons, List.take_succ_cons, List.mem_cons] at hc
      rcases hc with rfl | hc
      · exact (sameLetter_ne (hfield p List.mem_cons_self) h.1).2
      · exact ih (fun q hq => hfield q (List.mem_cons_of_mem p hq)) h.2 c hc

section Parameter

variable {name v after : List Char}

theorem takeWhile_value (hv : IsValue v) (hafter : Stops after) :
    (v ++ after).takeWhile valueChar = v := by
  rw [List.takeWhile_append_of_pos hv.2]
  rcases hafter with rfl | hhead
  · rw [List.takeWhile_nil, List.append_nil]
  · obtain ⟨t, rfl⟩ := List.head?_eq_some_iff.mp hhead
    rw [List.takeWhile_cons_of_neg (by decide), List.append_nil]

/-- Where a name of the pattern matches a parameter, it matches the whole name. -/
theorem fieldAt_parameter (hname : ∀ c ∈ name, c ≠ '=') (hv : IsValue v) (hafter : Stops after)
    {field : List Char} (hfield : field ∈ secretFields) :
    fieldAt (name ++ '=' :: (v ++ after)) field = none ∨
      (field.length = name.length ∧
        fieldAt (name ++ '=' :: (v ++ after)) field = some v.length) := by
  rw [fieldAt]
  by_cases hstart : startsWithField field (name ++ '=' :: (v ++ after)) = true
  · rw [if_pos hstart]
    have hletters := letters_of_startsWithField (field_letters hfield).2 hstart
    rcases lt_trichotomy field.length name.length with hlt | heq | hgt
    · -- a letter of the name stands where the sign is expected
      refine Or.inl ?_
      rw [List.drop_append_of_le_length hlt.le]
      obtain ⟨c, rest, hrest⟩ := List.exists_cons_of_ne_nil
        (List.ne_nil_of_length_pos (by rw [List.length_drop]; omega :
          0 < (name.drop field.length).length))
      have hc : c ≠ '=' := hname c (List.mem_of_mem_drop (by rw [hrest]; exact List.mem_cons_self))
      rw [hrest, List.cons_append]
      simp [hc]
    · refine Or.inr ⟨heq, ?_⟩
      rw [heq, List.drop_left]
      simp only [takeWhile_value hv hafter, if_neg hv.1]
    · -- the sign stands where a letter is expected
      exfalso
      refine hletters '=' ?_ rfl
      rw [List.take_append, List.mem_append]
      refine Or.inr ?_
      obtain ⟨n, hn⟩ := Nat.exists_eq_add_of_lt hgt
      have hlength : field.length - name.length = n + 1 := by omega
      rw [hlength, List.take_succ_cons]
      exact List.mem_cons_self
  · rw [if_neg hstart]
    exact Or.inl rfl

theorem name_letters (hname : IsSecretName name) :
    (∀ c ∈ name, c ≠ '=') ∧ ∃ c rest, name = c :: rest ∧ c.toNat < 128 ∧ c.isAlphanum = true := by
  obtain ⟨hne, hletters⟩ := field_letters hname
  constructor
  · rintro c hc rfl
    have hsign := hletters _ (List.mem_map_of_mem hc)
    exact absurd hsign (by decide)
  · cases name with
    | nil => exact absurd rfl hne
    | cons c rest =>
      refine ⟨c, rest, rfl, ?_⟩
      have hfirst : c.toLower ∈ secretFields.filterMap List.head? := by
        refine List.mem_filterMap.mpr ⟨_, hname, ?_⟩
        rw [List.map_cons, List.head?_cons]
      have hsmall : ∀ d ∈ secretFields.filterMap List.head?, 97 ≤ d.toNat ∧ d.toNat ≤ 122 := by
        decide
      have hrange := hsmall _ hfirst
      rw [toNat_toLower] at hrange
      have hletter : 65 ≤ c.toNat ∧ c.toNat ≤ 90 ∨ 97 ≤ c.toNat ∧ c.toNat ≤ 122 := by
        by_cases hup : 65 ≤ c.toNat ∧ c.toNat ≤ 90
        · exact Or.inl hup
        · rw [if_neg hup] at hrange
          exact Or.inr hrange
      refine ⟨by omega, ?_⟩
      have hupper : c.isUpper = true ∨ c.isLower = true := by
        rcases hletter with h | h
        · exact Or.inl (decide_eq_true h)
        · exact Or.inr (Bool.and_eq_true_iff.mpr ⟨decide_eq_true h.1, decide_eq_true h.2⟩)
      exact Bool.or_eq_true_iff.mpr (Or.inl (Bool.or_eq_true_iff.mpr hupper))

/-- **A secret parameter is found** at the start of a text and after an ampersand. -/
theorem secretAt_parameter (hname : IsSecretName name) (hv : IsValue v) (hafter : Stops after)
    {before : Option Char} (hbefore : before = none ∨ before = some '&') :
    secretAt wide before (name ++ '=' :: (v ++ after)) = some (name.length, v.length) := by
  obtain ⟨hnosign, c, rest, hcons, hascii, halnum⟩ := name_letters hname
  have hboundary : boundary wide before (name ++ '=' :: (v ++ after)).head? = true := by
    have hword : isWordChar wide c = true := by rw [isWordChar, if_pos hascii, halnum]; rfl
    have hamp : isWordChar wide '&' = false := rfl
    rw [hcons, List.cons_append, List.head?_cons, boundary]
    rcases hbefore with rfl | rfl
    · simp [hword]
    · simp [hword, hamp]
  have hlength : (name.map Char.toLower).length = name.length := List.length_map _
  have hfound : fieldAt (name ++ '=' :: (v ++ after)) (name.map Char.toLower) = some v.length := by
    rw [fieldAt, if_pos (startsWithField_toLower name _), hlength, List.drop_left]
    simp only [takeWhile_value hv hafter, if_neg hv.1]
  rw [secretAt, if_pos hboundary]
  cases hsome : secretFields.findSome? fun field =>
      (fieldAt (name ++ '=' :: (v ++ after)) field).map fun n => (field.length, n) with
  | none =>
    have hmiss := List.findSome?_eq_none_iff.mp hsome _ hname
    rw [hfound] at hmiss
    exact absurd hmiss (by simp)
  | some lengths =>
    obtain ⟨field, hfield, hmap⟩ := List.exists_of_findSome?_eq_some hsome
    rcases fieldAt_parameter hnosign hv hafter hfield with hmiss | ⟨hsame, hhit⟩
    · rw [hmiss] at hmap
      exact absurd hmap (by simp)
    · rw [hhit, Option.map_some, hsame] at hmap
      rw [← hmap]

/-- After a parameter the search goes on whatever its value was. -/
theorem redactFrom_stops (hafter : Stops after) (before before' : Option Char) :
    redactFrom wide 0 before after = redactFrom wide 0 before' after := by
  rcases hafter with rfl | hhead
  · rfl
  · obtain ⟨t, rfl⟩ := List.head?_eq_some_iff.mp hhead
    rw [redactFrom_none (secretAt_of_ampersand before t),
      redactFrom_none (secretAt_of_ampersand before' t)]

theorem redactFrom_parameter (hname : IsSecretName name) (hv : IsValue v) (hafter : Stops after)
    {before : Option Char} (hbefore : before = none ∨ before = some '&') :
    redactFrom wide 0 before (name ++ '=' :: (v ++ after)) =
      name ++ marker ++ redactFrom wide 0 none after := by
  have hat : secretAt wide before (name ++ '=' :: (v ++ after)) = some (name.length, v.length) :=
    secretAt_parameter hname hv hafter hbefore
  obtain ⟨-, c, rest, rfl, -, -⟩ := name_letters hname
  rw [List.cons_append] at hat ⊢
  have htake : (c :: (rest ++ '=' :: (v ++ after))).take (c :: rest).length = c :: rest := by
    rw [← List.cons_append]
    exact List.take_left
  have hskip : rest ++ '=' :: (v ++ after) = (rest ++ '=' :: v) ++ after := by simp
  have hlength : (c :: rest).length + v.length = (rest ++ '=' :: v).length := by
    rw [List.length_append, List.length_cons, List.length_cons]
    omega
  obtain ⟨before', hrest⟩ : ∃ before', redactFrom wide (rest ++ '=' :: v).length (some c)
      ((rest ++ '=' :: v) ++ after) = redactFrom wide 0 before' after := redactFrom_skip _ _ _
  rw [redactFrom_some hat, htake, hskip, hlength, hrest, redactFrom_stops hafter before' none]

/-- **Of the value of a secret parameter nothing is left.** -/
theorem redactBody_parameter {before : List Char} (hbefore : Starts before)
    (hname : IsSecretName name) (hv : IsValue v) (hafter : Stops after) :
    redactBody wide (before ++ (name ++ '=' :: (v ++ after))) =
      redactBody wide before ++ (name ++ marker ++ redactFrom wide 0 none after) := by
  rw [redactBody, redactBody]
  rcases hbefore with rfl | hlast
  · exact redactFrom_parameter hname hv hafter (Or.inl rfl)
  · obtain ⟨s, rfl⟩ := List.getLast?_eq_some_iff.mp hlast
    rw [List.append_assoc, List.singleton_append, redactFrom_ampersand (Nat.zero_le _),
      redactFrom_ampersand (Nat.zero_le _), redactFrom_parameter hname hv hafter (Or.inr rfl),
      redactFrom]
    simp

end Parameter

end Honeynet.Redaction
