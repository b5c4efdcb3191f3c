import Honeynet.Lib.Padded

/-!
# The clock and its text

* `Utc`: a point in time as `utcnow()` returns it, ordered by its fields.
* `isoformat`: its text, without the microseconds where they are zero.
* `isoformat_le_isoformat`: the texts are ordered as the points in time.
-/

namespace Honeynet

/-- A datetime in UTC. -/
structure Utc where
  year : ℕ
  month : ℕ
  day : ℕ
  hour : ℕ
  minute : ℕ
  second : ℕ
  microsecond : ℕ
  year_mem : 1 ≤ year ∧ year ≤ 9999
  month_mem : 1 ≤ month ∧ month ≤ 12
  day_mem : 1 ≤ day ∧ day ≤ 31
  hour_lt : hour < 24
  minute_lt : minute < 60
  second_lt : second < 60
  microsecond_lt : microsecond < 1000000

namespace Utc

/-- The fields down to the second. -/
def fields (t : Utc) : List ℕ := [t.year, t.month, t.day, t.hour, t.minute, t.second]

/-- Datetimes are compared field by field. -/
instance : LE Utc := ⟨fun t u => t.fields ++ [t.microsecond] ≤ u.fields ++ [u.microsecond]⟩

instance (t u : Utc) : Decidable (t ≤ u) :=
  inferInstanceAs (Decidable (t.fields ++ [t.microsecond] ≤ u.fields ++ [u.microsecond]))

/-- The text of `YYYY-MM-DDTHH:MM:SS`: widths, and what follows each field. -/
def pattern : List (ℕ × List Char) := [(4, ['-']), (2, ['-']), (2, ['T']), (2, [':']), (2, [':']),
  (2, [])]

/-- What follows the seconds. -/
def fraction (microsecond : ℕ) : List Char :=
  if microsecond = 0 then "+00:00".toList
  else '.' :: (Padded.digits 6 microsecond ++ "+00:00".toList)

def isoformat (t : Utc) : String :=
  String.ofList (Padded.fields pattern t.fields (fraction t.microsecond))

theorem fields_mem (t : Utc) : List.Forall₂ (fun p n => n < 10 ^ p.1) pattern t.fields := by
  have hyear := t.year_mem
  have hmonth := t.month_mem
  have hday := t.day_mem
  have hhour := t.hour_lt
  have hminute := t.minute_lt
  have hsecond := t.second_lt
  simp only [pattern, fields, List.forall₂_cons, List.Forall₂.nil, and_true]
  omega

/-- A text without microseconds comes first, for its sign comes before a dot. -/
theorem fraction_lt_fraction {m n : ℕ} (h : m < n) (hn : n < 1000000) :
    fraction m < fraction n := by
  rw [fraction, fraction, if_neg (Nat.ne_of_gt (Nat.zero_lt_of_lt h))]
  by_cases hm : m = 0
  · rw [if_pos hm]
    exact List.cons_lt_cons_iff.mpr (Or.inl (by decide))
  · rw [if_neg hm]
    refine List.cons_lt_cons_iff.mpr (Or.inr ⟨rfl, ?_⟩)
    exact Padded.append_lt_append (by rw [Padded.length_digits, Padded.length_digits])
      (Padded.digits_lt_digits h hn) _ _

/-- **The texts are ordered as the points in time.** -/
theorem isoformat_le_isoformat {t u : Utc} (h : t ≤ u) : isoformat t ≤ isoformat u := by
  rw [String.le_iff_toList_le, isoformat, isoformat, String.toList_ofList, String.toList_ofList]
  have hle : t.fields ++ [t.microsecond] ≤ u.fields ++ [u.microsecond] := h
  rcases hle.lt_or_eq with hlt | heq
  · have hlength : t.fields.length = u.fields.length := rfl
    rcases Padded.lt_or_eq_of_append_lt hlength hlt with hfields | ⟨hfields, hmicros⟩
    · exact (Padded.fields_lt_fields rfl u.fields_mem hfields _ _).le
    · rw [hfields]
      have hlast : t.microsecond < u.microsecond :=
        (List.cons_lt_cons_iff.mp hmicros).resolve_right fun hnil => List.not_lt_nil _ hnil.2
      exact (Padded.fields_lt_fields_of_tail _ _
        (fraction_lt_fraction hlast u.microsecond_lt)).le
  · obtain ⟨hfields, hmicros⟩ := List.append_inj' heq rfl
    rw [hfields, (List.cons.inj hmicros).1]

end Utc

end Honeynet
