import Honeynet.Lib.Collections
import Honeynet.Lib.Text

/-!
# Values, errors and times

What every service of the honeynet shares: the JSON-like values its documents
and settings are made of, the exceptions its functions raise, and the datetimes
it compares.

* `Value` is a JSON value; a `Settings` is a JSON object.
* `PyError` is a raised exception, by kind and message.
* `Datetime` is naive or timezone-aware.  `Datetime.le` raises when one of each
  is compared, which is what the source's language does.
-/

namespace Honeynet

open Collections

/-- A JSON value. -/
inductive Value
  | none
  | bool (b : Bool)
  | int (n : Int)
  | float (x : Rat)
  | str (s : String)
  | list (xs : List Value)
  | dict (d : List (String × Value))

/-- A JSON object. -/
abbrev Settings := Dict String Value

namespace Value

/-- `value is True`. -/
def isTrue : Value → Bool
  | bool true => true
  | _ => false

/-- The object, when `isinstance(value, dict)`. -/
def dict? : Value → Option Settings
  | dict d => some d
  | _ => Option.none

/-- The list, when `isinstance(value, list)`. -/
def list? : Value → Option (List Value)
  | list xs => some xs
  | _ => Option.none

/-- The string, when `isinstance(value, str)`. -/
def str? : Value → Option String
  | str s => some s
  | _ => Option.none

/-- `bool(value)`. -/
def truthy : Value → Bool
  | none => false
  | bool b => b
  | int n => n != 0
  | float x => x != 0
  | str s => s != ""
  | list xs => !xs.isEmpty
  | dict d => !d.isEmpty

/-- The integer, when `isinstance(value, int)`; a boolean is one. -/
def int? : Value → Option Int
  | int n => some n
  | bool b => some (if b then 1 else 0)
  | _ => Option.none

/-- `[item for item in value if isinstance(item, str)]` for a list. -/
def strings (items : List Value) : List String := items.filterMap str?

end Value

/-- `settings.get(key)`. -/
def Settings.get (d : Settings) (key : String) : Value := (List.lookup key d).getD .none

/-- `settings.get(key, default)`. -/
def Settings.getD (d : Settings) (key : String) (default : Value) : Value :=
  (List.lookup key d).getD default

/-- The kinds of exception the modelled functions raise. -/
inductive ErrorKind
  | bindingNotFound
  | typeError
  | valueError
  | keyError
  | runtimeError
  | overflowError
  | calledProcess
  | osError
  deriving DecidableEq, Repr

/-- A raised exception. -/
structure PyError where
  kind : ErrorKind
  message : String
  deriving DecidableEq, Repr

/-- `for item in value`. -/
def Value.items : Value → Except PyError (List Value)
  | .list xs => .ok xs
  | .str s => .ok (s.toList.map fun c => .str (String.singleton c))
  | .dict d => .ok (d.map fun e => .str e.1)
  | .none => .error ⟨.typeError, "'NoneType' object is not iterable"⟩
  | .bool _ => .error ⟨.typeError, "'bool' object is not iterable"⟩
  | .int _ => .error ⟨.typeError, "'int' object is not iterable"⟩
  | .float _ => .error ⟨.typeError, "'float' object is not iterable"⟩

/-- `string_or_none`: a string that is not blank, without the blanks around it. -/
def stringOrNone : Value → Option String
  | .str s =>
    let stripped := String.ofList (Text.strip s.toList)
    if stripped = "" then none else some stripped
  | _ => none

/-- A point in time in microseconds; `aware` when it carries a timezone, and then in UTC.  The
offset of the timezone, in minutes, only shows in its text. -/
structure Datetime where
  micros : Int
  aware : Bool
  offset : Int := 0
  deriving DecidableEq, Repr

namespace Datetime

/-- An aware datetime. -/
def utc (micros : Int) : Datetime := { micros, aware := true }

/-- `self + timedelta`. -/
def add (t : Datetime) (delta : Int) : Datetime := { t with micros := t.micros + delta }

/-- `a <= b`, which raises on a naive and an aware operand. -/
def le (a b : Datetime) : Except PyError Bool :=
  if a.aware = b.aware then .ok (decide (a.micros ≤ b.micros))
  else .error ⟨.typeError, "can't compare offset-naive and offset-aware datetimes"⟩

theorem utc_le_aware (now : Int) {t : Datetime} (h : t.aware = true) :
    (utc now).le t = .ok (decide (now ≤ t.micros)) := by
  have heq : (utc now).aware = t.aware := h.symm
  rw [le, if_pos heq]; rfl

theorem utc_le_naive (now : Int) {t : Datetime} (h : t.aware = false) : (utc now).le t =
    .error ⟨.typeError, "can't compare offset-naive and offset-aware datetimes"⟩ := by
  rw [le, if_neg (by simp [utc, h])]

end Datetime

end Honeynet
