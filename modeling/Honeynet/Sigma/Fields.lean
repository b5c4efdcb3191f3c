import Honeynet.Sigma.Plans
import Honeynet.Lib.Regex.Patterns

/-!
# Field conditions of a Sigma selection

A selection is a mapping from `field|modifier|...` to a value or a list of values, or a list of
keywords.

* `splitSigmaField`, `sigmaValues`, `sigmaKeywordToRegex`: the readings the matchers share.
-/

namespace Honeynet.Sigma

open Text

/-- What the matchers take from their language: `str.lower`, `str` of a value that is not a
string, and `re.search(pattern, text)` as a truth value for well-formed patterns. -/
structure Builtins where
  lower : String → String
  render : Value → String
  search : List Char → List Char → Bool

/-- `text.lower()`. -/
def Builtins.lowerText (py : Builtins) (t : List Char) : List Char :=
  (py.lower (String.ofList t)).toList

/-- What is documented of them: lower-casing twice is lower-casing once and makes no final line
break, what a lower-case text starts with is lower-case, and a pattern is searched for as the
language of patterns says. -/
structure Builtins.Standard (py : Builtins) : Prop where
  lower_lower : ∀ s, py.lower (py.lower s) = py.lower s
  lower_prefix : ∀ s t, py.lowerText (s ++ t) = s ++ t → py.lowerText s = s
  lower_last : ∀ s, (py.lower s).toList.getLast? = some '\n' → s.toList.getLast? = some '\n'
  search_eq : ∃ A : Regex.Alphabet, ∀ p r, Regex.parse p = some r →
    ∀ t, py.search p t = Regex.search A r t

/-- The built-ins on ASCII texts. -/
def asciiBuiltins : Builtins := ⟨asciiLower, fun _ => "", Regex.reSearch Regex.ascii⟩

theorem asciiBuiltins_standard : asciiBuiltins.Standard where
  lower_lower := asciiLower_asciiLower
  lower_prefix s t h := by
    simp only [Builtins.lowerText, asciiBuiltins, asciiLower, String.toList_ofList] at h ⊢
    rw [List.map_append] at h
    exact (List.append_inj h (List.length_map _)).1
  lower_last _ := getLast?_asciiLower
  search_eq := ⟨Regex.ascii, fun _ _ hr t => Regex.reSearch_of_parse hr t⟩

/-- `str(value)`. -/
def Builtins.str (py : Builtins) : Value → String
  | .str s => s
  | v => py.render v

/-- `isinstance(value, (str, int, float))`; a boolean is an integer. -/
def isScalar : Value → Bool
  | .str _ => true
  | .int _ => true
  | .float _ => true
  | .bool _ => true
  | _ => false

/-- The field name and the modifiers of `Field|contains|all`. -/
def splitSigmaField (py : Builtins) (rawField : String) : String × List String :=
  match ((rawField.toList.splitOn '|').map strip).filter fun part => part != [] with
  | [] => ("", [])
  | field :: modifiers =>
    (py.lower (String.ofList (field.map fun c => if c = '.' then '_' else c)),
      modifiers.map fun part => py.lower (String.ofList part))

/-- Scalar or list values as lower-case strings. -/
def sigmaValues (py : Builtins) : Value → List (List Char)
  | .list items =>
    (items.filter fun item => isScalar item && py.str item != "").map
      fun item => (py.lower (py.str item)).toList
  | value => if isScalar value then [(py.lower (py.str value)).toList] else []

/-- The nonempty strings of a scalar or a list. -/
def sigmaStringValues : Value → List String
  | .str s => [s]
  | .list items => items.filterMap fun item =>
    match item with
    | .str s => if s = "" then none else some s
    | _ => none
  | _ => []

/-- A keyword as a pattern in which `*` matches anything. -/
def sigmaKeywordToRegex (py : Builtins) (value : String) : List Char :=
  ".*".toList.intercalate ((value.toList.splitOn '*').map
    fun part => reEscape (py.lower (String.ofList part)).toList)

end Honeynet.Sigma
