import DynamicSql.Decimal.Reading
import DynamicSql.Text.Blank
import DynamicSql.Value.Text

/-!
# Comparing values

A comparison takes the kind of its left side: the right side is read as a
number, as a truth value or as text accordingly. Arrays and objects have no
order and are at most equal.
-/

namespace DynamicSql

/-- The order of two doubles; an undefined one has none. -/
def compareFloats (x y : Float) : Option Ordering :=
  if x < y then some .lt
  else if x == y then some .eq
  else if y < x then some .gt
  else none

namespace Value

/-- The double that a value stands for beside a number. -/
def asFloat? : Value → Option Float
  | number n => some n.toFloat
  | string s => Decimal.readFloat? (Text.trimChars s.toList)
  | _ => none

/-- The truth value that a value stands for beside a truth value. -/
def asBool? : Value → Option Bool
  | bool b => some b
  | string s =>
    let word := (Text.trim s).toLower
    if word = "true" then some true else if word = "false" then some false else none
  | _ => none

/-- The text that a value stands for beside a string. -/
def asText : Value → String
  | string s => s
  | value => value.json

/-- The order of two values as the left one sees it; none means that they are
    neither equal nor ordered. -/
def compare : Value → Value → Option Ordering
  | null, null => some .eq
  | null, _ => none
  | _, null => none
  | number m, right => do compareFloats m.toFloat (← right.asFloat?)
  | bool a, right => do
    let b ← right.asBool?
    if a = b then some .eq else if b then some .lt else some .gt
  | string s, right => some (compareOfLessAndEq s right.asText)
  | left, right => if left.same right then some .eq else none

end Value

end DynamicSql
