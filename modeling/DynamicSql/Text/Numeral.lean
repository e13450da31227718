/-!
# Natural numerals

A numeral is an optional plus sign and one or more decimal digits; leading
zeros are allowed. Each place that reads one names the bound its value must
stay below.
-/

namespace DynamicSql.Text

/-- The value of decimal digits, if there is at least one and nothing else. -/
def digitsValue? (digits : List Char) : Option Nat :=
  if digits.isEmpty then none
  else if digits.all Char.isDigit then some (Nat.ofDigitChars 10 digits 0)
  else none

/-- The value of a numeral below `bound`. -/
def numeral? (bound : Nat) (cs : List Char) : Option Nat := do
  let value ← match cs with
    | '+' :: digits => digitsValue? digits
    | digits => digitsValue? digits
  if value < bound then some value else none

end DynamicSql.Text
