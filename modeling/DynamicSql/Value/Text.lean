import DynamicSql.Decimal.Layout
import DynamicSql.Value.Basic

/-!
# The text of values

A value is written as compact JSON: no blanks, the fields of objects in their
order, and in strings only quotes, backslashes and control characters escaped.
Inside a statement a string stands for itself and null for nothing.
-/

namespace DynamicSql

/-- Doubles are positional from five places after the point to sixteen before it. -/
def Number.layout : DecimalLayout := ⟨-5, 15⟩

/-- A number as it is written; numbers without a decimal are written as null. -/
def Number.text : Number → String
  | whole n => toString n.val
  | double x =>
    if x.isFinite then String.ofList (Number.layout.writeFloat x) else "null"

namespace Value

/-- A hexadecimal digit in lower case. -/
def hexDigit (n : Nat) : Char :=
  if n < 10 then Char.ofNat (48 + n) else Char.ofNat (87 + n)

/-- A character as it stands between the quotes of a string. -/
def escapeChar (c : Char) : List Char :=
  if c = '"' then ['\\', '"']
  else if c = '\\' then ['\\', '\\']
  else if c.toNat = 8 then ['\\', 'b']
  else if c = '\t' then ['\\', 't']
  else if c = '\n' then ['\\', 'n']
  else if c.toNat = 12 then ['\\', 'f']
  else if c = '\r' then ['\\', 'r']
  else if c.toNat < 32 then
    ['\\', 'u', '0', '0', hexDigit (c.toNat / 16), hexDigit (c.toNat % 16)]
  else [c]

/-- A string between quotes. -/
def quote (s : String) : String :=
  "\"" ++ String.ofList (s.toList.flatMap escapeChar) ++ "\""

mutual

/-- The compact JSON text of a value. -/
def json : Value → String
  | null => "null"
  | bool true => "true"
  | bool false => "false"
  | number n => n.text
  | string s => quote s
  | array items => "[" ++ ",".intercalate (jsonItems items) ++ "]"
  | object fields => "\x7b" ++ ",".intercalate (jsonFields fields) ++ "\x7d"

/-- The texts of the items of an array. -/
def jsonItems : List Value → List String
  | [] => []
  | item :: rest => json item :: jsonItems rest

/-- The texts of the fields of an object. -/
def jsonFields : List (String × Value) → List String
  | [] => []
  | (name, value) :: rest => (quote name ++ ":" ++ json value) :: jsonFields rest

end

/-- The text that a value contributes to a statement. -/
def text : Value → String
  | null => ""
  | string s => s
  | value => value.json

end Value

end DynamicSql
