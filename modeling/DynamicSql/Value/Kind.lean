/-!
# Kinds of values

The kind of a value decides which converter binds it. Values of a parameter
have only some of the kinds; the others are declared in a template or in a
schema.
-/

namespace DynamicSql

/-- What a bound value is, as far as its converter is concerned. -/
inductive ValueKind where
  | boolean
  | integer
  | long
  | double
  | decimal
  | string
  | date
  | bytes
  | object
  | unknown
  deriving DecidableEq, Repr

namespace ValueKind

/-- The name under which a kind is written and its converter is known. -/
def name : ValueKind → String
  | boolean => "boolean"
  | integer => "integer"
  | long => "long"
  | double => "double"
  | decimal => "decimal"
  | string => "string"
  | date => "date"
  | bytes => "bytes"
  | object => "object"
  | unknown => "unknown"

/-- Every kind. -/
def all : List ValueKind :=
  [boolean, integer, long, double, decimal, string, date, bytes, object, unknown]

/-- The kind of a name. -/
def ofName? (name : String) : Option ValueKind :=
  all.find? (·.name == name)

end ValueKind

end DynamicSql
