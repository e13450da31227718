import DynamicSql.Value.Kind

/-!
# Values

A statement is rendered for a parameter, which is a JSON value. A number knows
whether it was written as a whole number, so that one and one point nought are
different values even where they compare equal. The fields of an object stand
in the order of their names, each name once.
-/

namespace DynamicSql

/-- A whole number of the signed or the unsigned sixty-four bit range. -/
structure WholeNumber where
  val : Int
  lower : Int64.minValue.toInt ≤ val
  upper : val < UInt64.size
  deriving DecidableEq

namespace WholeNumber

/-- The whole number of an integer within the range. -/
def ofInt? (n : Int) : Option WholeNumber :=
  if h : Int64.minValue.toInt ≤ n ∧ n < UInt64.size then some ⟨n, h.1, h.2⟩ else none

/-- The double nearest to a whole number. -/
def toFloat (n : WholeNumber) : Float :=
  if n.val < 0 then -(n.val.natAbs.toUInt64.toFloat) else n.val.natAbs.toUInt64.toFloat

end WholeNumber

/-- A number with the way it was written. -/
inductive Number where
  | whole (n : WholeNumber)
  | double (x : Float)

namespace Number

/-- The double that stands for a number in comparisons. -/
def toFloat : Number → Float
  | whole n => n.toFloat
  | double x => x

/-- Numbers written in the same way and equal. -/
def same : Number → Number → Bool
  | whole m, whole n => m == n
  | double x, double y => x == y
  | _, _ => false

end Number

/-- A parameter or a part of one. -/
inductive Value where
  | null
  | bool (b : Bool)
  | number (n : Number)
  | string (s : String)
  | array (items : List Value)
  | object (fields : List (String × Value))

namespace Value

/-- Sets a field, keeping the fields in the order of their names. -/
def insertField (name : String) (value : Value) :
    List (String × Value) → List (String × Value)
  | [] => [(name, value)]
  | (other, old) :: rest =>
    if name < other then (name, value) :: (other, old) :: rest
    else if name = other then (name, value) :: rest
    else (other, old) :: insertField name value rest

/-- The object of some fields; of fields with one name the last counts. -/
def ofFields (fields : List (String × Value)) : Value :=
  .object (fields.foldl (fun sorted field => insertField field.1 field.2 sorted) [])

/-- The kind under which a value is bound. -/
def kind : Value → ValueKind
  | null => .unknown
  | bool _ => .boolean
  | number (.whole _) => .long
  | number (.double _) => .double
  | string _ => .string
  | array _ => .object
  | object _ => .object

/-- Null, the empty text, the empty array and the empty object. -/
def isEmpty : Value → Bool
  | null => true
  | string s => s.isEmpty
  | array items => items.isEmpty
  | object fields => fields.isEmpty
  | bool _ => false
  | number _ => false

/-- Null is the value of nothing. -/
def isNull : Value → Bool
  | null => true
  | _ => false

/-- An array or an object: a value with parts that a path can reach. -/
def isComposite : Value → Bool
  | array _ => true
  | object _ => true
  | _ => false

mutual

/-- Equality of values; whole numbers and doubles are never equal. -/
def same : Value → Value → Bool
  | null, null => true
  | bool a, bool b => a == b
  | number m, number n => m.same n
  | string s, string t => s == t
  | array xs, array ys => sameItems xs ys
  | object xs, object ys => sameFields xs ys
  | _, _ => false

/-- Equality of arrays, item by item. -/
def sameItems : List Value → List Value → Bool
  | [], [] => true
  | x :: xs, y :: ys => same x y && sameItems xs ys
  | _, _ => false

/-- Equality of objects, field by field in the order of the names. -/
def sameFields : List (String × Value) → List (String × Value) → Bool
  | [], [] => true
  | (a, x) :: xs, (b, y) :: ys => a == b && same x y && sameFields xs ys
  | _, _ => false

end

end Value

end DynamicSql
