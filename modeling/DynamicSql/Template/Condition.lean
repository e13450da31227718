import DynamicSql.Value.Order

/-!
# Conditions

The tests that a conditional tag can make of the value at its property, which
is called its subject. Comparisons have a second value, their operand.
-/

namespace DynamicSql

/-- A test of a subject. -/
inductive Condition where
  | isNull
  | isNotNull
  | isEmpty
  | isNotEmpty
  | isEqual
  | isNotEqual
  | isGreaterThan
  | isGreaterEqual
  | isLessThan
  | isLessEqual
  | isPropertyAvailable
  | isNotPropertyAvailable
  | isParameterPresent
  | isNotParameterPresent
  deriving DecidableEq, Repr

namespace Condition

/-- The name of a condition, which is that of its tag. -/
def name : Condition → String
  | isNull => "isNull"
  | isNotNull => "isNotNull"
  | isEmpty => "isEmpty"
  | isNotEmpty => "isNotEmpty"
  | isEqual => "isEqual"
  | isNotEqual => "isNotEqual"
  | isGreaterThan => "isGreaterThan"
  | isGreaterEqual => "isGreaterEqual"
  | isLessThan => "isLessThan"
  | isLessEqual => "isLessEqual"
  | isPropertyAvailable => "isPropertyAvailable"
  | isNotPropertyAvailable => "isNotPropertyAvailable"
  | isParameterPresent => "isParameterPresent"
  | isNotParameterPresent => "isNotParameterPresent"

/-- Every condition. -/
def all : List Condition :=
  [isNull, isNotNull, isEmpty, isNotEmpty, isEqual, isNotEqual, isGreaterThan,
    isGreaterEqual, isLessThan, isLessEqual, isPropertyAvailable, isNotPropertyAvailable,
    isParameterPresent, isNotParameterPresent]

/-- The condition of a name. -/
def ofName? (name : String) : Option Condition :=
  all.find? (·.name == name)

/-- The condition compares its subject with an operand. -/
def isComparison : Condition → Bool
  | isEqual => true
  | isNotEqual => true
  | isGreaterThan => true
  | isGreaterEqual => true
  | isLessThan => true
  | isLessEqual => true
  | _ => false

/-- The condition makes no sense without a property. -/
def requiresProperty : Condition → Bool
  | isPropertyAvailable => true
  | isNotPropertyAvailable => true
  | _ => false

/-- The condition holds of a subject, which is none if its path leads nowhere and
    then counts as null. -/
def holds (condition : Condition) (param : Value) (subject : Option Value)
    (operand : Value) : Bool :=
  let value := subject.getD .null
  let order := value.compare operand
  match condition with
  | isNull => value.isNull
  | isNotNull => ! value.isNull
  | isEmpty => value.isEmpty
  | isNotEmpty => ! value.isEmpty
  | isEqual => order == some .eq
  | isNotEqual => order != some .eq
  | isGreaterThan => order == some .gt
  | isGreaterEqual => order == some .gt || order == some .eq
  | isLessThan => order == some .lt
  | isLessEqual => order == some .lt || order == some .eq
  | isPropertyAvailable => subject.isSome
  | isNotPropertyAvailable => subject.isNone
  | isParameterPresent => ! param.isNull
  | isNotParameterPresent => param.isNull

end Condition

end DynamicSql
