import DynamicSql.Error
import DynamicSql.Text.Blank
import DynamicSql.Text.Numeral

/-!
# Settings

The settings of the store of compiled paths, which are taken from variables of
the environment. A variable that is not set, or set to nothing, leaves the
usual value.
-/

namespace DynamicSql

/-- How many compiled paths are kept, and for how many seconds. -/
structure Settings where
  capacity : Nat := 1024
  idleSeconds : Nat := 600
  deriving DecidableEq, Repr

namespace Settings

/-- The variable for the count of compiled paths. -/
def capacityVariable : String := "JBATIS_PATH_CACHE_CAPACITY"

/-- The variable for the seconds that an unused path is kept. -/
def idleVariable : String := "JBATIS_PATH_CACHE_IDLE_SECS"

/-- The number in a variable, or the usual value. -/
def read (environment : String → Option String) (name : String) (usual : Nat) :
    Except Error Nat :=
  match environment name with
  | none => .ok usual
  | some text =>
    match Text.numeral? UInt64.size (Text.trimChars text.toList) with
    | some number => .ok number
    | none => if text.isEmpty then .ok usual else .error (.setting name text)

/-- The settings of an environment. -/
def ofEnvironment (environment : String → Option String) : Except Error Settings := do
  let usual : Settings := {}
  let capacity ← read environment capacityVariable usual.capacity
  let idleSeconds ← read environment idleVariable usual.idleSeconds
  return { capacity, idleSeconds }

end Settings

end DynamicSql
