import DynamicSql.Parameter.Schema
import DynamicSql.Value.Basic

/-!
# Classes of parameters

What a template declares about the parameter that it is rendered for, which is
what the kinds of its placeholders are taken from.
-/

namespace DynamicSql

/-- What is known about a parameter before there is one. -/
inductive ParameterClass where
  | unknown
  /-- Fields of any kind. -/
  | map
  /-- One value that stands for every placeholder. -/
  | scalar (kind : ValueKind)
  /-- Properties with declared kinds. -/
  | record (probe : Probe)

namespace ParameterClass

/-- The class of a value. -/
def of : Value → ParameterClass
  | .null => unknown
  | .array _ => map
  | .object _ => map
  | value => scalar value.kind

/-- The name of a class. -/
def name : ParameterClass → String
  | unknown => "unknown"
  | map => "map"
  | scalar kind => kind.name
  | record probe => probe.name

end ParameterClass

end DynamicSql
