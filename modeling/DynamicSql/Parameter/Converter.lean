import DynamicSql.Value.Kind

/-!
# Converters

A converter says how a bound value is handed over: which kind of value it
takes, and which JDBC type is declared for it.
-/

namespace DynamicSql

/-- How values of a kind are handed over. -/
structure Converter where
  name : String
  kind : ValueKind
  jdbcType : Option String
  deriving DecidableEq, Repr

namespace Converter

/-- A converter whose JDBC type is written in capital letters. -/
def make (name : String) (kind : ValueKind) (jdbcType : Option String) : Converter :=
  { name, kind, jdbcType := jdbcType.map String.toUpper }

/-- The converter that leaves the decision to the value. -/
def unknown : Converter := make "unknown" .unknown none

/-- The converter takes values of any kind. -/
def isUnknown (converter : Converter) : Bool := converter.kind == .unknown

end Converter

end DynamicSql
