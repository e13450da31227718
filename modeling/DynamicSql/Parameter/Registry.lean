import DynamicSql.Error
import DynamicSql.Parameter.Converter
import DynamicSql.Text.Blank

/-!
# The registry of converters

A registry knows the names of Java types, the converters that replace the usual
one for a kind and a JDBC type, and the converters that templates ask for by
name. Of several registrations under one key the latest counts, so the tables
hold the latest one first. A registry is one source of converters; templates
take theirs from any source that answers the same three questions.
-/

namespace DynamicSql

/-- The JDBC types that a template may declare. -/
def jdbcTypes : List String :=
  ["ARRAY", "BIGINT", "BINARY", "BIT", "BLOB", "BOOLEAN", "CHAR", "CLOB", "CURSOR", "DATE",
    "DECIMAL", "DOUBLE", "FLOAT", "INTEGER", "JAVA_OBJECT", "LONGVARBINARY", "LONGVARCHAR",
    "NCHAR", "NCLOB", "NULL", "NUMERIC", "NVARCHAR", "ORACLECURSOR", "OTHER", "REAL",
    "SMALLINT", "STRUCT", "TIME", "TIMESTAMP", "TINYINT", "VARBINARY", "VARCHAR"]

/-- The names of Java types that every registry knows, in lower case. -/
def standardAliases : List (String × ValueKind) :=
  [("boolean", .boolean), ("bool", .boolean), ("byte", .integer), ("short", .integer),
    ("int", .integer), ("integer", .integer), ("long", .long), ("float", .double),
    ("double", .double), ("decimal", .decimal), ("bigdecimal", .decimal),
    ("biginteger", .decimal), ("string", .string), ("char", .string),
    ("character", .string), ("date", .date), ("time", .date), ("timestamp", .date),
    ("bytes", .bytes), ("byte[]", .bytes), ("object", .object), ("map", .object),
    ("hashmap", .object), ("list", .object), ("arraylist", .object)]

/-- Names of types, replaced converters and named converters. -/
structure Registry where
  aliases : List (String × ValueKind) := standardAliases
  overrides : List ((ValueKind × String) × Converter) := []
  handlers : List (String × Converter) := []

namespace Registry

/-- Makes a name of a Java type known, in any case. -/
def registerAlias (registry : Registry) (javaType : String) (kind : ValueKind) : Registry :=
  { registry with aliases := (javaType.toLower, kind) :: registry.aliases }

/-- Replaces the converter of a kind and a JDBC type. -/
def register (registry : Registry) (kind : ValueKind) (jdbcType : String)
    (converter : Converter) : Registry :=
  { registry with overrides := ((kind, jdbcType.toUpper), converter) :: registry.overrides }

/-- Makes a converter known under a name. -/
def registerHandler (registry : Registry) (name : String) (converter : Converter) :
    Registry :=
  { registry with handlers := (name, converter) :: registry.handlers }

/-- The part of a dotted name after its last dot. -/
def simpleName (name : String) : String :=
  String.ofList ((name.toList.splitOn '.').getLast?.getD [])

/-- The kind of a Java type: that of its whole name if it is known, else that of
    its simple name. -/
def resolve (registry : Registry) (javaType : String) : Except Error ValueKind :=
  let name := (Text.trim javaType).toLower
  match registry.aliases.lookup name <|> registry.aliases.lookup (simpleName name) with
  | some kind => .ok kind
  | none => .error (.binding javaType "type aliases" .unknownJavaType)

/-- The converter of a kind without a replacement. -/
def usual (kind : ValueKind) (jdbcType : Option String) : Converter :=
  { name := kind.name, kind, jdbcType }

/-- The converter of a kind and a declared JDBC type; there is none for a JDBC
    type that does not exist. -/
def lookup (registry : Registry) (kind : ValueKind) (jdbcType : Option String) :
    Option Converter :=
  match jdbcType.map String.toUpper with
  | none => some (usual kind none)
  | some jdbc =>
    if jdbc ∈ jdbcTypes then
      some ((registry.overrides.lookup (kind, jdbc)).getD (usual kind (some jdbc)))
    else none

/-- The converter that is known under a name. -/
def handler (registry : Registry) (name : String) : Except Error Converter :=
  match registry.handlers.lookup name with
  | some converter => .ok converter
  | none => .error (.binding name "type handlers" .unregisteredHandler)

end Registry

/-- A source of converters, as templates ask it; the usual one is the registry in
    which nothing is registered. -/
structure Converters where
  /-- The kind of a Java type. -/
  resolve : String → Except Error ValueKind := Registry.resolve {}
  /-- The converter of a kind and a declared JDBC type. -/
  lookup : ValueKind → Option String → Option Converter := Registry.lookup {}
  /-- The converter that is known under a name. -/
  handler : String → Except Error Converter := Registry.handler {}

/-- A registry as a source of converters. -/
def Registry.converters (registry : Registry) : Converters where
  resolve := registry.resolve
  lookup := registry.lookup
  handler := registry.handler

instance : Coe Registry Converters := ⟨Registry.converters⟩

end DynamicSql
