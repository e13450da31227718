import DynamicSql.Text.Blank
import DynamicSql.Value.Kind

/-!
# Schemas

A schema declares the kinds of the properties of a record. A property is known
by its shape: what stands between brackets does not count, so one declaration
covers all items of an array. A schema is one way to know the properties of a
record; a probe is any.
-/

namespace DynamicSql

/-- A record whose properties can be asked for their kinds. -/
structure Probe where
  name : String
  kind? : String → Option ValueKind

/-- The name of a record and the kinds of its properties by their shapes, the
    latest declaration first. -/
structure Schema where
  name : String
  properties : List (String × ValueKind) := []
  deriving DecidableEq, Repr

namespace Schema

/-- Drops what stands between brackets; the first argument says whether a
    bracket is open. -/
def dropIndexes : Bool → List Char → List Char
  | _, [] => []
  | inside, c :: rest =>
    if c = '[' then c :: dropIndexes true rest
    else if c = ']' then c :: dropIndexes false rest
    else if inside then dropIndexes inside rest
    else c :: dropIndexes inside rest

/-- The shape of a path: its text without blanks around it and without indexes. -/
def shape (path : String) : String :=
  String.ofList (dropIndexes false (Text.trimChars path.toList))

/-- Declares the kind of a property. -/
def declare (schema : Schema) (path : String) (kind : ValueKind) : Schema :=
  { schema with properties := (shape path, kind) :: schema.properties }

/-- The kind of a property, if it is declared. -/
def kind? (schema : Schema) (path : String) : Option ValueKind :=
  schema.properties.lookup (shape path)

/-- A schema as a probe. -/
def probe (schema : Schema) : Probe where
  name := schema.name
  kind? := schema.kind?

instance : Coe Schema Probe := ⟨probe⟩

/-- The latest declaration of a shape decides. -/
theorem kind?_declare (schema : Schema) (declared path : String) (kind : ValueKind) :
    (schema.declare declared kind).kind? path =
      if shape path = shape declared then some kind else schema.kind? path := by
  simp only [kind?, declare, List.lookup_cons]
  by_cases same : shape path = shape declared
  · simp [same]
  · have differs : (shape path == shape declared) = false := by simpa using same
    simp [same, differs]

end Schema

end DynamicSql
