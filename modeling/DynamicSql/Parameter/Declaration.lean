import DynamicSql.Parameter.Class
import DynamicSql.Parameter.Registry
import DynamicSql.Text.Numeral
import DynamicSql.Text.Span

/-!
# Declarations of parameters

A placeholder declares a parameter of a statement: the property that is bound
and how. There are two styles. In the attribute style the name is followed by
`key=value` pairs after commas. In the colon style it is followed by segments
after colons, of which those with an equals sign are attributes, the first of
the others is the JDBC type, and what is left is the text that stands for null.
A declaration becomes a binding when its converter is found.
-/

namespace DynamicSql

/-- The direction in which a parameter is passed. -/
inductive ParameterMode where
  | input
  | output
  | inputOutput
  deriving DecidableEq, Repr

namespace ParameterMode

/-- The name of a mode. -/
def name : ParameterMode → String
  | input => "IN"
  | output => "OUT"
  | inputOutput => "INOUT"

/-- The mode that a text names, in any case. -/
def parse (text : String) : Except Error ParameterMode :=
  let word := (Text.trim text).toUpper
  if word = "IN" then .ok input
  else if word = "OUT" then .ok output
  else if word = "INOUT" then .ok inputOutput
  else .error (.template .invalidMode text)

end ParameterMode

/-- A parameter as a placeholder declares it. -/
structure Declaration where
  property : String
  javaType : Option String := none
  jdbcType : Option String := none
  mode : ParameterMode := .input
  /-- The text whose value is bound as null. -/
  nullValue : Option String := none
  handler : Option String := none
  numericScale : Option Nat := none
  deriving DecidableEq, Repr

/-- A parameter with its converter; it belongs to the marker at its place. -/
structure Binding extends Declaration where
  converter : Converter
  deriving DecidableEq, Repr

namespace Declaration

/-- Sets an attribute. Blanks around the key and the value do not count, and a
    type or handler without a name is none. -/
def setAttribute (d : Declaration) (key value : String) : Except Error Declaration :=
  let value := Text.trim value
  match Text.trim key with
  | "javaType" => .ok { d with javaType := Text.nonEmpty? value }
  | "jdbcType" => .ok { d with jdbcType := Text.nonEmpty? value }
  | "mode" => do return { d with mode := ← ParameterMode.parse value }
  | "nullValue" => .ok { d with nullValue := some value }
  | "handler" => .ok { d with handler := Text.nonEmpty? value }
  | "numericScale" =>
    match Text.numeral? UInt32.size value.toList with
    | some scale => .ok { d with numericScale := some scale }
    | none => .error (.template .invalidScale value)
  | other => .error (.template .unknownParameterAttribute other)

/-- A declaration of a name and nothing else. -/
def named (name : List Char) (body : String) : Except Error Declaration :=
  let property := Text.trim (String.ofList name)
  if property.isEmpty then .error (.template .missingPropertyName body)
  else .ok { property }

/-- Reads a segment of the attribute style. -/
def addPair (d : Declaration) (segment : List Char) : Except Error Declaration :=
  match Text.splitFirst? '=' segment with
  | some (key, value) => d.setAttribute (String.ofList key) (String.ofList value)
  | none => .error (.template .malformedAttribute (String.ofList segment))

/-- Reads a segment of the colon style if it is an attribute. -/
def addIfPair (d : Declaration) (segment : List Char) : Except Error Declaration :=
  match Text.splitFirst? '=' segment with
  | some (key, value) => d.setAttribute (String.ofList key) (String.ofList value)
  | none => .ok d

/-- Takes over the segments that are no attributes: a JDBC type, and a text for
    null in which colons are kept. -/
def setPositional (d : Declaration) : List (List Char) → Declaration
  | [] => d
  | [jdbcType] => { d with jdbcType := Text.nonEmpty? (String.ofList jdbcType) }
  | jdbcType :: nullValue =>
    { d with
      jdbcType := Text.nonEmpty? (String.ofList jdbcType)
      nullValue := some (String.ofList ([':'].intercalate nullValue)) }

/-- Reads a body of the attribute style. -/
def ofAttributes (body : String) : Except Error Declaration :=
  match body.toList.splitOn ',' with
  | [] => named [] body
  | name :: segments => do segments.foldlM addPair (← named name body)

/-- Reads a body of the colon style. -/
def ofColons (body : String) : Except Error Declaration :=
  match body.toList.splitOn ':' with
  | [] => named [] body
  | name :: segments => do
    let d ← segments.foldlM addIfPair (← named name body)
    return d.setPositional (segments.filter ('=' ∉ ·))

/-- Reads the body of a placeholder; a colon anywhere means the colon style,
    which has no commas. -/
def parse (body : String) : Except Error Declaration :=
  if ':' ∈ body.toList then
    if ',' ∈ body.toList then .error (.template .mixedParameterStyles body)
    else ofColons body
  else ofAttributes body

/-- The kind of a declared parameter: that of its Java type, else that which the
    class of the parameter gives to its property. -/
def kind (d : Declaration) (cls : ParameterClass) (converters : Converters) :
    Except Error ValueKind :=
  match d.javaType, cls with
  | some javaType, _ => converters.resolve javaType
  | none, .unknown => .ok .unknown
  | none, .map => .ok .unknown
  | none, .scalar kind => .ok kind
  | none, .record probe =>
    match probe.kind? d.property with
    | some kind => .ok kind
    | none => .error (.binding d.property probe.name .noSuchProperty)

/-- The converter of a declared parameter: the handler that it asks for, else
    that of its kind and its JDBC type. -/
def converter (d : Declaration) (cls : ParameterClass) (converters : Converters) :
    Except Error Converter :=
  match d.handler with
  | some handler => converters.handler handler
  | none => do
    let kind ← d.kind cls converters
    match converters.lookup kind d.jdbcType with
    | some converter => return converter
    | none => throw (.binding d.property cls.name (.noConverter kind d.jdbcType))

/-- The binding of a declared parameter. -/
def bind (d : Declaration) (cls : ParameterClass) (converters : Converters) :
    Except Error Binding := do
  return { d with converter := ← d.converter cls converters }

end Declaration

end DynamicSql
