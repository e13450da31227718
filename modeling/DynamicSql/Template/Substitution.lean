import DynamicSql.Parameter.Class
import DynamicSql.Text.Span
import DynamicSql.Value.Path
import DynamicSql.Value.Text

/-!
# Substitution

What stands between two dollar signs names a value whose text is put in. This is
one pass from left to right: what is put in is not read again, and it may hold
no marker, so the bindings of a statement still belong to its markers. Two
dollar signs in a row stand for one, and one without a partner for itself.
-/

namespace DynamicSql

/-- The value that a path means: a parameter without parts stands for all of them. -/
def Value.namedBy (param : Value) (path : String) : Except Error (Option Value) :=
  if param.isComposite then param.get path else .ok (some param)

/-- The text that is put in for a path. -/
def insertedText (param : Value) (cls : ParameterClass) (path : String) :
    Except Error String := do
  match ← param.namedBy path with
  | none => throw (.binding path cls.name .noSuchProperty)
  | some value =>
    if '?' ∈ value.text.toList then throw (.binding path cls.name .markerInText)
    else return value.text

/-- Replaces what dollar signs enclose. -/
def substituteSpans (param : Value) (cls : ParameterClass) :
    List Text.Span → Except Error String
  | [] => .ok ""
  | .plain text :: rest => do
    return String.ofList text ++ (← substituteSpans param cls rest)
  | .enclosed [] :: rest => do return "$" ++ (← substituteSpans param cls rest)
  | .enclosed path :: rest => do
    let text ← insertedText param cls (String.ofList path)
    return text ++ (← substituteSpans param cls rest)
  | .unclosed tail :: rest => do
    return String.ofList ('$' :: tail) ++ (← substituteSpans param cls rest)

/-- Replaces the texts between dollar signs by the values that they name. -/
def substitute (param : Value) (cls : ParameterClass) (sql : String) :
    Except Error String :=
  substituteSpans param cls (Text.spans '$' sql.toList)

end DynamicSql
