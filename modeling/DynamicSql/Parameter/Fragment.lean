import DynamicSql.Parameter.Declaration

/-!
# Fragments of statements

A fragment is a piece of a statement together with the bindings of the markers
in it, in their order. Text with placeholders becomes a fragment: each one is
replaced by a marker, and two number signs in a row stand for one.
-/

namespace DynamicSql

/-- Text of a statement and the bindings of its markers. -/
@[ext]
structure Fragment where
  sql : String := ""
  bindings : List Binding := []
  deriving DecidableEq, Repr

namespace Fragment

/-- One fragment after the other. -/
def append (f g : Fragment) : Fragment :=
  ⟨f.sql ++ g.sql, f.bindings ++ g.bindings⟩

instance : Append Fragment := ⟨append⟩

@[simp]
theorem sql_append (f g : Fragment) : (f ++ g).sql = f.sql ++ g.sql := rfl

@[simp]
theorem bindings_append (f g : Fragment) : (f ++ g).bindings = f.bindings ++ g.bindings := rfl

theorem append_assoc (f g h : Fragment) : f ++ g ++ h = f ++ (g ++ h) := by
  ext1 <;> simp [String.append_assoc]

@[simp]
theorem append_empty (f : Fragment) : f ++ ({} : Fragment) = f := by
  ext1 <;> simp

@[simp]
theorem empty_append (f : Fragment) : ({} : Fragment) ++ f = f := by
  ext1 <;> simp

/-- Text without markers of its own. -/
def ofText (sql : String) : Fragment := { sql }

/-- A marker with its binding. -/
def marker (binding : Binding) : Fragment := ⟨"?", [binding]⟩

/-- The fragment of text that is divided by number signs; the first placeholder
    that is no declaration or has no converter is the error. -/
def ofSpans (cls : ParameterClass) (converters : Converters) :
    List Text.Span → Except Error Fragment
  | [] => .ok {}
  | .plain text :: rest => do
    return ofText (String.ofList text) ++ (← ofSpans cls converters rest)
  | .enclosed [] :: rest => do return ofText "#" ++ (← ofSpans cls converters rest)
  | .enclosed body :: rest => do
    let declaration ← Declaration.parse (String.ofList body)
    let binding ← declaration.bind cls converters
    return marker binding ++ (← ofSpans cls converters rest)
  | .unclosed tail :: _ =>
    .error (.template .unterminatedParameter (String.ofList ('#' :: tail)))

/-- The fragment of text with placeholders. -/
def parse (cls : ParameterClass) (converters : Converters) (text : String) :
    Except Error Fragment :=
  ofSpans cls converters (Text.spans '#' text.toList)

end Fragment

end DynamicSql
