import DynamicSql.Error
import DynamicSql.Template.Condition
import DynamicSql.Text.Blank

/-!
# Tags

A tag decides whether and how often its body appears, and what is put around
it: a text in front of the body, an opening and a closing text, and a text
between the passes of an iteration. A group leaves out the text in front of the
first tag inside it, so that the parts of a clause can all be written alike.
-/

namespace DynamicSql

/-- What a tag does with its body. -/
inductive Handler where
  /-- The body always appears. -/
  | group
  /-- The body appears once for every item of an array. -/
  | iterate
  /-- The body appears if the condition holds. -/
  | conditional (condition : Condition)
  deriving DecidableEq, Repr

namespace Handler

/-- The name of the tag. -/
def name : Handler → String
  | group => "dynamic"
  | iterate => "iterate"
  | conditional condition => condition.name

/-- Tags that group others without a condition. -/
def isGroup : Handler → Bool
  | conditional _ => false
  | _ => true

end Handler

/-- Whether the text in front of the first tag inside is left out, and whether
    this starts anew with every pass of an iteration. -/
inductive RemoveFirst where
  | off
  | on
  | everyPass
  deriving DecidableEq, Repr

namespace RemoveFirst

/-- The word for a policy. -/
def name : RemoveFirst → String
  | off => "false"
  | on => "true"
  | everyPass => "iterate"

/-- The policy asks for a text to be left out. -/
def isArmed : RemoveFirst → Bool
  | off => false
  | _ => true

/-- The policy that a text names. -/
def parse (text : String) : Except Error RemoveFirst :=
  match Text.trim text with
  | "false" => .ok off
  | "true" => .ok on
  | "iterate" => .ok everyPass
  | other => .error (.template .invalidPolicy other)

end RemoveFirst

/-- A tag with its attributes. -/
structure Tag where
  handler : Handler
  /-- The text in front of the body. -/
  prepend : Option String := none
  opening : Option String := none
  closing : Option String := none
  /-- The text between two passes. -/
  conjunction : Option String := none
  property : Option String := none
  compareProperty : Option String := none
  compareValue : Option String := none
  removeFirst : Option RemoveFirst := none
  deriving DecidableEq, Repr

namespace Tag

/-- An attribute value; the empty one counts as none. -/
def present? (value : String) : Option String :=
  if value.isEmpty then none else some value

/-- A tag without attributes, by the name of its handler. -/
def ofName (name : String) : Except Error Tag :=
  let word := Text.trim name
  if word = "dynamic" then .ok { handler := .group }
  else if word = "iterate" then .ok { handler := .iterate }
  else match Condition.ofName? word with
    | some condition => .ok { handler := .conditional condition }
    | none => .error (.template .unknownTag word)

/-- A group without attributes. -/
def dynamic : Tag := { handler := .group }

/-- An iteration over a property. -/
def iterate (property : String) : Tag :=
  { handler := .iterate, property := present? property }

/-- A condition on a property. -/
def conditional (condition : Condition) (property : String) : Tag :=
  { handler := .conditional condition, property := present? property }

/-- Sets an attribute by its name. -/
def setAttribute (tag : Tag) (name value : String) : Except Error Tag :=
  match name with
  | "prepend" => .ok { tag with prepend := present? value }
  | "open" => .ok { tag with opening := present? value }
  | "close" => .ok { tag with closing := present? value }
  | "conjunction" => .ok { tag with conjunction := present? value }
  | "property" => .ok { tag with property := present? value }
  | "compareProperty" => .ok { tag with compareProperty := present? value }
  | "compareValue" => .ok { tag with compareValue := present? value }
  | "removeFirstPrepend" => do
    return { tag with removeFirst := some (← RemoveFirst.parse value) }
  | other => .error (.template (.unknownTagAttribute tag.handler.name) other)

/-- A comparison has an operand, and a test for a property has one. -/
def validate (tag : Tag) : Except Error Unit :=
  match tag.handler with
  | .conditional condition =>
    if condition.isComparison && tag.compareProperty.isNone && tag.compareValue.isNone then
      .error (.template .missingOperand condition.name)
    else if condition.requiresProperty && tag.property.isNone then
      .error (.template .missingProperty condition.name)
    else .ok ()
  | _ => .ok ()

end Tag

end DynamicSql
