import DynamicSql.Parameter.Fragment
import DynamicSql.Template.Tag

/-!
# Templates

A template is written as text and tags with bodies of text and tags. Building
it checks the tags and reads the placeholders of all text outside iterations;
inside one they are read anew in every pass, when the indexes are known. The
parts of a built template are numbered in the order in which they are written.
-/

namespace DynamicSql

/-- Text or a tag with its body, as it is written. -/
inductive Node where
  | text (source : String)
  | tag (tag : Tag) (body : List Node)

/-- Text of a built template. -/
structure TextPart where
  source : String
  /-- The text stands inside an iteration. -/
  inIteration : Bool
  /-- What the text contributes, if that is known before rendering. -/
  ready : Option Fragment
  deriving DecidableEq, Repr

/-- Numbered text, or a numbered tag with the parts of its body. -/
inductive Part where
  | text (id : Nat) (text : TextPart)
  | tag (id : Nat) (tag : Tag) (body : List Part)

/-- A template before it is built. -/
structure Draft where
  id : String
  cls : ParameterClass := .unknown
  nodes : List Node := []

/-- A template that can be rendered. -/
structure Template where
  id : String
  cls : ParameterClass
  parts : List Part

namespace Node

mutual

/-- The count of numbers that a node takes. -/
def size : Node → Nat
  | text _ => 1
  | tag _ body => 1 + sizes body

/-- The count of numbers that some nodes take. -/
def sizes : List Node → Nat
  | [] => 0
  | node :: rest => node.size + sizes rest

end

@[simp]
theorem sizes_append (nodes others : List Node) :
    sizes (nodes ++ others) = sizes nodes + sizes others := by
  induction nodes with
  | nil => simp [sizes]
  | cons node rest ih => simp [sizes, ih, Nat.add_assoc]

/-- Builds text. Blank text stays as it is, and text in an iteration has to wait. -/
def buildText (cls : ParameterClass) (converters : Converters) (inIteration : Bool)
    (source : String) : Except Error TextPart :=
  if inIteration || ! Text.hasContent source then
    .ok { source, inIteration, ready := none }
  else do
    return { source, inIteration, ready := some (← Fragment.parse cls converters source) }

mutual

/-- Builds a node whose number is given; the tag is checked before its body. -/
def build (cls : ParameterClass) (converters : Converters) (inIteration : Bool) (id : Nat) :
    Node → Except Error Part
  | text source => do return .text id (← buildText cls converters inIteration source)
  | tag t body => do
    t.validate
    let inside := inIteration || t.handler == .iterate
    return .tag id t (← buildAll cls converters inside (id + 1) body)

/-- Builds nodes one after the other, from a number on. -/
def buildAll (cls : ParameterClass) (converters : Converters) (inIteration : Bool) (id : Nat) :
    List Node → Except Error (List Part)
  | [] => .ok []
  | node :: rest => do
    let part ← node.build cls converters inIteration id
    return part :: (← buildAll cls converters inIteration (id + node.size) rest)

end

end Node

namespace Draft

/-- Adds nodes at the end. -/
def add (draft : Draft) (nodes : List Node) : Draft :=
  { draft with nodes := draft.nodes ++ nodes }

/-- Builds a template; the first fault in the order of writing is the error. -/
def build (draft : Draft) (converters : Converters) : Except Error Template := do
  let parts ← Node.buildAll draft.cls converters false 0 draft.nodes
  return { id := draft.id, cls := draft.cls, parts }

end Draft

namespace Part

/-- The number of a part. -/
def id : Part → Nat
  | text id _ => id
  | tag id _ _ => id

end Part

end DynamicSql
