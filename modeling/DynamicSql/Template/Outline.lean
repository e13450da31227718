import DynamicSql.Template.Node

/-!
# Outlines of templates

The outline lists the parts of a template in the order of their numbers. A tag
is listed with the number of the tag around it and the numbers of the parts of
its body, so the list describes the whole template.
-/

namespace DynamicSql

/-- A part of a template without the parts inside it. -/
inductive Entry where
  | text (id : Nat) (text : TextPart)
  | tag (id : Nat) (tag : Tag) (parent : Option Nat) (children : List Nat)
  deriving DecidableEq, Repr

namespace Part

mutual

/-- The entries of a part below the tag with the given number. -/
def entries (parent : Option Nat) : Part → List Entry
  | text id content => [.text id content]
  | tag id t body => .tag id t parent (body.map Part.id) :: entriesOf (some id) body

/-- The entries of parts below the tag with the given number. -/
def entriesOf (parent : Option Nat) : List Part → List Entry
  | [] => []
  | part :: rest => part.entries parent ++ entriesOf parent rest

end

theorem entriesOf_append (parent : Option Nat) (parts others : List Part) :
    entriesOf parent (parts ++ others) = entriesOf parent parts ++ entriesOf parent others := by
  induction parts with
  | nil => rfl
  | cons part rest ih => simp [entriesOf, ih]

end Part

namespace Template

/-- The numbers of the parts outside every tag. -/
def roots (template : Template) : List Nat :=
  template.parts.map Part.id

/-- Every part, in the order of the numbers. -/
def outline (template : Template) : List Entry :=
  Part.entriesOf none template.parts

end Template

end DynamicSql
