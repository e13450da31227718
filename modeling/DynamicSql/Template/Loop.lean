import DynamicSql.Template.Tag
import DynamicSql.Text.Occurrence

/-!
# Loops

An iteration in progress. Its body names the items with an empty index, as in
`lines[].sku`, which is replaced by the index of the item of the present pass.
A pass comes to its item when something in the body first asks for one, or else
at its end; so before that the index is still that of the pass before.
-/

namespace DynamicSql

/-- An iteration in progress over an array. -/
structure Loop where
  /-- The number of the tag. -/
  tag : Nat
  /-- The count of the items. -/
  size : Nat
  /-- The path to the array, with the indexes of the loops around this one. -/
  property : String
  /-- The item that was reached last. -/
  index : Option Nat := none
  /-- The present pass has reached its item. -/
  stepped : Bool := false
  /-- A pass has reached the last item. -/
  exhausted : Bool := false
  /-- A pass has had content. -/
  produced : Bool := false
  deriving DecidableEq, Repr

/-- What a pass leaves behind. -/
structure PassEnd where
  text : String
  /-- The pass is the first one with content. -/
  isFirst : Bool
  loop : Loop
  deriving DecidableEq, Repr

namespace Loop

/-- The item after the one that was reached last. -/
def upcoming (loop : Loop) : Nat :=
  match loop.index with
  | none => 0
  | some index => index + 1

/-- There is an item that was not reached. -/
def hasNext (loop : Loop) : Bool := loop.upcoming < loop.size

/-- Goes on to the next item. -/
def step (loop : Loop) : Loop := { loop with index := some loop.upcoming }

/-- Reaches the item of the present pass, once. -/
def advance (loop : Loop) : Loop :=
  if loop.stepped then loop
  else
    let next := loop.step
    { next with stepped := true, exhausted := next.exhausted || ! next.hasNext }

/-- A pass reaches its item once, however often it is asked for. -/
@[simp]
theorem advance_advance (loop : Loop) : loop.advance.advance = loop.advance := by
  unfold advance
  split <;> simp_all

/-- Puts the present index into the places of a path that name an item of the
    array; without a path to the array this is an empty index at the beginning. -/
def qualify (loop : Loop) (path : List Char) : List Char :=
  match loop.index with
  | none => path
  | some index =>
    let position := '[' :: (Nat.toDigits 10 index ++ [']'])
    if loop.property.isEmpty then
      match path with
      | '[' :: ']' :: rest => position ++ rest
      | other => other
    else
      let array := loop.property.toList
      Text.replaceWhole (array ++ ['[', ']']) (array ++ position) path

/-- Ends a pass with the text of its body. The first text with content is
    opened, every later one is joined to those before, and the last pass closes
    the whole if there was content at all. -/
def endPass (loop : Loop) (tag : Tag) (body : String) : PassEnd :=
  let reached := if loop.stepped then loop else loop.step
  let content := Text.hasContent body
  let produced := loop.produced || content
  let before :=
    if ! content then none else if loop.produced then tag.conjunction else tag.opening
  let after := if produced && ! reached.hasNext then tag.closing else none
  { text := before.getD "" ++ body ++ after.getD ""
    isFirst := content && ! loop.produced
    loop := { reached with stepped := false, produced } }

end Loop

end DynamicSql
