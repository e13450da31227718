import DynamicSql.Template.Frames
import DynamicSql.Template.Node
import DynamicSql.Value.Path

/-!
# Rendering

The parts of a template are rendered one after the other. Each gives a fragment
of the statement, and each may change the frames: it may use up a marker around
it and lets the innermost loop reach its item. What follows a part sees these
changes; a fault ends the whole rendering.
-/

namespace DynamicSql

/-- What a rendering is given besides the template. -/
structure Occasion where
  cls : ParameterClass
  converters : Converters
  param : Value

/-- A step of a rendering, which may change the frames or fail. -/
abbrev Rendering (α : Type) := StateT Frames (Except Error) α

namespace Occasion

/-- The place that a property means, and the value there. -/
def look (occasion : Occasion) (property : String) : Rendering (String × Option Value) := do
  modify Frames.advance
  let path := String.ofList ((← get).qualify property.toList)
  let value ← occasion.param.get path
  return (path, value)

/-- The place and the value that a tag is about, which is the parameter if the tag
    names no property. -/
def subject (occasion : Occasion) (tag : Tag) : Rendering (String × Option Value) :=
  match tag.property with
  | some property => occasion.look property
  | none => return ("", some occasion.param)

/-- The items of the array at a place, if there is an array. -/
def itemsOf (occasion : Occasion) (path : String) : Option Value → Except Error (List Value)
  | some (.array items) => .ok items
  | none => .error (.binding path occasion.cls.name (.notACollection "no value"))
  | some .null => .error (.binding path occasion.cls.name (.notACollection "null"))
  | some other => .error (.binding path occasion.cls.name (.notACollection other.kind.name))

/-- The array that an iteration goes through, with the path to it. -/
def collection (occasion : Occasion) (tag : Tag) : Rendering (String × List Value) := do
  let (path, value) ← occasion.subject tag
  let items ← occasion.itemsOf path value
  return (path, items)

/-- The operand of a comparison: a property that leads nowhere counts as null. -/
def operand (occasion : Occasion) (condition : Condition) (tag : Tag) :
    Rendering Value := do
  if condition.isComparison then
    match tag.compareProperty, tag.compareValue with
    | some property, _ => return ((← occasion.look property).2).getD .null
    | none, some value => return .string value
    | none, none => throw (.template .missingOperand condition.name)
  else return .null

/-- The condition of a tag holds. Its subject is looked up before its operand. -/
def decides (occasion : Occasion) (condition : Condition) (tag : Tag) :
    Rendering Bool := do
  let (_, subject) ← occasion.subject tag
  let operand ← occasion.operand condition tag
  return condition.holds occasion.param subject operand

end Occasion

namespace TextPart

/-- Renders text. Text that has to wait lets the innermost loop reach its item,
    and its placeholders are read with the indexes put in. -/
def render (occasion : Occasion) (text : TextPart) : Rendering Fragment := do
  match text.ready with
  | some fragment => return fragment
  | none =>
    if Text.hasContent text.source then
      modify Frames.advance
      let qualified := (← get).qualifyPlaceholders text.source
      Fragment.parse occasion.cls occasion.converters qualified
    else return .ofText text.source

end TextPart

namespace Tag

/-- The marker with which a tag is entered, by whether it is armed: a policy of
    its own decides, a group is armed if it has a text in front, and a tag inside
    another one without such a text inherits an armed policy or has no marker. -/
def marker? (tag : Tag) (parent : Option Tag) : Option Bool :=
  let inherited := parent.any fun p => p.removeFirst.any RemoveFirst.isArmed
  if tag.removeFirst.any RemoveFirst.isArmed then some true
  else if tag.handler.isGroup then some (tag.removeFirst.isNone && tag.prepend.isSome)
  else if tag.prepend.isNone && parent.isSome then
    if inherited then some true else none
  else some false

/-- Opens and closes a body with content. -/
def wrap (tag : Tag) (body : String) : String :=
  if Text.hasContent body then tag.opening.getD "" ++ body ++ tag.closing.getD ""
  else body

/-- Puts the text in front of a body with content, unless the tag stands inside
    another one and the marker around it is armed, which is then used up. -/
def prependTo (tag : Tag) (parent : Option Tag) (body : String) (frames : Frames) :
    String × Frames :=
  match tag.prepend with
  | none => (body, frames)
  | some lead =>
    if ! Text.hasContent body then (body, frames)
    else if parent.isNone then (lead ++ body, frames)
    else
      let (taken, after) := frames.takeEnclosing
      (if taken then body else lead ++ body, after)

/-- Renders a tag whose body appears once. -/
def once (tag : Tag) (parent : Option Tag) (body : Rendering Fragment) :
    Rendering Fragment := do
  let inner ← body
  return ⟨← modifyGet (tag.prependTo parent (tag.wrap inner.sql)), inner.bindings⟩

/-- Ends a pass of the innermost loop; says whether it was the last one. Only the
    first text with content has the text in front. -/
def endPass (tag : Tag) (parent : Option Tag) (inner : Fragment) (frames : Frames) :
    (Fragment × Bool) × Frames :=
  match frames.loops with
  | [] => ((inner, true), frames)
  | loop :: _ =>
    let pass := loop.endPass tag inner.sql
    let ended := frames.setLoop pass.loop
    let (sql, after) :=
      if pass.isFirst then tag.prependTo parent pass.text ended else (pass.text, ended)
    let isLast := pass.loop.exhausted
    let startsAnew := ! isLast && tag.removeFirst = some .everyPass
    ((⟨sql, inner.bindings⟩, isLast), if startsAnew then after.rearm else after)

/-- Renders the passes of the innermost loop, at most the given number of them. -/
def passes (tag : Tag) (parent : Option Tag) (body : Rendering Fragment) :
    Nat → Rendering Fragment
  | 0 => return {}
  | count + 1 => do
    if ! (← get).loops.head?.any Loop.hasNext then return {}
    else
      let inner ← body
      let (fragment, isLast) ← modifyGet (tag.endPass parent inner)
      if isLast then return fragment
      else return fragment ++ (← passes tag parent body count)

/-- Renders an iteration: one pass for every item of its array. -/
def iterateOver (tag : Tag) (occasion : Occasion) (parent : Option Tag) (id : Nat)
    (body : Rendering Fragment) : Rendering Fragment := do
  let (property, items) ← occasion.collection tag
  modify (·.pushLoop { tag := id, size := items.length, property })
  let fragment ← tag.passes parent body items.length
  modify Frames.popLoop
  return fragment

/-- Renders what a tag makes of its body. -/
def content (tag : Tag) (occasion : Occasion) (parent : Option Tag) (id : Nat)
    (body : Rendering Fragment) : Rendering Fragment :=
  match tag.handler with
  | .group => tag.once parent body
  | .conditional condition => do
    if ← occasion.decides condition tag then tag.once parent body else return {}
  | .iterate => tag.iterateOver occasion parent id body

/-- Renders a tag around its body. -/
def around (tag : Tag) (occasion : Occasion) (parent : Option Tag) (id : Nat)
    (body : Rendering Fragment) : Rendering Fragment := do
  modify (·.enter id (tag.marker? parent))
  let fragment ← tag.content occasion parent id body
  modify (·.popMarker id)
  return fragment

end Tag

namespace Part

mutual

/-- Renders a part inside the given tag. -/
def render (occasion : Occasion) (parent : Option Tag) : Part → Rendering Fragment
  | text _ content => content.render occasion
  | tag id t body => t.around occasion parent id (renderAll occasion (some t) body)

/-- Renders parts one after the other. -/
def renderAll (occasion : Occasion) (parent : Option Tag) : List Part → Rendering Fragment
  | [] => return {}
  | part :: rest => do
    let first ← part.render occasion parent
    return first ++ (← renderAll occasion parent rest)

end

end Part

end DynamicSql
