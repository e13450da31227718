import DynamicSql.Template.Execution

/-!
# Renderings in one state

A rendering can keep all that it needs in one state: the markers, the loops with the
items they go through, and the bindings of what was rendered before. A part then gives
its text alone. A tag is rendered in rounds. A round is started, the body is rendered,
the round is ended, and the text in front of the tag is put there; the end of a round
says whether another one follows, which only that of an iteration does.
-/

namespace DynamicSql

namespace Loop

theorem size_advance (loop : Loop) : loop.advance.size = loop.size := by
  unfold advance
  split <;> rfl

theorem size_endPass (loop : Loop) (tag : Tag) (body : String) :
    (loop.endPass tag body).loop.size = loop.size := by
  unfold endPass
  dsimp only
  split <;> rfl

end Loop

/-- A loop with its items. -/
structure OpenLoop extends Loop where
  items : List Value
  sized : size = items.length
  /-- The text in front of the tag is still to be put in front of the present pass. -/
  lead : Bool := false

namespace OpenLoop

/-- A loop in front of its first pass. -/
def start (tag : Nat) (property : String) (items : List Value) : OpenLoop :=
  { tag, size := items.length, property, items, sized := rfl }

/-- A loop that has gone on through the same items. -/
def goOn (loop : OpenLoop) (next : Loop) (same : next.size = loop.size) : OpenLoop :=
  { loop with toLoop := next, sized := same.trans loop.sized }

/-- Notes whether the text in front of the tag is still to be put. -/
def withLead (loop : OpenLoop) (lead : Bool) : OpenLoop := { loop with lead }

/-- Reaches the item of the present pass, once. -/
def advance (loop : OpenLoop) : OpenLoop :=
  loop.goOn loop.toLoop.advance loop.size_advance

/-- Ends a pass with the text of its body. The first pass with content is to get the
    text in front of the tag. -/
def endPass (loop : OpenLoop) (tag : Tag) (body : String) : String × OpenLoop :=
  let pass := loop.toLoop.endPass tag body
  let next := loop.goOn pass.loop (loop.size_endPass tag body)
  (pass.text, next.withLead (loop.lead || pass.isFirst))

end OpenLoop

/-- The state of a rendering. The innermost marker and the innermost loop come first. -/
structure Progress where
  markers : List Marker := []
  loops : List OpenLoop := []
  /-- The bindings of what was rendered so far. -/
  bindings : List Binding := []

namespace Progress

/-- What the frames of a place tell of the state. -/
def frames (progress : Progress) : Frames :=
  { markers := progress.markers, loops := progress.loops.map OpenLoop.toLoop }

/-- Takes over the markers of some frames. -/
def withMarkers (progress : Progress) (frames : Frames) : Progress :=
  { progress with markers := frames.markers }

/-- Enters a tag, which may have no marker. -/
def enter (progress : Progress) (tag : Nat) (marker : Option Bool) : Progress :=
  progress.withMarkers (progress.frames.enter tag marker)

/-- Leaves a tag, which may have no marker. -/
def popMarker (progress : Progress) (tag : Nat) : Progress :=
  progress.withMarkers (progress.frames.popMarker tag)

/-- Arms the innermost marker again. -/
def rearm (progress : Progress) : Progress :=
  progress.withMarkers progress.frames.rearm

/-- The innermost loop if it is that of the tag. -/
def loopOf (progress : Progress) (tag : Nat) : Option OpenLoop :=
  progress.loops.head?.filter (·.tag == tag)

/-- Enters a loop. -/
def pushLoop (progress : Progress) (loop : OpenLoop) : Progress :=
  { progress with loops := loop :: progress.loops }

/-- Puts a loop in the place of the innermost one. -/
def setLoop (progress : Progress) (loop : OpenLoop) : Progress :=
  { progress with loops := loop :: progress.loops.tail }

/-- Leaves the innermost loop if it is that of the tag. -/
def popLoop (progress : Progress) (tag : Nat) : Progress :=
  if (progress.loopOf tag).isSome then { progress with loops := progress.loops.tail }
  else progress

/-- Lets the innermost loop reach the item of its present pass. -/
def advance (progress : Progress) : Progress :=
  match progress.loops with
  | loop :: outer => { progress with loops := loop.advance :: outer }
  | [] => progress

/-- Puts bindings behind those of what was rendered before. -/
def add (progress : Progress) (bindings : List Binding) : Progress :=
  { progress with bindings := progress.bindings ++ bindings }

/-- The count of rounds that a tag has at most: one for each item of its loop. -/
def rounds (progress : Progress) (tag : Nat) : Nat :=
  match progress.loopOf tag with
  | some loop => loop.items.length
  | none => 1

end Progress

/-- A step of a rendering in one state. -/
abbrev Recording (α : Type) := StateT Progress (Except Error) α

namespace Recording

/-- The place that a property means, and the value there. -/
def look (occasion : Occasion) (property : String) : Recording (String × Option Value) := do
  modify Progress.advance
  let path := String.ofList ((← get).frames.qualify property.toList)
  let value ← occasion.param.get path
  return (path, value)

/-- The place and the value that a tag is about, which is the parameter if the tag
    names no property. -/
def subject (occasion : Occasion) (tag : Tag) : Recording (String × Option Value) :=
  match tag.property with
  | some property => look occasion property
  | none => return ("", some occasion.param)

/-- The array that an iteration goes through, with the path to it. -/
def collection (occasion : Occasion) (tag : Tag) : Recording (String × List Value) := do
  let (path, value) ← subject occasion tag
  let items ← occasion.itemsOf path value
  return (path, items)

/-- The operand of a comparison: a property that leads nowhere counts as null. -/
def operand (occasion : Occasion) (condition : Condition) (tag : Tag) : Recording Value := do
  if condition.isComparison then
    match tag.compareProperty, tag.compareValue with
    | some property, _ => return ((← look occasion property).2).getD .null
    | none, some value => return .string value
    | none, none => throw (.template .missingOperand condition.name)
  else return .null

/-- The condition of a tag holds. Its subject is looked up before its operand. -/
def decides (occasion : Occasion) (condition : Condition) (tag : Tag) : Recording Bool := do
  let (_, subject) ← subject occasion tag
  let operand ← operand occasion condition tag
  return condition.holds occasion.param subject operand

/-- Writes a fragment: the bindings are kept, and the text is given. -/
def write (fragment : Fragment) : Recording String := do
  modify (·.add fragment.bindings)
  return fragment.sql

end Recording

/-- Renders text in one state. -/
def TextPart.record (occasion : Occasion) (text : TextPart) : Recording String := do
  match text.ready with
  | some fragment => Recording.write fragment
  | none =>
    if Text.hasContent text.source then
      modify Progress.advance
      let qualified := (← get).frames.qualifyPlaceholders text.source
      Recording.write (← Fragment.parse occasion.cls occasion.converters qualified)
    else return text.source

namespace Tag

/-- Enters an iteration, or arms its marker again if it was entered before. -/
def startLoop (tag : Tag) (occasion : Occasion) (parent : Option Tag) (id : Nat) :
    Recording Unit := do
  if ((← get).loopOf id).isNone then
    modify (·.enter id (tag.marker? parent))
    let (property, items) ← Recording.collection occasion tag
    modify (·.pushLoop (.start id property items))
  else if tag.removeFirst = some .everyPass then
    modify Progress.rearm

/-- Starts a round of a tag; says whether the body is to be rendered. -/
def startRound (tag : Tag) (occasion : Occasion) (parent : Option Tag) (id : Nat) :
    Recording Bool :=
  match tag.handler with
  | .group => do
    modify (·.enter id (tag.marker? parent))
    return true
  | .conditional condition => do
    modify (·.enter id (tag.marker? parent))
    Recording.decides occasion condition tag
  | .iterate => do
    tag.startLoop occasion parent id
    return ((← get).loopOf id).any fun loop => loop.hasNext

/-- Ends a round of a tag with the text of its body; says whether another round follows. -/
def endRound (tag : Tag) (id : Nat) (body : String) (progress : Progress) :
    (String × Bool) × Progress :=
  if tag.handler = .iterate then
    match progress.loopOf id with
    | none => ((body, false), progress)
    | some loop =>
      if loop.hasNext || loop.exhausted then
        let (text, next) := loop.endPass tag body
        ((text, ! next.exhausted), progress.setLoop next)
      else ((body, false), progress)
  else
    let closed := if Text.hasContent body then body ++ tag.closing.getD "" else body
    ((closed, false), progress)

/-- Puts the text in front of a body with content, unless it is left out. -/
def prependIn (tag : Tag) (parent : Option Tag) (body : String) (progress : Progress) :
    String × Progress :=
  let (text, frames) := tag.prependTo parent body progress.frames
  (text, progress.withMarkers frames)

/-- Puts the text in front of what a round has given. The passes of an iteration get it
    once, and for all other tags the opening comes behind it. -/
def front (tag : Tag) (parent : Option Tag) (id : Nat) (body : String) (progress : Progress) :
    String × Progress :=
  if tag.handler = .iterate then
    match progress.loopOf id with
    | none => (body, progress)
    | some loop =>
      if loop.lead then tag.prependIn parent body (progress.setLoop (loop.withLead false))
      else (body, progress)
  else
    let opened := if Text.hasContent body then tag.opening.getD "" ++ body else body
    tag.prependIn parent opened progress

/-- Ends a round and puts the text in front; says whether another round follows. -/
def closeRound (tag : Tag) (parent : Option Tag) (id : Nat) (body : String)
    (progress : Progress) : (String × Bool) × Progress :=
  let ((text, again), ended) := tag.endRound id body progress
  let (text, after) := tag.front parent id text ended
  ((text, again), after)

/-- Renders the rounds of a tag whose first one was started, at most the given number
    of them. -/
def rounds (tag : Tag) (occasion : Occasion) (parent : Option Tag) (id : Nat)
    (body : Recording String) : Nat → Bool → Recording String
  | 0, _ => return ""
  | count + 1, started => do
    if ! started then return ""
    else
      let inner ← body
      let (text, again) ← modifyGet (tag.closeRound parent id inner)
      if again then
        let started ← tag.startRound occasion parent id
        return text ++ (← rounds tag occasion parent id body count started)
      else return text

/-- Renders a tag around its body in one state. -/
def record (tag : Tag) (occasion : Occasion) (parent : Option Tag) (id : Nat)
    (body : Recording String) : Recording String := do
  let started ← tag.startRound occasion parent id
  let text ← tag.rounds occasion parent id body ((← get).rounds id) started
  modify (·.popMarker id)
  modify (·.popLoop id)
  return text

end Tag

namespace Part

mutual

/-- Renders a part inside the given tag in one state. -/
def record (occasion : Occasion) (parent : Option Tag) : Part → Recording String
  | text _ content => content.record occasion
  | tag id t body => t.record occasion parent id (recordAll occasion (some t) body)

/-- Renders parts one after the other in one state. -/
def recordAll (occasion : Occasion) (parent : Option Tag) : List Part → Recording String
  | [] => return ""
  | part :: rest => do
    let first ← part.record occasion parent
    return first ++ (← recordAll occasion parent rest)

end

end Part

/-- The statement of a template for a parameter, rendered in one state. -/
def Template.record (template : Template) (converters : Converters) (param : Value) :
    Except Error Fragment := do
  let occasion : Occasion := { cls := template.cls, converters, param }
  let (text, progress) ← (Part.recordAll occasion none template.parts).run {}
  let sql ← substitute param template.cls text
  return { sql, bindings := progress.bindings }

end DynamicSql
