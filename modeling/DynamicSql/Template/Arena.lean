import DynamicSql.Template.Outline

/-!
# Writing a template call by call

A template is written by calls that add a text or open a tag; what is added while a
tag is open belongs to its body. The arena holds the entries in the order in which
they were added, each under the number of its place, and keeps the tags that are
open. A new entry is put into the body of the innermost open tag, or among the
outermost entries if no tag is open. The tags are checked and the texts are read
only when all has been written.
-/

namespace DynamicSql

namespace Entry

/-- The number of an entry. -/
def id : Entry → Nat
  | text id _ => id
  | tag id _ _ _ => id

/-- The numbers of the entries in the body; a text has none. -/
def children : Entry → List Nat
  | text _ _ => []
  | tag _ _ _ children => children

/-- The entry is an iteration. -/
def isIteration : Entry → Bool
  | text _ _ => false
  | tag _ t _ _ => t.handler == .iterate

/-- Puts numbers at the end of the body of a tag. -/
def addChildren (ids : List Nat) : Entry → Entry
  | tag id t parent children => tag id t parent (children ++ ids)
  | text id content => text id content

@[simp]
theorem isIteration_addChildren (ids : List Nat) (entry : Entry) :
    (entry.addChildren ids).isIteration = entry.isIteration := by
  cases entry <;> rfl

/-- Checks a tag, or reads a text that is not blank and has not to wait. -/
def prepare (cls : ParameterClass) (converters : Converters) : Entry → Except Error Entry
  | tag id t parent children => do
    t.validate
    return tag id t parent children
  | text id content =>
    if content.inIteration || ! Text.hasContent content.source then .ok (text id content)
    else do
      let fragment ← Fragment.parse cls converters content.source
      return text id { content with ready := some fragment }

end Entry

/-- A template in the course of being written. -/
structure Arena where
  entries : List Entry := []
  /-- The numbers of the outermost entries. -/
  roots : List Nat := []
  /-- The numbers of the open tags, the innermost one first. -/
  opened : List Nat := []
  deriving DecidableEq, Repr

namespace Arena

/-- The number of the next entry. -/
def next (arena : Arena) : Nat := arena.entries.length

/-- Puts numbers into the body of the innermost open tag, or among the outermost ones. -/
def register (arena : Arena) (ids : List Nat) : Arena :=
  match arena.opened with
  | [] => { arena with roots := arena.roots ++ ids }
  | parent :: _ =>
    { arena with entries := arena.entries.modify parent (Entry.addChildren ids) }

/-- Adds an entry under the next number. -/
def push (arena : Arena) (entry : Entry) : Arena :=
  { arena with entries := arena.entries ++ [entry] }.register [arena.next]

/-- Some open tag is an iteration. -/
def inIteration (arena : Arena) : Bool :=
  arena.opened.any fun id => arena.entries[id]?.any Entry.isIteration

/-- Adds a text. -/
def text (arena : Arena) (source : String) : Arena :=
  arena.push (.text arena.next { source, inIteration := arena.inIteration, ready := none })

/-- Adds a tag and opens it. -/
def enter (arena : Arena) (t : Tag) : Arena :=
  { arena.push (.tag arena.next t arena.opened.head? []) with
    opened := arena.next :: arena.opened }

/-- Closes the innermost open tag. -/
def leave (arena : Arena) : Arena :=
  { arena with opened := arena.opened.tail }

/-- Prepares all entries in their order; the first fault is the error. -/
def build (arena : Arena) (cls : ParameterClass) (converters : Converters) :
    Except Error (List Entry) :=
  arena.entries.mapM (Entry.prepare cls converters)

end Arena

namespace Node

mutual

/-- Writes a node. -/
def write : Node → Arena → Arena
  | text source, arena => arena.text source
  | tag t body, arena => (writeAll body (arena.enter t)).leave

/-- Writes nodes one after the other. -/
def writeAll : List Node → Arena → Arena
  | [], arena => arena
  | node :: rest, arena => writeAll rest (node.write arena)

end

end Node

/-- The arena that a template is written into. -/
def Draft.arena (draft : Draft) : Arena := Node.writeAll draft.nodes {}

end DynamicSql
