import DynamicSql.Error
import DynamicSql.Text.Blank
import DynamicSql.Text.Numeral
import DynamicSql.Value.Basic

/-!
# Property paths

A path such as `order.lines[0].sku` leads from a value to one of its parts. Its
text is first cut into pieces, which are then read as steps from left to right;
the first piece that may not stand where it does is the fault. The empty path
leads to the value itself.
-/

namespace DynamicSql

/-- One step of a path: to a field of an object or to an item of an array. -/
inductive Step where
  | field (name : String)
  | index (position : Nat)
  deriving DecidableEq, Repr

/-- The steps of a path, the first one first. -/
abbrev Path := List Step

namespace Path

/-- A piece of the text of a path. -/
inductive Piece where
  | dot
  | bracketed (content : List Char)
  | unclosed
  | name (content : List Char)
  deriving DecidableEq, Repr

/-- Adds a character in front of the name that begins the pieces. -/
def extendName (c : Char) : List Piece → List Piece
  | .name content :: rest => .name (c :: content) :: rest
  | rest => .name [c] :: rest

/-- Cuts a text into pieces. The first argument holds what was read since an
    opening bracket, the last character first. -/
def pieces : Option (List Char) → List Char → List Piece
  | none, [] => []
  | some _, [] => [.unclosed]
  | none, c :: rest =>
    if c = '[' then pieces (some []) rest
    else if c = '.' then .dot :: pieces none rest
    else extendName c (pieces none rest)
  | some content, c :: rest =>
    if c = ']' then .bracketed content.reverse :: pieces none rest
    else pieces (some (c :: content)) rest

/-- Reads pieces as steps. A name may stand at the beginning and after a dot,
    which is what the first argument says; a bracket may stand anywhere. -/
def ofPieces : Bool → List Piece → Except PathFault Path
  | _, [] => .ok []
  | nameExpected, .dot :: rest =>
    if nameExpected ∨ rest = [] then .error .emptySegment else ofPieces true rest
  | _, .unclosed :: _ => .error .unclosedIndex
  | _, .bracketed content :: rest => do
    match Text.numeral? UInt64.size (Text.trimChars content) with
    | none => .error .invalidIndex
    | some position => return .index position :: (← ofPieces false rest)
  | nameExpected, .name content :: rest =>
    if ! nameExpected then .error .missingSeparator
    else do
      let name := Text.trimChars content
      if name = [] ∨ ']' ∈ name then .error .malformedSegment
      else return .field (String.ofList name) :: (← ofPieces false rest)

/-- The path that a text spells; blanks around it do not count. -/
def parse (source : String) : Except Error Path :=
  match ofPieces true (pieces none (Text.trimChars source.toList)) with
  | .ok path => .ok path
  | .error fault => .error (.template (.path fault) source)

end Path

namespace Value

/-- The part of a value that one step leads to. -/
def step? : Value → Step → Option Value
  | object fields, .field name => fields.lookup name
  | array items, .index position => items[position]?
  | _, _ => none

/-- The part of a value that a path leads to. -/
def at? (value : Value) (path : Path) : Option Value :=
  path.foldlM step? value

@[simp]
theorem at?_nil (value : Value) : value.at? [] = some value := rfl

theorem at?_append (value : Value) (path rest : Path) :
    value.at? (path ++ rest) = (value.at? path).bind (·.at? rest) := by
  simp [at?, List.foldlM_append]

/-- The part of a value that the text of a path leads to. -/
def get (value : Value) (path : String) : Except Error (Option Value) := do
  return value.at? (← Path.parse path)

end Value

end DynamicSql
