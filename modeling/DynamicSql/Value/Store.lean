import DynamicSql.Value.Path

/-!
# The store of parsed paths

The paths of a template are read again for every parameter. A store remembers
how texts were read, so that a text is parsed when it is read first. How many
paths it keeps, and which ones it gives up, is a matter of the settings and of
time; what it still knows is found by the text.
-/

namespace DynamicSql

/-- Texts that were read before, with the paths that they spell. -/
structure PathStore where
  known : List (String × Path) := []
  deriving DecidableEq, Repr

namespace PathStore

/-- The path of a text, and the store afterwards. A text that is not known is
    parsed, and remembered if it spells a path. -/
def parse (store : PathStore) (source : String) : Except Error (Path × PathStore) :=
  match store.known.lookup source with
  | some path => .ok (path, store)
  | none => do
    let path ← Path.parse source
    return (path, { known := (source, path) :: store.known })

/-- The part of a value that the text of a path leads to, and the store
    afterwards. -/
def get (store : PathStore) (value : Value) (source : String) :
    Except Error (Option Value × PathStore) := do
  let (path, later) ← store.parse source
  return (value.at? path, later)

end PathStore

end DynamicSql
