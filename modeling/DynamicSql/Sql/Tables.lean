import DynamicSql.Sql.Item
import DynamicSql.Sql.Lexeme

/-!
# The tables of a statement

The tables that a statement reads or writes, so that what is known about them
can be forgotten when the statement has run. A query reads the names in its
lists of tables and whatever the queries nested anywhere in it read; a change
writes the table that it names and reads what its nested queries read. Any
other statement stands for itself as a whole.
-/

namespace DynamicSql.Sql

/-- An item with the tables that the queries nested in it read. -/
structure Reading where
  item : Item
  tables : List String

namespace Reading

/-- The item is the given keyword. -/
def isKeyword (keyword : Keyword) (reading : Reading) : Bool :=
  reading.item.isKeyword keyword

/-- What the queries nested in some items read. -/
def nested (readings : List Reading) : List String :=
  readings.flatMap tables

end Reading

/-- The words of a dotted name at the beginning of some items. -/
def nameWords : List Item → List String
  | [] => []
  | .clause _ :: _ => []
  | .token t :: rest =>
    if t.kind = .word then
      t.text :: match rest with
        | .token d :: more => if d.kind = .dot then nameWords more else []
        | _ => []
    else []

/-- The dotted name at the beginning of some items, blanks in front of it aside. -/
def leadingName? (items : List Item) : Option String :=
  match nameWords (items.dropWhile Item.isSpace) with
  | [] => none
  | words => some (".".intercalate words)

/-- The tables of one entry of a list of tables. -/
def entryTables (entry : List Reading) : List String :=
  (leadingName? (entry.map Reading.item)).toList ++ Reading.nested entry

/-- The entries of a list of tables are separated by commas and joins. -/
def separatesEntries (reading : Reading) : Bool :=
  reading.item.isKind .comma || reading.isKeyword .JOIN

/-- The reading is a keyword that ends a list of tables. -/
def endsTableList (reading : Reading) : Bool :=
  Keyword.afterTableList.any (reading.isKeyword ·)

/-- The tables of a query without a compound: those of the list after its first
    FROM, between those of the queries nested before and after the list. -/
def branchTables (readings : List Reading) : List String :=
  match readings.dropWhile (! ·.isKeyword .FROM) with
  | [] => Reading.nested readings
  | _ :: afterFrom =>
    let list := afterFrom.takeWhile (! endsTableList ·)
    Reading.nested (readings.takeWhile (! ·.isKeyword .FROM)) ++
      (list.splitOnP separatesEntries).flatMap entryTables ++
      Reading.nested (afterFrom.dropWhile (! endsTableList ·))

/-- The branches of a compound query; each begins with a SELECT, except that the
    first one may begin with anything. -/
def branches (readings : List Reading) : List (List Reading) :=
  readings.splitBy fun _ next => ! next.isKeyword .SELECT

/-- The tables of a query, branch by branch. -/
def queryTables (readings : List Reading) : List String :=
  (branches readings).flatMap branchTables

mutual

/-- The tables that the queries nested in an item read. -/
def Item.tables : Item → List String
  | .token _ => []
  | .clause items =>
    if Item.leader? items = some .SELECT then queryTables (Item.readings items)
    else Reading.nested (Item.readings items)

/-- Items with the tables that the queries nested in them read. -/
def Item.readings : List Item → List Reading
  | [] => []
  | item :: rest => ⟨item, item.tables⟩ :: Item.readings rest

end

theorem Item.readings_eq_map (items : List Item) :
    Item.readings items = items.map fun item => ⟨item, item.tables⟩ := by
  induction items with
  | nil => rfl
  | cons item rest ih => simp [Item.readings, ih]

/-- The name that begins after the first occurrence of one keyword and before
    the first occurrence of another. -/
def nameBetween (first second : Keyword) (items : List Item) : List String :=
  match Item.indexOf? first items with
  | none => []
  | some begin =>
    let stop := (Item.indexOf? second items).getD items.length
    (leadingName? ((items.drop (begin + 1)).take (stop - (begin + 1)))).toList

/-- The name that begins after the first occurrence of a keyword. -/
def nameAfter (keyword : Keyword) (items : List Item) : List String :=
  match Item.indexOf? keyword items with
  | none => []
  | some begin => (leadingName? (items.drop (begin + 1))).toList

/-- The tables that a statement with the given first keyword touches, in the
    order in which they are met and with repetitions. -/
def tablesOf (leader : Option Keyword) (tokens : List Token) (items : List Item) :
    List String :=
  let readings := Item.readings items
  let insertion :=
    nameAfter .INTO items ++
      match readings.dropWhile (! ·.isKeyword .SELECT) with
      | [] => Reading.nested readings
      | query => queryTables query
  match leader with
  | some .SELECT => queryTables readings
  | some .INSERT => insertion
  | some .REPLACE => insertion
  | some .UPDATE => nameBetween .UPDATE .SET items ++ Reading.nested readings
  | some .DELETE => nameBetween .FROM .WHERE items ++ Reading.nested readings
  | _ => [Token.textOf tokens]

/-- The tables of a statement that was cut into tokens, each one once. -/
def tables (tokens : List Token) : Except Error (List String) := do
  let tokens := Token.trim tokens
  let items ← Item.group tokens
  let leader := (Token.firstKeyword? tokens).bind Token.keyword?
  return (tablesOf leader tokens items).eraseDups

/-- The tables of a statement, each one once. -/
def tablesOfText (sql : String) : Except Error (List String) := do
  tables (← tokenize sql Keyword.ofTables)

end DynamicSql.Sql
