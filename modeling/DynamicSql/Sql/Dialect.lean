import DynamicSql.Sql.Statement

/-!
# Paging and counting

A dialect knows how some database products write a page of a query. It rewrites
queries that have no clause of their own for that; any other statement it
leaves to another dialect.
-/

namespace DynamicSql.Sql

/-- A database product from a version on. -/
structure Product where
  name : String
  major : Nat
  minor : Nat
  deriving DecidableEq, Repr

namespace Product

/-- Some text contains another one, character by character. -/
def occursIn (part : List Char) : List Char → Bool
  | [] => part.isEmpty
  | c :: rest => part.isPrefixOf (c :: rest) || occursIn part rest

/-- The name of the product occurs in a name, in any case, and the version is at
    least that of the product. -/
def covers (product : Product) (name : String) (major minor : Nat) : Bool :=
  occursIn product.name.toLower.toList name.toLower.toList &&
    (product.major < major || (major == product.major && product.minor ≤ minor))

end Product

/-- The ways to write a page of a query. -/
inductive Dialect where
  /-- A limit, and an offset unless it is zero. -/
  | limitOffset
  /-- An offset and a count of rows to fetch, which need an ordering. -/
  | sqlServer
  /-- An offset and a count of rows to fetch. -/
  | offsetFetch
  deriving DecidableEq, Repr

namespace Dialect

/-- Every dialect, in the order in which they are tried. -/
def all : List Dialect := [limitOffset, sqlServer, offsetFetch]

/-- The name of a dialect. -/
def name : Dialect → String
  | limitOffset => "limit-offset"
  | sqlServer => "sql-server"
  | offsetFetch => "offset-fetch"

/-- The products that understand a dialect. -/
def products : Dialect → List Product
  | limitOffset =>
    [⟨"MySQL", 0, 0⟩, ⟨"MariaDB", 0, 0⟩, ⟨"PostgreSQL", 8, 4⟩, ⟨"SQLite", 0, 0⟩,
      ⟨"H2", 0, 0⟩, ⟨"HSQL Database Engine", 2, 0⟩]
  | sqlServer => [⟨"SQL Server", 11, 0⟩]
  | offsetFetch => [⟨"Oracle", 12, 0⟩, ⟨"DB2", 11, 1⟩, ⟨"Derby", 10, 5⟩]

/-- The keywords that outside every parenthesis say that a query limits itself. -/
def competing : Dialect → List Keyword
  | limitOffset => [.LIMIT, .OFFSET, .FETCH]
  | sqlServer => [.OFFSET, .FETCH, .LIMIT, .TOP]
  | offsetFetch => [.OFFSET, .FETCH, .LIMIT, .TOP]

/-- A product of the given name and version understands the dialect. -/
def handles (dialect : Dialect) (product : String) (major minor : Nat) : Bool :=
  dialect.products.any (·.covers product major minor)

/-- The first dialect that a product understands. -/
def find? (product : String) (major minor : Nat) : Option Dialect :=
  all.find? (·.handles product major minor)

/-- A query that does not limit itself. -/
def accepts (dialect : Dialect) (statement : Statement) : Bool :=
  statement.isQuery && ! dialect.competing.any (statement.hasOutside ·)

/-- The rows after the first `skip`, at most `max` of them. -/
def rowsClause (skip max : Nat) : String :=
  " OFFSET " ++ toString skip ++ " ROWS FETCH NEXT " ++ toString max ++ " ROWS ONLY"

/-- What is appended to a query to get the page of at most `max` rows after the
    first `skip`. -/
def pageClause (dialect : Dialect) (statement : Statement) (skip max : Nat) : String :=
  match dialect with
  | limitOffset =>
    " LIMIT " ++ toString max ++ if 0 < skip then " OFFSET " ++ toString skip else ""
  | sqlServer =>
    (if statement.hasOutside .ORDER then "" else " ORDER BY (SELECT NULL)") ++
      rowsClause skip max
  | offsetFetch => rowsClause skip max

/-- A statement for one page of a query. -/
def page? (dialect : Dialect) (statement : Statement) (skip max : Nat) : Option String :=
  if dialect.accepts statement then
    some (statement.text ++ dialect.pageClause statement skip max)
  else none

/-- The name under which a count query wraps a statement. -/
def countAlias : String := "_jbatis_tmp_cnt_"

/-- A statement for the count of the rows of a query. -/
def count? (dialect : Dialect) (statement : Statement) : Option String :=
  if dialect.accepts statement then
    some ("select count(1) from (" ++ statement.countBody ++ ") " ++ countAlias)
  else none

/-- The page of a query given as text. -/
def pageOfText (dialect : Dialect) (sql : String) (skip max : Nat) :
    Except Error (Option String) := do
  return dialect.page? (← Statement.parse sql) skip max

/-- The count of a query given as text. -/
def countOfText (dialect : Dialect) (sql : String) : Except Error (Option String) := do
  return dialect.count? (← Statement.parse sql)

end Dialect

end DynamicSql.Sql
