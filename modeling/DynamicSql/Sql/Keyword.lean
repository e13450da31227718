/-!
# Keywords

A word of a statement is a keyword only for a reader who asks for it: whoever
reads a statement names the keywords that matter, and every other word stays a
word.
-/

namespace DynamicSql.Sql

/-- The words that can matter to a reader of statements. -/
inductive Keyword where
  | SELECT
  | FROM
  | WHERE
  | JOIN
  | ON
  | GROUP
  | HAVING
  | BY
  | ORDER
  | LIMIT
  | OFFSET
  | TOP
  | FETCH
  | UPDATE
  | SET
  | DELETE
  | INSERT
  | INTO
  | VALUES
  | REPLACE
  | AND
  | OR
  | AS
  deriving DecidableEq, Repr

namespace Keyword

/-- The spelling of a keyword in capital letters. -/
def text : Keyword → String
  | SELECT => "SELECT"
  | FROM => "FROM"
  | WHERE => "WHERE"
  | JOIN => "JOIN"
  | ON => "ON"
  | GROUP => "GROUP"
  | HAVING => "HAVING"
  | BY => "BY"
  | ORDER => "ORDER"
  | LIMIT => "LIMIT"
  | OFFSET => "OFFSET"
  | TOP => "TOP"
  | FETCH => "FETCH"
  | UPDATE => "UPDATE"
  | SET => "SET"
  | DELETE => "DELETE"
  | INSERT => "INSERT"
  | INTO => "INTO"
  | VALUES => "VALUES"
  | REPLACE => "REPLACE"
  | AND => "AND"
  | OR => "OR"
  | AS => "AS"

/-- Every keyword. -/
def all : List Keyword :=
  [SELECT, FROM, WHERE, JOIN, ON, GROUP, HAVING, BY, ORDER, LIMIT, OFFSET, TOP, FETCH,
    UPDATE, SET, DELETE, INSERT, INTO, VALUES, REPLACE, AND, OR, AS]

/-- The keywords by which the tables of a statement are found. -/
def ofTables : List Keyword :=
  [SELECT, FROM, JOIN, ON, WHERE, GROUP, HAVING, ORDER, LIMIT, INSERT, REPLACE, INTO,
    VALUES, UPDATE, SET, DELETE]

/-- The keywords by which a query is paged or counted. The words that lead other
    statements are among them, so that a query inside one does not lead it. -/
def ofPaging : List Keyword :=
  [SELECT, INSERT, UPDATE, DELETE, REPLACE, SET, FROM, WHERE, GROUP, HAVING, ORDER, BY,
    LIMIT, OFFSET, TOP, FETCH]

/-- The keywords that end the list of tables after a FROM. -/
def afterTableList : List Keyword :=
  [WHERE, GROUP, HAVING, ORDER, LIMIT]

/-- A word spells a keyword in any mixture of cases. -/
def spelledBy (keyword : Keyword) (word : String) : Bool :=
  keyword.text == word.toUpper

/-- The first of some keywords that a word spells. -/
def classify (word : String) (keywords : List Keyword) : Option Keyword :=
  keywords.find? (·.spelledBy word)

/-- The keyword of a spelling in capital letters. -/
def ofText? (text : String) : Option Keyword :=
  all.find? (·.text == text)

end Keyword

end DynamicSql.Sql
