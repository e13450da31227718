import DynamicSql.Sql.Item
import DynamicSql.Sql.Lexeme
import DynamicSql.Text.Blank

/-!
# Finished statements

A statement as pagination sees it: without the blanks around it and without the
semicolons after it, with those keywords told apart that a page or a count
depends on.
-/

namespace DynamicSql.Sql

/-- A statement in tokens and in items. -/
structure Statement where
  tokens : List Token
  items : List Item

namespace Statement

/-- Reads a statement. -/
def parse (sql : String) : Except Error Statement := do
  let tokens := Token.trim (← tokenize sql Keyword.ofPaging)
  let items ← Item.group tokens
  return { tokens, items }

/-- The text of a statement. -/
def text (statement : Statement) : String :=
  Token.sourceOf statement.tokens

/-- The first keyword of a statement is SELECT. -/
def isQuery (statement : Statement) : Bool :=
  (Token.firstKeyword? statement.tokens).any (·.isKeyword .SELECT)

/-- A keyword occurs outside every parenthesis. -/
def hasOutside (keyword : Keyword) (statement : Statement) : Bool :=
  statement.items.any (·.isKeyword keyword)

/-- The statement that a count query wraps: without its last ordering outside
    every parenthesis, unless a parameter is bound after that. -/
def countBody (statement : Statement) : String :=
  match Item.last? .ORDER statement.items with
  | none => statement.text
  | some order =>
    if statement.tokens.any fun t => t.kind == .question && order.start < t.start then
      statement.text
    else
      Text.trimEnd (Token.sourceOf (statement.tokens.takeWhile (·.start < order.start)))

end Statement

end DynamicSql.Sql
