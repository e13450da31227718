import DynamicSql.Error
import DynamicSql.Sql.Token

/-!
# Grouping by parentheses

What stands between two parentheses becomes one clause between their tokens,
without the blanks at its ends; nothing between them gives no clause. The items
of a statement are therefore what stands outside every parenthesis, and a
search among them never meets the inside of a subquery.
-/

namespace DynamicSql.Sql

/-- A token outside every parenthesis, or all that one pair encloses. -/
inductive Item where
  | token (token : Token)
  | clause (items : List Item)

namespace Item

/-- The token that an item is. -/
def token? : Item → Option Token
  | token t => some t
  | clause _ => none

/-- The item is the given keyword. -/
def isKeyword (keyword : Keyword) (item : Item) : Bool :=
  match item with
  | token t => t.isKeyword keyword
  | clause _ => false

/-- The item is a token of the given kind. -/
def isKind (kind : TokenKind) (item : Item) : Bool :=
  match item with
  | token t => t.kind == kind
  | clause _ => false

/-- The item is a run of blanks. -/
def isSpace (item : Item) : Bool := item.isKind .space

mutual

/-- The text of an item with all that is nested in it. -/
def text : Item → String
  | token t => t.text
  | clause items => textOf items

/-- The text of some items. -/
def textOf : List Item → String
  | [] => ""
  | item :: rest => item.text ++ textOf rest

end

@[simp]
theorem textOf_append (items others : List Item) :
    textOf (items ++ others) = textOf items ++ textOf others := by
  induction items with
  | nil => simp [textOf]
  | cons item rest ih => simp [textOf, ih, String.append_assoc]

/-- A parenthesis that is open: the tokens from it on, and the items of its
    level up to and with it, the last one first. -/
structure Pending where
  opening : List Token
  before : List Item

/-- Puts the items between two parentheses, the last one first, as a clause
    after the items before them, which are the last first as well. -/
def enclose (inner before : List Item) : List Item :=
  let items := (inner.dropWhile isSpace).reverse.dropWhile isSpace
  if items.isEmpty then before else .clause items :: before

/-- The error of a parenthesis without a partner, given the tokens from it on. -/
def unbalanced (tokens : List Token) : Error :=
  .unbalanced ((tokens.head?.map Token.start).getD 0) (Token.textOf tokens)

/-- Groups tokens below some open parentheses, the innermost first, after the
    items of the present level so far, the last one first. -/
def groupFrom : List Pending → List Item → List Token → Except Error (List Item)
  | [], done, [] => .ok done.reverse
  | pending :: outer, _, [] => .error (unbalanced ((pending :: outer).getLast
      (List.cons_ne_nil pending outer)).opening)
  | stack, done, t :: rest =>
    match t.kind, stack with
    | .leftParen, stack => groupFrom (⟨t :: rest, .token t :: done⟩ :: stack) [] rest
    | .rightParen, [] => .error (unbalanced (t :: rest))
    | .rightParen, pending :: outer =>
      groupFrom outer (.token t :: enclose done pending.before) rest
    | _, stack => groupFrom stack (.token t :: done) rest

/-- The items of some tokens; unless every parenthesis has its partner, the
    first one that has none is the error. -/
def group (tokens : List Token) : Except Error (List Item) :=
  groupFrom [] [] tokens

/-- The position of the first occurrence of a keyword. -/
def indexOf? (keyword : Keyword) (items : List Item) : Option Nat :=
  items.findIdx? (·.isKeyword keyword)

/-- The last occurrence of a keyword. -/
def last? (keyword : Keyword) (items : List Item) : Option Token :=
  (items.reverse.find? (·.isKeyword keyword)).bind token?

/-- The position of the last occurrence of a keyword. -/
def lastIndexOf? (keyword : Keyword) (items : List Item) : Option Nat :=
  (items.reverse.findIdx? (·.isKeyword keyword)).map (items.length - 1 - ·)

/-- The first keyword among some items. -/
def leader? (items : List Item) : Option Keyword :=
  items.findSome? fun item => item.token?.bind Token.keyword?

end Item

end DynamicSql.Sql
