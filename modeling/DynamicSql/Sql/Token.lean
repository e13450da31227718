import DynamicSql.Sql.Keyword

/-!
# Tokens

A token is a stretch of a statement with its kind and its place. A run of
blanks counts as a single space wherever tokens are turned back into text; its
source is kept all the same.
-/

namespace DynamicSql.Sql

/-- What a token is. -/
inductive TokenKind where
  /-- A quoted text with its quotes. -/
  | literal
  | operator
  /-- A run of blanks. -/
  | space
  | dot
  | asterisk
  /-- The marker of a parameter. -/
  | question
  | comma
  | semicolon
  | leftParen
  | rightParen
  | word
  | keyword (keyword : Keyword)
  deriving DecidableEq, Repr

namespace TokenKind

/-- The keyword of a kind. -/
def keyword? : TokenKind → Option Keyword
  | keyword k => some k
  | _ => none

/-- Words and keywords alike. -/
def isWord : TokenKind → Bool
  | word => true
  | keyword _ => true
  | _ => false

/-- The kinds of the tokens that are one character by themselves. -/
def isPunctuation : TokenKind → Bool
  | dot => true
  | asterisk => true
  | question => true
  | comma => true
  | semicolon => true
  | leftParen => true
  | rightParen => true
  | _ => false

end TokenKind

/-- A stretch of a statement; `start` is the count of bytes before it. -/
structure Token where
  kind : TokenKind
  start : Nat
  source : String
  deriving DecidableEq, Repr

namespace Token

/-- The count of bytes up to the end of the token. -/
def stop (t : Token) : Nat := t.start + t.source.utf8ByteSize

/-- The text of a token, which for blanks is one space. -/
def text (t : Token) : String :=
  if t.kind = .space then " " else t.source

/-- The keyword that the token is. -/
def keyword? (t : Token) : Option Keyword := t.kind.keyword?

/-- The token is the given keyword. -/
def isKeyword (keyword : Keyword) (t : Token) : Bool :=
  t.kind == .keyword keyword

/-- The token is a run of blanks. -/
def isSpace (t : Token) : Bool := t.kind == .space

/-- The text of some tokens. -/
def textOf : List Token → String
  | [] => ""
  | t :: rest => t.text ++ textOf rest

/-- The stretch of the statement that adjacent tokens cover. -/
def sourceOf : List Token → String
  | [] => ""
  | t :: rest => t.source ++ sourceOf rest

@[simp]
theorem textOf_append (ts us : List Token) : textOf (ts ++ us) = textOf ts ++ textOf us := by
  induction ts with
  | nil => simp [textOf]
  | cons t rest ih => simp [textOf, ih, String.append_assoc]

@[simp]
theorem sourceOf_append (ts us : List Token) :
    sourceOf (ts ++ us) = sourceOf ts ++ sourceOf us := by
  induction ts with
  | nil => simp [sourceOf]
  | cons t rest ih => simp [sourceOf, ih, String.append_assoc]

/-- The tokens without the blanks in front of them and without the blanks and
    semicolons after them. -/
def trim (tokens : List Token) : List Token :=
  let closing (t : Token) : Bool := t.isSpace || t.kind == .semicolon
  ((tokens.dropWhile isSpace).reverse.dropWhile closing).reverse

/-- The first keyword among some tokens. -/
def firstKeyword? (tokens : List Token) : Option Token :=
  tokens.find? (·.keyword?.isSome)

/-- The position of the first token of a kind. -/
def indexOf? (kind : TokenKind) (tokens : List Token) : Option Nat :=
  tokens.findIdx? (·.kind == kind)

end Token

end DynamicSql.Sql
