import DynamicSql.Proofs.Grouping.Grouped
import Mathlib.Data.List.TakeWhile

/-!
# Padding

Grouping takes the blanks next to the inner side of a parenthesis away, at every level,
and no other token. Which blanks these are is said on the tokens alone, by what stands in
front of each token and behind it.
-/

namespace DynamicSql.Sql

/-- A token with the tokens in front of it and those behind it. -/
structure Position where
  front : List Token
  token : Token
  back : List Token

namespace Position

/-- The last token of some that is no blank opens a parenthesis. -/
def endsOpening (front : List Token) : Bool :=
  (front.reverse.find? (! ·.isSpace)).any (·.kind == .leftParen)

/-- The first token of some that is no blank closes a parenthesis. -/
def beginsClosing (back : List Token) : Bool :=
  (back.find? (! ·.isSpace)).any (·.kind == .rightParen)

/-- The token is a blank of a run directly behind an opening parenthesis or directly in front
    of a closing one. -/
def isPadding (position : Position) : Bool :=
  position.token.isSpace && (endsOpening position.front || beginsClosing position.back)

end Position

namespace Token

/-- The positions of some tokens behind other ones. -/
def positionsFrom (front : List Token) : List Token → List Position
  | [] => []
  | t :: rest => ⟨front, t, rest⟩ :: positionsFrom (front ++ [t]) rest

/-- The positions of some tokens, in their order. -/
def positions (tokens : List Token) : List Position := positionsFrom [] tokens

/-- Some token that is no blank closes a parenthesis before any other one comes, or none comes and
    one closes behind all of them. -/
def closesNext (closed : Bool) (tokens : List Token) : Bool :=
  match tokens.find? (! ·.isSpace) with
  | some t => t.kind == .rightParen
  | none => closed

/-- The tokens without padding, given whether an opening parenthesis stands in front of them and
    whether a closing one stands behind them, apart from blanks. -/
def unpadded (opened closed : Bool) : List Token → List Token
  | [] => []
  | t :: rest =>
    if t.isSpace then
      if opened || closesNext closed rest then unpadded opened closed rest
      else t :: unpadded opened closed rest
    else t :: unpadded (t.kind == .leftParen) closed rest

theorem endsOpening_concat (front : List Token) (t : Token) :
    Position.endsOpening (front ++ [t]) =
      if t.isSpace then Position.endsOpening front else t.kind == .leftParen := by
  cases space : t.isSpace <;> simp [Position.endsOpening, space]

theorem closesNext_false (tokens : List Token) :
    closesNext false tokens = Position.beginsClosing tokens := by
  unfold closesNext Position.beginsClosing
  cases tokens.find? (! ·.isSpace) <;> rfl

/-- The tokens without those that are padding where they stand. -/
theorem filter_isPadding (front tokens : List Token) :
    ((positionsFrom front tokens).filter (! ·.isPadding)).map Position.token =
      unpadded (Position.endsOpening front) false tokens := by
  induction tokens generalizing front with
  | nil => rfl
  | cons t rest ih =>
    have later := ih (front ++ [t])
    rw [endsOpening_concat] at later
    rw [positionsFrom, unpadded, closesNext_false, List.filter_cons, Position.isPadding]
    cases space : t.isSpace with
    | false =>
      rw [space] at later
      simpa using later
    | true =>
      rw [space] at later
      cases padding : Position.endsOpening front || Position.beginsClosing rest <;>
        simpa using later

/-- A token that is no blank parts the padding in front of it from the one behind it. -/
theorem unpadded_append_cons {t : Token} (noSpace : t.isSpace = false) (opened closed : Bool)
    (front back : List Token) :
    unpadded opened closed (front ++ t :: back) =
      unpadded opened (t.kind == .rightParen) front ++
        t :: unpadded (t.kind == .leftParen) closed back := by
  induction front generalizing opened with
  | nil => simp [unpadded, noSpace]
  | cons first rest ih =>
    have next : closesNext closed (rest ++ t :: back) =
        closesNext (t.kind == .rightParen) rest := by
      unfold closesNext
      rw [List.find?_append, List.find?_cons_of_pos (by simp [noSpace])]
      cases rest.find? (! ·.isSpace) <;> rfl
    rw [List.cons_append, unpadded, unpadded, next, ih, ih]
    split
    · split <;> rfl
    · rfl

end Token

namespace Item

mutual

/-- The tokens of an item with all that are nested in it. -/
def tokens : Item → List Token
  | token t => [t]
  | clause items => tokensOf items

/-- The tokens of some items. -/
def tokensOf : List Item → List Token
  | [] => []
  | item :: rest => item.tokens ++ tokensOf rest

end

@[simp]
theorem tokensOf_append (items others : List Item) :
    tokensOf (items ++ others) = tokensOf items ++ tokensOf others := by
  induction items with
  | nil => rfl
  | cons item rest ih => simp [tokensOf, ih]

/-- The items without the blanks at their end if a parenthesis closes behind them. -/
def closedUp (closed : Bool) (items : List Item) : List Item :=
  if closed then (items.reverse.dropWhile isSpace).reverse else items

/-- The items without the blanks at their ends, at each end if there is a parenthesis. -/
def stripped (opened closed : Bool) (items : List Item) : List Item :=
  if opened then (closedUp closed items).dropWhile isSpace else closedUp closed items

theorem closedUp_cons (closed : Bool) (item : Item) (rest : List Item) :
    closedUp closed (item :: rest) =
      if closed && (item :: rest).all isSpace then [] else item :: closedUp closed rest := by
  cases closed with
  | false => rfl
  | true =>
    have blank : (rest.reverse.dropWhile isSpace).isEmpty = rest.all isSpace := by
      rw [← List.all_reverse, Bool.eq_iff_iff, List.isEmpty_iff, List.dropWhile_eq_nil_iff,
        List.all_eq_true]
    simp only [closedUp, if_true, List.reverse_cons, List.dropWhile_append, blank, Bool.true_and,
      List.all_cons]
    cases all : rest.all isSpace with
    | false => simp
    | true =>
      rw [all, List.isEmpty_iff] at blank
      cases space : item.isSpace <;> simp [space, blank]

theorem closedUp_of_blank {closed : Bool} {items : List Item}
    (blank : (closed && items.all isSpace) = true) : closedUp closed items = [] := by
  cases items with
  | nil => cases closed <;> rfl
  | cons item rest => rw [closedUp_cons, if_pos blank]

/-- An item that is no blank parts the blanks behind it from those in front of it. -/
theorem closedUp_append_cons {item : Item} (noSpace : item.isSpace = false) (closed : Bool)
    (front back : List Item) :
    closedUp closed (front ++ item :: back) = front ++ item :: closedUp closed back := by
  induction front with
  | nil => simp [closedUp_cons, noSpace]
  | cons first rest ih =>
    rw [List.cons_append, closedUp_cons, ih]
    simp [noSpace]

@[simp]
theorem isSpace_token (t : Token) : isSpace (.token t) = t.isSpace := rfl

theorem isSpace_of_paren {t : Token} (paren : t.kind = .leftParen ∨ t.kind = .rightParen) :
    t.isSpace = false := by
  rcases paren with kind | kind <;> simp [Token.isSpace, kind]

/-- The blanks behind a closing parenthesis are all that is taken from behind it. -/
theorem closedUp_parens {closing : Token} (closes : closing.kind = .rightParen) (closed : Bool)
    (opening : Token) (inner items : List Item) :
    closedUp closed (.token opening :: (enclosed inner ++ .token closing :: items)) =
      .token opening :: (enclosed inner ++ .token closing :: closedUp closed items) := by
  have noSpace : isSpace (.token closing) = false := isSpace_of_paren (.inr closes)
  exact closedUp_append_cons noSpace closed (.token opening :: enclosed inner) items

/-- In front of a group nothing closes, so only what stands behind it can close next. -/
theorem Grouped.closesNext {tokens : List Token} {items : List Item}
    (grouped : Grouped tokens items) (closed : Bool) :
    Token.closesNext closed tokens = (closed && items.all isSpace) := by
  induction grouped with
  | nil => simp [Token.closesNext]
  | @token t tokens items noOpening noClosing _ ih =>
    rw [List.all_cons, isSpace_token]
    cases space : t.isSpace with
    | false => simp [Token.closesNext, space, noClosing]
    | true => simpa [Token.closesNext, space] using ih
  | @parens opening closing inside tokens inner items opens =>
    have noSpace := isSpace_of_paren (.inl opens)
    rw [List.all_cons, isSpace_token]
    simp [Token.closesNext, noSpace, opens]

theorem tokensOf_enclosed (items : List Item) :
    tokensOf (enclosed items) = tokensOf (unpadded items) := by
  unfold enclosed
  split
  · next none => rw [List.isEmpty_iff.mp none]
  · simp [tokensOf, tokens]

/-- The tokens of the items are those that are no padding. -/
theorem Grouped.tokensOf_stripped {tokens : List Token} {items : List Item}
    (grouped : Grouped tokens items) (opened closed : Bool) :
    tokensOf (stripped opened closed items) = Token.unpadded opened closed tokens := by
  induction grouped generalizing opened closed with
  | nil => cases opened <;> cases closed <;> rfl
  | @token t tokens items noOpening _ rest ih =>
    have noLeft : (t.kind == .leftParen) = false := by simpa using noOpening
    rw [Token.unpadded, rest.closesNext, noLeft, ← ih opened closed, ← ih false closed, stripped,
      closedUp_cons, List.all_cons, isSpace_token]
    cases space : t.isSpace with
    | false => cases opened <;> simp [stripped, space, tokensOf, Item.tokens]
    | true =>
      cases blank : closed && items.all isSpace with
      | true => cases opened <;> simp [stripped, closedUp_of_blank blank, blank, tokensOf]
      | false => cases opened <;> simp [stripped, space, blank, tokensOf, Item.tokens]
  | @parens opening closing inside tokens inner items opens closes _ _ ihNested ihRest =>
    have noSpace := isSpace_of_paren (.inl opens)
    have noSpace' := isSpace_of_paren (.inr closes)
    have outer : stripped opened closed
        (.token opening :: (enclosed inner ++ .token closing :: items)) =
          .token opening :: (enclosed inner ++ .token closing :: closedUp closed items) := by
      rw [stripped, closedUp_parens closes]
      cases opened <;> simp [noSpace]
    have nested : tokensOf (unpadded inner) = Token.unpadded true true inside := ihNested true true
    have behind : tokensOf (closedUp closed items) = Token.unpadded false closed tokens :=
      ihRest false closed
    have apart : (TokenKind.rightParen == .leftParen) = false := rfl
    rw [outer, Token.unpadded, if_neg (by simp [noSpace]),
      Token.unpadded_append_cons noSpace', opens, closes, apart]
    simp [tokensOf, Item.tokens, tokensOf_enclosed, nested, behind]

/-- Grouping loses the padding and nothing else. -/
theorem Grouped.tokensOf_eq {tokens : List Token} {items : List Item}
    (grouped : Grouped tokens items) :
    tokensOf items =
      ((Token.positions tokens).filter (! ·.isPadding)).map Position.token := by
  rw [Token.positions, Token.filter_isPadding]
  exact grouped.tokensOf_stripped false false

end Item

end DynamicSql.Sql
