import DynamicSql.Proofs.Grouping.Depth
import DynamicSql.Proofs.Grouping.Padding

/-!
# What grouping keeps

Grouping loses no token but padding, and it puts each token at its level: what stands
between two parentheses is one clause between them, and the tokens outside every
parenthesis are those in front of which as many parentheses close as open. So the first
and the last occurrence of a keyword among the items are the first and the last one
outside every parenthesis of the tokens.
-/

namespace DynamicSql.Sql

namespace Position

/-- The token is no parenthesis, and in front of it as many parentheses close as open. -/
def isOutside (position : Position) : Bool :=
  position.token.kind != .leftParen && position.token.kind != .rightParen &&
    (position.front.map Token.kind).count .leftParen ==
      (position.front.map Token.kind).count .rightParen

/-- The token is a keyword outside every parenthesis. -/
def isKeyword (keyword : Keyword) (position : Position) : Bool :=
  position.isOutside && position.token.isKeyword keyword

/-- The position when more tokens stand behind. -/
def followedBy (more : List Token) (position : Position) : Position :=
  { position with back := position.back ++ more }

end Position

namespace Item

/-- Items in which parentheses and clauses alternate as they must, at every level: behind an
    opening parenthesis stands its partner, or one clause and then its partner, and clauses
    stand nowhere else; and a clause holds something, which has no blank at its ends. -/
inductive Arranged : List Item → Prop
  | nil : Arranged []
  | token {t : Token} {rest : List Item} (noOpening : t.kind ≠ .leftParen)
      (noClosing : t.kind ≠ .rightParen) (others : Arranged rest) :
      Arranged (.token t :: rest)
  | empty {opening closing : Token} {rest : List Item} (opens : opening.kind = .leftParen)
      (closes : closing.kind = .rightParen) (others : Arranged rest) :
      Arranged (.token opening :: .token closing :: rest)
  | filled {opening closing : Token} {inner rest : List Item} (opens : opening.kind = .leftParen)
      (closes : closing.kind = .rightParen) (nonempty : inner ≠ [])
      (begins : ∀ item ∈ inner.head?, item.isSpace = false)
      (ends : ∀ item ∈ inner.getLast?, item.isSpace = false)
      (nested : Arranged inner) (others : Arranged rest) :
      Arranged (.token opening :: .clause inner :: .token closing :: rest)

/-- A token among some items is the one at a position, with the items in front of it and behind it
    from the tokens in front of it and behind it. -/
structure At (items : List Item) (position : Position) (index : Nat) : Prop where
  here : items[index]? = some (.token position.token)
  front : group position.front = .ok (items.take index)
  back : group position.back = .ok (items.drop (index + 1))

theorem isSpace_of_mem_head?_unpadded {items : List Item} {item : Item}
    (first : item ∈ (unpadded items).head?) : item.isSpace = false := by
  have stopped := List.head?_dropWhile_not isSpace (items.reverse.dropWhile isSpace).reverse
  rw [unpadded] at first
  rw [first] at stopped
  exact stopped

theorem isSpace_of_mem_getLast?_unpadded {items : List Item} {item : Item}
    (last : item ∈ (unpadded items).getLast?) : item.isSpace = false := by
  have stopped := List.head?_dropWhile_not isSpace items.reverse
  obtain ⟨front, split⟩ := List.dropWhile_suffix (l := (items.reverse.dropWhile isSpace).reverse)
    isSpace
  obtain ⟨rest, same⟩ := List.getLast?_eq_some_iff.mp last
  rw [unpadded] at same
  rw [same, ← List.append_assoc] at split
  have head : (items.reverse.dropWhile isSpace).head? = some item := by
    rw [← List.getLast?_reverse, ← split, List.getLast?_concat]
  rw [head] at stopped
  exact stopped

theorem Arranged.dropWhile {items : List Item} (arranged : Arranged items) :
    Arranged (items.dropWhile isSpace) := by
  induction arranged with
  | nil => exact .nil
  | token noOpening noClosing others ih =>
    rw [List.dropWhile_cons]
    split
    · exact ih
    · exact .token noOpening noClosing others
  | empty opens closes others =>
    have noSpace : isSpace (.token _) = false := isSpace_of_paren (.inl opens)
    rw [List.dropWhile_cons_of_neg (by simp [noSpace])]
    exact .empty opens closes others
  | filled opens closes nonempty begins ends nested others =>
    have noSpace : isSpace (.token _) = false := isSpace_of_paren (.inl opens)
    rw [List.dropWhile_cons_of_neg (by simp [noSpace])]
    exact .filled opens closes nonempty begins ends nested others

theorem Grouped.arranged_closedUp {tokens : List Token} {items : List Item}
    (grouped : Grouped tokens items) (closed : Bool) : Arranged (closedUp closed items) := by
  induction grouped generalizing closed with
  | nil => cases closed <;> exact .nil
  | token noOpening noClosing _ ih =>
    rw [closedUp_cons]
    split
    · exact .nil
    · exact .token noOpening noClosing (ih closed)
  | @parens opening closing inside tokens inner items opens closes _ _ ihNested ihRest =>
    rw [closedUp_parens closes, enclosed]
    split
    · exact .empty opens closes (ihRest closed)
    · next some =>
      exact .filled opens closes (by simpa using some)
        (fun item first => isSpace_of_mem_head?_unpadded first)
        (fun item last => isSpace_of_mem_getLast?_unpadded last) (ihNested true).dropWhile
        (ihRest closed)

end Item

namespace Token

theorem positionsFrom_append (front tokens more : List Token) :
    positionsFrom front (tokens ++ more) =
      (positionsFrom front tokens).map (Position.followedBy more) ++
        positionsFrom (front ++ tokens) more := by
  induction tokens generalizing front with
  | nil => simp [positionsFrom]
  | cons t rest ih =>
    rw [List.cons_append, positionsFrom, ih, List.append_assoc]
    rfl

/-- Outside every parenthesis as many parentheses close as open in front of a token. -/
theorem filter_isOutside {front tokens : List Token} {depth last : Nat}
    (counts : (front.map kind).count .leftParen = (front.map kind).count .rightParen + depth)
    (reached : TokenKind.depthAfter depth (tokens.map kind) = some last) :
    ((positionsFrom front tokens).filter Position.isOutside).map Position.token =
      outsideFrom depth tokens := by
  induction tokens generalizing front depth with
  | nil => rfl
  | cons t rest ih =>
    rw [List.map_cons] at reached
    rw [positionsFrom, List.filter_cons, Position.isOutside]
    by_cases opens : t.kind = .leftParen
    · rw [opens, TokenKind.depthAfter_opening] at reached
      have deeper : ((front ++ [t]).map kind).count .leftParen =
          ((front ++ [t]).map kind).count .rightParen + (depth + 1) := by
        simp [opens, counts, Nat.add_assoc]
      rw [outsideFrom_opening _ _ opens, ← ih deeper reached]
      simp [opens]
    · by_cases closes : t.kind = .rightParen
      · cases depth with
        | zero =>
          rw [closes, TokenKind.depthAfter_unopened] at reached
          cases reached
        | succ depth =>
          rw [closes, TokenKind.depthAfter_closing] at reached
          have higher : ((front ++ [t]).map kind).count .leftParen =
              ((front ++ [t]).map kind).count .rightParen + depth := by
            simp only [List.map_append, List.count_append, counts]
            simp [closes]
            omega
          rw [outsideFrom_closing _ _ closes, Nat.add_sub_cancel, ← ih higher reached]
          simp [closes]
      · rw [TokenKind.depthAfter_other opens closes] at reached
        have level : ((front ++ [t]).map kind).count .leftParen =
            ((front ++ [t]).map kind).count .rightParen + depth := by
          simp [counts, opens, closes]
        rw [outsideFrom_other _ _ opens closes, ← ih level reached]
        by_cases outside : depth = 0 <;> simp [opens, closes, counts, outside]

theorem positions_split (before : List Token) (t : Token) (after : List Token) :
    positions (before ++ t :: after) =
      (positions before).map (Position.followedBy (t :: after)) ++
        ⟨before, t, after⟩ :: positionsFrom (before ++ [t]) after := by
  rw [positions, positionsFrom_append, List.nil_append, positionsFrom]
  rfl

end Token

/-- The first place at which a list has what is searched divides it. -/
theorem exists_split_of_findIdx? {α : Type} {p : α → Bool} {xs : List α} {index : Nat}
    (found : xs.findIdx? p = some index) :
    ∃ front x back, xs = front ++ x :: back ∧ front.length = index ∧ p x = true ∧
      front.any p = false := by
  obtain ⟨inside, holds, earlier⟩ := List.findIdx?_eq_some_iff_getElem.mp found
  refine ⟨xs.take index, xs[index], xs.drop (index + 1), ?_, ?_, holds, ?_⟩
  · rw [List.getElem_cons_drop, List.take_append_drop]
  · rw [List.length_take, Nat.min_eq_left (Nat.le_of_lt inside)]
  · rw [List.any_eq_false]
    intro x member
    obtain ⟨i, below, rfl⟩ := List.mem_take_iff_getElem.mp member
    exact earlier i (by omega)

namespace Item

section Search

variable {tokens : List Token} {items : List Item} {keyword : Keyword}

/-- A keyword that is no item is at no position outside every parenthesis. -/
theorem Grouped.not_isKeyword (grouped : Grouped tokens items) (front : List Token)
    (counts : (front.map Token.kind).count .leftParen = (front.map Token.kind).count .rightParen)
    (none : items.any (isKeyword keyword) = false) :
    ∀ position ∈ Token.positionsFrom front tokens, ¬ position.isKeyword keyword = true := by
  intro position member isKeyword
  rw [Position.isKeyword, Bool.and_eq_true] at isKeyword
  have outside : position.token ∈ Token.outside tokens := by
    rw [Token.outside, ← Token.filter_isOutside counts (grouped.depthAfter 0)]
    exact List.mem_map_of_mem (List.mem_filter.mpr ⟨member, isKeyword.1⟩)
  rw [grouped.any_isKeyword, List.any_eq_false] at none
  exact none _ outside isKeyword.2

/-- A keyword among the items stands at a position with a group on each side. -/
theorem Grouped.exists_at (grouped : Grouped tokens items) {front back : List Item} {item : Item}
    (split : items = front ++ item :: back) (isKeyword : item.isKeyword keyword = true) :
    ∃ position, tokens = position.front ++ position.token :: position.back ∧
      Grouped position.front front ∧ Grouped position.back back ∧
      position.isKeyword keyword = true ∧ At items position front.length := by
  cases item with
  | clause inner => cases isKeyword
  | token t =>
    have kind : t.kind = .keyword keyword := by
      simpa [Item.isKeyword, Token.isKeyword] using isKeyword
    obtain ⟨before, after, same, left, right⟩ := grouped.divide split (by simp [kind])
      (by simp [kind])
    have balanced := (TokenKind.balanced_iff_depthAfter.mpr (left.depthAfter 0)).2
    refine ⟨⟨before, t, after⟩, same, left, right, ?_, ?_, ?_, ?_⟩
    · simp [Position.isKeyword, Position.isOutside, Token.isKeyword, kind, balanced]
    · rw [split, List.getElem?_append_right (Nat.le_refl _), Nat.sub_self]
      rfl
    · rw [split, List.take_left]
      exact group_eq_ok_iff.mpr left
    · rw [split, ← List.drop_drop, List.drop_left]
      exact group_eq_ok_iff.mpr right

/-- The first item that is a keyword is the first one outside every parenthesis. -/
theorem Grouped.indexOf?_rel (grouped : Grouped tokens items) (keyword : Keyword) :
    Option.Rel (At items) ((Token.positions tokens).find? (Position.isKeyword keyword))
      (indexOf? keyword items) := by
  cases found : indexOf? keyword items with
  | none =>
    have missing : items.any (isKeyword keyword) = false :=
      List.any_eq_false.mpr (by simpa using List.findIdx?_eq_none_iff.mp found)
    have nowhere : (Token.positions tokens).find? (Position.isKeyword keyword) = none :=
      List.find?_eq_none.mpr (grouped.not_isKeyword [] rfl missing)
    rw [nowhere]
    exact .none
  | some index =>
    obtain ⟨front, item, back, split, rfl, isKeyword, earlier⟩ := exists_split_of_findIdx? found
    obtain ⟨position, same, left, -, here, standing⟩ := grouped.exists_at split isKeyword
    have missing : ((Token.positions position.front).map
        (Position.followedBy (position.token :: position.back))).find?
          (Position.isKeyword keyword) = none := by
      rw [List.find?_map, Option.map_eq_none_iff]
      exact List.find?_eq_none.mpr (left.not_isKeyword [] rfl earlier)
    rw [same, Token.positions_split, List.find?_append, missing, Option.none_or,
      List.find?_cons_of_pos here]
    exact .some standing

/-- The last item that is a keyword is the last one outside every parenthesis. -/
theorem Grouped.lastIndexOf?_rel (grouped : Grouped tokens items) (keyword : Keyword) :
    Option.Rel (At items) ((Token.positions tokens).reverse.find? (Position.isKeyword keyword))
      (lastIndexOf? keyword items) := by
  unfold lastIndexOf?
  cases found : items.reverse.findIdx? (·.isKeyword keyword) with
  | none =>
    have missing : items.any (isKeyword keyword) = false :=
      List.any_eq_false.mpr (by simpa using List.findIdx?_eq_none_iff.mp found)
    have nowhere : (Token.positions tokens).reverse.find? (Position.isKeyword keyword) = none :=
      List.find?_eq_none.mpr fun position member =>
        grouped.not_isKeyword [] rfl missing position (List.mem_reverse.mp member)
    rw [nowhere]
    exact .none
  | some index =>
    obtain ⟨behind, item, before, reversed, rfl, isKeyword, later⟩ :=
      exists_split_of_findIdx? found
    have split : items = before.reverse ++ item :: behind.reverse := by
      rw [← List.reverse_reverse items, reversed]
      simp
    have size : items.length - 1 - behind.length = before.reverse.length := by
      simp [split]
    obtain ⟨position, same, left, right, here, standing⟩ := grouped.exists_at split isKeyword
    have balanced := (TokenKind.balanced_iff_depthAfter.mpr (left.depthAfter 0)).2
    have kind : position.token.kind = .keyword keyword := by
      rw [Position.isKeyword, Bool.and_eq_true] at here
      simpa [Token.isKeyword] using here.2
    have counts : ((position.front ++ [position.token]).map Token.kind).count .leftParen =
        ((position.front ++ [position.token]).map Token.kind).count .rightParen := by
      simp [kind, balanced]
    have missing : (Token.positionsFrom (position.front ++ [position.token])
        position.back).reverse.find? (Position.isKeyword keyword) = none := by
      refine List.find?_eq_none.mpr fun other member => ?_
      exact right.not_isKeyword _ counts (by simpa using later) other (List.mem_reverse.mp member)
    rw [Option.map_some, size, same, Token.positions_split, List.reverse_append,
      List.reverse_cons, List.append_assoc, List.find?_append, missing, Option.none_or,
      List.singleton_append, List.find?_cons_of_pos here]
    exact .some standing

end Search

/-- What grouping keeps. The tokens of the items, nested ones and all, are the tokens without the
    padding of parentheses, parentheses and clauses are arranged as they must at every level, and
    the items that are tokens are the tokens outside every parenthesis. So the first and the last
    item that is a keyword are the first and the last one that stands there. -/
theorem group_keeps {tokens : List Token} {items : List Item} (read : group tokens = .ok items) :
    tokensOf items = ((Token.positions tokens).filter (! ·.isPadding)).map Position.token ∧
    Arranged items ∧
    items.filterMap plain? =
      ((Token.positions tokens).filter (·.isOutside)).map Position.token ∧
    ∀ keyword,
      Option.Rel (At items) ((Token.positions tokens).find? (·.isKeyword keyword))
        (indexOf? keyword items) ∧
      Option.Rel (At items) ((Token.positions tokens).reverse.find? (·.isKeyword keyword))
        (lastIndexOf? keyword items) := by
  have grouped := group_eq_ok_iff.mp read
  refine ⟨grouped.tokensOf_eq, grouped.arranged_closedUp false, ?_, fun keyword =>
    ⟨grouped.indexOf?_rel keyword, grouped.lastIndexOf?_rel keyword⟩⟩
  have outside : Token.outside tokens =
      ((Token.positions tokens).filter (·.isOutside)).map Position.token :=
    (Token.filter_isOutside rfl (grouped.depthAfter 0)).symm
  rw [grouped.filterMap_plain?, outside]

/-- The tokens of `( order(  ) )order( )`: of the two orderings the first stands inside. -/
theorem group_keeps_of_padded_parens :
    let inside : Token := ⟨.keyword .ORDER, 2, "order"⟩
    let outside : Token := ⟨.keyword .ORDER, 13, "order"⟩
    let front : List Token := [⟨.leftParen, 0, "("⟩, ⟨.space, 1, " "⟩, inside,
      ⟨.leftParen, 7, "("⟩, ⟨.space, 8, "  "⟩, ⟨.rightParen, 10, ")"⟩, ⟨.space, 11, " "⟩,
      ⟨.rightParen, 12, ")"⟩]
    let back : List Token := [⟨.leftParen, 18, "("⟩, ⟨.space, 19, " "⟩, ⟨.rightParen, 20, ")"⟩]
    ∃ items, group (front ++ outside :: back) = .ok items ∧
      tokensOf items = [⟨.leftParen, 0, "("⟩, inside, ⟨.leftParen, 7, "("⟩,
        ⟨.rightParen, 10, ")"⟩, ⟨.rightParen, 12, ")"⟩, outside, ⟨.leftParen, 18, "("⟩,
        ⟨.rightParen, 20, ")"⟩] ∧
      items.filterMap plain? = [outside] ∧
      indexOf? .ORDER items = some 3 ∧ At items ⟨front, outside, back⟩ 3 := by
  intro inside outside front back
  obtain ⟨items, read⟩ : ∃ items, group (front ++ outside :: back) = .ok items := ⟨_, rfl⟩
  obtain ⟨content, -, plain, search⟩ := group_keeps read
  refine ⟨items, read, content.trans (by decide +kernel), plain.trans (by decide +kernel), ?_⟩
  have found : indexOf? .ORDER items = some 3 := by
    cases read
    rfl
  have first := (search .ORDER).1
  have position : (Token.positions (front ++ outside :: back)).find? (·.isKeyword .ORDER) =
      some ⟨front, outside, back⟩ := rfl
  rw [found, position] at first
  cases first with
  | some standing => exact ⟨found, standing⟩

end Item

end DynamicSql.Sql
