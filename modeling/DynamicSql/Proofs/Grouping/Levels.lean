import DynamicSql.Proofs.Grouping.Partners
import Mathlib.Data.List.Basic

/-!
# Grouping level by level

Grouping can also be told one level at a time: the tokens between two outermost parentheses
are set aside until the closing one comes, and are then grouped by themselves, without the
blanks at their ends. What is set aside is balanced, so grouping it does not fail, and an
error is always that of a parenthesis of the outermost level.
-/

namespace DynamicSql.Sql

namespace Token

/-- The tokens without the blanks at their ends. -/
def unspaced (tokens : List Token) : List Token :=
  ((tokens.dropWhile isSpace).reverse.dropWhile isSpace).reverse

/-- Two parentheses of some tokens around balanced ones. -/
structure Partners (tokens : List Token) (opening : Token) (inside : List Token)
    (closing : Token) : Prop where
  split : ∃ front back, tokens = front ++ opening :: (inside ++ closing :: back)
  opens : opening.kind = .leftParen
  closes : closing.kind = .rightParen
  balanced : TokenKind.Balanced (inside.map kind)

theorem unspaced_spec (tokens : List Token) :
    ∃ front back, tokens = front ++ (unspaced tokens ++ back) ∧
      (∀ t ∈ front, t.isSpace = true) ∧ (∀ t ∈ back, t.isSpace = true) ∧
      (∀ t ∈ (unspaced tokens).head?, t.isSpace = false) ∧
      ∀ t ∈ (unspaced tokens).getLast?, t.isSpace = false := by
  have behind : tokens.dropWhile isSpace = unspaced tokens ++
      ((tokens.dropWhile isSpace).reverse.takeWhile isSpace).reverse := by
    rw [unspaced, ← List.reverse_append, List.takeWhile_append_dropWhile, List.reverse_reverse]
  refine ⟨tokens.takeWhile isSpace, ((tokens.dropWhile isSpace).reverse.takeWhile isSpace).reverse,
    ?_, fun t member => List.mem_takeWhile_imp member,
    fun t member => List.mem_takeWhile_imp (List.mem_reverse.mp member), fun t first => ?_,
    fun t last => ?_⟩
  · rw [← behind, List.takeWhile_append_dropWhile]
  · have kept : (tokens.dropWhile isSpace).head? = some t := by
      rw [behind, List.head?_append, first]
      rfl
    have stopped := List.head?_dropWhile_not isSpace tokens
    rw [kept] at stopped
    exact stopped
  · rw [unspaced, List.getLast?_reverse] at last
    have stopped := List.head?_dropWhile_not isSpace (tokens.dropWhile isSpace).reverse
    rw [last] at stopped
    exact stopped

end Token

namespace Item

/-- An outermost parenthesis that is open: the tokens from it on, those behind it so far, the last
    one first, and how many more parentheses are open behind it. -/
structure Enclosure where
  opening : List Token
  inside : List Token
  deeper : Nat

/-- The items between two parentheses around some tokens, given how to group these. -/
def between (nested : List Token → Except Error (List Item)) (inside : List Token) :
    Except Error (List Item) :=
  if (Token.unspaced inside).isEmpty then .ok []
  else do return [.clause (← nested (Token.unspaced inside))]

/-- Groups the tokens outside every parenthesis, after the items so far, the last one first, given
    how to group what stands between two outermost parentheses. -/
def outermostFrom (nested : List Token → Except Error (List Item)) :
    Option Enclosure → List Item → List Token → Except Error (List Item)
  | none, done, [] => .ok done.reverse
  | some enclosure, _, [] => .error (unbalanced enclosure.opening)
  | none, done, t :: rest =>
    match t.kind with
    | .leftParen => outermostFrom nested (some ⟨t :: rest, [], 0⟩) (.token t :: done) rest
    | .rightParen => .error (unbalanced (t :: rest))
    | _ => outermostFrom nested none (.token t :: done) rest
  | some ⟨opening, inside, deeper⟩, done, t :: rest =>
    match TokenKind.depthStep deeper t.kind with
    | some deeper => outermostFrom nested (some ⟨opening, t :: inside, deeper⟩) done rest
    | none => do
      let items ← between nested inside.reverse
      outermostFrom nested none (.token t :: (items.reverse ++ done)) rest

/-- The items of some tokens, given how to group what stands between two outermost parentheses. -/
def outermost (nested : List Token → Except Error (List Item)) (tokens : List Token) :
    Except Error (List Item) :=
  outermostFrom nested none [] tokens

/-- Blanks are items as they are. -/
theorem grouped_of_spaces {spaces : List Token} (blank : ∀ t ∈ spaces, t.isSpace = true) :
    Grouped spaces (spaces.map .token) := by
  induction spaces with
  | nil => exact .nil
  | cons t rest ih =>
    obtain ⟨space, others⟩ := List.forall_mem_cons.mp blank
    rw [Token.isSpace, beq_iff_eq] at space
    exact .token (by simp [space]) (by simp [space]) (ih others)

/-- The blanks at both ends are all that is taken. -/
theorem unpadded_of_spaces {front items back : List Item}
    (blank : ∀ item ∈ front, item.isSpace = true) (blank' : ∀ item ∈ back, item.isSpace = true)
    (begins : ∀ item ∈ items.head?, item.isSpace = false)
    (ends : ∀ item ∈ items.getLast?, item.isSpace = false) :
    unpadded (front ++ (items ++ back)) = items := by
  have fromBack : ∀ item ∈ back.reverse, item.isSpace = true := by simpa using blank'
  cases items with
  | nil =>
    have all : (front ++ ([] ++ back)).reverse.dropWhile isSpace = [] := by
      rw [List.nil_append, List.reverse_append, List.dropWhile_append_of_pos fromBack,
        List.dropWhile_eq_nil_iff]
      simpa using blank
    rw [unpadded, all]
    rfl
  | cons first rest =>
    obtain ⟨init, last, split⟩ := (List.eq_nil_or_concat' (first :: rest)).resolve_left
      (List.cons_ne_nil first rest)
    have lastStays : last.isSpace = false := ends last (by rw [split, List.getLast?_concat]; rfl)
    have firstStays : first.isSpace = false := begins first rfl
    rw [unpadded, split, List.reverse_append, List.reverse_append, List.reverse_concat',
      List.append_assoc, List.dropWhile_append_of_pos fromBack, List.cons_append,
      List.dropWhile_cons_of_neg (by simp [lastStays]), ← List.cons_append, ← List.reverse_concat',
      ← split, ← List.reverse_append, List.reverse_reverse, List.dropWhile_append_of_pos blank,
      List.dropWhile_cons_of_neg (by simp [firstStays])]

/-- The items of tokens without the blanks at their ends are the items without those. -/
theorem Grouped.unspaced {tokens : List Token} {items : List Item}
    (grouped : Grouped tokens items) : Grouped (Token.unspaced tokens) (unpadded items) := by
  obtain ⟨front, back, split, blank, blank', begins, ends⟩ := Token.unspaced_spec tokens
  have balanced := grouped.depthAfter 0
  rw [split, List.map_append, TokenKind.depthAfter_append, (grouped_of_spaces blank).depthAfter,
    Option.bind_some, List.map_append, TokenKind.depthAfter_append] at balanced
  obtain ⟨level, reached, still⟩ := Option.bind_eq_some_iff.mp balanced
  rw [(grouped_of_spaces blank').depthAfter, Option.some.injEq] at still
  subst still
  obtain ⟨core, groupedCore⟩ :=
    exists_grouped_iff.mpr (TokenKind.balanced_iff_depthAfter.mpr reached)
  have whole := (grouped_of_spaces blank).append (groupedCore.append (grouped_of_spaces blank'))
  rw [← split] at whole
  obtain ⟨first, last⟩ := groupedCore.ends
  have same : unpadded items = core := by
    have spaces {ts : List Token} (blank : ∀ t ∈ ts, t.isSpace = true) :
        ∀ item ∈ ts.map Item.token, item.isSpace = true := by simpa using blank
    rw [grouped.unique whole]
    refine unpadded_of_spaces (spaces blank) (spaces blank') ?_ ?_
    · rw [first]
      simpa using begins
    · rw [last]
      simpa using ends
  rw [same]
  exact groupedCore

section Outermost

variable {nested : List Token → Except Error (List Item)} {tokens front back : List Token}
  {items done : List Item} {t opening closing : Token}

theorem outermostFrom_opening (opens : t.kind = .leftParen) :
    outermostFrom nested none done (t :: back) =
      outermostFrom nested (some ⟨t :: back, [], 0⟩) (.token t :: done) back := by
  rw [outermostFrom, opens]

theorem outermostFrom_unopened (closes : t.kind = .rightParen) :
    outermostFrom nested none done (t :: back) = .error (unbalanced (t :: back)) := by
  rw [outermostFrom, closes]

theorem outermostFrom_other (noOpening : t.kind ≠ .leftParen) (noClosing : t.kind ≠ .rightParen) :
    outermostFrom nested none done (t :: back) =
      outermostFrom nested none (.token t :: done) back := by
  rw [outermostFrom]
  split <;> first | contradiction | rfl

theorem outermostFrom_closing {opening inside : List Token} (closes : t.kind = .rightParen) :
    outermostFrom nested (some ⟨opening, inside, 0⟩) done (t :: back) =
      between nested inside.reverse >>= fun items =>
        outermostFrom nested none (.token t :: (items.reverse ++ done)) back := by
  rw [outermostFrom, closes]
  rfl

/-- Tokens behind an outermost parenthesis are set aside while it is open. -/
theorem outermostFrom_inside {depth last : Nat}
    (reached : TokenKind.depthAfter depth (tokens.map Token.kind) = some last)
    (opening inside : List Token) (done : List Item) (back : List Token) :
    outermostFrom nested (some ⟨opening, inside, depth⟩) done (tokens ++ back) =
      outermostFrom nested (some ⟨opening, tokens.reverse ++ inside, last⟩) done back := by
  induction tokens generalizing inside depth with
  | nil =>
    cases reached
    rfl
  | cons t rest ih =>
    rw [List.map_cons, TokenKind.depthAfter_cons] at reached
    obtain ⟨next, stepped, reached⟩ := Option.bind_eq_some_iff.mp reached
    rw [List.cons_append, outermostFrom, stepped]
    refine (ih reached (t :: inside)).trans ?_
    rw [List.reverse_cons, List.append_assoc, List.singleton_append]

/-- What stands between two parentheses is grouped by itself, if it is a group. -/
theorem between_of_grouped
    (agrees : ∀ tokens items, group tokens = .ok items → nested tokens = .ok items)
    (grouped : Grouped tokens items) : between nested tokens = .ok (enclosed items) := by
  have alone := grouped.unspaced
  have nothing : (Token.unspaced tokens).isEmpty = (unpadded items).isEmpty := by
    have begins := alone.ends.1
    cases tokens : Token.unspaced tokens <;> cases items : unpadded items <;>
      rw [tokens, items] at begins <;> first | rfl | cases begins
  rw [between, enclosed, nothing, agrees _ _ (group_eq_ok_iff.mpr alone)]
  split <;> rfl

/-- Level by level a group is read as it is at once. -/
theorem outermostFrom_append
    (agrees : ∀ tokens items, group tokens = .ok items → nested tokens = .ok items)
    (grouped : Grouped front items) (done : List Item) (back : List Token) :
    outermostFrom nested none done (front ++ back) =
      outermostFrom nested none (items.reverse ++ done) back := by
  induction grouped generalizing done back with
  | nil => rfl
  | token noOpening noClosing _ ih =>
    rw [List.cons_append, outermostFrom_other noOpening noClosing, ih]
    simp
  | parens opens closes inner _ _ ihRest =>
    rw [List.cons_append, List.append_assoc, outermostFrom_opening opens,
      outermostFrom_inside (inner.depthAfter 0), List.cons_append, outermostFrom_closing closes,
      List.append_nil, List.reverse_reverse, between_of_grouped agrees inner]
    exact (ihRest _ _).trans (by simp)

/-- Grouping level by level is grouping at once, whatever is done with tokens that cannot be
    grouped: between two parentheses there are none. -/
theorem outermost_eq
    (agrees : ∀ tokens items, group tokens = .ok items → nested tokens = .ok items)
    (tokens : List Token) : outermost nested tokens = group tokens := by
  rcases Token.balanced_or_unmatched tokens with balanced |
    ⟨front, closing, back, rfl, closes, balanced⟩ |
    ⟨front, opening, back, rise, rfl, opens, balanced, rises⟩
  · obtain ⟨items, grouped⟩ := exists_grouped_iff.mpr balanced
    have passed := outermostFrom_append agrees grouped [] []
    rw [List.append_nil, List.append_nil] at passed
    rw [group_eq_ok_iff.mpr grouped, outermost, passed, outermostFrom, List.reverse_reverse]
  · obtain ⟨items, grouped⟩ := exists_grouped_iff.mpr balanced
    rw [group_of_closing grouped closes, outermost, outermostFrom_append agrees grouped,
      outermostFrom_unopened closes]
  · obtain ⟨items, grouped⟩ := exists_grouped_iff.mpr balanced
    rw [group_of_opening grouped opens rises, outermost, outermostFrom_append agrees grouped,
      outermostFrom_opening opens, ← List.append_nil back, outermostFrom_inside rises,
      List.append_nil]
    rfl

end Outermost

/-- Tokens can be grouped just if they are balanced. Otherwise the error is that of the first
    closing parenthesis that has none left to close, if there is one, and else of the first opening
    one that is never closed; it gives the place of that parenthesis and the text from it on. What
    stands between partners can always be grouped, so whoever groups level by level never meets an
    error inside. -/
theorem group_blames_unmatched (tokens : List Token) :
    ((∃ items, group tokens = .ok items) ↔ TokenKind.Balanced (tokens.map Token.kind)) ∧
    (∀ error, group tokens = .error error ↔
      ∃ position, Position.Culprit tokens position ∧ error = .unbalanced position.token.start
        (Token.textOf (position.token :: position.back))) ∧
    (∀ opening inside closing, Token.Partners tokens opening inside closing →
      ∃ items, group (Token.unspaced inside) = .ok items) ∧
    ∀ nested : List Token → Except Error (List Item),
      (∀ inside items, group inside = .ok items → nested inside = .ok items) →
      outermost nested tokens = group tokens := by
  refine ⟨?_, fun error => ⟨fun failed => ?_, ?_⟩, fun opening inside closing partners => ?_,
    fun nested agrees => outermost_eq agrees tokens⟩
  · rw [← exists_grouped_iff]
    exact exists_congr fun items => group_eq_ok_iff
  · rcases group_cases tokens with ⟨-, items, read⟩ | ⟨position, culprit, read⟩
    · cases read.symm.trans failed
    · cases read.symm.trans failed
      exact ⟨position, culprit, rfl⟩
  · rintro ⟨position, culprit, rfl⟩
    rcases group_cases tokens with ⟨balanced, -⟩ | ⟨other, culprit', read⟩
    · exact absurd balanced culprit.not_balanced
    · rw [read, culprit.unique culprit']
      rfl
  · obtain ⟨items, grouped⟩ := exists_grouped_iff.mpr partners.balanced
    exact ⟨unpadded items, group_eq_ok_iff.mpr grouped.unspaced⟩

/-- The tokens of `(é)(( )`: of three parentheses that open the second one is never closed, though
    the third one is. -/
theorem group_blames_unmatched_of_nested :
    let front : List Token := [⟨.leftParen, 0, "("⟩, ⟨.word, 1, "é"⟩, ⟨.rightParen, 3, ")"⟩]
    let space : Token := ⟨.space, 6, " "⟩
    let back : List Token := [⟨.leftParen, 5, "("⟩, space, ⟨.rightParen, 7, ")"⟩]
    let tokens := front ++ ⟨.leftParen, 4, "("⟩ :: back
    let nested (inside : List Token) : Except Error (List Item) :=
      match group inside with
      | .ok items => .ok items
      | .error _ => .error (.unbalanced 0 "")
    group tokens = .error (.unbalanced 4 "(( )") ∧
    (Token.Partners tokens ⟨.leftParen, 5, "("⟩ [space] ⟨.rightParen, 7, ")"⟩ ∧
      ∃ items, group (Token.unspaced [space]) = .ok items) ∧
    (∀ inside items, group inside = .ok items → nested inside = .ok items) ∧
      outermost nested tokens = group tokens := by
  intro front space back tokens nested
  obtain ⟨-, blames, inside, levels⟩ := group_blames_unmatched tokens
  have balanced : TokenKind.Balanced (front.map Token.kind) :=
    TokenKind.balanced_iff_depthAfter.mpr rfl
  have culprit : Position.Culprit tokens ⟨front, ⟨.leftParen, 4, "("⟩, back⟩ :=
    @Position.culprit_of_opening front back _ 0 rfl balanced rfl
  have partners : Token.Partners tokens ⟨.leftParen, 5, "("⟩ [space] ⟨.rightParen, 7, ")"⟩ :=
    ⟨⟨front ++ [⟨.leftParen, 4, "("⟩], [], rfl⟩, rfl, rfl,
      TokenKind.balanced_iff_depthAfter.mpr rfl⟩
  have agrees : ∀ inside items, group inside = .ok items → nested inside = .ok items := by
    intro inside items read
    show (match group inside with | .ok items => _ | .error _ => _) = _
    rw [read]
  exact ⟨(blames _).mpr ⟨_, culprit, rfl⟩, ⟨partners, inside _ _ _ partners⟩, agrees,
    levels nested agrees⟩

end Item

end DynamicSql.Sql
