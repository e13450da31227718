import DynamicSql.Proofs.Grouping.Depth
import DynamicSql.Proofs.Grouping.Padding
import Mathlib.Data.List.Induction

/-!
# Parentheses without a partner

Two parentheses are partners if they open and close around balanced ones. Tokens that are
not balanced have a parenthesis without a partner, and the first of them, the closing ones
before the opening ones, is where grouping fails. What stands in front of it is balanced,
and what stands behind it is either never reached or opens more than it closes.
-/

namespace DynamicSql.Sql

namespace Token

/-- Some tokens hold the partner of a closing parenthesis behind them. -/
def Opened (front : List Token) : Prop :=
  ∃ before opening inside, front = before ++ opening :: inside ∧ opening.kind = .leftParen ∧
    TokenKind.Balanced (inside.map kind)

/-- Some tokens hold the partner of an opening parenthesis in front of them. -/
def Closed (back : List Token) : Prop :=
  ∃ inside closing after, back = inside ++ closing :: after ∧ closing.kind = .rightParen ∧
    TokenKind.Balanced (inside.map kind)

end Token

namespace Position

/-- A closing parenthesis that has none left to close. -/
def IsUnopened (position : Position) : Prop :=
  position.token.kind = .rightParen ∧ ¬ Token.Opened position.front

/-- An opening parenthesis that is never closed. -/
def IsUnclosed (position : Position) : Prop :=
  position.token.kind = .leftParen ∧ ¬ Token.Closed position.back

/-- The first position of some tokens that has a property. -/
structure First (P : Position → Prop) (tokens : List Token) (position : Position) : Prop where
  mem : position ∈ Token.positions tokens
  has : P position
  least : ∀ other ∈ Token.positions tokens, P other →
    position.front.length ≤ other.front.length

/-- The parenthesis to blame for tokens that are not balanced: the first closing one without a
    partner, if there is one, and else the first opening one. -/
def Culprit (tokens : List Token) (position : Position) : Prop :=
  First IsUnopened tokens position ∨
    (∀ other ∈ Token.positions tokens, ¬ other.IsUnopened) ∧ First IsUnclosed tokens position

/-- The error of a parenthesis without a partner: its place, and the text from it on. -/
def unbalanced (position : Position) : Error :=
  .unbalanced position.token.start (Token.textOf (position.token :: position.back))

end Position

namespace Token

theorem mem_positionsFrom_iff {front tokens : List Token} {position : Position} :
    position ∈ positionsFrom front tokens ↔
      ∃ between, position.front = front ++ between ∧
        tokens = between ++ position.token :: position.back := by
  induction tokens generalizing front with
  | nil => simp [positionsFrom]
  | cons t rest ih =>
    rw [positionsFrom, List.mem_cons, ih]
    constructor
    · rintro (rfl | ⟨between, inFront, rfl⟩)
      · exact ⟨[], by simp, rfl⟩
      · exact ⟨t :: between, by simp [inFront], rfl⟩
    · rintro ⟨between, inFront, split⟩
      cases between with
      | nil =>
        obtain ⟨rfl, rfl⟩ := List.cons.inj split
        rw [List.append_nil] at inFront
        subst inFront
        exact .inl rfl
      | cons first between =>
        obtain ⟨rfl, rfl⟩ := List.cons.inj split
        exact .inr ⟨between, by simp [inFront], rfl⟩

/-- The positions of some tokens are their divisions at a token. -/
theorem mem_positions_iff {tokens : List Token} {position : Position} :
    position ∈ positions tokens ↔
      tokens = position.front ++ position.token :: position.back := by
  rw [positions, mem_positionsFrom_iff]
  constructor
  · rintro ⟨between, inFront, split⟩
    rw [List.nil_append] at inFront
    rw [inFront, split]
  · intro split
    exact ⟨position.front, rfl, split⟩

/-- Of two positions the one with fewer tokens in front stands in front of the other one. -/
theorem exists_between {tokens : List Token} {position other : Position}
    (here : position ∈ positions tokens) (there : other ∈ positions tokens)
    (earlier : other.front.length < position.front.length) :
    ∃ between, position.front = other.front ++ other.token :: between ∧
      other.back = between ++ position.token :: position.back := by
  have same := (mem_positions_iff.mp there).symm.trans (mem_positions_iff.mp here)
  rcases List.append_eq_append_iff.mp same with ⟨between, inFront, behind⟩ | ⟨between, inFront, -⟩
  · cases between with
    | nil =>
      rw [inFront, List.append_nil] at earlier
      exact absurd earlier (Nat.lt_irrefl _)
    | cons t between =>
      obtain ⟨here, behind⟩ := List.cons.inj behind
      exact ⟨between, by rw [inFront, here], behind⟩
  · rw [inFront, List.length_append] at earlier
    omega

/-- There is one position with so many tokens in front. -/
theorem positions_unique {tokens : List Token} {position other : Position}
    (here : position ∈ positions tokens) (there : other ∈ positions tokens)
    (size : position.front.length = other.front.length) : position = other := by
  have same := (mem_positions_iff.mp here).symm.trans (mem_positions_iff.mp there)
  obtain ⟨inFront, behind⟩ := List.append_inj same size
  obtain ⟨token, back⟩ := List.cons.inj behind
  cases position
  cases other
  simp_all

section Depth

variable {tokens : List Token}

/-- Where the depth is lost, a parenthesis closes at depth zero. -/
theorem exists_unopened {depth : Nat}
    (lost : TokenKind.depthAfter depth (tokens.map kind) = none) :
    ∃ front closing back, tokens = front ++ closing :: back ∧ closing.kind = .rightParen ∧
      TokenKind.depthAfter depth (front.map kind) = some 0 := by
  induction tokens generalizing depth with
  | nil => cases lost
  | cons t rest ih =>
    rw [List.map_cons, TokenKind.depthAfter_cons] at lost
    cases stepped : TokenKind.depthStep depth t.kind with
    | none =>
      have closes : t.kind = .rightParen ∧ depth = 0 := by
        cases kind : t.kind <;> rw [kind] at stepped <;> simp_all [TokenKind.depthStep]
      exact ⟨[], t, rest, rfl, closes.1, by rw [closes.2]; rfl⟩
    | some next =>
      rw [stepped, Option.bind_some] at lost
      obtain ⟨front, closing, back, rfl, closes, reached⟩ := ih lost
      refine ⟨t :: front, closing, back, rfl, closes, ?_⟩
      rw [List.map_cons, TokenKind.depthAfter_cons, stepped, Option.bind_some, reached]

/-- Each level below the last one was entered for good by a parenthesis. -/
theorem exists_unclosed {depth rise : Nat}
    (reached : TokenKind.depthAfter 0 (tokens.map kind) = some (depth + rise + 1)) :
    ∃ front opening back, tokens = front ++ opening :: back ∧ opening.kind = .leftParen ∧
      TokenKind.depthAfter 0 (front.map kind) = some depth ∧
      TokenKind.depthAfter 0 (back.map kind) = some rise := by
  -- From the last token back, which is the one that enters its level or stands above it.
  induction tokens using List.reverseRecOn generalizing rise with
  | nil => simp at reached
  | append_singleton init t ih =>
    rw [List.map_append, TokenKind.depthAfter_append] at reached
    obtain ⟨middle, inFront, stepped⟩ := Option.bind_eq_some_iff.mp reached
    -- What holds of the tokens in front of the last one holds of all with the last one behind.
    have longer (rise' : Nat) (before : middle = depth + rise' + 1)
        (last : TokenKind.depthAfter rise' [t.kind] = some rise) :
        ∃ front opening back, init ++ [t] = front ++ opening :: back ∧
          opening.kind = .leftParen ∧ TokenKind.depthAfter 0 (front.map kind) = some depth ∧
          TokenKind.depthAfter 0 (back.map kind) = some rise := by
      obtain ⟨front, opening, back, rfl, opens, below, above⟩ := ih (before ▸ inFront)
      refine ⟨front, opening, back ++ [t], by simp, opens, below, ?_⟩
      rw [List.map_append, TokenKind.depthAfter_append, above, Option.bind_some]
      exact last
    rw [List.map_singleton] at stepped
    by_cases opens : t.kind = .leftParen
    · rw [opens, TokenKind.depthAfter_opening, TokenKind.depthAfter_nil,
        Option.some.injEq] at stepped
      cases rise with
      | zero =>
        have same : middle = depth := by omega
        exact ⟨init, t, [], rfl, opens, same ▸ inFront, rfl⟩
      | succ rise =>
        exact longer rise (by omega) (by rw [opens, TokenKind.depthAfter_opening]; rfl)
    · by_cases closes : t.kind = .rightParen
      · rw [closes] at stepped
        cases middle with
        | zero => cases stepped
        | succ middle =>
          rw [TokenKind.depthAfter_closing, TokenKind.depthAfter_nil, Option.some.injEq] at stepped
          exact longer (rise + 1) (by omega)
            (by rw [closes, TokenKind.depthAfter_closing]; rfl)
      · rw [TokenKind.depthAfter_other opens closes, TokenKind.depthAfter_nil,
          Option.some.injEq] at stepped
        exact longer rise stepped (by rw [TokenKind.depthAfter_other opens closes]; rfl)

/-- Tokens close what stands in front of them just if they lose the depth. -/
theorem closed_iff : Closed tokens ↔ TokenKind.depthAfter 0 (tokens.map kind) = none := by
  constructor
  · rintro ⟨inside, closing, after, rfl, closes, balanced⟩
    rw [List.map_append, TokenKind.depthAfter_append,
      TokenKind.balanced_iff_depthAfter.mp balanced, Option.bind_some, List.map_cons, closes,
      TokenKind.depthAfter_unopened]
  · intro lost
    obtain ⟨inside, closing, after, split, closes, reached⟩ := exists_unopened lost
    exact ⟨inside, closing, after, split, closes,
      TokenKind.balanced_iff_depthAfter.mpr reached⟩

/-- Tokens open what stands behind them just if they do not end at depth zero. -/
theorem opened_iff {depth : Nat}
    (reached : TokenKind.depthAfter 0 (tokens.map kind) = some depth) :
    Opened tokens ↔ 0 < depth := by
  constructor
  · rintro ⟨before, opening, inside, rfl, opens, balanced⟩
    rw [List.map_append, TokenKind.depthAfter_append] at reached
    obtain ⟨outer, -, reached⟩ := Option.bind_eq_some_iff.mp reached
    have still := TokenKind.depthAfter_add (TokenKind.balanced_iff_depthAfter.mp balanced)
      (outer + 1)
    rw [Nat.zero_add] at still
    rw [List.map_cons, opens, TokenKind.depthAfter_opening, still, Option.some.injEq] at reached
    omega
  · intro inside
    obtain ⟨front, opening, back, split, opens, -, level⟩ :=
      @exists_unclosed tokens (depth - 1) 0 (by rw [reached]; congr 1; omega)
    exact ⟨front, opening, back, split, opens, TokenKind.balanced_iff_depthAfter.mpr level⟩

/-- Where the depth falls to zero again behind an opening parenthesis, its partner is met. -/
theorem closed_of_fall {opening : Token} {depth : Nat} (opens : opening.kind = .leftParen)
    (reached : TokenKind.depthAfter depth ((opening :: tokens).map kind) = some 0) :
    Closed tokens := by
  rw [List.map_cons, opens, TokenKind.depthAfter_opening] at reached
  refine closed_iff.mpr (Option.eq_none_iff_forall_ne_some.mpr fun last inside => ?_)
  have further := TokenKind.depthAfter_add inside (depth + 1)
  rw [Nat.zero_add, reached, Option.some.injEq] at further
  omega

/-- Where the depth is not lost, every closing parenthesis has a partner. -/
theorem opened_of_reached {front between : List Token} {closing : Token} {depth : Nat}
    (closes : closing.kind = .rightParen)
    (reached : TokenKind.depthAfter 0 ((front ++ closing :: between).map kind) = some depth) :
    Opened front := by
  rw [List.map_append, TokenKind.depthAfter_append] at reached
  obtain ⟨level, inFront, reached⟩ := Option.bind_eq_some_iff.mp reached
  refine (opened_iff inFront).mpr (Nat.pos_of_ne_zero fun zero => ?_)
  rw [zero, List.map_cons, closes, TokenKind.depthAfter_unopened] at reached
  cases reached

/-- Tokens are balanced, or a parenthesis closes behind balanced ones, or one that is never closed
    opens behind balanced ones. -/
theorem balanced_or_unmatched (tokens : List Token) :
    TokenKind.Balanced (tokens.map kind) ∨
    (∃ front closing back, tokens = front ++ closing :: back ∧ closing.kind = .rightParen ∧
      TokenKind.Balanced (front.map kind)) ∨
    ∃ front opening back rise, tokens = front ++ opening :: back ∧ opening.kind = .leftParen ∧
      TokenKind.Balanced (front.map kind) ∧
      TokenKind.depthAfter 0 (back.map kind) = some rise := by
  simp only [TokenKind.balanced_iff_depthAfter]
  cases reached : TokenKind.depthAfter 0 (tokens.map kind) with
  | none => exact .inr (.inl (exists_unopened reached))
  | some depth =>
    cases depth with
    | zero => exact .inl rfl
    | succ rise =>
      obtain ⟨front, opening, back, parts⟩ :=
        @exists_unclosed tokens 0 rise (by rw [reached, Nat.zero_add])
      exact .inr (.inr ⟨front, opening, back, rise, parts⟩)

end Depth

end Token

namespace Position

variable {P : Position → Prop} {tokens : List Token} {position other : Position}

theorem First.unique (first : First P tokens position) (first' : First P tokens other) :
    position = other := by
  have size := Nat.le_antisymm (first.least other first'.mem first'.has)
    (first'.least position first.mem first.has)
  exact Token.positions_unique first.mem first'.mem size

/-- There is one parenthesis to blame at most. -/
theorem Culprit.unique (culprit : Culprit tokens position) (culprit' : Culprit tokens other) :
    position = other := by
  rcases culprit with first | ⟨none, first⟩ <;> rcases culprit' with first' | ⟨none', first'⟩
  · exact first.unique first'
  · exact absurd first.has (none' position first.mem)
  · exact absurd first'.has (none other first'.mem)
  · exact first.unique first'

/-- There is none to blame for balanced tokens. -/
theorem Culprit.not_balanced (culprit : Culprit tokens position) :
    ¬ TokenKind.Balanced (tokens.map Token.kind) := by
  intro balanced
  have reached := TokenKind.balanced_iff_depthAfter.mp balanced
  rcases culprit with first | ⟨-, first⟩
  · rw [Token.mem_positions_iff.mp first.mem] at reached
    exact first.has.2 (Token.opened_of_reached first.has.1 reached)
  · rw [Token.mem_positions_iff.mp first.mem, List.map_append, TokenKind.depthAfter_append]
      at reached
    obtain ⟨level, -, reached⟩ := Option.bind_eq_some_iff.mp reached
    exact first.has.2 (Token.closed_of_fall first.has.1 reached)

/-- A parenthesis that closes behind balanced ones is the first one to do so without a partner. -/
theorem culprit_of_closing {front back : List Token} {closing : Token}
    (closes : closing.kind = .rightParen) (balanced : TokenKind.Balanced (front.map Token.kind)) :
    Culprit (front ++ closing :: back) ⟨front, closing, back⟩ := by
  have reached := TokenKind.balanced_iff_depthAfter.mp balanced
  have here : (⟨front, closing, back⟩ : Position) ∈ Token.positions (front ++ closing :: back) :=
    Token.mem_positions_iff.mpr rfl
  refine .inl ⟨here, ⟨closes, ?_⟩, fun other there unopened => ?_⟩
  · rw [Token.opened_iff reached]
    exact Nat.lt_irrefl 0
  · by_contra earlier
    obtain ⟨between, inFront, -⟩ := Token.exists_between here there (Nat.lt_of_not_le earlier)
    rw [show front = _ from inFront] at reached
    exact unopened.2 (Token.opened_of_reached unopened.1 reached)

/-- A parenthesis that opens behind balanced ones and is not closed is the first one, and no closing
    one is without a partner. -/
theorem culprit_of_opening {front back : List Token} {opening : Token} {rise : Nat}
    (opens : opening.kind = .leftParen) (balanced : TokenKind.Balanced (front.map Token.kind))
    (rises : TokenKind.depthAfter 0 (back.map Token.kind) = some rise) :
    Culprit (front ++ opening :: back) ⟨front, opening, back⟩ := by
  have reached := TokenKind.balanced_iff_depthAfter.mp balanced
  have here : (⟨front, opening, back⟩ : Position) ∈ Token.positions (front ++ opening :: back) :=
    Token.mem_positions_iff.mpr rfl
  have whole : TokenKind.depthAfter 0 ((front ++ opening :: back).map Token.kind) =
      some (rise + 1) := by
    rw [List.map_append, TokenKind.depthAfter_append, reached, Option.bind_some, List.map_cons,
      opens, TokenKind.depthAfter_opening, ← TokenKind.depthAfter_add rises 1]
  refine .inr ⟨fun other there unopened => ?_, here, ⟨opens, ?_⟩, fun other there unclosed => ?_⟩
  · rw [Token.mem_positions_iff.mp there] at whole
    exact unopened.2 (Token.opened_of_reached unopened.1 whole)
  · rw [Token.closed_iff, rises]
    exact Option.some_ne_none rise
  · by_contra earlier
    obtain ⟨between, inFront, behind⟩ :=
      Token.exists_between here there (Nat.lt_of_not_le earlier)
    -- Between the two parentheses the depth falls to zero.
    rw [show front = _ from inFront, List.map_append, TokenKind.depthAfter_append] at reached
    obtain ⟨level, -, reached⟩ := Option.bind_eq_some_iff.mp reached
    obtain ⟨inside, closing, after, rfl, partner⟩ := Token.closed_of_fall unclosed.1 reached
    exact unclosed.2 ⟨inside, closing, after ++ opening :: back, by rw [behind]; simp, partner⟩

end Position

namespace Item

variable {front back : List Token} {items : List Item}

/-- Grouping fails at a parenthesis that closes behind a group. -/
theorem group_of_closing {closing : Token} (grouped : Grouped front items)
    (closes : closing.kind = .rightParen) :
    group (front ++ closing :: back) = .error (unbalanced (closing :: back)) := by
  rw [group, groupFrom_append grouped]
  exact groupFrom.eq_4 _ _ _ closes

/-- Below an outermost parenthesis that is not closed grouping fails at that one. -/
theorem groupFrom_of_rising {stack : List Pending} {outermost : Pending} {rise : Nat}
    (rises : TokenKind.depthAfter stack.length (back.map Token.kind) = some rise)
    (done : List Item) :
    groupFrom (stack ++ [outermost]) done back = .error (unbalanced outermost.opening) := by
  induction back generalizing stack done with
  | nil =>
    cases stack with
    | nil => rfl
    | cons pending outer => simp [groupFrom, List.getLast_cons]
  | cons t rest ih =>
    rw [List.map_cons] at rises
    by_cases opens : t.kind = .leftParen
    · rw [opens, TokenKind.depthAfter_opening] at rises
      rw [groupFrom_opening opens]
      exact @ih (⟨t :: rest, .token t :: done⟩ :: stack) rises []
    · by_cases closes : t.kind = .rightParen
      · cases stack with
        | nil =>
          rw [closes, List.length_nil, TokenKind.depthAfter_unopened] at rises
          cases rises
        | cons pending outer =>
          rw [closes, List.length_cons, TokenKind.depthAfter_closing] at rises
          rw [List.cons_append, groupFrom_closing closes]
          exact ih rises _
      · rw [TokenKind.depthAfter_other opens closes] at rises
        rw [groupFrom_other opens closes]
        exact ih rises _

/-- Grouping fails at a parenthesis that opens behind a group and is not closed. -/
theorem group_of_opening {opening : Token} {rise : Nat} (grouped : Grouped front items)
    (opens : opening.kind = .leftParen)
    (rises : TokenKind.depthAfter 0 (back.map Token.kind) = some rise) :
    group (front ++ opening :: back) = .error (unbalanced (opening :: back)) := by
  rw [group, groupFrom_append grouped, groupFrom_opening opens]
  exact @groupFrom_of_rising back [] _ _ rises []

/-- Grouping succeeds, or it fails at the parenthesis to blame. -/
theorem group_cases (tokens : List Token) :
    (TokenKind.Balanced (tokens.map Token.kind) ∧ ∃ items, group tokens = .ok items) ∨
    ∃ position, Position.Culprit tokens position ∧
      group tokens = .error position.unbalanced := by
  rcases Token.balanced_or_unmatched tokens with balanced |
    ⟨front, closing, back, rfl, closes, balanced⟩ |
    ⟨front, opening, back, rise, rfl, opens, balanced, rises⟩
  · obtain ⟨items, grouped⟩ := exists_grouped_iff.mpr balanced
    exact .inl ⟨balanced, items, group_eq_ok_iff.mpr grouped⟩
  · obtain ⟨items, grouped⟩ := exists_grouped_iff.mpr balanced
    exact .inr ⟨⟨front, closing, back⟩, Position.culprit_of_closing closes balanced,
      group_of_closing grouped closes⟩
  · obtain ⟨items, grouped⟩ := exists_grouped_iff.mpr balanced
    exact .inr ⟨⟨front, opening, back⟩, Position.culprit_of_opening opens balanced rises,
      group_of_opening grouped opens rises⟩

end Item

end DynamicSql.Sql
