import DynamicSql.Proofs.Grouping.Grouped

/-!
# Depth

How many parentheses are open at a place of a statement. Grouping succeeds just
for balanced parentheses, and apart from the outermost parentheses the items
that are tokens are the tokens at which nothing is open.
-/

namespace DynamicSql.Sql

namespace TokenKind

/-- The count of open parentheses behind a token, given the count in front of it; none if
    the token closes what is not open. -/
def depthStep (depth : Nat) : TokenKind → Option Nat
  | leftParen => some (depth + 1)
  | rightParen => if depth = 0 then none else some (depth - 1)
  | _ => some depth

/-- The count of open parentheses behind some tokens, given their kinds. -/
def depthAfter (depth : Nat) (kinds : List TokenKind) : Option Nat :=
  kinds.foldlM depthStep depth

/-- No parenthesis closes that is not open, and every one that opens closes. -/
def Balanced (kinds : List TokenKind) : Prop :=
  (∀ before after, kinds = before ++ after →
    before.count .rightParen ≤ before.count .leftParen) ∧
  kinds.count .rightParen = kinds.count .leftParen

@[simp]
theorem depthAfter_nil (depth : Nat) : depthAfter depth [] = some depth := rfl

theorem depthAfter_cons (depth : Nat) (kind : TokenKind) (rest : List TokenKind) :
    depthAfter depth (kind :: rest) = (depthStep depth kind).bind (depthAfter · rest) :=
  List.foldlM_cons

theorem depthAfter_append (depth : Nat) (before after : List TokenKind) :
    depthAfter depth (before ++ after) = (depthAfter depth before).bind (depthAfter · after) :=
  List.foldlM_append

theorem depthStep_other {kind : TokenKind} (noOpening : kind ≠ .leftParen)
    (noClosing : kind ≠ .rightParen) (depth : Nat) : depthStep depth kind = some depth := by
  cases kind <;> first | rfl | contradiction

theorem depthAfter_opening (depth : Nat) (rest : List TokenKind) :
    depthAfter depth (.leftParen :: rest) = depthAfter (depth + 1) rest := rfl

theorem depthAfter_closing (depth : Nat) (rest : List TokenKind) :
    depthAfter (depth + 1) (.rightParen :: rest) = depthAfter depth rest := rfl

theorem depthAfter_unopened (rest : List TokenKind) :
    depthAfter 0 (.rightParen :: rest) = none := rfl

theorem depthAfter_other {kind : TokenKind} (noOpening : kind ≠ .leftParen)
    (noClosing : kind ≠ .rightParen) (depth : Nat) (rest : List TokenKind) :
    depthAfter depth (kind :: rest) = depthAfter depth rest := by
  rw [depthAfter_cons, depthStep_other noOpening noClosing]
  rfl

/-- Tokens that are no parentheses do not change the depth. -/
theorem depthAfter_of_plain {kinds : List TokenKind}
    (plain : ∀ kind ∈ kinds, kind ≠ .leftParen ∧ kind ≠ .rightParen) (depth : Nat) :
    depthAfter depth kinds = some depth := by
  induction kinds with
  | nil => rfl
  | cons kind rest ih =>
    obtain ⟨first, others⟩ := List.forall_mem_cons.mp plain
    rw [depthAfter_other first.1 first.2, ih others]

/-- Parentheses that are open further out do not matter. -/
theorem depthAfter_add {depth last : Nat} {kinds : List TokenKind}
    (reached : depthAfter depth kinds = some last) (outer : Nat) :
    depthAfter (depth + outer) kinds = some (last + outer) := by
  induction kinds generalizing depth with
  | nil =>
    cases reached
    rfl
  | cons kind rest ih =>
    obtain ⟨middle, stepped, reached⟩ := Option.bind_eq_some_iff.mp reached
    have further : depthStep (depth + outer) kind = some (middle + outer) := by
      by_cases closes : kind = .rightParen
      · subst closes
        simp only [depthStep, Option.ite_none_left_eq_some, Option.some.injEq] at stepped ⊢
        omega
      · cases kind <;> first | contradiction | (cases stepped; simp [depthStep]; try omega)
    rw [depthAfter_cons, further]
    exact ih reached

/-- Only punctuation matters for the depth. -/
theorem depthAfter_filter (depth : Nat) (kinds : List TokenKind) :
    depthAfter depth (kinds.filter isPunctuation) = depthAfter depth kinds := by
  induction kinds generalizing depth with
  | nil => rfl
  | cons kind rest ih =>
    cases marks : kind.isPunctuation with
    | true =>
      rw [List.filter_cons_of_pos marks, depthAfter_cons, depthAfter_cons]
      exact congrArg _ (funext fun depth => ih depth)
    | false =>
      have plain : kind ≠ .leftParen ∧ kind ≠ .rightParen := by
        constructor <;> (rintro rfl; cases marks)
      rw [List.filter_cons_of_neg (by simp [marks]), ih, depthAfter_other plain.1 plain.2]

/-- A property of all beginnings of some tokens, first token by first token. -/
theorem forall_beginning_cons {P : List TokenKind → Prop} {kind : TokenKind}
    {rest : List TokenKind} :
    (∀ before after, kind :: rest = before ++ after → P before) ↔
      P [] ∧ ∀ before after, rest = before ++ after → P (kind :: before) := by
  constructor
  · intro all
    exact ⟨all [] _ rfl, fun before after split => all (kind :: before) after (by rw [split]; rfl)⟩
  · rintro ⟨none, longer⟩ before after split
    cases before with
    | nil => exact none
    | cons first before =>
      obtain ⟨rfl, same⟩ := List.cons.inj split
      exact longer before after same

/-- The depth by counts. -/
theorem depthAfter_eq_some_iff {depth last : Nat} {kinds : List TokenKind} :
    depthAfter depth kinds = some last ↔
      (∀ before after, kinds = before ++ after →
        before.count .rightParen ≤ depth + before.count .leftParen) ∧
      kinds.count .rightParen + last = depth + kinds.count .leftParen := by
  induction kinds generalizing depth with
  | nil =>
    simp only [depthAfter_nil, Option.some.injEq, List.nil_eq, List.append_eq_nil_iff,
      List.count_nil]
    constructor
    · rintro rfl
      exact ⟨fun before after none => by simp [none.1], by omega⟩
    · rintro ⟨-, same⟩
      omega
  | cons kind rest ih =>
    rw [forall_beginning_cons (P := fun before =>
      before.count .rightParen ≤ depth + before.count .leftParen)]
    by_cases opens : kind = .leftParen
    · subst opens
      simp only [depthAfter_opening, ih, List.count_nil, List.count_cons_self,
        List.count_cons_of_ne (show TokenKind.leftParen ≠ .rightParen by decide)]
      have shift : ∀ n, depth + 1 + n = depth + (n + 1) := by omega
      simp only [shift, Nat.zero_le, true_and]
    · by_cases closes : kind = .rightParen
      · subst closes
        simp only [List.count_nil, List.count_cons_self,
          List.count_cons_of_ne (show TokenKind.rightParen ≠ .leftParen by decide)]
        cases depth with
        | zero =>
          rw [depthAfter_unopened]
          constructor
          · intro impossible
            cases impossible
          · rintro ⟨⟨-, beginnings⟩, -⟩
            have first := beginnings [] rest rfl
            simp at first
        | succ depth =>
          rw [depthAfter_closing, ih]
          have shift : ∀ m n, m + 1 ≤ depth + 1 + n ↔ m ≤ depth + n := by omega
          simp only [shift, Nat.zero_le, true_and]
          refine and_congr_right fun _ => ?_
          omega
      · rw [depthAfter_other opens closes, ih]
        simp only [List.count_nil, List.count_cons_of_ne opens, List.count_cons_of_ne closes,
          Nat.zero_le, true_and]

theorem balanced_iff_depthAfter {kinds : List TokenKind} :
    Balanced kinds ↔ depthAfter 0 kinds = some 0 := by
  rw [depthAfter_eq_some_iff]
  simp [Balanced]

end TokenKind

namespace Token

/-- The tokens at which nothing is open and that are no parentheses, given how many
    parentheses are open in front. -/
def outsideFrom : Nat → List Token → List Token
  | _, [] => []
  | depth, t :: rest =>
    match t.kind with
    | .leftParen => outsideFrom (depth + 1) rest
    | .rightParen => outsideFrom (depth - 1) rest
    | _ => if depth = 0 then t :: outsideFrom depth rest else outsideFrom depth rest

/-- The tokens outside every parenthesis. -/
def outside (tokens : List Token) : List Token := outsideFrom 0 tokens

section Steps

variable {t : Token} (depth : Nat) (rest : List Token)

theorem outsideFrom_opening (opens : t.kind = .leftParen) :
    outsideFrom depth (t :: rest) = outsideFrom (depth + 1) rest := by
  rw [outsideFrom, opens]

theorem outsideFrom_closing (closes : t.kind = .rightParen) :
    outsideFrom depth (t :: rest) = outsideFrom (depth - 1) rest := by
  rw [outsideFrom, closes]

theorem outsideFrom_other (noOpening : t.kind ≠ .leftParen) (noClosing : t.kind ≠ .rightParen) :
    outsideFrom depth (t :: rest) =
      if depth = 0 then t :: outsideFrom depth rest else outsideFrom depth rest := by
  rw [outsideFrom]
  split
  · contradiction
  · contradiction
  · rfl

end Steps

/-- Tokens in a row, the later ones at the depth that the first ones reach. -/
theorem outsideFrom_append {depth last : Nat} {tokens : List Token}
    (reached : TokenKind.depthAfter depth (tokens.map kind) = some last) (rest : List Token) :
    outsideFrom depth (tokens ++ rest) = outsideFrom depth tokens ++ outsideFrom last rest := by
  induction tokens generalizing depth with
  | nil =>
    cases reached
    rfl
  | cons t tokens ih =>
    rw [List.map_cons] at reached
    rw [List.cons_append]
    by_cases opens : t.kind = .leftParen
    · rw [opens, TokenKind.depthAfter_opening] at reached
      rw [outsideFrom_opening _ _ opens, outsideFrom_opening _ _ opens, ih reached]
    · by_cases closes : t.kind = .rightParen
      · cases depth with
        | zero =>
          rw [closes, TokenKind.depthAfter_unopened] at reached
          cases reached
        | succ depth =>
          rw [closes, TokenKind.depthAfter_closing] at reached
          rw [outsideFrom_closing _ _ closes, outsideFrom_closing _ _ closes,
            Nat.add_sub_cancel, ih reached]
      · rw [TokenKind.depthAfter_other opens closes] at reached
        rw [outsideFrom_other _ _ opens closes, outsideFrom_other _ _ opens closes, ih reached]
        split <;> rfl

theorem mem_of_mem_outsideFrom {depth : Nat} {tokens : List Token} {t : Token}
    (member : t ∈ outsideFrom depth tokens) : t ∈ tokens := by
  induction tokens generalizing depth with
  | nil => cases member
  | cons first rest ih =>
    rw [outsideFrom] at member
    split at member
    · exact List.mem_cons_of_mem _ (ih member)
    · exact List.mem_cons_of_mem _ (ih member)
    · split at member
      · rcases List.mem_cons.mp member with rfl | later
        · exact List.mem_cons_self
        · exact List.mem_cons_of_mem _ (ih later)
      · exact List.mem_cons_of_mem _ (ih member)

/-- Nothing of what is balanced inside a parenthesis stands outside. -/
theorem outsideFrom_inside {depth last outer : Nat} {tokens : List Token}
    (reached : TokenKind.depthAfter depth (tokens.map kind) = some last) (inside : 0 < outer) :
    outsideFrom (depth + outer) tokens = [] := by
  induction tokens generalizing depth with
  | nil => rfl
  | cons t tokens ih =>
    rw [List.map_cons] at reached
    by_cases opens : t.kind = .leftParen
    · rw [opens, TokenKind.depthAfter_opening] at reached
      have further := ih reached
      rw [outsideFrom_opening _ _ opens]
      rwa [Nat.add_right_comm] at further
    · by_cases closes : t.kind = .rightParen
      · cases depth with
        | zero =>
          rw [closes, TokenKind.depthAfter_unopened] at reached
          cases reached
        | succ depth =>
          rw [closes, TokenKind.depthAfter_closing] at reached
          have one : depth + 1 + outer - 1 = depth + outer := by omega
          rw [outsideFrom_closing _ _ closes, one, ih reached]
      · rw [TokenKind.depthAfter_other opens closes] at reached
        rw [outsideFrom_other _ _ opens closes, if_neg (by omega), ih reached]

/-- A pair of parentheses leaves nothing outside. -/
theorem outside_parens {opening closing : Token} {inside : List Token}
    (opens : opening.kind = .leftParen) (closes : closing.kind = .rightParen)
    (balanced : TokenKind.depthAfter 0 (inside.map kind) = some 0) (rest : List Token) :
    outside (opening :: (inside ++ closing :: rest)) = outside rest := by
  have still : TokenKind.depthAfter 1 (inside.map kind) = some 1 :=
    TokenKind.depthAfter_add balanced 1
  rw [outside, outsideFrom_opening _ _ opens, outsideFrom_append still,
    outsideFrom_closing _ _ closes, outsideFrom_inside balanced Nat.one_pos]
  rfl

end Token

namespace Item

/-- The token that an item is, unless it is a parenthesis. -/
def plain? : Item → Option Token
  | token t => if t.kind = .leftParen ∨ t.kind = .rightParen then none else some t
  | clause _ => none

/-- A group leaves the depth as it is. -/
theorem Grouped.depthAfter {tokens : List Token} {items : List Item}
    (grouped : Grouped tokens items) (depth : Nat) :
    TokenKind.depthAfter depth (tokens.map Token.kind) = some depth := by
  induction grouped generalizing depth with
  | nil => rfl
  | token noOpening noClosing _ ih =>
    rw [List.map_cons, TokenKind.depthAfter_other noOpening noClosing, ih]
  | parens opens closes _ _ ihNested ihRest =>
    rw [List.map_cons, opens, TokenKind.depthAfter_opening, List.map_append,
      TokenKind.depthAfter_append, ihNested, Option.bind_some, List.map_cons, closes,
      TokenKind.depthAfter_closing, ihRest]

/-- The tokens outside every parenthesis are the items that are tokens, apart from the
    parentheses among them. -/
theorem Grouped.filterMap_plain? {tokens : List Token} {items : List Item}
    (grouped : Grouped tokens items) : items.filterMap plain? = Token.outside tokens := by
  induction grouped with
  | nil => rfl
  | @token t tokens items noOpening noClosing _ ih =>
    have plain : plain? (.token t) = some t := if_neg (by simp [noOpening, noClosing])
    rw [List.filterMap_cons_some plain, ih, Token.outside, Token.outside,
      Token.outsideFrom_other _ _ noOpening noClosing, if_pos rfl]
  | @parens opening closing inside tokens inner items opens closes nested _ _ ih =>
    have noOpening : plain? (.token opening) = none := if_pos (.inl opens)
    have noClosing : plain? (.token closing) = none := if_pos (.inr closes)
    have noClause : (enclosed inner).filterMap plain? = [] := by
      unfold enclosed
      split <;> rfl
    rw [List.filterMap_cons_none noOpening, List.filterMap_append, noClause, List.nil_append,
      List.filterMap_cons_none noClosing, ih,
      Token.outside_parens opens closes (nested.depthAfter 0)]

/-- A keyword is an item just if it stands outside every parenthesis. -/
theorem Grouped.any_isKeyword {tokens : List Token} {items : List Item}
    (grouped : Grouped tokens items) (keyword : Keyword) :
    items.any (isKeyword keyword) = (Token.outside tokens).any (Token.isKeyword keyword) := by
  rw [← grouped.filterMap_plain?, List.any_filterMap]
  refine congrArg (items.any ·) (funext fun item => ?_)
  cases item with
  | clause inner => rfl
  | token t =>
    by_cases paren : t.kind = .leftParen ∨ t.kind = .rightParen
    · have noKeyword : t.isKeyword keyword = false := by
        rcases paren with opens | closes
        · simp [Token.isKeyword, opens]
        · simp [Token.isKeyword, closes]
      simp [plain?, paren, isKeyword, noKeyword]
    · simp [plain?, paren, isKeyword]

/-- A token outside every parenthesis divides a group into two groups. -/
theorem Grouped.divide {tokens : List Token} {items : List Item} (grouped : Grouped tokens items)
    {front back : List Item} {t : Token} (split : items = front ++ .token t :: back)
    (noOpening : t.kind ≠ .leftParen) (noClosing : t.kind ≠ .rightParen) :
    ∃ before after, tokens = before ++ t :: after ∧ Grouped before front ∧
      Grouped after back := by
  induction grouped generalizing front with
  | nil => simp at split
  | @token first tokens items firstNoOpening firstNoClosing rest ih =>
    cases front with
    | nil =>
      cases split
      exact ⟨[], tokens, rfl, .nil, rest⟩
    | cons item front =>
      obtain ⟨rfl, behind⟩ := List.cons.inj split
      obtain ⟨before, after, rfl, left, right⟩ := ih behind
      exact ⟨first :: before, after, rfl, .token firstNoOpening firstNoClosing left, right⟩
  | @parens opening closing inside tokens inner items opens closes nested rest _ ih =>
    cases front with
    | nil =>
      cases split
      exact absurd opens noOpening
    | cons item front =>
      obtain ⟨rfl, behind⟩ := List.cons.inj split
      -- Between the parentheses no item is a token, so the token stands behind them.
      have noToken : .token t ∉ enclosed inner := by
        unfold enclosed
        split <;> simp
      rcases List.append_eq_append_iff.mp behind with
        ⟨between, rfl, last⟩ | ⟨between, same, last⟩
      · cases between with
        | nil =>
          cases last
          exact absurd closes noClosing
        | cons item between =>
          obtain ⟨rfl, later⟩ := List.cons.inj last
          obtain ⟨before, after, rfl, left, right⟩ := ih later
          exact ⟨opening :: (inside ++ closing :: before), after, by simp,
            .parens opens closes nested left, right⟩
      · cases between with
        | nil =>
          cases last
          exact absurd closes noClosing
        | cons item between =>
          obtain ⟨rfl, -⟩ := List.cons.inj last
          exact absurd (same ▸ List.mem_append_right _ List.mem_cons_self) noToken

theorem exists_groupFrom_eq_ok {stack : List Pending} {tokens : List Token}
    (closes : TokenKind.depthAfter stack.length (tokens.map Token.kind) = some 0)
    (done : List Item) : ∃ items, groupFrom stack done tokens = .ok items := by
  fun_induction groupFrom stack done tokens with
  | case1 done => exact ⟨_, rfl⟩
  | case2 pending outer done => cases closes
  | case3 done t rest stack opens ih =>
    rw [List.map_cons, opens, TokenKind.depthAfter_opening] at closes
    exact ih closes
  | case4 done t rest closing =>
    rw [List.map_cons, closing] at closes
    cases closes
  | case5 done t rest pending outer closing ih =>
    rw [List.map_cons, closing, List.length_cons, TokenKind.depthAfter_closing] at closes
    exact ih closes
  | case6 done t rest stack noOpening noClosing noPartner ih =>
    have other : t.kind ≠ .rightParen := by
      intro closing
      cases stack with
      | nil => exact noClosing closing rfl
      | cons pending outer => exact noPartner pending outer closing rfl
    rw [List.map_cons, TokenKind.depthAfter_other noOpening other] at closes
    exact ih closes

/-- Tokens have items just if their parentheses are balanced. -/
theorem exists_grouped_iff {tokens : List Token} :
    (∃ items, Grouped tokens items) ↔ TokenKind.Balanced (tokens.map Token.kind) := by
  rw [TokenKind.balanced_iff_depthAfter]
  constructor
  · rintro ⟨items, grouped⟩
    exact grouped.depthAfter 0
  · intro closes
    obtain ⟨items, read⟩ := @exists_groupFrom_eq_ok [] tokens closes []
    exact ⟨items, group_eq_ok_iff.mp read⟩

end Item

end DynamicSql.Sql
