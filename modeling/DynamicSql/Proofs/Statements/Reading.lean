import DynamicSql.Proofs.Grouping.Depth
import DynamicSql.Proofs.Lexing.Tokens
import DynamicSql.Proofs.Outcome
import DynamicSql.Sql.Dialect

/-!
# Statements that are read

A statement is a stretch of the cut of its text, so what a rewriting writes out
is read lexeme by lexeme. What a dialect asks of a statement depends on the
kinds of its tokens only, not on where they stand.
-/

namespace DynamicSql.Sql

namespace Token

section Sorted

variable {tokens front back : List Token} {t : Token}
  (sorted : tokens.Pairwise (·.start < ·.start)) (split : tokens = front ++ t :: back)
include sorted split

/-- Where tokens begin one after the other, those in front of one are those that begin before it. -/
theorem takeWhile_start : tokens.takeWhile (·.start < t.start) = front := by
  rw [split] at sorted ⊢
  obtain ⟨-, -, across⟩ := List.pairwise_append.mp sorted
  rw [List.takeWhile_append_of_pos, List.takeWhile_cons_of_neg (by simp), List.append_nil]
  intro other member
  exact decide_eq_true (across other member t List.mem_cons_self)

/-- And those behind it are those that begin later. -/
theorem any_start (p : Token → Bool) :
    tokens.any (fun other => p other && t.start < other.start) = back.any p := by
  rw [split] at sorted ⊢
  obtain ⟨-, behind, across⟩ := List.pairwise_append.mp sorted
  rw [Bool.eq_iff_iff, List.any_eq_true, List.any_eq_true]
  simp only [Bool.and_eq_true, decide_eq_true_eq]
  constructor
  · rintro ⟨other, member, holds, later⟩
    rcases List.mem_append.mp member with inFront | here
    · have earlier := across other inFront t List.mem_cons_self
      omega
    · rcases List.mem_cons.mp here with rfl | inBack
      · omega
      · exact ⟨other, inBack, holds⟩
  · rintro ⟨other, member, holds⟩
    exact ⟨other, by simp [member], holds, (List.pairwise_cons.mp behind).1 other member⟩

end Sorted

end Token

namespace Statement

/-- A statement that was read is a stretch of a cut with its groups. -/
theorem parse_eq_ok {sql : String} {statement : Statement} (read : parse sql = .ok statement) :
    ∃ start lexemes, Lexeme.Cut lexemes ∧
      statement.tokens = Lexeme.place Keyword.ofPaging start lexemes ∧
      TokenKind.Trimmed (statement.tokens.map Token.kind) ∧
      Item.Grouped statement.tokens statement.items := by
  obtain ⟨tokens, tokenized, more⟩ := bind_eq_ok_iff.mp read
  obtain ⟨items, grouped, last⟩ := bind_eq_ok_iff.mp more
  cases last
  obtain ⟨lexemes, cut, -, placed⟩ := tokenize_eq_ok_iff.mp tokenized
  obtain ⟨front, back, split, trimmed, -, -⟩ := Token.trim_spec tokens
  rw [split] at placed
  obtain ⟨lexemes, behind, rfl, placed, -⟩ := Lexeme.place_eq_append placed
  obtain ⟨before, lexemes, rfl, -, placed⟩ := Lexeme.place_eq_append placed
  obtain ⟨cut, -, -⟩ := Lexeme.cut_append.mp cut
  obtain ⟨-, cut, -⟩ := Lexeme.cut_append.mp cut
  exact ⟨_, lexemes, cut, placed.symm, trimmed, Item.group_eq_ok_iff.mp grouped⟩

/-- The tokens of a statement begin one after the other. -/
theorem tokens_sorted {sql : String} {statement : Statement} (read : parse sql = .ok statement) :
    statement.tokens.Pairwise (·.start < ·.start) := by
  obtain ⟨start, lexemes, cut, placed, -⟩ := parse_eq_ok read
  rw [placed]
  exact Lexeme.place_sorted cut

/-- The text of a cut is read as it stands. -/
theorem parse_of_cut {lexemes : List Lexeme} (cut : Lexeme.Cut lexemes)
    (trimmed : TokenKind.Trimmed (lexemes.map (Lexeme.kindFor Keyword.ofPaging)))
    (balanced : TokenKind.depthAfter 0 (lexemes.map (Lexeme.kindFor Keyword.ofPaging)) =
      some 0) :
    ∃ statement, parse (String.ofList (Lexeme.sources lexemes)) = .ok statement ∧
      statement.tokens = Lexeme.place Keyword.ofPaging 0 lexemes ∧
      Item.Grouped statement.tokens statement.items ∧
      statement.text = String.ofList (Lexeme.sources lexemes) := by
  have tokenized : tokenize (String.ofList (Lexeme.sources lexemes)) Keyword.ofPaging =
      .ok (Lexeme.place Keyword.ofPaging 0 lexemes) :=
    tokenize_eq_ok_iff.mpr ⟨lexemes, cut, by rw [String.toList_ofList], rfl⟩
  rw [← Lexeme.map_kind_place 0] at trimmed balanced
  obtain ⟨items, grouped⟩ := Item.exists_grouped_iff.mpr
    (TokenKind.balanced_iff_depthAfter.mpr balanced)
  refine ⟨⟨Lexeme.place Keyword.ofPaging 0 lexemes, items⟩, ?_, rfl, grouped,
    Lexeme.sourceOf_place _ _ _⟩
  simp only [parse, tokenized, Token.trim_of_trimmed trimmed, bind, Except.bind,
    Item.group_eq_ok_iff.mpr grouped, pure, Except.pure]

/-- The text of a statement is that of its lexemes. -/
theorem text_of_place {statement : Statement} {start : Nat} {lexemes : List Lexeme}
    (placed : statement.tokens = Lexeme.place Keyword.ofPaging start lexemes) :
    statement.text = String.ofList (Lexeme.sources lexemes) := by
  rw [text, placed, Lexeme.sourceOf_place]

theorem hasOutside_eq {statement : Statement}
    (grouped : Item.Grouped statement.tokens statement.items) (keyword : Keyword) :
    statement.hasOutside keyword =
      (Token.outside statement.tokens).any (Token.isKeyword keyword) :=
  grouped.any_isKeyword keyword

/-- A keyword in front of which all parentheses are closed stands outside. -/
theorem hasOutside_of_kinds {statement : Statement} {keyword : Keyword}
    {before after : List TokenKind}
    (grouped : Item.Grouped statement.tokens statement.items)
    (split : statement.tokens.map Token.kind = before ++ .keyword keyword :: after)
    (closed : TokenKind.depthAfter 0 before = some 0) :
    statement.hasOutside keyword = true := by
  obtain ⟨front, more, same, rfl, tail⟩ := List.map_eq_append_iff.mp split
  obtain ⟨t, back, rfl, kind, -⟩ := List.map_eq_cons_iff.mp tail
  have here : Token.outsideFrom 0 (t :: back) = t :: Token.outsideFrom 0 back := by
    rw [Token.outsideFrom_other _ _ (by simp [kind]) (by simp [kind]), if_pos rfl]
  rw [hasOutside_eq grouped, same, Token.outside, Token.outsideFrom_append closed, here]
  simp [Token.isKeyword, kind]

/-- The count of parameters that a statement binds. -/
def parameters (statement : Statement) : Nat :=
  (statement.tokens.map Token.kind).count .question

end Statement

namespace Statement

/-- A query is a statement whose first keyword is SELECT, wherever that stands. -/
theorem isQuery_iff_keyword? {statement : Statement} :
    statement.isQuery = true ↔ statement.tokens.findSome? Token.keyword? = some .SELECT := by
  rw [← Token.keyword?_firstKeyword?, isQuery]
  cases Token.firstKeyword? statement.tokens with
  | none => simp
  | some t =>
    cases kind : t.kind <;> simp [Token.isKeyword, Token.keyword?, TokenKind.keyword?, kind]

theorem isQuery_iff {statement : Statement} :
    statement.isQuery = true ↔
      (statement.tokens.map Token.kind).findSome? TokenKind.keyword? = some .SELECT := by
  rw [List.findSome?_map, isQuery_iff_keyword?]
  rfl

end Statement

namespace Item

section Last

variable {keyword : Keyword} {items : List Item}

theorem exists_token_of_isKeyword {item : Item} (isKeyword : item.isKeyword keyword = true) :
    ∃ t, item = .token t := by
  cases item with
  | token t => exact ⟨t, rfl⟩
  | clause inner => cases isKeyword

theorem last?_eq_none_iff :
    last? keyword items = none ↔ items.any (isKeyword keyword) = false := by
  rw [last?, ← List.any_reverse, List.any_eq_false]
  cases found : items.reverse.find? (·.isKeyword keyword) with
  | none => exact iff_of_true rfl (List.find?_eq_none.mp found)
  | some item =>
    have isKeyword : item.isKeyword keyword = true := List.find?_some found
    obtain ⟨t, rfl⟩ := exists_token_of_isKeyword isKeyword
    exact iff_of_false (by simp [token?])
      fun nowhere => nowhere _ (List.mem_of_find?_eq_some found) isKeyword

/-- Behind the last occurrence of a keyword it does not occur. -/
theorem last?_eq_some {t : Token} (found : last? keyword items = some t) :
    ∃ front back, items = front ++ .token t :: back ∧ isKeyword keyword (.token t) = true ∧
      back.any (isKeyword keyword) = false := by
  obtain ⟨item, found, isToken⟩ := Option.bind_eq_some_iff.mp found
  obtain ⟨other, rfl⟩ := exists_token_of_isKeyword (List.find?_some found)
  cases isToken
  obtain ⟨isKeyword, behind, before, reversed, later⟩ := List.find?_eq_some_iff_append.mp found
  refine ⟨before.reverse, behind.reverse, ?_, isKeyword, ?_⟩
  · rw [← List.reverse_reverse items, reversed]
    simp
  · rw [List.any_reverse, List.any_eq_false]
    simpa using later

/-- The last occurrence of a keyword outside every parenthesis divides the tokens into groups. -/
theorem Grouped.divide_last {tokens : List Token} {t : Token} (grouped : Grouped tokens items)
    (last : last? keyword items = some t) :
    t.kind = .keyword keyword ∧ ∃ before after front back, tokens = before ++ t :: after ∧
      Grouped before front ∧ Grouped after back := by
  obtain ⟨front, back, split, isKeyword, -⟩ := last?_eq_some last
  have kind : t.kind = .keyword keyword := by
    simpa [Item.isKeyword, Token.isKeyword] using isKeyword
  obtain ⟨before, after, same, left, right⟩ := grouped.divide split (by simp [kind])
    (by simp [kind])
  exact ⟨kind, before, after, front, back, same, left, right⟩

end Last

end Item

namespace Dialect

variable {dialect : Dialect} {sql : String}

theorem accepts_iff {statement : Statement} :
    dialect.accepts statement = true ↔ statement.isQuery = true ∧
      ∀ keyword ∈ dialect.competing, statement.hasOutside keyword = false := by
  simp [accepts]

theorem pageOfText_eq_ok {skip max : Nat} {answer : Option String} :
    dialect.pageOfText sql skip max = .ok answer ↔
      ∃ statement, Statement.parse sql = .ok statement ∧
        dialect.page? statement skip max = answer := by
  rw [pageOfText, bind_eq_ok_iff]
  simp only [pure, Except.pure, Except.ok.injEq]

theorem countOfText_eq_ok {answer : Option String} :
    dialect.countOfText sql = .ok answer ↔
      ∃ statement, Statement.parse sql = .ok statement ∧ dialect.count? statement = answer := by
  rw [countOfText, bind_eq_ok_iff]
  simp only [pure, Except.pure, Except.ok.injEq]

theorem page?_eq_some {statement : Statement} {skip max : Nat} {paged : String} :
    dialect.page? statement skip max = some paged ↔
      dialect.accepts statement = true ∧
        statement.text ++ dialect.pageClause statement skip max = paged := by
  unfold page?
  split <;> simp_all

theorem count?_eq_some {statement : Statement} {counted : String} :
    dialect.count? statement = some counted ↔
      dialect.accepts statement = true ∧
        "select count(1) from (" ++ statement.countBody ++ ") " ++ countAlias = counted := by
  unfold count?
  split <;> simp_all

/-- A statement that is not accepted is neither paged nor counted. -/
theorem answers_none {statement : Statement} (read : Statement.parse sql = .ok statement)
    (refused : dialect.accepts statement = false) :
    (∀ skip max, dialect.pageOfText sql skip max = .ok none) ∧
      dialect.countOfText sql = .ok none := by
  refine ⟨fun skip max => pageOfText_eq_ok.mpr ⟨statement, read, ?_⟩,
    countOfText_eq_ok.mpr ⟨statement, read, ?_⟩⟩
  · rw [page?, if_neg (by simp [refused])]
  · rw [count?, if_neg (by simp [refused])]

end Dialect

end DynamicSql.Sql
