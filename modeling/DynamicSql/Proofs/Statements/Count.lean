import DynamicSql.Proofs.Lexing.Legible
import DynamicSql.Proofs.Lexing.Trailing
import DynamicSql.Proofs.Statements.Reading

/-!
# Counts are read back

A count query wraps a query, perhaps without its last ordering, in parentheses.
What is wrapped keeps the parentheses balanced, the literals closed and the
parameters in number, and nothing of it stands outside the parentheses. So the
count is a query that no dialect refuses.
-/

namespace DynamicSql.Sql

namespace Lexeme

theorem isPunctuation_kindFor (keywords : List Keyword) (lexeme : Lexeme) :
    (lexeme.kindFor keywords).isPunctuation = lexeme.kind.isPunctuation := by
  unfold kindFor
  split
  · next word =>
    rw [word]
    split <;> rfl
  · rfl

/-- The punctuation is the same for every reader. -/
theorem filter_isPunctuation_kindFor (keywords : List Keyword) (lexemes : List Lexeme) :
    (lexemes.map (kindFor keywords)).filter TokenKind.isPunctuation = marks lexemes := by
  induction lexemes with
  | nil => rfl
  | cons lexeme rest ih =>
    simp only [marks, List.map_cons, List.filter_cons, isPunctuation_kindFor] at ih ⊢
    split
    · next isMark =>
      have noWord : lexeme.kind ≠ .word := by
        intro word
        rw [word] at isMark
        cases isMark
      rw [ih, kindFor, if_neg noWord]
    · exact ih

/-- The depth and the parameters of a text are those of its punctuation. -/
theorem depthAfter_of_marks {keywords : List Keyword} {lexemes others : List Lexeme}
    (same : marks lexemes = marks others) (depth : Nat) :
    TokenKind.depthAfter depth (lexemes.map (kindFor keywords)) =
      TokenKind.depthAfter depth (others.map (kindFor keywords)) := by
  rw [← TokenKind.depthAfter_filter, filter_isPunctuation_kindFor, same,
    ← filter_isPunctuation_kindFor keywords, TokenKind.depthAfter_filter]

theorem count_question_of_marks {keywords : List Keyword} {lexemes others : List Lexeme}
    (same : marks lexemes = marks others) :
    (lexemes.map (kindFor keywords)).count .question =
      (others.map (kindFor keywords)).count .question := by
  rw [← List.count_filter (p := TokenKind.isPunctuation) (by rfl), filter_isPunctuation_kindFor,
    same, ← filter_isPunctuation_kindFor keywords, List.count_filter (by rfl)]

end Lexeme

namespace Statement

/-- What a count query wraps is the text of a cut with balanced parentheses and all the
    parameters of the statement. -/
theorem exists_cut_countBody {sql : String} {statement : Statement}
    (read : parse sql = .ok statement) :
    ∃ lexemes, Lexeme.Cut lexemes ∧
      statement.countBody = String.ofList (Lexeme.sources lexemes) ∧
      TokenKind.depthAfter 0 (lexemes.map (Lexeme.kindFor Keyword.ofPaging)) = some 0 ∧
      (lexemes.map (Lexeme.kindFor Keyword.ofPaging)).count .question = statement.parameters := by
  obtain ⟨start, lexemes, cut, placed, -, grouped⟩ := parse_eq_ok read
  have kinds : statement.tokens.map Token.kind =
      lexemes.map (Lexeme.kindFor Keyword.ofPaging) := by
    rw [placed, Lexeme.map_kind_place]
  have whole : ∃ lexemes, Lexeme.Cut lexemes ∧
      statement.text = String.ofList (Lexeme.sources lexemes) ∧
      TokenKind.depthAfter 0 (lexemes.map (Lexeme.kindFor Keyword.ofPaging)) = some 0 ∧
      (lexemes.map (Lexeme.kindFor Keyword.ofPaging)).count .question = statement.parameters :=
    ⟨lexemes, cut, text_of_place placed, kinds ▸ grouped.depthAfter 0, by rw [parameters, kinds]⟩
  unfold countBody
  split
  · exact whole
  · next order found =>
    split
    · exact whole
    · next noneBehind =>
      obtain ⟨isOrder, before, after, _, _, split, left, -⟩ := grouped.divide_last found
      have sorted := tokens_sorted read
      have noParameter : (after.map Token.kind).count .question = 0 := by
        rw [Token.any_start sorted split, Bool.not_eq_true, List.any_eq_false] at noneBehind
        rw [List.count_eq_zero]
        intro member
        obtain ⟨t, inAfter, isQuestion⟩ := List.mem_map.mp member
        exact noneBehind t inAfter (by simp [isQuestion])
      rw [Token.takeWhile_start sorted split]
      rw [placed] at split
      obtain ⟨front, back, rfl, frontPlaced, -⟩ := Lexeme.place_eq_append split
      obtain ⟨frontCut, -, -⟩ := Lexeme.cut_append.mp cut
      have frontKinds : before.map Token.kind =
          front.map (Lexeme.kindFor Keyword.ofPaging) := by
        rw [← frontPlaced, Lexeme.map_kind_place]
      obtain ⟨shorter, shorterCut, covers, marks⟩ :=
        Lexeme.exists_cut_dropTrailingBlanks frontCut
      refine ⟨shorter, shorterCut, ?_, ?_, ?_⟩
      · rw [← frontPlaced, Lexeme.sourceOf_place, Text.trimEnd, String.toList_ofList,
          covers]
      · rw [Lexeme.depthAfter_of_marks marks, ← frontKinds]
        exact left.depthAfter 0
      · rw [Lexeme.count_question_of_marks marks, ← frontKinds, parameters, placed, split]
        simp [isOrder, noParameter]

/-- A statement without an ordering outside every parenthesis is wrapped whole. -/
theorem countBody_of_unordered {statement : Statement}
    (unordered : statement.hasOutside .ORDER = false) :
    statement.countBody = statement.text := by
  rw [countBody, Item.last?_eq_none_iff.mpr unordered]

end Statement

namespace Dialect

open Lexeme

/-- The tokens of a count query in front of what it wraps. -/
def countOpening : List (TokenKind × String) :=
  [(.keyword .SELECT, "select"), (.space, " "), (.word, "count"), (.leftParen, "("), (.word, "1"),
    (.rightParen, ")"), (.space, " "), (.keyword .FROM, "from"), (.space, " "),
    (.leftParen, "(")]

/-- The tokens of a count query behind what it wraps. -/
def countClosing : List (TokenKind × String) :=
  [(.rightParen, ")"), (.space, " "), (.word, countAlias)]

theorem legible_countOpening : ∀ token ∈ countOpening, Legible Keyword.ofPaging token := by
  simp only [countOpening, List.forall_mem_cons, List.not_mem_nil, false_imp_iff, implies_true,
    and_true, legible_space, legible_leftParen, legible_rightParen, true_and]
  refine ⟨?_, ?_, ?_, ?_⟩ <;> exact legible_word rfl (by decide) (by decide +kernel)

theorem legible_countClosing : ∀ token ∈ countClosing, Legible Keyword.ofPaging token := by
  simp only [countClosing, List.forall_mem_cons, List.not_mem_nil, false_imp_iff, implies_true,
    and_true, legible_space, legible_rightParen, true_and]
  exact legible_word rfl (by decide) (by decide +kernel)

/-- What a count query wraps stands inside one parenthesis. -/
theorem depthAfter_countOpening :
    TokenKind.depthAfter 0 (countOpening.map Prod.fst) = some 1 := rfl

/-- The lexemes of a count query around those of what it wraps. -/
def countLexemes (lexemes : List Lexeme) : List Lexeme :=
  countOpening.map ofFace ++ (lexemes ++ countClosing.map ofFace)

section CountLexemes

variable {lexemes : List Lexeme}

theorem map_kindFor_countLexemes : (countLexemes lexemes).map (kindFor Keyword.ofPaging) =
    countOpening.map Prod.fst ++
      (lexemes.map (kindFor Keyword.ofPaging) ++ countClosing.map Prod.fst) := by
  rw [countLexemes, List.map_append, List.map_append, map_kindFor_ofFace legible_countOpening,
    map_kindFor_ofFace legible_countClosing]

theorem sources_countLexemes : String.ofList (sources (countLexemes lexemes)) =
    "select count(1) from (" ++ String.ofList (sources lexemes) ++ ") " ++ countAlias := by
  have opening : String.ofList (sources (countOpening.map ofFace)) =
      "select count(1) from (" := by
    rfl
  have closing : String.ofList (sources (countClosing.map ofFace)) = ") " ++ countAlias := by
    decide +kernel
  rw [countLexemes, sources_append, sources_append, String.ofList_append, String.ofList_append,
    opening, closing, String.append_assoc, String.append_assoc]

/-- A parenthesis meets the text on both sides, so no lexeme of the text grows. -/
theorem cut_countLexemes (cut : Cut lexemes) : Cut (countLexemes lexemes) := by
  have openingCut := cut_ofFace legible_countOpening (by decide)
  have closingCut := cut_ofFace legible_countClosing (by decide)
  refine cut_append.mpr ⟨openingCut, cut_append.mpr ⟨cut, closingCut, ?_⟩, ?_⟩
  · intro last _ first head joins same
    cases head
    rw [same] at joins
    cases joins
  · intro last final first _ joins
    cases final
    cases joins

variable (balanced : TokenKind.depthAfter 0 (lexemes.map (kindFor Keyword.ofPaging)) = some 0)
include balanced

/-- A group wrapped for a count is read as it is wrapped. -/
theorem exists_parse_count (cut : Cut lexemes) :
    ∃ count : Statement,
      Statement.parse ("select count(1) from (" ++ String.ofList (sources lexemes) ++ ") " ++
        countAlias) = .ok count ∧
      count.tokens = place Keyword.ofPaging 0 (countLexemes lexemes) ∧
      Item.Grouped count.tokens count.items ∧
      count.text = "select count(1) from (" ++ String.ofList (sources lexemes) ++ ") " ++
        countAlias := by
  rw [← sources_countLexemes]
  refine Statement.parse_of_cut (cut_countLexemes cut) ?_ ?_
  · rw [map_kindFor_countLexemes]
    constructor
    · intro kind head
      cases head
      decide
    · intro kind last
      rw [← List.append_assoc, List.getLast?_append] at last
      cases last
      decide
  · have inside := TokenKind.depthAfter_add balanced 1
    rw [Nat.zero_add] at inside
    rw [map_kindFor_countLexemes, TokenKind.depthAfter_append, depthAfter_countOpening,
      Option.bind_some, TokenKind.depthAfter_append, inside]
    rfl

/-- Nothing of what a count query wraps stands outside its parentheses. -/
theorem kind_of_mem_outside_count {t : Token}
    (member : t ∈ Token.outside (place Keyword.ofPaging 0 (countLexemes lexemes))) :
    t.kind ∈ countOpening.map Prod.fst ++ countClosing.map Prod.fst := by
  have opened (start : Nat) : TokenKind.depthAfter 0 ((place Keyword.ofPaging start
      (countOpening.map ofFace)).map Token.kind) = some 1 := by
    rw [map_kind_place, map_kindFor_ofFace legible_countOpening, depthAfter_countOpening]
  have wrapped (start : Nat) : TokenKind.depthAfter 0
      ((place Keyword.ofPaging start lexemes).map Token.kind) = some 0 := by
    rw [map_kind_place, balanced]
  have still (start : Nat) : TokenKind.depthAfter 1
      ((place Keyword.ofPaging start lexemes).map Token.kind) = some 1 :=
    TokenKind.depthAfter_add (wrapped start) 1
  rw [Token.outside, countLexemes, place_append, Token.outsideFrom_append (opened _),
    place_append, Token.outsideFrom_append (still _),
    Token.outsideFrom_inside (wrapped _) Nat.one_pos, List.nil_append] at member
  rw [List.mem_append]
  rcases List.mem_append.mp member with inOpening | inClosing
  · refine .inl ?_
    rw [← map_kindFor_ofFace legible_countOpening, ← map_kind_place 0]
    exact List.mem_map_of_mem (Token.mem_of_mem_outsideFrom inOpening)
  · refine .inr ?_
    rw [← map_kindFor_ofFace legible_countClosing, ← map_kind_place]
    exact List.mem_map_of_mem (Token.mem_of_mem_outsideFrom inClosing)

end CountLexemes

/-- A count query limits and orders nothing itself. -/
theorem not_mem_count {kind : TokenKind} {keyword : Keyword}
    (member : kind ∈ countOpening.map Prod.fst ++ countClosing.map Prod.fst)
    (limits : keyword ∈ [.ORDER, .LIMIT, .OFFSET, .FETCH, .TOP]) :
    (kind == .keyword keyword) = false := by
  have none : ∀ kind ∈ countOpening.map Prod.fst ++ countClosing.map Prod.fst,
      ∀ keyword ∈ [.ORDER, .LIMIT, .OFFSET, .FETCH, .TOP],
        (kind == TokenKind.keyword keyword) = false := by
    decide
  exact none kind member keyword limits

theorem mem_limits_of_mem_competing {dialect : Dialect} {keyword : Keyword}
    (competes : keyword ∈ dialect.competing) :
    keyword ∈ [.ORDER, .LIMIT, .OFFSET, .FETCH, .TOP] := by
  revert keyword
  cases dialect <;> decide

/-- A count of a query binds what the query binds. None of the clauses by which a query limits
    or orders itself stands outside its parentheses, so every dialect accepts it, and a count of
    it would wrap it whole. -/
theorem count_reads_back {dialect : Dialect} {sql counted : String}
    (answer : dialect.countOfText sql = .ok (some counted)) :
    ∃ query count : Statement, Statement.parse sql = .ok query ∧
      Statement.parse counted = .ok count ∧ count.parameters = query.parameters ∧
      (∀ t ∈ Token.outside count.tokens, ∀ keyword ∈ [.ORDER, .LIMIT, .OFFSET, .FETCH, .TOP],
        t.isKeyword keyword = false) ∧
      (∀ other : Dialect, other.accepts count = true) ∧ count.countBody = counted := by
  obtain ⟨query, read, rewritten⟩ := countOfText_eq_ok.mp answer
  obtain ⟨-, rfl⟩ := count?_eq_some.mp rewritten
  obtain ⟨lexemes, cut, body, balanced, parameters⟩ := Statement.exists_cut_countBody read
  obtain ⟨count, readCount, tokens, grouped, text⟩ := exists_parse_count balanced cut
  rw [← body] at readCount text
  have kinds : count.tokens.map Token.kind = countOpening.map Prod.fst ++
      (lexemes.map (kindFor Keyword.ofPaging) ++ countClosing.map Prod.fst) := by
    rw [tokens, map_kind_place, map_kindFor_countLexemes]
  have noClause : ∀ t ∈ Token.outside count.tokens,
      ∀ keyword ∈ [.ORDER, .LIMIT, .OFFSET, .FETCH, .TOP], t.isKeyword keyword = false := by
    intro t member keyword limits
    rw [tokens] at member
    exact not_mem_count (kind_of_mem_outside_count balanced member) limits
  have hasNone : ∀ keyword ∈ [.ORDER, .LIMIT, .OFFSET, .FETCH, .TOP],
      count.hasOutside keyword = false := by
    intro keyword limits
    rw [Statement.hasOutside_eq grouped, List.any_eq_false]
    intro t inOutside
    simp [noClause t inOutside keyword limits]
  refine ⟨query, count, read, readCount, ?_, noClause, fun other => ?_, ?_⟩
  · rw [Statement.parameters, kinds, List.count_append, List.count_append, parameters]
    show 0 + (_ + 0) = _
    rw [Nat.zero_add, Nat.add_zero]
  · rw [accepts_iff, Statement.isQuery_iff, kinds]
    exact ⟨rfl, fun keyword competes => hasNone keyword (mem_limits_of_mem_competing competes)⟩
  · rw [Statement.countBody_of_unordered (hasNone .ORDER List.mem_cons_self), text]

theorem count_reads_back_of_ordered :
    let counted := "select count(1) from (select a from t where b = ?) _jbatis_tmp_cnt_"
    offsetFetch.countOfText "select a from t where b = ? order by c;" = .ok (some counted) ∧
      ∃ count : Statement, Statement.parse counted = .ok count ∧
        limitOffset.accepts count = true ∧ count.countBody = counted := by
  intro counted
  have answer : offsetFetch.countOfText "select a from t where b = ? order by c;" =
      .ok (some counted) := by
    apply eq_ok_of_toOption
    decide +kernel
  obtain ⟨_, count, _, read, _, _, accepted, body⟩ := count_reads_back answer
  exact ⟨answer, count, read, accepted limitOffset, body⟩

end Dialect

end DynamicSql.Sql
