import DynamicSql.Proofs.Lexing.Legible
import DynamicSql.Proofs.Statements.Reading

/-!
# Pages are read back

A page of a query is the query with a clause behind it. The clause is written in
tokens that are read again one by one, and one of its keywords says to every
dialect that the page limits itself. So a page is neither paged nor counted
again.
-/

namespace DynamicSql.Sql

namespace Lexeme

/-- Tokens that can be written behind a statement: they begin with a space, they do not end
    in what is trimmed, and they close what they open. -/
structure Appendable (keywords : List Keyword) (tokens : List (TokenKind × String)) : Prop where
  legible : ∀ token ∈ tokens, Legible keywords token
  apart : (tokens.map ofFace).IsChain Apart
  opens : ∀ token ∈ tokens.head?, token.1 = .space
  closes : ∀ token ∈ tokens.getLast?, token.1 ≠ .space ∧ token.1 ≠ .semicolon
  balanced : TokenKind.depthAfter 0 (tokens.map Prod.fst) = some 0

variable {keywords : List Keyword}

theorem appendable_nil : Appendable keywords [] :=
  ⟨by simp, .nil, by simp, by simp, rfl⟩

theorem Appendable.append {tokens more : List (TokenKind × String)}
    (first : Appendable keywords tokens) (second : Appendable keywords more) :
    Appendable keywords (tokens ++ more) := by
  cases more with
  | nil => simpa using first
  | cons token more =>
    refine ⟨?_, ?_, ?_, ?_, ?_⟩
    · intro other member
      rcases List.mem_append.mp member with inFirst | inSecond
      · exact first.legible other inFirst
      · exact second.legible other inSecond
    · rw [List.map_append, List.isChain_append]
      refine ⟨first.apart, second.apart, fun last final next head joins same => ?_⟩
      obtain ⟨closing, ends, rfl⟩ := Option.map_eq_some_iff.mp (List.getLast?_map ▸ final)
      cases head
      have space : (ofFace token).kind = .space := by
        rw [ofFace, second.opens token rfl]
        rfl
      have noSpace := (first.closes closing ends).1
      rw [space] at same
      unfold ofFace at same
      split at same
      · cases same
      · exact noSpace same
    · intro other head
      cases tokens with
      | nil => exact second.opens other head
      | cons opening rest => exact first.opens other head
    · intro other last
      rw [List.getLast?_append_cons] at last
      exact second.closes other last
    · rw [List.map_append, TokenKind.depthAfter_append, first.balanced]
      exact second.balanced

/-- A word behind a space. -/
theorem appendable_word {kind : TokenKind} {text : String}
    (legible : Legible keywords (kind, text)) (isWord : kind.isWord = true) :
    Appendable keywords [(.space, " "), (kind, text)] where
  legible := List.forall_mem_cons.mpr ⟨legible_space, by simpa using legible⟩
  apart := by simp [ofFace, Apart, isWord, show TokenKind.space.isWord = false from rfl]
  opens := by simp
  closes := by
    intro token last
    cases last
    constructor <;> (rintro rfl; cases isWord)
  balanced := by
    refine TokenKind.depthAfter_of_plain ?_ 0
    simp only [List.map_cons, List.map_nil, List.forall_mem_cons, List.not_mem_nil,
      false_imp_iff, implies_true, and_true, ne_eq, reduceCtorEq, not_false_eq_true, true_and]
    constructor <;> (rintro rfl; cases isWord)

theorem appendable_spaced {words : List (TokenKind × String)}
    (legible : ∀ word ∈ words, Legible keywords word ∧ word.1.isWord = true) :
    Appendable keywords (spaced words) := by
  induction words with
  | nil => exact appendable_nil
  | cons word rest ih =>
    obtain ⟨⟨first, isWord⟩, others⟩ := List.forall_mem_cons.mp legible
    exact (appendable_word first isWord).append (ih others)

end Lexeme

namespace Statement

theorem map_kind_eq (tokens : List Token) :
    tokens.map Token.kind = (tokens.map Token.face).map Prod.fst := by
  rw [List.map_map]
  rfl

/-- A statement with tokens written behind it is read with just these tokens more. -/
theorem parse_append {sql : String} {statement : Statement} (read : parse sql = .ok statement)
    (some : statement.tokens ≠ []) {more : List (TokenKind × String)}
    (appendable : Lexeme.Appendable Keyword.ofPaging more) :
    ∃ longer, parse (statement.text ++ String.ofList (more.flatMap (·.2.toList))) = .ok longer ∧
      Item.Grouped longer.tokens longer.items ∧
      longer.text = statement.text ++ String.ofList (more.flatMap (·.2.toList)) ∧
      longer.tokens.map Token.face = statement.tokens.map Token.face ++ more := by
  obtain ⟨start, lexemes, cut, placed, trimmed, grouped⟩ := parse_eq_ok read
  have kinds : statement.tokens.map Token.kind =
      lexemes.map (Lexeme.kindFor Keyword.ofPaging) := by
    rw [placed, Lexeme.map_kind_place]
  have moreKinds := Lexeme.map_kindFor_ofFace appendable.legible
  have whole : statement.text ++ String.ofList (more.flatMap (·.2.toList)) =
      String.ofList (Lexeme.sources (lexemes ++ more.map Lexeme.ofFace)) := by
    rw [text_of_place placed, Lexeme.sources_append, Lexeme.sources_ofFace,
      String.ofList_append]
  have wholeCut : Lexeme.Cut (lexemes ++ more.map Lexeme.ofFace) := by
    -- The statement does not end in a blank, with which what is behind it begins.
    refine Lexeme.cut_append.mpr ⟨cut, Lexeme.cut_ofFace appendable.legible appendable.apart,
      fun last final first head joins same => ?_⟩
    have closing := trimmed.closes (last.kindFor Keyword.ofPaging) (by
      rw [kinds, List.getLast?_map, final]
      rfl)
    obtain ⟨token, opening, rfl⟩ := Option.map_eq_some_iff.mp (List.head?_map ▸ head)
    have space : last.kind = .space := by
      rw [same, Lexeme.ofFace, appendable.opens token opening]
      rfl
    exact closing.1 ((Lexeme.kindFor_eq_iff rfl).mpr space)
  rw [kinds] at trimmed
  have wholeTrimmed : TokenKind.Trimmed ((lexemes ++ more.map Lexeme.ofFace).map
      (Lexeme.kindFor Keyword.ofPaging)) := by
    rw [List.map_append]
    refine trimmed.append ?_ ?_
    · rw [← kinds]
      simpa using some
    · intro kind last
      rw [moreKinds, List.getLast?_map] at last
      obtain ⟨token, final, rfl⟩ := Option.map_eq_some_iff.mp last
      exact appendable.closes token final
  have wholeBalanced : TokenKind.depthAfter 0 ((lexemes ++ more.map Lexeme.ofFace).map
      (Lexeme.kindFor Keyword.ofPaging)) = Option.some 0 := by
    rw [List.map_append, TokenKind.depthAfter_append, ← kinds, grouped.depthAfter, moreKinds]
    exact appendable.balanced
  obtain ⟨longer, read, tokens, grouped, text⟩ := parse_of_cut wholeCut wholeTrimmed wholeBalanced
  refine ⟨longer, whole ▸ read, grouped, whole ▸ text, ?_⟩
  rw [tokens, placed, Lexeme.map_face_place, Lexeme.map_face_place, List.map_append,
    Lexeme.map_face_ofFace appendable.legible]

end Statement

namespace Dialect

open Lexeme

/-- The tokens of the rows after the first `skip`, at most `max` of them. -/
def rowsTokens (skip max : Nat) : List (TokenKind × String) :=
  spaced [(.keyword .OFFSET, "OFFSET"), (.word, toString skip), (.word, "ROWS"),
    (.keyword .FETCH, "FETCH"), (.word, "NEXT"), (.word, toString max), (.word, "ROWS"),
    (.word, "ONLY")]

/-- The tokens of an ordering by nothing. -/
def orderingTokens : List (TokenKind × String) :=
  spaced [(.keyword .ORDER, "ORDER"), (.keyword .BY, "BY"), (.leftParen, "(")] ++
    (.keyword .SELECT, "SELECT") :: spaced [(.word, "NULL")] ++ [(.rightParen, ")")]

/-- The tokens of the clause for a page of a query with or without an ordering. -/
def clauseTokens (dialect : Dialect) (ordered : Bool) (skip max : Nat) :
    List (TokenKind × String) :=
  match dialect with
  | limitOffset =>
    spaced [(.keyword .LIMIT, "LIMIT"), (.word, toString max)] ++
      if 0 < skip then spaced [(.keyword .OFFSET, "OFFSET"), (.word, toString skip)] else []
  | sqlServer => (if ordered then [] else orderingTokens) ++ rowsTokens skip max
  | offsetFetch => rowsTokens skip max

/-- The clause is written as its tokens. -/
theorem toList_pageClause (dialect : Dialect) (query : Statement) (skip max : Nat) :
    (dialect.pageClause query skip max).toList =
      (dialect.clauseTokens (query.hasOutside .ORDER) skip max).flatMap (·.2.toList) := by
  cases dialect with
  | limitOffset =>
    simp only [pageClause, clauseTokens]
    split <;> simp [spaced]
  | sqlServer =>
    simp only [pageClause, clauseTokens, rowsClause, rowsTokens, orderingTokens]
    split <;> simp [spaced]
  | offsetFetch => simp [pageClause, clauseTokens, rowsClause, rowsTokens, spaced]

theorem appendable_rowsTokens (skip max : Nat) :
    Appendable Keyword.ofPaging (rowsTokens skip max) := by
  refine appendable_spaced ?_
  simp only [List.forall_mem_cons, List.not_mem_nil, false_imp_iff, implies_true, and_true,
    legible_number, true_and]
  refine ⟨⟨?_, rfl⟩, rfl, ⟨?_, rfl⟩, ⟨?_, rfl⟩, ⟨?_, rfl⟩, rfl, ⟨?_, rfl⟩, ⟨?_, rfl⟩⟩ <;>
    exact legible_word rfl (by decide) (by decide +kernel)

theorem appendable_orderingTokens : Appendable Keyword.ofPaging orderingTokens where
  legible := by
    simp only [orderingTokens, spaced, List.flatMap_cons, List.flatMap_nil, List.cons_append,
      List.nil_append, List.append_nil, List.forall_mem_cons, List.not_mem_nil, false_imp_iff,
      implies_true, and_true, legible_space, legible_leftParen, legible_rightParen, true_and]
    refine ⟨?_, ?_, ?_, ?_⟩ <;> exact legible_word rfl (by decide) (by decide +kernel)
  apart := by decide
  opens := by simp [orderingTokens, spaced]
  closes := by simp [orderingTokens, spaced]
  balanced := rfl

theorem appendable_clauseTokens (dialect : Dialect) (ordered : Bool) (skip max : Nat) :
    Appendable Keyword.ofPaging (dialect.clauseTokens ordered skip max) := by
  cases dialect with
  | limitOffset =>
    refine .append (appendable_spaced ?_) ?_
    · simp only [List.forall_mem_cons, List.not_mem_nil, false_imp_iff, implies_true, and_true,
        legible_number, true_and]
      exact ⟨⟨legible_word rfl (by decide) (by decide +kernel), rfl⟩, rfl⟩
    · split
      · refine appendable_spaced ?_
        simp only [List.forall_mem_cons, List.not_mem_nil, false_imp_iff, implies_true, and_true,
          legible_number, true_and]
        exact ⟨⟨legible_word rfl (by decide) (by decide +kernel), rfl⟩, rfl⟩
      · exact appendable_nil
  | sqlServer =>
    refine .append ?_ (appendable_rowsTokens skip max)
    split
    · exact appendable_nil
    · exact appendable_orderingTokens
  | offsetFetch => exact appendable_rowsTokens skip max

/-- Outside every parenthesis of a clause for a page stands a keyword that no dialect accepts. -/
theorem exists_competing (dialect : Dialect) (ordered : Bool) (skip max : Nat) :
    ∃ keyword before after,
      (dialect.clauseTokens ordered skip max).map Prod.fst = before ++ .keyword keyword :: after ∧
      TokenKind.depthAfter 0 before = some 0 ∧ ∀ other : Dialect, keyword ∈ other.competing := by
  have offset : ∀ other : Dialect, Keyword.OFFSET ∈ other.competing := by
    intro other
    cases other <;> decide
  have limit : ∀ other : Dialect, Keyword.LIMIT ∈ other.competing := by
    intro other
    cases other <;> decide
  cases dialect with
  | limitOffset => exact ⟨.LIMIT, [.space], _, rfl, rfl, limit⟩
  | sqlServer =>
    cases ordered with
    | true => exact ⟨.OFFSET, [.space], _, rfl, rfl, offset⟩
    | false => exact ⟨.OFFSET, orderingTokens.map Prod.fst ++ [.space], _, rfl, rfl, offset⟩
  | offsetFetch => exact ⟨.OFFSET, [.space], _, rfl, rfl, offset⟩

theorem count_question_clauseTokens (dialect : Dialect) (ordered : Bool) (skip max : Nat) :
    ((dialect.clauseTokens ordered skip max).map Prod.fst).count .question = 0 := by
  cases dialect with
  | limitOffset =>
    simp only [clauseTokens]
    split <;> rfl
  | sqlServer => cases ordered <;> rfl
  | offsetFetch => rfl

/-- A page of a query is read as the query with the tokens of a clause behind it. It binds
    what the query binds, is a query, and no dialect pages or counts it. -/
theorem page_reads_back {dialect : Dialect} {sql paged : String} {skip max : Nat}
    (answer : dialect.pageOfText sql skip max = .ok (some paged)) :
    ∃ query page : Statement, Statement.parse sql = .ok query ∧
      Statement.parse paged = .ok page ∧ page.text = paged ∧
      page.tokens.map Token.face = query.tokens.map Token.face ++
        dialect.clauseTokens (query.hasOutside .ORDER) skip max ∧
      page.parameters = query.parameters ∧ page.isQuery = true ∧
      ∀ other : Dialect, (∀ skip max, other.pageOfText paged skip max = .ok none) ∧
        other.countOfText paged = .ok none := by
  obtain ⟨query, read, rewritten⟩ := pageOfText_eq_ok.mp answer
  obtain ⟨accepted, rfl⟩ := page?_eq_some.mp rewritten
  obtain ⟨isQuery, -⟩ := accepts_iff.mp accepted
  rw [Statement.isQuery_iff] at isQuery
  have some : query.tokens ≠ [] := by
    intro none
    rw [none] at isQuery
    cases isQuery
  have clause := appendable_clauseTokens dialect (query.hasOutside .ORDER) skip max
  obtain ⟨page, readPage, grouped, text, faces⟩ := Statement.parse_append read some clause
  rw [← toList_pageClause, String.ofList_toList] at readPage text
  have kinds : page.tokens.map Token.kind = query.tokens.map Token.kind ++
      (dialect.clauseTokens (query.hasOutside .ORDER) skip max).map Prod.fst := by
    rw [Statement.map_kind_eq, faces, List.map_append, Statement.map_kind_eq]
  obtain ⟨-, -, -, -, -, groupedQuery⟩ := Statement.parse_eq_ok read
  refine ⟨query, page, read, readPage, text, faces, ?_, ?_, fun other => ?_⟩
  · rw [Statement.parameters, kinds, List.count_append, count_question_clauseTokens]
    rfl
  · rw [Statement.isQuery_iff, kinds, List.findSome?_append, isQuery]
    rfl
  · obtain ⟨keyword, before, after, split, closed, competes⟩ :=
      exists_competing dialect (query.hasOutside .ORDER) skip max
    have outside : page.hasOutside keyword = true := by
      refine Statement.hasOutside_of_kinds grouped (by rw [kinds, split, ← List.append_assoc]) ?_
      rw [TokenKind.depthAfter_append, groupedQuery.depthAfter]
      exact closed
    refine answers_none readPage ?_
    rw [Bool.eq_false_iff, Ne, accepts_iff]
    rintro ⟨-, refuses⟩
    rw [refuses keyword (competes other)] at outside
    cases outside

theorem page_reads_back_without_ordering :
    let paged := "select 1 where a = ? ORDER BY (SELECT NULL) OFFSET 5 ROWS FETCH NEXT 2 ROWS ONLY"
    sqlServer.pageOfText "  select 1 where a = ? ;" 5 2 = .ok (some paged) ∧
      (∃ page : Statement, Statement.parse paged = .ok page ∧ page.isQuery = true) ∧
      limitOffset.countOfText paged = .ok none := by
  intro paged
  have answer : sqlServer.pageOfText "  select 1 where a = ? ;" 5 2 = .ok (some paged) := by
    apply eq_ok_of_toOption
    decide +kernel
  obtain ⟨_, page, _, read, _, _, _, isQuery, refused⟩ := page_reads_back answer
  exact ⟨answer, ⟨page, read, isQuery⟩, (refused limitOffset).2⟩

end Dialect

end DynamicSql.Sql
