import DynamicSql.Proofs.Statements.Reading

/-!
# What leads a statement

A statement is led by the first of the words SELECT, INSERT, UPDATE, DELETE,
REPLACE and SET outside every parenthesis. A dialect asks instead for the first
keyword wherever it stands. The two agree unless a query between parentheses
stands in front of the leader, as the table expressions after a WITH do.
-/

namespace DynamicSql.Sql

/-- The keywords that can lead a statement. -/
def Keyword.leaders : List Keyword :=
  [.SELECT, .INSERT, .UPDATE, .DELETE, .REPLACE, .SET]

namespace Token

/-- The keyword that the token is, if it can lead a statement. -/
def leader? (t : Token) : Option Keyword :=
  t.keyword?.filter (· ∈ Keyword.leaders)

/-- Tokens without a keyword, then a pair of parentheses around tokens whose first keyword is
    the given one, then the rest. -/
inductive OpensWith (keyword : Keyword) : List Token → List Token → Prop
  | parens {before inside behind : List Token} {opening closing : Token}
      (opens : opening.kind = .leftParen) (closes : closing.kind = .rightParen)
      (front : TokenKind.Balanced (before.map kind))
      (nested : TokenKind.Balanced (inside.map kind))
      (noKeyword : before.findSome? keyword? = none)
      (first : inside.findSome? keyword? = some keyword) :
      OpensWith keyword (before ++ opening :: (inside ++ closing :: behind)) behind

theorem leader?_of_keyword?_eq_none {t : Token} (noKeyword : t.keyword? = none) :
    t.leader? = none := by
  rw [leader?, noKeyword]
  rfl

/-- A first keyword that can lead a statement leads it. -/
theorem findSome?_leader? {tokens : List Token} {keyword : Keyword}
    (first : tokens.findSome? keyword? = some keyword) (leads : keyword ∈ Keyword.leaders) :
    tokens.findSome? leader? = some keyword := by
  obtain ⟨before, t, after, rfl, isKeyword, noKeyword⟩ := List.findSome?_eq_some_iff.mp first
  refine List.findSome?_eq_some_iff.mpr ⟨before, t, after, rfl, ?_, fun other member => ?_⟩
  · simp [leader?, isKeyword, leads]
  · exact leader?_of_keyword?_eq_none (noKeyword other member)

/-- Tokens without a keyword that close what they open may stand in front. -/
theorem OpensWith.behind_plain {keyword : Keyword} {plain tokens behind : List Token}
    (query : OpensWith keyword tokens behind)
    (balanced : TokenKind.depthAfter 0 (plain.map kind) = some 0)
    (noKeyword : plain.findSome? keyword? = none) :
    OpensWith keyword (plain ++ tokens) behind := by
  cases query with
  | parens opens closes front nested none first =>
    rw [← List.append_assoc]
    refine .parens opens closes ?_ nested ?_ first
    · rw [TokenKind.balanced_iff_depthAfter] at front ⊢
      rw [List.map_append, TokenKind.depthAfter_append, balanced, Option.bind_some, front]
    · rw [List.findSome?_append, noKeyword, none, Option.none_or]

/-- What opens with a query is led by what stands behind the query. -/
theorem OpensWith.findSome?_outside {keyword : Keyword} {tokens behind : List Token}
    (query : OpensWith keyword tokens behind) :
    (outside tokens).findSome? leader? = (outside behind).findSome? leader? := by
  cases query with
  | @parens before inside _ opening closing opens closes front nested noKeyword first =>
    rw [TokenKind.balanced_iff_depthAfter] at front nested
    have noLeader : (outside before).findSome? leader? = none := by
      rw [List.findSome?_eq_none_iff] at noKeyword ⊢
      intro t member
      exact leader?_of_keyword?_eq_none (noKeyword t (mem_of_mem_outsideFrom member))
    have passed : outside (before ++ opening :: (inside ++ closing :: behind)) =
        outside before ++ outside behind := by
      rw [outside, outsideFrom_append front]
      exact congrArg _ (outside_parens opens closes nested behind)
    rw [passed, List.findSome?_append, noLeader, Option.none_or]

/-- The first keyword stands outside every parenthesis, or it is the first one inside a pair
    of parentheses that no keyword precedes. -/
theorem first_outside_or_opensWith {tokens : List Token} {items : List Item} {keyword : Keyword}
    (grouped : Item.Grouped tokens items) (first : tokens.findSome? keyword? = some keyword) :
    (outside tokens).findSome? keyword? = some keyword ∨
      ∃ behind, OpensWith keyword tokens behind := by
  induction grouped with
  | nil => cases first
  | @token t tokens items noOpening noClosing rest ih =>
    have here : outside (t :: tokens) = t :: outside tokens := by
      rw [outside, outsideFrom_other _ _ noOpening noClosing, if_pos rfl]
      rfl
    rw [here, List.findSome?_cons]
    rw [List.findSome?_cons] at first
    cases found : t.keyword? with
    | some other =>
      rw [found] at first
      exact .inl first
    | none =>
      rw [found] at first
      have plain : TokenKind.depthAfter 0 ([t].map kind) = some 0 :=
        TokenKind.depthAfter_other noOpening noClosing 0 []
      have none : [t].findSome? keyword? = none := by simp [found]
      exact (ih first).imp_right (Exists.imp fun behind query => query.behind_plain plain none)
  | @parens opening closing inside tokens inner items opens closes nested rest _ ih =>
    have noOpening : opening.keyword? = none := by simp [keyword?, opens, TokenKind.keyword?]
    have noClosing : closing.keyword? = none := by simp [keyword?, closes, TokenKind.keyword?]
    rw [List.findSome?_cons, noOpening, List.findSome?_append] at first
    -- Either the parentheses hold the first keyword, or they hold none and may be passed over.
    cases found : inside.findSome? keyword? with
    | some other =>
      rw [found] at first
      cases first
      have balanced := Item.exists_grouped_iff.mp ⟨inner, nested⟩
      have front : TokenKind.Balanced (([] : List Token).map kind) :=
        TokenKind.balanced_iff_depthAfter.mpr rfl
      exact .inr ⟨tokens, .parens opens closes front balanced rfl found⟩
    | none =>
      rw [found, Option.none_or, List.findSome?_cons, noClosing] at first
      rw [outside_parens opens closes (nested.depthAfter 0)]
      have plain := (Item.Grouped.parens opens closes nested .nil).depthAfter 0
      have none : (opening :: (inside ++ [closing])).findSome? keyword? = none := by
        simp [noOpening, List.findSome?_append, found, noClosing]
      have split : opening :: (inside ++ closing :: tokens) =
          opening :: (inside ++ [closing]) ++ tokens := by simp
      rw [split]
      exact (ih first).imp_right (Exists.imp fun behind query => query.behind_plain plain none)

end Token

namespace Statement

/-- The first keyword outside every parenthesis that can lead a statement. -/
def leader? (statement : Statement) : Option Keyword :=
  (Token.outside statement.tokens).findSome? Token.leader?

/-- A query between parentheses has the first keyword of the statement, and behind it the
    statement is led by another word. -/
def LedBehindQuery (statement : Statement) : Prop :=
  ∃ behind leader, Token.OpensWith .SELECT statement.tokens behind ∧
    (Token.outside behind).findSome? Token.leader? = some leader ∧ leader ≠ .SELECT

end Statement

namespace Dialect

variable {dialect : Dialect} {sql : String}

/-- What a dialect pages or counts was read and accepted. -/
theorem exists_accepts_of_answer
    (answer : (∃ skip max paged, dialect.pageOfText sql skip max = .ok (some paged)) ∨
      ∃ counted, dialect.countOfText sql = .ok (some counted)) :
    ∃ statement, Statement.parse sql = .ok statement ∧ dialect.accepts statement = true := by
  rcases answer with ⟨skip, max, paged, answer⟩ | ⟨counted, answer⟩
  · obtain ⟨statement, read, rewritten⟩ := pageOfText_eq_ok.mp answer
    exact ⟨statement, read, (page?_eq_some.mp rewritten).1⟩
  · obtain ⟨statement, read, rewritten⟩ := countOfText_eq_ok.mp answer
    exact ⟨statement, read, (count?_eq_some.mp rewritten).1⟩

/-- Whatever leads a statement that is paged or counted is a SELECT, just if no query between
    parentheses has taken the place of another leader behind it. -/
theorem leader_of_rewritten
    (answer : (∃ skip max paged, dialect.pageOfText sql skip max = .ok (some paged)) ∨
      ∃ counted, dialect.countOfText sql = .ok (some counted)) :
    ∃ statement, Statement.parse sql = .ok statement ∧
      ((∀ leader, statement.leader? = some leader → leader = .SELECT) ↔
        ¬ statement.LedBehindQuery) := by
  obtain ⟨statement, read, accepted⟩ := exists_accepts_of_answer answer
  obtain ⟨_, _, _, _, _, grouped⟩ := Statement.parse_eq_ok read
  have first := Statement.isQuery_iff_keyword?.mp (accepts_iff.mp accepted).1
  refine ⟨statement, read, ?_, ?_⟩
  · rintro leads ⟨behind, leader, query, found, other⟩
    rw [← query.findSome?_outside] at found
    exact other (leads leader found)
  · intro noQuery leader found
    rcases Token.first_outside_or_opensWith grouped first with outside | ⟨behind, query⟩
    · have leads := Token.findSome?_leader? outside (by decide)
      exact Option.some.inj (found.symm.trans leads)
    · by_contra other
      exact noQuery ⟨behind, leader, query, query.findSome?_outside ▸ found, other⟩

theorem leader_of_rewritten_behind_table_expression :
    let sql := "with x as (select 1) select a from x where b in (select c from t)"
    limitOffset.pageOfText sql 0 10 = .ok (some (sql ++ " LIMIT 10")) ∧
      ∃ statement, Statement.parse sql = .ok statement ∧
        ((∀ leader, statement.leader? = some leader → leader = .SELECT) ↔
          ¬ statement.LedBehindQuery) := by
  intro sql
  have answer : limitOffset.pageOfText sql 0 10 = .ok (some (sql ++ " LIMIT 10")) := by
    apply eq_ok_of_toOption
    decide +kernel
  exact ⟨answer, leader_of_rewritten (.inl ⟨0, 10, _, answer⟩)⟩

/-- A deletion behind a table expression is paged and counted like a query. -/
theorem rewrites_deletion_behind_query :
    let sql := "with x as (select 1) delete from t"
    limitOffset.pageOfText sql 0 10 = .ok (some "with x as (select 1) delete from t LIMIT 10") ∧
      limitOffset.countOfText sql = .ok (some
        "select count(1) from (with x as (select 1) delete from t) _jbatis_tmp_cnt_") ∧
      ∃ statement, Statement.parse sql = .ok statement ∧
        statement.leader? = some .DELETE := by
  intro sql
  have led : (Statement.parse sql).toOption.bind Statement.leader? = some .DELETE := by
    decide +kernel
  obtain ⟨statement, read, leader⟩ := Option.bind_eq_some_iff.mp led
  refine ⟨?_, ?_, statement, eq_ok_of_toOption read, leader⟩ <;>
    (apply eq_ok_of_toOption; decide +kernel)

end Dialect

end DynamicSql.Sql
