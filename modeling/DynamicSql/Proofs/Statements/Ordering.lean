import DynamicSql.Proofs.Grouping.Content
import DynamicSql.Proofs.Grouping.Partners
import DynamicSql.Proofs.Statements.Rereading

/-!
# What a count query leaves out

A count query cuts its query in front of the last ORDER outside every parenthesis, unless a
parameter stands behind it. An ORDER is any word that is spelled so, whatever stands beside
it, so a column or a table of that name is one too. An ordering is what the count query
leaves out just if the next token there is BY.
-/

namespace DynamicSql

namespace Text

/-- A character that is no blank keeps what stands in front of it. -/
theorem dropTrailingBlanks_append_cons {c : Char} (content : isBlank c = false)
    (front back : List Char) :
    dropTrailingBlanks (front ++ c :: back) = front ++ c :: dropTrailingBlanks back := by
  simp only [dropTrailingBlanks, List.reverse_append, List.reverse_cons, List.append_assoc,
    List.dropWhile_append, List.singleton_append]
  split
  · next none =>
    rw [List.isEmpty_iff.mp none, List.dropWhile_cons_of_neg (by simp [content])]
    simp
  · simp

theorem length_dropTrailingBlanks_le (text : List Char) :
    (dropTrailingBlanks text).length ≤ text.length := by
  rw [dropTrailingBlanks, List.length_reverse]
  exact (List.length_dropWhile_le _ _).trans_eq List.length_reverse

theorem toList_trimEnd (text : String) : (trimEnd text).toList = dropTrailingBlanks text.toList :=
  String.toList_ofList

/-- A blank has no capital. -/
theorem toLower_of_isBlank {c : Char} (blank : isBlank c = true) : c.toLower = c := by
  simp only [isBlank, Bool.or_eq_true, Bool.and_eq_true, decide_eq_true_eq, beq_iff_eq] at blank
  rw [← Char.toNat_inj, Sql.Keyword.toNat_toLower, if_neg]
  omega

end Text

namespace Sql

/-- No blank stands in the spelling of a keyword. -/
theorem Keyword.exists_content {keyword : Keyword} {word : String}
    (spelled : keyword.text.toLower = word.toLower) :
    ∃ c rest, word.toList = c :: rest ∧ Text.isBlank c = false := by
  have same : keyword.text.toList.map Char.toLower = word.toList.map Char.toLower := by
    rw [← String.toList_map, ← String.toList_map]
    exact congrArg String.toList spelled
  have first : (keyword.text.toList.map Char.toLower).head?.any (! Text.isBlank ·) = true := by
    cases keyword <;> decide
  cases letters : word.toList with
  | nil =>
    rw [same, letters] at first
    cases first
  | cons c rest =>
    refine ⟨c, rest, rfl, ?_⟩
    rw [same, letters] at first
    by_contra blank
    rw [Bool.not_eq_false] at blank
    simp [Text.toLower_of_isBlank blank, blank] at first

namespace Position

/-- The next token that is no blank is BY. -/
def beginsOrdering (position : Position) : Bool :=
  (position.back.find? (! ·.isSpace)).any (·.isKeyword .BY)

end Position

namespace Statement

/-- The word ORDER stands outside every parenthesis at a position of a statement. -/
structure OrderAt (statement : Statement) (position : Position) : Prop where
  mem : position ∈ Token.positions statement.tokens
  isOrder : position.isKeyword .ORDER = true

/-- A word that in lower case is spelled as given stands outside every parenthesis at a position
    of a statement. -/
structure WordAt (statement : Statement) (spelling : String) (position : Position) : Prop where
  mem : position ∈ Token.positions statement.tokens
  outside : position.isOutside = true
  isWord : position.token.kind.isWord = true
  spelled : position.token.text.toLower = spelling

/-- The last ORDER outside every parenthesis, behind which no parameter stands. -/
structure CutAt (statement : Statement) (position : Position) : Prop where
  order : statement.OrderAt position
  last : ∀ other, statement.OrderAt other → other.front.length ≤ position.front.length
  unbound : ∀ t ∈ position.back, t.kind ≠ .question

/-- What a count query wraps is the whole statement, or what stands in front of an ordering outside
    every parenthesis without the blanks at its end. -/
def DropsOrdering (statement : Statement) : Prop :=
  statement.countBody = statement.text ∨
    ∃ position, statement.OrderAt position ∧ position.beginsOrdering = true ∧
      statement.countBody = Text.trimEnd (Token.sourceOf position.front)

theorem OrderAt.kind {statement : Statement} {position : Position}
    (order : statement.OrderAt position) : position.token.kind = .keyword .ORDER := by
  have isOrder := order.isOrder
  rw [Position.isKeyword, Bool.and_eq_true] at isOrder
  simpa [Token.isKeyword] using isOrder.2

theorem OrderAt.split {statement : Statement} {position : Position}
    (order : statement.OrderAt position) :
    statement.tokens = position.front ++ position.token :: position.back :=
  Token.mem_positions_iff.mp order.mem

variable {sql : String} {statement : Statement}

/-- Only one ORDER outside every parenthesis has no other one behind it. -/
theorem OrderAt.unique {position other : Position} (order : statement.OrderAt position)
    (last : ∀ next, statement.OrderAt next → next.front.length ≤ position.front.length)
    (order' : statement.OrderAt other)
    (last' : ∀ next, statement.OrderAt next → next.front.length ≤ other.front.length) :
    position = other :=
  Token.positions_unique order.mem order'.mem
    (Nat.le_antisymm (last' position order) (last other order'))

/-- A statement is cut at one ORDER only. -/
theorem CutAt.unique {position other : Position} (cut : statement.CutAt position)
    (cut' : statement.CutAt other) : position = other :=
  cut.order.unique cut.last cut'.order cut'.last

/-- The tokens of a statement that are a keyword are the words that spell it in any mixture of
    cases. -/
theorem kind_eq_keyword_iff (read : parse sql = .ok statement) {t : Token}
    (member : t ∈ statement.tokens) (keyword : Keyword) :
    t.kind = .keyword keyword ↔ t.kind.isWord = true ∧
      keyword ∈ Keyword.ofPaging ∧ keyword.text.toLower = t.text.toLower := by
  obtain ⟨tokens, tokenized, within, -, -⟩ := exists_longestTrimmed read
  have partition := (tokenize_eq_ok_iff_partition _ _ _).mp tokenized
  have spells (isWord : t.kind.isWord = true) : t.kind = .keyword keyword ↔
      keyword ∈ Keyword.ofPaging ∧ keyword.text.toLower = t.text.toLower := by
    rw [(partition.keyword t (within.subset member) isWord).1, ← Keyword.classify_eq_some_iff,
      Keyword.classify_eq_some_iff_mem]
  constructor
  · intro kind
    have isWord : t.kind.isWord = true := by
      rw [kind]
      rfl
    exact ⟨isWord, (spells isWord).mp kind⟩
  · rintro ⟨isWord, spelled⟩
    exact (spells isWord).mpr spelled

/-- Every word that is spelled so is an ORDER, whatever stands in front of it and behind it. -/
theorem orderAt_iff_wordAt (read : parse sql = .ok statement) {position : Position} :
    statement.OrderAt position ↔ statement.WordAt "order" position := by
  have lower : Keyword.ORDER.text.toLower = "order" :=
    String.toList_inj.mp (String.toList_map.trans (by decide))
  constructor
  · intro order
    have member : position.token ∈ statement.tokens := by simp [order.split]
    obtain ⟨isWord, -, spelled⟩ := (kind_eq_keyword_iff read member .ORDER).mp order.kind
    have isOrder := order.isOrder
    rw [Position.isKeyword, Bool.and_eq_true] at isOrder
    exact ⟨order.mem, isOrder.1, isWord, spelled.symm.trans lower⟩
  · intro word
    have member : position.token ∈ statement.tokens := by
      simp [Token.mem_positions_iff.mp word.mem]
    have kind := (kind_eq_keyword_iff read member .ORDER).mpr
      ⟨word.isWord, by decide, lower.trans word.spelled.symm⟩
    refine ⟨word.mem, ?_⟩
    simp [Position.isKeyword, word.outside, Token.isKeyword, kind]

section Grouped

variable (grouped : Item.Grouped statement.tokens statement.items)
include grouped

/-- Without an ORDER among the items none stands outside every parenthesis. -/
theorem not_orderAt (none : Item.last? .ORDER statement.items = none) (position : Position) :
    ¬ statement.OrderAt position := by
  intro order
  exact grouped.not_isKeyword [] rfl (Item.last?_eq_none_iff.mp none) position order.mem
    order.isOrder

/-- The last ORDER among the items is the last one outside every parenthesis. -/
theorem exists_last_order {order : Token}
    (found : Item.last? .ORDER statement.items = some order) :
    ∃ position, position.token = order ∧ statement.OrderAt position ∧
      ∀ other, statement.OrderAt other → other.front.length ≤ position.front.length := by
  obtain ⟨front, back, split, isOrder, later⟩ := Item.last?_eq_some found
  obtain ⟨position, split', left, right, here, standing⟩ := grouped.exists_at split isOrder
  have order' : statement.OrderAt position := ⟨Token.mem_positions_iff.mpr split', here⟩
  have same : position.token = order := by
    have item := standing.here
    rw [split, List.getElem?_append_right (Nat.le_refl _), Nat.sub_self] at item
    cases item
    rfl
  refine ⟨position, same, order', fun other otherOrder => ?_⟩
  by_contra behind
  obtain ⟨between, inFront, back⟩ :=
    Token.exists_between otherOrder.mem order'.mem (Nat.lt_of_not_le behind)
  -- Behind the last ORDER among the items the parentheses are as balanced as in front of it.
  have balanced := (TokenKind.balanced_iff_depthAfter.mpr (left.depthAfter 0)).2
  have counts : ((position.front ++ [position.token]).map Token.kind).count .leftParen =
      ((position.front ++ [position.token]).map Token.kind).count .rightParen := by
    simp [order'.kind, balanced]
  refine right.not_isKeyword _ counts later other ?_ otherOrder.isOrder
  exact Token.mem_positionsFrom_iff.mpr ⟨between, by simp [inFront], back⟩

end Grouped

/-- Without an ORDER to cut at a count query wraps the whole statement. -/
theorem countBody_of_not_cutAt (read : parse sql = .ok statement)
    (uncut : ∀ position, ¬ statement.CutAt position) : statement.countBody = statement.text := by
  obtain ⟨-, -, -, -, -, grouped⟩ := parse_eq_ok read
  have sorted := tokens_sorted read
  unfold countBody
  split
  · rfl
  · next order found =>
    obtain ⟨position, rfl, order', last⟩ := exists_last_order grouped found
    refine if_pos ?_
    rw [Token.any_start sorted order'.split]
    by_contra unbound
    rw [Bool.not_eq_true, List.any_eq_false] at unbound
    refine uncut position ⟨order', last, fun t member => ?_⟩
    simpa using unbound t member

/-- With one it wraps what stands in front of that. -/
theorem countBody_of_cutAt (read : parse sql = .ok statement) {position : Position}
    (cut : statement.CutAt position) :
    statement.countBody = Text.trimEnd (Token.sourceOf position.front) := by
  obtain ⟨-, -, -, -, -, grouped⟩ := parse_eq_ok read
  have sorted := tokens_sorted read
  unfold countBody
  split
  · next none => exact absurd cut.order (not_orderAt grouped none position)
  · next order found =>
    obtain ⟨other, rfl, order', last⟩ := exists_last_order grouped found
    have same : other = position := order'.unique last cut.order cut.last
    subst same
    rw [Token.any_start sorted order'.split, if_neg, Token.takeWhile_start sorted order'.split]
    rw [Bool.not_eq_true, List.any_eq_false]
    intro t member
    simpa using cut.unbound t member

/-- An ORDER begins with a character that no trimming drops. -/
theorem OrderAt.exists_content (read : parse sql = .ok statement) {position : Position}
    (order : statement.OrderAt position) :
    ∃ c rest, position.token.source.toList = c :: rest ∧ Text.isBlank c = false := by
  have member : position.token ∈ statement.tokens := by simp [order.split]
  obtain ⟨isWord, -, same⟩ := (kind_eq_keyword_iff read member .ORDER).mp order.kind
  rw [Token.text_of_isWord isWord] at same
  exact Keyword.exists_content same

/-- What stands in front of an ORDER is less than what goes on behind it. -/
theorem OrderAt.length_lt (read : parse sql = .ok statement) {position : Position}
    (order : statement.OrderAt position) (between : List Token) :
    (Text.trimEnd (Token.sourceOf position.front)).toList.length <
      (Text.trimEnd
        (Token.sourceOf (position.front ++ position.token :: between))).toList.length := by
  obtain ⟨c, rest, spelled, content⟩ := order.exists_content read
  have fewer := Text.length_dropTrailingBlanks_le (Token.sourceOf position.front).toList
  simp only [Text.toList_trimEnd, Token.sourceOf_append, Token.sourceOf, String.toList_append,
    spelled, List.cons_append, Text.dropTrailingBlanks_append_cons content, List.length_append,
    List.length_cons]
  omega

/-- A statement that is cut is not wrapped whole. -/
theorem OrderAt.trimEnd_ne_text (read : parse sql = .ok statement) {position : Position}
    (order : statement.OrderAt position) :
    Text.trimEnd (Token.sourceOf position.front) ≠ statement.text := by
  intro same
  have shorter := order.length_lt read position.back
  rw [← order.split, same, ← text, Text.toList_trimEnd] at shorter
  exact absurd (Text.length_dropTrailingBlanks_le _) (Nat.not_le_of_lt shorter)

/-- An ORDER in front of another one leaves less of the statement. -/
theorem OrderAt.eq_of_trimEnd_eq (read : parse sql = .ok statement) {position other : Position}
    (order : statement.OrderAt position) (order' : statement.OrderAt other)
    (earlier : position.front.length ≤ other.front.length)
    (same : Text.trimEnd (Token.sourceOf position.front) =
      Text.trimEnd (Token.sourceOf other.front)) : position = other := by
  rcases Nat.lt_or_eq_of_le earlier with before | here
  · obtain ⟨between, behind, -⟩ := Token.exists_between order'.mem order.mem before
    have shorter := order.length_lt read between
    rw [← behind, same] at shorter
    exact absurd shorter (Nat.lt_irrefl _)
  · exact Token.positions_unique order.mem order'.mem here

/-- A count query wraps the whole statement just if there is no ORDER to cut at. -/
theorem countBody_eq_text_iff (read : parse sql = .ok statement) :
    statement.countBody = statement.text ↔ ∀ position, ¬ statement.CutAt position := by
  refine ⟨fun whole position cut => ?_, countBody_of_not_cutAt read⟩
  exact cut.order.trimEnd_ne_text read ((countBody_of_cutAt read cut).symm.trans whole)

/-- It wraps what stands in front of an ORDER just if it cuts there. -/
theorem countBody_eq_front_iff (read : parse sql = .ok statement) {position : Position}
    (order : statement.OrderAt position) :
    statement.countBody = Text.trimEnd (Token.sourceOf position.front) ↔
      statement.CutAt position := by
  refine ⟨fun front => ?_, countBody_of_cutAt read⟩
  by_cases uncut : ∀ position, ¬ statement.CutAt position
  · have whole := countBody_of_not_cutAt read uncut
    exact absurd (front.symm.trans whole) (order.trimEnd_ne_text read)
  · obtain ⟨other, cut⟩ := not_forall_not.mp uncut
    have same : position = other := order.eq_of_trimEnd_eq read cut.order
      (cut.last position order) (front.symm.trans (countBody_of_cutAt read cut))
    exact same ▸ cut

/-- No more than an ordering is left out just if the next token behind a cut that is no blank
    is BY. -/
theorem dropsOrdering_iff (read : parse sql = .ok statement) :
    statement.DropsOrdering ↔
      ∀ position, statement.CutAt position → position.beginsOrdering = true := by
  constructor
  · rintro (whole | ⟨other, order, begins, front⟩) position cut
    · exact absurd cut ((countBody_eq_text_iff read).mp whole position)
    · exact ((countBody_eq_front_iff read order).mp front).unique cut ▸ begins
  · intro begin
    by_cases uncut : ∀ position, ¬ statement.CutAt position
    · exact .inl (countBody_of_not_cutAt read uncut)
    · obtain ⟨position, cut⟩ := not_forall_not.mp uncut
      exact .inr ⟨position, cut.order, begin position cut, countBody_of_cutAt read cut⟩

/-- Any word outside every parenthesis that is spelled so is an ORDER. A count query wraps the
    whole statement just if it does not cut it, and what stands in front of an ORDER just if that
    is the last one outside every parenthesis and no parameter stands behind it. No more than an
    ordering is left out just if the next token there that is no blank is BY. -/
theorem countBody_cuts (read : parse sql = .ok statement) :
    (∀ position, statement.OrderAt position ↔ statement.WordAt "order" position) ∧
    (statement.countBody = statement.text ↔ ∀ position, ¬ statement.CutAt position) ∧
    (∀ position, statement.OrderAt position →
      (statement.countBody = Text.trimEnd (Token.sourceOf position.front) ↔
        statement.CutAt position)) ∧
    (statement.DropsOrdering ↔
      ∀ position, statement.CutAt position → position.beginsOrdering = true) :=
  ⟨fun _ => orderAt_iff_wordAt read, countBody_eq_text_iff read,
    fun _ order => countBody_eq_front_iff read order, dropsOrdering_iff read⟩

/-- The ordering of `select o.order from (select 1 order) o Order By o.id ; ` is dropped: the last
    ORDER outside every parenthesis is the one in front of BY. -/
theorem countBody_cuts_in_front_of_by :
    ∃ statement, parse "select o.order from (select 1 order) o Order By o.id ; " = .ok statement ∧
      statement.countBody = "select o.order from (select 1 order) o" ∧
      statement.DropsOrdering := by
  have passed : (parse "select o.order from (select 1 order) o Order By o.id ; ").toOption.any
      (fun statement => statement.countBody == "select o.order from (select 1 order) o" &&
        (Token.positions statement.tokens).all fun position =>
          ! position.isKeyword .ORDER || position.beginsOrdering ||
            (Token.positions statement.tokens).any fun other =>
              other.isKeyword .ORDER && position.front.length < other.front.length) = true := by
    decide +kernel
  obtain ⟨statement, read, passed⟩ := exists_ok_of_any passed
  rw [Bool.and_eq_true, beq_iff_eq, List.all_eq_true] at passed
  refine ⟨statement, read, passed.1, (countBody_cuts read).2.2.2.mpr fun position cut => ?_⟩
  have here := passed.2 position cut.order.mem
  simp only [cut.order.isOrder, Bool.not_true, Bool.false_or, Bool.or_eq_true, List.any_eq_true,
    Bool.and_eq_true, decide_eq_true_eq] at here
  rcases here with begins | ⟨other, member, isOrder, later⟩
  · exact begins
  · exact absurd later (Nat.not_lt_of_le (cut.last other ⟨member, isOrder⟩))

/-- A column that is called order is cut off although no ordering begins there. -/
theorem countBody_cuts_column :
    ∃ statement, parse "select t.order from t" = .ok statement ∧
      statement.text = "select t.order from t" ∧ statement.countBody = "select t." ∧
      ¬ statement.DropsOrdering := by
  have passed : (parse "select t.order from t").toOption.any (fun statement =>
      statement.text == "select t.order from t" && statement.countBody == "select t." &&
        (Token.positions statement.tokens).all fun position =>
          ! position.isKeyword .ORDER || ! position.beginsOrdering) = true := by
    decide +kernel
  obtain ⟨statement, read, passed⟩ := exists_ok_of_any passed
  rw [Bool.and_eq_true, Bool.and_eq_true, beq_iff_eq, beq_iff_eq, List.all_eq_true] at passed
  obtain ⟨⟨whole, body⟩, others⟩ := passed
  refine ⟨statement, read, whole, body, ?_⟩
  rintro (uncut | ⟨position, order, begins, -⟩)
  · rw [whole, body] at uncut
    exact absurd uncut (by decide)
  · have here := others position order.mem
    simp [order.isOrder, begins] at here

/-- With a parameter behind it the column is kept. -/
example : (parse "select t.order from t where a = ?").toOption.map countBody =
    some "select t.order from t where a = ?" := by
  decide +kernel

end Statement

end Sql

end DynamicSql
