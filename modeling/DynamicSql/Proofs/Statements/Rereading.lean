import DynamicSql.Proofs.Grouping.Places
import DynamicSql.Proofs.Statements.Reading

/-!
# Statements that are read again

The text of a statement is the longest stretch of what was read that begins and ends
with tokens which trimming leaves. It is read as the same statement at another place,
and whatever is asked of a statement has the same answer there.
-/

namespace DynamicSql.Sql

/-- What stands side by side in a list stands behind the elements in front if its first one is
    none of these. -/
theorem infix_dropWhile {α : Type} {p : α → Bool} {xs part : List α} (among : part <:+: xs)
    (begins : ∀ x ∈ part.head?, p x = false) : part <:+: xs.dropWhile p := by
  induction xs with
  | nil => exact among
  | cons x rest ih =>
    cases front : p x with
    | false => rwa [List.dropWhile_cons_of_neg (by simp [front])]
    | true =>
      rw [List.dropWhile_cons_of_pos front]
      rcases List.infix_cons_iff.mp among with ⟨behind, same⟩ | later
      · cases part with
        | nil => exact List.nil_infix
        | cons first part =>
          obtain ⟨rfl, -⟩ := List.cons.inj same
          rw [begins first rfl] at front
          cases front
      · exact ih later

namespace Token

/-- Tokens side by side among some others that begin with no blanks and end with neither blanks nor
    a semicolon, and of all these the ones that cover most. -/
structure LongestTrimmed (tokens range : List Token) : Prop where
  among : range <:+: tokens
  trimmed : TokenKind.Trimmed (range.map kind)
  longest : ∀ other, other <:+: tokens → TokenKind.Trimmed (other.map kind) → other ≠ range →
    (sourceOf other).utf8ByteSize < (sourceOf range).utf8ByteSize

/-- Whatever trimming would leave as it is lies within what it leaves of the whole. -/
theorem infix_trim {tokens range : List Token} (among : range <:+: tokens)
    (trimmed : TokenKind.Trimmed (range.map kind)) : range <:+: trim tokens := by
  have front : range <:+: tokens.dropWhile isSpace := by
    refine infix_dropWhile among fun t first => isSpace_eq_false_iff.mpr (trimmed.opens t.kind ?_)
    rw [List.head?_map, first]
    rfl
  have back : range.reverse <:+: (tokens.dropWhile isSpace).reverse.dropWhile isClosing := by
    refine infix_dropWhile (List.reverse_infix.mpr front) fun t last =>
      isClosing_eq_false_iff.mpr (trimmed.closes t.kind ?_)
    rw [List.head?_reverse] at last
    rw [List.getLast?_map, last]
    rfl
  rw [trim_eq, ← List.reverse_infix, List.reverse_reverse]
  exact back

/-- Fewer tokens side by side cover less, if none of them is empty. -/
theorem size_lt_of_infix {tokens range : List Token} (among : range <:+: tokens)
    (differs : range ≠ tokens) (nonempty : ∀ t ∈ tokens, t.start < t.stop) :
    (sourceOf range).utf8ByteSize < (sourceOf tokens).utf8ByteSize := by
  obtain ⟨front, back, rfl⟩ := among
  have positive {others : List Token} (some : others ≠ [])
      (inside : ∀ t ∈ others, t ∈ front ++ range ++ back) :
      0 < (sourceOf others).utf8ByteSize := by
    cases others with
    | nil => exact absurd rfl some
    | cons t rest =>
      have bytes := nonempty t (inside t List.mem_cons_self)
      rw [stop] at bytes
      rw [sourceOf, String.utf8ByteSize_append]
      omega
  rw [sourceOf_append, sourceOf_append, String.utf8ByteSize_append, String.utf8ByteSize_append]
  by_cases noFront : front = []
  · have someBack : back ≠ [] := by
      rintro rfl
      simp [noFront] at differs
    have bytes := positive someBack (by simp +contextual)
    omega
  · have bytes := positive noFront (by simp +contextual)
    omega

/-- Trimming leaves the longest stretch. -/
theorem longestTrimmed_trim {tokens : List Token} (nonempty : ∀ t ∈ tokens, t.start < t.stop) :
    LongestTrimmed tokens (trim tokens) := by
  obtain ⟨front, back, split, trimmed, -, -⟩ := trim_spec tokens
  have among : trim tokens <:+: tokens := ⟨front, back, split.symm⟩
  refine ⟨among, trimmed, fun other inside left differs => ?_⟩
  exact size_lt_of_infix (infix_trim inside left) differs
    fun t member => nonempty t (among.subset member)

end Token

namespace Statement

/-- The count of bytes in front of a statement. -/
def start (statement : Statement) : Nat := (statement.tokens.head?.map Token.start).getD 0

/-- A statement behind some more bytes. -/
def shift (offset : Nat) (statement : Statement) : Statement :=
  ⟨statement.tokens.map (Token.shift offset), statement.items.map (Item.shift offset)⟩

section Shift

variable (offset : Nat) (statement : Statement)

@[simp]
theorem text_shift : (statement.shift offset).text = statement.text :=
  Token.sourceOf_map_shift offset statement.tokens

@[simp]
theorem isQuery_shift : (statement.shift offset).isQuery = statement.isQuery := by
  rw [Bool.eq_iff_iff, isQuery_iff, isQuery_iff, shift, Token.map_kind_map_shift]

@[simp]
theorem hasOutside_shift (keyword : Keyword) :
    (statement.shift offset).hasOutside keyword = statement.hasOutside keyword := by
  simp [hasOutside, shift, List.any_map, Function.comp_def]

/-- Which tokens stand in front of an ordering and behind it does not depend on the place. -/
@[simp]
theorem countBody_shift : (statement.shift offset).countBody = statement.countBody := by
  rw [countBody, countBody, text_shift]
  simp only [shift, Item.last?_map_shift]
  cases Item.last? .ORDER statement.items with
  | none => rfl
  | some order =>
    simp only [Option.map_some, List.any_map, Function.comp_def, Token.kind_shift,
      Token.start_shift, Nat.add_lt_add_iff_left, List.takeWhile_map, Token.sourceOf_map_shift]

end Shift

variable {sql : String} {statement : Statement}

/-- The text of a statement is read as the statement in front of which nothing stands. -/
theorem exists_parse_text (read : parse sql = .ok statement) :
    ∃ again, parse statement.text = .ok again ∧ again.shift statement.start = statement := by
  obtain ⟨start, lexemes, cut, placed, trimmed, grouped⟩ := parse_eq_ok read
  have kinds : statement.tokens.map Token.kind =
      lexemes.map (Lexeme.kindFor Keyword.ofPaging) := by
    rw [placed, Lexeme.map_kind_place]
  obtain ⟨again, readAgain, tokens, grouped', -⟩ :=
    parse_of_cut cut (kinds ▸ trimmed) (kinds ▸ grouped.depthAfter 0)
  have moved : again.tokens.map (Token.shift statement.start) = statement.tokens := by
    rw [tokens, ← Lexeme.place_shift, placed, Statement.start, placed, Nat.add_zero]
    cases lexemes <;> rfl
  have items : again.items.map (Item.shift statement.start) = statement.items :=
    (moved ▸ grouped'.shift statement.start).unique grouped
  refine ⟨again, text_of_place placed ▸ readAgain, ?_⟩
  rw [shift, moved, items]

/-- A statement is the longest stretch of its source that trimming leaves as it is. -/
theorem exists_longestTrimmed (read : parse sql = .ok statement) :
    ∃ tokens, tokenize sql Keyword.ofPaging = .ok tokens ∧
      Token.LongestTrimmed tokens statement.tokens := by
  obtain ⟨tokens, tokenized, more⟩ := bind_eq_ok_iff.mp read
  obtain ⟨items, -, last⟩ := bind_eq_ok_iff.mp more
  cases last
  have partition := (tokenize_eq_ok_iff_partition _ _ _).mp tokenized
  exact ⟨tokens, tokenized, Token.longestTrimmed_trim partition.nonempty⟩

/-- The text of a statement is the stretch of its source from its first token to its last one. -/
theorem stretch_text (read : parse sql = .ok statement) {opening closing : Token}
    (opens : statement.tokens.head? = some opening)
    (closes : statement.tokens.getLast? = some closing) :
    Stretch sql opening.start closing.stop statement.text := by
  obtain ⟨tokens, tokenized, ⟨front, back, split⟩, -, -⟩ := exists_longestTrimmed read
  rw [← split, List.append_assoc] at tokenized
  obtain ⟨slice, inside, stretch, readSlice, moved⟩ := tokenize_stretch tokenized opens closes
  rw [text, ← moved, Token.sourceOf_map_shift, sourceOf_tokenize readSlice]
  exact stretch

/-- Reading the text of a statement again gives its tokens and items without the bytes in front of
    it, the same text and the same answers. And that text is the longest stretch of the source that
    begins and ends where tokens do and that trimming leaves as it is. -/
theorem parse_text_again (read : parse sql = .ok statement) :
    (∃ again, parse statement.text = .ok again ∧
      again.tokens.map (Token.shift statement.start) = statement.tokens ∧
      again.items.map (Item.shift statement.start) = statement.items ∧
      again.text = statement.text ∧ again.isQuery = statement.isQuery ∧
      (∀ keyword, again.hasOutside keyword = statement.hasOutside keyword) ∧
      again.countBody = statement.countBody) ∧
    (∃ tokens, tokenize sql Keyword.ofPaging = .ok tokens ∧
      Token.LongestTrimmed tokens statement.tokens) ∧
    (statement.tokens = [] → statement.text = "") ∧
    ∀ opening ∈ statement.tokens.head?, ∀ closing ∈ statement.tokens.getLast?,
      Stretch sql opening.start closing.stop statement.text := by
  obtain ⟨again, readAgain, moved⟩ := exists_parse_text read
  refine ⟨⟨again, readAgain, congrArg tokens moved, congrArg items moved, ?_, ?_, fun keyword => ?_,
    ?_⟩, exists_longestTrimmed read, fun none => ?_, fun opening opens closing closes => ?_⟩
  · rw [← moved, text_shift]
  · rw [← isQuery_shift, moved]
  · rw [← hasOutside_shift, moved]
  · rw [← countBody_shift, moved]
  · rw [text, none]
    rfl
  · exact stretch_text read opens closes

/-- Trimming keeps a semicolon in front, so the statement of ` ; é (select ';' ) ;; ` begins with
    one. -/
theorem parse_text_again_behind_blank :
    ∃ statement, parse " ; é (select ';' ) ;; " = .ok statement ∧ statement.start = 1 ∧
      statement.text = "; é (select ';' )" ∧
      ∃ again, parse "; é (select ';' )" = .ok again ∧
        again.tokens.map (Token.shift 1) = statement.tokens ∧
        again.text = "; é (select ';' )" ∧ again.isQuery = true := by
  have passed : (parse " ; é (select ';' ) ;; ").toOption.any (fun statement =>
      statement.start == 1 && statement.text == "; é (select ';' )" &&
        statement.isQuery) = true := by
    decide +kernel
  obtain ⟨statement, read, passed⟩ := exists_ok_of_any passed
  rw [Bool.and_eq_true, Bool.and_eq_true, beq_iff_eq, beq_iff_eq] at passed
  obtain ⟨⟨start, text⟩, isQuery⟩ := passed
  obtain ⟨⟨again, readAgain, tokens, -, same, query, -⟩, -⟩ := parse_text_again read
  rw [text] at readAgain same
  rw [start] at tokens
  exact ⟨statement, read, start, text, again, readAgain, tokens, same, query.trans isQuery⟩

end Statement

end DynamicSql.Sql
