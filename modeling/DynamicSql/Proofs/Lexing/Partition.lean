import DynamicSql.Proofs.Lexing.Legible
import DynamicSql.Proofs.Lexing.Spelling

/-!
# The partition of a statement

The tokens of a statement divide it: without a gap from its first byte to its last
one, between characters only, each as far as the class of its characters reaches.
A statement has no other division of this sort, so what is said here of the tokens
says all about them.
-/

namespace DynamicSql.Sql

/-- The texts that a token of a kind can have, by the classes of their characters. -/
inductive TokenKind.Shape : TokenKind → List Char → Prop
  /-- A literal is a quote, characters other than that quote, and that quote. -/
  | literal {quote : Char} {body : List Char} : isQuote quote = true → quote ∉ body →
      Shape .literal (quote :: (body ++ [quote]))
  | punctuation {kind : TokenKind} {c : Char} : punctuation? c = some kind → Shape kind [c]
  | space {c : Char} {cs : List Char} : (∀ d ∈ c :: cs, isTokenSpace d = true) →
      Shape .space (c :: cs)
  | operator {c : Char} {cs : List Char} : (∀ d ∈ c :: cs, isOperator d = true) →
      Shape .operator (c :: cs)
  /-- The characters of words and keywords are those of no other class. -/
  | word {kind : TokenKind} {c : Char} {cs : List Char} : kind.isWord = true →
      (∀ d ∈ c :: cs, isQuote d = false ∧ isTokenSpace d = false ∧ punctuation? d = none ∧
        isOperator d = false) → Shape kind (c :: cs)

/-- Kinds of two tokens that do not become one where they meet. -/
def TokenKind.Distinct (kind next : TokenKind) : Prop :=
  ¬ (kind = .space ∧ next = .space) ∧ ¬ (kind = .operator ∧ next = .operator) ∧
  ¬ (kind.isWord = true ∧ next.isWord = true)

/-- Tokens that divide a statement for a reader of some keywords. -/
structure Partition (sql : String) (keywords : List Keyword) (tokens : List Token) : Prop where
  opens : ∀ t ∈ tokens.head?, t.start = 0
  contiguous : tokens.IsChain fun t next => t.stop = next.start
  closes : (tokens.getLast?.map Token.stop).getD 0 = sql.utf8ByteSize
  nonempty : ∀ t ∈ tokens, t.start < t.stop
  /-- A token begins in front of a character and ends behind one. -/
  slice : ∀ t ∈ tokens, ∃ before after, sql = before ++ t.source ++ after ∧
    before.utf8ByteSize = t.start ∧ (before ++ t.source).utf8ByteSize = t.stop
  text : ∀ t ∈ tokens, t.text = if t.kind = .space then " " else t.source
  shape : ∀ t ∈ tokens, t.kind.Shape t.source.toList
  /-- No token could be longer. -/
  maximal : tokens.IsChain fun t next => t.kind.Distinct next.kind
  keyword : ∀ t ∈ tokens, t.kind.isWord = true →
    (∀ keyword, t.kind = .keyword keyword ↔ Keyword.FirstSpelled keywords t.text keyword) ∧
    (t.kind = .word ↔ ∀ keyword ∈ keywords, keyword.text.toLower ≠ t.text.toLower)

section Classes

variable {c : Char}

theorem isTokenSpace_disjoint (space : isTokenSpace c = true) :
    isQuote c = false ∧ punctuation? c = none ∧ isOperator c = false := by
  simp only [isTokenSpace, Bool.or_eq_true, beq_iff_eq] at space
  rcases space with (((rfl | rfl) | rfl) | rfl) | rfl <;> decide

theorem isOperator_disjoint (operator : isOperator c = true) :
    isQuote c = false ∧ isTokenSpace c = false ∧ punctuation? c = none := by
  have all : ['=', '+', '-', '/', '%', '^', '>', '<', '!', '&', '|', ':', '~'].all
      (fun d => ! isQuote d && ! isTokenSpace d && (punctuation? d).isNone) = true := by decide
  simpa [and_assoc] using List.all_eq_true.mp all c (of_decide_eq_true operator)

theorem punctuation?_disjoint {kind : TokenKind} (mark : punctuation? c = some kind) :
    isQuote c = false ∧ isTokenSpace c = false ∧ kind.isPunctuation = true := by
  unfold punctuation? at mark
  split at mark <;> first | (cases mark; decide) | cases mark

theorem charKind_of_isTokenSpace (space : isTokenSpace c = true) : charKind c = .space :=
  if_pos space

theorem charKind_of_punctuation? {kind : TokenKind} (mark : punctuation? c = some kind) :
    charKind c = kind := by
  rw [charKind, if_neg (by simp [(punctuation?_disjoint mark).2.1]), mark]

theorem charKind_of_isOperator (operator : isOperator c = true) : charKind c = .operator := by
  obtain ⟨-, noSpace, noMark⟩ := isOperator_disjoint operator
  rw [charKind, if_neg (by simp [noSpace]), noMark]
  exact if_pos operator

theorem charKind_of_none (noSpace : isTokenSpace c = false) (noMark : punctuation? c = none)
    (noOperator : isOperator c = false) : charKind c = .word := by
  rw [charKind, if_neg (by simp [noSpace]), noMark]
  exact if_neg (by simp [noOperator])

/-- A character outside literals is of one class, which its kind tells. -/
theorem charKind_cases (c : Char) :
    (charKind c = .space ∧ isTokenSpace c = true) ∨
    (punctuation? c = some (charKind c) ∧ (charKind c).isPunctuation = true) ∨
    (charKind c = .operator ∧ isOperator c = true) ∨
    (charKind c = .word ∧ isTokenSpace c = false ∧ punctuation? c = none ∧
      isOperator c = false) := by
  cases space : isTokenSpace c with
  | true => exact .inl ⟨charKind_of_isTokenSpace space, rfl⟩
  | false =>
    cases mark : punctuation? c with
    | some kind =>
      have same := charKind_of_punctuation? mark
      exact .inr (.inl ⟨congrArg some same.symm, same ▸ (punctuation?_disjoint mark).2.2⟩)
    | none =>
      cases operator : isOperator c with
      | true => exact .inr (.inr (.inl ⟨charKind_of_isOperator operator, rfl⟩))
      | false => exact .inr (.inr (.inr ⟨charKind_of_none space mark operator, rfl, rfl, rfl⟩))

end Classes

namespace TokenKind

theorem not_isWord_of_isPunctuation {kind : TokenKind} (mark : kind.isPunctuation = true) :
    kind.isWord = false ∧ kind.isRun = false := by
  cases kind <;> first | exact ⟨rfl, rfl⟩ | cases mark

/-- Words and keywords look alike. -/
theorem Shape.of_isWord {kind other : TokenKind} {source : List Char} (shape : kind.Shape source)
    (isWord : kind.isWord = true) (isWord' : other.isWord = true) : other.Shape source := by
  cases shape with
  | word _ chars => exact .word isWord' chars
  | punctuation mark =>
    have noWord := (not_isWord_of_isPunctuation (punctuation?_disjoint mark).2.2).1
    rw [isWord] at noWord
    cases noWord
  | _ => cases isWord

theorem Shape.ne_nil {kind : TokenKind} {source : List Char} (shape : kind.Shape source) :
    source ≠ [] := by
  cases shape <;> simp

end TokenKind

namespace Lexeme

theorem WellFormed.shape {lexeme : Lexeme} (formed : lexeme.WellFormed) :
    lexeme.kind.Shape lexeme.source := by
  cases formed with
  | literal quotes inside => exact .literal quotes inside
  | @mark c plain alone =>
    rcases charKind_cases c with ⟨kind, -⟩ | ⟨mark, -⟩ | ⟨kind, -⟩ | ⟨kind, -⟩
    · cases (congrArg TokenKind.isRun kind).symm.trans alone
    · exact .punctuation mark
    · cases (congrArg TokenKind.isRun kind).symm.trans alone
    · cases (congrArg TokenKind.isRun kind).symm.trans alone
  | @run kind c cs joins chars =>
    -- What the kind of a run says of each of its characters.
    have class_of {d : Char} (member : d ∈ c :: cs) :
        (kind = .space ∧ isTokenSpace d = true) ∨ (kind = .operator ∧ isOperator d = true) ∨
        (kind = .word ∧ isQuote d = false ∧ isTokenSpace d = false ∧ punctuation? d = none ∧
          isOperator d = false) := by
      obtain ⟨plain, same⟩ := chars d member
      rw [← same]
      rcases charKind_cases d with space | ⟨-, mark⟩ | operator | ⟨word, other⟩
      · exact .inl space
      · have noRun := (TokenKind.not_isWord_of_isPunctuation mark).2
        rw [same, joins] at noRun
        cases noRun
      · exact .inr (.inl operator)
      · exact .inr (.inr ⟨word, plain, other⟩)
    cases kind with
    | space => exact .space fun d member => by simpa using class_of member
    | operator => exact .operator fun d member => by simpa using class_of member
    | word => exact .word rfl fun d member => by simpa using class_of member
    | _ => cases joins

/-- The kind of a lexeme is never that of a keyword. -/
theorem WellFormed.kind_eq_word {lexeme : Lexeme} (formed : lexeme.WellFormed)
    (isWord : lexeme.kind.isWord = true) : lexeme.kind = .word := by
  cases formed with
  | literal => cases isWord
  | @mark c _ alone =>
    rcases charKind_cases c with ⟨kind, -⟩ | ⟨-, mark⟩ | ⟨kind, -⟩ | ⟨kind, -⟩
    · cases (congrArg TokenKind.isWord kind).symm.trans isWord
    · cases (TokenKind.not_isWord_of_isPunctuation mark).1.symm.trans isWord
    · cases (congrArg TokenKind.isWord kind).symm.trans isWord
    · exact kind
  | @run kind _ _ joins =>
    cases kind with
    | word => rfl
    | space => cases isWord
    | operator => cases isWord
    | _ => cases joins

/-- The lexeme that is written for a token is well formed if the token has its shape. -/
theorem wellFormed_ofFace {kind : TokenKind} {text : String} (shape : kind.Shape text.toList) :
    (ofFace (kind, text)).WellFormed := by
  unfold ofFace
  generalize text.toList = source at shape
  cases shape with
  | literal quotes inside => exact .literal quotes inside
  | @punctuation _ c mark =>
    obtain ⟨plain, -, isMark⟩ := punctuation?_disjoint mark
    obtain ⟨noWord, noRun⟩ := TokenKind.not_isWord_of_isPunctuation isMark
    have same := charKind_of_punctuation? mark
    subst same
    rw [if_neg (by simp [noWord])]
    exact .mark plain noRun
  | space chars =>
    exact .run rfl fun d member =>
      ⟨(isTokenSpace_disjoint (chars d member)).1, charKind_of_isTokenSpace (chars d member)⟩
  | operator chars =>
    exact .run rfl fun d member =>
      ⟨(isOperator_disjoint (chars d member)).1, charKind_of_isOperator (chars d member)⟩
  | word isWord chars =>
    rw [if_pos isWord]
    refine .run rfl fun d member => ?_
    obtain ⟨plain, noSpace, noMark, noOperator⟩ := chars d member
    exact ⟨plain, charKind_of_none noSpace noMark noOperator⟩

section Placed

variable {keywords : List Keyword} {lexeme : Lexeme}

@[simp]
theorem isWord_kindFor : (lexeme.kindFor keywords).isWord = lexeme.kind.isWord := by
  unfold kindFor
  split
  · next word =>
    rw [word]
    split <;> rfl
  · rfl

theorem WellFormed.shape_kindFor (formed : lexeme.WellFormed) :
    (lexeme.kindFor keywords).Shape lexeme.source := by
  cases isWord : lexeme.kind.isWord with
  | true => exact formed.shape.of_isWord isWord (isWord_kindFor.trans isWord)
  | false =>
    rw [(kindFor_eq_iff isWord).mpr rfl]
    exact formed.shape

theorem kindFor_word_eq_keyword_iff {source : List Char} {keyword : Keyword} :
    kindFor keywords ⟨.word, source⟩ = .keyword keyword ↔
      Keyword.FirstSpelled keywords (String.ofList source) keyword := by
  rw [← Keyword.classify_eq_some_iff, kindFor, if_pos rfl]
  split <;> simp_all

theorem kindFor_word_eq_word_iff {source : List Char} :
    kindFor keywords ⟨.word, source⟩ = .word ↔
      ∀ keyword ∈ keywords, keyword.text.toLower ≠ (String.ofList source).toLower := by
  rw [← Keyword.classify_eq_none_iff, kindFor, if_pos rfl]
  split <;> simp_all

theorem head?_place {start : Nat} {lexemes : List Lexeme} {t : Token}
    (first : t ∈ (place keywords start lexemes).head?) : t.start = start := by
  cases lexemes with
  | nil => cases first
  | cons lexeme rest =>
    cases first
    rfl

/-- Each token begins where the one in front of it ends, and the last one ends where the text
    does. -/
theorem place_contiguous (keywords : List Keyword) (start : Nat) (lexemes : List Lexeme) :
    (place keywords start lexemes).IsChain (fun t next => t.stop = next.start) ∧
      ((place keywords start lexemes).getLast?.map Token.stop).getD start =
        start + size lexemes := by
  induction lexemes generalizing start with
  | nil => exact ⟨.nil, by simp [place, size, sources]⟩
  | cons lexeme rest ih =>
    obtain ⟨chain, last⟩ := ih (start + (String.ofList lexeme.source).utf8ByteSize)
    rw [size_cons, ← Nat.add_assoc, ← last]
    refine ⟨List.isChain_cons.mpr ⟨fun next first => (head?_place first).symm, chain⟩, ?_⟩
    rw [place, List.getLast?_cons]
    cases ends : (place keywords (start + (String.ofList lexeme.source).utf8ByteSize)
      rest).getLast? <;> simp [Token.stop, ends]

/-- A token is a slice of the text that is cut. -/
theorem slice_of_mem_place {lexemes : List Lexeme} {t : Token}
    (member : t ∈ place keywords 0 lexemes) :
    ∃ lexeme ∈ lexemes, t.kind = lexeme.kindFor keywords ∧ t.source = String.ofList lexeme.source ∧
      ∃ before after, String.ofList (sources lexemes) = before ++ t.source ++ after ∧
        before.utf8ByteSize = t.start := by
  obtain ⟨front, back, split⟩ := List.append_of_mem member
  obtain ⟨before, after, rfl, -, placed⟩ := place_eq_append split
  cases after with
  | nil => cases placed
  | cons lexeme rest =>
    rw [place, List.cons.injEq] at placed
    obtain ⟨rfl, -⟩ := placed
    refine ⟨lexeme, by simp, rfl, rfl, String.ofList (sources before),
      String.ofList (sources rest), ?_, by simp [size]⟩
    simp [sources, String.append_assoc]

end Placed

/-- The kinds of two lexemes that stay apart, for a reader of some keywords. -/
theorem Apart.distinct {keywords : List Keyword} {first next : Lexeme}
    (formed : first.WellFormed) (formed' : next.WellFormed) (apart : first.Apart next) :
    (first.kindFor keywords).Distinct (next.kindFor keywords) := by
  rw [TokenKind.Distinct, kindFor_eq_iff rfl, kindFor_eq_iff rfl, kindFor_eq_iff rfl,
    kindFor_eq_iff rfl, isWord_kindFor, isWord_kindFor]
  refine ⟨fun both => ?_, fun both => ?_, fun both => ?_⟩
  · exact apart (by rw [both.1]; rfl) (both.1.trans both.2.symm)
  · exact apart (by rw [both.1]; rfl) (both.1.trans both.2.symm)
  · have word := formed.kind_eq_word both.1
    exact apart (by rw [word]; rfl) (word.trans (formed'.kind_eq_word both.2).symm)

end Lexeme

/-- Two divisions of a text behind the same count of bytes are the same. -/
theorem append_inj_of_utf8ByteSize {front back front' back' : String}
    (same : front ++ back = front' ++ back') (size : front.utf8ByteSize = front'.utf8ByteSize) :
    front = front' ∧ back = back' := by
  have whole : front.toByteArray ++ back.toByteArray = front'.toByteArray ++ back'.toByteArray := by
    rw [← String.toByteArray_append, ← String.toByteArray_append, same]
  have first : front = front' := String.toByteArray_inj.mp (ByteArray.append_inj_left whole size)
  subst first
  exact ⟨rfl, (String.append_right_inj front).mp same⟩

namespace Token

/-- The lexeme of a token. -/
def lexeme (t : Token) : Lexeme := Lexeme.ofFace (t.kind, t.source)

variable {keywords : List Keyword}

theorem text_of_isWord {t : Token} (isWord : t.kind.isWord = true) : t.text = t.source := by
  refine if_neg fun space => ?_
  cases (congrArg TokenKind.isWord space).symm.trans isWord

theorem lexeme_eq_of_isWord {t : Token} (isWord : t.kind.isWord = true) :
    t.lexeme = ⟨.word, t.source.toList⟩ := by
  rw [lexeme, Lexeme.ofFace, if_pos isWord]

theorem lexeme_eq_of_not_isWord {t : Token} (other : t.kind.isWord = false) :
    t.lexeme = ⟨t.kind, t.source.toList⟩ := by
  rw [lexeme, Lexeme.ofFace, if_neg (by simp [other])]

/-- Tokens without a gap are the lexemes at their places. -/
theorem place_map_lexeme {start : Nat} {tokens : List Token}
    (contiguous : tokens.IsChain fun t next => t.stop = next.start)
    (opens : ∀ t ∈ tokens.head?, t.start = start)
    (read : ∀ t ∈ tokens, t.lexeme.kindFor keywords = t.kind) :
    Lexeme.place keywords start (tokens.map lexeme) = tokens := by
  induction tokens generalizing start with
  | nil => rfl
  | cons t rest ih =>
    obtain ⟨next, chain⟩ := List.isChain_cons.mp contiguous
    have same : (⟨t.lexeme.kindFor keywords, start, String.ofList t.lexeme.source⟩ : Token) =
        t := by
      rw [read t List.mem_cons_self, ← opens t rfl, lexeme, Lexeme.ofFace, String.ofList_toList]
    rw [List.map_cons, Lexeme.place, same]
    refine congrArg (t :: ·) (ih chain (fun u first => (next u first).symm) fun u member => ?_)
    exact read u (List.mem_cons_of_mem t member)

theorem lexeme_kind_eq_iff {t : Token} {kind : TokenKind} (other : kind.isWord = false) :
    t.lexeme.kind = kind ↔ t.kind = kind := by
  cases isWord : t.kind.isWord with
  | true =>
    rw [lexeme_eq_of_isWord isWord]
    constructor
    · rintro rfl
      cases other
    · rintro rfl
      cases isWord.symm.trans other
  | false => rw [lexeme_eq_of_not_isWord isWord]

theorem apart_lexeme {t next : Token} (distinct : t.kind.Distinct next.kind) :
    t.lexeme.Apart next.lexeme := by
  obtain ⟨spaces, operators, words⟩ := distinct
  intro joins same
  cases isWord : t.kind.isWord with
  | true =>
    cases isWord' : next.kind.isWord with
    | true => exact words ⟨isWord, isWord'⟩
    | false =>
      rw [lexeme_eq_of_isWord isWord, lexeme_eq_of_not_isWord isWord'] at same
      cases (congrArg TokenKind.isWord same).trans isWord'
  | false =>
    rw [lexeme_eq_of_not_isWord isWord] at joins same
    have back := (lexeme_kind_eq_iff isWord).mp same.symm
    cases kind : t.kind <;> rw [kind] at joins isWord back
    case space => exact spaces ⟨kind, back⟩
    case operator => exact operators ⟨kind, back⟩
    case word => cases isWord
    all_goals cases joins

/-- Slices of a text without a gap are a prefix of it. -/
theorem prefix_of_slices {sql front rest : String} {tokens : List Token}
    (split : sql = front ++ rest)
    (contiguous : tokens.IsChain fun t next => t.stop = next.start)
    (opens : ∀ t ∈ tokens.head?, t.start = front.utf8ByteSize)
    (slice : ∀ t ∈ tokens, ∃ before after, sql = before ++ t.source ++ after ∧
      before.utf8ByteSize = t.start) :
    ∃ back, sql = front ++ sourceOf tokens ++ back ∧
      (tokens.getLast?.map stop).getD front.utf8ByteSize =
        (front ++ sourceOf tokens).utf8ByteSize := by
  induction tokens generalizing front rest with
  | nil => exact ⟨rest, by simpa [sourceOf] using split, by simp [sourceOf]⟩
  | cons t tokens ih =>
    obtain ⟨next, chain⟩ := List.isChain_cons.mp contiguous
    obtain ⟨before, after, cut, size⟩ := slice t List.mem_cons_self
    have begins := opens t rfl
    obtain ⟨rfl, -⟩ := append_inj_of_utf8ByteSize
      ((String.append_assoc ▸ cut.symm).trans split) (size.trans begins)
    have stops : t.stop = (before ++ t.source).utf8ByteSize := by
      rw [stop, ← size, String.utf8ByteSize_append]
    obtain ⟨back, covered, last⟩ := ih cut chain
      (fun u first => (next u first).symm.trans stops)
      (fun u member => slice u (List.mem_cons_of_mem t member))
    refine ⟨back, by simpa [sourceOf, String.append_assoc] using covered, ?_⟩
    rw [sourceOf, ← String.append_assoc, ← last, ← stops, List.getLast?_cons]
    cases tokens.getLast? <;> simp

end Token

/-- The tokens of a cut divide the text that is cut. -/
theorem Partition.of_cut {keywords : List Keyword} {lexemes : List Lexeme}
    (cut : Lexeme.Cut lexemes) :
    Partition (String.ofList (Lexeme.sources lexemes)) keywords
      (Lexeme.place keywords 0 lexemes) := by
  obtain ⟨contiguous, closes⟩ := Lexeme.place_contiguous keywords 0 lexemes
  have shape : ∀ t ∈ Lexeme.place keywords 0 lexemes, t.kind.Shape t.source.toList := by
    intro t member
    obtain ⟨lexeme, inCut, kind, source, -⟩ := Lexeme.slice_of_mem_place member
    rw [kind, source, String.toList_ofList]
    exact (cut.wellFormed lexeme inCut).shape_kindFor
  refine ⟨fun t first => Lexeme.head?_place first, contiguous, ?_, ?_, ?_, fun t _ => rfl, shape,
    ?_, ?_⟩
  · rw [closes, Lexeme.size, Nat.zero_add]
  · intro t member
    have bytes : t.source.utf8ByteSize ≠ 0 := by
      rw [Ne, String.utf8ByteSize_eq_zero_iff, ← String.toList_eq_nil_iff]
      exact (shape t member).ne_nil
    rw [Token.stop]
    omega
  · intro t member
    obtain ⟨-, -, -, -, before, after, split, size⟩ := Lexeme.slice_of_mem_place member
    refine ⟨before, after, split, size, ?_⟩
    rw [String.utf8ByteSize_append, size, Token.stop]
  · have kinds : ((Lexeme.place keywords 0 lexemes).map Token.kind).IsChain
        TokenKind.Distinct := by
      rw [Lexeme.map_kind_place, List.isChain_map]
      refine cut.apart.imp_of_mem_imp fun first next inCut inCut' apart => ?_
      exact apart.distinct (cut.wellFormed first inCut) (cut.wellFormed next inCut')
    exact (List.isChain_map Token.kind).mp kinds
  · intro t member isWord
    obtain ⟨⟨kind, source⟩, inCut, read, written, -⟩ := Lexeme.slice_of_mem_place member
    rw [Token.text_of_isWord isWord, read, written]
    rw [read, Lexeme.isWord_kindFor] at isWord
    have word : kind = .word := (cut.wellFormed _ inCut).kind_eq_word isWord
    subst word
    exact ⟨fun keyword => Lexeme.kindFor_word_eq_keyword_iff, Lexeme.kindFor_word_eq_word_iff⟩

namespace Partition

variable {sql : String} {keywords : List Keyword} {tokens : List Token}

/-- Tokens that divide a statement are read again as what they are. -/
theorem kindFor_lexeme (partition : Partition sql keywords tokens) {t : Token}
    (member : t ∈ tokens) : t.lexeme.kindFor keywords = t.kind := by
  cases isWord : t.kind.isWord with
  | false =>
    rw [Token.lexeme_eq_of_not_isWord isWord]
    exact (Lexeme.kindFor_eq_iff isWord).mpr rfl
  | true =>
    obtain ⟨keyword, word⟩ := partition.keyword t member isWord
    rw [Token.text_of_isWord isWord] at keyword word
    rw [Token.lexeme_eq_of_isWord isWord]
    cases kind : t.kind with
    | word =>
      rw [Lexeme.kindFor_word_eq_word_iff, String.ofList_toList]
      exact word.mp kind
    | keyword k =>
      rw [Lexeme.kindFor_word_eq_keyword_iff, String.ofList_toList]
      exact (keyword k).mp kind
    | _ => cases (congrArg TokenKind.isWord kind).symm.trans isWord

/-- Tokens that divide a statement cover all of it. -/
theorem sourceOf_eq (partition : Partition sql keywords tokens) : Token.sourceOf tokens = sql := by
  have split : sql = "" ++ sql := String.empty_append.symm
  obtain ⟨back, covered, last⟩ := Token.prefix_of_slices split partition.contiguous
    partition.opens fun t member => by
      obtain ⟨before, after, cut, size, -⟩ := partition.slice t member
      exact ⟨before, after, cut, size⟩
  rw [String.empty_append] at covered last
  have sizes := congrArg String.utf8ByteSize covered
  have all : (tokens.getLast?.map Token.stop).getD 0 = (Token.sourceOf tokens).utf8ByteSize := last
  rw [partition.closes, sizes, String.utf8ByteSize_append] at all
  have nothing : back = "" := String.utf8ByteSize_eq_zero_iff.mp (by omega)
  rw [covered, nothing, String.append_empty]

/-- Tokens that divide a statement are those of a cut of its text. -/
theorem exists_cut (partition : Partition sql keywords tokens) :
    ∃ lexemes, Lexeme.Cut lexemes ∧ Lexeme.sources lexemes = sql.toList ∧
      Lexeme.place keywords 0 lexemes = tokens := by
  have placed := Token.place_map_lexeme partition.contiguous partition.opens
    fun t member => partition.kindFor_lexeme member
  refine ⟨tokens.map Token.lexeme, ⟨?_, ?_⟩, ?_, placed⟩
  · intro lexeme member
    obtain ⟨t, inTokens, rfl⟩ := List.mem_map.mp member
    exact Lexeme.wellFormed_ofFace (partition.shape t inTokens)
  · exact (List.isChain_map Token.lexeme).mpr
      (partition.maximal.imp fun t next distinct => Token.apart_lexeme distinct)
  · have covered := Lexeme.sourceOf_place keywords 0 (tokens.map Token.lexeme)
    rw [placed, partition.sourceOf_eq] at covered
    rw [covered, String.toList_ofList]

end Partition

/-- The tokens of a statement are those that divide it, and no others do. -/
theorem tokenize_eq_ok_iff_partition (sql : String) (keywords : List Keyword)
    (tokens : List Token) :
    tokenize sql keywords = .ok tokens ↔ Partition sql keywords tokens := by
  rw [tokenize_eq_ok_iff]
  constructor
  · rintro ⟨lexemes, cut, covered, rfl⟩
    have whole : String.ofList (Lexeme.sources lexemes) = sql := by
      rw [covered, String.ofList_toList]
    rw [← whole]
    exact Partition.of_cut cut
  · exact Partition.exists_cut

end DynamicSql.Sql
