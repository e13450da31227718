import DynamicSql.Proofs.Lexing.Partition

/-!
# Readers of one statement

Two readers with keywords of their own see the same tokens in a statement, at the same
places and with the same texts, or neither can read it. They differ only in which words are
keywords to them: those that spell a member of their set, in whatever order it is given.
-/

namespace DynamicSql.Sql

namespace Token

/-- The tokens that two readers with keywords of their own see at one place. -/
structure Relabelled (keywords keywords' : List Keyword) (t t' : Token) : Prop where
  start : t.start = t'.start
  stop : t.stop = t'.stop
  source : t.source = t'.source
  text : t.text = t'.text
  isWord : t.kind.isWord = t'.kind.isWord
  other : t.kind.isWord = false → t.kind = t'.kind
  keyword : t.kind.isWord = true → ∀ k : Keyword,
    (t.kind = .keyword k ↔ k ∈ keywords ∧ k.text.toLower = t.text.toLower) ∧
    (t'.kind = .keyword k ↔ k ∈ keywords' ∧ k.text.toLower = t.text.toLower)

/-- The tokens that two readers see at one place if the second one has more keywords. -/
def Promoted (keywords keywords' : List Keyword) (t t' : Token) : Prop :=
  t' = t ∨ t.kind = .word ∧ ∃ k ∈ keywords', k ∉ keywords ∧ t' = { t with kind := .keyword k }

end Token

namespace Lexeme

variable {keywords keywords' : List Keyword}

/-- The lexemes of a statement stand at the same places for all readers. -/
theorem forall₂_place {R : Token → Token → Prop} {lexemes : List Lexeme}
    (related : ∀ lexeme ∈ lexemes, ∀ start,
      R ⟨lexeme.kindFor keywords, start, String.ofList lexeme.source⟩
        ⟨lexeme.kindFor keywords', start, String.ofList lexeme.source⟩) (start : Nat) :
    List.Forall₂ R (place keywords start lexemes) (place keywords' start lexemes) := by
  induction lexemes generalizing start with
  | nil => exact .nil
  | cons lexeme rest ih =>
    obtain ⟨first, others⟩ := List.forall_mem_cons.mp related
    exact .cons (first start) (ih others _)

theorem kindFor_of_not_isWord {lexeme : Lexeme} (other : lexeme.kind.isWord = false) :
    lexeme.kindFor keywords = lexeme.kind :=
  (kindFor_eq_iff other).mpr rfl

theorem kindFor_word_eq_keyword_iff_mem {source : List Char} {keyword : Keyword} :
    kindFor keywords ⟨.word, source⟩ = .keyword keyword ↔
      keyword ∈ keywords ∧ keyword.text.toLower = (String.ofList source).toLower := by
  rw [kindFor_word_eq_keyword_iff, ← Keyword.classify_eq_some_iff,
    Keyword.classify_eq_some_iff_mem]

theorem kindFor_congr (same : ∀ keyword, keyword ∈ keywords ↔ keyword ∈ keywords')
    (lexeme : Lexeme) : lexeme.kindFor keywords = lexeme.kindFor keywords' := by
  rw [kindFor, kindFor, Keyword.classify_congr same]

/-- What two readers see of a lexeme. -/
theorem WellFormed.relabelled {lexeme : Lexeme} (formed : lexeme.WellFormed) (start : Nat) :
    Token.Relabelled keywords keywords'
      ⟨lexeme.kindFor keywords, start, String.ofList lexeme.source⟩
      ⟨lexeme.kindFor keywords', start, String.ofList lexeme.source⟩ := by
  refine ⟨rfl, rfl, rfl, (text_kindFor start lexeme).trans (text_kindFor start lexeme).symm,
    isWord_kindFor.trans isWord_kindFor.symm, fun other => ?_, fun isWord k => ?_⟩
  · have plain := isWord_kindFor.symm.trans other
    exact (kindFor_of_not_isWord plain).trans (kindFor_of_not_isWord plain).symm
  · rw [Token.text_of_isWord isWord]
    obtain ⟨kind, source⟩ := lexeme
    have word : kind = .word := formed.kind_eq_word (isWord_kindFor.symm.trans isWord)
    subst word
    exact ⟨@kindFor_word_eq_keyword_iff_mem keywords source k,
      @kindFor_word_eq_keyword_iff_mem keywords' source k⟩

/-- A reader with more keywords sees the same in a lexeme, or a keyword where the other one sees a
    word. -/
theorem promoted (more : keywords ⊆ keywords') (lexeme : Lexeme) (start : Nat) :
    Token.Promoted keywords keywords'
      ⟨lexeme.kindFor keywords, start, String.ofList lexeme.source⟩
      ⟨lexeme.kindFor keywords', start, String.ofList lexeme.source⟩ := by
  by_cases word : lexeme.kind = .word
  · obtain ⟨kind, source⟩ := lexeme
    subst word
    cases few : Keyword.classify (String.ofList source) keywords with
    | some k =>
      obtain ⟨member, spelled⟩ := Keyword.classify_eq_some_iff_mem.mp few
      have many := Keyword.classify_eq_some_iff_mem.mpr ⟨more member, spelled⟩
      exact .inl (by rw [kindFor, kindFor, few, many])
    | none =>
      have isWord : kindFor keywords ⟨.word, source⟩ = .word := by rw [kindFor, if_pos rfl, few]
      cases many : Keyword.classify (String.ofList source) keywords' with
      | none => exact .inl (by rw [kindFor, kindFor, few, many])
      | some k =>
        obtain ⟨member, spelled⟩ := Keyword.classify_eq_some_iff_mem.mp many
        refine .inr ⟨isWord, k, member, fun known => ?_, by rw [kindFor, if_pos rfl, many]⟩
        exact Keyword.classify_eq_none_iff.mp few k known spelled
  · exact .inl (by rw [kindFor, kindFor, if_neg word, if_neg word])

end Lexeme

/-- What a statement is cut into does not depend on the keywords. -/
theorem tokenize_of_cut (sql : String) :
    (∃ error, ∀ keywords, tokenize sql keywords = .error error) ∨
      ∃ lexemes, Lexeme.Cut lexemes ∧
        ∀ keywords, tokenize sql keywords = .ok (Lexeme.place keywords 0 lexemes) := by
  unfold tokenize
  cases scanned : Lexeme.scan none sql.toList with
  | error tail => exact .inl ⟨_, fun _ => rfl⟩
  | ok lexemes => exact .inr ⟨lexemes, (Lexeme.scan_eq_ok_iff.mp scanned).1, fun _ => rfl⟩

/-- Two readers of a statement fail with the same error, or they see the same tokens, of which words
    are keywords just to those whose set has the keyword that they spell. So readers with the same
    keywords, in any order and number, see the same, and one with more keywords than the other sees
    a keyword for some of the words of that one, and nothing else of its own. -/
theorem tokenize_relabels (sql : String) (keywords keywords' : List Keyword) :
    ((∃ error, tokenize sql keywords = .error error ∧ tokenize sql keywords' = .error error) ∨
      ∃ tokens tokens', tokenize sql keywords = .ok tokens ∧
        tokenize sql keywords' = .ok tokens' ∧
        List.Forall₂ (Token.Relabelled keywords keywords') tokens tokens') ∧
    ((∀ keyword, keyword ∈ keywords ↔ keyword ∈ keywords') →
      tokenize sql keywords = tokenize sql keywords') ∧
    (keywords ⊆ keywords' → ∀ tokens tokens', tokenize sql keywords = .ok tokens →
      tokenize sql keywords' = .ok tokens' →
      List.Forall₂ (Token.Promoted keywords keywords') tokens tokens') := by
  rcases tokenize_of_cut sql with ⟨error, failed⟩ | ⟨lexemes, cut, read⟩
  · refine ⟨.inl ⟨error, failed keywords, failed keywords'⟩, fun _ => ?_, fun _ tokens _ read => ?_⟩
    · rw [failed, failed]
    · cases (failed keywords).symm.trans read
  · refine ⟨.inr ⟨_, _, read keywords, read keywords', ?_⟩, fun same => ?_,
      fun more tokens tokens' readFew readMany => ?_⟩
    · exact Lexeme.forall₂_place (fun lexeme member start =>
        (cut.wellFormed lexeme member).relabelled start) 0
    · have places := @Lexeme.forall₂_place keywords keywords' (· = ·) lexemes
        (fun lexeme _ start => by rw [Lexeme.kindFor_congr same]) 0
      rw [List.forall₂_eq_eq_eq] at places
      rw [read, read, places]
    · cases (read keywords).symm.trans readFew
      cases (read keywords').symm.trans readMany
      exact Lexeme.forall₂_place (fun lexeme _ start => Lexeme.promoted more lexeme start) 0

/-- To one reader `Order` is a word, to another one with more keywords, one of them twice, it is one
    of these, and `By` is one to neither. -/
theorem tokenize_relabels_of_more :
    let few : List Keyword := [.SELECT]
    let many : List Keyword := [.ORDER, .SELECT, .ORDER]
    let seen (kind : TokenKind) : List Token :=
      [⟨kind, 0, "Order"⟩, ⟨.space, 5, "\n"⟩, ⟨.word, 6, "By"⟩, ⟨.leftParen, 8, "("⟩,
        ⟨.keyword .SELECT, 9, "select"⟩]
    let sql := "Order\nBy(select"
    (tokenize sql few = .ok (seen .word) ∧ tokenize sql many = .ok (seen (.keyword .ORDER)) ∧
      List.Forall₂ (Token.Relabelled few many) (seen .word) (seen (.keyword .ORDER))) ∧
    ((∀ k, k ∈ many ↔ k ∈ [Keyword.SELECT, .ORDER]) ∧
      tokenize sql many = tokenize sql [.SELECT, .ORDER]) ∧
    (few ⊆ many ∧
      List.Forall₂ (Token.Promoted few many) (seen .word) (seen (.keyword .ORDER))) := by
  intro few many seen sql
  have readFew : tokenize sql few = .ok (seen .word) := by
    apply eq_ok_of_toOption
    decide +kernel
  have readMany : tokenize sql many = .ok (seen (.keyword .ORDER)) := by
    apply eq_ok_of_toOption
    decide +kernel
  have more : few ⊆ many := by decide
  have same : ∀ k, k ∈ many ↔ k ∈ [Keyword.SELECT, .ORDER] := by
    intro k
    cases k <;> decide
  obtain ⟨both, -, promoted⟩ := tokenize_relabels sql few many
  obtain ⟨-, equal, -⟩ := tokenize_relabels sql many [.SELECT, .ORDER]
  rcases both with ⟨error, failed, -⟩ | ⟨tokens, tokens', read, read', related⟩
  · cases readFew.symm.trans failed
  · cases readFew.symm.trans read
    cases readMany.symm.trans read'
    exact ⟨⟨readFew, readMany, related⟩, ⟨same, equal same⟩, more,
      promoted more _ _ readFew readMany⟩

end DynamicSql.Sql
