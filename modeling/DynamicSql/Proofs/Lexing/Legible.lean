import DynamicSql.Proofs.Lexing.Spelling
import DynamicSql.Proofs.Lexing.Tokens

/-!
# Tokens that are written

A rewriting writes tokens behind those of a statement: single spaces,
parentheses, words and numbers. Each of them is read again as what it is.
-/

namespace DynamicSql.Sql

namespace Keyword

/-- No digit stands in the spelling of a keyword. -/
theorem not_isDigit_of_mem_text {keyword : Keyword} {c : Char} (member : c ∈ keyword.text.toList) :
    c.isDigit = false := by
  have none : keyword.text.toList.all (! ·.isDigit) = true := by
    cases keyword <;> decide
  simpa using List.all_eq_true.mp none c member

end Keyword

namespace Lexeme

/-- The lexeme that is written for a token. -/
def ofFace (token : TokenKind × String) : Lexeme :=
  ⟨if token.1.isWord then .word else token.1, token.2.toList⟩

/-- A token that is read again as what it is. -/
structure Legible (keywords : List Keyword) (token : TokenKind × String) : Prop where
  formed : (ofFace token).WellFormed
  read : face keywords (ofFace token) = token

variable {keywords : List Keyword}

theorem legible_space : Legible keywords (.space, " ") :=
  ⟨.run rfl (List.forall_mem_singleton.mpr ⟨rfl, rfl⟩), rfl⟩

theorem legible_leftParen : Legible keywords (.leftParen, "(") :=
  ⟨.mark (c := '(') rfl rfl, rfl⟩

theorem legible_rightParen : Legible keywords (.rightParen, ")") :=
  ⟨.mark (c := ')') rfl rfl, rfl⟩

/-- A text of word characters, one or more. -/
def isWordText (text : String) : Bool :=
  ! text.toList.isEmpty && text.toList.all fun c => ! isQuote c && charKind c == .word

theorem isWordText_iff {text : String} :
    isWordText text = true ↔
      text.toList ≠ [] ∧ ∀ c ∈ text.toList, isQuote c = false ∧ charKind c = .word := by
  simp [isWordText]

/-- A word is a stretch of word characters, of the kind that its spelling gives it. -/
theorem legible_word {kind : TokenKind} {text : String} (isWord : kind.isWord = true)
    (chars : isWordText text = true)
    (spells : kindFor keywords ⟨.word, text.toList⟩ = kind) :
    Legible keywords (kind, text) := by
  have written : ofFace (kind, text) = ⟨.word, text.toList⟩ := by rw [ofFace, if_pos isWord]
  have noSpace : kind ≠ .space := by
    rintro rfl
    cases isWord
  constructor
  · rw [written]
    obtain ⟨nonempty, chars⟩ := isWordText_iff.mp chars
    cases source : text.toList with
    | nil => exact absurd source nonempty
    | cons c cs => exact .run rfl (source ▸ chars)
  · rw [written, face, Token.face, Token.text, spells, if_neg noSpace, String.ofList_toList]

section Digits

variable {c : Char} (digit : c.isDigit = true)
include digit

theorem ne_of_isDigit {d : Char} (other : d.isDigit = false) : c ≠ d := by
  rintro rfl
  rw [digit] at other
  cases other

theorem isQuote_of_isDigit : isQuote c = false := by
  simp [isQuote, ne_of_isDigit digit]

theorem charKind_of_isDigit : charKind c = .word := by
  have noSpace : isTokenSpace c = false := by
    simp [isTokenSpace, ne_of_isDigit digit]
  have noMark : punctuation? c = none := by
    unfold punctuation?
    split <;> first | rfl | exact absurd digit (by decide)
  have noOperator : isOperator c = false := by
    simp [isOperator, ne_of_isDigit digit]
  rw [charKind, if_neg (by simp [noSpace]), noMark]
  simp [noOperator]

theorem toUpper_of_isDigit : c.toUpper = c := by
  simp only [Char.isDigit, Bool.and_eq_true, decide_eq_true_eq, ge_iff_le,
    UInt32.le_iff_toNat_le] at digit
  have most : c.toNat ≤ 57 := digit.2
  rw [← Char.toNat_inj, Keyword.toNat_toUpper, if_neg]
  omega

end Digits

/-- A number is one word, and no keyword. -/
theorem legible_number (n : Nat) : Legible keywords (.word, toString n) := by
  have written : (toString n).toList = Nat.toDigits 10 n := by
    rw [Nat.toString_eq_repr, Nat.toList_repr]
  have digits : ∀ c ∈ Nat.toDigits 10 n, c.isDigit = true := fun c member =>
    Nat.isDigit_of_mem_toDigits (by decide) (by decide) member
  refine legible_word rfl (isWordText_iff.mpr ⟨written ▸ Nat.toDigits_ne_nil, ?_⟩) ?_
  · intro c member
    rw [written] at member
    exact ⟨isQuote_of_isDigit (digits c member), charKind_of_isDigit (digits c member)⟩
  · have noKeyword : Keyword.classify (toString n) keywords = none := by
      refine List.find?_eq_none.mpr fun keyword _ spelled => ?_
      have same : keyword.text.toList = (Nat.toDigits 10 n).map Char.toUpper := by
        rw [← written, ← String.toList_map]
        exact congrArg String.toList (beq_iff_eq.mp spelled)
      obtain ⟨c, cs, first⟩ := List.exists_cons_of_ne_nil (Nat.toDigits_ne_nil (n := n) (b := 10))
      have digit := digits c (by rw [first]; exact List.mem_cons_self)
      have member : c ∈ keyword.text.toList := by
        rw [same, first, List.map_cons, toUpper_of_isDigit digit]
        exact List.mem_cons_self
      rw [Keyword.not_isDigit_of_mem_text member] at digit
      cases digit
    rw [kindFor, if_pos rfl, String.ofList_toList, noKeyword]

/-- Words one after the other, a space in front of each. -/
def spaced (words : List (TokenKind × String)) : List (TokenKind × String) :=
  words.flatMap fun word => [(.space, " "), word]

theorem sources_ofFace (tokens : List (TokenKind × String)) :
    sources (tokens.map ofFace) = tokens.flatMap (·.2.toList) := by
  simp [sources, List.flatMap_map, ofFace]

/-- Written tokens are read as they are. -/
theorem map_face_ofFace {tokens : List (TokenKind × String)}
    (legible : ∀ token ∈ tokens, Legible keywords token) :
    (tokens.map ofFace).map (face keywords) = tokens := by
  rw [List.map_map]
  exact (List.map_congr_left fun token member => (legible token member).read).trans
    (List.map_id tokens)

theorem map_kindFor_ofFace {tokens : List (TokenKind × String)}
    (legible : ∀ token ∈ tokens, Legible keywords token) :
    (tokens.map ofFace).map (kindFor keywords) = tokens.map Prod.fst := by
  conv_rhs => rw [← map_face_ofFace legible, List.map_map]
  rfl

/-- Written tokens that stay apart are a cut. -/
theorem cut_ofFace {tokens : List (TokenKind × String)}
    (legible : ∀ token ∈ tokens, Legible keywords token)
    (apart : (tokens.map ofFace).IsChain Apart) : Cut (tokens.map ofFace) := by
  refine ⟨fun lexeme member => ?_, apart⟩
  obtain ⟨token, inTokens, rfl⟩ := List.mem_map.mp member
  exact (legible token inTokens).formed

end Lexeme

end DynamicSql.Sql
