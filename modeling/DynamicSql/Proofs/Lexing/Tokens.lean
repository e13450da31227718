import DynamicSql.Proofs.Lexing.Cut
import Mathlib.Data.List.TakeWhile

/-!
# Lexemes at their places

A statement that can be read has the tokens of its cut, one after the other.
What a token is does not depend on where it stands, so tokens that stand side by
side are again the tokens of the text they cover, at other places. Trimming
leaves such a stretch.
-/

namespace DynamicSql.Sql

namespace TokenKind

/-- The kinds of tokens that trimming leaves as they are. -/
structure Trimmed (kinds : List TokenKind) : Prop where
  opens : ∀ kind ∈ kinds.head?, kind ≠ .space
  closes : ∀ kind ∈ kinds.getLast?, kind ≠ .space ∧ kind ≠ .semicolon

instance (kinds : List TokenKind) : Decidable (Trimmed kinds) :=
  decidable_of_iff ((∀ kind ∈ kinds.head?, kind ≠ .space) ∧
      ∀ kind ∈ kinds.getLast?, kind ≠ .space ∧ kind ≠ .semicolon)
    ⟨fun ⟨opens, closes⟩ => ⟨opens, closes⟩, fun trimmed => ⟨trimmed.opens, trimmed.closes⟩⟩

/-- What stands behind some tokens decides only how the whole closes. -/
theorem Trimmed.append {front back : List TokenKind} (trimmed : Trimmed front)
    (some : front ≠ []) (closes : ∀ kind ∈ back.getLast?, kind ≠ .space ∧ kind ≠ .semicolon) :
    Trimmed (front ++ back) := by
  constructor
  · intro kind head
    cases front with
    | nil => exact absurd rfl some
    | cons first rest => exact trimmed.opens kind head
  · intro kind last
    cases back with
    | nil => exact trimmed.closes kind (by simpa using last)
    | cons first rest =>
      rw [List.getLast?_append_cons] at last
      exact closes kind last

end TokenKind

namespace Token

/-- What a token is, apart from its place. -/
def face (t : Token) : TokenKind × String := (t.kind, t.text)

/-- The blanks and semicolons that may stand behind a statement. -/
def isClosing (t : Token) : Bool := t.isSpace || t.kind == .semicolon

theorem isClosing_eq_false_iff {t : Token} :
    t.isClosing = false ↔ t.kind ≠ .space ∧ t.kind ≠ .semicolon := by
  simp [isClosing, isSpace]

theorem isSpace_eq_false_iff {t : Token} : t.isSpace = false ↔ t.kind ≠ .space := by
  simp [isSpace]

theorem trim_eq (tokens : List Token) :
    trim tokens = ((tokens.dropWhile isSpace).reverse.dropWhile isClosing).reverse := rfl

theorem trim_of_trimmed {tokens : List Token} (trimmed : TokenKind.Trimmed (tokens.map kind)) :
    trim tokens = tokens := by
  have front : tokens.dropWhile isSpace = tokens := by
    cases tokens with
    | nil => rfl
    | cons t rest =>
      have first := isSpace_eq_false_iff.mpr (trimmed.opens t.kind rfl)
      rw [List.dropWhile_cons_of_neg (by simp [first])]
  have back : tokens.reverse.dropWhile isClosing = tokens.reverse := by
    cases reversed : tokens.reverse with
    | nil => rfl
    | cons t rest =>
      have last : (tokens.map kind).getLast? = some t.kind := by
        rw [List.getLast?_map, ← List.head?_reverse, reversed]
        rfl
      have final := isClosing_eq_false_iff.mpr (trimmed.closes t.kind last)
      rw [List.dropWhile_cons_of_neg (by simp [final])]
  rw [trim_eq, front, back, List.reverse_reverse]

/-- Trimming takes blanks from the front, and blanks and semicolons from the back. -/
theorem trim_spec (tokens : List Token) :
    ∃ front back, tokens = front ++ trim tokens ++ back ∧
      TokenKind.Trimmed ((trim tokens).map kind) ∧
      (∀ t ∈ front, t.isSpace = true) ∧ ∀ t ∈ back, t.isClosing = true := by
  have behind : tokens.dropWhile isSpace = trim tokens ++
      ((tokens.dropWhile isSpace).reverse.takeWhile isClosing).reverse := by
    rw [trim_eq, ← List.reverse_append, List.takeWhile_append_dropWhile, List.reverse_reverse]
  refine ⟨tokens.takeWhile isSpace,
    ((tokens.dropWhile isSpace).reverse.takeWhile isClosing).reverse, ?_, ⟨?_, ?_⟩, ?_, ?_⟩
  · rw [List.append_assoc, ← behind, List.takeWhile_append_dropWhile]
  · intro kind head
    obtain ⟨t, first, rfl⟩ := Option.map_eq_some_iff.mp (List.head?_map ▸ head)
    have kept : (tokens.dropWhile isSpace).head? = some t := by
      rw [behind, List.head?_append, first]
      rfl
    have stopped := List.head?_dropWhile_not isSpace tokens
    rw [kept] at stopped
    exact isSpace_eq_false_iff.mp stopped
  · intro kind final
    obtain ⟨t, last, rfl⟩ := Option.map_eq_some_iff.mp (List.getLast?_map ▸ final)
    rw [trim_eq, List.getLast?_reverse] at last
    have stopped := List.head?_dropWhile_not isClosing (tokens.dropWhile isSpace).reverse
    rw [last] at stopped
    exact isClosing_eq_false_iff.mp stopped
  · intro t member
    exact List.mem_takeWhile_imp member
  · intro t member
    exact List.mem_takeWhile_imp (List.mem_reverse.mp member)

theorem keyword?_firstKeyword? (tokens : List Token) :
    (firstKeyword? tokens).bind keyword? = tokens.findSome? keyword? := by
  induction tokens with
  | nil => rfl
  | cons t rest ih =>
    rw [firstKeyword?, List.find?_cons, List.findSome?_cons]
    cases found : t.keyword? with
    | none => simpa [firstKeyword?] using ih
    | some keyword => simp [found]

/-- Trimming takes nothing but blanks and semicolons away. -/
theorem exists_trim_between (tokens : List Token) :
    ∃ front back, tokens = front ++ trim tokens ++ back ∧
      (∀ t ∈ front, t.kind = .space ∨ t.kind = .semicolon) ∧
      ∀ t ∈ back, t.kind = .space ∨ t.kind = .semicolon := by
  obtain ⟨front, back, split, -, spaces, closing⟩ := trim_spec tokens
  refine ⟨front, back, split, fun t member => .inl ?_, fun t member => ?_⟩
  · simpa [isSpace] using spaces t member
  · simpa [isClosing, isSpace] using closing t member

/-- Trimming takes no keyword away. -/
theorem findSome?_keyword?_trim (tokens : List Token) :
    (trim tokens).findSome? keyword? = tokens.findSome? keyword? := by
  obtain ⟨front, back, split, noneInFront, noneBehind⟩ := exists_trim_between tokens
  have none {t : Token} (plain : t.kind = .space ∨ t.kind = .semicolon) : t.keyword? = none := by
    rcases plain with kind | kind <;> (rw [keyword?, kind]; rfl)
  conv_rhs => rw [split]
  rw [List.findSome?_append, List.findSome?_append,
    List.findSome?_eq_none_iff.mpr fun t member => none (noneInFront t member),
    List.findSome?_eq_none_iff.mpr fun t member => none (noneBehind t member),
    Option.none_or, Option.or_none]

end Token

namespace Lexeme

/-- The count of bytes that some lexemes cover. -/
def size (lexemes : List Lexeme) : Nat := (String.ofList (sources lexemes)).utf8ByteSize

theorem size_cons (lexeme : Lexeme) (rest : List Lexeme) :
    size (lexeme :: rest) = (String.ofList lexeme.source).utf8ByteSize + size rest := by
  rw [size, size, sources, List.flatMap_cons, String.ofList_append, String.utf8ByteSize_append,
    sources]

/-- What the token of a lexeme is for a reader of some keywords. -/
def face (keywords : List Keyword) (lexeme : Lexeme) : TokenKind × String :=
  Token.face ⟨lexeme.kindFor keywords, 0, String.ofList lexeme.source⟩

theorem kindFor_eq_iff {keywords : List Keyword} {lexeme : Lexeme} {kind : TokenKind}
    (other : kind.isWord = false) : lexeme.kindFor keywords = kind ↔ lexeme.kind = kind := by
  unfold kindFor
  split
  · next word =>
    rw [word]
    have differs : TokenKind.word ≠ kind := by
      rintro rfl
      cases other
    split
    · next keyword _ =>
      have keywordDiffers : TokenKind.keyword keyword ≠ kind := by
        rintro rfl
        cases other
      simp [differs, keywordDiffers]
    · simp [differs]
  · exact Iff.rfl

variable {keywords : List Keyword}

/-- The text of the token of a lexeme is the same for all readers. -/
theorem text_kindFor (start : Nat) (lexeme : Lexeme) :
    Token.text ⟨lexeme.kindFor keywords, start, String.ofList lexeme.source⟩ =
      if lexeme.kind = .space then " " else String.ofList lexeme.source := by
  simp only [Token.text, @kindFor_eq_iff keywords lexeme .space rfl]

theorem place_append (start : Nat) (before after : List Lexeme) :
    place keywords start (before ++ after) =
      place keywords start before ++ place keywords (start + size before) after := by
  induction before generalizing start with
  | nil => simp [place, size, sources]
  | cons lexeme rest ih => simp [place, ih, Token.stop, size_cons, Nat.add_assoc]

/-- Tokens side by side among placed ones are placed ones themselves. -/
theorem place_eq_append {start : Nat} {lexemes : List Lexeme} {front back : List Token}
    (placed : place keywords start lexemes = front ++ back) :
    ∃ before after, lexemes = before ++ after ∧ place keywords start before = front ∧
      place keywords (start + size before) after = back := by
  induction front generalizing start lexemes with
  | nil => exact ⟨[], lexemes, rfl, rfl, by simpa [size, sources] using placed⟩
  | cons t rest ih =>
    cases lexemes with
    | nil => simp [place] at placed
    | cons lexeme lexemes =>
      rw [place, List.cons_append, List.cons.injEq] at placed
      obtain ⟨first, placed⟩ := placed
      obtain ⟨before, after, rfl, same, later⟩ := ih placed
      refine ⟨lexeme :: before, after, rfl, by rw [place, first, ← first, same], ?_⟩
      rw [size_cons, ← Nat.add_assoc]
      exact later

@[simp]
theorem map_face_place (start : Nat) (lexemes : List Lexeme) :
    (place keywords start lexemes).map Token.face = lexemes.map (face keywords) := by
  induction lexemes generalizing start with
  | nil => rfl
  | cons lexeme rest ih =>
    simp only [place, List.map_cons, ih]
    rfl

@[simp]
theorem map_kind_place (start : Nat) (lexemes : List Lexeme) :
    (place keywords start lexemes).map Token.kind = lexemes.map (kindFor keywords) := by
  induction lexemes generalizing start with
  | nil => rfl
  | cons lexeme rest ih => simp only [place, List.map_cons, ih]

theorem le_start_of_mem_place {start : Nat} {lexemes : List Lexeme} {t : Token}
    (member : t ∈ place keywords start lexemes) : start ≤ t.start := by
  induction lexemes generalizing start with
  | nil => cases member
  | cons lexeme rest ih =>
    rcases List.mem_cons.mp member with rfl | later
    · exact Nat.le_refl _
    · have further := ih later
      simp only [Token.stop] at further
      omega

/-- The tokens of a cut begin one after the other. -/
theorem place_sorted {start : Nat} {lexemes : List Lexeme} (cut : Cut lexemes) :
    (place keywords start lexemes).Pairwise (·.start < ·.start) := by
  induction lexemes generalizing start with
  | nil => exact .nil
  | cons lexeme rest ih =>
    obtain ⟨formed, -, cut⟩ := cut_cons.mp cut
    refine List.pairwise_cons.mpr ⟨fun t member => ?_, ih cut⟩
    have further := le_start_of_mem_place member
    have bytes : (String.ofList lexeme.source).utf8ByteSize ≠ 0 := by
      rw [Ne, String.utf8ByteSize_eq_zero_iff, String.ofList_eq_empty_iff]
      exact formed.source_ne_nil
    simp only [Token.stop] at further ⊢
    omega

end Lexeme

/-- A statement can be read just if its text has a cut, and its tokens are those of
    the cut. -/
theorem tokenize_eq_ok_iff {sql : String} {keywords : List Keyword} {tokens : List Token} :
    tokenize sql keywords = .ok tokens ↔
      ∃ lexemes, Lexeme.Cut lexemes ∧ Lexeme.sources lexemes = sql.toList ∧
        Lexeme.place keywords 0 lexemes = tokens := by
  constructor
  · intro read
    unfold tokenize at read
    split at read
    · next lexemes scanned =>
      cases read
      obtain ⟨cut, covered⟩ := Lexeme.scan_eq_ok_iff.mp scanned
      exact ⟨lexemes, cut, covered, rfl⟩
    · cases read
  · rintro ⟨lexemes, cut, covered, rfl⟩
    rw [tokenize, Lexeme.scan_eq_ok_iff.mpr ⟨cut, covered⟩]

end DynamicSql.Sql
