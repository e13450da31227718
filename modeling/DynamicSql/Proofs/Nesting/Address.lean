import DynamicSql.Proofs.Paths.Grammar
import DynamicSql.Text.Alphanumeric

/-!
# Addresses

A path through nested arrays is written segment by segment: the name of a field,
and behind it nothing, an empty index, or the index of an item. If the names are
words, the text is read segment by segment again, and it leads where its steps do.
-/

namespace DynamicSql

namespace Text

/-- A letter, a digit or an underscore of ASCII. -/
def isWordChar (c : Char) : Bool := c.isAlphanum || c == '_'

/-- A name of word characters, at least one. -/
structure Word (name : String) : Prop where
  nonempty : name.toList ≠ []
  chars : ∀ c ∈ name.toList, isWordChar c = true

instance (name : String) : Decidable (Word name) :=
  decidable_of_iff (name.toList ≠ [] ∧ name.toList.all isWordChar = true)
    ⟨fun ⟨nonempty, chars⟩ => ⟨nonempty, List.all_eq_true.mp chars⟩,
      fun ⟨nonempty, chars⟩ => ⟨nonempty, List.all_eq_true.mpr chars⟩⟩

@[simp]
theorem isWordChar_opening : isWordChar '[' = false := by decide

@[simp]
theorem isWordChar_closing : isWordChar ']' = false := by decide

@[simp]
theorem isWordChar_dot : isWordChar '.' = false := by decide

theorem ne_of_isWordChar {c sign : Char} (word : isWordChar c = true)
    (special : isWordChar sign = false) : c ≠ sign := by
  rintro rfl
  rw [word] at special
  cases special

/-- The signs of an address stand in no name. -/
theorem Word.not_mem {name : String} (word : Word name) {sign : Char}
    (special : isWordChar sign = false) : sign ∉ name.toList := by
  intro member
  exact ne_of_isWordChar (word.chars sign member) special rfl

/-- The code point of a word character. -/
theorem toNat_of_isWordChar {c : Char} (word : isWordChar c = true) :
    (48 ≤ c.toNat ∧ c.toNat ≤ 57) ∨ (65 ≤ c.toNat ∧ c.toNat ≤ 90) ∨
      (97 ≤ c.toNat ∧ c.toNat ≤ 122) ∨ c = '_' := by
  have ranges : isWordChar c =
      (decide (c.val ≥ 65 ∧ c.val ≤ 90) || (decide (c.val ≥ 97) && decide (c.val ≤ 122)) ||
        (decide (c.val ≥ 48) && decide (c.val ≤ 57)) || c == '_') := rfl
  rw [ranges] at word
  simp only [Bool.or_eq_true, Bool.and_eq_true, decide_eq_true_eq, beq_iff_eq, ge_iff_le,
    UInt32.le_iff_toNat_le] at word
  simp only [Char.toNat]
  rcases word with ((word | word) | word) | word
  · exact .inr (.inl word)
  · exact .inr (.inr (.inl word))
  · exact .inl word
  · exact .inr (.inr (.inr word))

theorem isNameChar_of_isWordChar {c : Char} (word : isWordChar c = true) :
    isNameChar c = true := by
  have ranges : ∃ more, alphanumericRanges =
      (0x30, 0x39) :: (0x41, 0x5A) :: (0x61, 0x7A) :: more := ⟨_, rfl⟩
  obtain ⟨more, ranges⟩ := ranges
  rw [isNameChar, isAlphanumeric, ranges]
  rcases toNat_of_isWordChar word with digit | upper | lower | rfl
  · simp [inRanges, digit]
  · have above : ¬ c.toNat < 48 := by omega
    simp [inRanges, upper, above]
  · have above : ¬ c.toNat < 48 ∧ ¬ c.toNat < 65 := by omega
    simp [inRanges, lower, above]
  · simp

theorem not_isBlank_of_isWordChar {c : Char} (word : isWordChar c = true) :
    isBlank c = false := by
  have code : c.toNat ≠ 0x85 ∧ c.toNat ≠ 0xA0 ∧ 32 < c.toNat ∧ c.toNat < 123 := by
    rcases toNat_of_isWordChar word with digit | upper | lower | rfl
    · omega
    · omega
    · omega
    · decide
  simp only [isBlank, Bool.or_eq_false_iff, Bool.and_eq_false_iff, decide_eq_false_iff_not,
    beq_eq_false_iff_ne]
  omega

theorem isWordChar_of_isDigit {c : Char} (digit : c.isDigit = true) : isWordChar c = true := by
  simp [isWordChar, Char.isAlphanum, digit]

/-- Text without blanks has none around it. -/
theorem trimChars_of_not_isBlank {text : List Char} (none : ∀ c ∈ text, isBlank c = false) :
    trimChars text = text := by
  have front : ∀ {cs : List Char}, (∀ c ∈ cs, isBlank c = false) → cs.dropWhile isBlank = cs := by
    intro cs none
    cases cs with
    | nil => rfl
    | cons c rest =>
      have first := none c List.mem_cons_self
      rw [List.dropWhile_cons_of_neg (by simp [first])]
  have back : ∀ c ∈ text.reverse, isBlank c = false := by
    intro c member
    exact none c (List.mem_reverse.mp member)
  rw [trimChars, dropTrailingBlanks, front none, front back, List.reverse_reverse]

theorem trim_of_not_isBlank {text : String} (none : ∀ c ∈ text.toList, isBlank c = false) :
    trim text = text := by
  rw [trim, trimChars_of_not_isBlank none, String.ofList_toList]

theorem isWordChar_of_mem_toDigits {c : Char} {n : Nat} (member : c ∈ Nat.toDigits 10 n) :
    isWordChar c = true :=
  isWordChar_of_isDigit (Nat.isDigit_of_mem_toDigits (by decide) (by decide) member)

theorem not_mem_toDigits {sign : Char} (special : isWordChar sign = false) (n : Nat) :
    sign ∉ Nat.toDigits 10 n := by
  intro member
  exact ne_of_isWordChar (isWordChar_of_mem_toDigits member) special rfl

/-- A number is written with a first digit, which is no bracket. -/
theorem toDigits_eq_cons (n : Nat) :
    ∃ digit more, Nat.toDigits 10 n = digit :: more ∧ digit ≠ ']' := by
  cases digits : Nat.toDigits 10 n with
  | nil => exact absurd digits Nat.toDigits_ne_nil
  | cons digit more =>
    have word := isWordChar_of_mem_toDigits (by rw [digits]; exact List.mem_cons_self)
    exact ⟨digit, more, rfl, ne_of_isWordChar word isWordChar_closing⟩

/-- The digits of a number below a bound are a numeral for it. -/
theorem numeral?_toDigits {bound n : Nat} (less : n < bound) :
    numeral? bound (Nat.toDigits 10 n) = some n := by
  have digits : ∀ c ∈ Nat.toDigits 10 n, c.isDigit = true := by
    intro c member
    exact Nat.isDigit_of_mem_toDigits (by decide) (by decide) member
  have value : digitsValue? (Nat.toDigits 10 n) = some n := by
    rw [digitsValue?, if_neg (by simp [Nat.toDigits_ne_nil]),
      if_pos (List.all_eq_true.mpr digits), Nat.ofDigitChars_ten_toDigits]
  unfold numeral?
  split
  · next rest starts =>
    have sign := digits '+' (by rw [starts]; exact List.mem_cons_self)
    exact absurd sign (by decide)
  · rw [value]
    simp [less]

end Text

/-- What stands behind the name of a segment. -/
inductive Place where
  | bare
  | blank
  | item (index : Nat)
  deriving DecidableEq, Repr

/-- A segment of the text of a path: a field, perhaps with an index. -/
structure Segment where
  name : String
  place : Place
  deriving DecidableEq, Repr

namespace Place

/-- An index as it is written. -/
def chars : Place → List Char
  | bare => []
  | blank => ['[', ']']
  | item index => '[' :: (Nat.toDigits 10 index ++ [']'])

/-- An index as it is read. -/
def pieces : Place → List Path.Piece
  | bare => []
  | blank => [.bracketed []]
  | item index => [.bracketed (Nat.toDigits 10 index)]

end Place

namespace Segment

/-- A segment as it is written. -/
def chars (segment : Segment) : List Char := segment.name.toList ++ segment.place.chars

/-- A segment as it is read. -/
def pieces (segment : Segment) : List Path.Piece :=
  .name segment.name.toList :: segment.place.pieces

/-- Segments behind other ones as they are written. -/
def spellRest (segments : List Segment) : List Char := segments.flatMap ('.' :: ·.chars)

/-- Segments as they are written. -/
def spell : List Segment → List Char
  | [] => []
  | first :: rest => first.chars ++ spellRest rest

theorem spell_ne_nil {segments : List Segment} (some : segments ≠ [])
    (words : ∀ segment ∈ segments, Text.Word segment.name) : spell segments ≠ [] := by
  cases segments with
  | nil => exact absurd rfl some
  | cons first rest =>
    have word := words first List.mem_cons_self
    simp [spell, chars, word.nonempty]

/-- A condition on all characters of some segments. -/
theorem forall_mem_spell {P : Char → Prop} (dot : P '.') (opening : P '[') (closing : P ']')
    (word : ∀ c, Text.isWordChar c = true → P c) {segments : List Segment}
    (words : ∀ segment ∈ segments, Text.Word segment.name) : ∀ c ∈ spell segments, P c := by
  have inChars : ∀ segment ∈ segments, ∀ c ∈ segment.chars, P c := by
    intro segment among c member
    rcases List.mem_append.mp member with inName | inPlace
    · exact word c ((words segment among).chars c inName)
    · cases place : segment.place with
      | bare => simp [place, Place.chars] at inPlace
      | blank =>
        rw [place] at inPlace
        simp only [Place.chars, List.mem_cons, List.not_mem_nil, or_false] at inPlace
        rcases inPlace with rfl | rfl
        · exact opening
        · exact closing
      | item index =>
        rw [place] at inPlace
        simp only [Place.chars, List.mem_cons, List.mem_append, List.not_mem_nil, or_false]
          at inPlace
        rcases inPlace with rfl | digit | rfl
        · exact opening
        · exact word c (Text.isWordChar_of_mem_toDigits digit)
        · exact closing
  cases segments with
  | nil => simp [spell]
  | cons first rest =>
    intro c member
    rcases List.mem_append.mp member with here | later
    · exact inChars first List.mem_cons_self c here
    · obtain ⟨segment, among, inside⟩ := List.mem_flatMap.mp later
      rcases List.mem_cons.mp inside with rfl | inside
      · exact dot
      · exact inChars segment (List.mem_cons_of_mem _ among) c inside

end Segment

namespace Segment

/-- A segment can be read as steps: it has no empty index, and its index is a number
    of sixty-four bits. -/
structure Readable (segment : Segment) : Prop where
  word : Text.Word segment.name
  filled : segment.place ≠ .blank
  bounded : ∀ index, segment.place = .item index → index < UInt64.size

/-- The steps of a segment. -/
def steps (segment : Segment) : Path :=
  match segment.place with
  | .item index => [.field segment.name, .index index]
  | _ => [.field segment.name]

end Segment

namespace Path

theorem pieces_place (place : Place) (rest : List Char) :
    pieces none (place.chars ++ rest) = place.pieces ++ pieces none rest := by
  cases place with
  | bare => rfl
  | blank => exact pieces_bracketed (List.not_mem_nil (a := ']'))
  | item index =>
    have noBracket := Text.not_mem_toDigits Text.isWordChar_closing index
    simp only [Place.chars, List.cons_append, List.append_assoc, List.nil_append]
    exact pieces_bracketed noBracket

/-- Segments behind other ones are read one after the other. -/
theorem pieces_spellRest {segments : List Segment}
    (words : ∀ segment ∈ segments, Text.Word segment.name) :
    pieces none (Segment.spellRest segments) = segments.flatMap (.dot :: ·.pieces) := by
  have segment_ends (rest : List Segment) (place : Place)
      (read : pieces none (Segment.spellRest rest) = rest.flatMap (.dot :: ·.pieces)) :
      NoName (pieces none (place.chars ++ Segment.spellRest rest)) := by
    rw [pieces_place, read]
    cases place <;> cases rest <;> simp [NoName, Place.pieces]
  induction segments with
  | nil => rfl
  | cons segment rest ih =>
    obtain ⟨first, later⟩ := List.forall_mem_cons.mp words
    have read := ih later
    rw [Segment.spellRest, List.flatMap_cons, ← Segment.spellRest, List.cons_append]
    rw [pieces_dot, Segment.chars, List.append_assoc,
      pieces_name first.nonempty (first.not_mem Text.isWordChar_dot)
        (first.not_mem Text.isWordChar_opening) (segment_ends rest segment.place read),
      pieces_place, read]
    simp [Segment.pieces]

/-- Segments are read one after the other. -/
theorem pieces_spell {first : Segment} {rest : List Segment}
    (words : ∀ segment ∈ first :: rest, Text.Word segment.name) :
    pieces none (Segment.spell (first :: rest)) =
      first.pieces ++ rest.flatMap (.dot :: ·.pieces) := by
  have behind := pieces_spellRest words
  rw [Segment.spellRest, List.flatMap_cons, ← Segment.spellRest, List.cons_append,
    pieces_dot] at behind
  exact List.tail_eq_of_cons_eq behind

/-- A place ends where no bracket follows. -/
theorem place_pieces_inj {place other : Place} {more others : List Piece}
    (ends : ∀ content rest, more ≠ .bracketed content :: rest)
    (otherEnds : ∀ content rest, others ≠ .bracketed content :: rest)
    (same : place.pieces ++ more = other.pieces ++ others) : place = other ∧ more = others := by
  have digits (index : Nat) : Nat.toDigits 10 index ≠ [] := Nat.toDigits_ne_nil
  cases place with
  | bare =>
    cases other with
    | bare => exact ⟨rfl, same⟩
    | blank => exact absurd same (ends _ _)
    | item index => exact absurd same (ends _ _)
  | blank =>
    cases other with
    | bare => exact absurd same.symm (otherEnds _ _)
    | blank => exact ⟨rfl, List.tail_eq_of_cons_eq same⟩
    | item index =>
      have content := List.head_eq_of_cons_eq same
      exact absurd (Piece.bracketed.inj content).symm (digits index)
  | item index =>
    cases other with
    | bare => exact absurd same.symm (otherEnds _ _)
    | blank =>
      have content := List.head_eq_of_cons_eq same
      exact absurd (Piece.bracketed.inj content) (digits index)
    | item position =>
      have content := Piece.bracketed.inj (List.head_eq_of_cons_eq same)
      have numbers := congrArg (Nat.ofDigitChars 10 · 0) content
      simp only [Nat.ofDigitChars_ten_toDigits] at numbers
      exact ⟨by rw [numbers], List.tail_eq_of_cons_eq same⟩

theorem flatMap_pieces_inj {segments others : List Segment}
    (same : segments.flatMap (.dot :: ·.pieces) = others.flatMap (.dot :: ·.pieces)) :
    segments = others := by
  have ends (segments : List Segment) (content : List Char) (rest : List Piece) :
      segments.flatMap (.dot :: ·.pieces) ≠ .bracketed content :: rest := by
    cases segments <;> simp
  induction segments generalizing others with
  | nil =>
    cases others with
    | nil => rfl
    | cons other others => simp at same
  | cons segment rest ih =>
    cases others with
    | nil => simp at same
    | cons other others =>
      obtain ⟨name, place⟩ := segment
      obtain ⟨otherName, otherPlace⟩ := other
      simp only [List.flatMap_cons, List.cons_append, Segment.pieces, List.cons.injEq,
        Piece.name.injEq, true_and] at same
      obtain ⟨names, behind⟩ := same
      obtain ⟨places, later⟩ := place_pieces_inj (ends _) (ends _) behind
      rw [String.toList_inj.mp names, places, ih later]

/-- Segments whose names are words can be told apart by how they are written. -/
theorem spell_inj {segments others : List Segment}
    (words : ∀ segment ∈ segments, Text.Word segment.name)
    (otherWords : ∀ segment ∈ others, Text.Word segment.name)
    (same : Segment.spell segments = Segment.spell others) : segments = others := by
  cases segments with
  | nil =>
    cases others with
    | nil => rfl
    | cons other others => exact absurd same.symm (Segment.spell_ne_nil (by simp) otherWords)
  | cons segment rest =>
    cases others with
    | nil => exact absurd same (Segment.spell_ne_nil (by simp) words)
    | cons other others =>
      have read := congrArg (pieces none) same
      rw [pieces_spell words, pieces_spell otherWords] at read
      refine flatMap_pieces_inj ?_
      rw [List.flatMap_cons, List.flatMap_cons, List.cons_append, List.cons_append, read]

theorem ofPieces_segment {segment : Segment} (readable : segment.Readable)
    {more : List Piece} {path : Path} (rest : ofPieces false more = .ok path) :
    ofPieces true (segment.pieces ++ more) = .ok (segment.steps ++ path) := by
  obtain ⟨name, place⟩ := segment
  obtain ⟨word, filled, bounded⟩ := readable
  dsimp only at word filled bounded
  have trimmed : Text.trimChars name.toList = name.toList :=
    Text.trimChars_of_not_isBlank fun c member =>
      Text.not_isBlank_of_isWordChar (word.chars c member)
  have named : ¬ (name.toList = [] ∨ ']' ∈ name.toList) := by
    rintro (empty | bracket)
    · exact word.nonempty empty
    · exact word.not_mem Text.isWordChar_closing bracket
  rw [Segment.pieces, List.cons_append, ofPieces]
  simp only [Bool.not_true, Bool.false_eq_true, ↓reduceIte, trimmed, named, String.ofList_toList]
  cases place with
  | blank => exact absurd rfl filled
  | bare =>
    rw [Place.pieces, List.nil_append, rest]
    rfl
  | item index =>
    have noBlanks : Text.trimChars (Nat.toDigits 10 index) = Nat.toDigits 10 index :=
      Text.trimChars_of_not_isBlank fun c member =>
        Text.not_isBlank_of_isWordChar (Text.isWordChar_of_mem_toDigits member)
    rw [Place.pieces, List.singleton_append, ofPieces, noBlanks,
      Text.numeral?_toDigits (bounded index rfl)]
    dsimp only
    rw [rest]
    rfl

theorem ofPieces_rest {segments : List Segment}
    (readable : ∀ segment ∈ segments, segment.Readable) :
    ofPieces false (segments.flatMap (.dot :: ·.pieces)) =
      .ok (segments.flatMap Segment.steps) := by
  induction segments with
  | nil => rfl
  | cons segment rest ih =>
    obtain ⟨first, later⟩ := List.forall_mem_cons.mp readable
    rw [List.flatMap_cons, List.flatMap_cons, List.cons_append, ofPieces, if_neg (by
      simp [Segment.pieces])]
    exact ofPieces_segment first (ih later)

/-- The text of readable segments is the path of their steps. -/
theorem parse_spell {first : Segment} {rest : List Segment}
    (readable : ∀ segment ∈ first :: rest, segment.Readable) :
    parse (String.ofList (Segment.spell (first :: rest))) =
      .ok ((first :: rest).flatMap Segment.steps) := by
  have words : ∀ segment ∈ first :: rest, Text.Word segment.name := by
    intro segment member
    exact (readable segment member).word
  have noBlanks : ∀ c ∈ Segment.spell (first :: rest), Text.isBlank c = false :=
    Segment.forall_mem_spell (by decide) (by decide) (by decide)
      (fun _ => Text.not_isBlank_of_isWordChar) words
  obtain ⟨here, later⟩ := List.forall_mem_cons.mp readable
  have read := ofPieces_segment here (ofPieces_rest later)
  rw [parse, String.toList_ofList, Text.trimChars_of_not_isBlank noBlanks, pieces_spell words,
    read, List.flatMap_cons]

end Path

end DynamicSql
