import DynamicSql.Proofs.Outcome
import DynamicSql.Value.Path

/-!
# The grammar of paths

Which texts spell a path, said without the reader: a segment, and behind it any
number of indexes and of dots with a segment each. A segment is a name or an
index. The reader cuts a text into pieces and reads these from left to right, and
it accepts what the grammar derives and nothing else.
-/

namespace DynamicSql

namespace Text

/-- A numeral: decimal digits, at least one, perhaps behind a plus sign. -/
inductive Numeral : List Char → Nat → Prop
  | plain {digits : List Char} (nonempty : digits ≠ []) (decimal : ∀ c ∈ digits, c.isDigit = true) :
      Numeral digits (Nat.ofDigitChars 10 digits 0)
  | signed {digits : List Char} (nonempty : digits ≠ [])
      (decimal : ∀ c ∈ digits, c.isDigit = true) :
      Numeral ('+' :: digits) (Nat.ofDigitChars 10 digits 0)

theorem digitsValue?_eq_some_iff {digits : List Char} {value : Nat} :
    digitsValue? digits = some value ↔
      digits ≠ [] ∧ (∀ c ∈ digits, c.isDigit = true) ∧ Nat.ofDigitChars 10 digits 0 = value := by
  simp only [digitsValue?, List.isEmpty_iff, Option.ite_none_left_eq_some,
    Option.ite_none_right_eq_some, List.all_eq_true, Option.some.injEq, ne_eq]

/-- The numerals for a bound are those with a value below it. -/
theorem numeral?_eq_some_iff {bound value : Nat} {text : List Char} :
    numeral? bound text = some value ↔ Numeral text value ∧ value < bound := by
  have bounded {read : Option Nat} :
      (do let value ← read; if value < bound then some value else none) = some value ↔
        read = some value ∧ value < bound := by
    cases read with
    | none => simp
    | some other =>
      simp only [Option.bind_eq_bind, Option.bind_some, Option.ite_none_right_eq_some,
        Option.some.injEq]
      grind
  unfold numeral?
  split
  · next digits =>
    rw [bounded, digitsValue?_eq_some_iff]
    refine and_congr_left fun _ => ⟨?_, fun numeral => ?_⟩
    · rintro ⟨nonempty, decimal, rfl⟩
      exact .signed nonempty decimal
    · cases numeral with
      | plain _ decimal => exact absurd (decimal '+' List.mem_cons_self) (by decide)
      | signed nonempty decimal => exact ⟨nonempty, decimal, rfl⟩
  · next unsigned =>
    rw [bounded, digitsValue?_eq_some_iff]
    refine and_congr_left fun _ => ⟨?_, fun numeral => ?_⟩
    · rintro ⟨nonempty, decimal, rfl⟩
      exact .plain nonempty decimal
    · cases numeral with
      | plain nonempty decimal => exact ⟨nonempty, decimal, rfl⟩
      | signed => exact absurd rfl (unsigned _)

end Text

namespace Path

/-- An index between brackets; blanks around it do not count. -/
inductive SpellsIndex : List Char → Nat → Prop
  | brackets {content : List Char} {position : Nat} (closed : ']' ∉ content)
      (numeral : Text.Numeral (Text.trimChars content) position)
      (bounded : position < UInt64.size) :
      SpellsIndex ('[' :: (content ++ [']'])) position

/-- A segment of a path: a name that is more than blanks, without those around it, or an index. -/
inductive SpellsStep : List Char → Step → Prop
  | name {content : List Char} (noDot : '.' ∉ content) (noOpening : '[' ∉ content)
      (nonempty : Text.trimChars content ≠ []) (noClosing : ']' ∉ Text.trimChars content) :
      SpellsStep content (.field (String.ofList (Text.trimChars content)))
  | index {text : List Char} {position : Nat} (index : SpellsIndex text position) :
      SpellsStep text (.index position)

/-- What stands behind a segment: indexes, and dots with a segment each. So a name goes on to the
    next dot, the next opening bracket or the end. -/
inductive SpellsRest : List Char → Path → Prop
  | done : SpellsRest [] []
  | index {text rest : List Char} {position : Nat} {path : Path}
      (index : SpellsIndex text position) (others : SpellsRest rest path) :
      SpellsRest (text ++ rest) (.index position :: path)
  | dot {text rest : List Char} {step : Step} {path : Path}
      (segment : SpellsStep text step) (others : SpellsRest rest path) :
      SpellsRest ('.' :: (text ++ rest)) (step :: path)

/-- A text that spells a path: nothing, or a segment and what may stand behind it. -/
inductive Spells : List Char → Path → Prop
  | empty : Spells [] []
  | segment {text rest : List Char} {step : Step} {path : Path}
      (first : SpellsStep text step) (others : SpellsRest rest path) :
      Spells (text ++ rest) (step :: path)

/-- No name begins the pieces. -/
def NoName (pieces : List Piece) : Prop := ∀ content rest, pieces ≠ .name content :: rest

/-- A text and its pieces; a name is as long as it can be. -/
inductive Cut : List Char → List Piece → Prop
  | nil : Cut [] []
  | dot {text : List Char} {pieces : List Piece} (rest : Cut text pieces) :
      Cut ('.' :: text) (.dot :: pieces)
  | bracketed {content text : List Char} {pieces : List Piece} (closed : ']' ∉ content)
      (rest : Cut text pieces) :
      Cut ('[' :: (content ++ ']' :: text)) (.bracketed content :: pieces)
  | unclosed {text : List Char} (never : ']' ∉ text) : Cut ('[' :: text) [.unclosed]
  | name {content text : List Char} {pieces : List Piece} (nonempty : content ≠ [])
      (noDot : '.' ∉ content) (noOpening : '[' ∉ content) (ends : NoName pieces)
      (rest : Cut text pieces) : Cut (content ++ text) (.name content :: pieces)

theorem pieces_dot (rest : List Char) : pieces none ('.' :: rest) = .dot :: pieces none rest := by
  simp [pieces]

theorem pieces_inside {content rest before : List Char} (closed : ']' ∉ content) :
    pieces (some before) (content ++ ']' :: rest) =
      .bracketed (before.reverse ++ content) :: pieces none rest := by
  induction content generalizing before with
  | nil => simp [pieces]
  | cons c cs ih =>
    rw [List.mem_cons, not_or] at closed
    rw [List.cons_append, pieces, if_neg (Ne.symm closed.1), ih closed.2]
    simp

theorem pieces_bracketed {content rest : List Char} (closed : ']' ∉ content) :
    pieces none ('[' :: (content ++ ']' :: rest)) = .bracketed content :: pieces none rest := by
  rw [pieces, if_pos rfl, pieces_inside closed]
  rfl

/-- Characters without a dot and an opening bracket are read as one name. -/
theorem pieces_name {content rest : List Char} (nonempty : content ≠ []) (noDot : '.' ∉ content)
    (noOpening : '[' ∉ content) (ends : NoName (pieces none rest)) :
    pieces none (content ++ rest) = .name content :: pieces none rest := by
  induction content with
  | nil => exact absurd rfl nonempty
  | cons c cs ih =>
    rw [List.mem_cons, not_or] at noDot noOpening
    have step : pieces none (c :: cs ++ rest) = extendName c (pieces none (cs ++ rest)) := by
      rw [List.cons_append, pieces, if_neg (Ne.symm noOpening.1), if_neg (Ne.symm noDot.1)]
    rw [step]
    cases cs with
    | nil =>
      rw [List.nil_append]
      generalize pieces none rest = read at ends
      unfold extendName
      split
      · exact absurd rfl (ends _ _)
      · rfl
    | cons next cs =>
      rw [ih (List.cons_ne_nil next cs) noDot.2 noOpening.2]
      rfl

/-- A character that is no mark goes to the name behind it, or is a name by itself. -/
theorem Cut.extendName {c : Char} {text : List Char} {pieces : List Piece} (cut : Cut text pieces)
    (noDot : c ≠ '.') (noOpening : c ≠ '[') : Cut (c :: text) (extendName c pieces) := by
  have single : '.' ∉ [c] ∧ '[' ∉ [c] := by
    simp [Ne.symm noDot, Ne.symm noOpening]
  cases cut with
  | nil => exact .name (List.cons_ne_nil c []) single.1 single.2 (by simp [NoName]) .nil
  | dot rest =>
    exact .name (List.cons_ne_nil c []) single.1 single.2 (by simp [NoName]) (.dot rest)
  | bracketed closed rest =>
    exact .name (List.cons_ne_nil c []) single.1 single.2 (by simp [NoName])
      (.bracketed closed rest)
  | unclosed never =>
    exact .name (List.cons_ne_nil c []) single.1 single.2 (by simp [NoName]) (.unclosed never)
  | @name content text pieces _ noDot' noOpening' ends rest =>
    rw [← List.cons_append]
    exact .name (List.cons_ne_nil c content) (by simp [Ne.symm noDot, noDot'])
      (by simp [Ne.symm noOpening, noOpening']) ends rest

/-- The pieces of a text are a cut of it; inside a bracket what was read since then stands in
    front of the text. -/
theorem cut_pieces_from (state : Option (List Char)) (text : List Char)
    (closed : ∀ content, state = some content → ']' ∉ content) :
    Cut (((state.map fun content => '[' :: content.reverse).getD []) ++ text)
      (pieces state text) := by
  fun_induction pieces state text with
  | case1 => exact .nil
  | case2 content =>
    refine .unclosed ?_
    simpa using closed content rfl
  | case3 rest ih => simpa using ih (by simp)
  | case4 rest _ ih => exact .dot (by simpa using ih (by simp))
  | case5 c rest noOpening noDot ih => exact (ih (by simp)).extendName noDot noOpening
  | case6 content rest ih =>
    have inside : ']' ∉ content.reverse := by simpa using closed content rfl
    simpa using Cut.bracketed inside (ih (by simp))
  | case7 content c rest differs ih =>
    have inside : ']' ∉ c :: content := by
      simpa [Ne.symm differs] using closed content rfl
    simpa using ih (by simpa using inside)

theorem cut_pieces (text : List Char) : Cut text (pieces none text) :=
  cut_pieces_from none text (by simp)

theorem Cut.eq_nil {pieces : List Piece} (cut : Cut [] pieces) : pieces = [] := by
  generalize same : ([] : List Char) = text at cut
  cases cut with
  | nil => rfl
  | name nonempty => exact absurd (List.append_eq_nil_iff.mp same.symm).1 nonempty
  | _ => cases same

/-- What stands behind a segment does not begin with a name. -/
theorem SpellsRest.noName {text : List Char} {path : Path} (rest : SpellsRest text path) :
    NoName (pieces none text) := by
  cases rest with
  | done => simp [pieces, NoName]
  | index index =>
    cases index with
    | brackets closed =>
      rw [List.cons_append, List.append_assoc, List.singleton_append, pieces_bracketed closed]
      simp [NoName]
  | dot =>
    rw [pieces_dot]
    simp [NoName]

section Complete

variable {text rest : List Char} {path : Path}

/-- An index is read wherever it stands. -/
theorem SpellsIndex.ofPieces {position : Nat} (index : SpellsIndex text position)
    (read : ofPieces false (pieces none rest) = .ok path) (nameExpected : Bool) :
    ofPieces nameExpected (pieces none (text ++ rest)) = .ok (.index position :: path) := by
  cases index with
  | brackets closed numeral bounded =>
    rw [List.cons_append, List.append_assoc, List.singleton_append, pieces_bracketed closed,
      Path.ofPieces, Text.numeral?_eq_some_iff.mpr ⟨numeral, bounded⟩]
    dsimp only
    rw [read]
    rfl

/-- A segment is read where a name may stand, if no name follows it. -/
theorem SpellsStep.ofPieces {step : Step} (segment : SpellsStep text step)
    (ends : NoName (pieces none rest)) (read : ofPieces false (pieces none rest) = .ok path) :
    ofPieces true (pieces none (text ++ rest)) = .ok (step :: path) := by
  cases segment with
  | index index => exact index.ofPieces read true
  | name noDot noOpening content noClosing =>
    have nonempty : text ≠ [] := by
      rintro rfl
      exact content rfl
    rw [pieces_name nonempty noDot noOpening ends, Path.ofPieces]
    simp only [Bool.not_true, Bool.false_eq_true, if_false, content, noClosing, or_self, read]
    rfl

theorem SpellsRest.ofPieces (rest : SpellsRest text path) :
    ofPieces false (pieces none text) = .ok path := by
  induction rest with
  | done => rfl
  | index index _ ih => exact index.ofPieces ih false
  | @dot text rest step path segment others ih =>
    have read := segment.ofPieces others.noName ih
    have more : pieces none (text ++ rest) ≠ [] := by
      intro none
      rw [none] at read
      cases read
    rw [pieces_dot, Path.ofPieces, if_neg (by simp [more]), read]

theorem Spells.ofPieces (spells : Spells text path) :
    ofPieces true (pieces none text) = .ok path := by
  cases spells with
  | empty => rfl
  | segment first others => exact first.ofPieces others.noName others.ofPieces

end Complete

/-- What is read behind a segment is what may stand there, and what is read where a name may stand
    is spelled. -/
theorem Cut.sound {text : List Char} {pieces : List Piece} (cut : Cut text pieces) {path : Path} :
    (ofPieces false pieces = .ok path → SpellsRest text path) ∧
      (ofPieces true pieces = .ok path → Spells text path) := by
  induction cut generalizing path with
  | nil =>
    refine ⟨fun read => ?_, fun read => ?_⟩
    · cases read
      exact .done
    · cases read
      exact .empty
  | @dot text pieces rest ih =>
    refine ⟨fun read => ?_, fun read => ?_⟩
    · rw [ofPieces] at read
      split at read
      · cases read
      · next more =>
        cases ih.2 read with
        | empty => exact absurd (.inr rest.eq_nil) more
        | segment first others => exact .dot first others
    · rw [ofPieces, if_pos (.inl rfl)] at read
      cases read
  | @bracketed content text pieces closed rest ih =>
    have whole : '[' :: (content ++ ']' :: text) = '[' :: (content ++ [']']) ++ text := by simp
    have index {nameExpected : Bool}
        (read : ofPieces nameExpected (.bracketed content :: pieces) = .ok path) :
        ∃ position others, path = .index position :: others ∧
          SpellsIndex ('[' :: (content ++ [']'])) position ∧ SpellsRest text others := by
      rw [ofPieces] at read
      split at read
      · cases read
      · next position numeral =>
        obtain ⟨value, bounded⟩ := Text.numeral?_eq_some_iff.mp numeral
        obtain ⟨others, later, last⟩ := bind_eq_ok_iff.mp read
        cases last
        exact ⟨position, others, rfl, .brackets closed value bounded, ih.1 later⟩
    rw [whole]
    refine ⟨fun read => ?_, fun read => ?_⟩
    · obtain ⟨position, others, rfl, index, behind⟩ := index read
      exact .index index behind
    · obtain ⟨position, others, rfl, index, behind⟩ := index read
      exact .segment (.index index) behind
  | unclosed => exact ⟨nofun, nofun⟩
  | @name content text pieces _ noDot noOpening _ _ ih =>
    refine ⟨nofun, fun read => ?_⟩
    rw [ofPieces] at read
    simp only [Bool.not_true, Bool.false_eq_true, if_false] at read
    split at read
    · cases read
    · next named =>
      obtain ⟨others, later, last⟩ := bind_eq_ok_iff.mp read
      cases last
      rw [not_or] at named
      exact .segment (.name noDot noOpening named.1 named.2) (ih.1 later)

/-- The reader of paths accepts what the grammar derives. -/
theorem ofPieces_eq_ok_iff {text : List Char} {path : Path} :
    ofPieces true (pieces none text) = .ok path ↔ Spells text path :=
  ⟨(cut_pieces text).sound.2, Spells.ofPieces⟩

/-- Without the blanks around it, a text that is read as a path spells it. -/
theorem parse_eq_ok_iff {source : String} {path : Path} :
    parse source = .ok path ↔ Spells (Text.trimChars source.toList) path := by
  rw [← ofPieces_eq_ok_iff, parse]
  cases ofPieces true (pieces none (Text.trimChars source.toList)) <;> simp

/-- A text that is not read as a path is refused with the whole of it. -/
theorem parse_eq_ok_or_error (source : String) :
    (∃ path, parse source = .ok path) ∨
      ∃ fault, parse source = .error (.template (.path fault) source) := by
  unfold parse
  split
  · exact .inl ⟨_, rfl⟩
  · exact .inr ⟨_, rfl⟩

/-- A text is read as the path that it spells, blanks around it aside, and a text that spells none
    is refused as a fault in the whole of it. -/
theorem parse_iff_spells (source : String) :
    (∀ path, parse source = .ok path ↔ Spells (Text.trimChars source.toList) path) ∧
      ((∀ path, ¬ Spells (Text.trimChars source.toList) path) ↔
        ∃ fault, parse source = .error (.template (.path fault) source)) := by
  refine ⟨fun path => parse_eq_ok_iff, fun none => ?_, fun ⟨fault, failed⟩ path spells => ?_⟩
  · rcases parse_eq_ok_or_error source with ⟨path, read⟩ | failed
    · exact absurd (parse_eq_ok_iff.mp read) (none path)
    · exact failed
  · cases failed.symm.trans (parse_eq_ok_iff.mpr spells)

example : (parse " a b .c[ +07 ].[0] ").toOption =
    some [.field "a b", .field "c", .index 7, .index 0] := by
  decide +kernel

end Path

end DynamicSql
