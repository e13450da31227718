import DynamicSql.Proofs.Iteration.Indexes
import DynamicSql.Proofs.Nesting.Address
import DynamicSql.Proofs.Placeholders.Division
import DynamicSql.Proofs.Rendering.Run

/-!
# Placeholders for addresses

A placeholder that holds an address and nothing else declares the parameter at
that address, and the loops put their indexes into the address.
-/

namespace DynamicSql

/-- A character that an address may be made of. -/
def Text.isAddressChar (c : Char) : Bool := isWordChar c || c == '.' || c == '[' || c == ']'

namespace Text

theorem isAddressChar_of_isDigit {c : Char} (digit : c.isDigit = true) :
    isAddressChar c = true := by
  simp [isAddressChar, isWordChar_of_isDigit digit]

theorem not_isBlank_of_isAddressChar {c : Char} (address : isAddressChar c = true) :
    isBlank c = false := by
  simp only [isAddressChar, Bool.or_eq_true, beq_iff_eq] at address
  rcases address with ((word | rfl) | rfl) | rfl
  · exact not_isBlank_of_isWordChar word
  · decide
  · decide
  · decide

/-- The characters with a meaning in templates do not stand in addresses. -/
theorem not_mem_of_isAddressChar {c : Char} {text : List Char}
    (address : ∀ c ∈ text, isAddressChar c = true) (special : isAddressChar c = false) :
    c ∉ text := by
  intro member
  rw [address c member] at special
  cases special

/-- Segments whose names are words are spelled with such characters. -/
theorem isAddressChar_of_mem_spell {segments : List Segment}
    (words : ∀ segment ∈ segments, Word segment.name) :
    ∀ c ∈ Segment.spell segments, isAddressChar c = true :=
  Segment.forall_mem_spell (by decide) (by decide) (by decide)
    (fun c word => by simp [isAddressChar, word]) words

end Text

/-- An address with its placeholder signs, with the indexes of the loops. -/
theorem Frames.qualifyPlaceholders_address (frames : Frames) {body : List Char}
    (address : ∀ c ∈ body, Text.isAddressChar c = true) :
    frames.qualifyPlaceholders (String.ofList ('#' :: (body ++ ['#']))) =
      String.ofList ('#' :: (frames.qualify body ++ ['#'])) := by
  have noSign := Text.not_mem_of_isAddressChar (c := '#') address (by decide)
  have qualified : ∀ c ∈ frames.qualify body, Text.isAddressChar c = true :=
    frames.forall_mem_qualify (by decide) (by decide)
      (fun _ => Text.isAddressChar_of_isDigit) address
  have noDollar : '$' ∉ '#' :: (frames.qualify body ++ ['#']) := by
    have inside := Text.not_mem_of_isAddressChar (c := '$') qualified (by decide)
    simp [inside]
  have first : frames.qualifyEnclosed '#' ('#' :: (body ++ ['#'])) =
      '#' :: (frames.qualify body ++ ['#']) := by
    rw [qualifyEnclosed, Text.spans_placeholder noSign]
    simp [Text.Span.mapEnclosed, Text.Span.source]
  have second : frames.qualifyEnclosed '$' ('#' :: (frames.qualify body ++ ['#'])) =
      '#' :: (frames.qualify body ++ ['#']) := by
    rw [qualifyEnclosed, Text.spans, List.splitOn_eq_singleton noDollar]
    simp [Text.pairParts, Text.Span.mapEnclosed, Text.Span.source]
  rw [qualifyPlaceholders, String.toList_ofList, first, second]

/-- An address alone declares the parameter at it. -/
theorem Declaration.parse_address {body : List Char} (nonempty : body ≠ [])
    (address : ∀ c ∈ body, Text.isAddressChar c = true) :
    parse (String.ofList body) = .ok { property := String.ofList body } := by
  have noColon := Text.not_mem_of_isAddressChar (c := ':') address (by decide)
  have noComma := Text.not_mem_of_isAddressChar (c := ',') address (by decide)
  have trimmed : Text.trim (String.ofList body) = String.ofList body := by
    apply Text.trim_of_not_isBlank
    intro c member
    rw [String.toList_ofList] at member
    exact Text.not_isBlank_of_isAddressChar (address c member)
  have filled : (String.ofList body).isEmpty = false := by
    simpa using nonempty
  rw [parse, String.toList_ofList, if_neg noColon, ofAttributes, String.toList_ofList,
    List.splitOn_eq_singleton noComma]
  simp only [named, trimmed, filled]
  rfl

/-- A placeholder for an address gives one marker, bound to what is at the address. -/
theorem Fragment.parse_address_eq_ok {cls : ParameterClass} {converters : Converters}
    {body : List Char} (nonempty : body ≠ [])
    (address : ∀ c ∈ body, Text.isAddressChar c = true) {fragment : Fragment} :
    parse cls converters (String.ofList ('#' :: (body ++ ['#']))) = .ok fragment ↔
      ∃ converter,
        Declaration.converter { property := String.ofList body } cls converters = .ok converter ∧
        fragment = .marker ⟨{ property := String.ofList body }, converter⟩ :=
  parse_placeholder_eq_ok nonempty (Text.not_mem_of_isAddressChar address (by decide))
    (Declaration.parse_address nonempty address)

end DynamicSql
