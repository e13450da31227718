import DynamicSql.Proofs.Nesting.Address
import DynamicSql.Template.Frames

/-!
# Filling in indexes

What a loop does to the address of an item. A loop whose array is one field puts
its index behind every segment of that name that has none. A loop whose array is
behind an index puts its own where the address goes on from there, and nowhere
else as long as no other index is filled in.
-/

namespace DynamicSql

namespace Text

variable {pattern replacement : List Char}

theorem replaceFrom_covered (covered : Nat) (text : List Char) :
    replaceFrom pattern replacement covered true text =
      replaceFrom pattern replacement 0 true (text.drop covered) := by
  induction covered generalizing text with
  | zero => rfl
  | succ covered ih =>
    cases text with
    | nil => simp [replaceFrom]
    | cons c rest => rw [replaceFrom, ih, List.drop_succ_cons]

/-- An occurrence is replaced if a name may begin there; a name may begin behind it. -/
theorem replaceFrom_pattern (nonempty : pattern ≠ []) (mayBegin : Bool) (rest : List Char) :
    replaceFrom pattern replacement 0 mayBegin (pattern ++ rest) =
      (if mayBegin then replacement else pattern) ++
        replaceFrom pattern replacement 0 true rest := by
  cases same : pattern with
  | nil => exact absurd same nonempty
  | cons c more =>
    have found : (c :: more).isPrefixOf (c :: (more ++ rest)) = true :=
      List.isPrefixOf_iff_prefix.mpr ⟨rest, by simp⟩
    rw [List.cons_append, replaceFrom, if_pos found, replaceFrom_covered]
    simp

theorem replaceFrom_cons {c : Char} {rest : List Char} (missed : ¬ pattern <+: c :: rest)
    (mayBegin : Bool) :
    replaceFrom pattern replacement 0 mayBegin (c :: rest) =
      c :: replaceFrom pattern replacement 0 (! isNameChar c) rest := by
  rw [replaceFrom, if_neg (by simpa using missed)]

/-- No word goes on at the beginning of a text. -/
def NoWord (text : List Char) : Prop := ∀ c ∈ text.head?, isWordChar c = false

theorem noWord_cons {c : Char} (notWord : isWordChar c = false) (rest : List Char) :
    NoWord (c :: rest) := by
  intro first member
  cases member
  exact notWord

/-- Two words with something else behind them are the same. -/
theorem word_eq_of_begins {word other behind text : List Char} {mark : Char}
    (chars : ∀ c ∈ word, isWordChar c = true) (otherChars : ∀ c ∈ other, isWordChar c = true)
    (markEnds : isWordChar mark = false) (ends : NoWord text)
    (found : word ++ mark :: behind <+: other ++ text) :
    word = other ∧ mark :: behind <+: text := by
  obtain ⟨rest, same⟩ := found
  rw [List.append_assoc, List.cons_append] at same
  rcases List.append_eq_append_iff.mp same with ⟨more, rfl, behindSame⟩ | ⟨more, rfl, textSame⟩
  · cases more with
    | nil =>
      rw [List.nil_append] at behindSame
      exact ⟨(List.append_nil word).symm, rest, by rw [List.cons_append, behindSame]⟩
    | cons c more =>
      rw [List.cons_append] at behindSame
      have head := List.head_eq_of_cons_eq behindSame
      have inOther := otherChars c (List.mem_append_right _ List.mem_cons_self)
      rw [← head, markEnds] at inOther
      cases inOther
  · cases more with
    | nil =>
      rw [List.nil_append] at textSame
      exact ⟨List.append_nil other, rest, by rw [List.cons_append, textSame]⟩
    | cons c more =>
      have inWord := chars c (List.mem_append_right _ List.mem_cons_self)
      have notWord : isWordChar c = false := ends c (by rw [textSame]; rfl)
      rw [inWord] at notWord
      cases notWord

section Field

variable {word filled : List Char} (nonempty : word ≠ [])
  (chars : ∀ c ∈ word, isWordChar c = true)

include nonempty chars

/-- An occurrence of a field begins with a word character. -/
theorem replaceFrom_field_cons {c : Char} (notWord : isWordChar c = false) (mayBegin : Bool)
    (rest : List Char) :
    replaceFrom (word ++ ['[', ']']) filled 0 mayBegin (c :: rest) =
      c :: replaceFrom (word ++ ['[', ']']) filled 0 (! isNameChar c) rest := by
  refine replaceFrom_cons ?_ mayBegin
  rintro ⟨behind, same⟩
  cases word with
  | nil => exact nonempty rfl
  | cons first more =>
    have inWord := chars first List.mem_cons_self
    rw [List.head_eq_of_cons_eq same, notWord] at inWord
    cases inWord

theorem replaceFrom_field_blank (mayBegin : Bool) (rest : List Char) :
    replaceFrom (word ++ ['[', ']']) filled 0 mayBegin ('[' :: ']' :: rest) =
      '[' :: ']' :: replaceFrom (word ++ ['[', ']']) filled 0 true rest := by
  rw [replaceFrom_field_cons nonempty chars isWordChar_opening,
    replaceFrom_field_cons nonempty chars isWordChar_closing]
  rfl

/-- Inside a word nothing is replaced, although an occurrence may end with the word. -/
theorem replaceFrom_field_inside {other text : List Char}
    (otherChars : ∀ c ∈ other, isWordChar c = true) (ends : NoWord text) :
    replaceFrom (word ++ ['[', ']']) filled 0 false (other ++ text) =
      other ++ replaceFrom (word ++ ['[', ']']) filled 0 false text := by
  induction other with
  | nil => rfl
  | cons c more ih =>
    obtain ⟨first, later⟩ := List.forall_mem_cons.mp otherChars
    by_cases found : word ++ ['[', ']'] <+: c :: more ++ text
    · obtain ⟨same, behind⟩ := word_eq_of_begins chars otherChars (by decide) ends found
      obtain ⟨rest, rfl⟩ := behind
      rw [← same, ← List.append_assoc, replaceFrom_pattern (by simp), if_neg (by decide),
        List.append_assoc]
      exact congrArg (word ++ ·) (replaceFrom_field_blank nonempty chars false rest).symm
    · rw [List.cons_append] at found ⊢
      rw [replaceFrom_cons found, isNameChar_of_isWordChar first, Bool.not_true, ih later,
        List.cons_append]

/-- A word is left as it is unless it is the field and an empty index follows. -/
theorem replaceFrom_field_other {other text : List Char}
    (otherChars : ∀ c ∈ other, isWordChar c = true) (ends : NoWord text) (some : other ≠ [])
    (differs : ¬ (word = other ∧ ['[', ']'] <+: text)) :
    replaceFrom (word ++ ['[', ']']) filled 0 true (other ++ text) =
      other ++ replaceFrom (word ++ ['[', ']']) filled 0 false text := by
  cases other with
  | nil => exact absurd rfl some
  | cons c more =>
    obtain ⟨first, later⟩ := List.forall_mem_cons.mp otherChars
    have missed : ¬ word ++ ['[', ']'] <+: c :: (more ++ text) := by
      intro found
      exact differs (word_eq_of_begins chars otherChars (by decide) ends found)
    rw [List.cons_append, replaceFrom_cons missed, isNameChar_of_isWordChar first, Bool.not_true,
      replaceFrom_field_inside nonempty chars later ends, List.cons_append]

/-- An index that is there is left as it is. -/
theorem replaceFrom_field_item (index : Nat) (mayBegin : Bool) (rest : List Char) :
    replaceFrom (word ++ ['[', ']']) filled 0 mayBegin
        ('[' :: (Nat.toDigits 10 index ++ ']' :: rest)) =
      '[' :: (Nat.toDigits 10 index ++ ']' ::
        replaceFrom (word ++ ['[', ']']) filled 0 true rest) := by
  have digits : ∀ c ∈ Nat.toDigits 10 index, isWordChar c = true := by
    intro c member
    exact isWordChar_of_mem_toDigits member
  have noBlank : ¬ (word = Nat.toDigits 10 index ∧ ['[', ']'] <+: ']' :: rest) := by
    rintro ⟨-, behind, same⟩
    exact absurd (List.head_eq_of_cons_eq same) (by decide)
  have inside : replaceFrom (word ++ ['[', ']']) filled 0 true
      (Nat.toDigits 10 index ++ ']' :: rest) =
        Nat.toDigits 10 index ++ replaceFrom (word ++ ['[', ']']) filled 0 false (']' :: rest) :=
    replaceFrom_field_other nonempty chars digits (noWord_cons isWordChar_closing rest)
      Nat.toDigits_ne_nil noBlank
  rw [replaceFrom_field_cons nonempty chars isWordChar_closing] at inside
  rw [replaceFrom_field_cons nonempty chars isWordChar_opening]
  exact congrArg ('[' :: ·) inside

end Field

/-- Every opening bracket is closed at once. -/
def BlankOnly : List Char → Prop
  | [] => True
  | c :: rest => (c = '[' → ∃ behind, rest = ']' :: behind) ∧ BlankOnly rest

theorem BlankOnly.eq_closing {front behind : List Char} {c : Char}
    (blank : BlankOnly (front ++ '[' :: c :: behind)) : c = ']' := by
  induction front with
  | nil =>
    obtain ⟨_, same⟩ := blank.1 rfl
    exact List.head_eq_of_cons_eq same
  | cons _ _ ih => exact ih blank.2

theorem BlankOnly.append {front behind : List Char} (noBracket : '[' ∉ front)
    (blank : BlankOnly behind) : BlankOnly (front ++ behind) := by
  induction front with
  | nil => exact blank
  | cons c rest ih =>
    rw [List.mem_cons, not_or] at noBracket
    exact ⟨fun bracket => absurd bracket.symm noBracket.1, ih noBracket.2⟩

/-- A pattern with an index does not occur where there is none. -/
theorem replaceFrom_of_blankOnly {front behind text : List Char} {c : Char}
    (indexed : pattern = front ++ '[' :: c :: behind) (filled : c ≠ ']')
    (blank : BlankOnly text) (mayBegin : Bool) :
    replaceFrom pattern replacement 0 mayBegin text = text := by
  induction text generalizing mayBegin with
  | nil => rfl
  | cons first rest ih =>
    have missed : ¬ pattern <+: first :: rest := by
      rintro ⟨more, same⟩
      rw [← same, indexed, List.append_assoc] at blank
      exact filled blank.eq_closing
    rw [replaceFrom_cons missed, ih blank.2]

/-- A pattern with an index is replaced at the beginning and not where no index is. -/
theorem replaceWhole_of_blankOnly {array index front behind rest : List Char} {c : Char}
    (indexed : array = front ++ '[' :: c :: behind) (filled : c ≠ ']') (blank : BlankOnly rest) :
    replaceWhole (array ++ ['[', ']']) (array ++ index) (array ++ ['[', ']'] ++ rest) =
      array ++ index ++ rest := by
  have pattern : array ++ ['[', ']'] = front ++ '[' :: c :: (behind ++ ['[', ']']) := by
    rw [indexed]
    simp
  rw [replaceWhole, replaceFrom_pattern (by rw [pattern]; simp), if_pos rfl,
    replaceFrom_of_blankOnly pattern filled blank]

end Text

namespace Segment

/-- Puts an index behind a segment of the given name if it has an empty one. -/
def fill (name : String) (index : Nat) (segment : Segment) : Segment :=
  if segment = ⟨name, .blank⟩ then ⟨name, .item index⟩ else segment

@[simp]
theorem name_fill (name : String) (index : Nat) (segment : Segment) :
    (segment.fill name index).name = segment.name := by
  unfold fill
  split
  · next same => rw [same]
  · rfl

theorem fill_of_name_ne {name : String} {segment : Segment} (differs : segment.name ≠ name)
    (index : Nat) : segment.fill name index = segment := by
  rw [fill, if_neg]
  rintro rfl
  exact differs rfl

section Field

variable {name : String} (word : Text.Word name) (index : Nat)

include word

/-- One segment, with something behind it that is no name and no index. -/
theorem replaceFrom_chars {segment : Segment} (segmentWord : Text.Word segment.name)
    {rest : List Char} (ends : ∀ c ∈ rest.head?, c = '.') :
    ∃ mayBegin,
      Text.replaceFrom (name.toList ++ ['[', ']']) (name.toList ++ (Place.item index).chars) 0
          true (segment.chars ++ rest) =
        (segment.fill name index).chars ++
          Text.replaceFrom (name.toList ++ ['[', ']'])
            (name.toList ++ (Place.item index).chars) 0 mayBegin rest := by
  obtain ⟨nonempty, chars⟩ := word
  obtain ⟨other, place⟩ := segment
  have noWord : Text.NoWord rest := by
    intro c member
    rw [ends c member]
    decide
  have noIndex : ¬ ['[', ']'] <+: rest := by
    rintro ⟨behind, rfl⟩
    exact absurd (ends '[' rfl) (by decide)
  cases place with
  | bare =>
    refine ⟨false, ?_⟩
    have differs : (⟨other, .bare⟩ : Segment) ≠ ⟨name, .blank⟩ := by simp
    rw [fill, if_neg differs, Segment.chars, Place.chars, List.append_nil,
      Text.replaceFrom_field_other nonempty chars segmentWord.chars noWord segmentWord.nonempty
        fun found => noIndex found.2]
  | blank =>
    refine ⟨true, ?_⟩
    rw [Segment.chars, List.append_assoc]
    by_cases same : other = name
    · subst same
      rw [fill, if_pos rfl, ← List.append_assoc]
      exact Text.replaceFrom_pattern (by simp) true rest
    · have differs : (⟨other, .blank⟩ : Segment) ≠ ⟨name, .blank⟩ := by simp [same]
      have notField : ¬ name.toList = other.toList := by
        intro equal
        exact same (String.toList_inj.mp equal.symm)
      have blankEnds : Text.NoWord (Place.blank.chars ++ rest) :=
        Text.noWord_cons Text.isWordChar_opening _
      rw [fill, if_neg differs,
        Text.replaceFrom_field_other nonempty chars segmentWord.chars blankEnds
          segmentWord.nonempty fun found => notField found.1,
        Segment.chars, List.append_assoc]
      exact congrArg _ (Text.replaceFrom_field_blank nonempty chars false rest)
  | item position =>
    refine ⟨true, ?_⟩
    have differs : (⟨other, .item position⟩ : Segment) ≠ ⟨name, .blank⟩ := by simp
    have noBlank : ¬ ['[', ']'] <+: '[' :: (Nat.toDigits 10 position ++ ']' :: rest) := by
      obtain ⟨digit, more, written, noBracket⟩ := Text.toDigits_eq_cons position
      rw [written]
      rintro ⟨behind, spelled⟩
      exact noBracket (List.head_eq_of_cons_eq (List.tail_eq_of_cons_eq spelled)).symm
    have spelled (behind : List Char) : Segment.chars ⟨other, .item position⟩ ++ behind =
        other.toList ++ '[' :: (Nat.toDigits 10 position ++ ']' :: behind) := by
      simp [Segment.chars, Place.chars]
    rw [fill, if_neg differs, spelled, spelled,
      Text.replaceFrom_field_other nonempty chars segmentWord.chars
        (Text.noWord_cons Text.isWordChar_opening _) segmentWord.nonempty
        fun found => noBlank found.2]
    exact congrArg _ (Text.replaceFrom_field_item nonempty chars position false rest)

theorem replaceFrom_spellRest {segments : List Segment}
    (words : ∀ segment ∈ segments, Text.Word segment.name) (mayBegin : Bool) :
    Text.replaceFrom (name.toList ++ ['[', ']']) (name.toList ++ (Place.item index).chars) 0
        mayBegin (spellRest segments) =
      spellRest (segments.map (fill name index)) := by
  induction segments generalizing mayBegin with
  | nil => rfl
  | cons segment rest ih =>
    obtain ⟨here, later⟩ := List.forall_mem_cons.mp words
    have ends : ∀ c ∈ (spellRest rest).head?, c = '.' := by
      cases rest <;> simp [spellRest]
    obtain ⟨next, chars⟩ := replaceFrom_chars word index here ends
    rw [ih later] at chars
    rw [spellRest, List.flatMap_cons, ← spellRest, List.cons_append,
      Text.replaceFrom_field_cons word.nonempty word.chars Text.isWordChar_dot]
    exact congrArg ('.' :: ·) chars

/-- A loop whose array is one field fills in all segments of that name. -/
theorem replaceWhole_spell {segments : List Segment}
    (words : ∀ segment ∈ segments, Text.Word segment.name) :
    Text.replaceWhole (name.toList ++ ['[', ']']) (name.toList ++ (Place.item index).chars)
        (spell segments) =
      spell (segments.map (fill name index)) := by
  cases segments with
  | nil => rfl
  | cons segment rest =>
    obtain ⟨here, later⟩ := List.forall_mem_cons.mp words
    have ends : ∀ c ∈ (spellRest rest).head?, c = '.' := by
      cases rest <;> simp [spellRest]
    obtain ⟨next, chars⟩ := replaceFrom_chars word index here ends
    rw [replaceFrom_spellRest word index later] at chars
    exact chars

end Field

theorem blankOnly_spellRest {segments : List Segment}
    (words : ∀ segment ∈ segments, Text.Word segment.name)
    (unfilled : ∀ segment ∈ segments, ∀ index, segment.place ≠ .item index) :
    Text.BlankOnly (spellRest segments) := by
  induction segments with
  | nil => trivial
  | cons segment rest ih =>
    obtain ⟨word, words⟩ := List.forall_mem_cons.mp words
    obtain ⟨here, later⟩ := List.forall_mem_cons.mp unfilled
    have behind := ih words later
    have noBracket : '[' ∉ '.' :: segment.name.toList := by
      rw [List.mem_cons, not_or]
      exact ⟨by decide, word.not_mem Text.isWordChar_opening⟩
    have spelled : spellRest (segment :: rest) =
        '.' :: segment.name.toList ++ (segment.place.chars ++ spellRest rest) := by
      simp [spellRest, Segment.chars]
    rw [spelled]
    refine Text.BlankOnly.append noBracket ?_
    cases place : segment.place with
    | bare => exact behind
    | blank => exact ⟨fun _ => ⟨_, rfl⟩, fun impossible => absurd impossible (by decide), behind⟩
    | item index => exact absurd place (here index)

theorem spell_item (field : String) (position : Nat) (rest : List Segment) :
    ∃ digit more, digit ≠ ']' ∧
      spell (⟨field, .item position⟩ :: rest) = field.toList ++ '[' :: digit :: more := by
  obtain ⟨digit, more, written, noBracket⟩ := Text.toDigits_eq_cons position
  exact ⟨digit, _, noBracket, by simp [spell, Segment.chars, Place.chars, written]; rfl⟩

/-- The address of an array with an index behind it and more segments behind that. -/
theorem spell_array (first : Segment) (outer : List Segment) (name : String) (place : Place)
    (inner : List Segment) :
    spell (first :: outer ++ ⟨name, place⟩ :: inner) =
      spell (first :: outer ++ [⟨name, .bare⟩]) ++ place.chars ++ spellRest inner := by
  simp [spell, spellRest, Segment.chars, Place.chars]

end Segment

namespace Loop

/-- A loop with a path to its array puts its index behind that path. -/
theorem qualify_of_array {loop : Loop} {index : Nat} (array : loop.property.toList ≠ [])
    (reached : loop.index = some index) (path : List Char) :
    loop.qualify path =
      Text.replaceWhole (loop.property.toList ++ ['[', ']'])
        (loop.property.toList ++ (Place.item index).chars) path := by
  have named : loop.property.isEmpty = false := by
    simp only [ne_eq, String.toList_eq_nil_iff] at array
    simpa using array
  rw [qualify, reached]
  simp only [named, Bool.false_eq_true, ↓reduceIte]
  rfl

/-- A loop through the array of a field fills in all segments of that name. -/
theorem qualify_field {loop : Loop} {name : String} {index : Nat} (word : Text.Word name)
    (array : loop.property = name) (reached : loop.index = some index)
    {segments : List Segment} (words : ∀ segment ∈ segments, Text.Word segment.name) :
    loop.qualify (Segment.spell segments) =
      Segment.spell (segments.map (Segment.fill name index)) := by
  rw [qualify_of_array (by rw [array]; exact word.nonempty) reached, array]
  exact Segment.replaceWhole_spell word index words

/-- A loop through an array behind an index fills in the segment of the array. -/
theorem qualify_behind {loop : Loop} {field name : String} {position index : Nat}
    {outer inner : List Segment}
    (array : loop.property =
      String.ofList (Segment.spell (⟨field, .item position⟩ :: outer ++ [⟨name, .bare⟩])))
    (reached : loop.index = some index)
    (words : ∀ segment ∈ inner, Text.Word segment.name)
    (unfilled : ∀ segment ∈ inner, ∀ index, segment.place ≠ .item index) :
    loop.qualify (Segment.spell (⟨field, .item position⟩ :: outer ++ ⟨name, .blank⟩ :: inner)) =
      Segment.spell (⟨field, .item position⟩ :: outer ++ ⟨name, .item index⟩ :: inner) := by
  have path : loop.property.toList =
      Segment.spell (⟨field, .item position⟩ :: outer ++ [⟨name, .bare⟩]) := by
    rw [array, String.toList_ofList]
  obtain ⟨digit, more, filled, indexed⟩ :=
    Segment.spell_item field position (outer ++ [⟨name, .bare⟩])
  have before := Segment.spell_array ⟨field, .item position⟩ outer name .blank inner
  have after := Segment.spell_array ⟨field, .item position⟩ outer name (.item index) inner
  rw [qualify_of_array (by rw [path, List.cons_append, indexed]; simp) reached, path, before,
    after]
  exact Text.replaceWhole_of_blankOnly indexed filled (Segment.blankOnly_spellRest words unfilled)

end Loop

end DynamicSql
