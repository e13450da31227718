import DynamicSql.Proofs.Nesting.Filling

/-!
# Indexes that stay

A loop puts its index into empty brackets and does nothing else to an address,
whatever the path to its array is. So the fields of an address stay, and so does
every index that is there.
-/

namespace DynamicSql

namespace Text

/-- A text with numbers put into some of its empty brackets. -/
inductive Filled : List Char → List Char → Prop
  | nil : Filled [] []
  | keep (c : Char) {text after : List Char} (rest : Filled text after) :
      Filled (c :: text) (c :: after)
  | fill (index : Nat) {text after : List Char} (rest : Filled text after) :
      Filled ('[' :: ']' :: text) ((Place.item index).chars ++ after)

namespace Filled

theorem refl : ∀ text : List Char, Filled text text
  | [] => .nil
  | c :: rest => .keep c (refl rest)

theorem append {text after behind behindAfter : List Char} (first : Filled text after)
    (second : Filled behind behindAfter) : Filled (text ++ behind) (after ++ behindAfter) := by
  induction first with
  | nil => exact second
  | keep c _ ih => exact .keep c ih
  | fill index _ ih =>
    rw [List.append_assoc]
    exact .fill index ih

/-- Replacing an empty index by a number fills brackets. -/
theorem replaceFrom {array : List Char} (index covered : Nat) (mayBegin : Bool)
    (text : List Char) :
    Filled (text.drop covered)
      (Text.replaceFrom (array ++ ['[', ']']) (array ++ (Place.item index).chars) covered
        mayBegin text) := by
  fun_induction Text.replaceFrom (array ++ ['[', ']']) (array ++ (Place.item index).chars) covered
      mayBegin text with
  | case1 => simpa using Filled.nil
  | case2 covered _ _ rest ih => exact ih
  | case3 mayBegin first rest found ih =>
    obtain ⟨behind, same⟩ := List.isPrefixOf_iff_prefix.mp found
    have covered : rest.drop ((array ++ ['[', ']']).length - 1) = behind := by
      have whole : (first :: rest).drop (array ++ ['[', ']']).length = behind := by
        rw [← same, List.drop_left]
      have long : (array ++ ['[', ']']).length = (array ++ ['[', ']']).length - 1 + 1 := by simp
      rw [long, List.drop_succ_cons] at whole
      exact whole
    rw [covered] at ih
    rw [List.drop_zero, ← same]
    refine Filled.append ?_ ih
    split
    · have closed := (refl array).append (.fill index .nil)
      rw [List.append_nil] at closed
      exact closed
    · exact refl _
  | case4 mayBegin first rest missed ih => exact .keep first ih

theorem of_cons {c : Char} {text after : List Char} (noBracket : c ≠ '[')
    (filled : Filled (c :: text) after) : ∃ rest, after = c :: rest ∧ Filled text rest := by
  generalize same : c :: text = whole at filled
  cases filled with
  | nil => cases same
  | keep _ rest =>
    cases same
    exact ⟨_, rfl, rest⟩
  | fill index rest =>
    cases same
    exact absurd rfl noBracket

/-- Text without an opening bracket stays as it is. -/
theorem of_append {front text after : List Char} (noBracket : '[' ∉ front)
    (filled : Filled (front ++ text) after) :
    ∃ rest, after = front ++ rest ∧ Filled text rest := by
  induction front generalizing after with
  | nil => exact ⟨after, rfl, filled⟩
  | cons c front ih =>
    rw [List.mem_cons, not_or] at noBracket
    obtain ⟨_, rfl, inner⟩ := filled.of_cons (Ne.symm noBracket.1)
    obtain ⟨rest, rfl, innermost⟩ := ih noBracket.2 inner
    exact ⟨rest, rfl, innermost⟩

/-- An index that is there stays, and an empty one stays empty or is filled. -/
theorem of_place {place : Place} {text after : List Char}
    (filled : Filled (place.chars ++ text) after) :
    ∃ next rest, after = Place.chars next ++ rest ∧ Filled text rest ∧
      (place ≠ .blank → next = place) := by
  cases place with
  | bare => exact ⟨.bare, after, rfl, filled, fun _ => rfl⟩
  | blank =>
    generalize same : Place.blank.chars ++ text = whole at filled
    cases filled with
    | nil => cases same
    | keep _ rest =>
      cases same
      obtain ⟨behind, rfl, filled⟩ := rest.of_cons (by decide)
      exact ⟨.blank, behind, rfl, filled, fun some => absurd rfl some⟩
    | fill index rest =>
      cases same
      exact ⟨.item index, _, rfl, rest, fun some => absurd rfl some⟩
  | item index =>
    obtain ⟨digit, more, written, noClosing⟩ := Text.toDigits_eq_cons index
    generalize same : (Place.item index).chars ++ text = whole at filled
    cases filled with
    | nil => cases same
    | keep c rest =>
      obtain rfl := List.head_eq_of_cons_eq same
      obtain rfl := List.tail_eq_of_cons_eq same
      have noBracket : '[' ∉ Nat.toDigits 10 index ++ [']'] := by
        intro member
        rcases List.mem_append.mp member with digit | closing
        · exact Text.not_mem_toDigits Text.isWordChar_opening index digit
        · exact absurd (List.mem_singleton.mp closing) (by decide)
      obtain ⟨behind, rfl, filled⟩ := rest.of_append noBracket
      exact ⟨.item index, behind, rfl, filled, fun _ => rfl⟩
    | fill _ rest =>
      rw [Place.chars, written] at same
      exact absurd (List.head_eq_of_cons_eq (List.tail_eq_of_cons_eq same)) noClosing

end Filled

end Text

namespace Segment

/-- The same fields, and the indexes that were there before. -/
inductive Kept : List Segment → List Segment → Prop
  | nil : Kept [] []
  | cons {name : String} {place next : Place} {before after : List Segment}
      (same : place ≠ .blank → next = place) (rest : Kept before after) :
      Kept (⟨name, place⟩ :: before) (⟨name, next⟩ :: after)

namespace Kept

theorem refl : ∀ segments : List Segment, Kept segments segments
  | [] => .nil
  | ⟨_, _⟩ :: rest => .cons (fun _ => rfl) (refl rest)

theorem trans {first second third : List Segment} (left : Kept first second)
    (right : Kept second third) : Kept first third := by
  induction left generalizing third with
  | nil => exact right
  | cons same _ ih =>
    cases right with
    | cons sameAgain rest =>
      refine .cons (fun filled => ?_) (ih rest)
      have middle := same filled
      rw [sameAgain (by rw [middle]; exact filled), middle]

theorem map_name {before after : List Segment} (kept : Kept before after) :
    after.map name = before.map name := by
  induction kept with
  | nil => rfl
  | cons _ _ ih => rw [List.map_cons, List.map_cons, ih]

theorem words {before after : List Segment} (kept : Kept before after)
    (words : ∀ segment ∈ before, Text.Word segment.name) :
    ∀ segment ∈ after, Text.Word segment.name := by
  intro segment member
  have among : segment.name ∈ after.map name := List.mem_map_of_mem member
  rw [kept.map_name] at among
  obtain ⟨other, there, same⟩ := List.mem_map.mp among
  rw [← same]
  exact words other there

/-- If all segments of a field have a certain index, they go on to have it. -/
theorem indexed {before after : List Segment} (kept : Kept before after) {field : String}
    {index : Nat}
    (indexed : ∀ segment ∈ before, segment.name = field → segment.place = .item index) :
    ∀ segment ∈ after, segment.name = field → segment.place = .item index := by
  induction kept with
  | nil => exact indexed
  | @cons _ place _ _ _ same _ ih =>
    obtain ⟨here, later⟩ := List.forall_mem_cons.mp indexed
    refine List.forall_mem_cons.mpr ⟨fun named => ?_, ih later⟩
    have filled : place = .item index := here named
    exact (same (by rw [filled]; simp)).trans filled

end Kept

/-- Filled brackets in segments behind other ones. -/
theorem kept_of_filled_spellRest {segments : List Segment} {text : List Char}
    (words : ∀ segment ∈ segments, Text.Word segment.name)
    (filled : Text.Filled (spellRest segments) text) :
    ∃ after, text = spellRest after ∧ Kept segments after := by
  induction segments generalizing text with
  | nil =>
    cases filled
    exact ⟨[], rfl, .nil⟩
  | cons segment rest ih =>
    obtain ⟨name, place⟩ := segment
    obtain ⟨word, later⟩ := List.forall_mem_cons.mp words
    have noBracket : '[' ∉ '.' :: name.toList := by
      rw [List.mem_cons, not_or]
      exact ⟨by decide, word.not_mem Text.isWordChar_opening⟩
    have spelled : spellRest (⟨name, place⟩ :: rest) =
        '.' :: name.toList ++ (place.chars ++ spellRest rest) := by
      simp [spellRest, Segment.chars]
    rw [spelled] at filled
    obtain ⟨_, rfl, behind⟩ := filled.of_append noBracket
    obtain ⟨next, _, rfl, others, same⟩ := behind.of_place
    obtain ⟨after, rfl, kept⟩ := ih later others
    exact ⟨⟨name, next⟩ :: after, by simp [spellRest, Segment.chars], .cons same kept⟩

/-- Filled brackets in the text of segments are indexes put into empty places. -/
theorem kept_of_filled_spell {segments : List Segment} {text : List Char}
    (words : ∀ segment ∈ segments, Text.Word segment.name)
    (filled : Text.Filled (spell segments) text) :
    ∃ after, text = spell after ∧ Kept segments after := by
  cases segments with
  | nil =>
    cases filled
    exact ⟨[], rfl, .nil⟩
  | cons first rest =>
    -- A dot in front makes the first segment one behind others.
    obtain ⟨after, same, kept⟩ := kept_of_filled_spellRest words (.keep '.' filled)
    cases kept with
    | cons =>
      exact ⟨_, List.tail_eq_of_cons_eq same, .cons ‹_› ‹_›⟩

/-- An address never begins with a bracket. -/
theorem spell_ne_bracket {segments : List Segment} {rest : List Char}
    (words : ∀ segment ∈ segments, Text.Word segment.name) : spell segments ≠ '[' :: rest := by
  cases segments with
  | nil => simp [spell]
  | cons first others =>
    have word := words first List.mem_cons_self
    cases name : first.name.toList with
    | nil => exact absurd name word.nonempty
    | cons c more =>
      have letter := word.chars c (by rw [name]; exact List.mem_cons_self)
      simp only [spell, chars, name, List.cons_append]
      intro same
      rw [List.head_eq_of_cons_eq same] at letter
      exact absurd letter (by decide)

end Segment

namespace Loop

/-- Whatever array a loop goes through, it keeps the fields of an address and the indexes
    in it. -/
theorem qualify_kept (loop : Loop) {segments : List Segment}
    (words : ∀ segment ∈ segments, Text.Word segment.name) :
    ∃ after, loop.qualify (Segment.spell segments) = Segment.spell after ∧
      Segment.Kept segments after := by
  cases reached : loop.index with
  | none => exact ⟨segments, by rw [qualify, reached], .refl segments⟩
  | some index =>
    by_cases array : loop.property.toList = []
    · have nameless : loop.property.isEmpty = true := by simpa using array
      refine ⟨segments, ?_, .refl segments⟩
      rw [qualify, reached]
      simp only [nameless, ↓reduceIte]
      split
      · next same => exact absurd same (Segment.spell_ne_bracket words)
      · rfl
    · rw [qualify_of_array array reached]
      exact Segment.kept_of_filled_spell words (Text.Filled.replaceFrom index 0 true _)

/-- Loops keep the fields of an address and the indexes in it. -/
theorem qualify_all_kept (loops : List Loop) {segments : List Segment}
    (words : ∀ segment ∈ segments, Text.Word segment.name) :
    ∃ after, loops.foldr Loop.qualify (Segment.spell segments) = Segment.spell after ∧
      Segment.Kept segments after := by
  induction loops with
  | nil => exact ⟨segments, rfl, .refl segments⟩
  | cons loop outer ih =>
    obtain ⟨middle, same, kept⟩ := ih
    obtain ⟨after, filled, more⟩ := loop.qualify_kept (kept.words words)
    exact ⟨after, by rw [List.foldr_cons, same, filled], kept.trans more⟩

end Loop

end DynamicSql
