import DynamicSql.Proofs.Tables.Nesting

/-!
# The names behind a keyword

A change names the table that it writes behind the first occurrence of some
keyword outside every parenthesis. Where the name must end before another
keyword, looking for it fails if that one stands in front of the first; a name
itself never reaches so far, since it is made of words and dots alone.
-/

namespace DynamicSql.Sql

namespace Item

/-- What stands behind the first occurrence of a keyword. -/
def behind (keyword : Keyword) (items : List Item) : List Item :=
  (items.dropWhile (! isKeyword keyword ·)).tail

/-- A name stands behind the first occurrence of a keyword; blanks may stand between them. -/
def NamedBehind (keyword : Keyword) (items : List Item) (name : String) : Prop :=
  Begins (behind keyword items) name

/-- What stands in front of the first occurrence of a keyword, or everything. -/
def upTo (keyword : Keyword) (items : List Item) : List Item :=
  items.takeWhile (! isKeyword keyword ·)

/-- The one keyword occurs where the other one has not occurred yet. -/
def Precedes (first second : Keyword) (items : List Item) : Prop :=
  ∃ item ∈ upTo second items, item.isKeyword first = true

/-- Words, dots and blanks do not have the mark. -/
def Passes (marked : Item → Bool) : Prop :=
  ∀ t : Token, t.kind = .word ∨ t.kind = .dot ∨ t.kind = .space → marked (.token t) = false

theorem passes_isKeyword (keyword : Keyword) : Passes (isKeyword keyword) := by
  intro t kind
  rcases kind with kind | kind | kind <;> simp [isKeyword, Token.isKeyword, kind]

theorem passes_endsList : Passes endsList := by
  intro t kind
  have noKeyword := fun keyword => passes_isKeyword keyword t kind
  simp [endsList, noKeyword]

theorem passes_dividesList : Passes dividesList := by
  intro t kind
  have noJoin := passes_isKeyword .JOIN t kind
  rcases kind with kind | kind | kind <;> simp [dividesList, isKind, kind, noJoin]

theorem Dotted.passed {marked : Item → Bool} (passes : Passes marked) {words : List String}
    {dotted : List Item} (name : Dotted words dotted) : ∀ item ∈ dotted, marked item = false := by
  induction name with
  | word isWord => simpa using passes _ (.inl isWord)
  | dot isWord isDot _ ih =>
    simpa using ⟨passes _ (.inl isWord), passes _ (.inr (.inl isDot)), ih⟩

theorem passed_of_isSpace {marked : Item → Bool} (passes : Passes marked) {item : Item}
    (space : item.isSpace = true) : marked item = false := by
  cases item with
  | token t => exact passes t (.inr (.inr (by simpa [isSpace, isKind] using space)))
  | clause inner => simp [isSpace, isKind] at space

/-- A name does not reach beyond a mark. -/
theorem begins_append_iff {marked : Item → Bool} (passes : Passes marked)
    {part after : List Item} {name : String}
    (closed : ∀ item ∈ after.head?, marked item = true) :
    Begins (part ++ after) name ↔ Begins part name := by
  constructor
  · rintro ⟨blanks, words, dotted, rest, split, spaces, dots, last, same⟩
    have unmarked : ∀ item ∈ blanks ++ dotted, marked item = false := by
      intro item member
      rcases List.mem_append.mp member with inBlanks | inDotted
      · exact passed_of_isSpace passes (spaces item inBlanks)
      · exact dots.passed passes item inDotted
    rw [← List.append_assoc] at split
    rcases List.append_eq_append_iff.mp split with ⟨excess, whole, behind⟩ | ⟨more, rfl, rfl⟩
    · -- The mark would stand among the blanks and the name.
      cases excess with
      | nil =>
        rw [List.append_nil] at whole
        rw [List.nil_append] at behind
        refine ⟨blanks, words, dotted, [], by rw [List.append_nil, whole], spaces, dots, ?_, same⟩
        rintro ⟨_, _, _, none, -⟩
        cases none
      | cons item excess =>
        have marks : marked item = true := closed item (by rw [behind]; rfl)
        rw [unmarked item (by rw [whole]; simp)] at marks
        cases marks
    · refine ⟨blanks, words, dotted, more, List.append_assoc .., spaces, dots, ?_, same⟩
      rintro ⟨d, t, others, rfl, isDot, isWord⟩
      exact last ⟨d, t, others ++ after, rfl, isDot, isWord⟩
  · rintro ⟨blanks, words, dotted, rest, rfl, spaces, dots, last, same⟩
    refine ⟨blanks, words, dotted, rest ++ after, by simp, spaces, dots, ?_, same⟩
    rintro ⟨d, t, others, split, isDot, isWord⟩
    have noMark {u : Token} {items : List Item} (kind : u.kind = .word ∨ u.kind = .dot)
        (front : after = .token u :: items) : False := by
      have marks := closed (.token u) (by rw [front]; rfl)
      rw [passes u (kind.imp_right .inl)] at marks
      cases marks
    match rest with
    | [] => exact noMark (.inr isDot) split
    | [item] => exact noMark (.inl isWord) (List.cons.inj split).2
    | item :: next :: rest =>
      obtain ⟨isFirst, split⟩ := List.cons.inj split
      obtain ⟨isSecond, -⟩ := List.cons.inj split
      exact last ⟨d, t, rest, by rw [isFirst, isSecond], isDot, isWord⟩

theorem not_begins_nil {name : String} : ¬ Begins [] name := by
  intro begins
  have found := leadingName?_eq_some_iff.mpr begins
  cases found

section Divided

variable {keyword : Keyword} {before after : List Item} {item : Item}

theorem behind_append (first : ∀ other ∈ before, other.isKeyword keyword = false)
    (marked : item.isKeyword keyword = true) :
    behind keyword (before ++ item :: after) = after := by
  rw [behind, dropWhile_up_to first (by simpa using marked), List.tail_cons]

theorem behind_of_none {items : List Item}
    (unmarked : ∀ item ∈ items, item.isKeyword keyword = false) : behind keyword items = [] := by
  have dropped : (items ++ []).dropWhile (! isKeyword keyword ·) = [] :=
    dropWhile_up_to unmarked (by simp)
  rw [List.append_nil] at dropped
  rw [behind, dropped, List.tail_nil]

theorem upTo_append (first : ∀ other ∈ before, other.isKeyword keyword = false)
    (closed : ∀ item ∈ after.head?, item.isKeyword keyword = true) :
    upTo keyword (before ++ after) = before :=
  takeWhile_up_to first closed

theorem behind_eq_drop (keyword : Keyword) (items : List Item) :
    behind keyword items = items.drop (items.findIdx (isKeyword keyword) + 1) := by
  rw [behind, List.dropWhile_eq_drop_findIdx_not, List.tail_drop]
  simp

/-- One item is not two keywords. -/
theorem isKeyword_eq_false {other : Keyword} (differ : other ≠ keyword)
    (marked : item.isKeyword keyword = true) : item.isKeyword other = false := by
  cases item with
  | token t =>
    simp only [isKeyword, Token.isKeyword, beq_iff_eq] at marked
    simp [isKeyword, Token.isKeyword, marked, differ.symm]
  | clause inner => rfl

end Divided

end Item

open Item

variable {name : String} {items : List Item} {keyword : Keyword}

/-- The name behind a keyword is found. -/
theorem mem_nameAfter_iff : name ∈ nameAfter keyword items ↔ NamedBehind keyword items name := by
  rw [nameAfter, NamedBehind]
  cases found : indexOf? keyword items with
  | none =>
    rw [behind_of_none (List.findIdx?_eq_none_iff.mp found)]
    simp [not_begins_nil]
  | some begin =>
    rw [behind_eq_drop, (List.findIdx?_eq_some_iff_findIdx_eq.mp found).2]
    simp only [Option.mem_toList, leadingName?_eq_some_iff]

/-- The name behind a keyword is found if the search does not end in front of it. -/
theorem mem_nameBetween_iff {stop : Keyword} :
    name ∈ nameBetween keyword stop items ↔ NamedBehind keyword (upTo stop items) name := by
  rw [nameBetween, NamedBehind]
  cases found : indexOf? keyword items with
  | none =>
    have none := List.findIdx?_eq_none_iff.mp found
    have noneUpTo : ∀ item ∈ upTo stop items, item.isKeyword keyword = false := by
      intro item member
      exact none item ((List.takeWhile_prefix _).subset member)
    rw [behind_of_none noneUpTo]
    simp [not_begins_nil]
  | some begin =>
    have upToStop : upTo stop items = items.take (items.findIdx (isKeyword stop)) := by
      rw [upTo, List.takeWhile_eq_take_findIdx_not]
      simp
    have ends : (indexOf? stop items).getD items.length = items.findIdx (isKeyword stop) :=
      List.findIdx_eq_getD_findIdx?.symm
    have behindBegin : behind keyword (upTo stop items) = (upTo stop items).drop (begin + 1) := by
      rw [behind_eq_drop, upToStop, List.findIdx_take,
        (List.findIdx?_eq_some_iff_findIdx_eq.mp found).2]
      rcases Nat.le_total (items.findIdx (isKeyword stop)) begin with early | late
      · rw [Nat.min_eq_left early, List.drop_of_length_le (by rw [List.length_take]; omega),
          List.drop_of_length_le (by rw [List.length_take]; omega)]
      · rw [Nat.min_eq_right late]
    rw [behindBegin, upToStop, List.drop_take]
    simp only [ends, Option.mem_toList, leadingName?_eq_some_iff]

/-- The search ends too early just if the keyword that ends it stands in front. -/
theorem namedBehind_upTo_iff {stop : Keyword} (differ : stop ≠ keyword) :
    NamedBehind keyword (upTo stop items) name ↔
      NamedBehind keyword items name ∧ ¬ Precedes stop keyword items := by
  obtain ⟨front, rest, rfl, noStop, closed⟩ := up_to_marked (isKeyword stop) items
  rw [upTo_append noStop closed]
  rcases first_marked (isKeyword keyword) front with
    unmarked | ⟨before, item, after, rfl, first, marked⟩
  · cases rest with
    | nil =>
      rw [List.append_nil, NamedBehind, behind_of_none unmarked]
      simp [not_begins_nil]
    | cons next rest =>
      have isStop : next.isKeyword stop = true := closed next rfl
      have early : Precedes stop keyword (front ++ next :: rest) := by
        refine ⟨next, ?_, isStop⟩
        rw [upTo, List.takeWhile_append_of_pos fun item member => by simp [unmarked item member],
          List.takeWhile_cons_of_pos (by simp [isKeyword_eq_false differ.symm isStop])]
        simp
      rw [NamedBehind, behind_of_none unmarked]
      simp [not_begins_nil, early]
  · have whole : before ++ item :: after ++ rest = before ++ item :: (after ++ rest) := by simp
    have timely : ¬ Precedes stop keyword (before ++ item :: (after ++ rest)) := by
      rintro ⟨found, member, isStop⟩
      rw [upTo_append first (by simpa using marked)] at member
      rw [noStop found (by simp [member])] at isStop
      cases isStop
    rw [whole, NamedBehind, NamedBehind, behind_append first marked, behind_append first marked,
      begins_append_iff (passes_isKeyword stop) closed]
    simp [timely]

end DynamicSql.Sql
