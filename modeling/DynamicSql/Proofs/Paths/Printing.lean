import DynamicSql.Proofs.Nesting.Address
import DynamicSql.Proofs.Paths.Leading

/-!
# Writing paths

A path is written step by step: a name by itself, with a dot in front of it unless
the path begins with it, and an index as a number between brackets. If the names
have none of these signs in them and no blanks around them, the text is read as the
path again. So every part of a value that is reached through such names and through
positions has a text that leads to it.
-/

namespace DynamicSql

namespace Text

/-- Text with something in it and no blank at either end. -/
structure Snug (text : List Char) : Prop where
  nonempty : text ≠ []
  trimmed : trimChars text = text

/-- Nothing is trimmed off if nothing is dropped from either end. -/
theorem trimChars_eq_self_iff {text : List Char} :
    trimChars text = text ↔
      text.dropWhile isBlank = text ∧ text.reverse.dropWhile isBlank = text.reverse := by
  constructor
  · intro trimmed
    have inside : (trimChars text).length ≤ (text.dropWhile isBlank).length := by
      have dropped := List.dropWhile_sublist isBlank (l := (text.dropWhile isBlank).reverse)
      simpa [trimChars, dropTrailingBlanks] using dropped.length_le
    rw [trimmed] at inside
    have front : text.dropWhile isBlank = text :=
      (List.dropWhile_sublist isBlank).eq_of_length_le inside
    refine ⟨front, ?_⟩
    rw [trimChars, front, dropTrailingBlanks] at trimmed
    rw [← List.reverse_inj, trimmed, List.reverse_reverse]
  · rintro ⟨front, back⟩
    rw [trimChars, front, dropTrailingBlanks, back, List.reverse_reverse]

/-- Nothing is dropped from the front of a text that begins with snug text. -/
theorem Snug.append {front behind : List Char} (first : Snug front) (last : Snug behind) :
    Snug (front ++ behind) := by
  refine ⟨List.append_ne_nil_of_left_ne_nil first.nonempty behind, ?_⟩
  have begins := (trimChars_eq_self_iff.mp first.trimmed).1
  have ends := (trimChars_eq_self_iff.mp last.trimmed).2
  rw [trimChars_eq_self_iff, List.reverse_append, List.dropWhile_append, List.dropWhile_append,
    begins, ends]
  simp [first.nonempty, last.nonempty]

/-- Nor if more snug texts follow. -/
theorem Snug.append_flatMap {α : Type} {text : α → List Char} {parts : List α}
    (each : ∀ part ∈ parts, Snug (text part)) {front : List Char} (first : Snug front) :
    Snug (front ++ parts.flatMap text) := by
  induction parts generalizing front with
  | nil => simpa using first
  | cons part rest ih =>
    obtain ⟨here, later⟩ := List.forall_mem_cons.mp each
    rw [List.flatMap_cons, ← List.append_assoc]
    exact ih later (first.append here)

theorem snug_of_not_isBlank {text : List Char} (nonempty : text ≠ [])
    (none : ∀ c ∈ text, isBlank c = false) : Snug text :=
  ⟨nonempty, trimChars_of_not_isBlank none⟩

end Text

/-- A step that can be written. The name of a field has no sign of paths in it and no blanks
    around it, and the position of an item is a number of sixty-four bits. -/
inductive Step.Writable : Step → Prop
  | field {name : String} (nonempty : name ≠ "") (trimmed : Text.trim name = name)
      (noDot : '.' ∉ name.toList) (noOpening : '[' ∉ name.toList)
      (noClosing : ']' ∉ name.toList) : Writable (.field name)
  | index {position : Nat} (bounded : position < UInt64.size) : Writable (.index position)

namespace Step

/-- A step as it is written at the beginning of a path. -/
def chars : Step → List Char
  | field name => name.toList
  | index position => '[' :: (Nat.toDigits 10 position ++ [']'])

/-- A step as it is written behind another one. -/
def charsBehind : Step → List Char
  | field name => '.' :: name.toList
  | index position => (index position).chars

end Step

/-- A path as it is written. -/
def Path.print : Path → String
  | [] => ""
  | first :: rest => String.ofList (first.chars ++ rest.flatMap Step.charsBehind)

namespace Step

theorem Writable.snug {step : Step} (writable : step.Writable) : Text.Snug step.chars := by
  cases writable with
  | @field name nonempty trimmed =>
    refine ⟨by simpa [chars] using nonempty, ?_⟩
    rw [Text.trim, ← String.toList_inj, String.toList_ofList] at trimmed
    exact trimmed
  | @index position =>
    refine Text.snug_of_not_isBlank (List.cons_ne_nil '[' _) fun c member => ?_
    rcases List.mem_cons.mp member with rfl | inside
    · decide
    · rcases List.mem_append.mp inside with digit | closing
      · exact Text.not_isBlank_of_isWordChar (Text.isWordChar_of_mem_toDigits digit)
      · rw [List.mem_singleton.mp closing]
        decide

theorem Writable.snug_behind {step : Step} (writable : step.Writable) :
    Text.Snug step.charsBehind := by
  cases step with
  | field name =>
    have dot : Text.Snug ['.'] := ⟨List.cons_ne_nil '.' [], by decide⟩
    exact dot.append writable.snug
  | index => exact writable.snug

theorem spellsIndex {position : Nat} (bounded : position < UInt64.size) :
    Path.SpellsIndex (index position).chars position := by
  refine .brackets (Text.not_mem_toDigits Text.isWordChar_closing position) ?_ bounded
  rw [Text.trimChars_of_not_isBlank fun c member =>
    Text.not_isBlank_of_isWordChar (Text.isWordChar_of_mem_toDigits member)]
  exact (Text.numeral?_eq_some_iff.mp (Text.numeral?_toDigits bounded)).1

/-- A step spells itself. -/
theorem Writable.spells {step : Step} (writable : step.Writable) :
    Path.SpellsStep step.chars step := by
  have snug := writable.snug
  cases writable with
  | @field name nonempty trimmed noDot noOpening noClosing =>
    have itself : Text.trimChars name.toList = name.toList := snug.trimmed
    have spelled := Path.SpellsStep.name noDot noOpening (by rw [itself]; exact snug.nonempty)
      (by rw [itself]; exact noClosing)
    rwa [itself, String.ofList_toList] at spelled
  | index bounded => exact .index (spellsIndex bounded)

end Step

namespace Path

variable {path : Path}

/-- Steps behind another one are spelled as they are written. -/
theorem spellsRest_charsBehind (writable : ∀ step ∈ path, step.Writable) :
    SpellsRest (path.flatMap Step.charsBehind) path := by
  induction path with
  | nil => exact .done
  | cons step rest ih =>
    obtain ⟨here, later⟩ := List.forall_mem_cons.mp writable
    rw [List.flatMap_cons]
    cases step with
    | field name => exact .dot here.spells (ih later)
    | index position =>
      cases here with
      | index bounded => exact .index (Step.spellsIndex bounded) (ih later)

theorem spells_print (writable : ∀ step ∈ path, step.Writable) :
    Spells (Text.trimChars path.print.toList) path := by
  cases path with
  | nil => exact .empty
  | cons first rest =>
    obtain ⟨here, later⟩ := List.forall_mem_cons.mp writable
    have behind : ∀ step ∈ rest, Text.Snug step.charsBehind :=
      fun step member => (later step member).snug_behind
    rw [print, String.toList_ofList, (here.snug.append_flatMap behind).trimmed]
    exact .segment here.spells (spellsRest_charsBehind later)

/-- A path that is written is read as itself. -/
theorem parse_print (writable : ∀ step ∈ path, step.Writable) : parse path.print = .ok path :=
  parse_eq_ok_iff.mpr (spells_print writable)

/-- A written path is read as itself; and with any store of parsed paths its text leads from any
    value to the part that its steps lead to, and to nothing if one of them leads nowhere. -/
theorem print_addresses (writable : ∀ step ∈ path, step.Writable) :
    parse path.print = .ok path ∧
      ∀ store : PathStore, store.Reached → ∀ value : Value,
        ∃ found later, store.get value path.print = .ok (found, later) ∧
          (∀ part, found = some part ↔ value.Leads path part) ∧
          (found = none ↔ value.Misses path) := by
  have spelled := parse_print writable
  refine ⟨spelled, fun store reached value => ?_⟩
  obtain ⟨later, read⟩ := reached.get spelled value
  exact ⟨value.at? path, later, read, fun part => Value.at?_eq_some_iff, Value.at?_eq_none_iff⟩

/-- A name with a blank in it, an index, and a name beyond ASCII, with a store that has read
    another path before. The same path leads nowhere from an array. -/
theorem print_addresses_in_order :
    let path : Path := [.field "line items", .index 1, .field "größe"]
    let store : PathStore := { known := [("id", [.field "id"])] }
    let value : Value :=
      .object [("line items", .array [.null, .object [("größe", .bool true)]])]
    path.print = "line items[1].größe" ∧ parse "line items[1].größe" = .ok path ∧
      (∃ later, store.get value path.print = .ok (some (.bool true), later)) ∧
      ∃ later, store.get (.array []) path.print = .ok (none, later) := by
  intro path store value
  have name {text : String} (plain : text ≠ "" ∧ Text.trim text = text ∧ '.' ∉ text.toList ∧
      '[' ∉ text.toList ∧ ']' ∉ text.toList) : (Step.field text).Writable :=
    .field plain.1 plain.2.1 plain.2.2.1 plain.2.2.2.1 plain.2.2.2.2
  have writable : ∀ step ∈ path, step.Writable := by
    simp only [path, List.forall_mem_cons, List.not_mem_nil, false_implies, implies_true, and_true]
    exact ⟨name (by decide), .index (by decide), name (by decide)⟩
  have first : PathStore.parse {} "id" = .ok ([.field "id"], store) := rfl
  have reached : store.Reached := .read .empty first
  obtain ⟨read, leads⟩ := print_addresses writable
  refine ⟨by decide, read, ?_, ?_⟩
  · obtain ⟨found, later, got, somewhere, -⟩ := leads store reached value
    have there : value.Leads path (.bool true) := Value.at?_eq_some_iff.mp rfl
    exact ⟨later, by rw [got, (somewhere _).mpr there]⟩
  · obtain ⟨found, later, got, -, nowhere⟩ := leads store reached (.array [])
    have missed : (Value.array []).Misses path := Value.at?_eq_none_iff.mp rfl
    exact ⟨later, by rw [got, nowhere.mpr missed]⟩

end Path

end DynamicSql
