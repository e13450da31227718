import DynamicSql.Proofs.Grouping.Grouped
import DynamicSql.Proofs.Lexing.Seams

/-!
# Items at other places

Where a text stands decides at which counts of bytes its tokens begin, and nothing else
about them. So grouping tokens behind some more bytes gives the same items behind these
bytes, and a search among the items finds the same.
-/

namespace DynamicSql.Sql

namespace Token

section Shift

variable (offset : Nat) (t : Token)

@[simp]
theorem kind_shift : (t.shift offset).kind = t.kind := rfl

@[simp]
theorem source_shift : (t.shift offset).source = t.source := rfl

@[simp]
theorem start_shift : (t.shift offset).start = offset + t.start := rfl

@[simp]
theorem text_shift : (t.shift offset).text = t.text := rfl

@[simp]
theorem keyword?_shift : (t.shift offset).keyword? = t.keyword? := rfl

@[simp]
theorem isKeyword_shift (keyword : Keyword) :
    (t.shift offset).isKeyword keyword = t.isKeyword keyword := rfl

@[simp]
theorem isSpace_shift : (t.shift offset).isSpace = t.isSpace := rfl

end Shift

theorem sourceOf_map_shift (offset : Nat) (tokens : List Token) :
    sourceOf (tokens.map (shift offset)) = sourceOf tokens := by
  induction tokens with
  | nil => rfl
  | cons t rest ih => rw [List.map_cons, sourceOf, sourceOf, ih, source_shift]

theorem map_kind_map_shift (offset : Nat) (tokens : List Token) :
    (tokens.map (shift offset)).map kind = tokens.map kind := by
  rw [List.map_map]
  rfl

end Token

namespace Item

mutual

/-- An item behind some more bytes. -/
def shift (offset : Nat) : Item → Item
  | token t => token (t.shift offset)
  | clause items => clause (shiftAll offset items)

/-- Items behind some more bytes. -/
def shiftAll (offset : Nat) : List Item → List Item
  | [] => []
  | item :: rest => item.shift offset :: shiftAll offset rest

end

theorem shiftAll_eq_map (offset : Nat) (items : List Item) :
    shiftAll offset items = items.map (shift offset) := by
  induction items with
  | nil => rfl
  | cons item rest ih => rw [shiftAll, ih, List.map_cons]

section Shift

variable (offset : Nat)

@[simp]
theorem shift_token (t : Token) : shift offset (.token t) = .token (t.shift offset) := by
  rw [shift]

@[simp]
theorem shift_clause (items : List Item) :
    shift offset (.clause items) = .clause (items.map (shift offset)) := by
  rw [shift, shiftAll_eq_map]

@[simp]
theorem token?_shift (item : Item) :
    (item.shift offset).token? = item.token?.map (Token.shift offset) := by
  cases item <;> simp [token?]

@[simp]
theorem isKind_shift (kind : TokenKind) (item : Item) :
    (item.shift offset).isKind kind = item.isKind kind := by
  cases item <;> simp [isKind]

@[simp]
theorem isSpace_shift (item : Item) : (item.shift offset).isSpace = item.isSpace :=
  isKind_shift offset .space item

@[simp]
theorem isKeyword_shift (keyword : Keyword) (item : Item) :
    (item.shift offset).isKeyword keyword = item.isKeyword keyword := by
  cases item <;> simp [isKeyword]

theorem leader?_map_shift (items : List Item) :
    leader? (items.map (shift offset)) = leader? items := by
  rw [leader?, List.findSome?_map, leader?]
  refine congrArg (items.findSome? ·) (funext fun item => ?_)
  cases item <;> simp [token?]

theorem last?_map_shift (keyword : Keyword) (items : List Item) :
    last? keyword (items.map (shift offset)) = (last? keyword items).map (Token.shift offset) := by
  have same : (isKeyword keyword ·) ∘ shift offset = (isKeyword keyword ·) :=
    funext fun item => isKeyword_shift offset keyword item
  rw [last?, ← List.map_reverse, List.find?_map, same, last?]
  cases items.reverse.find? (isKeyword keyword ·) with
  | none => rfl
  | some item => exact token?_shift offset item

theorem dropWhile_isSpace_map_shift (items : List Item) :
    (items.map (shift offset)).dropWhile isSpace =
      (items.dropWhile isSpace).map (shift offset) := by
  have same : isSpace ∘ shift offset = isSpace := funext fun item => isSpace_shift offset item
  rw [List.dropWhile_map, same]

theorem enclosed_map_shift (items : List Item) :
    enclosed (items.map (shift offset)) = (enclosed items).map (shift offset) := by
  have trimmed : unpadded (items.map (shift offset)) = (unpadded items).map (shift offset) := by
    rw [unpadded, ← List.map_reverse, dropWhile_isSpace_map_shift, ← List.map_reverse,
      dropWhile_isSpace_map_shift, unpadded]
  rw [enclosed, trimmed, List.isEmpty_map, enclosed]
  split <;> simp

end Shift

/-- Grouping does not look at places. -/
theorem Grouped.shift {tokens : List Token} {items : List Item} (grouped : Grouped tokens items)
    (offset : Nat) :
    Grouped (tokens.map (Token.shift offset)) (items.map (Item.shift offset)) := by
  induction grouped with
  | nil => exact .nil
  | token noOpening noClosing _ ih =>
    rw [List.map_cons, List.map_cons, shift_token]
    exact .token noOpening noClosing ih
  | parens opens closes _ _ ihNested ihRest =>
    simp only [List.map_cons, List.map_append, shift_token, ← enclosed_map_shift]
    exact .parens opens closes ihNested ihRest

end Item

end DynamicSql.Sql
