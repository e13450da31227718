import DynamicSql.Sql.Item
import Mathlib.Data.List.Basic

/-!
# The grammar of groups

Tokens and their items by a grammar: nothing, a token that is no parenthesis in
front of a group, or two parentheses around one group and in front of another.
Grouping reads exactly this grammar, so what holds of all groups is shown by
induction on it and never by following the stack of open parentheses.
-/

namespace DynamicSql.Sql

namespace Item

/-- The items between two parentheses without the blanks at their ends. -/
def unpadded (items : List Item) : List Item :=
  (items.reverse.dropWhile isSpace).reverse.dropWhile isSpace

/-- What stands between two parentheses around some items. -/
def enclosed (items : List Item) : List Item :=
  if (unpadded items).isEmpty then [] else [.clause (unpadded items)]

/-- Tokens with balanced parentheses and their items. -/
inductive Grouped : List Token → List Item → Prop
  | nil : Grouped [] []
  | token {t : Token} {tokens : List Token} {items : List Item}
      (noOpening : t.kind ≠ .leftParen) (noClosing : t.kind ≠ .rightParen)
      (rest : Grouped tokens items) : Grouped (t :: tokens) (.token t :: items)
  | parens {opening closing : Token} {inside tokens : List Token} {inner items : List Item}
      (opens : opening.kind = .leftParen) (closes : closing.kind = .rightParen)
      (nested : Grouped inside inner) (rest : Grouped tokens items) :
      Grouped (opening :: (inside ++ closing :: tokens))
        (.token opening :: (enclosed inner ++ .token closing :: items))

theorem Grouped.append {tokens others : List Token} {items more : List Item}
    (first : Grouped tokens items) (second : Grouped others more) :
    Grouped (tokens ++ others) (items ++ more) := by
  induction first with
  | nil => exact second
  | token noOpening noClosing _ ih => exact .token noOpening noClosing ih
  | parens opens closes nested _ _ ih =>
    simpa only [List.cons_append, List.append_assoc] using Grouped.parens opens closes nested ih

/-- The items begin and end with the tokens at the ends, whatever is nested between. -/
theorem Grouped.ends {tokens : List Token} {items : List Item} (grouped : Grouped tokens items) :
    items.head? = tokens.head?.map .token ∧ items.getLast? = tokens.getLast?.map .token := by
  induction grouped with
  | nil => exact ⟨rfl, rfl⟩
  | @token t tokens items _ _ _ ih =>
    refine ⟨rfl, ?_⟩
    rw [List.getLast?_cons, List.getLast?_cons, ih.2]
    cases tokens.getLast? <;> rfl
  | @parens opening closing inside tokens inner items _ _ _ _ _ ih =>
    refine ⟨rfl, ?_⟩
    rw [← List.cons_append, ← List.cons_append, List.getLast?_append_cons,
      List.getLast?_append_cons, List.getLast?_cons, List.getLast?_cons, ih.2]
    cases tokens.getLast? <;> rfl

theorem enclose_reverse (items before : List Item) :
    enclose items.reverse before = (enclosed items).reverse ++ before := by
  show (if (unpadded items).isEmpty then before else .clause (unpadded items) :: before) = _
  unfold enclosed
  split <;> rfl

section Steps

variable {t : Token} {stack : List Pending} {done : List Item} {rest : List Token}

theorem groupFrom_opening (opens : t.kind = .leftParen) :
    groupFrom stack done (t :: rest) =
      groupFrom (⟨t :: rest, .token t :: done⟩ :: stack) [] rest :=
  groupFrom.eq_3 _ _ _ _ opens

theorem groupFrom_closing {pending : Pending} (closes : t.kind = .rightParen) :
    groupFrom (pending :: stack) done (t :: rest) =
      groupFrom stack (.token t :: enclose done pending.before) rest :=
  groupFrom.eq_5 _ _ _ _ _ closes

theorem groupFrom_other (noOpening : t.kind ≠ .leftParen) (noClosing : t.kind ≠ .rightParen) :
    groupFrom stack done (t :: rest) = groupFrom stack (.token t :: done) rest :=
  groupFrom.eq_6 _ _ _ _ noOpening (fun closes _ => noClosing closes)
    fun _ _ closes _ => noClosing closes

end Steps

/-- Grouping passes over a group whatever is open, and keeps its items. -/
theorem groupFrom_append {tokens : List Token} {items : List Item}
    (grouped : Grouped tokens items) (stack : List Pending) (done : List Item)
    (rest : List Token) :
    groupFrom stack done (tokens ++ rest) = groupFrom stack (items.reverse ++ done) rest := by
  induction grouped generalizing stack done rest with
  | nil => rfl
  | token noOpening noClosing _ ih =>
    rw [List.cons_append, groupFrom_other noOpening noClosing, ih]
    simp
  | parens opens closes _ _ ihNested ihRest =>
    rw [List.cons_append, List.append_assoc, groupFrom_opening opens, ihNested,
      List.cons_append, groupFrom_closing closes, List.append_nil, enclose_reverse, ihRest]
    simp

/-- What the tokens to come are for the open parentheses: a group and then the partner of
    the innermost one, and so on outwards, and a group behind the last partner. -/
def Closes : List Pending → List Item → List Token → List Item → Prop
  | [], done, tokens, items => ∃ more, Grouped tokens more ∧ items = done.reverse ++ more
  | pending :: outer, done, tokens, items =>
    ∃ inside inner closing rest, tokens = inside ++ closing :: rest ∧ Grouped inside inner ∧
      closing.kind = .rightParen ∧
      Closes outer (.token closing :: enclose (inner.reverse ++ done) pending.before) rest items

/-- A group in front belongs to the innermost level. -/
theorem Closes.append {stack : List Pending} {done items : List Item}
    {tokens rest : List Token} {front : List Item} (grouped : Grouped tokens front)
    (closes : Closes stack (front.reverse ++ done) rest items) :
    Closes stack done (tokens ++ rest) items := by
  cases stack with
  | nil =>
    obtain ⟨more, behind, rfl⟩ := closes
    exact ⟨front ++ more, grouped.append behind, by simp⟩
  | cons pending outer =>
    obtain ⟨inside, inner, closing, rest, rfl, nested, closes, behind⟩ := closes
    refine ⟨tokens ++ inside, front ++ inner, closing, rest, by simp, grouped.append nested,
      closes, ?_⟩
    simpa using behind

theorem closes_of_groupFrom {stack : List Pending} {done : List Item} {tokens : List Token}
    {items : List Item} (read : groupFrom stack done tokens = .ok items) :
    Closes stack done tokens items := by
  fun_induction groupFrom stack done tokens with
  | case1 done =>
    cases read
    exact ⟨[], .nil, by simp⟩
  | case2 => cases read
  | case3 done t rest stack opens ih =>
    obtain ⟨inside, inner, closing, behind, rfl, nested, closes, outside⟩ := ih read
    have group := Grouped.parens opens closes nested .nil
    rw [List.append_nil, enclose_reverse] at outside
    have split : t :: (inside ++ closing :: behind) =
        t :: (inside ++ [closing]) ++ behind := by simp
    rw [split]
    exact Closes.append group (by simpa using outside)
  | case4 => cases read
  | case5 done t rest pending outer closes ih =>
    exact ⟨[], [], t, rest, rfl, .nil, closes, ih read⟩
  | case6 done t rest stack noOpening noClosing noPartner ih =>
    have other : t.kind ≠ .rightParen := by
      intro closes
      cases stack with
      | nil => exact noClosing closes rfl
      | cons pending outer => exact noPartner pending outer closes rfl
    exact Closes.append (.token noOpening other .nil) (ih read)

/-- Grouping reads the grammar of groups. -/
theorem group_eq_ok_iff {tokens : List Token} {items : List Item} :
    group tokens = .ok items ↔ Grouped tokens items := by
  constructor
  · intro read
    obtain ⟨more, grouped, same⟩ := closes_of_groupFrom read
    rw [List.reverse_nil, List.nil_append] at same
    exact same ▸ grouped
  · intro grouped
    have passed := groupFrom_append grouped [] [] []
    rw [List.append_nil, List.append_nil] at passed
    rw [group, passed, groupFrom, List.reverse_reverse]

theorem Grouped.unique {tokens : List Token} {items others : List Item}
    (left : Grouped tokens items) (right : Grouped tokens others) : items = others :=
  Except.ok.inj ((group_eq_ok_iff.mpr left).symm.trans (group_eq_ok_iff.mpr right))

end Item

end DynamicSql.Sql
