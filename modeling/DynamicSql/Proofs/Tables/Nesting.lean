import DynamicSql.Proofs.Grouping.Depth
import DynamicSql.Proofs.Lexing.Tokens
import DynamicSql.Proofs.Outcome
import DynamicSql.Proofs.Tables.Names

/-!
# The tables of queries at every depth

The walk through a query enters every pair of parentheses, in whichever of its
stretches that stands, and looks for lists of tables in those that hold a
query. So it finds the names in the lists of tables of all the queries nested in
a statement, and no others.
-/

namespace DynamicSql.Sql

namespace Item

/-- What stands between two parentheses, however deep these are nested among some items. -/
inductive Nested (group : List Item) : List Item → Prop
  | here {items : List Item} (member : .clause group ∈ items) : Nested group items
  | deeper {items inner : List Item} (member : .clause inner ∈ items)
      (nested : Nested group inner) : Nested group items

/-- A query nested among some items names a table. -/
def NamesNested (items : List Item) (name : String) : Prop :=
  ∃ group, Nested group items ∧ leader? group = some .SELECT ∧ Names group name

end Item

open Item

variable {name : String}

theorem mem_nested_readings {items : List Item} :
    name ∈ Reading.nested (Item.readings items) ↔ ∃ item ∈ items, name ∈ item.tables := by
  rw [Reading.mem_nested, Item.readings_eq_map]
  simp only [List.mem_map, exists_exists_and_eq_and]

theorem mem_tables_clause {items : List Item} :
    name ∈ (Item.clause items).tables ↔ (leader? items = some .SELECT ∧ Names items name) ∨
      name ∈ Reading.nested (Item.readings items) := by
  rw [Item.tables]
  split
  · next isQuery => simp [mem_queryTables_iff, isQuery]
  · next noQuery => simp [noQuery]

/-- The tables that the nested queries read are those that some nested query names. -/
theorem mem_nested_iff {items : List Item} :
    name ∈ Reading.nested (Item.readings items) ↔ NamesNested items name := by
  constructor
  · intro read
    -- The readings of an item hold those of the items in it, so the induction is on the size.
    induction size : sizeOf items using Nat.strong_induction_on generalizing items with
    | _ n ih =>
      obtain ⟨item, member, inItem⟩ := mem_nested_readings.mp read
      cases item with
      | token t =>
        rw [Item.tables] at inItem
        cases inItem
      | clause inner =>
        rcases mem_tables_clause.mp inItem with ⟨isQuery, named⟩ | deeper
        · exact ⟨inner, .here member, isQuery, named⟩
        · have smaller : sizeOf inner < n := by
            have below := List.sizeOf_lt_of_mem member
            rw [Item.clause.sizeOf_spec] at below
            omega
          obtain ⟨group, nested, isQuery, named⟩ := ih _ smaller deeper rfl
          exact ⟨group, .deeper member nested, isQuery, named⟩
  · rintro ⟨group, nested, isQuery, named⟩
    induction nested with
    | here member =>
      exact mem_nested_readings.mpr ⟨_, member, mem_tables_clause.mpr (.inl ⟨isQuery, named⟩)⟩
    | deeper member _ ih =>
      exact mem_nested_readings.mpr ⟨_, member, mem_tables_clause.mpr (.inr ih)⟩

/-- Induction along the steps in which each element is kept once: behind the first element only
    those are left that differ from it. -/
theorem eraseDups_induction {α : Type} [BEq α] {P : List α → Prop} (nil : P [])
    (cons : ∀ first rest, P (rest.filter (! · == first)) → P (first :: rest)) (l : List α) :
    P l := by
  induction size : l.length using Nat.strong_induction_on generalizing l with
  | _ n ih =>
    cases l with
    | nil => exact nil
    | cons first rest =>
      refine cons first rest (ih _ ?_ _ rfl)
      have shorter := List.length_filter_le (! · == first) rest
      simp only [← size, List.length_cons]
      omega

/-- Each name is kept once. -/
theorem nodup_eraseDups (names : List String) : names.eraseDups.Nodup := by
  induction names using eraseDups_induction with
  | nil => exact List.nodup_nil
  | cons first names ih =>
    rw [List.eraseDups_cons, List.nodup_cons]
    exact ⟨by simp [List.mem_eraseDups], ih⟩

/-- Trimming takes no parenthesis away. -/
theorem Token.depthAfter_trim (tokens : List Token) :
    TokenKind.depthAfter 0 ((trim tokens).map kind) =
      TokenKind.depthAfter 0 (tokens.map kind) := by
  obtain ⟨front, back, split, noneInFront, noneBehind⟩ := exists_trim_between tokens
  have plain {others : List Token} (none : ∀ t ∈ others, t.kind = .space ∨ t.kind = .semicolon)
      (depth : Nat) : TokenKind.depthAfter depth (others.map kind) = some depth := by
    refine TokenKind.depthAfter_of_plain (fun other member => ?_) depth
    obtain ⟨t, among, rfl⟩ := List.mem_map.mp member
    rcases none t among with isSpace | isSemicolon
    · simp [isSpace]
    · simp [isSemicolon]
  conv_rhs => rw [split]
  rw [List.map_append, List.map_append, TokenKind.depthAfter_append,
    TokenKind.depthAfter_append, plain noneInFront, Option.bind_some]
  cases TokenKind.depthAfter 0 ((trim tokens).map kind) with
  | none => rfl
  | some depth => exact (plain noneBehind depth).symm

/-- The tables of a statement with balanced parentheses are found by its first keyword. -/
theorem exists_tablesOfText {sql : String} {tokens : List Token}
    (cut : tokenize sql Keyword.ofTables = .ok tokens)
    (balanced : TokenKind.Balanced (tokens.map Token.kind)) :
    ∃ items, Item.Grouped (Token.trim tokens) items ∧ tablesOfText sql =
      .ok (tablesOf (tokens.findSome? Token.keyword?) (Token.trim tokens) items).eraseDups := by
  rw [TokenKind.balanced_iff_depthAfter, ← Token.depthAfter_trim,
    ← TokenKind.balanced_iff_depthAfter] at balanced
  obtain ⟨items, grouped⟩ := Item.exists_grouped_iff.mpr balanced
  refine ⟨items, grouped, ?_⟩
  rw [← Token.findSome?_keyword?_trim, ← Token.keyword?_firstKeyword?]
  simp only [tablesOfText, cut, tables, Item.group_eq_ok_iff.mpr grouped, bind, Except.bind,
    pure, Except.pure]

/-- The tables of a query with balanced parentheses are the names in the lists of tables of the
    statement and of every query nested in it, each name once. -/
theorem tablesOfText_of_query {sql : String} {tokens : List Token}
    (cut : tokenize sql Keyword.ofTables = .ok tokens)
    (balanced : TokenKind.Balanced (tokens.map Token.kind))
    (leads : tokens.findSome? Token.keyword? = some .SELECT) :
    ∃ items names, Item.Grouped (Token.trim tokens) items ∧ tablesOfText sql = .ok names ∧
      names.Nodup ∧ ∀ name, name ∈ names ↔ Names items name ∨ NamesNested items name := by
  obtain ⟨items, grouped, found⟩ := exists_tablesOfText cut balanced
  rw [leads] at found
  refine ⟨items, _, grouped, found, nodup_eraseDups _, fun name => ?_⟩
  rw [List.mem_eraseDups, tablesOf, mem_queryTables_iff, mem_nested_iff]

theorem tablesOfText_of_union_with_subquery :
    let sql := "select a from t where b in (select c from u, (v join w)) union select d from p.q"
    ∃ tokens, tokenize sql Keyword.ofTables = .ok tokens ∧
      TokenKind.Balanced (tokens.map Token.kind) ∧
      tokens.findSome? Token.keyword? = some .SELECT ∧
      tablesOfText sql = .ok ["t", "u", "p.q"] ∧
      ∃ items names, Item.Grouped (Token.trim tokens) items ∧ tablesOfText sql = .ok names ∧
        names.Nodup ∧ ∀ name, name ∈ names ↔ Names items name ∨ NamesNested items name := by
  intro sql
  have read : ((tokenize sql Keyword.ofTables).toOption.any fun tokens =>
      TokenKind.depthAfter 0 (tokens.map Token.kind) == some 0 &&
        tokens.findSome? Token.keyword? == some .SELECT) = true := by
    decide +kernel
  cases known : (tokenize sql Keyword.ofTables).toOption with
  | none =>
    rw [known] at read
    cases read
  | some tokens =>
    rw [known, Option.any_some, Bool.and_eq_true, beq_iff_eq, beq_iff_eq] at read
    have cut := eq_ok_of_toOption known
    have balanced := TokenKind.balanced_iff_depthAfter.mpr read.1
    refine ⟨tokens, cut, balanced, read.2, ?_, tablesOfText_of_query cut balanced read.2⟩
    apply eq_ok_of_toOption
    decide +kernel

end DynamicSql.Sql
