import DynamicSql.Proofs.Tables.Targets

/-!
# The tables of changes

A change touches the table that it writes and the tables that its queries read.
Which kind of change it is, is told by the first keyword, wherever that stands,
and an insertion is searched for queries only from its own query on. So the
table that is written is missed behind a query between parentheses, and so is a
subquery that stands in front of the query of an insertion.
-/

namespace DynamicSql.Sql

namespace Keyword

/-- Where a change names the table that it writes: the keyword behind which it does, and the one
    that ends the search for the name. -/
def target? : Keyword → Option (Keyword × Option Keyword)
  | INSERT => some (INTO, none)
  | REPLACE => some (INTO, none)
  | UPDATE => some (UPDATE, some SET)
  | DELETE => some (FROM, some WHERE)
  | _ => none

/-- The keywords that tell what a statement does. -/
def kinds : List Keyword := [SELECT, INSERT, REPLACE, UPDATE, DELETE]

theorem mem_kinds_of_target? {keyword : Keyword} {target : Keyword × Option Keyword}
    (writes : keyword.target? = some target) : keyword ∈ kinds := by
  cases keyword <;> first | decide | cases writes

end Keyword

namespace Item

/-- A change that is led by a keyword names the table that it writes. -/
def Writes (leader : Keyword) (items : List Item) (name : String) : Prop :=
  ∃ mark stop, leader.target? = some (mark, stop) ∧ NamedBehind mark items name

/-- The search for the table that a change writes ends too early. -/
def EndsEarly (leader : Keyword) (items : List Item) : Prop :=
  ∃ mark stop, leader.target? = some (mark, some stop) ∧ Precedes stop mark items

/-- The query from which an insertion takes its rows: everything from the first SELECT on. -/
def ownQuery? (items : List Item) : Option (List Item) :=
  match items.dropWhile (! isKeyword .SELECT ·) with
  | [] => none
  | query => some query

/-- The query that a statement with the given first keyword is or has of its own. -/
def query? (first : Keyword) (items : List Item) : Option (List Item) :=
  match first with
  | .SELECT => some items
  | .INSERT => ownQuery? items
  | .REPLACE => ownQuery? items
  | _ => none

/-- A query of a statement names a table: its own query, if it has one, or one that is nested in
    that or else anywhere in the statement. -/
def Reads (first : Keyword) (items : List Item) (name : String) : Prop :=
  match query? first items with
  | some query => Names query name ∨ NamesNested query name
  | none => NamesNested items name

/-- A statement with the given first keyword touches a table; one of no known kind stands for
    itself. -/
def Touches (first : Keyword) (tokens : List Token) (items : List Item) (name : String) : Prop :=
  if first ∈ Keyword.kinds then
    (Writes first items name ∧ ¬ EndsEarly first items) ∨ Reads first items name
  else name = Token.textOf tokens

/-- The first keyword of a statement tells where its leader, which is the first one outside every
    parenthesis, names the table that is written, and the search does not end in front of it. A
    deletion may also begin like a query, since its list of tables is read like that of one. -/
def Recognized (first leader : Keyword) (items : List Item) : Prop :=
  (first.target? = leader.target? ∧ (leader = .DELETE → ¬ Precedes .WHERE .FROM items)) ∨
    (first = .SELECT ∧ leader = .DELETE)

/-- What the pairs of parentheses among some items enclose. -/
def clauses (items : List Item) : List (List Item) :=
  items.filterMap fun
    | clause inner => some inner
    | token _ => none

theorem mem_clauses_iff {inner items : List Item} :
    inner ∈ clauses items ↔ clause inner ∈ items := by
  rw [clauses, List.mem_filterMap]
  constructor
  · rintro ⟨item, member, found⟩
    cases item with
    | token t => cases found
    | clause other =>
      cases found
      exact member
  · exact fun member => ⟨_, member, rfl⟩

end Item

open Item

variable {name : String} {items : List Item} {tokens : List Token}

section Touched

theorem dropWhile_readings (keyword : Keyword) (items : List Item) :
    (Item.readings items).dropWhile (! Reading.isKeyword keyword ·) =
      Item.readings (items.dropWhile (! isKeyword keyword ·)) := by
  rw [Item.readings_eq_map, Item.readings_eq_map, List.dropWhile_map]
  rfl

/-- The tables that a query with what is nested in it reads. -/
theorem mem_queryTables_readings_iff :
    name ∈ queryTables (Item.readings items) ↔ Names items name ∨ NamesNested items name := by
  rw [mem_queryTables_iff, mem_nested_iff]

theorem mem_insertion_iff {first : Keyword} (inserts : first = .INSERT ∨ first = .REPLACE) :
    (name ∈ match (Item.readings items).dropWhile (! Reading.isKeyword .SELECT ·) with
      | [] => Reading.nested (Item.readings items)
      | query => queryTables query) ↔ Reads first items name := by
  have own : query? first items = ownQuery? items := by rcases inserts with rfl | rfl <;> rfl
  rw [Reads, own, ownQuery?, dropWhile_readings]
  cases items.dropWhile (! isKeyword .SELECT ·) with
  | nil => exact mem_nested_iff
  | cons item query => exact mem_queryTables_readings_iff

theorem writes_iff {leader mark : Keyword} {stop : Option Keyword}
    (target : leader.target? = some (mark, stop)) :
    Writes leader items name ↔ NamedBehind mark items name := by
  simp [Writes, target]

theorem endsEarly_iff {leader mark stop : Keyword}
    (target : leader.target? = some (mark, some stop)) :
    EndsEarly leader items ↔ Precedes stop mark items := by
  simp [EndsEarly, target]

theorem touches_insertion_iff {first : Keyword} (inserts : first = .INSERT ∨ first = .REPLACE) :
    Touches first tokens items name ↔ NamedBehind .INTO items name ∨ Reads first items name := by
  have target : first.target? = some (.INTO, none) := by rcases inserts with rfl | rfl <;> rfl
  have timely : ¬ EndsEarly first items := by simp [EndsEarly, target]
  rw [Touches, if_pos (Keyword.mem_kinds_of_target? target), writes_iff target]
  simp [timely]

theorem touches_change_iff {first mark stop : Keyword}
    (target : first.target? = some (mark, some stop)) (noQuery : query? first items = none) :
    Touches first tokens items name ↔
      (NamedBehind mark items name ∧ ¬ Precedes stop mark items) ∨ NamesNested items name := by
  rw [Touches, if_pos (Keyword.mem_kinds_of_target? target), writes_iff target,
    endsEarly_iff target, Reads, noQuery]

theorem mem_change_iff {mark stop : Keyword} (differ : stop ≠ mark) :
    name ∈ nameBetween mark stop items ++ Reading.nested (Item.readings items) ↔
      (NamedBehind mark items name ∧ ¬ Precedes stop mark items) ∨ NamesNested items name := by
  rw [List.mem_append, mem_nameBetween_iff, namedBehind_upTo_iff differ, mem_nested_iff]

/-- The tables that are found are those that the statement touches. -/
theorem mem_tablesOf_iff {first : Keyword} :
    name ∈ tablesOf (some first) tokens items ↔ Touches first tokens items name := by
  cases first with
  | SELECT =>
    rw [Touches, if_pos (by decide)]
    simp [tablesOf, mem_queryTables_readings_iff, Reads, query?, Writes, Keyword.target?]
  | INSERT =>
    rw [touches_insertion_iff (.inl rfl), ← mem_nameAfter_iff, ← mem_insertion_iff (.inl rfl)]
    exact List.mem_append
  | REPLACE =>
    rw [touches_insertion_iff (.inr rfl), ← mem_nameAfter_iff, ← mem_insertion_iff (.inr rfl)]
    exact List.mem_append
  | UPDATE =>
    rw [touches_change_iff rfl rfl]
    exact mem_change_iff (by decide)
  | DELETE =>
    rw [touches_change_iff rfl rfl]
    exact mem_change_iff (by decide)
  | _ =>
    rw [Touches, if_neg (by decide)]
    exact List.mem_singleton

end Touched

section Leader

theorem leader?_eq_some_iff {keyword : Keyword} :
    leader? items = some keyword ↔ ∃ before t after, items = before ++ .token t :: after ∧
      t.keyword? = some keyword ∧ ∀ other ∈ before, other.token?.bind Token.keyword? = none := by
  rw [leader?, List.findSome?_eq_some_iff]
  constructor
  · rintro ⟨before, item, after, rfl, isKeyword, noKeyword⟩
    cases item with
    | token t => exact ⟨before, t, after, rfl, isKeyword, noKeyword⟩
    | clause inner => cases isKeyword
  · rintro ⟨before, t, after, rfl, isKeyword, noKeyword⟩
    exact ⟨before, .token t, after, rfl, isKeyword, noKeyword⟩

theorem isKeyword_iff {keyword : Keyword} {item : Item} :
    item.isKeyword keyword = true ↔ item.token?.bind Token.keyword? = some keyword := by
  cases item with
  | clause inner => simp [isKeyword, token?]
  | token t =>
    simp only [isKeyword, Token.isKeyword, token?, Option.bind_some, Token.keyword?, beq_iff_eq]
    cases t.kind <;> simp [TokenKind.keyword?]

/-- No keyword stands in front of the leader. -/
theorem not_precedes_leader {leader other : Keyword} (leads : leader? items = some leader) :
    ¬ Precedes other leader items := by
  obtain ⟨before, t, after, rfl, isLeader, noKeyword⟩ := leader?_eq_some_iff.mp leads
  have first : ∀ item ∈ before, item.isKeyword leader = false := by
    intro item member
    rw [Bool.eq_false_iff, Ne, isKeyword_iff, noKeyword item member]
    simp
  have marked : (Item.token t).isKeyword leader = true := isKeyword_iff.mpr isLeader
  rintro ⟨item, member, isOther⟩
  rw [upTo_append first (by simpa using marked)] at member
  rw [isKeyword_iff, noKeyword item member] at isOther
  cases isOther

/-- A statement with a keyword outside every parenthesis has a first keyword. -/
theorem Item.Grouped.exists_first {leader : Keyword} (grouped : Grouped tokens items)
    (leads : leader? items = some leader) :
    ∃ first, tokens.findSome? Token.keyword? = some first := by
  obtain ⟨before, t, after, rfl, isLeader, -⟩ := leader?_eq_some_iff.mp leads
  have noParens : t.kind ≠ .leftParen ∧ t.kind ≠ .rightParen := by
    constructor <;> (intro kind; rw [Token.keyword?, kind] at isLeader; cases isLeader)
  obtain ⟨front, back, rfl, -, -⟩ := grouped.divide rfl noParens.1 noParens.2
  refine Option.isSome_iff_exists.mp (List.findSome?_isSome_iff.mpr ⟨t, by simp, ?_⟩)
  rw [isLeader, Option.isSome_some]

end Leader

section Subqueries

/-- What stands behind the first FROM of some items stands at the beginning of the list of tables
    of one of their branches. -/
theorem names_of_namedBehind (named : NamedBehind .FROM items name) : Names items name := by
  rcases first_marked (isKeyword .FROM) items with
    none | ⟨before, item, after, rfl, first, marked⟩
  · rw [NamedBehind, behind_of_none none] at named
    exact absurd named not_begins_nil
  rw [NamedBehind, behind_append first marked] at named
  have differ : Keyword.SELECT ≠ .FROM := by decide
  have noSelect := isKeyword_eq_false differ marked
  obtain ⟨front, ahead, part, back, rfl, rfl, closed, starts⟩ :=
    exists_startsAt_append before after noSelect
  obtain ⟨list, rest, rfl, inside, ends⟩ := up_to_marked endsList part
  obtain ⟨entry, others, rfl, inEntry, divides⟩ := up_to_marked dividesList list
  rw [begins_append_iff (passes_isKeyword .SELECT) closed,
    begins_append_iff passes_endsList ends, begins_append_iff passes_dividesList divides] at named
  have follows : Follows (isKeyword .FROM) endsList (ahead ++ item :: (entry ++ others ++ rest))
      (entry ++ others) :=
    ⟨ahead, item, rest, rfl, fun other member => first other (by simp [member]), marked, inside,
      ends⟩
  have between : Between dividesList (entry ++ others) entry :=
    ⟨[], others, rfl, by simp, inEntry, divides⟩
  exact ⟨_, _, entry, starts, follows, between, named⟩

theorem Item.Nested.mono {group others : List Item} (nested : Nested group items)
    (among : items ⊆ others) : Nested group others := by
  cases nested with
  | here member => exact .here (among member)
  | deeper member inner => exact .deeper (among member) inner

theorem ownQuery?_subset (items : List Item) : (ownQuery? items).getD items ⊆ items := by
  have suffix : items.dropWhile (! isKeyword .SELECT ·) ⊆ items :=
    (List.dropWhile_suffix _).subset
  unfold ownQuery?
  split
  · exact List.Subset.refl items
  · exact suffix

/-- The items that are searched for queries are items of the statement. -/
theorem searched_subset (first : Keyword) (items : List Item) :
    (query? first items).getD items ⊆ items := by
  cases first with
  | INSERT => exact ownQuery?_subset items
  | REPLACE => exact ownQuery?_subset items
  | _ => exact List.Subset.refl items

/-- A subquery among the items that are searched for queries is read. -/
theorem reads_of_nested {first : Keyword} {group : List Item}
    (nested : Nested group ((query? first items).getD items))
    (isQuery : leader? group = some .SELECT) (named : NamedBehind .FROM group name) :
    Reads first items name := by
  have inside : NamesNested ((query? first items).getD items) name :=
    ⟨group, nested, isQuery, names_of_namedBehind named⟩
  rw [Reads]
  cases found : query? first items with
  | none =>
    rw [found] at inside
    exact inside
  | some query =>
    rw [found] at inside
    exact .inr inside

end Subqueries

section Statements

variable {sql : String}

/-- A check of the tokens and items of a text. -/
theorem exists_read (sql : String) (check : List Token → List Item → Bool)
    (passed : ((tokenize sql Keyword.ofTables).toOption.any fun tokens =>
      (Item.group (Token.trim tokens)).toOption.any (check tokens)) = true) :
    ∃ tokens items, tokenize sql Keyword.ofTables = .ok tokens ∧
      TokenKind.Balanced (tokens.map Token.kind) ∧ Grouped (Token.trim tokens) items ∧
      check tokens items = true := by
  obtain ⟨tokens, cut, passed⟩ := exists_ok_of_any passed
  obtain ⟨items, read, passed⟩ := exists_ok_of_any passed
  have grouped := group_eq_ok_iff.mp read
  have balanced := exists_grouped_iff.mp ⟨items, grouped⟩
  rw [TokenKind.balanced_iff_depthAfter, Token.depthAfter_trim,
    ← TokenKind.balanced_iff_depthAfter] at balanced
  exact ⟨tokens, items, cut, balanced, grouped, passed⟩

/-- The table that is written is touched if it is recognized. -/
theorem touches_of_recognized {first leader : Keyword} (leads : leader? items = some leader)
    (writes : Writes leader items name) (recognized : Recognized first leader items) :
    Touches first tokens items name := by
  obtain ⟨mark, stop, target, named⟩ := writes
  rcases recognized with ⟨same, timely⟩ | ⟨rfl, rfl⟩
  · have targetFirst := same.trans target
    rw [Touches, if_pos (Keyword.mem_kinds_of_target? targetFirst), writes_iff targetFirst]
    refine .inl ⟨named, ?_⟩
    rintro ⟨mark', stop', target', early⟩
    rw [same] at target'
    cases leader with
    | UPDATE =>
      cases target'
      exact not_precedes_leader leads early
    | DELETE =>
      cases target'
      exact timely rfl early
    | _ => cases target'
  · cases target
    rw [Touches, if_pos (by decide)]
    exact .inr (.inl (names_of_namedBehind named))

/-- The table that a change writes is found if it is recognized, and else just if the statement
    touches it in another way. -/
theorem written_mem_tablesOfText (cut : tokenize sql Keyword.ofTables = .ok tokens)
    (balanced : TokenKind.Balanced (tokens.map Token.kind)) :
    ∃ items names, Grouped (Token.trim tokens) items ∧ tablesOfText sql = .ok names ∧
      ∀ leader name, leader? items = some leader → Writes leader items name →
        ∃ first, tokens.findSome? Token.keyword? = some first ∧
          (Recognized first leader items → name ∈ names) ∧
          (name ∈ names ↔ Touches first (Token.trim tokens) items name) := by
  obtain ⟨items, grouped, found⟩ := exists_tablesOfText cut balanced
  refine ⟨items, _, grouped, found, fun leader name leads writes => ?_⟩
  obtain ⟨first, isFirst⟩ := grouped.exists_first leads
  rw [Token.findSome?_keyword?_trim] at isFirst
  rw [isFirst, List.mem_eraseDups, mem_tablesOf_iff]
  exact ⟨first, rfl, touches_of_recognized leads writes, Iff.rfl⟩

/-- The WHERE of a deletion stands behind its FROM. -/
theorem written_mem_tablesOfText_of_deletion :
    let sql := "delete from app.log where b in (select c from v)"
    ∃ tokens items names, tokenize sql Keyword.ofTables = .ok tokens ∧
      TokenKind.Balanced (tokens.map Token.kind) ∧ leader? items = some .DELETE ∧
      Writes .DELETE items "app.log" ∧ Recognized .DELETE .DELETE items ∧
      Grouped (Token.trim tokens) items ∧ tablesOfText sql = .ok names ∧ "app.log" ∈ names := by
  intro sql
  obtain ⟨tokens, items, cut, balanced, grouped, passed⟩ := exists_read sql
    (fun tokens items => tokens.findSome? Token.keyword? == some .DELETE &&
      leader? items == some .DELETE && (nameAfter .FROM items).contains "app.log" &&
      ! (upTo .FROM items).any (isKeyword .WHERE)) (by decide +kernel)
  simp only [Bool.and_eq_true, beq_iff_eq, Bool.not_eq_true', List.contains_iff_mem,
    mem_nameAfter_iff, List.any_eq_false] at passed
  obtain ⟨⟨⟨isFirst, leads⟩, named⟩, timely⟩ := passed
  have writes : Writes .DELETE items "app.log" := ⟨.FROM, some .WHERE, rfl, named⟩
  have recognized : Recognized .DELETE .DELETE items := by
    refine .inl ⟨rfl, fun _ => ?_⟩
    rintro ⟨item, member, isWhere⟩
    exact timely item member isWhere
  obtain ⟨_, names, sameGrouped, found, all⟩ := written_mem_tablesOfText cut balanced
  obtain rfl := grouped.unique sameGrouped
  obtain ⟨first, same, met, -⟩ := all .DELETE "app.log" leads writes
  rw [isFirst] at same
  cases same
  exact ⟨tokens, items, names, cut, balanced, leads, writes, recognized, grouped, found,
    met recognized⟩

/-- An update behind a query between parentheses, and a deletion with a WHERE in front of its
    FROM, touch nothing. -/
theorem tablesOfText_misses_written :
    (∃ tokens items, tokenize "with x as (select 1) update t set a = 1" Keyword.ofTables =
        .ok tokens ∧ TokenKind.Balanced (tokens.map Token.kind) ∧
      Grouped (Token.trim tokens) items ∧ leader? items = some .UPDATE ∧
      Writes .UPDATE items "t" ∧
      tablesOfText "with x as (select 1) update t set a = 1" = .ok []) ∧
    ∃ tokens items, tokenize "delete where a = 1 from t" Keyword.ofTables = .ok tokens ∧
      TokenKind.Balanced (tokens.map Token.kind) ∧ Grouped (Token.trim tokens) items ∧
      leader? items = some .DELETE ∧ Writes .DELETE items "t" ∧
      tablesOfText "delete where a = 1 from t" = .ok [] := by
  constructor
  · obtain ⟨tokens, items, cut, balanced, grouped, passed⟩ :=
      exists_read "with x as (select 1) update t set a = 1"
        (fun _ items => leader? items == some .UPDATE &&
          (nameAfter .UPDATE items).contains "t") (by decide +kernel)
    simp only [Bool.and_eq_true, beq_iff_eq, List.contains_iff_mem, mem_nameAfter_iff] at passed
    refine ⟨tokens, items, cut, balanced, grouped, passed.1, ⟨_, _, rfl, passed.2⟩, ?_⟩
    apply eq_ok_of_toOption
    decide +kernel
  · obtain ⟨tokens, items, cut, balanced, grouped, passed⟩ :=
      exists_read "delete where a = 1 from t"
        (fun _ items => leader? items == some .DELETE &&
          (nameAfter .FROM items).contains "t") (by decide +kernel)
    simp only [Bool.and_eq_true, beq_iff_eq, List.contains_iff_mem, mem_nameAfter_iff] at passed
    refine ⟨tokens, items, cut, balanced, grouped, passed.1, ⟨_, _, rfl, passed.2⟩, ?_⟩
    apply eq_ok_of_toOption
    decide +kernel

/-- A subquery of a change is read unless it stands in front of the query of an insertion, and
    then its table is found just if the statement touches it in another way. -/
theorem subquery_mem_tablesOfText (cut : tokenize sql Keyword.ofTables = .ok tokens)
    (balanced : TokenKind.Balanced (tokens.map Token.kind)) {first : Keyword}
    (leads : tokens.findSome? Token.keyword? = some first)
    (change : first ∈ [Keyword.INSERT, .REPLACE, .UPDATE, .DELETE]) :
    ∃ items names, Grouped (Token.trim tokens) items ∧ tablesOfText sql = .ok names ∧
      ∀ group name, Nested group items → leader? group = some .SELECT →
        NamedBehind .FROM group name →
          (Nested group ((query? first items).getD items) → name ∈ names) ∧
          (name ∈ names ↔ Touches first (Token.trim tokens) items name) := by
  obtain ⟨items, grouped, found⟩ := exists_tablesOfText cut balanced
  refine ⟨items, _, grouped, found, fun group name _ isQuery named => ?_⟩
  have known : first ∈ Keyword.kinds := List.mem_cons_of_mem _ change
  rw [leads, List.mem_eraseDups, mem_tablesOf_iff]
  refine ⟨fun nested => ?_, Iff.rfl⟩
  rw [Touches, if_pos known]
  exact .inr (reads_of_nested nested isQuery named)

/-- A subquery inside another clause, behind the SELECT of an insertion. -/
theorem subquery_mem_tablesOfText_of_insertion :
    let sql := "insert into log select b from w where (a and b in (select c from u))"
    ∃ tokens items names group, tokenize sql Keyword.ofTables = .ok tokens ∧
      TokenKind.Balanced (tokens.map Token.kind) ∧
      tokens.findSome? Token.keyword? = some .INSERT ∧ Grouped (Token.trim tokens) items ∧
      Nested group items ∧ leader? group = some .SELECT ∧ NamedBehind .FROM group "u" ∧
      Nested group ((query? .INSERT items).getD items) ∧
      tablesOfText sql = .ok names ∧ "u" ∈ names := by
  intro sql
  obtain ⟨tokens, items, cut, balanced, grouped, passed⟩ := exists_read sql
    (fun tokens items => tokens.findSome? Token.keyword? == some .INSERT &&
      ((clauses ((query? .INSERT items).getD items)).flatMap clauses).any fun group =>
        leader? group == some .SELECT && (nameAfter .FROM group).contains "u") (by decide +kernel)
  simp only [Bool.and_eq_true, beq_iff_eq, List.contains_iff_mem, mem_nameAfter_iff,
    List.any_eq_true, List.mem_flatMap, mem_clauses_iff] at passed
  obtain ⟨isFirst, group, ⟨inner, inItems, inInner⟩, isQuery, named⟩ := passed
  have searched : Nested group ((query? .INSERT items).getD items) :=
    .deeper inItems (.here inInner)
  have nested : Nested group items := searched.mono (searched_subset .INSERT items)
  obtain ⟨_, names, sameGrouped, found, all⟩ :=
    subquery_mem_tablesOfText cut balanced isFirst (by decide)
  obtain rfl := grouped.unique sameGrouped
  exact ⟨tokens, items, names, group, cut, balanced, isFirst, grouped, nested, isQuery, named,
    searched, found, (all group "u" nested isQuery named).1 searched⟩

/-- A subquery in front of the SELECT of an insertion is not read. -/
theorem tablesOfText_misses_subquery :
    let sql := "insert into t with x as (select 1 from u) select 2"
    ∃ tokens items group, tokenize sql Keyword.ofTables = .ok tokens ∧
      TokenKind.Balanced (tokens.map Token.kind) ∧
      tokens.findSome? Token.keyword? = some .INSERT ∧ Grouped (Token.trim tokens) items ∧
      Nested group items ∧ leader? group = some .SELECT ∧ NamedBehind .FROM group "u" ∧
      tablesOfText sql = .ok ["t"] := by
  intro sql
  obtain ⟨tokens, items, cut, balanced, grouped, passed⟩ := exists_read sql
    (fun tokens items => tokens.findSome? Token.keyword? == some .INSERT &&
      (clauses items).any fun group =>
        leader? group == some .SELECT && (nameAfter .FROM group).contains "u") (by decide +kernel)
  simp only [Bool.and_eq_true, beq_iff_eq, List.contains_iff_mem, mem_nameAfter_iff,
    List.any_eq_true, mem_clauses_iff] at passed
  obtain ⟨isFirst, group, inItems, isQuery, named⟩ := passed
  refine ⟨tokens, items, group, cut, balanced, isFirst, grouped, .here inItems, isQuery, named, ?_⟩
  apply eq_ok_of_toOption
  decide +kernel

end Statements

end DynamicSql.Sql
