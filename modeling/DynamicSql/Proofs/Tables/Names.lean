import DynamicSql.Proofs.Tables.Stretches
import DynamicSql.Sql.Tables
import Mathlib.Data.List.TakeWhile

/-!
# The names in the lists of tables

Which tables a query names itself, by where the names stand among its items: in
an entry of the list of tables of one of the branches that a compound query is
cut into. Walking the branches finds these names, and of the queries nested in
the items it passes over none.
-/

namespace DynamicSql.Sql

namespace Item

/-- The item ends a list of tables. -/
def endsList (item : Item) : Bool :=
  [Keyword.WHERE, .GROUP, .HAVING, .ORDER, .LIMIT].any (isKeyword · item)

/-- The item stands between two entries of a list of tables. -/
def dividesList (item : Item) : Bool :=
  item.isKind .comma || item.isKeyword .JOIN

/-- Items that are words with a dot between each two of them. -/
inductive Dotted : List String → List Item → Prop
  | word {t : Token} (isWord : t.kind = .word) : Dotted [t.text] [.token t]
  | dot {t d : Token} {words : List String} {items : List Item} (isWord : t.kind = .word)
      (isDot : d.kind = .dot) (rest : Dotted words items) :
      Dotted (t.text :: words) (.token t :: .token d :: items)

/-- Items by which a dotted name in front of them would go on. -/
def Continues (items : List Item) : Prop :=
  ∃ d t rest, items = .token d :: .token t :: rest ∧ d.kind = .dot ∧ t.kind = .word

/-- An entry begins with a name, which is as long as it can be; blanks may stand in front. -/
def Begins (entry : List Item) (name : String) : Prop :=
  ∃ blanks words dotted rest, entry = blanks ++ (dotted ++ rest) ∧
    (∀ item ∈ blanks, item.isSpace = true) ∧ Dotted words dotted ∧ ¬ Continues rest ∧
    ".".intercalate words = name

/-- The items of a query name a table: a compound query is cut in front of every SELECT that
    does not begin it, and each branch has the list of tables behind its first FROM. -/
def Names (items : List Item) (name : String) : Prop :=
  ∃ branch list entry, StartsAt (isKeyword .SELECT) items branch ∧
    Follows (isKeyword .FROM) endsList branch list ∧ Between dividesList list entry ∧
    Begins entry name

end Item

open Item

section LeadingName

theorem nameWords_eq_nil {items : List Item}
    (noWord : ∀ t rest, items = .token t :: rest → t.kind ≠ .word) : nameWords items = [] := by
  rw [nameWords.eq_def]
  split
  · rfl
  · rfl
  · next t rest => rw [if_neg (noWord t rest rfl)]

theorem nameWords_dot {t d : Token} (isWord : t.kind = .word) (isDot : d.kind = .dot)
    (rest : List Item) :
    nameWords (.token t :: .token d :: rest) = t.text :: nameWords rest := by
  rw [nameWords, if_pos isWord, if_pos isDot]

theorem nameWords_last {t : Token} {rest : List Item} (isWord : t.kind = .word)
    (last : ¬ Continues rest) : nameWords (.token t :: rest) = [t.text] := by
  rw [nameWords.eq_def]
  simp only [isWord, if_true]
  split
  · next d more =>
    split
    · next isDot =>
      rw [nameWords_eq_nil]
      rintro next more rfl nextIsWord
      exact last ⟨d, next, more, rfl, isDot, nextIsWord⟩
    · rfl
  · rfl

/-- The words that are found are those of a dotted name as long as it can be. -/
theorem dotted_nameWords {items : List Item} (found : nameWords items ≠ []) :
    ∃ dotted rest, items = dotted ++ rest ∧ Dotted (nameWords items) dotted ∧
      ¬ Continues rest := by
  induction size : items.length using Nat.strong_induction_on generalizing items with
  | _ n ih =>
    match items with
    | [] => exact absurd rfl found
    | .clause inner :: rest => exact absurd rfl found
    | .token t :: rest =>
      have isWord : t.kind = .word := by
        by_contra other
        exact found (nameWords_eq_nil fun _ _ same => by cases same; exact other)
      by_cases continues : Continues rest
      · obtain ⟨d, next, more, rfl, isDot, nextIsWord⟩ := continues
        have nonempty : nameWords (.token next :: more) ≠ [] := by
          intro none
          rw [nameWords.eq_def] at none
          simp [nextIsWord] at none
        have shorter : (Item.token next :: more).length < n := by
          simp only [← size, List.length_cons]
          omega
        obtain ⟨dotted, rest, split, name, last⟩ := ih _ shorter nonempty rfl
        rw [nameWords_dot isWord isDot]
        exact ⟨.token t :: .token d :: dotted, rest, by simp [split], .dot isWord isDot name, last⟩
      · rw [nameWords_last isWord continues]
        exact ⟨[.token t], rest, rfl, .word isWord, continues⟩

theorem Item.Dotted.nameWords_append {words : List String} {dotted rest : List Item}
    (name : Dotted words dotted) (last : ¬ Continues rest) :
    nameWords (dotted ++ rest) = words := by
  induction name with
  | word isWord => exact nameWords_last isWord last
  | dot isWord isDot _ ih => rw [List.cons_append, List.cons_append, nameWords_dot isWord isDot, ih]

theorem Item.Dotted.exists_word {words : List String} {dotted : List Item}
    (name : Dotted words dotted) : ∃ t rest, dotted = .token t :: rest ∧ t.kind = .word ∧
      words ≠ [] := by
  cases name with
  | word isWord => exact ⟨_, _, rfl, isWord, List.cons_ne_nil _ _⟩
  | dot isWord => exact ⟨_, _, rfl, isWord, List.cons_ne_nil _ _⟩

/-- The name at the beginning of an entry. -/
theorem leadingName?_eq_some_iff {entry : List Item} {name : String} :
    leadingName? entry = some name ↔ Begins entry name := by
  constructor
  · intro found
    rw [leadingName?] at found
    split at found
    · cases found
    · next nonempty =>
      cases found
      obtain ⟨dotted, rest, split, name, last⟩ := dotted_nameWords nonempty
      refine ⟨entry.takeWhile Item.isSpace, _, dotted, rest, ?_, fun item member => ?_, name,
        last, rfl⟩
      · rw [← split, List.takeWhile_append_dropWhile]
      · exact List.mem_takeWhile_imp member
  · rintro ⟨blanks, words, dotted, rest, rfl, spaces, name, last, rfl⟩
    obtain ⟨t, more, rfl, isWord, nonempty⟩ := name.exists_word
    have stripped : (blanks ++ (.token t :: more ++ rest)).dropWhile Item.isSpace =
        .token t :: more ++ rest := by
      rw [List.dropWhile_append_of_pos spaces, List.cons_append,
        List.dropWhile_cons_of_neg (by simp [Item.isSpace, isKind, isWord])]
    rw [leadingName?, stripped, name.nameWords_append last]
    cases words with
    | nil => contradiction
    | cons first words => rfl

end LeadingName

namespace Reading

theorem mem_nested {readings : List Reading} {name : String} :
    name ∈ nested readings ↔ ∃ reading ∈ readings, name ∈ reading.tables :=
  List.mem_flatMap

theorem nested_subset {readings others : List Reading} (among : readings ⊆ others) :
    nested readings ⊆ nested others := by
  intro name member
  obtain ⟨reading, inReadings, read⟩ := mem_nested.mp member
  exact mem_nested.mpr ⟨reading, among inReadings, read⟩

end Reading

section Branches

variable {name : String} {readings : List Reading}

theorem branchTables_of_noList (none : ∀ reading ∈ readings, reading.isKeyword .FROM = false) :
    branchTables readings = Reading.nested readings := by
  have dropped : (readings ++ []).dropWhile (! Reading.isKeyword .FROM ·) = [] :=
    dropWhile_up_to none (by simp)
  rw [List.append_nil] at dropped
  rw [branchTables, dropped]

theorem branchTables_of_list {before list after : List Reading} {opening : Reading}
    (first : ∀ reading ∈ before, reading.isKeyword .FROM = false)
    (opens : opening.isKeyword .FROM = true)
    (inside : ∀ reading ∈ list, endsTableList reading = false)
    (closed : ∀ reading ∈ after.head?, endsTableList reading = true) :
    branchTables (before ++ opening :: (list ++ after)) =
      Reading.nested before ++ (list.splitOnP separatesEntries).flatMap entryTables ++
        Reading.nested after := by
  have marked : ∀ reading ∈ (opening :: (list ++ after)).head?,
      reading.isKeyword .FROM = true := by
    simpa using opens
  rw [branchTables, dropWhile_up_to first marked, takeWhile_up_to first marked]
  simp only [takeWhile_up_to inside closed, dropWhile_up_to inside closed]

/-- What is found in a branch is named in its list of tables or read by a nested query. -/
theorem begins_or_nested_of_mem_branchTables {branch : List Reading}
    (found : name ∈ branchTables branch) :
    (∃ list entry, Follows (isKeyword .FROM) endsList (branch.map Reading.item) list ∧
      Between dividesList list entry ∧ Begins entry name) ∨ name ∈ Reading.nested branch := by
  rcases unmarked_or_follows (Reading.isKeyword .FROM) endsTableList branch with
    none | ⟨list, follows⟩
  · rw [branchTables_of_noList none] at found
    exact .inr found
  · have hasList : Follows (isKeyword .FROM) endsList (branch.map Reading.item)
        (list.map Reading.item) := follows.map (fun _ => rfl) fun _ => rfl
    obtain ⟨before, opening, after, rfl, first, opens, inside, closed⟩ := follows
    rw [branchTables_of_list first opens inside closed] at found
    rcases List.mem_append.mp found with inFront | inAfter
    · rcases List.mem_append.mp inFront with inBefore | inList
      · exact .inr (Reading.nested_subset (List.subset_append_left _ _) inBefore)
      · obtain ⟨entry, isEntry, inTables⟩ := List.mem_flatMap.mp inList
        have between := mem_splitOnP_iff.mp isEntry
        rcases List.mem_append.mp inTables with leads | inEntry
        · exact .inl ⟨list.map Reading.item, entry.map Reading.item, hasList,
            between.map fun _ => rfl, leadingName?_eq_some_iff.mp (Option.mem_toList.mp leads)⟩
        · refine .inr (Reading.nested_subset (fun reading member => ?_) inEntry)
          simp [between.subset member]
    · refine .inr (Reading.nested_subset (fun reading member => ?_) inAfter)
      simp [member]

/-- What is found in a query is named in one of its lists of tables or read by a query nested
    in it. -/
theorem names_or_nested_of_mem_queryTables {readings : List Reading}
    (found : name ∈ queryTables readings) :
    Names (readings.map Reading.item) name ∨ name ∈ Reading.nested readings := by
  obtain ⟨branch, isBranch, inTables⟩ := List.mem_flatMap.mp found
  have starts := mem_splitBy_iff.mp isBranch
  rcases begins_or_nested_of_mem_branchTables inTables with ⟨list, entry, named⟩ | nested
  · exact .inl ⟨branch.map Reading.item, list, entry, starts.map fun _ => rfl, named⟩
  · exact .inr (Reading.nested_subset starts.subset nested)

theorem mem_queryTables_of_startsAt {readings branch : List Reading}
    (starts : StartsAt (Reading.isKeyword .SELECT) readings branch)
    (found : name ∈ branchTables branch) : name ∈ queryTables readings :=
  List.mem_flatMap.mpr ⟨branch, mem_splitBy_iff.mpr starts, found⟩

theorem mem_branchTables_of_follows {branch list entry : List Reading}
    (follows : Follows (Reading.isKeyword .FROM) endsTableList branch list)
    (between : Between separatesEntries list entry) (found : name ∈ entryTables entry) :
    name ∈ branchTables branch := by
  obtain ⟨before, opening, after, rfl, first, opens, inside, closed⟩ := follows
  rw [branchTables_of_list first opens inside closed]
  refine List.mem_append_left _ (List.mem_append_right _ ?_)
  exact List.mem_flatMap.mpr ⟨entry, mem_splitOnP_iff.mpr between, found⟩

theorem map_item_readings (items : List Item) :
    (Item.readings items).map Reading.item = items := by
  rw [Item.readings_eq_map, List.map_map]
  exact List.map_id items

/-- Every name in a list of tables of a query is found. -/
theorem mem_queryTables_of_names {items : List Item} (named : Names items name) :
    name ∈ queryTables (Item.readings items) := by
  obtain ⟨branch, list, entry, starts, follows, between, begins⟩ := named
  have found : name ∈ entryTables (Item.readings entry) := by
    refine List.mem_append_left _ (Option.mem_toList.mpr ?_)
    rw [map_item_readings]
    exact leadingName?_eq_some_iff.mpr begins
  rw [Item.readings_eq_map] at found ⊢
  exact mem_queryTables_of_startsAt (starts.map fun _ => rfl)
    (mem_branchTables_of_follows (follows.map (fun _ => rfl) fun _ => rfl)
      (between.map fun _ => rfl) found)

/-- A clause is neither a keyword nor a separator, so a branch passes over no clause. -/
theorem mem_branchTables_of_clause {branch : List Reading} {reading : Reading}
    (member : reading ∈ branch) (isClause : ∃ inner, reading.item = .clause inner)
    (read : name ∈ reading.tables) : name ∈ branchTables branch := by
  obtain ⟨inner, isClause⟩ := isClause
  rcases unmarked_or_follows (Reading.isKeyword .FROM) endsTableList branch with
    none | ⟨list, follows⟩
  · rw [branchTables_of_noList none]
    exact Reading.mem_nested.mpr ⟨reading, member, read⟩
  · have hasList := follows
    obtain ⟨before, opening, after, rfl, first, opens, inside, closed⟩ := follows
    rcases List.mem_append.mp member with inBefore | behind
    · rw [branchTables_of_list first opens inside closed, List.append_assoc]
      exact List.mem_append_left _ (Reading.mem_nested.mpr ⟨reading, inBefore, read⟩)
    · rcases List.mem_cons.mp behind with rfl | behind
      · -- The FROM itself is a token.
        simp [Reading.isKeyword, isClause, isKeyword] at opens
      · rcases List.mem_append.mp behind with inList | inAfter
        · have undivided : separatesEntries reading = false := by
            simp [separatesEntries, Reading.isKeyword, isClause, isKeyword, isKind]
          obtain ⟨entry, between, inEntry⟩ := exists_between_mem inList undivided
          refine mem_branchTables_of_follows hasList between ?_
          exact List.mem_append_right _ (Reading.mem_nested.mpr ⟨reading, inEntry, read⟩)
        · rw [branchTables_of_list first opens inside closed]
          exact List.mem_append_right _ (Reading.mem_nested.mpr ⟨reading, inAfter, read⟩)

/-- What the queries nested in a query read is found. -/
theorem mem_queryTables_of_nested {items : List Item}
    (nested : name ∈ Reading.nested (Item.readings items)) :
    name ∈ queryTables (Item.readings items) := by
  obtain ⟨reading, member, read⟩ := Reading.mem_nested.mp nested
  have isClause : ∃ inner, reading.item = .clause inner := by
    rw [Item.readings_eq_map] at member
    obtain ⟨item, -, rfl⟩ := List.mem_map.mp member
    cases item with
    | token t =>
      rw [Item.tables] at read
      cases read
    | clause inner => exact ⟨inner, rfl⟩
  obtain ⟨branch, starts, inBranch⟩ := exists_startsAt_mem (Reading.isKeyword .SELECT) member
  exact mem_queryTables_of_startsAt starts (mem_branchTables_of_clause inBranch isClause read)

/-- The tables of a query are those that it names and those that the queries nested in it
    read. -/
theorem mem_queryTables_iff {items : List Item} :
    name ∈ queryTables (Item.readings items) ↔
      Names items name ∨ name ∈ Reading.nested (Item.readings items) := by
  constructor
  · intro found
    have split := names_or_nested_of_mem_queryTables found
    rwa [map_item_readings] at split
  · rintro (named | nested)
    · exact mem_queryTables_of_names named
    · exact mem_queryTables_of_nested nested

end Branches

end DynamicSql.Sql
