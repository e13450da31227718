import DynamicSql.Proofs.Grouping.Places
import DynamicSql.Proofs.Tables.Nesting

/-!
# Compound queries

Two queries with a word between them, such as UNION, are a compound query. Each branch
keeps its tables: the word is no keyword, so it goes on neither with the last name in front
of it nor with a list of tables, and the second query begins a branch of its own. Where that
stands in the text makes no difference.
-/

namespace DynamicSql.Sql

namespace Reading

/-- A reading behind some more bytes. -/
def shift (offset : Nat) (reading : Reading) : Reading :=
  { reading with item := reading.item.shift offset }

section Shift

variable (offset : Nat) (reading : Reading)

@[simp]
theorem item_shift : (reading.shift offset).item = reading.item.shift offset := rfl

@[simp]
theorem tables_shift : (reading.shift offset).tables = reading.tables := rfl

@[simp]
theorem isKeyword_shift (keyword : Keyword) :
    (reading.shift offset).isKeyword keyword = reading.isKeyword keyword :=
  Item.isKeyword_shift offset keyword reading.item

@[simp]
theorem separatesEntries_shift :
    separatesEntries (reading.shift offset) = separatesEntries reading := by
  simp [separatesEntries]

@[simp]
theorem endsTableList_shift : endsTableList (reading.shift offset) = endsTableList reading := by
  simp [endsTableList]

@[simp]
theorem nested_map_shift (readings : List Reading) :
    nested (readings.map (shift offset)) = nested readings := by
  rw [nested, List.flatMap_map]
  rfl

end Shift

end Reading

section Shift

variable (offset : Nat)

theorem nameWords_map_shift (items : List Item) :
    nameWords (items.map (Item.shift offset)) = nameWords items := by
  fun_induction nameWords items with
  | case1 => rfl
  | case2 inner rest => rw [List.map_cons, Item.shift_clause, nameWords]
  | case3 t rest isWord ih =>
    cases rest with
    | nil => simp [nameWords, isWord]
    | cons item rest =>
      cases item with
      | clause inner => simp [nameWords, isWord]
      | token d =>
        simp only at ih
        simp [nameWords, isWord, ih]
  | case4 t rest noWord =>
    refine nameWords_eq_nil fun other more same => ?_
    cases same
    exact noWord

theorem leadingName?_map_shift (items : List Item) :
    leadingName? (items.map (Item.shift offset)) = leadingName? items := by
  rw [leadingName?, Item.dropWhile_isSpace_map_shift, nameWords_map_shift, leadingName?]

theorem entryTables_map_shift (entry : List Reading) :
    entryTables (entry.map (Reading.shift offset)) = entryTables entry := by
  have items : (entry.map (Reading.shift offset)).map Reading.item =
      (entry.map Reading.item).map (Item.shift offset) := by
    rw [List.map_map, List.map_map]
    rfl
  rw [entryTables, items, leadingName?_map_shift, Reading.nested_map_shift, entryTables]

theorem branchTables_map_shift (branch : List Reading) :
    branchTables (branch.map (Reading.shift offset)) = branchTables branch := by
  simp only [branchTables, List.dropWhile_map, List.takeWhile_map, Function.comp_def,
    Reading.isKeyword_shift]
  cases branch.dropWhile (! ·.isKeyword .FROM) with
  | nil => exact Reading.nested_map_shift offset branch
  | cons opening behind =>
    simp only [List.map_cons, List.dropWhile_map, List.takeWhile_map, Function.comp_def,
      Reading.endsTableList_shift, Reading.nested_map_shift, splitOnP_map,
      Reading.separatesEntries_shift, List.flatMap_map, entryTables_map_shift]

theorem queryTables_map_shift (readings : List Reading) :
    queryTables (readings.map (Reading.shift offset)) = queryTables readings := by
  rw [queryTables, branches, splitBy_map, List.flatMap_map]
  simp only [Reading.isKeyword_shift, branchTables_map_shift]
  rfl

mutual

/-- What a query reads does not depend on where it stands. -/
theorem Item.tables_shift : ∀ item : Item, (item.shift offset).tables = item.tables
  | .token t => by rw [Item.shift, Item.tables, Item.tables]
  | .clause items => by
    rw [Item.shift, Item.tables, Item.readings_shiftAll items, queryTables_map_shift,
      Reading.nested_map_shift, Item.shiftAll_eq_map, Item.leader?_map_shift, Item.tables]

theorem Item.readings_shiftAll : ∀ items : List Item,
    Item.readings (Item.shiftAll offset items) = (Item.readings items).map (Reading.shift offset)
  | [] => rfl
  | item :: rest => by
    rw [Item.shiftAll, Item.readings, Item.readings, Item.tables_shift item,
      Item.readings_shiftAll rest]
    rfl

end

end Shift

namespace Reading

/-- A blank or a word that is no keyword: it has no part in a list of tables but in a name, and
    nothing is nested in it. -/
structure Plain (reading : Reading) : Prop where
  noKeyword : ∀ keyword, reading.isKeyword keyword = false
  noComma : reading.item.isKind .comma = false
  readsNothing : reading.tables = []

/-- What does not ask for a name behind it, and is no blank. -/
structure Final (reading : Reading) : Prop where
  noFrom : reading.isKeyword .FROM = false
  noSeparator : separatesEntries reading = false
  noSpace : reading.item.isSpace = false

theorem Plain.not_separatesEntries {reading : Reading} (plain : reading.Plain) :
    separatesEntries reading = false := by
  rw [separatesEntries, plain.noComma, plain.noKeyword]
  rfl

theorem Plain.not_endsTableList {reading : Reading} (plain : reading.Plain) :
    endsTableList reading = false :=
  List.any_eq_false.mpr fun keyword _ => by simp [plain.noKeyword keyword]

theorem nested_append (readings others : List Reading) :
    nested (readings ++ others) = nested readings ++ nested others :=
  List.flatMap_append

theorem nested_append_plain {more : List Reading} (plain : ∀ reading ∈ more, reading.Plain)
    (readings : List Reading) : nested (readings ++ more) = nested readings := by
  have none : nested more = [] :=
    List.flatMap_eq_nil_iff.mpr fun reading member => (plain reading member).readsNothing
  rw [nested_append, none, List.append_nil]

/-- What stands behind a reading of some others ends as they all do. -/
theorem final_behind {front back : List Reading} {x : Reading} (nonempty : back ≠ [])
    (final : ∀ reading ∈ (front ++ x :: back).getLast?, reading.Final) :
    ∀ reading ∈ back.getLast?, reading.Final := by
  cases back with
  | nil => exact absurd rfl nonempty
  | cons first back => rwa [List.getLast?_append_cons, List.getLast?_cons_cons] at final

end Reading

section Padding

/-- A name ends in front of a blank. -/
theorem nameWords_append_space {t : Token} (space : t.kind = .space) (items more : List Item) :
    nameWords (items ++ .token t :: more) = nameWords items := by
  fun_induction nameWords items with
  | case1 => exact nameWords_eq_nil fun other rest same => by cases same; simp [space]
  | case2 inner rest => rw [List.cons_append, nameWords]
  | case3 next rest isWord ih =>
    cases rest with
    | nil => simp [nameWords, isWord, space]
    | cons item rest =>
      cases item with
      | clause inner => simp [nameWords, isWord]
      | token d =>
        simp only at ih
        simp [nameWords, isWord, ih]
  | case4 next rest noWord =>
    refine nameWords_eq_nil fun other behind same => ?_
    cases same
    exact noWord

variable {more : List Reading} (plain : ∀ reading ∈ more, reading.Plain)
  {t : Token} (space : t.kind = .space) (begins : more.head?.map Reading.item = some (.token t))
include plain space begins

theorem entryTables_append {entry : List Reading} (nonempty : entry ≠ [])
    (final : ∀ reading ∈ entry.getLast?, reading.Final) :
    entryTables (entry ++ more) = entryTables entry := by
  obtain ⟨first, rest, rfl, item⟩ : ∃ first rest, more = first :: rest ∧
      first.item = .token t := by
    cases more with
    | nil => cases begins
    | cons first rest => exact ⟨first, rest, rfl, Option.some.inj begins⟩
  have last := (final _ (List.getLast?_eq_some_getLast nonempty)).noSpace
  have content : ((entry.map Reading.item).dropWhile Item.isSpace).isEmpty = false := by
    rw [Bool.eq_false_iff, Ne, List.isEmpty_iff, List.dropWhile_eq_nil_iff]
    intro blank
    have isSpace := blank _ (List.mem_map_of_mem (List.getLast_mem nonempty))
    rw [last] at isSpace
    cases isSpace
  rw [entryTables, Reading.nested_append_plain plain, leadingName?, List.map_append,
    List.dropWhile_append, if_neg (by simp [content]), List.map_cons, item,
    nameWords_append_space space, entryTables, leadingName?]

/-- The last entry of a list of tables keeps its tables. -/
theorem flatMap_entryTables_append {list : List Reading} (nonempty : list ≠ [])
    (final : ∀ reading ∈ list.getLast?, reading.Final) :
    ((list ++ more).splitOnP separatesEntries).flatMap entryTables =
      (list.splitOnP separatesEntries).flatMap entryTables := by
  induction list using marked_induction separatesEntries with
  | unmarked list unmarked =>
    have whole : ∀ reading ∈ list ++ more, separatesEntries reading = false :=
      List.forall_mem_append.mpr
        ⟨unmarked, fun reading inMore => (plain reading inMore).not_separatesEntries⟩
    rw [List.splitOnP_eq_singleton whole, List.splitOnP_eq_singleton unmarked,
      List.flatMap_singleton, List.flatMap_singleton,
      entryTables_append plain space begins nonempty final]
  | marked front x back unmarked marked ih =>
    have someBehind : back ≠ [] := by
      rintro rfl
      have noSeparator := (final x (by simp)).noSeparator
      rw [marked] at noSeparator
      cases noSeparator
    rw [List.append_assoc, List.cons_append,
      List.splitOnP_append_cons_of_forall_mem unmarked x marked,
      List.splitOnP_append_cons_of_forall_mem unmarked x marked, List.flatMap_cons,
      List.flatMap_cons, ih someBehind (Reading.final_behind someBehind final)]

theorem branchTables_append {branch : List Reading} (nonempty : branch ≠ [])
    (final : ∀ reading ∈ branch.getLast?, reading.Final) :
    branchTables (branch ++ more) = branchTables branch := by
  rcases first_marked (Reading.isKeyword .FROM) branch with
    none | ⟨before, opening, behind, rfl, first, opens⟩
  · have none' : ∀ reading ∈ branch ++ more, reading.isKeyword .FROM = false :=
      List.forall_mem_append.mpr
        ⟨none, fun reading inMore => (plain reading inMore).noKeyword .FROM⟩
    rw [branchTables_of_noList none', branchTables_of_noList none,
      Reading.nested_append_plain plain]
  · have someBehind : behind ≠ [] := by
      rintro rfl
      have noFrom := (final opening (by simp)).noFrom
      rw [opens] at noFrom
      cases noFrom
    have final' := Reading.final_behind someBehind final
    obtain ⟨list, after, rfl, inside, closed⟩ := up_to_marked endsTableList behind
    rw [branchTables_of_list first opens inside closed, List.append_assoc, List.cons_append,
      List.append_assoc]
    cases after with
    | nil =>
      rw [List.append_nil] at someBehind final'
      have inside' : ∀ reading ∈ list ++ more, endsTableList reading = false :=
        List.forall_mem_append.mpr
          ⟨inside, fun reading inMore => (plain reading inMore).not_endsTableList⟩
      have closed' : ∀ reading ∈ ([] : List Reading).head?, endsTableList reading = true := by simp
      have whole := branchTables_of_list first opens inside' closed'
      rw [List.append_nil] at whole
      rw [List.nil_append, whole, flatMap_entryTables_append plain space begins someBehind final']
    | cons closing after =>
      rw [branchTables_of_list first opens inside (by simpa using closed),
        Reading.nested_append_plain plain]

/-- A blank and what is plain behind it adds nothing to a query. -/
theorem queryTables_append {readings : List Reading} (nonempty : readings ≠ [])
    (final : ∀ reading ∈ readings.getLast?, reading.Final) :
    queryTables (readings ++ more) = queryTables readings := by
  cases readings with
  | nil => exact absurd rfl nonempty
  | cons first readings =>
    rw [List.cons_append, queryTables, queryTables, branches, branches]
    induction readings using marked_induction (Reading.isKeyword .SELECT) generalizing first with
    | unmarked readings unmarked =>
      have whole : ∀ reading ∈ readings ++ more, reading.isKeyword .SELECT = false :=
        List.forall_mem_append.mpr
          ⟨unmarked, fun reading inMore => (plain reading inMore).noKeyword .SELECT⟩
      rw [splitBy_of_unmarked (List.cons_ne_nil _ _) whole,
        splitBy_of_unmarked (List.cons_ne_nil _ _) unmarked, List.flatMap_singleton,
        List.flatMap_singleton, ← List.cons_append, branchTables_append plain space begins nonempty
          final]
    | marked front x back unmarked marked ih =>
      rw [List.append_assoc, List.cons_append, splitBy_of_marked unmarked marked,
        splitBy_of_marked unmarked marked, List.flatMap_cons, List.flatMap_cons,
        ih x (List.cons_ne_nil _ _)]
      rwa [← List.cons_append, List.getLast?_append_cons] at final

end Padding

/-- A query that begins with SELECT is a branch of its own behind another one. -/
theorem queryTables_compound {readings others : List Reading}
    (begins : ∀ reading ∈ others.head?, reading.isKeyword .SELECT = true) :
    queryTables (readings ++ others) = queryTables readings ++ queryTables others := by
  rw [queryTables, branches, List.splitBy_append, List.flatMap_append]
  · rfl
  · intro last _ next first
    simp [begins next first]

theorem Item.readings_append (items others : List Item) :
    Item.readings (items ++ others) = Item.readings items ++ Item.readings others := by
  rw [readings_eq_map, readings_eq_map, readings_eq_map, List.map_append]

/-- Keeping some names and keeping each name once can be done in any order. -/
theorem eraseDups_filter (p : String → Bool) (names : List String) :
    (names.filter p).eraseDups = names.eraseDups.filter p := by
  induction names using eraseDups_induction with
  | nil => rfl
  | cons first names ih =>
    rw [List.filter_filter] at ih
    rw [List.eraseDups_cons, List.filter_cons, List.filter_cons]
    split
    · rw [List.eraseDups_cons, List.filter_filter, ← ih]
      simp only [Bool.and_comm]
    · next dropped =>
      rw [← ih]
      refine congrArg List.eraseDups (List.filter_congr fun name _ => ?_)
      by_cases same : name = first
      · simp [same, dropped]
      · simp [same]

/-- Of some more names those are added that are new. -/
theorem eraseDups_append (names others : List String) :
    (names ++ others).eraseDups =
      names.eraseDups ++ others.eraseDups.filter (· ∉ names.eraseDups) := by
  rw [List.eraseDups_append, List.removeAll, eraseDups_filter]
  refine congrArg (names.eraseDups ++ ·) (List.filter_congr fun name _ => ?_)
  simp [List.mem_eraseDups]

namespace Token

/-- The tokens of two queries that a word makes a compound one: there is nothing to trim, the one
    has SELECT for its first keyword and asks for no further table, and the other one begins with
    SELECT. -/
structure Joinable (front back : List Token) : Prop where
  trimmedFront : TokenKind.Trimmed (front.map kind)
  trimmedBack : TokenKind.Trimmed (back.map kind)
  query : front.findSome? keyword? = some .SELECT
  begins : back.head?.map kind = some (.keyword .SELECT)
  ends : ∀ t ∈ front.getLast?, t.kind ≠ .keyword .FROM ∧ t.kind ≠ .keyword .JOIN ∧
    t.kind ≠ .comma

instance (front back : List Token) : Decidable (Joinable front back) :=
  decidable_of_iff (TokenKind.Trimmed (front.map kind) ∧ TokenKind.Trimmed (back.map kind) ∧
      front.findSome? keyword? = some .SELECT ∧ back.head?.map kind = some (.keyword .SELECT) ∧
      ∀ t ∈ front.getLast?, t.kind ≠ .keyword .FROM ∧ t.kind ≠ .keyword .JOIN ∧ t.kind ≠ .comma)
    ⟨fun ⟨trimmed, trimmed', query, begins, ends⟩ => ⟨trimmed, trimmed', query, begins, ends⟩,
      fun joins => ⟨joins.trimmedFront, joins.trimmedBack, joins.query, joins.begins, joins.ends⟩⟩

theorem Joinable.nonempty {front back : List Token} (joins : Joinable front back) :
    front ≠ [] := by
  rintro rfl
  cases joins.query

theorem Joinable.exists_back {front back : List Token} (joins : Joinable front back) :
    ∃ t rest, back = t :: rest ∧ t.kind = .keyword .SELECT := by
  have begins := joins.begins
  cases back with
  | nil => cases begins
  | cons t rest => exact ⟨t, rest, rfl, Option.some.inj begins⟩

theorem Joinable.query_back {front back : List Token} (joins : Joinable front back) :
    back.findSome? keyword? = some .SELECT := by
  obtain ⟨t, rest, rfl, select⟩ := joins.exists_back
  rw [List.findSome?_cons, keyword?, select]
  rfl

end Token

section Compound

variable {first second word : String} {front back : List Token}

theorem tokenize_word {keywords : List Keyword} (chars : Lexeme.isWordText word = true)
    (plain : ∀ keyword ∈ keywords, keyword.text.toLower ≠ word.toLower) :
    tokenize word keywords = .ok [⟨.word, 0, word⟩] := by
  have read : Lexeme.kindFor keywords ⟨.word, word.toList⟩ = .word := by
    rw [Lexeme.kindFor_word_eq_word_iff, String.ofList_toList]
    exact plain
  have legible := List.forall_mem_singleton.mpr (Lexeme.legible_word rfl chars read)
  refine tokenize_eq_ok_iff.mpr ⟨[⟨.word, word.toList⟩], ?_, ?_, ?_⟩
  · exact Lexeme.cut_ofFace legible (.singleton _)
  · simp [Lexeme.sources]
  · rw [Lexeme.place, read, String.ofList_toList]
    rfl

/-- One more token behind some others. -/
theorem tokenize_concat {keywords : List Keyword} {kind : TokenKind} {source : String}
    (read : tokenize first keywords = .ok front)
    (read' : tokenize second keywords = .ok [⟨kind, 0, source⟩])
    (apart : ∀ last ∈ front.getLast?, last.kind.Distinct kind) :
    ∃ t : Token, tokenize (first ++ second) keywords = .ok (front ++ [t]) ∧ t.kind = kind := by
  refine ⟨_, (tokenize_append_iff read read').mpr fun last final next head => ?_, rfl⟩
  cases head
  exact apart last final

theorem TokenKind.distinct_space {kind : TokenKind} (content : kind ≠ .space) :
    kind.Distinct .space ∧ Distinct .space kind := by
  simp [Distinct, isWord, content]

/-- A word between blanks keeps the tokens on both sides of it apart. -/
theorem tokenize_compound (read : tokenize first Keyword.ofTables = .ok front)
    (read' : tokenize second Keyword.ofTables = .ok back) (joins : Token.Joinable front back)
    (chars : Lexeme.isWordText word = true)
    (plain : ∀ keyword ∈ Keyword.ofTables, keyword.text.toLower ≠ word.toLower) :
    ∃ blank name behind : Token, ∃ offset,
      tokenize (first ++ " " ++ word ++ " " ++ second) Keyword.ofTables =
        .ok (front ++ ([blank, name, behind] ++ back.map (Token.shift offset))) ∧
      blank.kind = .space ∧ name.kind = .word ∧ behind.kind = .space := by
  have space : tokenize " " Keyword.ofTables = .ok [⟨.space, 0, " "⟩] := by
    apply eq_ok_of_toOption
    decide +kernel
  obtain ⟨blank, one, isBlank⟩ := tokenize_concat read space fun last final => by
    have ends := joins.trimmedFront.closes last.kind (by rw [List.getLast?_map, final]; rfl)
    exact (TokenKind.distinct_space ends.1).1
  obtain ⟨name, two, isName⟩ := tokenize_concat one (tokenize_word chars plain)
    fun last final => by
      rw [List.getLast?_concat] at final
      cases final
      exact isBlank ▸ (TokenKind.distinct_space (by decide)).2
  obtain ⟨behind, three, isBehind⟩ := tokenize_concat two space fun last final => by
    rw [List.getLast?_concat] at final
    cases final
    exact isName ▸ (TokenKind.distinct_space (by decide)).1
  have whole := (tokenize_append_iff three read').mpr fun last final next head => by
    rw [List.getLast?_concat] at final
    cases final
    have begins := joins.trimmedBack.opens next.kind (by rw [List.head?_map, head]; rfl)
    exact isBehind ▸ (TokenKind.distinct_space begins).2
  rw [List.append_assoc, List.append_assoc, List.append_assoc] at whole
  exact ⟨blank, name, behind, _, whole, isBlank, isName, isBehind⟩

variable {names others : List String}

/-- The tables of a query that there is nothing to trim of. -/
theorem tablesOfText_eq_ok_iff (read : tokenize first Keyword.ofTables = .ok front)
    (trimmed : TokenKind.Trimmed (front.map Token.kind))
    (query : front.findSome? Token.keyword? = some .SELECT) :
    tablesOfText first = .ok names ↔ ∃ items, Item.Grouped front items ∧
      (queryTables (Item.readings items)).eraseDups = names := by
  have walk : tablesOfText first = tables front := by
    rw [tablesOfText, read]
    rfl
  rw [walk, tables, Token.trim_of_trimmed trimmed, bind_eq_ok_iff,
    Token.keyword?_firstKeyword?, query]
  simp only [Item.group_eq_ok_iff, pure, Except.pure, Except.ok.injEq]
  rfl

/-- What the last token of a query is decides what its last reading is. -/
theorem final_readings (joins : Token.Joinable front back) {items : List Item}
    (grouped : Item.Grouped front items) :
    ∀ reading ∈ (Item.readings items).getLast?, reading.Final := by
  intro reading last
  rw [Item.readings_eq_map, List.getLast?_map, grouped.ends.2, Option.map_map] at last
  obtain ⟨t, final, rfl⟩ := Option.map_eq_some_iff.mp last
  obtain ⟨noFrom, noJoin, noComma⟩ := joins.ends t final
  have noSpace := (joins.trimmedFront.closes t.kind (by rw [List.getLast?_map, final]; rfl)).1
  constructor <;>
    simp [Reading.isKeyword, separatesEntries, Item.isKeyword, Token.isKeyword, Item.isKind,
      Item.isSpace, noFrom, noJoin, noComma, noSpace]

theorem plain_reading {t : Token} (kind : t.kind = .space ∨ t.kind = .word) :
    (⟨.token t, (Item.token t).tables⟩ : Reading).Plain := by
  rcases kind with kind | kind <;> constructor <;>
    simp [Reading.isKeyword, Item.isKeyword, Token.isKeyword, Item.isKind, Item.tables, kind]

/-- The walk through a compound query finds what it finds in the one query and then what it finds
    in the other one. -/
theorem queryTables_join (joins : Token.Joinable front back) {items more : List Item}
    (grouped : Item.Grouped front items) (grouped' : Item.Grouped back more)
    {blank name behind : Token} (isBlank : blank.kind = .space) (isName : name.kind = .word)
    (isBehind : behind.kind = .space) (offset : Nat) :
    queryTables (Item.readings (items ++ ([.token blank, .token name, .token behind] ++
        more.map (Item.shift offset)))) =
      queryTables (Item.readings items) ++ queryTables (Item.readings more) := by
  have moved : Item.readings (more.map (Item.shift offset)) =
      (Item.readings more).map (Reading.shift offset) := by
    rw [← Item.shiftAll_eq_map, Item.readings_shiftAll]
  have begins : ∀ reading ∈ ((Item.readings more).map (Reading.shift offset)).head?,
      reading.isKeyword .SELECT = true := by
    intro reading first
    obtain ⟨t, rest, rfl, select⟩ := joins.exists_back
    rw [List.head?_map, Item.readings_eq_map, List.head?_map, grouped'.ends.1] at first
    cases first
    simp [Reading.isKeyword, Item.isKeyword, Token.isKeyword, select]
  have nonempty : Item.readings items ≠ [] := by
    intro none
    have noLast := grouped.ends.2
    rw [Item.readings_eq_map, List.map_eq_nil_iff] at none
    rw [none] at noLast
    have noToken := List.getLast?_eq_none_iff.mp (Option.map_eq_none_iff.mp noLast.symm)
    exact joins.nonempty noToken
  have plain : ∀ reading ∈ Item.readings [.token blank, .token name, .token behind],
      reading.Plain := by
    simp only [Item.readings, List.forall_mem_cons, List.not_mem_nil, false_imp_iff, implies_true,
      and_true]
    exact ⟨plain_reading (.inl isBlank), plain_reading (.inr isName),
      plain_reading (.inl isBehind)⟩
  rw [← List.append_assoc, Item.readings_append, Item.readings_append, moved,
    queryTables_compound begins, queryTables_map_shift,
    queryTables_append plain isBlank rfl nonempty (final_readings joins grouped)]

/-- The tables of a compound query are those of the one query and then those of the other one that
    are new, whatever word stands between them. -/
theorem tablesOfText_compound (read : tokenize first Keyword.ofTables = .ok front)
    (read' : tokenize second Keyword.ofTables = .ok back) (joins : Token.Joinable front back)
    (chars : Lexeme.isWordText word = true)
    (plain : ∀ keyword ∈ Keyword.ofTables, keyword.text.toLower ≠ word.toLower)
    (found : tablesOfText first = .ok names) (found' : tablesOfText second = .ok others) :
    tablesOfText (first ++ " " ++ word ++ " " ++ second) =
      .ok (names ++ others.filter (· ∉ names)) := by
  obtain ⟨items, grouped, rfl⟩ :=
    (tablesOfText_eq_ok_iff read joins.trimmedFront joins.query).mp found
  obtain ⟨more, grouped', rfl⟩ :=
    (tablesOfText_eq_ok_iff read' joins.trimmedBack joins.query_back).mp found'
  obtain ⟨blank, name, behind, offset, whole, isBlank, isName, isBehind⟩ :=
    tokenize_compound read read' joins chars plain
  have padding : Item.Grouped [blank, name, behind]
      [.token blank, .token name, .token behind] :=
    .token (by simp [isBlank]) (by simp [isBlank]) (.token (by simp [isName]) (by simp [isName])
      (.token (by simp [isBehind]) (by simp [isBehind]) .nil))
  have trimmed : TokenKind.Trimmed ((front ++ ([blank, name, behind] ++
      back.map (Token.shift offset))).map Token.kind) := by
    rw [List.map_append]
    refine joins.trimmedFront.append (by simpa using joins.nonempty) fun kind last => ?_
    obtain ⟨t, rest, rfl, -⟩ := joins.exists_back
    rw [List.map_append, Token.map_kind_map_shift,
      List.getLast?_append_of_ne_nil _ (by simp)] at last
    exact joins.trimmedBack.closes kind last
  have query : (front ++ ([blank, name, behind] ++
      back.map (Token.shift offset))).findSome? Token.keyword? = some .SELECT := by
    rw [List.findSome?_append, joins.query, Option.some_or]
  rw [tablesOfText_eq_ok_iff whole trimmed query]
  refine ⟨_, grouped.append (padding.append (grouped'.shift offset)), ?_⟩
  rw [queryTables_join joins grouped grouped' isBlank isName isBehind, eraseDups_append]

/-- One query of the second part reads a table that the first part has read already. -/
theorem tablesOfText_compound_of_nested :
    let first := "(select a from t) union all select b from u, p.q"
    let second := "select c from q.r join (select d from t) x"
    tablesOfText first = .ok ["t", "u", "p.q"] ∧ tablesOfText second = .ok ["q.r", "t"] ∧
      tablesOfText (first ++ " " ++ "EXCEPT" ++ " " ++ second) = .ok ["t", "u", "p.q", "q.r"] := by
  intro first second
  have found : tablesOfText first = .ok ["t", "u", "p.q"] := by
    apply eq_ok_of_toOption
    decide +kernel
  have found' : tablesOfText second = .ok ["q.r", "t"] := by
    apply eq_ok_of_toOption
    decide +kernel
  have passed : ((tokenize first Keyword.ofTables).toOption.any fun front =>
      (tokenize second Keyword.ofTables).toOption.any fun back =>
        decide (Token.Joinable front back)) = true := by
    decide +kernel
  obtain ⟨front, read, passed⟩ := exists_ok_of_any passed
  obtain ⟨back, read', joins⟩ := exists_ok_of_any passed
  exact ⟨found, found', tablesOfText_compound read read' (of_decide_eq_true joins) (by decide)
    (by decide +kernel) found found'⟩

end Compound

end DynamicSql.Sql
