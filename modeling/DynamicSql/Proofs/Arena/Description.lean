import DynamicSql.Proofs.Arena.Bodies
import DynamicSql.Proofs.Arena.Writing
import Mathlib.Data.List.Pairwise

/-!
# The entries of a template describe its nodes

A template is written call by call into a list of entries that refer to each other by
number, and it is built from that list. Nothing is lost or added by this: the entries
stand in the order of writing, each has its one place, and from the outermost numbers
the nodes can be read back. What an entry says about the tags around it, a tag about
the one that it stands in and a text about iterations, is so.
-/

namespace DynamicSql

open Relation

namespace Entry

/-- A list of entries, of which the numbers of the outermost ones are given, describes
    nodes. -/
structure Describes (entries : List Entry) (roots : List Nat) (nodes : List Node) : Prop where
  /-- The number of an entry is its place. -/
  numbered : entries.map Entry.id = List.range entries.length
  /-- The entries stand in the order of writing. -/
  written : entries.map Entry.content = Node.contentsAll nodes
  /-- The nodes and nothing else can be read back. -/
  read : ∀ others, ReadsAll entries roots others ↔ others = nodes
  /-- An entry is an outermost one, or it stands once in the body of one tag, which has
      a smaller number. -/
  placed : ∀ id < entries.length,
    (roots.count id = 1 ∧ ∀ outer, ¬ Encloses entries outer id) ∨
    (id ∉ roots ∧ ∃ outer < id, ∃ t parent children,
      entries[outer]? = some (.tag outer t parent children) ∧ children.count id = 1 ∧
      ∀ other, Encloses entries other id → other = outer)
  /-- A tag knows the tag that it stands in. -/
  parents : ∀ id t parent children, entries[id]? = some (.tag id t parent children) →
    (∀ outer, parent = some outer ↔ Encloses entries outer id) ∧ (parent = none ↔ id ∈ roots)
  /-- A text waits if some tag around it is an iteration, however far out. -/
  waits : ∀ id part, entries[id]? = some (.text id part) →
    (part.inIteration = true ↔
      ∃ outer, TransGen (Encloses entries) outer id ∧ Iterates entries outer)

/-- What an entry says about the tags around it is so: a text says whether one of them is an
    iteration, and a tag which one it stands in. -/
def Faithful (entries : List Entry) : Entry → Prop
  | text id part => part.inIteration = true ↔
      ∃ outer, TransGen (Encloses entries) outer id ∧ Iterates entries outer
  | tag id _ parent _ => ∀ outer, parent = some outer ↔ Encloses entries outer id

section Numbered

variable {entries : List Entry}

theorem id_of_getElem? (numbered : entries.map Entry.id = List.range entries.length)
    {place : Nat} {entry : Entry} (found : entries[place]? = some entry) : entry.id = place := by
  obtain ⟨inside, rfl⟩ := List.getElem?_eq_some_iff.mp found
  have id : (entries.map Entry.id)[place]? = some place := by
    rw [numbered, List.getElem?_range inside]
  rw [List.getElem?_map, found] at id
  exact Option.some.inj id

/-- An entry stands at its number. -/
theorem getElem?_id (numbered : entries.map Entry.id = List.range entries.length) {entry : Entry}
    (member : entry ∈ entries) : entries[entry.id]? = some entry := by
  obtain ⟨place, found⟩ := List.mem_iff_getElem?.mp member
  rw [id_of_getElem? numbered found, found]

/-- What encloses is an entry. -/
theorem encloses_iff (numbered : entries.map Entry.id = List.range entries.length)
    {outer id : Nat} :
    Encloses entries outer id ↔ ∃ entry ∈ entries, entry.id = outer ∧ id ∈ entry.children := by
  constructor
  · rintro ⟨entry, found, inBody⟩
    exact ⟨entry, List.mem_of_getElem? found, id_of_getElem? numbered found, inBody⟩
  · rintro ⟨entry, member, rfl, inBody⟩
    exact ⟨entry, getElem?_id numbered member, inBody⟩

end Numbered

/-- Every number stands once, among the outermost ones or in a body. -/
structure Sorted (entries : List Entry) (roots : List Nat) : Prop where
  numbered : entries.map Entry.id = List.range entries.length
  once : (roots ++ entries.flatMap Entry.children).Perm (List.range entries.length)

namespace Sorted

variable {entries : List Entry} {roots : List Nat}

theorem nodup (sorted : Sorted entries roots) :
    (roots ++ entries.flatMap Entry.children).Nodup :=
  sorted.once.nodup_iff.mpr List.nodup_range

/-- The outermost entries are enclosed by none. -/
theorem not_encloses (sorted : Sorted entries roots) {id : Nat} (isRoot : id ∈ roots)
    (outer : Nat) : ¬ Encloses entries outer id := by
  rintro ⟨entry, found, inBody⟩
  have inSome : id ∈ entries.flatMap Entry.children :=
    List.mem_flatMap.mpr ⟨entry, List.mem_of_getElem? found, inBody⟩
  exact (List.nodup_append.mp sorted.nodup).2.2 id isRoot id inSome rfl

/-- An entry stands in one body. -/
theorem encloses_unique (sorted : Sorted entries roots) {outer other id : Nat}
    (encloses : Encloses entries outer id) (encloses' : Encloses entries other id) :
    other = outer := by
  obtain ⟨entry, member, rfl, inBody⟩ := (encloses_iff sorted.numbered).mp encloses
  obtain ⟨entry', member', rfl, inBody'⟩ := (encloses_iff sorted.numbered).mp encloses'
  have apart := (List.nodup_flatMap.mp (List.nodup_append.mp sorted.nodup).2.1).2
  by_contra differ
  have distinct : entry ≠ entry' := by
    rintro rfl
    exact differ rfl
  have symmetric : Std.Symm (Function.onFun List.Disjoint Entry.children) :=
    ⟨fun _ _ apart _ inOne inOther => apart inOther inOne⟩
  exact apart.forall member member' distinct inBody inBody'

/-- An entry stands among the outermost ones or in the body of a tag. -/
theorem placed (sorted : Sorted entries roots)
    (smaller : ∀ entry ∈ entries, ∀ c ∈ entry.children, entry.id < c) {id : Nat}
    (inside : id < entries.length) :
    (roots.count id = 1 ∧ ∀ outer, ¬ Encloses entries outer id) ∨
    (id ∉ roots ∧ ∃ outer < id, ∃ t parent children,
      entries[outer]? = some (.tag outer t parent children) ∧ children.count id = 1 ∧
      ∀ other, Encloses entries other id → other = outer) := by
  obtain ⟨nodupRoots, nodupBodies, apart⟩ := List.nodup_append.mp sorted.nodup
  rcases List.mem_append.mp (sorted.once.mem_iff.mpr (List.mem_range.mpr inside)) with
    isRoot | inSome
  · exact .inl ⟨List.count_eq_one_of_mem nodupRoots isRoot, sorted.not_encloses isRoot⟩
  · obtain ⟨entry, member, inBody⟩ := List.mem_flatMap.mp inSome
    have found := getElem?_id sorted.numbered member
    have once : entry.children.count id = 1 :=
      List.count_eq_one_of_mem ((List.nodup_flatMap.mp nodupBodies).1 entry member) inBody
    refine .inr ⟨fun isRoot => apart id isRoot id inSome rfl, entry.id,
      smaller entry member id inBody, ?_⟩
    cases entry with
    | text textId part => cases inBody
    | tag tagId t parent children =>
      exact ⟨t, parent, children, found, once, fun other encloses =>
        sorted.encloses_unique ⟨_, found, inBody⟩ encloses⟩

/-- The outermost entries are those that nothing encloses. -/
theorem eq_none_iff (sorted : Sorted entries roots)
    (smaller : ∀ entry ∈ entries, ∀ c ∈ entry.children, entry.id < c) {id : Nat}
    (inside : id < entries.length) {parent : Option Nat}
    (known : ∀ outer, parent = some outer ↔ Encloses entries outer id) :
    parent = none ↔ id ∈ roots := by
  rcases sorted.placed smaller inside with
    ⟨once, free⟩ | ⟨notRoot, outer, _, _, _, _, found, once, _⟩
  · refine iff_of_true ?_ (List.count_pos_iff.mp (by omega))
    cases parent with
    | none => rfl
    | some outer => exact absurd ((known outer).mp rfl) (free outer)
  · have encloses : Encloses entries outer id :=
      ⟨_, found, List.count_pos_iff.mp (Nat.lt_of_lt_of_eq Nat.one_pos once.symm)⟩
    refine iff_of_false ?_ notRoot
    rw [(known outer).mpr encloses]
    exact nofun

end Sorted

end Entry

namespace Node

open Entry

section Faithful

variable {ready : Bool → String → Option Fragment} {entries : List Entry}

/-- The place is in an entry that is an iteration or stands in one. -/
def WithinIteration (entries : List Entry) (place : Option Nat) : Prop :=
  ∃ inner, place = some inner ∧
    ∃ outer, ReflTransGen (Encloses entries) outer inner ∧ Iterates entries outer

/-- What stands at a place stands in the iterations that the place is within. -/
theorem withinIteration_iff {parent : Option Nat} {id : Nat}
    (encloses : ∀ outer, Encloses entries outer id ↔ parent = some outer) :
    WithinIteration entries parent ↔
      ∃ outer, TransGen (Encloses entries) outer id ∧ Iterates entries outer := by
  constructor
  · rintro ⟨inner, place, outer, around, iterates⟩
    exact ⟨outer, TransGen.tail' around ((encloses inner).mpr place), iterates⟩
  · rintro ⟨outer, around, iterates⟩
    obtain ⟨inner, around, last⟩ := TransGen.tail'_iff.mp around
    exact ⟨inner, (encloses inner).mp last, outer, around, iterates⟩

/-- The body of a tag is within an iteration if the tag stands in one or is one. -/
theorem withinIteration_body {parent : Option Nat} {id : Nat}
    (encloses : ∀ outer, Encloses entries outer id ↔ parent = some outer) :
    WithinIteration entries (some id) ↔ WithinIteration entries parent ∨ Iterates entries id := by
  rw [withinIteration_iff encloses]
  constructor
  · rintro ⟨_, ⟨⟩, outer, around, iterates⟩
    rcases reflTransGen_iff_eq_or_transGen.mp around with rfl | around
    · exact .inr iterates
    · exact .inl ⟨outer, around, iterates⟩
  · rintro (⟨outer, around, iterates⟩ | iterates)
    · exact ⟨id, rfl, outer, around.to_reflTransGen, iterates⟩
    · exact ⟨id, rfl, id, .refl, iterates⟩

mutual

/-- The entries of a node below a tag are faithful if the tag is the one that encloses the
    node and it is known whether it stands in an iteration or is one. -/
theorem faithful_entries
    (unique : ∀ {outer other id}, Encloses entries outer id → Encloses entries other id →
      other = outer)
    (parent : Option Nat) (inIteration : Bool) (id : Nat) :
    ∀ node : Node,
      (∀ entry ∈ (node.number ready inIteration id).entries parent,
        entries[entry.id]? = some entry) →
      (∀ outer, Encloses entries outer id ↔ parent = some outer) →
      (inIteration = true ↔ WithinIteration entries parent) →
      ∀ entry ∈ (node.number ready inIteration id).entries parent, entry.Faithful entries
  | .text source => by
    intro found encloses iteration entry member
    rw [number, Part.entries, List.mem_singleton] at member
    subst member
    exact iteration.trans (withinIteration_iff encloses)
  | .tag t body => by
    intro found encloses iteration entry member
    rw [number, Part.entries, map_id_numberAll] at member found
    have here : entries[id]? = some (.tag id t parent (numbers (id + 1) body)) :=
      found _ List.mem_cons_self
    rcases List.mem_cons.mp member with rfl | inside
    · exact fun outer => (encloses outer).symm
    -- In the body the tag itself is what encloses, and one more tag may be an iteration.
    · refine faithful_entriesOf unique (some id) _ (id + 1) body
        (fun entry inside => found entry (List.mem_cons_of_mem _ inside)) ?_ ?_ entry inside
      · intro c inBody outer
        constructor
        · intro encloses'
          rw [unique ⟨_, here, inBody⟩ encloses']
        · intro same
          cases same
          exact ⟨_, here, inBody⟩
      · have iterates : Iterates entries id ↔ (t.handler == .iterate) = true := by
          rw [Iterates, here]
          rfl
        rw [withinIteration_body encloses, iterates, Bool.or_eq_true, iteration]

theorem faithful_entriesOf
    (unique : ∀ {outer other id}, Encloses entries outer id → Encloses entries other id →
      other = outer)
    (parent : Option Nat) (inIteration : Bool) (id : Nat) :
    ∀ nodes : List Node,
      (∀ entry ∈ Part.entriesOf parent (numberAll ready inIteration id nodes),
        entries[entry.id]? = some entry) →
      (∀ c ∈ numbers id nodes, ∀ outer, Encloses entries outer c ↔ parent = some outer) →
      (inIteration = true ↔ WithinIteration entries parent) →
      ∀ entry ∈ Part.entriesOf parent (numberAll ready inIteration id nodes),
        entry.Faithful entries
  | [] => by
    intro _ _ _ entry member
    cases member
  | node :: rest => by
    intro found encloses iteration entry member
    rw [numberAll, Part.entriesOf] at found member
    rcases List.mem_append.mp member with first | behind
    · exact faithful_entries unique parent inIteration id node
        (fun entry first => found entry (List.mem_append_left _ first))
        (encloses id List.mem_cons_self) iteration entry first
    · exact faithful_entriesOf unique parent inIteration _ rest
        (fun entry behind => found entry (List.mem_append_right _ behind))
        (fun c later => encloses c (List.mem_cons_of_mem _ later)) iteration entry behind

end

end Faithful

/-- The entries of numbered nodes describe them, whatever is known of the texts. -/
theorem describes_numberAll (ready : Bool → String → Option Fragment) (nodes : List Node) :
    Describes (Part.entriesOf none (numberAll ready false 0 nodes)) (numbers 0 nodes) nodes := by
  generalize listed : Part.entriesOf none (numberAll ready false 0 nodes) = entries
  have ids : entries.map Entry.id = List.range' 0 (sizes nodes) := by
    rw [← listed, map_id_entriesOf]
  have length : entries.length = sizes nodes := by
    rw [← List.length_map Entry.id, ids, List.length_range']
  have numbered : entries.map Entry.id = List.range entries.length := by
    rw [ids, length, List.range_eq_range']
  have sorted : Sorted entries (numbers 0 nodes) := by
    refine ⟨numbered, ?_⟩
    rw [length, List.range_eq_range', ← listed]
    exact perm_children_entriesOf ready none false 0 nodes
  have found : ∀ entry ∈ Part.entriesOf none (numberAll ready false 0 nodes),
      entries[entry.id]? = some entry := by
    rw [listed]
    exact fun entry member => getElem?_id numbered member
  have smaller := lt_children_entriesOf ready none false 0 nodes
  have readBack := readsAll_numberAll ready none false 0 nodes found
  have faithful := faithful_entriesOf sorted.encloses_unique none false 0 nodes found
    (fun c isRoot outer => iff_of_false (sorted.not_encloses isRoot outer) nofun)
    (iff_of_false Bool.false_ne_true fun ⟨_, noPlace, _⟩ => nomatch noPlace)
  rw [listed] at smaller faithful
  refine ⟨numbered, ?_, fun others => ⟨readBack.unique, ?_⟩, fun id inside =>
    sorted.placed smaller inside, ?_, ?_⟩
  · rw [← listed, map_content_entriesOf]
  · rintro rfl
    exact readBack
  · intro id t parent children here
    have known : ∀ outer, parent = some outer ↔ Encloses entries outer id :=
      faithful _ (List.mem_of_getElem? here)
    exact ⟨known, sorted.eq_none_iff smaller (List.getElem?_eq_some_iff.mp here).1 known⟩
  · intro id part here
    exact faithful _ (List.mem_of_getElem? here)

end Node

namespace Draft

/-- The arena that a template is written into describes the nodes that were written.
    Building the template prepares its entries one after the other, and the built
    template describes the same nodes. -/
theorem arena_describes (draft : Draft) (converters : Converters) :
    Entry.Describes draft.arena.entries draft.arena.roots draft.nodes ∧
    draft.arena.build draft.cls converters = Template.outline <$> draft.build converters ∧
    ∀ template, draft.build converters = .ok template →
      template.roots = draft.arena.roots ∧
      Entry.Describes template.outline template.roots draft.nodes := by
  rw [arena_eq]
  refine ⟨Node.describes_numberAll Node.unread draft.nodes, ?_, fun template built => ?_⟩
  · rw [Arena.build, Node.mapM_prepare_entriesOf, build]
    cases Node.buildAll draft.cls converters false 0 draft.nodes <;> rfl
  · obtain ⟨parts, builtParts, last⟩ := bind_eq_ok_iff.mp built
    cases last
    rw [Template.outline, Template.roots, Node.eq_numberAll_of_buildAll _ builtParts,
      Node.map_id_numberAll]
    exact ⟨rfl, Node.describes_numberAll _ draft.nodes⟩

/-- A text in a condition in an iteration in a group. -/
theorem arena_describes_nested :
    ∃ template,
      Draft.build
        { id := "q"
          nodes := [.text "a", .tag .dynamic [.tag (.iterate "xs")
            [.tag (.conditional .isNotNull "xs[]") [.text "#xs[]#"]], .text "b"]] }
        ({} : Registry) = .ok template ∧
      template.roots = [0, 1] ∧
      ∃ outer, TransGen (Entry.Encloses template.outline) outer 4 ∧
        Entry.Iterates template.outline outer := by
  let draft : Draft :=
    { id := "q"
      nodes := [.text "a", .tag .dynamic [.tag (.iterate "xs")
        [.tag (.conditional .isNotNull "xs[]") [.text "#xs[]#"]], .text "b"]] }
  obtain ⟨-, -, describes⟩ := arena_describes draft ({} : Registry)
  obtain ⟨roots, described⟩ := describes _ rfl
  exact ⟨_, rfl, roots, (described.waits 4 ⟨"#xs[]#", true, none⟩ rfl).mp rfl⟩

end Draft

end DynamicSql
