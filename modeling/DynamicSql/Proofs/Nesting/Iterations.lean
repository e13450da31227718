import DynamicSql.Proofs.Iteration.Passes
import DynamicSql.Proofs.Nesting.Filling
import DynamicSql.Template.Execution

/-!
# Nested iterations

A template with an iteration in an iteration, each through an array of the items
of the one around it, and in the innermost one a placeholder for its items. It
should bind the innermost items of a parameter in the order in which they stand.
-/

namespace DynamicSql

namespace Segment

/-- Segments with an empty index each. -/
def blanks (names : List String) : List Segment := names.map (⟨·, .blank⟩)

/-- Segments with an index each. -/
def items (places : List (String × Nat)) : List Segment :=
  places.map fun place => ⟨place.1, .item place.2⟩

theorem words_blanks {names : List String} (words : ∀ name ∈ names, Text.Word name) :
    ∀ segment ∈ blanks names, Text.Word segment.name := by
  intro segment member
  obtain ⟨name, among, rfl⟩ := List.mem_map.mp member
  exact words name among

theorem words_items {places : List (String × Nat)}
    (words : ∀ name ∈ places.map Prod.fst, Text.Word name) :
    ∀ segment ∈ items places, Text.Word segment.name := by
  intro segment member
  obtain ⟨place, among, rfl⟩ := List.mem_map.mp member
  exact words place.1 (List.mem_map_of_mem among)

end Segment

namespace Nest

/-- The path to the array of a field, in the items of the arrays around it. -/
def arrayPath (outer : List String) (name : String) : String :=
  String.ofList (Segment.spell (Segment.blanks outer ++ [⟨name, .bare⟩]))

/-- The placeholder for the items of the innermost array. -/
def placeholder (names : List String) : String :=
  String.ofList ('#' :: (Segment.spell (Segment.blanks names) ++ ['#']))

/-- The iterations through the arrays of some fields, inside those through others. -/
def nodes (outer : List String) : List String → List Node
  | [] => [.text (placeholder outer)]
  | name :: rest => [.tag (Tag.iterate (arrayPath outer name)) (nodes (outer ++ [name]) rest)]

/-- The same, built: the tags are numbered from the outermost one on. -/
def parts (id : Nat) (outer : List String) : List String → List Part
  | [] => [.text id ⟨placeholder outer, true, none⟩]
  | name :: rest =>
    [.tag id (Tag.iterate (arrayPath outer name)) (parts (id + 1) (outer ++ [name]) rest)]

theorem buildAll_nodes {cls : ParameterClass} {converters : Converters} {names : List String}
    {outer : List String} {inIteration : Bool} {id : Nat}
    (waits : inIteration = true ∨ names ≠ []) :
    Node.buildAll cls converters inIteration id (nodes outer names) =
      .ok (parts id outer names) := by
  induction names generalizing outer inIteration id with
  | nil =>
    have inside : inIteration = true := by simpa using waits
    subst inside
    rfl
  | cons name rest ih =>
    have body : Node.buildAll cls converters true (id + 1) (nodes (outer ++ [name]) rest) =
        .ok (parts (id + 1) (outer ++ [name]) rest) := ih (.inl rfl)
    have iterates : (inIteration || (Tag.iterate (arrayPath outer name)).handler == .iterate) =
        true := by simp [Tag.iterate]
    simp only [nodes, Node.buildAll, Node.build, iterates, body]
    rfl

/-- A template of iterations through nested arrays. -/
def draft (id : String) (cls : ParameterClass) (names : List String) : Draft :=
  { id, cls, nodes := nodes [] names }

theorem build_draft (id : String) (cls : ParameterClass) (converters : Converters)
    {names : List String} (some : names ≠ []) :
    (draft id cls names).build converters = .ok ⟨id, cls, parts 0 [] names⟩ := by
  rw [Draft.build, draft, buildAll_nodes (.inr some)]
  rfl

/-- The address of an item, by the fields of the arrays and the index in each. -/
def address (places : List (String × Nat)) : String :=
  String.ofList (Segment.spell (Segment.items places))

/-- There is a converter for what is at any address of some fields. -/
def Answered (cls : ParameterClass) (converters : Converters) (names : List String) : Prop :=
  ∀ places, places.map Prod.fst = names →
    ∃ converter, Declaration.converter { property := address places } cls converters =
      .ok converter

/-- A registry has a converter for every address, unless the properties are declared. -/
theorem answered_of_registry {cls : ParameterClass} (undeclared : ∀ probe, cls ≠ .record probe)
    (registry : Registry) (names : List String) : Answered cls registry names := by
  intro places _
  cases cls with
  | unknown => exact ⟨_, rfl⟩
  | map => exact ⟨_, rfl⟩
  | scalar kind => exact ⟨_, rfl⟩
  | record probe => exact absurd rfl (undeclared probe)

end Nest

namespace Value

/-- The value is an object with an array in the first field, each item of it is one with
    an array in the second field, and so on. An index is a number of sixty-four bits. -/
def HasArrays : List String → Value → Prop
  | [], _ => True
  | name :: rest, value =>
    ∃ fields items, value = .object fields ∧ fields.lookup name = some (.array items) ∧
      items.length ≤ UInt64.size ∧ ∀ item ∈ items, HasArrays rest item

/-- The items of the innermost arrays with their indexes, in the order of the indexes. -/
def leaves : List String → Value → List (List Nat × Value)
  | [], value => [([], value)]
  | name :: rest, value =>
    match value.step? (.field name) with
    | some (.array items) =>
      items.zipIdx.flatMap fun (item, index) =>
        (leaves rest item).map fun (indexes, leaf) => (index :: indexes, leaf)
    | _ => []

end Value

/-- The first field does not recur. -/
def Nest.FirstOnce : List String → Prop
  | [] => True
  | first :: rest => first ∉ rest

instance Nest.decidableFirstOnce : (names : List String) → Decidable (FirstOnce names)
  | [] => inferInstanceAs (Decidable True)
  | first :: rest => inferInstanceAs (Decidable (first ∉ rest))

theorem Nest.FirstOnce.of_append {names others : List String}
    (once : FirstOnce (names ++ others)) : FirstOnce names := by
  cases names with
  | nil => trivial
  | cons first rest => exact fun recurs => once (List.mem_append_left _ recurs)

/-- The loops around a place in nested iterations, the innermost one first: each goes
    through the array of a field in the item that the ones around it have reached. -/
inductive Addressing : List Loop → List (String × Nat) → Prop
  | outside : Addressing [] []
  | inside {loop : Loop} {outer : List Loop} {places : List (String × Nat)} {name : String}
      {index : Nat} (around : Addressing outer places)
      (array : loop.property =
        String.ofList (Segment.spell (Segment.items places ++ [⟨name, .bare⟩])))
      (reached : loop.index = some index) :
      Addressing (loop :: outer) (places ++ [(name, index)])

namespace Addressing

/-- If the first field does not recur, the loops fill in just the segments of their own
    arrays. -/
theorem qualify {loops : List Loop} {places : List (String × Nat)}
    (addressing : Addressing loops places) {inner : List Segment}
    (once : Nest.FirstOnce (places.map Prod.fst ++ inner.map Segment.name))
    (words : ∀ name ∈ places.map Prod.fst ++ inner.map Segment.name, Text.Word name)
    (unfilled : ∀ segment ∈ inner, ∀ index, segment.place ≠ .item index) :
    loops.foldr Loop.qualify
        (Segment.spell (Segment.blanks (places.map Prod.fst) ++ inner)) =
      Segment.spell (Segment.items places ++ inner) := by
  induction addressing generalizing inner with
  | outside => rfl
  | @inside loop outer places name index _ array reached ih =>
    have names : (places ++ [(name, index)]).map Prod.fst ++ inner.map Segment.name =
        places.map Prod.fst ++ (⟨name, .blank⟩ :: inner).map Segment.name := by simp
    rw [names] at once words
    have innerWords : ∀ segment ∈ inner, Text.Word segment.name := by
      intro segment member
      exact words _ (List.mem_append_right _
        (List.mem_cons_of_mem _ (List.mem_map_of_mem member)))
    have unfilled' : ∀ segment ∈ (⟨name, .blank⟩ : Segment) :: inner,
        ∀ index, segment.place ≠ .item index :=
      List.forall_mem_cons.mpr ⟨by simp, unfilled⟩
    have before : Segment.blanks ((places ++ [(name, index)]).map Prod.fst) ++ inner =
        Segment.blanks (places.map Prod.fst) ++ ⟨name, .blank⟩ :: inner := by
      simp [Segment.blanks]
    rw [before, List.foldr_cons, ih once words unfilled']
    cases places with
    | nil =>
      have word : Text.Word name := words name (by simp)
      have field : loop.property = name := by
        rw [array]
        simp [Segment.items, Segment.spell, Segment.chars, Segment.spellRest, Place.chars]
      have others : inner.map (Segment.fill name index) = inner := by
        refine (List.map_congr_left fun segment member => ?_).trans (List.map_id inner)
        refine Segment.fill_of_name_ne (fun same => ?_) index
        have among : segment.name ∈ inner.map Segment.name := List.mem_map_of_mem member
        rw [same] at among
        exact once among
      have all : ∀ segment ∈ (⟨name, .blank⟩ : Segment) :: inner, Text.Word segment.name :=
        List.forall_mem_cons.mpr ⟨word, innerWords⟩
      show loop.qualify (Segment.spell (⟨name, .blank⟩ :: inner)) = _
      rw [Loop.qualify_field word field reached all, List.map_cons, others, Segment.fill,
        if_pos rfl]
      rfl
    | cons place places =>
      have filled := Loop.qualify_behind array reached innerWords unfilled
      simpa [Segment.items] using filled

theorem qualify_all {loops : List Loop} {places : List (String × Nat)}
    (addressing : Addressing loops places)
    (once : Nest.FirstOnce (places.map Prod.fst))
    (words : ∀ name ∈ places.map Prod.fst, Text.Word name) :
    loops.foldr Loop.qualify (Segment.spell (Segment.blanks (places.map Prod.fst))) =
      Segment.spell (Segment.items places) := by
  rw [← List.append_nil (Segment.blanks _), ← List.append_nil (Segment.items _)]
  exact addressing.qualify (by simpa using once) (by simpa using words) (by simp)

end Addressing

end DynamicSql
