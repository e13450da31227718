import DynamicSql.Proofs.Iteration.Splicing
import DynamicSql.Proofs.Nesting.Binding
import DynamicSql.Proofs.Nesting.Persistence

/-!
# A field that recurs

The outermost loop fills in its own index at every segment of its field, before
the loops further in can. So if the first field recurs, no binding has different
indexes at the two places, and the items that need different ones are never bound:
nested iterations bind the innermost items just if the first field does not recur.
-/

namespace DynamicSql

open Rendering

namespace Nest

/-- The outermost loop goes through the array of a field of the parameter, and it has
    reached an item. -/
def Outermost (first : String) (loops : List Loop) : Prop :=
  ∃ inner loop index, loops = inner ++ [loop] ∧ loop.property = first ∧ loop.index = some index

theorem Outermost.cons {first : String} {loops : List Loop} (outermost : Outermost first loops)
    (loop : Loop) : Outermost first (loop :: loops) := by
  obtain ⟨inner, last, index, rfl, array, reached⟩ := outermost
  exact ⟨loop :: inner, last, index, rfl, array, reached⟩

/-- A property is an address of some fields in which all segments of the first one have the
    same index. -/
def SameIndex (first : String) (names : List String) (property : String) : Prop :=
  ∃ index segments, property = String.ofList (Segment.spell segments) ∧
    segments.map Segment.name = names ∧
    ∀ segment ∈ segments, segment.name = first → segment.place = .item index

/-- The outermost loop fills in all segments of its field, and the other loops leave them. -/
theorem sameIndex_qualify {first : String} {loops : List Loop} {names : List String}
    (outermost : Outermost first loops) (word : Text.Word first)
    (words : ∀ name ∈ names, Text.Word name) :
    SameIndex first names
      (String.ofList (loops.foldr Loop.qualify (Segment.spell (Segment.blanks names)))) := by
  obtain ⟨inner, loop, index, rfl, array, reached⟩ := outermost
  let filled := (Segment.blanks names).map (Segment.fill first index)
  have filledNames : filled.map Segment.name = names := by
    simp [filled, Segment.blanks, Function.comp_def, Segment.name_fill]
  have filledWords : ∀ segment ∈ filled, Text.Word segment.name := by
    intro segment member
    have among : segment.name ∈ filled.map Segment.name := List.mem_map_of_mem member
    rw [filledNames] at among
    exact words _ among
  have indexed : ∀ segment ∈ filled, segment.name = first → segment.place = .item index := by
    intro segment member named
    obtain ⟨blank, among, rfl⟩ := List.mem_map.mp member
    obtain ⟨name, -, rfl⟩ := List.mem_map.mp among
    rw [Segment.name_fill] at named
    cases named
    rw [Segment.fill, if_pos rfl]
  obtain ⟨after, same, kept⟩ := Loop.qualify_all_kept inner filledWords
  refine ⟨index, after, ?_, kept.map_name.trans filledNames, kept.indexed indexed⟩
  rw [List.foldr_append, List.foldr_cons, List.foldr_nil,
    Loop.qualify_field word array reached (Segment.words_blanks words), same]

/-- The address of an item with different indexes in one field is none of these. -/
theorem not_sameIndex_address {first : String} {index other : Nat} {inner : List (String × Nat)}
    (words : ∀ name ∈ first :: inner.map Prod.fst, Text.Word name)
    (recurs : (first, other) ∈ inner) (differ : index ≠ other) :
    ¬ SameIndex first (first :: inner.map Prod.fst) (address ((first, index) :: inner)) := by
  rintro ⟨filled, segments, same, names, indexed⟩
  have segmentWords : ∀ segment ∈ segments, Text.Word segment.name := by
    intro segment member
    refine words _ ?_
    rw [← names]
    exact List.mem_map_of_mem member
  have spelled := congrArg String.toList same
  rw [address, String.toList_ofList, String.toList_ofList] at spelled
  have itemWords : ∀ segment ∈ Segment.items ((first, index) :: inner),
      Text.Word segment.name := Segment.words_items words
  cases Path.spell_inj itemWords segmentWords spelled
  have here := indexed ⟨first, .item index⟩ (by simp [Segment.items]) rfl
  have there := indexed ⟨first, .item other⟩
    (List.mem_cons_of_mem _ (List.mem_map.mpr ⟨_, recurs, rfl⟩)) rfl
  exact differ (Place.item.inj (here.trans there.symm))

theorem numberedAll_parts (id : Nat) (outer names : List String) :
    Part.NumberedAll id (parts id outer names) := by
  induction names generalizing id outer with
  | nil => exact ⟨trivial, trivial⟩
  | cons name rest ih => exact ⟨⟨Nat.le_refl id, ih (id + 1) (outer ++ [name])⟩, trivial⟩

section Run

variable {occasion : Occasion} {parent : Option Tag} {id : Nat} {outer : List String}
  {fragment : Fragment} {frames after : Frames} {binding : Binding}

/-- What an iteration binds, its body binds in some pass, inside a loop through the array
    that the iteration is about. -/
theorem mem_bindings_iteration {name : String} {rest : List String}
    (words : ∀ name ∈ outer, Text.Word name) (word : Text.Word name)
    (ran : (Part.renderAll occasion parent (parts id outer (name :: rest))).run frames =
      .ok (fragment, after)) (member : binding ∈ fragment.bindings) :
    ∃ inner before middle loop,
      (Part.renderAll occasion (some (Tag.iterate (arrayPath outer name)))
        (parts (id + 1) (outer ++ [name]) rest)).run before = .ok (inner, middle) ∧
      binding ∈ inner.bindings ∧
      before.loops = loop :: frames.advance.loops ∧ loop.Pending ∧
      loop.property = String.ofList (frames.advance.qualify (arrayPath outer name).toList) := by
  have numbered := numberedAll_parts (id + 1) (outer ++ [name]) rest
  have bodyKept : KeepsFrames id (Part.renderAll occasion
      (some (Tag.iterate (arrayPath outer name))) (parts (id + 1) (outer ++ [name]) rest)) :=
    Part.keepsFrames_renderAll numbered
  obtain ⟨armed, property, items, opened, inners, closed, collected, markers, passes⟩ :=
    Part.passes_of_iteration numbered rfl (Part.renderAll_singleton_eq_ok.mp ran)
  let opening : Loop := { tag := id, size := items.length, property }
  have pending : opening.Pending := ⟨rfl, rfl⟩
  have loops : (opened.pushLoop opening).loops = opening :: opened.loops := rfl
  obtain ⟨-, -, bindings, -⟩ := passes.spliced bodyKept loops pending markers fun _ => rfl
  rw [bindings] at member
  obtain ⟨inner, among, inside⟩ := List.mem_flatMap.mp member
  obtain ⟨before, middle, loop, ranBody, -, beforeLoops, between, same⟩ :=
    passes.ran_of_mem bodyKept loops pending markers among
  have entered := Frames.loops_advance_congr
    (frames.loops_enter id ((Tag.iterate (arrayPath outer name)).marker? parent))
  rcases Occasion.subject_eq_ok.mp (Occasion.collection_eq_ok.mp collected) with
    ⟨_, found, looked⟩ | ⟨missing, -⟩
  · rw [property_arrayPath words word] at found
    cases found
    obtain ⟨rfl, path, -⟩ := Occasion.look_eq_ok.mp looked
    refine ⟨inner, before, middle, loop, ranBody, inside, ?_, between, ?_⟩
    · rw [beforeLoops, entered]
    · have array : loop.property = property := same.property
      rw [array, path, Frames.qualify, entered]
      rfl
  · rw [property_arrayPath words word] at missing
    cases missing

/-- Inside a loop through the array of the first field, a placeholder for the innermost items
    binds nothing with different indexes in that field. -/
theorem sameIndex_of_renderAll {first : String} {names : List String} (word : Text.Word first)
    (words : ∀ name ∈ outer ++ names, Text.Word name) (some : outer ++ names ≠ [])
    (outermost : Outermost first frames.advance.loops)
    (ran : (Part.renderAll occasion parent (parts id outer names)).run frames =
      .ok (fragment, after)) (member : binding ∈ fragment.bindings) :
    SameIndex first (outer ++ names) binding.property := by
  induction names generalizing outer parent id frames fragment after with
  | nil =>
    rw [List.append_nil] at words some ⊢
    have blankWords := Segment.words_blanks words
    obtain ⟨qualified, filled, kept⟩ :=
      Loop.qualify_all_kept frames.advance.loops blankWords
    have qualifiedWords := kept.words blankWords
    have nonempty : qualified ≠ [] := by
      rintro rfl
      exact some (by simpa [Segment.blanks] using kept.map_name)
    have rendered := Part.renderAll_singleton_eq_ok.mp ran
    rw [Part.render] at rendered
    rcases TextPart.render_eq_ok.mp rendered with
      ⟨ready, -⟩ | ⟨-, blank, -⟩ | ⟨-, -, -, parsed⟩
    · cases ready
    · rw [hasContent_placeholder] at blank
      cases blank
    · have placed : frames.advance.qualifyPlaceholders (placeholder outer) =
          String.ofList ('#' :: (Segment.spell qualified ++ ['#'])) := by
        rw [placeholder, Frames.qualifyPlaceholders_address _
          (Text.isAddressChar_of_mem_spell blankWords), Frames.qualify, filled]
      rw [placed] at parsed
      obtain ⟨converter, -, rfl⟩ := (Fragment.parse_address_eq_ok
        (Segment.spell_ne_nil nonempty qualifiedWords)
        (Text.isAddressChar_of_mem_spell qualifiedWords)).mp parsed
      have same := sameIndex_qualify outermost word words
      rw [filled] at same
      cases List.mem_singleton.mp member
      exact same
  | cons name rest ih =>
    obtain ⟨inner, before, middle, loop, ranBody, inside, loops, -, -⟩ :=
      mem_bindings_iteration (fun name member => words name (List.mem_append_left _ member))
        (words name (by simp)) ran member
    have around : Outermost first before.advance.loops := by
      rw [Frames.loops_advance_cons loops]
      exact outermost.cons _
    have same := ih (by simpa using words) (by simp) around ranBody inside
    simpa using same

/-- No binding of nested iterations has different indexes in the first field. -/
theorem sameIndex_of_nested {first : String} {rest : List String}
    (words : ∀ name ∈ first :: rest, Text.Word name)
    (ran : (Part.renderAll occasion parent (parts id [] (first :: rest))).run {} =
      .ok (fragment, after)) (member : binding ∈ fragment.bindings) :
    SameIndex first (first :: rest) binding.property := by
  have word := words first List.mem_cons_self
  obtain ⟨inside, before, middle, loop, ranBody, among, loops, pending, array⟩ :=
    mem_bindings_iteration (by simp) word ran member
  have field : loop.property = first := by
    rw [array, arrayPath, String.toList_ofList]
    simp [Frames.qualify, Frames.advance, Segment.blanks, Segment.spell, Segment.chars,
      Segment.spellRest, Place.chars]
  have outermost : Outermost first before.advance.loops :=
    ⟨[], loop.advance, loop.upcoming, Frames.loops_advance_cons loops,
      loop.sameArray_advance.property.trans field, pending.index_advance⟩
  exact sameIndex_of_renderAll word words (by simp) outermost ranBody among

end Run

/-- A parameter with two items in each array. -/
def pairs : List String → Value
  | [] => .null
  | name :: rest => .object [(name, .array [pairs rest, pairs rest])]

theorem hasArrays_pairs (names : List String) : (pairs names).HasArrays names := by
  induction names with
  | nil => trivial
  | cons name rest ih =>
    refine ⟨_, _, rfl, List.lookup_cons_self, by simp [UInt64.size], ?_⟩
    simpa using ih

/-- Both items of each array are there. -/
theorem at?_way_pairs {places : List (String × Nat)} (second : ∀ place ∈ places, place.2 < 2) :
    (pairs (places.map Prod.fst)).at? (way places) = some .null := by
  induction places with
  | nil => rfl
  | cons place rest ih =>
    obtain ⟨name, index⟩ := place
    obtain ⟨here, later⟩ := List.forall_mem_cons.mp second
    have item : [pairs (rest.map Prod.fst), pairs (rest.map Prod.fst)][index]? =
        some (pairs (rest.map Prod.fst)) := by
      match index, here with
      | 0, _ => rfl
      | 1, _ => rfl
    rw [List.map_cons, pairs, Value.at?_way_cons List.lookup_cons_self, item]
    exact ih later

theorem zip_places (places : List (String × Nat)) :
    (places.map Prod.fst).zip (places.map Prod.snd) = places :=
  (List.zip_of_prod rfl rfl).symm

theorem mem_leaves_pairs {places : List (String × Nat)} (second : ∀ place ∈ places, place.2 < 2) :
    (places.map Prod.snd, Value.null) ∈
      (pairs (places.map Prod.fst)).leaves (places.map Prod.fst) := by
  refine (Value.mem_leaves_iff (hasArrays_pairs _)).mpr ⟨by simp, ?_⟩
  rw [zip_places, at?_way_pairs second]

/-- If the first field recurs, there are innermost items that are not bound. -/
theorem exists_not_bindsLeaves (id : String) (cls : ParameterClass) (converters : Converters)
    {first : String} {rest : List String} (words : ∀ name ∈ first :: rest, Text.Word name)
    (recurs : first ∈ rest) :
    ∃ param : Value, param.HasArrays (first :: rest) ∧
      ¬ BindsLeaves id cls converters (first :: rest) param := by
  refine ⟨pairs (first :: rest), hasArrays_pairs _, ?_⟩
  rintro ⟨template, fragment, built, rendered, declared, -⟩
  rw [build_draft id cls converters (by simp)] at built
  cases built
  obtain ⟨⟨statement, after⟩, ran, more⟩ := bind_eq_ok_iff.mp rendered
  obtain ⟨_, -, last⟩ := bind_eq_ok_iff.mp more
  cases last
  -- The second item of the outermost array, and the first one of every other array.
  let inner : List (String × Nat) := rest.map (·, 0)
  have fields : inner.map Prod.fst = rest := by simp [inner, Function.comp_def]
  have zipped : (first :: rest).zip (1 :: inner.map Prod.snd) = (first, 1) :: inner := by
    rw [← fields]
    exact zip_places ((first, 1) :: inner)
  have leaf : (1 :: inner.map Prod.snd, Value.null) ∈
      (pairs (first :: rest)).leaves (first :: rest) := by
    rw [← fields]
    have second : ∀ place ∈ (first, 1) :: inner, place.2 < 2 := by simp [inner]
    exact mem_leaves_pairs second
  have addressed : { property := address ((first, 1) :: inner) } ∈
      statement.bindings.map Binding.toDeclaration := by
    rw [declared, ← zipped]
    exact List.mem_map_of_mem leaf
  obtain ⟨binding, member, property⟩ := List.mem_map.mp addressed
  have same := sameIndex_of_nested words ran member
  have own : binding.property = address ((first, 1) :: inner) := by rw [property]
  rw [own, ← fields] at same
  have recursInside : (first, 0) ∈ inner := List.mem_map.mpr ⟨first, recurs, rfl⟩
  exact not_sameIndex_address (by rw [fields]; exact words) recursInside (by decide) same

/-- Nested iterations bind the innermost items of every parameter just if the first field
    does not recur among the others. -/
theorem bindsLeaves_iff_firstOnce {id : String} {cls : ParameterClass} {converters : Converters}
    {names : List String} (answered : Answered cls converters names)
    (words : ∀ name ∈ names, Text.Word name) (some : names ≠ []) :
    (∀ param : Value, param.HasArrays names → BindsLeaves id cls converters names param) ↔
      FirstOnce names := by
  constructor
  · intro binds
    cases names with
    | nil => exact absurd rfl some
    | cons first rest =>
      intro recurs
      obtain ⟨param, arrays, fails⟩ := exists_not_bindsLeaves id cls converters words recurs
      exact fails (binds param arrays)
  · intro once param arrays
    exact bindsLeaves_of_firstOnce answered words some once arrays

/-- The lines of two orders. -/
theorem bindsLeaves_of_orders :
    BindsLeaves "q" .unknown ({} : Registry) ["orders", "lines"]
      (.object [("orders", .array [.object [("lines", .array [.string "x"])],
        .object [("lines", .array [.string "y", .string "z"])]])]) := by
  have answered : Answered .unknown ({} : Registry) ["orders", "lines"] :=
    answered_of_registry (by simp) _ _
  have words : ∀ name ∈ ["orders", "lines"], Text.Word name := by decide
  apply (bindsLeaves_iff_firstOnce answered words (by simp)).mpr
  · decide
  · exact ⟨_, _, rfl, rfl, by decide, by simp [Value.HasArrays, UInt64.size]⟩

/-- Of the two items in the second item the second one is bound twice. -/
theorem not_bindsLeaves_of_recurring :
    (∀ name ∈ ["a", "a"], Text.Word name) ∧
      Value.HasArrays ["a", "a"]
        (.object [("a", .array [.object [("a", .array [.string "x"])],
          .object [("a", .array [.string "y", .string "z"])]])]) ∧
      ¬ BindsLeaves "q" .unknown ({} : Registry) ["a", "a"]
        (.object [("a", .array [.object [("a", .array [.string "x"])],
          .object [("a", .array [.string "y", .string "z"])]])]) := by
  let param : Value := .object [("a", .array [.object [("a", .array [.string "x"])],
    .object [("a", .array [.string "y", .string "z"])]])]
  let binding (property : String) : Binding :=
    { property, converter := ⟨"unknown", .unknown, none⟩ }
  refine ⟨by decide, ⟨_, _, rfl, rfl, by decide, by simp [Value.HasArrays, UInt64.size]⟩, ?_⟩
  rintro ⟨template, fragment, built, rendered, declared, -⟩
  rw [build_draft "q" .unknown ({} : Registry) (by simp)] at built
  cases built
  have second : (⟨"q", .unknown, parts 0 [] ["a", "a"]⟩ : Template).render ({} : Registry) param =
      .ok ⟨"???", [binding "a[0].a[0]", binding "a[1].a[1]", binding "a[1].a[1]"]⟩ := by
    apply eq_ok_of_toOption
    dsimp only [param, binding]
    decide +kernel
  cases second.symm.trans rendered
  revert declared
  dsimp only [binding]
  decide +kernel

end Nest

end DynamicSql
