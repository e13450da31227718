import DynamicSql.Proofs.Nesting.Iterations
import DynamicSql.Proofs.Nesting.Placeholder

/-!
# Rendering nested iterations

If the first field does not recur, each loop fills in its own index wherever the
paths inside it are read. So the arrays are found, the passes go through all of
their items, and every innermost item is bound once, in the order of the indexes.
-/

namespace DynamicSql

open Rendering

namespace Frames

@[simp]
theorem loops_enter (frames : Frames) (tag : Nat) (marker : Option Bool) :
    (frames.enter tag marker).loops = frames.loops := by
  cases marker <;> rfl

/-- Where the loops get to depends on the loops alone. -/
theorem loops_advance_congr {frames others : Frames} (same : frames.loops = others.loops) :
    frames.advance.loops = others.advance.loops := by
  obtain ⟨_, loops⟩ := frames
  obtain ⟨_, _⟩ := others
  subst same
  cases loops <;> rfl

theorem loops_advance_cons {frames : Frames} {loop : Loop} {outer : List Loop}
    (loops : frames.loops = loop :: outer) : frames.advance.loops = loop.advance :: outer := by
  obtain ⟨_, _⟩ := frames
  subst loops
  rfl

@[simp]
theorem loops_popMarker (frames : Frames) (tag : Nat) :
    (frames.popMarker tag).loops = frames.loops := by
  unfold popMarker
  split
  · split <;> rfl
  · rfl

end Frames

namespace Tag

variable {tag : Tag} {parent : Option Tag} {body : Rendering Fragment}

/-- Without a text in front the end of a pass does not look at the markers. -/
theorem endPass_of_noPrepend (parent : Option Tag) (without : tag.prepend = none)
    (inner : Fragment)
    {frames : Frames} {loop : Loop} {outer : List Loop} (loops : frames.loops = loop :: outer) :
    ∃ piece next, tag.endPass parent inner frames =
        ((piece, (loop.endPass tag inner.sql).loop.exhausted), next) ∧
      piece.bindings = inner.bindings ∧
      next.loops = (loop.endPass tag inner.sql).loop :: outer := by
  obtain ⟨markers, _⟩ := frames
  subst loops
  refine ⟨_, _, endPass_cons tag parent inner markers loop outer, rfl, ?_⟩
  generalize loop.endPass tag inner.sql = pass
  have front : (if pass.isFirst then
      tag.prependTo parent pass.text ⟨markers, pass.loop :: outer⟩
      else (pass.text, ⟨markers, pass.loop :: outer⟩)) =
      (pass.text, ⟨markers, pass.loop :: outer⟩) := by
    rw [prependTo_none without, ite_self]
  rw [front]
  split
  · exact Frames.loops_rearm _
  · rfl

/-- If the body succeeds for every item of the array, so do the passes, and they declare
    what the body declares for the items in their order. -/
theorem passes_succeed (parent : Option Tag) (without : tag.prepend = none)
    {items : List Value} {property : String} {outer : List Loop}
    (declared : Value → Nat → List Declaration)
    (each : ∀ {frames loop item}, frames.loops = loop :: outer → loop.Pending →
      loop.property = property → items[loop.upcoming]? = some item →
      ∃ inner after, body.run frames = .ok (inner, after) ∧
        after.loops = loop.advance :: outer ∧
        inner.bindings.map Binding.toDeclaration = declared item loop.upcoming)
    {count : Nat} {frames : Frames} {loop : Loop} (loops : frames.loops = loop :: outer)
    (pending : loop.Pending) (array : loop.property = property)
    (size : loop.size = items.length) (le : loop.remaining ≤ count) :
    ∃ fragment after, (tag.passes parent body count).run frames = .ok (fragment, after) ∧
      (∃ last, after.loops = last :: outer) ∧
      fragment.bindings.map Binding.toDeclaration =
        ((items.drop loop.upcoming).zipIdx loop.upcoming).flatMap fun (item, index) =>
          declared item index := by
  induction count generalizing frames loop with
  | zero =>
    have finished : items.length ≤ loop.upcoming := by
      rw [Loop.remaining, size] at le
      omega
    refine ⟨{}, frames, run_pure_eq_ok.mpr ⟨rfl, rfl⟩, ⟨loop, loops⟩, ?_⟩
    rw [List.drop_eq_nil_of_le finished]
    rfl
  | succ count ih =>
    by_cases finished : items.length ≤ loop.upcoming
    · have noNext : frames.loops.head?.any Loop.hasNext = false := by
        rw [loops, List.head?_cons, Option.any_some, Loop.hasNext, size]
        exact decide_eq_false (by omega)
      refine ⟨{}, frames, passes_succ_eq_ok.mpr (.inl ⟨noNext, rfl, rfl⟩), ⟨loop, loops⟩, ?_⟩
      rw [List.drop_eq_nil_of_le finished]
      rfl
    · have less : loop.upcoming < items.length := by omega
      have next : frames.loops.head?.any Loop.hasNext = true := by
        rw [loops, List.head?_cons, Option.any_some, Loop.hasNext, size]
        exact decide_eq_true less
      obtain ⟨inner, middle, ranBody, middleLoops, bindings⟩ :=
        each loops pending array (List.getElem?_eq_getElem less)
      obtain ⟨piece, after, ended, pieceBindings, afterLoops⟩ :=
        endPass_of_noPrepend parent without inner middleLoops
      have does := Loop.ended_endPass_advance loop tag inner.sql pending
      revert ended afterLoops does
      generalize loop.advance.endPass tag inner.sql = pass
      intro ended afterLoops does
      have here : (items.drop loop.upcoming).zipIdx loop.upcoming =
          (items[loop.upcoming], loop.upcoming) ::
            (items.drop (loop.upcoming + 1)).zipIdx (loop.upcoming + 1) := by
        rw [List.drop_eq_getElem_cons less, List.zipIdx_cons]
      cases exhausted : pass.loop.exhausted with
      | true =>
        rw [exhausted] at ended
        have final := does.exhausted exhausted
        rw [Loop.hasNext_eq_remaining, decide_eq_false_iff_not, Loop.remaining_step,
          Loop.remaining, size] at final
        refine ⟨piece, after, passes_succ_eq_ok.mpr (.inr ⟨next, inner, middle, piece, true, after,
          ranBody, ended, .inl ⟨rfl, rfl, rfl⟩⟩), ⟨_, afterLoops⟩, ?_⟩
        rw [here, List.drop_eq_nil_of_le (by omega), pieceBindings, bindings]
        simp
      | false =>
        rw [exhausted] at ended
        obtain ⟨others, last, ranOthers, lastLoops, otherBindings⟩ :=
          ih afterLoops ⟨does.stepped, exhausted⟩ (does.array.property.trans array)
            (does.array.size.trans size) (by rw [does.remaining]; omega)
        refine ⟨piece ++ others, last, passes_succ_eq_ok.mpr (.inr ⟨next, inner, middle, piece,
          false, after, ranBody, ended, .inr ⟨rfl, others, ranOthers, rfl⟩⟩), lastLoops, ?_⟩
        rw [here, List.flatMap_cons, Fragment.bindings_append, List.map_append, pieceBindings,
          bindings, otherBindings, does.upcoming]

end Tag

namespace Nest

/-- The way to an item, by the fields of the arrays and the index in each. -/
def way (places : List (String × Nat)) : Path := (Segment.items places).flatMap Segment.steps

theorem way_append (places others : List (String × Nat)) :
    way (places ++ others) = way places ++ way others := by
  simp [way, Segment.items]

/-- The segments of items whose indexes are numbers of sixty-four bits can be read. -/
theorem readable_items {places : List (String × Nat)}
    (words : ∀ name ∈ places.map Prod.fst, Text.Word name)
    (bounded : ∀ place ∈ places, place.2 < UInt64.size) :
    ∀ segment ∈ Segment.items places, segment.Readable := by
  intro segment member
  obtain ⟨place, among, rfl⟩ := List.mem_map.mp member
  refine ⟨words _ (List.mem_map_of_mem among), by simp, fun index same => ?_⟩
  cases same
  exact bounded place among

/-- The address of an item leads to it. -/
theorem get_address {param : Value} {places : List (String × Nat)} (some : places ≠ [])
    (words : ∀ name ∈ places.map Prod.fst, Text.Word name)
    (bounded : ∀ place ∈ places, place.2 < UInt64.size) :
    param.get (address places) = .ok (param.at? (way places)) := by
  have readable := readable_items words bounded
  cases places with
  | nil => exact absurd rfl some
  | cons place rest =>
    rw [Value.get, address, Segment.items, List.map_cons, Path.parse_spell readable]
    rfl

/-- The path to an array leads to the field of the item that is reached. -/
theorem get_array {param value : Value} {places : List (String × Nat)} {name : String}
    (words : ∀ name ∈ places.map Prod.fst, Text.Word name) (word : Text.Word name)
    (bounded : ∀ place ∈ places, place.2 < UInt64.size)
    (here : param.at? (way places) = some value) :
    param.get (String.ofList (Segment.spell (Segment.items places ++ [⟨name, .bare⟩]))) =
      .ok (value.step? (.field name)) := by
  have readable : ∀ segment ∈ Segment.items places ++ [⟨name, .bare⟩], segment.Readable := by
    intro segment member
    rcases List.mem_append.mp member with among | last
    · exact readable_items words bounded segment among
    · rw [List.mem_singleton.mp last]
      exact ⟨word, by simp, by simp⟩
  have path : Path.parse (String.ofList
      (Segment.spell (Segment.items places ++ [⟨name, .bare⟩]))) =
        .ok (way places ++ [.field name]) := by
    cases same : Segment.items places ++ [(⟨name, .bare⟩ : Segment)] with
    | nil => simp at same
    | cons first rest =>
      rw [same] at readable
      rw [Path.parse_spell readable, ← same]
      simp [way, Segment.steps]
  have found : param.at? (way places ++ [.field name]) = value.step? (.field name) := by
    rw [Value.at?_append, here]
    simp [Value.at?]
  rw [Value.get, path]
  exact congrArg Except.ok found

theorem hasContent_placeholder (names : List String) :
    Text.hasContent (placeholder names) = true := by
  have sign : Text.isBlank '#' = false := by decide
  simp [placeholder, Text.hasContent, sign]

/-- The path to an array is there. -/
theorem property_arrayPath {names : List String} {name : String}
    (words : ∀ name ∈ names, Text.Word name) (word : Text.Word name) :
    (Tag.iterate (arrayPath names name)).property = some (arrayPath names name) := by
  have segmentWords : ∀ segment ∈ Segment.blanks names ++ [⟨name, .bare⟩],
      Text.Word segment.name := by
    intro segment member
    rcases List.mem_append.mp member with among | last
    · exact Segment.words_blanks words segment among
    · rw [List.mem_singleton.mp last]
      exact word
  have filled : (arrayPath names name).isEmpty = false := by
    simpa [arrayPath] using Segment.spell_ne_nil (by simp) segmentWords
  simp [Tag.iterate, Tag.present?, filled]

section Rendering

variable {occasion : Occasion} {frames : Frames} {places : List (String × Nat)} {value : Value}

/-- The loops have reached the item at some places, and the parameter has this item there. -/
structure Reaches (occasion : Occasion) (frames : Frames) (places : List (String × Nat))
    (value : Value) : Prop where
  words : ∀ name ∈ places.map Prod.fst, Text.Word name
  bounded : ∀ place ∈ places, place.2 < UInt64.size
  addressing : Addressing frames.advance.loops places
  here : occasion.param.at? (way places) = some value

namespace Reaches

/-- A tag that is entered does not change what is reached. -/
theorem enter (reaches : Reaches occasion frames places value) (id : Nat)
    (marker : Option Bool) : Reaches occasion (frames.enter id marker) places value := by
  obtain ⟨words, bounded, addressing, here⟩ := reaches
  refine ⟨words, bounded, ?_, here⟩
  rw [Frames.loops_advance_congr (frames.loops_enter id marker)]
  exact addressing

/-- A pass of a loop through an array of the item reaches the next item of the array. -/
theorem step {name : String} {fields : List (String × Value)} {items : List Value}
    {inner : Frames} {loop : Loop} {item : Value}
    (reaches : Reaches occasion frames places (.object fields)) (word : Text.Word name)
    (field : fields.lookup name = some (.array items)) (bound : items.length ≤ UInt64.size)
    (loops : inner.loops = loop :: frames.advance.loops) (pending : loop.Pending)
    (array : loop.property =
      String.ofList (Segment.spell (Segment.items places ++ [⟨name, .bare⟩])))
    (found : items[loop.upcoming]? = some item) :
    Reaches occasion inner (places ++ [(name, loop.upcoming)]) item := by
  constructor
  · intro other member
    rw [List.map_append] at member
    rcases List.mem_append.mp member with among | last
    · exact reaches.words other among
    · rw [List.mem_singleton.mp last]
      exact word
  · intro place member
    rcases List.mem_append.mp member with among | last
    · exact reaches.bounded place among
    · rw [List.mem_singleton.mp last]
      have less : loop.upcoming < items.length := (List.getElem?_eq_some_iff.mp found).1
      exact Nat.lt_of_lt_of_le less bound
  · rw [Frames.loops_advance_cons loops]
    have sameArray := loop.sameArray_advance.property.trans array
    exact .inside reaches.addressing sameArray pending.index_advance
  · rw [way_append, Value.at?_append, reaches.here]
    simp [way, Segment.items, Segment.steps, Value.at?, Value.step?, field, found]

end Reaches

/-- The item that the loops have reached has an array in the field, and the iteration
    finds it. -/
theorem collection_array {name : String} {fields : List (String × Value)}
    {items : List Value} (once : FirstOnce (places.map Prod.fst ++ [name]))
    (word : Text.Word name) (reaches : Reaches occasion frames places (.object fields))
    (field : fields.lookup name = some (.array items)) :
    (occasion.collection (Tag.iterate (arrayPath (places.map Prod.fst) name))).run frames =
      .ok ((String.ofList (Segment.spell (Segment.items places ++ [⟨name, .bare⟩])), items),
        frames.advance) := by
  obtain ⟨words, bounded, addressing, here⟩ := reaches
  have allWords : ∀ other ∈ places.map Prod.fst ++ [(⟨name, .bare⟩ : Segment)].map Segment.name,
      Text.Word other := by
    intro other member
    rcases List.mem_append.mp member with among | last
    · exact words other among
    · rw [List.mem_singleton.mp last]
      exact word
  have qualified : frames.advance.qualify (arrayPath (places.map Prod.fst) name).toList =
      Segment.spell (Segment.items places ++ [⟨name, .bare⟩]) := by
    rw [arrayPath, String.toList_ofList]
    exact addressing.qualify once allWords (by simp)
  refine Occasion.collection_eq_ok.mpr (Occasion.subject_eq_ok.mpr
    (.inl ⟨_, property_arrayPath words word, Occasion.look_eq_ok.mpr ⟨rfl, ?_, ?_⟩⟩))
  · rw [qualified]
  · rw [get_array words word bounded here]
    exact congrArg Except.ok field

/-- The placeholder binds the item that the loops have reached. -/
theorem render_placeholder
    (answered : Answered occasion.cls occasion.converters (places.map Prod.fst))
    (some : places ≠ []) (once : FirstOnce (places.map Prod.fst))
    (reaches : Reaches occasion frames places value) :
    ∃ binding : Binding, binding.toDeclaration = { property := address places } ∧
      (TextPart.render occasion ⟨placeholder (places.map Prod.fst), true, none⟩).run frames =
        .ok (.marker binding, frames.advance) := by
  obtain ⟨converter, found⟩ := answered places rfl
  have words := reaches.words
  have qualified : frames.advance.qualify (Segment.spell (Segment.blanks (places.map Prod.fst))) =
      Segment.spell (Segment.items places) := reaches.addressing.qualify_all once words
  have itemWords := Segment.words_items words
  refine ⟨⟨{ property := address places }, converter⟩, rfl,
    TextPart.render_eq_ok.mpr (.inr (.inr ⟨rfl, hasContent_placeholder _, rfl, ?_⟩))⟩
  rw [placeholder, Frames.qualifyPlaceholders_address _
    (Text.isAddressChar_of_mem_spell (Segment.words_blanks words)), qualified]
  exact (Fragment.parse_address_eq_ok
    (Segment.spell_ne_nil (by simpa [Segment.items] using some) itemWords)
    (Text.isAddressChar_of_mem_spell itemWords)).mpr ⟨converter, found, rfl⟩

/-- An iteration through an array of the item that is reached succeeds if its body does in
    each pass, and it declares what the body declares for the items in their order. -/
theorem renderAll_iteration {name : String} {rest : List String} {parent : Option Tag}
    {id : Nat} {fields : List (String × Value)} {items : List Value}
    (once : FirstOnce (places.map Prod.fst ++ [name])) (word : Text.Word name)
    (reaches : Reaches occasion frames places (.object fields))
    (field : fields.lookup name = some (.array items))
    (declared : Value → Nat → List Declaration)
    (each : ∀ {inner loop item}, inner.loops = loop :: frames.advance.loops → loop.Pending →
      loop.property = String.ofList (Segment.spell (Segment.items places ++ [⟨name, .bare⟩])) →
      items[loop.upcoming]? = some item →
      ∃ fragment after, (Part.renderAll occasion
          (some (Tag.iterate (arrayPath (places.map Prod.fst) name)))
          (parts (id + 1) (places.map Prod.fst ++ [name]) rest)).run inner =
            .ok (fragment, after) ∧
        after.loops = loop.advance :: frames.advance.loops ∧
        fragment.bindings.map Binding.toDeclaration = declared item loop.upcoming) :
    ∃ fragment after,
      (Part.renderAll occasion parent (parts id (places.map Prod.fst) (name :: rest))).run frames =
        .ok (fragment, after) ∧
      after.loops = frames.advance.loops ∧
      fragment.bindings.map Binding.toDeclaration =
        items.zipIdx.flatMap fun (item, index) => declared item index := by
  let tag := Tag.iterate (arrayPath (places.map Prod.fst) name)
  let path := String.ofList (Segment.spell (Segment.items places ++ [⟨name, .bare⟩]))
  let entered := frames.enter id (tag.marker? parent)
  have enteredLoops : entered.advance.loops = frames.advance.loops :=
    Frames.loops_advance_congr (frames.loops_enter id _)
  have collected : (occasion.collection tag).run entered = .ok ((path, items), entered.advance) :=
    collection_array once word (reaches.enter id _) field
  let loop : Loop := { tag := id, size := items.length, property := path }
  have loops : (entered.advance.pushLoop loop).loops = loop :: frames.advance.loops := by
    rw [← enteredLoops]
    rfl
  have without : tag.prepend = none := rfl
  obtain ⟨fragment, closed, passed, ⟨last, closedLoops⟩, bindings⟩ :=
    Tag.passes_succeed parent without declared each loops ⟨rfl, rfl⟩ rfl rfl (Nat.le_refl _)
  have iterated : (tag.iterateOver occasion parent id (Part.renderAll occasion (some tag)
      (parts (id + 1) (places.map Prod.fst ++ [name]) rest))).run entered =
        .ok (fragment, closed.popLoop) :=
    Tag.iterateOver_eq_ok.mpr ⟨path, items, entered.advance, closed, collected, passed, rfl⟩
  have rendered := Tag.around_eq_ok.mpr
    ⟨closed.popLoop, Tag.content_eq_ok.mpr (.inr (.inr ⟨rfl, iterated⟩)), rfl⟩
  refine ⟨fragment, _, Part.renderAll_singleton_eq_ok.mpr (by rw [Part.render]; exact rendered),
    ?_, ?_⟩
  · rw [Frames.loops_popMarker, Frames.popLoop, closedLoops]
    rfl
  · rw [bindings]
    rfl

/-- Iterations through nested arrays succeed inside the loops that have reached an item,
    and declare the addresses of the innermost items in it. -/
theorem renderAll_parts {names : List String} {parent : Option Tag} {id : Nat}
    (answered : Answered occasion.cls occasion.converters (places.map Prod.fst ++ names))
    (once : FirstOnce (places.map Prod.fst ++ names)) (words : ∀ name ∈ names, Text.Word name)
    (some : places.map Prod.fst ++ names ≠ [])
    (reaches : Reaches occasion frames places value) (arrays : value.HasArrays names) :
    ∃ fragment after,
      (Part.renderAll occasion parent (parts id (places.map Prod.fst) names)).run frames =
        .ok (fragment, after) ∧
      after.loops = frames.advance.loops ∧
      fragment.bindings.map Binding.toDeclaration =
        (value.leaves names).map fun leaf =>
          { property := address (places ++ names.zip leaf.1) } := by
  induction names generalizing places value frames parent id with
  | nil =>
    rw [List.append_nil] at answered once some
    obtain ⟨binding, declared, rendered⟩ :=
      render_placeholder answered (by simpa using some) once reaches
    refine ⟨_, _, Part.renderAll_singleton_eq_ok.mpr (by rw [Part.render]; exact rendered), rfl, ?_⟩
    simp [Fragment.marker, Value.leaves, declared]
  | cons name rest ih =>
    obtain ⟨word, later⟩ := List.forall_mem_cons.mp words
    have outerOnce : FirstOnce (places.map Prod.fst ++ [name]) := by
      rw [← List.singleton_append, ← List.append_assoc] at once
      exact once.of_append
    obtain ⟨fields, items, rfl, field, bound, arrays⟩ := arrays
    let declared (item : Value) (index : Nat) : List Declaration :=
      (item.leaves rest).map fun leaf =>
        { property := address (places ++ [(name, index)] ++ rest.zip leaf.1) }
    have each {inner : Frames} {loop : Loop} {item : Value}
        (loops : inner.loops = loop :: frames.advance.loops) (pending : loop.Pending)
        (array : loop.property =
          String.ofList (Segment.spell (Segment.items places ++ [⟨name, .bare⟩])))
        (found : items[loop.upcoming]? = Option.some item) :
        ∃ fragment after, (Part.renderAll occasion
            (Option.some (Tag.iterate (arrayPath (places.map Prod.fst) name)))
            (parts (id + 1) (places.map Prod.fst ++ [name]) rest)).run inner =
              .ok (fragment, after) ∧
          after.loops = loop.advance :: frames.advance.loops ∧
          fragment.bindings.map Binding.toDeclaration = declared item loop.upcoming := by
      have outer : (places ++ [(name, loop.upcoming)]).map Prod.fst =
          places.map Prod.fst ++ [name] := by simp
      have all : (places ++ [(name, loop.upcoming)]).map Prod.fst ++ rest =
          places.map Prod.fst ++ name :: rest := by simp
      have inside := reaches.step word field bound loops pending array found
      rw [← outer, ← Frames.loops_advance_cons loops]
      exact ih (by rw [all]; exact answered) (by rw [all]; exact once) later (by simp) inside
        (arrays item (List.mem_of_getElem? found))
    obtain ⟨fragment, after, ran, loops, bindings⟩ :=
      renderAll_iteration outerOnce word reaches field declared each
    refine ⟨fragment, after, ran, loops, ?_⟩
    rw [bindings]
    simp only [Value.leaves, Value.step?, field, List.map_flatMap]
    simp [declared, List.map_map, Function.comp_def]

end Rendering

end Nest

end DynamicSql
