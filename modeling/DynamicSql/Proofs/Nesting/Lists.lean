import DynamicSql.Proofs.Correspondence.Wrapping
import DynamicSql.Proofs.Iteration.Splicing
import DynamicSql.Proofs.Nesting.Binding

/-!
# Lists of items

The usual way to a list in a statement: an iteration through the array at a path of
fields, and inside it nothing but a placeholder for its items. Each pass puts its index
into the placeholder and gives one marker, and the markers are joined and put between the
texts of the tag. So every item of the array is bound once, in the order of the array.
-/

namespace DynamicSql

open Rendering

namespace Segment

/-- Segments without an index. -/
def bares (names : List String) : List Segment := names.map (⟨·, .bare⟩)

theorem spellRest_eq {segments : List Segment} (some : segments ≠ []) :
    spellRest segments = '.' :: spell segments := by
  cases segments with
  | nil => exact absurd rfl some
  | cons first rest => simp [spellRest, spell]

/-- A path of fields with something behind the last one is spelled like the path. -/
theorem spell_path (front : List String) (last : String) (place : Place) :
    spell (bares front ++ [⟨last, place⟩]) =
      (".".intercalate (front ++ [last])).toList ++ place.chars := by
  induction front with
  | nil => simp [bares, spell, spellRest, chars]
  | cons name rest ih =>
    obtain ⟨next, more, same⟩ : ∃ next more, rest ++ [last] = next :: more :=
      List.exists_cons_of_ne_nil (by simp)
    have behind : bares rest ++ [⟨last, place⟩] ≠ [] := by simp
    show Segment.chars ⟨name, .bare⟩ ++ spellRest (bares rest ++ [⟨last, place⟩]) = _
    rw [spellRest_eq behind, ih, List.cons_append, same, String.intercalate_cons_cons]
    simp [chars, Place.chars]

theorem steps_bares (names : List String) :
    (bares names).flatMap steps = names.map Step.field := by
  induction names with
  | nil => rfl
  | cons name rest ih => exact congrArg (.field name :: ·) ih

end Segment

/-- The steps to an item, if one is named. -/
def Place.steps : Place → Path
  | item index => [.index index]
  | _ => []

/-- A path of fields with an index or nothing behind the last one is read as it is meant. -/
theorem Path.parse_path {names : List String} (some : names ≠ [])
    (words : ∀ name ∈ names, Text.Word name) {place : Place} (filled : place ≠ .blank)
    (bounded : ∀ index, place = .item index → index < UInt64.size) :
    parse (String.ofList ((".".intercalate names).toList ++ place.chars)) =
      .ok (names.map Step.field ++ place.steps) := by
  obtain ⟨front, last, same⟩ := (List.eq_nil_or_concat names).resolve_left some
  rw [List.concat_eq_append] at same
  subst same
  let ending : Segment := ⟨last, place⟩
  have readable : ∀ segment ∈ Segment.bares front ++ [ending], segment.Readable := by
    intro segment member
    rcases List.mem_append.mp member with among | isLast
    · obtain ⟨name, inFront, rfl⟩ := List.mem_map.mp among
      exact ⟨words name (List.mem_append_left _ inFront), nofun, nofun⟩
    · rw [List.mem_singleton.mp isLast]
      exact ⟨words last (by simp), filled, bounded⟩
  have steps : (Segment.bares front ++ [ending]).flatMap Segment.steps =
      (front ++ [last]).map Step.field ++ place.steps := by
    rw [List.flatMap_append, Segment.steps_bares, List.flatMap_singleton, List.map_append,
      List.append_assoc]
    cases place <;> rfl
  rw [← Segment.spell_path, ← steps]
  cases written : Segment.bares front ++ [ending] with
  | nil => simp at written
  | cons first rest =>
    rw [written] at readable
    exact parse_spell readable

/-- What names an item is written with characters of addresses. -/
theorem Place.isAddressChar_of_mem (place : Place) {c : Char} (member : c ∈ place.chars) :
    Text.isAddressChar c = true := by
  cases place with
  | bare => cases member
  | blank =>
    rcases List.mem_pair.mp member with opening | closing
    · rw [opening]
      decide
    · rw [closing]
      decide
  | item index =>
    rcases List.mem_cons.mp member with opening | behind
    · rw [opening]
      decide
    · rcases List.mem_append.mp behind with digit | closing
      · simp [Text.isAddressChar, Text.isWordChar_of_mem_toDigits digit]
      · rw [List.mem_singleton.mp closing]
        decide

/-- A text that is the pattern is replaced. -/
theorem Text.replaceWhole_pattern {pattern : List Char} (nonempty : pattern ≠ [])
    (replacement : List Char) : replaceWhole pattern replacement pattern = replacement := by
  have whole : replaceFrom pattern replacement 0 true (pattern ++ []) =
      (if true then replacement else pattern) ++ replaceFrom pattern replacement 0 true [] :=
    replaceFrom_pattern nonempty true []
  simpa [replaceWhole, replaceFrom] using whole

/-- A loop puts its index into the empty one behind the path to its array. -/
theorem Loop.qualify_blank {loop : Loop} {index : Nat} (array : loop.property.toList ≠ [])
    (reached : loop.index = some index) :
    loop.qualify (loop.property.toList ++ Place.blank.chars) =
      loop.property.toList ++ (Place.item index).chars := by
  rw [qualify_of_array array reached]
  exact Text.replaceWhole_pattern (List.append_ne_nil_of_left_ne_nil array _) _

namespace Tag

variable {tag : Tag} {parent : Option Tag}

/-- If the body succeeds in each pass, so do the passes, and the body gives what it gives for
    the items that are left, in their order. -/
theorem Passes.of_each {id : Nat} {body : Rendering Fragment} (kept : KeepsFrames id body)
    {array : Loop} {outer : List Loop} {given : Nat → Fragment}
    (each : ∀ {frames : Frames} {loop : Loop}, frames.loops = loop :: outer → loop.Pending →
      array.SameArray loop → loop.upcoming < loop.size →
      ∃ after, body.run frames = .ok (given loop.upcoming, after))
    {frames : Frames} {loop : Loop} (loops : frames.loops = loop :: outer)
    (pending : loop.Pending) (same : array.SameArray loop)
    (own : ∃ armed rest, frames.markers = ⟨id, armed⟩ :: rest) {count : Nat}
    (left : loop.remaining = count) :
    ∃ fragment after, tag.Passes parent body frames ((List.range' loop.upcoming count).map given)
      fragment after := by
  have next : frames.loops.head?.any Loop.hasNext = decide (0 < loop.remaining) := by
    rw [loops, List.head?_cons, Option.any_some, Loop.hasNext_eq_remaining]
  induction count generalizing frames loop with
  | zero =>
    rw [left] at next
    exact ⟨{}, frames, .done next⟩
  | succ count ih =>
    rw [left, decide_eq_true (Nat.succ_pos count)] at next
    have less : loop.upcoming < loop.size := by
      rw [Loop.remaining] at left
      omega
    obtain ⟨middle, ran⟩ := each loops pending same less
    obtain ⟨armed, rest, markers⟩ := own
    obtain ⟨⟨⟨piece, isLast⟩, later⟩, ended⟩ :
        ∃ outcome, tag.endPass parent (given loop.upcoming) middle = outcome := ⟨_, rfl⟩
    obtain ⟨pass, does, exhausted, passed⟩ := pass_ended kept loops pending markers ran ended
    obtain ⟨armed', rest', laterMarkers, -⟩ := passed.markers
    have fewer : pass.loop.remaining = count := by
      rw [does.remaining, left]
      omega
    cases isLast with
    | true =>
      have final := does.exhausted exhausted.symm
      rw [Loop.hasNext_eq_remaining, Loop.remaining_step, ← does.remaining, fewer,
        decide_eq_false_iff_not] at final
      have none : count = 0 := by omega
      subst none
      exact ⟨piece, later, .last next ran ended⟩
    | false =>
      have more : later.loops.head?.any Loop.hasNext = decide (0 < pass.loop.remaining) := by
        rw [passed.loops, List.head?_cons, Option.any_some, Loop.hasNext_eq_remaining]
      obtain ⟨others, after, passes⟩ := ih passed.loops ⟨does.stepped, exhausted.symm⟩
        (same.trans does.array) ⟨armed', rest', laterMarkers⟩ fewer more
      rw [does.upcoming] at passes
      exact ⟨piece ++ others, after, .more next ran ended passes⟩

/-- Behind a text with content texts with content are joined to it, and the whole is closed. -/
theorem spliceFrom_of_content (leftOut : Bool) {texts : List String} (some : texts ≠ [])
    (content : ∀ text ∈ texts, Text.hasContent text = true) :
    tag.spliceFrom leftOut true texts =
      tag.conjunction.getD "" ++ (tag.conjunction.getD "").intercalate texts ++
        tag.closing.getD "" := by
  induction texts with
  | nil => exact absurd rfl some
  | cons text rest ih =>
    obtain ⟨here, later⟩ := List.forall_mem_cons.mp content
    cases rest with
    | nil => simp [spliceFrom, here]
    | cons next more =>
      rw [spliceFrom, here, Bool.or_true, ih (by simp) later, String.intercalate_cons_cons]
      simp [String.append_assoc]

/-- Texts with content are joined and put between the texts of the tag. -/
theorem splice_of_content (leftOut : Bool) {texts : List String} (some : texts ≠ [])
    (content : ∀ text ∈ texts, Text.hasContent text = true) :
    tag.splice leftOut texts =
      (if leftOut then "" else tag.prepend.getD "") ++ tag.opening.getD "" ++
        (tag.conjunction.getD "").intercalate texts ++ tag.closing.getD "" := by
  rw [← spliceFrom_false]
  cases texts with
  | nil => exact absurd rfl some
  | cons text rest =>
    obtain ⟨here, later⟩ := List.forall_mem_cons.mp content
    cases rest with
    | nil => simp [spliceFrom, here]
    | cons next more =>
      rw [spliceFrom, here, Bool.or_true, spliceFrom_of_content leftOut (by simp) later,
        String.intercalate_cons_cons]
      simp [String.append_assoc]

end Tag

namespace InList

/-- The placeholder for the items of the array at a path. -/
def placeholder (path : String) : String := "#" ++ path ++ "[]#"

/-- The path to an item. -/
def address (path : String) (index : Nat) : String := path ++ "[" ++ toString index ++ "]"

/-- The binding of an item, without a declared type and without a class of the parameter. -/
def binding (path : String) (index : Nat) : Binding :=
  ⟨{ property := address path index }, Registry.usual .unknown none⟩

/-- A template of an iteration around the placeholder. -/
def draft (id : String) (tag : Tag) (path : String) : Draft :=
  { id, nodes := [.tag tag [.text (placeholder path)]] }

theorem address_eq (path : String) (index : Nat) :
    address path index = String.ofList (path.toList ++ (Place.item index).chars) := by
  rw [← String.toList_inj, String.toList_ofList]
  simp [address, Place.chars]

theorem placeholder_eq (path : String) :
    placeholder path = String.ofList ('#' :: ((path.toList ++ Place.blank.chars) ++ ['#'])) := by
  rw [← String.toList_inj, String.toList_ofList]
  simp [placeholder, Place.chars, String.toList_append]

/-- A path has only characters of addresses, with or without an index behind it. -/
theorem isAddressChar_of_mem {names : List String} (words : ∀ name ∈ names, Text.Word name)
    (place : Place) :
    ∀ c ∈ (".".intercalate names).toList ++ place.chars, Text.isAddressChar c = true := by
  intro c member
  rcases List.mem_append.mp member with inPath | inPlace
  · rcases Text.isWordChar_of_mem_path words c inPath with word | dot
    · simp [Text.isAddressChar, word]
    · simp [Text.isAddressChar, dot]
  · exact place.isAddressChar_of_mem inPlace

section Path

variable {names : List String} (some : names ≠ []) (words : ∀ name ∈ names, Text.Word name)

include some words

/-- A path of fields leads to where its fields lead. -/
theorem at?_of_get {param value : Value}
    (resolves : param.get (".".intercalate names) = .ok (Option.some value)) :
    param.at? (names.map Step.field) = Option.some value := by
  have parsed := Path.parse_path some words (nofun : Place.bare ≠ .blank) nofun
  have noSteps : Place.bare.steps = [] := rfl
  rw [Place.chars, noSteps, List.append_nil, List.append_nil, String.ofList_toList] at parsed
  rw [Value.get, parsed] at resolves
  exact Except.ok.inj resolves

/-- Only a value with parts has something at a path of fields. -/
theorem isComposite_of_get {param value : Value}
    (resolves : param.get (".".intercalate names) = .ok (Option.some value)) :
    param.isComposite = true := by
  have there := at?_of_get some words resolves
  cases names with
  | nil => exact absurd rfl some
  | cons name rest =>
    obtain ⟨_, step, -⟩ := Option.bind_eq_some_iff.mp there
    cases param with
    | array | object => rfl
    | null | bool | number | string => cases step

/-- An index behind a path leads to the item of the array that the path leads to. -/
theorem get_address {param : Value} {items : List Value} {index : Nat}
    (resolves : param.get (".".intercalate names) = .ok (Option.some (.array items)))
    (bounded : index < UInt64.size) :
    param.get (address (".".intercalate names) index) = .ok items[index]? := by
  have parsed := Path.parse_path some words (nofun : Place.item index ≠ .blank)
    (by simpa using bounded)
  rw [Value.get, address_eq, parsed]
  show Except.ok (param.at? (names.map Step.field ++ [.index index])) = _
  rw [Value.at?_append, at?_of_get some words resolves]
  simp [Value.at?, Value.step?]

/-- In a pass the placeholder gives a marker that is bound to the item of the pass. -/
theorem render_placeholder {occasion : Occasion} {registry : Registry}
    (undeclared : occasion.cls = .unknown) (known : occasion.converters = registry)
    {frames : Frames} {loop : Loop} (loops : frames.loops = [loop]) (pending : loop.Pending)
    (array : loop.property = ".".intercalate names) :
    (TextPart.render occasion ⟨placeholder (".".intercalate names), true, none⟩).run frames =
      .ok (.marker (binding (".".intercalate names) loop.upcoming), frames.advance) := by
  have nonempty := Text.path_ne_nil some words
  have content : Text.hasContent (placeholder (".".intercalate names)) = true := by
    have sign : Text.isBlank '#' = false := by decide
    simp [placeholder_eq, Text.hasContent, sign]
  have sameArray := loop.sameArray_advance.property.trans array
  have qualified : frames.advance.qualify ((".".intercalate names).toList ++ Place.blank.chars) =
      (".".intercalate names).toList ++ (Place.item loop.upcoming).chars := by
    rw [Frames.qualify, Frames.loops_advance_cons loops, List.foldr_cons, List.foldr_nil,
      ← sameArray]
    rw [← sameArray] at nonempty
    exact Loop.qualify_blank nonempty pending.index_advance
  refine TextPart.render_eq_ok.mpr (.inr (.inr ⟨rfl, content, rfl, ?_⟩))
  rw [placeholder_eq, Frames.qualifyPlaceholders_address _ (isAddressChar_of_mem words .blank),
    qualified, binding, address_eq, undeclared, known]
  refine (Fragment.parse_address_eq_ok (List.append_ne_nil_of_left_ne_nil nonempty _)
    (isAddressChar_of_mem words (.item loop.upcoming))).mpr ⟨_, rfl, rfl⟩

end Path

/-- The values of the bindings of all items are the items. -/
theorem values_of_bindings {names : List String} (some : names ≠ [])
    (words : ∀ name ∈ names, Text.Word name) {param : Value} {items : List Value}
    (resolves : param.get (".".intercalate names) = .ok (Option.some (.array items)))
    (bound : items.length ≤ UInt64.size) :
    ((List.range items.length).map (binding (".".intercalate names))).mapM (·.value param) =
      .ok items := by
  let leaves := items.zipIdx.map fun entry => (address (".".intercalate names) entry.2, entry.1)
  have declared : ((List.range items.length).map (binding (".".intercalate names))).map
      Binding.toDeclaration = leaves.map fun leaf => { property := leaf.1 } := by
    have places : List.range items.length = items.zipIdx.map Prod.snd := by
      rw [List.zipIdx_map_snd, List.range_eq_range']
    rw [places, List.map_map, List.map_map, List.map_map]
    rfl
  have there : ∀ leaf ∈ leaves, param.get leaf.1 = .ok (Option.some leaf.2) := by
    intro leaf member
    obtain ⟨⟨item, index⟩, among, rfl⟩ := List.mem_map.mp member
    have found : items[index]? = Option.some item := List.mk_mem_zipIdx_iff_getElem?.mp among
    have less : index < items.length := (List.getElem?_eq_some_iff.mp found).1
    rw [get_address some words resolves (Nat.lt_of_lt_of_le less bound), found]
  have values := Nest.values_of_addresses (isComposite_of_get some words resolves) declared there
  simpa [leaves, Function.comp_def] using values

theorem build_draft (id : String) {tag : Tag} (iterates : tag.handler = .iterate) (path : String)
    (converters : Converters) :
    (draft id tag path).build converters =
      .ok ⟨id, .unknown, [.tag 0 tag [.text 1 ⟨placeholder path, true, none⟩]]⟩ := by
  have valid : tag.validate = .ok () := by
    rw [Tag.validate, iterates]
  have inside : (false || tag.handler == .iterate) = true := by
    rw [iterates]
    rfl
  simp only [draft, Draft.build, Node.buildAll, Node.build, valid, inside]
  rfl

/-- The placeholder holds no marker and no dollar sign. -/
theorem unmarked_placeholder {names : List String} (words : ∀ name ∈ names, Text.Word name) :
    Text.Unmarked (placeholder (".".intercalate names)) := by
  have chars := isAddressChar_of_mem words .blank
  have noMarker := Text.not_mem_of_isAddressChar (c := '?') chars (by decide)
  have noDollar := Text.not_mem_of_isAddressChar (c := '$') chars (by decide)
  rw [Text.Unmarked, placeholder_eq, String.toList_ofList]
  revert noMarker noDollar
  generalize (".".intercalate names).toList ++ Place.blank.chars = written
  intro noMarker noDollar
  simp [noMarker, noDollar]

/-- What the iteration renders to. -/
theorem render_iteration {names : List String} (some : names ≠ [])
    (words : ∀ name ∈ names, Text.Word name) {tag : Tag} (iterates : tag.handler = .iterate)
    (about : tag.property = Option.some (".".intercalate names)) (registry : Registry)
    {param : Value} {items : List Value}
    (resolves : param.get (".".intercalate names) = .ok (Option.some (.array items))) :
    ∃ fragment after,
      (Part.renderAll { cls := .unknown, converters := registry, param } none
        [.tag 0 tag [.text 1 ⟨placeholder (".".intercalate names), true, none⟩]]).run {} =
          .ok (fragment, after) ∧
      fragment.sql = (if items = [] then "" else
        tag.prepend.getD "" ++ tag.opening.getD "" ++
          (tag.conjunction.getD "").intercalate (List.replicate items.length "?") ++
          tag.closing.getD "") ∧
      fragment.bindings = (List.range items.length).map (binding (".".intercalate names)) := by
  let occasion : Occasion := { cls := .unknown, converters := registry, param }
  let body : List Part := [.text 1 ⟨placeholder (".".intercalate names), true, none⟩]
  let loop : Loop := { tag := 0, size := items.length, property := ".".intercalate names }
  obtain ⟨armed, entered⟩ := Tag.exists_marker?_of_iterate iterates none
  have kept : KeepsFrames 0 (Part.renderAll occasion (Option.some tag) body) :=
    Part.keepsFrames_renderAll ⟨trivial, trivial⟩
  have collected : (occasion.collection tag).run ⟨[⟨0, armed⟩], []⟩ =
      .ok ((".".intercalate names, items), ⟨[⟨0, armed⟩], []⟩) := by
    have looked : (occasion.look (".".intercalate names)).run ⟨[⟨0, armed⟩], []⟩ =
        .ok ((".".intercalate names, Option.some (.array items)), ⟨[⟨0, armed⟩], []⟩) :=
      Occasion.look_eq_ok.mpr ⟨rfl, String.ofList_toList.symm, resolves⟩
    exact Occasion.collection_eq_ok.mpr (Occasion.subject_eq_ok.mpr (.inl ⟨_, about, looked⟩))
  -- Each pass gives the marker of its item.
  let given (index : Nat) : Fragment := .marker (binding (".".intercalate names) index)
  have each {frames : Frames} {present : Loop} (loops : frames.loops = [present])
      (pending : present.Pending) (same : loop.SameArray present)
      (_ : present.upcoming < present.size) :
      ∃ after, (Part.renderAll occasion (Option.some tag) body).run frames =
        .ok (given present.upcoming, after) := by
    refine ⟨frames.advance, Part.renderAll_singleton_eq_ok.mpr ?_⟩
    rw [Part.render]
    exact render_placeholder some words rfl rfl loops pending same.property
  obtain ⟨fragment, closed, passes⟩ : ∃ fragment closed,
      tag.Passes none (Part.renderAll occasion (Option.some tag) body) ⟨[⟨0, armed⟩], [loop]⟩
        ((List.range' 0 items.length).map given) fragment closed :=
    Tag.Passes.of_each kept each rfl ⟨rfl, rfl⟩ (.refl loop) ⟨armed, [], rfl⟩ (Nat.sub_zero _)
  have outside (_ : loop.produced = false) :
      false = ((none : Option Tag).isSome && ([] : List Marker).head?.any Marker.armed) := rfl
  obtain ⟨-, sql, bindings, -⟩ := passes.spliced kept rfl ⟨rfl, rfl⟩ rfl outside
  have passed : (tag.passes none (Part.renderAll occasion (Option.some tag) body) items.length).run
      ⟨[⟨0, armed⟩], [loop]⟩ = .ok (fragment, closed) := passes.run (by simp)
  have rendered : ((Part.tag 0 tag body).render occasion none).run {} =
      .ok (fragment, closed.popLoop.popMarker 0) := by
    rw [Part.render]
    refine Tag.around_eq_ok.mpr ⟨closed.popLoop, Tag.content_eq_ok.mpr (.inr (.inr ⟨iterates, ?_⟩)),
      rfl⟩
    rw [entered]
    exact Tag.iterateOver_eq_ok.mpr ⟨_, items, _, closed, collected, passed, rfl⟩
  refine ⟨fragment, _, Part.renderAll_singleton_eq_ok.mpr rendered, ?_, ?_⟩
  · have texts : ((List.range' 0 items.length).map given).map Fragment.sql =
        List.replicate items.length "?" := by
      simp [given, Fragment.marker, Function.comp_def]
    rw [sql, texts]
    show tag.spliceFrom false false _ = _
    rw [Tag.spliceFrom_false]
    cases items with
    | nil => rfl
    | cons item rest =>
      have content : ∀ text ∈ List.replicate (item :: rest).length "?",
          Text.hasContent text = true := by
        intro text member
        rw [List.eq_of_mem_replicate member]
        decide
      rw [Tag.splice_of_content false (by simp) content, if_neg (List.cons_ne_nil item rest)]
      rfl
  · rw [bindings, List.range_eq_range', List.flatMap_map]
    exact List.map_eq_flatMap.symm

/-- An iteration through the array at a path, around the placeholder for its items: it can be
    built and rendered for every parameter in which the path leads to an array. Without items the
    statement is empty, and otherwise it has a marker for each item, joined and put between the
    texts of the tag. The bindings are those of the items in their order, and their values are
    the items. The bound is that of an index, which is a number of sixty-four bits. -/
theorem binds_items (id : String) {names : List String} (some : names ≠ [])
    (words : ∀ name ∈ names, Text.Word name) {tag : Tag} (iterates : tag.handler = .iterate)
    (about : tag.property = Option.some (".".intercalate names)) (unmarked : tag.Unmarked)
    (building registry : Registry) {param : Value} {items : List Value}
    (resolves : param.get (".".intercalate names) = .ok (Option.some (.array items)))
    (bound : items.length ≤ UInt64.size) :
    ∃ template fragment,
      (draft id tag (".".intercalate names)).build building = .ok template ∧
      template.render registry param = .ok fragment ∧
      fragment.sql = (if items = [] then "" else
        tag.prepend.getD "" ++ tag.opening.getD "" ++
          (tag.conjunction.getD "").intercalate (List.replicate items.length "?") ++
          tag.closing.getD "") ∧
      fragment.bindings = (List.range items.length).map (binding (".".intercalate names)) ∧
      fragment.values param = .ok items := by
  let path := ".".intercalate names
  let text : TextPart := ⟨placeholder path, true, none⟩
  let occasion : Occasion := { cls := .unknown, converters := registry, param }
  have built : (draft id tag path).build building =
      .ok ⟨id, .unknown, [.tag 0 tag [.text 1 text]]⟩ := build_draft id iterates path building
  have numbered : Part.NumberedAll 0 [.tag 0 tag [.text 1 text]] :=
    ⟨⟨Nat.le_refl 0, trivial, trivial⟩, trivial⟩
  obtain ⟨fragment, after, ran, sql, bindings⟩ :=
    render_iteration some words iterates about registry resolves
  have ready : Part.EachOf TextPart.Unmarked Tag.Unmarked [.tag 0 tag [.text 1 text]] :=
    ⟨⟨unmarked, ⟨unmarked_placeholder words, nofun⟩, trivial⟩, trivial⟩
  have balanced := Part.balanced_of_renderAll numbered ready ran
  refine ⟨_, fragment, built, ?_, sql, bindings, ?_⟩
  · exact Template.render_eq_ok.mpr
      ⟨fragment, _, ran, substitute_of_noDollar balanced.noDollar, rfl⟩
  · rw [Fragment.values, bindings]
    exact values_of_bindings some words resolves bound

/-- Three items of different kinds. -/
theorem binds_items_of_order :
    let tag : Tag := { Tag.iterate "order.ids" with
      prepend := some "id in ", opening := some "(", conjunction := some ", ", closing := some ")" }
    let items : List Value := [.null, .bool true, .string "x"]
    let param : Value := .object [("order", .object [("ids", .array items)])]
    ∃ template fragment, (draft "q" tag "order.ids").build ({} : Registry) = .ok template ∧
      template.render ({} : Registry) param = .ok fragment ∧
      fragment.sql = "id in (?, ?, ?)" ∧
      fragment.bindings = [binding "order.ids" 0, binding "order.ids" 1, binding "order.ids" 2] ∧
      fragment.values param = .ok items := by
  intro tag items param
  have words : ∀ name ∈ ["order", "ids"], Text.Word name := by decide
  have about : tag.property = some (".".intercalate ["order", "ids"]) := rfl
  have unmarked : tag.Unmarked := by
    simp [tag, Tag.Unmarked, Tag.glue, Text.Unmarked]
  have resolves : param.get (".".intercalate ["order", "ids"]) = .ok (some (.array items)) := rfl
  obtain ⟨template, fragment, built, rendered, sql, bindings, values⟩ :=
    binds_items "q" (List.cons_ne_nil "order" ["ids"]) words rfl about unmarked {} {} resolves
      (by decide)
  exact ⟨template, fragment, built, rendered, sql, bindings, values⟩

end InList

end DynamicSql
