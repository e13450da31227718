import DynamicSql.Proofs.Correspondence.Templates

/-!
# A template inside one pass

An iteration over an array of one item, of which its body names no item, renders to its
body. The body is read during the pass and not in advance, its outermost tags stand
inside a tag and a loop is open around all of it; none of this can be seen.
-/

namespace DynamicSql

open Rendering

namespace Text

/-- A text names no item of the array at a path by an empty index. -/
def NamesNoItem (path text : String) : Prop := ¬ (path ++ "[]").toList <:+: text.toList

instance (path text : String) : Decidable (NamesNoItem path text) :=
  inferInstanceAs (Decidable (¬ _ <:+: _))

theorem replaceFrom_of_not_infix {pattern replacement text : List Char}
    (missing : ¬ pattern <:+: text) (mayBegin : Bool) :
    replaceFrom pattern replacement 0 mayBegin text = text := by
  induction text generalizing mayBegin with
  | nil => rfl
  | cons c rest ih =>
    rw [List.infix_cons_iff, not_or] at missing
    rw [replaceFrom_cons missing.1, ih missing.2]

section Pattern

variable {array : List Char} (opening : '[' ∉ array) (closing : ']' ∉ array)
include opening closing

/-- An empty index behind a path without brackets does not begin in front of the bracket that
    closes another index. -/
theorem not_prefix_of_closing {front behind : List Char} (noBracket : '[' ∉ front) :
    ¬ array ++ ['[', ']'] <+: front ++ ']' :: behind := by
  induction front generalizing array with
  | nil =>
    cases array with
    | nil => simp
    | cons c rest =>
      intro begins
      exact closing (by rw [(List.cons_prefix_cons.mp begins).1]; exact List.mem_cons_self)
  | cons d front ih =>
    rw [List.mem_cons, not_or] at noBracket
    cases array with
    | nil =>
      intro begins
      exact noBracket.1 (List.cons_prefix_cons.mp begins).1
    | cons c rest =>
      rw [List.mem_cons, not_or] at opening closing
      intro begins
      exact ih opening.2 closing.2 noBracket.2 (List.cons_prefix_cons.mp begins).2

/-- An empty index that occurs in a text with an index in front of it occurs behind that. -/
theorem infix_of_infix_closing {front behind : List Char} (noBracket : '[' ∉ front)
    (occurs : array ++ ['[', ']'] <:+: front ++ ']' :: behind) :
    array ++ ['[', ']'] <:+: behind := by
  induction front with
  | nil =>
    rcases List.infix_cons_iff.mp occurs with begins | later
    · exact absurd begins (not_prefix_of_closing opening closing List.not_mem_nil)
    · exact later
  | cons d front ih =>
    rcases List.infix_cons_iff.mp occurs with begins | later
    · exact absurd begins (not_prefix_of_closing opening closing noBracket)
    · exact ih (fun member => noBracket (List.mem_cons_of_mem d member)) later

omit closing in
/-- An empty index at the beginning of a filled text was there before. -/
theorem Filled.prefix_of_prefix {text after : List Char} (filled : Filled text after)
    (begins : array ++ ['[', ']'] <+: after) : array ++ ['[', ']'] <+: text := by
  obtain ⟨behind, rfl⟩ := begins
  induction array generalizing text with
  | nil =>
    generalize same : [] ++ ['[', ']'] ++ behind = whole at filled
    cases filled with
    | nil => cases same
    | keep _ rest =>
      cases same
      obtain ⟨others, rfl, -⟩ := rest.of_cons_right (by decide)
      exact ⟨others, rfl⟩
    | @fill index others _ _ =>
      exact ⟨others, rfl⟩
  | cons c rest ih =>
    rw [List.mem_cons, not_or] at opening
    obtain ⟨others, rfl, inner⟩ := filled.of_cons_right (Ne.symm opening.1)
    obtain ⟨behind, same⟩ := ih opening.2 inner
    exact ⟨behind, by rw [← same]; rfl⟩

/-- Filling brackets makes no new occurrence of an empty index. -/
theorem Filled.infix_of_infix (nonempty : array ≠ []) {text after : List Char}
    (filled : Filled text after) (occurs : array ++ ['[', ']'] <:+: after) :
    array ++ ['[', ']'] <:+: text := by
  induction filled with
  | nil => simp at occurs
  | @keep c text after rest ih =>
    rcases List.infix_cons_iff.mp occurs with begins | later
    · exact (Filled.prefix_of_prefix opening (.keep c rest) begins).isInfix
    · exact List.infix_cons (ih later)
  | @fill index text after rest ih =>
    have written : (Place.item index).chars ++ after =
        '[' :: (Nat.toDigits 10 index ++ ']' :: after) := by
      simp [Place.chars]
    have within : array ++ ['[', ']'] <:+: Nat.toDigits 10 index ++ ']' :: after := by
      rw [written] at occurs
      rcases List.infix_cons_iff.mp occurs with begins | later
      · cases array with
        | nil => exact absurd rfl nonempty
        | cons c rest =>
          rw [List.mem_cons, not_or] at opening
          exact absurd (List.cons_prefix_cons.mp begins).1.symm opening.1
      · exact later
    exact List.infix_cons (List.infix_cons
      (ih (infix_of_infix_closing opening closing
        (not_mem_toDigits isWordChar_opening index) within)))

end Pattern

/-- The fields of a path are words with dots between them. -/
theorem isWordChar_of_mem_path {names : List String} (words : ∀ name ∈ names, Word name) :
    ∀ c ∈ (".".intercalate names).toList, isWordChar c = true ∨ c = '.' := by
  induction names with
  | nil => simp
  | cons name rest ih =>
    obtain ⟨word, later⟩ := List.forall_mem_cons.mp words
    intro c member
    cases rest with
    | nil => exact .inl (word.chars c (by simpa using member))
    | cons next more =>
      rw [String.intercalate_cons_cons, String.toList_append, String.toList_append,
        List.mem_append, List.mem_append] at member
      rcases member with (here | dot) | inRest
      · exact .inl (word.chars c here)
      · exact .inr (by simpa using dot)
      · exact ih later c inRest

theorem path_ne_nil {names : List String} (nonempty : names ≠ [])
    (words : ∀ name ∈ names, Word name) : (".".intercalate names).toList ≠ [] := by
  cases names with
  | nil => exact absurd rfl nonempty
  | cons name rest =>
    have word := words name List.mem_cons_self
    cases rest with
    | nil => simpa using word.nonempty
    | cons next more =>
      rw [String.intercalate_cons_cons, String.toList_append, String.toList_append]
      simp

/-- A loop through the array at a path puts nothing into a text that names no item of it. -/
theorem spared_of_namesNoItem {names : List String} (nonempty : names ≠ [])
    (words : ∀ name ∈ names, Word name) {text : String}
    (free : NamesNoItem (".".intercalate names) text) :
    Spared (· = ".".intercalate names) text.toList := by
  have noSign {sign : Char} (special : isWordChar sign = false) (noDot : sign ≠ '.') :
      sign ∉ (".".intercalate names).toList := by
    intro member
    rcases isWordChar_of_mem_path words sign member with word | dot
    · cases word.symm.trans special
    · exact noDot dot
  intro loop array after filled body inside
  cases reached : loop.index with
  | none => rw [Loop.qualify, reached]
  | some index =>
    have named : loop.property.toList ≠ [] := by
      rw [array]
      exact path_ne_nil nonempty words
    have missing : ¬ loop.property.toList ++ ['[', ']'] <:+: body := by
      rw [array] at named ⊢
      intro occurs
      have before := Filled.infix_of_infix (noSign isWordChar_opening (by decide))
        (noSign isWordChar_closing (by decide)) named filled (occurs.trans inside)
      exact free (by simpa [String.toList_append] using before)
    rw [Loop.qualify_of_array named reached, replaceWhole, replaceFrom_of_not_infix missing]

end Text

namespace Tag

/-- The properties of a tag name no item of the array at a path by an empty index. -/
structure NamesNoItem (path : String) (tag : Tag) : Prop where
  property : ∀ property ∈ tag.property, Text.NamesNoItem path property
  compareProperty : ∀ property ∈ tag.compareProperty, Text.NamesNoItem path property

instance (path : String) (tag : Tag) : Decidable (tag.NamesNoItem path) :=
  decidable_of_iff ((∀ property ∈ tag.property, Text.NamesNoItem path property) ∧
      ∀ property ∈ tag.compareProperty, Text.NamesNoItem path property)
    ⟨fun ⟨property, compareProperty⟩ => ⟨property, compareProperty⟩,
      fun free => ⟨free.property, free.compareProperty⟩⟩

theorem spared_of_namesNoItem {names : List String} (nonempty : names ≠ [])
    (words : ∀ name ∈ names, Text.Word name) {tag : Tag}
    (free : tag.NamesNoItem (".".intercalate names)) :
    tag.Spared (· = ".".intercalate names) where
  property property named :=
    Text.spared_of_namesNoItem nonempty words (free.property property named)
  compareProperty property named :=
    Text.spared_of_namesNoItem nonempty words (free.compareProperty property named)

/-- An iteration without other attributes leaves the fragment of a pass as it is. -/
theorem endPass_iterate (path : String) (parent : Option Tag) (inner : Fragment)
    (frames : Frames) : ((iterate path).endPass parent inner frames).1.1 = inner := by
  obtain ⟨markers, loops⟩ := frames
  cases loops with
  | nil => rfl
  | cons loop outer =>
    have ended := endPass_through (present? path) parent inner
      (rfl : (Frames.mk markers (loop :: outer)).loops = loop :: outer)
    exact congrArg (·.1.1) ended

/-- One pass of such an iteration. -/
theorem run'_passes_one (path : String) (parent : Option Tag) (body : Rendering Fragment)
    {frames : Frames} (next : frames.loops.head?.any Loop.hasNext = true) :
    ((iterate path).passes parent body 1).run' frames = body.run' frames := by
  rw [passes, run'_get_bind, next]
  simp only [Bool.not_true, Bool.false_eq_true, ↓reduceIte]
  rw [run'_bind, StateT.run'_eq]
  cases body.run frames with
  | error e => rfl
  | ok outcome =>
    obtain ⟨inner, middle⟩ := outcome
    have same := endPass_iterate path parent inner middle
    show StateT.run' (modifyGet _ >>= _) middle = Except.ok inner
    rw [run'_modifyGet_bind]
    generalize (iterate path).endPass parent inner middle = ended at same ⊢
    obtain ⟨⟨fragment, isLast⟩, after⟩ := ended
    dsimp only at same ⊢
    subst same
    cases isLast with
    | true => rfl
    | false => exact congrArg Except.ok (Fragment.append_empty fragment)

/-- An iteration over an array of one item, at a place outside every loop. -/
theorem run'_iterateOver_one {occasion : Occasion} {path : String} {item : Value}
    (named : path.toList ≠ []) (found : occasion.param.get path = .ok (some (.array [item])))
    (parent : Option Tag) (id : Nat) (body : Rendering Fragment) (markers : List Marker) :
    ((iterate path).iterateOver occasion parent id body).run' ⟨markers, []⟩ =
      body.run' ⟨markers, [{ tag := id, size := 1, property := path }]⟩ := by
  have property : (iterate path).property = some path := by
    simp_all [iterate, present?]
  have collected : (occasion.collection (iterate path)).run ⟨markers, []⟩ =
      .ok ((path, [item]), ⟨markers, []⟩) := by
    refine Occasion.collection_eq_ok.mpr (Occasion.subject_eq_ok.mpr (.inl ⟨path, property, ?_⟩))
    exact Occasion.look_eq_ok.mpr ⟨rfl, String.ofList_toList.symm, found⟩
  rw [iterateOver, run'_bind, collected]
  exact (run'_modify_bind _ _ _).trans
    ((run'_bind_modify _ _ _).trans (run'_passes_one path parent body rfl))

end Tag

/-- All nodes of a template inside a tag. -/
def Draft.wrap (draft : Draft) (tag : Tag) : Draft := { draft with nodes := [.tag tag draft.nodes] }

/-- A template inside an iteration over an array of one item. -/
theorem Part.assemble_iterate {occasion : Occasion} {path : String} {item : Value}
    (named : path.toList ≠ []) (found : occasion.param.get path = .ok (some (.array [item])))
    (parts : List Part) :
    assemble occasion [.tag 0 (Tag.iterate path) parts] =
      (renderAll occasion (some (Tag.iterate path)) parts).run'
        ⟨[⟨0, false⟩], [{ tag := 0, size := 1, property := path }]⟩ := by
  have alone : renderAll occasion none [.tag 0 (Tag.iterate path) parts] =
      (Tag.iterate path).around occasion none 0
        (renderAll occasion (some (Tag.iterate path)) parts) := by
    simp only [renderAll, render, pure_bind, Fragment.append_empty, bind_pure]
  rw [assemble, alone, Tag.around, run'_modify_bind]
  exact (run'_bind_modify _ _ _).trans (Tag.run'_iterateOver_one named found none 0 _ _)

namespace Template

theorem build_wrap {draft : Draft} {converters : Converters} {path : String}
    {parts : List Part}
    (built : Node.buildAll draft.cls converters true 1 draft.nodes = .ok parts) :
    (draft.wrap (Tag.iterate path)).build converters =
      .ok ⟨draft.id, draft.cls, [.tag 0 (Tag.iterate path) parts]⟩ :=
  bind_eq_ok_iff.mpr ⟨_, Node.buildAll_through (Tag.present? path) built, rfl⟩

/-- A template inside an iteration over an array of one item, of which it names no item,
    renders as it does outside, and fails as it does outside. -/
theorem render_wrap {draft : Draft} {converters : Converters} {template : Template}
    {names : List String} (nonempty : names ≠ []) (words : ∀ name ∈ names, Text.Word name)
    (built : draft.build converters = .ok template)
    (free : Node.EachOf (Text.NamesNoItem (".".intercalate names))
      (Tag.NamesNoItem (".".intercalate names)) draft.nodes) :
    ∃ wrapped, (draft.wrap (Tag.iterate (".".intercalate names))).build converters =
        .ok wrapped ∧
      ∀ param item, param.get (".".intercalate names) = .ok (some (.array [item])) →
        wrapped.render converters param = template.render converters param := by
  obtain ⟨parts, builtParts, last⟩ := bind_eq_ok_iff.mp built
  cases last
  obtain ⟨inside, builtInside⟩ := Node.exists_buildAll (by simp) 1 draft.nodes builtParts
  refine ⟨_, build_wrap builtInside, fun param item found => ?_⟩
  let surroundings : Occasion := { cls := draft.cls, converters, param }
  let outer : Frames :=
    ⟨[⟨0, false⟩], [{ tag := 0, size := 1, property := ".".intercalate names }]⟩
  have twin : Frames.Twin (· = ".".intercalate names) {} outer := by
    refine ⟨fun place => ?_, .outside (by simp [outer])⟩
    cases place <;> rfl
  have meet : Frames.Meet (· = ".".intercalate names) 0 1 false {} outer :=
    ⟨twin, by simp [Frames.Below], by simp [Frames.Below, outer], fun _ => rfl⟩
  have outside : Tag.SameOutside none (some (Tag.iterate (".".intercalate names))) {} := by
    refine .inr ⟨rfl, fun _ => rfl, fun tag member => ?_⟩
    cases member
    rfl
  have spared : Node.SparedOf (· = ".".intercalate names) draft.nodes :=
    free.mono (fun _ => Text.spared_of_namesNoItem nonempty words)
      fun _ => Tag.spared_of_namesNoItem nonempty words
  have same : Part.assemble surroundings parts =
      Part.assemble surroundings [.tag 0 (Tag.iterate (".".intercalate names)) inside] := by
    rw [Part.assemble_iterate (Text.path_ne_nil nonempty words) found]
    exact (Node.renderAll_corresponds (by simp) draft.nodes spared builtParts builtInside meet
      outside).run'
  rw [render_eq_assemble, render_eq_assemble]
  exact congrArg (· >>= _) same.symm

/-- A condition and a list inside one pass over the rows of a page. Without a list the fault
    is the one it is outside. -/
theorem render_wrap_of_page :
    let named : Tag := { Tag.conditional .isNotNull "name" with prepend := some " WHERE " }
    let ids : Tag :=
      { Tag.iterate "ids" with prepend := some " AND ", conjunction := some " OR " }
    let draft : Draft :=
      { id := "q", nodes := [.text "SELECT id FROM t", .tag named [.text "name = #name#"],
          .tag ids [.text "id = #ids[]#"]] }
    let page (items : Value) : Value :=
      .object [("page", .object [("rows", .array [.null])]), ("name", .string "Ann"),
        ("ids", items)]
    ∃ wrapped, (draft.wrap (Tag.iterate "page.rows")).build ({} : Registry) = .ok wrapped ∧
      (wrapped.render ({} : Registry) (page (.array [.string "1", .string "2"]))).map
          Fragment.sql =
        .ok "SELECT id FROM t WHERE name = ? AND id = ? OR id = ?" ∧
      wrapped.render ({} : Registry) (page .null) =
        .error (.binding "ids" "unknown" (.notACollection "null")) := by
  intro named ids draft page
  let template : Template :=
    { id := "q", cls := .unknown,
      parts := [.text 0 ⟨"SELECT id FROM t", false, some ⟨"SELECT id FROM t", []⟩⟩,
        .tag 1 named [.text 2 ⟨"name = #name#", false, some ⟨"name = ?",
          [{ property := "name", converter := ⟨"unknown", .unknown, none⟩ }]⟩⟩],
        .tag 3 ids [.text 4 ⟨"id = #ids[]#", true, none⟩]] }
  have built : draft.build ({} : Registry) = .ok template := by rfl
  have words : ∀ name ∈ ["page", "rows"], Text.Word name := by decide
  have free : Node.EachOf (Text.NamesNoItem (".".intercalate ["page", "rows"]))
      (Tag.NamesNoItem (".".intercalate ["page", "rows"])) draft.nodes := by
    dsimp only [draft, named, ids, Node.EachOf, Node.Each]
    decide +kernel
  obtain ⟨wrapped, builtWrapped, same⟩ := render_wrap (by simp) words built free
  refine ⟨wrapped, builtWrapped, ?_, ?_⟩
  · rw [same (page (.array [.string "1", .string "2"])) .null (by rfl)]
    dsimp only [template, page, ids, named]
    decide +kernel
  · rw [same (page .null) .null (by rfl)]
    dsimp only [template, page, ids, named]
    decide +kernel

end Template

end DynamicSql
