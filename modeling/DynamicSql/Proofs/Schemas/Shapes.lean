import DynamicSql.Proofs.Correspondence.Texts
import DynamicSql.Proofs.Nesting.Placeholder
import DynamicSql.Proofs.Paths.Printing
import DynamicSql.Proofs.Rendering.Conditions
import Mathlib.Data.List.Find

/-!
# Shapes of paths

A schema knows a property by its path without what stands between brackets. Of a path that is
written as names and brackets this leaves the names and the places of the brackets, no less and
no more. So the kind of a property is that of the last declaration with the same names and
brackets, whatever stands in the brackets, and the placeholder for the items of an array is
given the converter of the empty index in every pass of every iteration.
-/

namespace DynamicSql

/-- A step of a path as it is written: the name of a field, or brackets with an index in them or
    nothing. -/
inductive WrittenStep where
  | field (name : String)
  | brackets (index : List Char)
  deriving DecidableEq

namespace WrittenStep

/-- A step that can be told apart from those around it. The name of a field has no sign of paths
    in it and no blanks around it, and what stands in brackets, digits or anything else, has no
    bracket in it. -/
inductive Legible : WrittenStep → Prop
  | field {name : String} (nonempty : name ≠ "") (trimmed : Text.trim name = name)
      (noDot : '.' ∉ name.toList) (noOpening : '[' ∉ name.toList)
      (noClosing : ']' ∉ name.toList) : Legible (.field name)
  | brackets {index : List Char} (noOpening : '[' ∉ index) (noClosing : ']' ∉ index) :
      Legible (.brackets index)

/-- The name of a field; brackets have none. -/
def name? : WrittenStep → Option String
  | field name => some name
  | brackets _ => none

/-- The step without an index in its brackets. -/
def emptied : WrittenStep → WrittenStep
  | field name => field name
  | brackets _ => brackets []

/-- A step as it is written at the beginning of a path. -/
def chars : WrittenStep → List Char
  | field name => name.toList
  | brackets index => '[' :: (index ++ [']'])

/-- A step as it is written behind another one. -/
def charsBehind : WrittenStep → List Char
  | field name => '.' :: name.toList
  | brackets index => (brackets index).chars

/-- The text of a path: the names of fields are joined by dots, and brackets stand where they
    are. -/
def print : List WrittenStep → String
  | [] => ""
  | first :: rest => String.ofList (first.chars ++ rest.flatMap charsBehind)

/-- The path to an item of an array, with the given index or with nothing in its brackets. -/
def item (array : List WrittenStep) (index : List Char) : List WrittenStep :=
  array ++ [.brackets index]

/-- The names of the fields in a path and the places of its brackets. -/
def outline (path : List WrittenStep) : List (Option String) := path.map name?

/-- The steps that the pieces of a path stand for. -/
def ofPieces : List Path.Piece → List WrittenStep
  | [] => []
  | .name content :: rest => field (String.ofList content) :: ofPieces rest
  | .bracketed content :: rest => brackets content :: ofPieces rest
  | .dot :: rest => ofPieces rest
  | .unclosed :: rest => ofPieces rest

theorem name?_emptied (step : WrittenStep) : step.emptied.name? = step.name? := by
  cases step <;> rfl

theorem emptied_eq (step : WrittenStep) :
    step.emptied = (step.name?.map field).getD (brackets []) := by
  cases step <;> rfl

/-- Without their indexes two paths are the same if they have the same outline. -/
theorem map_emptied_eq_iff {path other : List WrittenStep} :
    path.map emptied = other.map emptied ↔ outline path = outline other := by
  constructor
  · intro same
    have names := congrArg (List.map name?) same
    simpa only [outline, List.map_map, Function.comp_def, name?_emptied] using names
  · intro same
    have steps := congrArg (List.map fun name => (name.map field).getD (brackets [])) same
    simpa only [outline, List.map_map, Function.comp_def, ← emptied_eq] using steps

theorem Legible.emptied {step : WrittenStep} (legible : step.Legible) : step.emptied.Legible := by
  cases legible with
  | field nonempty trimmed noDot noOpening noClosing =>
    exact .field nonempty trimmed noDot noOpening noClosing
  | brackets => exact .brackets (by simp) (by simp)

theorem Legible.snug {step : WrittenStep} (legible : step.Legible) : Text.Snug step.chars := by
  cases legible with
  | @field name nonempty trimmed =>
    refine ⟨by simpa [chars] using nonempty, ?_⟩
    rw [Text.trim, ← String.toList_inj, String.toList_ofList] at trimmed
    exact trimmed
  | @brackets index =>
    -- Nothing is dropped up to the opening bracket, nor from the closing one on.
    refine ⟨List.cons_ne_nil '[' _, Text.trimChars_eq_self_iff.mpr ⟨?_, ?_⟩⟩
    · exact List.dropWhile_cons_of_neg (by decide)
    · have last : (chars (.brackets index)).reverse = ']' :: (index.reverse ++ ['[']) := by
        simp [chars]
      rw [last]
      exact List.dropWhile_cons_of_neg (by decide)

theorem Legible.snug_behind {step : WrittenStep} (legible : step.Legible) :
    Text.Snug step.charsBehind := by
  cases step with
  | field name =>
    have dot : Text.Snug ['.'] := ⟨List.cons_ne_nil '.' [], by decide⟩
    exact dot.append legible.snug
  | brackets index => exact legible.snug

theorem legible_blank : (brackets []).Legible := .brackets (by simp) (by simp)

theorem legible_item {array : List WrittenStep} (readable : ∀ step ∈ array, step.Legible)
    {index : List Char} (indexed : (brackets index).Legible) :
    ∀ step ∈ item array index, step.Legible := by
  intro step member
  rcases List.mem_append.mp member with inArray | last
  · exact readable step inArray
  · rw [List.mem_singleton.mp last]
    exact indexed

/-- All items of an array have one outline. -/
theorem outline_item (array : List WrittenStep) (index : List Char) :
    outline (item array index) = outline (item array []) := by
  simp [outline, item, name?]

section Text

variable {path other : List WrittenStep}

/-- A path has no blanks around it. -/
theorem trimChars_print (legible : ∀ step ∈ path, step.Legible) :
    Text.trimChars (print path).toList = (print path).toList := by
  cases path with
  | nil => rfl
  | cons first rest =>
    obtain ⟨here, later⟩ := List.forall_mem_cons.mp legible
    have behind : ∀ step ∈ rest, Text.Snug step.charsBehind :=
      fun step member => (later step member).snug_behind
    rw [print, String.toList_ofList, (here.snug.append_flatMap behind).trimmed]

/-- No name begins behind a step. -/
theorem noName_charsBehind (legible : ∀ step ∈ path, step.Legible) :
    Path.NoName (Path.pieces none (path.flatMap charsBehind)) := by
  intro content rest same
  cases path with
  | nil => cases same
  | cons step more =>
    have here := legible step List.mem_cons_self
    rw [List.flatMap_cons] at same
    cases here with
    | field =>
      rw [charsBehind, List.cons_append, Path.pieces_dot] at same
      cases same
    | brackets noOpening noClosing =>
      rw [charsBehind, chars, List.cons_append, List.append_assoc, List.singleton_append,
        Path.pieces_bracketed noClosing] at same
      cases same

/-- The name of a field is read up to what stands behind it. -/
theorem pieces_field {name : String} (legible : (field name).Legible)
    (others : ∀ step ∈ path, step.Legible) :
    Path.pieces none (name.toList ++ path.flatMap charsBehind) =
      .name name.toList :: Path.pieces none (path.flatMap charsBehind) := by
  cases legible with
  | field nonempty _ noDot noOpening =>
    have filled : name.toList ≠ [] := by simpa using nonempty
    exact Path.pieces_name filled noDot noOpening (noName_charsBehind others)

theorem pieces_brackets {index : List Char} (legible : (brackets index).Legible)
    (rest : List Char) :
    Path.pieces none ((brackets index).chars ++ rest) =
      .bracketed index :: Path.pieces none rest := by
  cases legible with
  | brackets _ noClosing =>
    rw [chars, List.cons_append, List.append_assoc, List.singleton_append,
      Path.pieces_bracketed noClosing]

/-- The steps behind another one are read off their text. -/
theorem ofPieces_charsBehind (legible : ∀ step ∈ path, step.Legible) :
    ofPieces (Path.pieces none (path.flatMap charsBehind)) = path := by
  induction path with
  | nil => rfl
  | cons step rest ih =>
    obtain ⟨here, later⟩ := List.forall_mem_cons.mp legible
    rw [List.flatMap_cons]
    cases step with
    | field name =>
      rw [charsBehind, List.cons_append, Path.pieces_dot, pieces_field here later, ofPieces,
        ofPieces, ih later, String.ofList_toList]
    | brackets index =>
      rw [charsBehind, pieces_brackets here, ofPieces, ih later]

/-- The steps of a path are read off its text. -/
theorem ofPieces_print (legible : ∀ step ∈ path, step.Legible) :
    ofPieces (Path.pieces none (print path).toList) = path := by
  cases path with
  | nil => rfl
  | cons first rest =>
    obtain ⟨here, later⟩ := List.forall_mem_cons.mp legible
    rw [print, String.toList_ofList]
    cases first with
    | field name =>
      rw [chars, pieces_field here later, ofPieces, ofPieces_charsBehind later,
        String.ofList_toList]
    | brackets index =>
      rw [pieces_brackets here, ofPieces, ofPieces_charsBehind later]

/-- Different paths have different texts. -/
theorem print_inj (legible : ∀ step ∈ path, step.Legible)
    (otherLegible : ∀ step ∈ other, step.Legible) : print path = print other ↔ path = other := by
  constructor
  · intro same
    rw [← ofPieces_print legible, ← ofPieces_print otherLegible, same]
  · intro same
    rw [same]

end Text

end WrittenStep

theorem Text.Filled.ne_nil {text after : List Char} (filled : Filled text after)
    (nonempty : text ≠ []) : after ≠ [] := by
  cases filled with
  | nil => exact nonempty
  | keep => exact List.cons_ne_nil _ _
  | fill => exact List.cons_ne_nil _ _

namespace Schema

open WrittenStep

/-- Outside brackets everything stays. -/
theorem dropIndexes_name {name : List Char} (noOpening : '[' ∉ name) (noClosing : ']' ∉ name)
    (rest : List Char) :
    dropIndexes false (name ++ rest) = name ++ dropIndexes false rest := by
  induction name with
  | nil => rfl
  | cons c cs ih =>
    rw [List.mem_cons, not_or] at noOpening noClosing
    rw [List.cons_append, dropIndexes, if_neg (Ne.symm noOpening.1), if_neg (Ne.symm noClosing.1),
      if_neg Bool.false_ne_true, ih noOpening.2 noClosing.2, List.cons_append]

/-- Inside brackets nothing stays. -/
theorem dropIndexes_index {index : List Char} (noOpening : '[' ∉ index) (noClosing : ']' ∉ index)
    (rest : List Char) :
    dropIndexes true (index ++ ']' :: rest) = ']' :: dropIndexes false rest := by
  induction index with
  | nil => simp [dropIndexes]
  | cons c cs ih =>
    rw [List.mem_cons, not_or] at noOpening noClosing
    rw [List.cons_append, dropIndexes, if_neg (Ne.symm noOpening.1), if_neg (Ne.symm noClosing.1),
      if_pos rfl, ih noOpening.2 noClosing.2]

theorem dropIndexes_brackets {index : List Char} (noOpening : '[' ∉ index)
    (noClosing : ']' ∉ index) (inside : Bool) (rest : List Char) :
    dropIndexes inside ('[' :: (index ++ ']' :: rest)) = '[' :: ']' :: dropIndexes false rest := by
  rw [dropIndexes, if_pos rfl, dropIndexes_index noOpening noClosing]

/-- Indexes that are put into empty brackets are dropped again. -/
theorem dropIndexes_filled {text after : List Char} (filled : Text.Filled text after)
    (inside : Bool) : dropIndexes inside after = dropIndexes inside text := by
  induction filled generalizing inside with
  | nil => rfl
  | keep c _ ih => simp only [dropIndexes, ih]
  | fill index _ ih =>
    have noOpening := Text.not_mem_toDigits Text.isWordChar_opening index
    have noClosing := Text.not_mem_toDigits Text.isWordChar_closing index
    rw [Place.chars, List.cons_append, List.append_assoc, List.singleton_append,
      dropIndexes_brackets noOpening noClosing, ih]
    simp [dropIndexes]

section Outline

variable {path other : List WrittenStep}

theorem dropIndexes_charsBehind (legible : ∀ step ∈ path, step.Legible) :
    dropIndexes false (path.flatMap charsBehind) = (path.map emptied).flatMap charsBehind := by
  induction path with
  | nil => rfl
  | cons step rest ih =>
    obtain ⟨here, later⟩ := List.forall_mem_cons.mp legible
    rw [List.map_cons, List.flatMap_cons, List.flatMap_cons, ← ih later]
    cases here with
    | @field name _ _ _ noOpening noClosing =>
      have noOpening : '[' ∉ '.' :: name.toList := by simp [noOpening]
      have noClosing : ']' ∉ '.' :: name.toList := by simp [noClosing]
      exact dropIndexes_name noOpening noClosing _
    | brackets noOpening noClosing =>
      rw [charsBehind, chars, List.cons_append, List.append_assoc, List.singleton_append,
        dropIndexes_brackets noOpening noClosing]
      rfl

/-- The shape of a path is its text with empty brackets. -/
theorem shape_print (legible : ∀ step ∈ path, step.Legible) :
    shape (print path) = print (path.map emptied) := by
  rw [shape, trimChars_print legible]
  cases path with
  | nil => rfl
  | cons first rest =>
    obtain ⟨here, later⟩ := List.forall_mem_cons.mp legible
    rw [List.map_cons, print, print, String.toList_ofList, ← dropIndexes_charsBehind later]
    cases here with
    | field _ _ _ noOpening noClosing =>
      rw [chars, dropIndexes_name noOpening noClosing]
      rfl
    | brackets noOpening noClosing =>
      rw [chars, List.cons_append, List.append_assoc, List.singleton_append,
        dropIndexes_brackets noOpening noClosing]
      rfl

/-- Paths have the same shape if they have the same names and brackets, and only then. -/
theorem shape_print_eq_iff (legible : ∀ step ∈ path, step.Legible)
    (otherLegible : ∀ step ∈ other, step.Legible) :
    shape (print path) = shape (print other) ↔ outline path = outline other := by
  have emptied {steps : List WrittenStep} (each : ∀ step ∈ steps, step.Legible) :
      ∀ step ∈ steps.map emptied, step.Legible := by
    intro step member
    obtain ⟨source, among, rfl⟩ := List.mem_map.mp member
    exact (each source among).emptied
  rw [shape_print legible, shape_print otherLegible,
    print_inj (emptied legible) (emptied otherLegible), map_emptied_eq_iff]

end Outline

/-- Declares the kinds of some properties, one after the other. -/
def declareAll (schema : Schema) (declarations : List (String × ValueKind)) : Schema :=
  declarations.foldl (fun schema declaration => schema.declare declaration.1 declaration.2) schema

/-- The last declaration of a shape decides, and without one what was known before. -/
theorem kind?_declareAll (schema : Schema) (declarations : List (String × ValueKind))
    (path : String) :
    (schema.declareAll declarations).kind? path =
      ((declarations.reverse.find? fun declaration => shape declaration.1 = shape path).map
        Prod.snd).or (schema.kind? path) := by
  induction declarations generalizing schema with
  | nil => rfl
  | cons declaration rest ih =>
    have step := ih (schema.declare declaration.1 declaration.2)
    rw [declareAll, List.foldl_cons, ← declareAll, step, kind?_declare, List.reverse_cons,
      List.find?_append, List.find?_singleton]
    generalize rest.reverse.find? _ = last
    by_cases same : shape path = shape declaration.1
    · cases last <;> simp [same]
    · cases last <;> simp [same, Ne.symm same]

/-- The text of a placeholder for a path and nothing else. -/
def placeholder (path : String) : String := "#" ++ path ++ "#"

/-- A property is given a converter by its kind. -/
theorem converter_of_kind? {schema : Schema} {property : String} {converters : Converters}
    {converter : Converter} :
    Declaration.converter { property } (.record schema.probe) converters = .ok converter ↔
      ∃ kind, schema.kind? property = some kind ∧
        converters.lookup kind none = some converter := by
  cases known : schema.probe.kind? property with
  | none =>
    have none : schema.kind? property = none := known
    have asked : Declaration.kind { property } (.record schema.probe) converters =
        .error (.binding property schema.name .noSuchProperty) := by
      simp only [Declaration.kind, known]
      rfl
    simp [Declaration.converter, bind_eq_ok_iff, asked, none]
  | some kind =>
    have some : schema.kind? property = some kind := known
    have asked : Declaration.kind { property } (.record schema.probe) converters = .ok kind := by
      simp only [Declaration.kind, known]
    simp only [Declaration.converter, bind_eq_ok_iff, asked, some]
    cases found : converters.lookup kind none with
    | none => simp [found, throw, throwThe, MonadExceptOf.throw]
    | some known => simp [found, pure, Except.pure]

/-- The loops around a place change no kind. -/
theorem kind?_qualify (schema : Schema) (frames : Frames) {path : List Char}
    (address : ∀ c ∈ path, Text.isAddressChar c = true) :
    schema.kind? (String.ofList (frames.qualify path)) = schema.kind? (String.ofList path) := by
  have qualified : ∀ c ∈ frames.qualify path, Text.isAddressChar c = true :=
    frames.forall_mem_qualify (by decide) (by decide)
      (fun _ => Text.isAddressChar_of_isDigit) address
  have untrimmed {text : List Char} (chars : ∀ c ∈ text, Text.isAddressChar c = true) :
      Text.trimChars text = text :=
    Text.trimChars_of_not_isBlank fun c member => Text.not_isBlank_of_isAddressChar (chars c member)
  have same : shape (String.ofList (frames.qualify path)) = shape (String.ofList path) := by
    rw [shape, shape, String.toList_ofList, String.toList_ofList, untrimmed qualified,
      untrimmed address, dropIndexes_filled (frames.filled_qualify path)]
  rw [kind?, kind?, same]

/-- In every pass of every iteration the placeholder for a property is bound by the converter of
    the kind that the schema gives to the property as it is written, without the indexes of the
    loops; and it is refused if there is no such kind or converter. -/
def BindsAsWritten (schema : Schema) (path : String) : Prop :=
  ∀ (occasion : Occasion) (frames after : Frames) (fragment : Fragment),
    occasion.cls = .record schema.probe →
    ((TextPart.render occasion ⟨placeholder path, true, none⟩).run frames =
        .ok (fragment, after) ↔
      after = frames.advance ∧ ∃ kind converter, schema.kind? path = some kind ∧
        occasion.converters.lookup kind none = some converter ∧
        fragment = .marker ⟨{ property := frames.locate path }, converter⟩)

theorem bindsAsWritten (schema : Schema) {path : String} (nonempty : path ≠ "")
    (address : ∀ c ∈ path.toList, Text.isAddressChar c = true) : schema.BindsAsWritten path := by
  intro occasion frames after fragment declared
  have chars : placeholder path = String.ofList ('#' :: (path.toList ++ ['#'])) := by
    rw [← String.toList_inj, String.toList_ofList]
    simp [placeholder]
  have content : Text.hasContent (placeholder path) = true := by
    have sign : Text.isBlank '#' = false := by decide
    simp [chars, Text.hasContent, sign]
  have qualified : ∀ c ∈ frames.advance.qualify path.toList, Text.isAddressChar c = true :=
    frames.advance.forall_mem_qualify (by decide) (by decide)
      (fun _ => Text.isAddressChar_of_isDigit) address
  have filled : frames.advance.qualify path.toList ≠ [] :=
    (frames.advance.filled_qualify path.toList).ne_nil (by simpa using nonempty)
  have read : (TextPart.render occasion ⟨placeholder path, true, none⟩).run frames =
        .ok (fragment, after) ↔
      after = frames.advance ∧ Fragment.parse occasion.cls occasion.converters
        (frames.advance.qualifyPlaceholders (placeholder path)) = .ok fragment := by
    rw [TextPart.render_eq_ok]
    simp [content]
  rw [read, chars, Frames.qualifyPlaceholders_address _ address, declared,
    Fragment.parse_address_eq_ok filled qualified]
  refine and_congr_right fun _ => ?_
  constructor
  · rintro ⟨converter, found, rfl⟩
    obtain ⟨kind, known, usual⟩ := converter_of_kind?.mp found
    rw [kind?_qualify schema _ address, String.ofList_toList] at known
    exact ⟨kind, converter, known, usual, rfl⟩
  · rintro ⟨kind, converter, known, usual, rfl⟩
    refine ⟨converter, converter_of_kind?.mpr ⟨kind, ?_, usual⟩, rfl⟩
    rw [kind?_qualify schema _ address, String.ofList_toList, known]

/-- For properties that are declared one after the other under written paths, the kind of a
    written path is that of the last declaration with the same names of fields and the same places
    of brackets, and there is none without one. So all items of an array have the kind that is
    declared for the empty index, and the placeholder for the items is bound by its converter in
    every pass. -/
theorem kind?_of_outline (name : String) {declarations : List (List WrittenStep × ValueKind)}
    (legible : ∀ declaration ∈ declarations, ∀ step ∈ declaration.1, step.Legible) :
    let schema := ({ name } : Schema).declareAll
      (declarations.map fun declaration => (print declaration.1, declaration.2))
    (∀ query : List WrittenStep, (∀ step ∈ query, step.Legible) →
      schema.kind? (print query) =
        (declarations.reverse.find? fun declaration => outline declaration.1 = outline query).map
          Prod.snd) ∧
    ∀ array : List WrittenStep, (∀ step ∈ array, step.Legible) →
      (∀ index, (brackets index).Legible →
        schema.kind? (print (item array index)) = schema.kind? (print (item array []))) ∧
      ((∀ c ∈ (print (item array [])).toList, Text.isAddressChar c = true) →
        schema.BindsAsWritten (print (item array []))) := by
  intro schema
  have decided : ∀ query : List WrittenStep, (∀ step ∈ query, step.Legible) →
      schema.kind? (print query) =
        (declarations.reverse.find? fun declaration => outline declaration.1 = outline query).map
          Prod.snd := by
    intro query queried
    have nothing : ({ name } : Schema).kind? (print query) = none := rfl
    have found : (declarations.reverse.find? fun declaration =>
          shape (print declaration.1) = shape (print query)) =
        declarations.reverse.find? fun declaration => outline declaration.1 = outline query := by
      apply List.find?_congr
      intro declaration member
      have written := legible declaration (List.mem_reverse.mp member)
      exact decide_eq_decide.mpr (shape_print_eq_iff written queried)
    rw [kind?_declareAll, nothing, Option.or_none, ← List.map_reverse, List.find?_map,
      Option.map_map, ← found]
    simp only [Function.comp_def]
  refine ⟨decided, fun array readable => ⟨?_, ?_⟩⟩
  · intro index indexed
    rw [decided _ (legible_item readable indexed), decided _ (legible_item readable legible_blank),
      outline_item]
  · intro address
    have nonempty : print (item array []) ≠ "" := by
      intro empty
      have noSteps : ∀ step ∈ ([] : List WrittenStep), step.Legible := nofun
      have same := (print_inj (legible_item readable legible_blank) noSteps).mp empty
      exact List.append_ne_nil_of_right_ne_nil array (List.cons_ne_nil _ _) same
    exact schema.bindsAsWritten nonempty address

/-- A property that is declared twice with different indexes, one behind an index, and the array
    itself, which is not declared; and the placeholder for its items in the second pass of an
    iteration through it. -/
theorem kind?_of_outline_in_order :
    let ids : List WrittenStep := [.field "ids"]
    let quantity (index : List Char) : List WrittenStep :=
      [.field "lines", .brackets index, .field "qty"]
    let schema := ({ name := "order" } : Schema).declareAll
      ([(item ids [], .long), (quantity [], .integer), (item ids ['7'], .decimal)].map
        fun declaration => (print declaration.1, declaration.2))
    let occasion : Occasion :=
      { cls := .record schema.probe, converters := ({} : Registry), param := .null }
    let second : Frames := ⟨[], [{ tag := 0, size := 3, property := "ids", index := some 0 }]⟩
    schema.kind? "ids[12]" = some .decimal ∧ schema.kind? "lines[3].qty" = some .integer ∧
      schema.kind? "ids" = none ∧
      (TextPart.render occasion ⟨"#ids[]#", true, none⟩).run second =
        .ok (.marker ⟨{ property := "ids[1]" }, Registry.usual .decimal none⟩,
          second.advance) := by
  intro ids quantity schema occasion second
  have field {name : String} (plain : name ≠ "" ∧ Text.trim name = name ∧ '.' ∉ name.toList ∧
      '[' ∉ name.toList ∧ ']' ∉ name.toList) : (WrittenStep.field name).Legible :=
    .field plain.1 plain.2.1 plain.2.2.1 plain.2.2.2.1 plain.2.2.2.2
  have idsLegible : ∀ step ∈ ids, step.Legible := by
    intro step member
    rw [List.mem_singleton.mp member]
    exact field (by decide)
  have quantityLegible {index : List Char} (indexed : (brackets index).Legible) :
      ∀ step ∈ quantity index, step.Legible := by
    simp only [quantity, List.forall_mem_cons, List.not_mem_nil, false_implies, implies_true,
      and_true]
    exact ⟨field (by decide), indexed, field (by decide)⟩
  have digits {index : List Char} (plain : '[' ∉ index ∧ ']' ∉ index) :
      (brackets index).Legible := .brackets plain.1 plain.2
  have legible : ∀ declaration ∈
      [(item ids [], ValueKind.long), (quantity [], .integer), (item ids ['7'], .decimal)],
      ∀ step ∈ declaration.1, step.Legible := by
    simp only [List.forall_mem_cons, List.not_mem_nil, false_implies, implies_true, and_true]
    exact ⟨legible_item idsLegible legible_blank, quantityLegible legible_blank,
      legible_item idsLegible (digits (by decide))⟩
  obtain ⟨decided, items⟩ := kind?_of_outline "order" legible
  obtain ⟨-, bound⟩ := items ids idsLegible
  refine ⟨?_, ?_, ?_, ?_⟩
  · exact decided (item ids ['1', '2']) (legible_item idsLegible (digits (by decide)))
  · exact decided (quantity ['3']) (quantityLegible (digits (by decide)))
  · exact decided ids idsLegible
  · have kind : schema.kind? (print (item ids [])) = some .decimal :=
      decided (item ids []) (legible_item idsLegible legible_blank)
    have there : second.locate (print (item ids [])) = "ids[1]" := by decide +kernel
    have written : print (item ids []) = "ids[]" := rfl
    have address : ∀ c ∈ (print (item ids [])).toList, Text.isAddressChar c = true := by
      rw [written]
      exact List.all_eq_true.mp rfl
    have rendered := bound address occasion second second.advance
      (.marker ⟨{ property := "ids[1]" }, Registry.usual .decimal none⟩) rfl
    exact rendered.mpr ⟨rfl, .decimal, _, kind, rfl, by rw [there]⟩

end Schema

end DynamicSql
