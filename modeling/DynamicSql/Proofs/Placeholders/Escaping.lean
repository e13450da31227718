import DynamicSql.Proofs.Iteration.Passes

/-!
# Escaped text

Two delimiters in a row stand for one, so any text can be written with its number
signs and dollar signs doubled. The two kinds of placeholders are read one after the
other, and in an iteration the indexes of the loops are put into both before that.
None of these readings is led astray by doubled delimiters, whatever else they stand
next to: divided by the delimiter that was doubled, a text has an empty part between
any two parts that it had before, so all that is enclosed is empty.
-/

namespace DynamicSql

open Rendering

namespace Text

/-- The text with every occurrence of a delimiter doubled. -/
def doubled (delimiter : Char) (text : List Char) : List Char :=
  text.flatMap fun c => if c = delimiter then [c, c] else [c]

/-- The text with every number sign and every dollar sign doubled. -/
def escape (text : String) : String :=
  String.ofList (doubled '#' (doubled '$' text.toList))

theorem doubled_cons (delimiter c : Char) (rest : List Char) :
    doubled delimiter (c :: rest) =
      (if c = delimiter then [c, c] else [c]) ++ doubled delimiter rest := rfl

theorem doubled_append (delimiter : Char) (text others : List Char) :
    doubled delimiter (text ++ others) = doubled delimiter text ++ doubled delimiter others :=
  List.flatMap_append

/-- Text without the delimiter stays as it is. -/
theorem doubled_of_not_mem {delimiter : Char} {text : List Char} (without : delimiter ∉ text) :
    doubled delimiter text = text := by
  induction text with
  | nil => rfl
  | cons c rest ih =>
    obtain ⟨differs, behind⟩ := List.ne_and_not_mem_of_not_mem_cons without
    rw [doubled_cons, if_neg (Ne.symm differs), ih behind]
    rfl

theorem mem_doubled {delimiter c : Char} {text : List Char} :
    c ∈ doubled delimiter text ↔ c ∈ text := by
  induction text with
  | nil => exact Iff.rfl
  | cons first rest ih =>
    rw [doubled_cons, List.mem_append, List.mem_cons, ih]
    refine or_congr_left ?_
    split <;> simp

/-- It does not matter which of two delimiters is doubled first. -/
theorem doubled_comm {one other : Char} (differ : one ≠ other) (text : List Char) :
    doubled one (doubled other text) = doubled other (doubled one text) := by
  induction text with
  | nil => rfl
  | cons c rest ih =>
    have alone : doubled one (if c = other then [c, c] else [c]) =
        doubled other (if c = one then [c, c] else [c]) := by
      by_cases isOther : c = other
      · simp [isOther, doubled, differ.symm]
      · by_cases isOne : c = one
        · simp [isOne, doubled, differ]
        · simp [isOne, isOther, doubled]
    rw [doubled_cons other, doubled_cons one, doubled_append, doubled_append, ih, alone]

/-- Doubling a delimiter puts an empty part between the parts that it divides the text
    into. -/
theorem splitOn_doubled (delimiter : Char) (text : List Char) :
    (doubled delimiter text).splitOn delimiter = (text.splitOn delimiter).intersperse [] := by
  induction text with
  | nil => rfl
  | cons c rest ih =>
    obtain ⟨part, parts, divided⟩ := List.exists_cons_of_ne_nil (rest.splitOn_ne_nil delimiter)
    rw [divided] at ih
    by_cases same : c = delimiter
    · subst same
      rw [doubled_cons, if_pos rfl]
      simp [List.splitOn_cons_eq_if_modifyHead, ih, divided]
    · rw [doubled_cons, if_neg same]
      cases parts with
      | nil => simp [List.splitOn_cons_eq_if_modifyHead, same, ih, divided]
      | cons next more => simp [List.splitOn_cons_eq_if_modifyHead, same, ih, divided]

/-- Parts with an empty one between any two of them enclose nothing. -/
theorem pairParts_intersperse (parts : List (List Char)) :
    pairParts (parts.intersperse []) =
      (parts.map Span.plain).intersperse (.enclosed []) := by
  induction parts with
  | nil => rfl
  | cons part rest ih =>
    cases rest with
    | nil => rfl
    | cons next more =>
      rw [List.intersperse_cons_cons, List.map_cons, List.map_cons, List.intersperse_cons_cons,
        ← List.map_cons, ← ih]
      cases more with
      | nil => rfl
      | cons third others => rfl

theorem spans_doubled (delimiter : Char) (text : List Char) :
    spans delimiter (doubled delimiter text) =
      ((text.splitOn delimiter).map Span.plain).intersperse (.enclosed []) := by
  rw [spans, splitOn_doubled, pairParts_intersperse]

/-- The spans of text with doubled delimiters are plain or enclose nothing. -/
theorem mem_spans_doubled {delimiter : Char} {text : List Char} {span : Span}
    (member : span ∈ spans delimiter (doubled delimiter text)) :
    (∃ part, span = .plain part) ∨ span = .enclosed [] := by
  rw [spans_doubled] at member
  generalize text.splitOn delimiter = parts at member
  induction parts with
  | nil => cases member
  | cons part rest ih =>
    cases rest with
    | nil => exact .inl ⟨part, List.mem_singleton.mp member⟩
    | cons next more =>
      rw [List.map_cons, List.map_cons, List.intersperse_cons_cons, ← List.map_cons] at member
      rcases List.mem_cons.mp member with rfl | behind
      · exact .inl ⟨part, rfl⟩
      · rcases List.mem_cons.mp behind with rfl | further
        · exact .inr rfl
        · exact ih further

/-- Blank text has no number sign to double. -/
theorem escape_of_blank {text : String} (blank : hasContent (escape text) = false) :
    escape text = String.ofList (doubled '$' text.toList) := by
  have without : '#' ∉ doubled '$' text.toList := by
    intro member
    have content : hasContent (escape text) = true := by
      rw [hasContent, escape, String.toList_ofList, List.any_eq_true]
      exact ⟨'#', mem_doubled.mpr member, by decide⟩
    rw [blank] at content
    cases content
  rw [escape, doubled_of_not_mem without]

end Text

/-- No index is put into an empty path. -/
theorem Loop.qualify_nil (loop : Loop) : loop.qualify [] = [] := by
  unfold qualify
  split
  · rfl
  · split <;> rfl

theorem Frames.qualify_nil (frames : Frames) : frames.qualify [] = [] := by
  rw [qualify]
  induction frames.loops with
  | nil => rfl
  | cons loop outer ih => rw [List.foldr_cons, ih, loop.qualify_nil]

/-- No index is put into text with doubled delimiters. -/
theorem Frames.qualifyEnclosed_doubled (frames : Frames) (delimiter : Char) (text : List Char) :
    frames.qualifyEnclosed delimiter (Text.doubled delimiter text) =
      Text.doubled delimiter text := by
  have unchanged : ∀ span ∈ Text.spans delimiter (Text.doubled delimiter text),
      (span.mapEnclosed frames.qualify).source delimiter = span.source delimiter := by
    intro span member
    rcases Text.mem_spans_doubled member with ⟨part, rfl⟩ | rfl
    · rfl
    · rw [Text.Span.mapEnclosed, frames.qualify_nil]
  rw [qualifyEnclosed, List.flatMap_congr unchanged, Text.flatMap_source_spans]

theorem Frames.qualifyPlaceholders_escape (frames : Frames) (text : String) :
    frames.qualifyPlaceholders (Text.escape text) = Text.escape text := by
  rw [qualifyPlaceholders, Text.escape, String.toList_ofList, qualifyEnclosed_doubled,
    Text.doubled_comm (by decide), qualifyEnclosed_doubled]

namespace Fragment

variable {cls : ParameterClass} {converters : Converters}

theorem ofSpans_intersperse (parts : List (List Char)) :
    ofSpans cls converters ((parts.map Text.Span.plain).intersperse (.enclosed [])) =
      .ok (ofText (String.ofList (['#'].intercalate parts))) := by
  induction parts with
  | nil => rfl
  | cons part rest ih =>
    cases rest with
    | nil => simp [ofSpans, ofText, bind, Except.bind, pure, Except.pure]
    | cons next more =>
      rw [List.map_cons, List.map_cons, List.intersperse_cons_cons, ← List.map_cons, ofSpans,
        ofSpans, ih, List.intercalate_cons_cons]
      refine congrArg Except.ok ?_
      ext1 <;> simp [ofText]

/-- Doubled number signs declare nothing and leave one each. -/
theorem parse_doubled (text : List Char) :
    parse cls converters (String.ofList (Text.doubled '#' text)) =
      .ok (ofText (String.ofList text)) := by
  rw [parse, String.toList_ofList, Text.spans_doubled, ofSpans_intersperse,
    List.intercalate_splitOn]

end Fragment

theorem substituteSpans_intersperse (param : Value) (cls : ParameterClass)
    (parts : List (List Char)) :
    substituteSpans param cls ((parts.map Text.Span.plain).intersperse (.enclosed [])) =
      .ok (String.ofList (['$'].intercalate parts)) := by
  induction parts with
  | nil => rfl
  | cons part rest ih =>
    cases rest with
    | nil => simp [substituteSpans, bind, Except.bind, pure, Except.pure]
    | cons next more =>
      rw [List.map_cons, List.map_cons, List.intersperse_cons_cons, ← List.map_cons,
        substituteSpans, substituteSpans, ih, List.intercalate_cons_cons]
      refine congrArg Except.ok ?_
      simp [String.ofList_append]

/-- Doubled dollar signs name no value and leave one each. -/
theorem substitute_doubled (param : Value) (cls : ParameterClass) (text : List Char) :
    substitute param cls (String.ofList (Text.doubled '$' text)) = .ok (String.ofList text) := by
  rw [substitute, String.toList_ofList, Text.spans_doubled, substituteSpans_intersperse,
    List.intercalate_splitOn]

namespace Text

variable {cls : ParameterClass} {converters : Converters}

/-- Escaped text can be built, inside an iteration or outside. -/
theorem exists_build_escape (cls : ParameterClass) (converters : Converters)
    (inIteration : Bool) (id : Nat) (text : String) :
    ∃ part, Node.buildText cls converters inIteration (escape text) = .ok part ∧
      Node.buildAll cls converters inIteration id [.text (escape text)] =
        .ok [.text id part] := by
  obtain ⟨part, built⟩ :
      ∃ part, Node.buildText cls converters inIteration (escape text) = .ok part := by
    rw [Node.buildText]
    split
    · exact ⟨_, rfl⟩
    · rw [escape, Fragment.parse_doubled]
      exact ⟨_, rfl⟩
  refine ⟨part, built, ?_⟩
  rw [Node.buildAll, Node.build, built]
  rfl

/-- Escaped text contributes the text with only its dollar signs doubled, whatever loops
    are in progress. -/
theorem render_escape {inIteration : Bool} {text : String} {part : TextPart}
    (built : Node.buildText cls converters inIteration (escape text) = .ok part)
    (occasion : Occasion) (frames : Frames) :
    ∃ after, (part.render occasion).run frames =
        .ok (.ofText (String.ofList (doubled '$' text.toList)), after) ∧
      (after = frames ∨ after = frames.advance) := by
  rw [Node.buildText] at built
  split at built
  · cases built
    cases content : hasContent (escape text) with
    | true =>
      refine ⟨frames.advance, TextPart.render_eq_ok.mpr (.inr (.inr ⟨rfl, content, rfl, ?_⟩)),
        .inr rfl⟩
      rw [Frames.qualifyPlaceholders_escape]
      exact Fragment.parse_doubled _
    | false =>
      refine ⟨frames, TextPart.render_eq_ok.mpr (.inr (.inl ⟨rfl, content, ?_, rfl⟩)), .inl rfl⟩
      rw [escape_of_blank content]
  · rw [escape, Fragment.parse_doubled] at built
    cases built
    exact ⟨frames, TextPart.render_eq_ok.mpr (.inl ⟨rfl, rfl⟩), .inl rfl⟩

/-- Doubling a delimiter in every copy of a text. -/
theorem join_replicate_doubled (delimiter : Char) (text : String) (count : Nat) :
    String.join (List.replicate count (String.ofList (doubled delimiter text.toList))) =
      String.ofList (doubled delimiter (String.join (List.replicate count text)).toList) := by
  induction count with
  | zero => rfl
  | succ count ih =>
    rw [List.replicate_succ, List.replicate_succ, String.join_cons, String.join_cons, ih,
      String.toList_append, doubled_append, String.ofList_append]

end Text

namespace Tag

/-- A body that gives the same text in every pass is repeated as often as there are items
    left. -/
theorem passes_through {property : Option String} {parent : Option Tag} {body : Rendering Fragment}
    {text : String}
    (each : ∀ frames, ∃ after, body.run frames = .ok (.ofText text, after) ∧
      (after = frames ∨ after = frames.advance))
    {count : Nat} {frames : Frames} {loop : Loop} {outer : List Loop}
    (loops : frames.loops = loop :: outer) (pending : loop.Pending)
    (left : loop.remaining = count) :
    ∃ after, ((through property).passes parent body count).run frames =
      .ok (.ofText (String.join (List.replicate count text)), after) := by
  induction count generalizing frames loop with
  | zero => exact ⟨frames, run_pure_eq_ok.mpr ⟨rfl, rfl⟩⟩
  | succ count ih =>
    have next : frames.loops.head?.any Loop.hasNext = true := by
      rw [loops, List.head?_cons, Option.any_some, Loop.hasNext_eq_remaining, left]
      exact decide_eq_true (Nat.succ_pos count)
    obtain ⟨middle, ran, middleFrames⟩ := each frames
    -- The body may or may not have come to the item of the pass.
    obtain ⟨reached, middleLoops, does⟩ : ∃ reached, middle.loops = reached :: outer ∧
        loop.Ended (through property) text (reached.endPass (through property) text) := by
      rcases middleFrames with rfl | rfl
      · exact ⟨loop, loops, loop.ended_endPass _ text pending⟩
      · refine ⟨loop.advance, ?_, loop.ended_endPass_advance _ text pending⟩
        rw [Frames.advance, loops]
    have ended := endPass_through property parent (.ofText text) middleLoops
    rw [show (Fragment.ofText text).sql = text from rfl] at ended
    have fewer := does.remaining
    rw [left, Nat.add_sub_cancel] at fewer
    rw [List.replicate_succ, String.join_cons]
    cases exhausted : (reached.endPass (through property) text).loop.exhausted with
    | true =>
      have final := does.exhausted exhausted
      rw [Loop.hasNext_eq_remaining, decide_eq_false_iff_not, Loop.remaining_step, left] at final
      obtain rfl : count = 0 := by omega
      rw [exhausted] at ended
      refine ⟨_, passes_succ_eq_ok.mpr
        (.inr ⟨next, _, _, _, _, _, ran, ended, .inl ⟨rfl, ?_, rfl⟩⟩)⟩
      rw [List.replicate_zero, String.join_nil, String.append_empty]
    | false =>
      rw [exhausted] at ended
      have loopsAfter : { middle with
          loops := (reached.endPass (through property) text).loop :: outer }.loops =
            (reached.endPass (through property) text).loop :: outer := rfl
      obtain ⟨after, others⟩ := ih loopsAfter ⟨does.stepped, exhausted⟩ fewer
      exact ⟨after, passes_succ_eq_ok.mpr
        (.inr ⟨next, _, _, _, _, _, ran, ended, .inr ⟨rfl, _, others, rfl⟩⟩)⟩

end Tag

/-- The value that a tag outside every iteration is about: the one at its property, or the
    parameter if it names none. -/
def Value.meant (param : Value) : Option String → Except Error (Option Value)
  | some property => param.get property
  | none => .ok (some param)

/-- An iteration outside every other one goes through the array at its property. -/
theorem Occasion.collection_through {occasion : Occasion} {property : Option String}
    {items : List Value} (array : occasion.param.meant property = .ok (some (.array items)))
    (markers : List Marker) :
    ∃ path, (occasion.collection (Tag.through property)).run ⟨markers, []⟩ =
      .ok ((path, items), ⟨markers, []⟩) := by
  cases property with
  | none =>
    have whole : some (.array items) = some occasion.param := (Except.ok.inj array).symm
    exact ⟨"", collection_eq_ok.mpr (subject_eq_ok.mpr (.inr ⟨rfl, rfl, whole, rfl⟩))⟩
  | some property =>
    refine ⟨property, collection_eq_ok.mpr (subject_eq_ok.mpr (.inl ⟨property, rfl, ?_⟩))⟩
    exact look_eq_ok.mpr ⟨rfl, String.ofList_toList.symm, array⟩

/-- An iteration outside every tag repeats a text as often as its array has items. -/
theorem Tag.around_through {occasion : Occasion} {property : Option String} {items : List Value}
    {body : Rendering Fragment} {text : String} (id : Nat)
    (array : occasion.param.meant property = .ok (some (.array items)))
    (each : ∀ frames, ∃ after, body.run frames = .ok (.ofText text, after) ∧
      (after = frames ∨ after = frames.advance)) :
    ∃ after, ((through property).around occasion none id body).run {} =
      .ok (.ofText (String.join (List.replicate items.length text)), after) := by
  let opened : Frames := ⟨[⟨id, false⟩], []⟩
  obtain ⟨path, collected⟩ := Occasion.collection_through array opened.markers
  let loop : Loop := { tag := id, size := items.length, property := path }
  have loops : (opened.pushLoop loop).loops = [loop] := rfl
  obtain ⟨after, passed⟩ : ∃ after, ((through property).passes none body items.length).run
      (opened.pushLoop loop) = .ok (.ofText (String.join (List.replicate items.length text)),
        after) := passes_through each loops ⟨rfl, rfl⟩ rfl
  have ran : ((through property).iterateOver occasion none id body).run
      ((Frames.enter {} id) ((through property).marker? none)) = _ :=
    iterateOver_eq_ok.mpr ⟨path, items, opened, after, collected, passed, rfl⟩
  exact ⟨_, around_eq_ok.mpr
    ⟨after.popLoop, content_eq_ok.mpr (.inr (.inr ⟨rfl, ran⟩)), rfl⟩⟩

namespace Template

/-- Any text can be written in a template with its number signs and dollar signs doubled:
    whatever the class, the converters and the parameter are, the template can be built and
    renders to that text without bindings, and inside an iteration to as many copies of it
    as the array has items. -/
theorem escape_renders (id : String) (cls : ParameterClass) (building : Converters)
    (text : String) :
    (∃ template,
      Draft.build { id, cls, nodes := [.text (Text.escape text)] } building = .ok template ∧
      ∀ converters param, template.render converters param = .ok (.ofText text)) ∧
    ∀ property, ∃ template,
      Draft.build
        { id, cls, nodes := [.tag (.through property) [.text (Text.escape text)]] } building =
          .ok template ∧
      ∀ converters (param : Value) items,
        param.meant property = .ok (some (.array items)) →
          template.render converters param =
            .ok (.ofText (String.join (List.replicate items.length text))) := by
  constructor
  · obtain ⟨part, built, row⟩ := Text.exists_build_escape cls building false 0 text
    refine ⟨⟨id, cls, [.text 0 part]⟩, bind_eq_ok_iff.mpr ⟨_, row, rfl⟩,
      fun converters param => ?_⟩
    obtain ⟨after, ran, _⟩ := Text.render_escape built ⟨cls, converters, param⟩ {}
    refine render_eq_ok.mpr ⟨_, after, Part.renderAll_singleton_eq_ok.mpr ran, ?_, rfl⟩
    exact (substitute_doubled param cls text.toList).trans
      (congrArg Except.ok String.ofList_toList)
  · intro property
    obtain ⟨part, built, row⟩ := Text.exists_build_escape cls building true 1 text
    refine ⟨⟨id, cls, [.tag 0 (.through property) [.text 1 part]]⟩,
      bind_eq_ok_iff.mpr ⟨_, Node.buildAll_through property row, rfl⟩,
      fun converters param items array => ?_⟩
    let occasion : Occasion := { cls, converters, param }
    have each : ∀ frames, ∃ after,
        (Part.renderAll occasion (some (.through property)) [.text 1 part]).run frames =
          .ok (.ofText (String.ofList (Text.doubled '$' text.toList)), after) ∧
        (after = frames ∨ after = frames.advance) := by
      intro frames
      obtain ⟨after, ran, kept⟩ := Text.render_escape built occasion frames
      exact ⟨after, Part.renderAll_singleton_eq_ok.mpr ran, kept⟩
    have found : occasion.param.meant property = .ok (some (.array items)) := array
    obtain ⟨after, ran⟩ := Tag.around_through 0 found each
    refine render_eq_ok.mpr ⟨_, after, Part.renderAll_singleton_eq_ok.mpr ran, ?_, rfl⟩
    rw [Text.join_replicate_doubled]
    exact (substitute_doubled param cls _).trans (congrArg Except.ok String.ofList_toList)

/-- A text with runs of both signs, once for each of two items. -/
theorem escape_renders_twice :
    ∃ template,
      Draft.build
        { id := "q", nodes := [.tag (.through "xs") [.text "a $$##$$ = '?' "]] }
        ({} : Registry) = .ok template ∧
      template.render ({} : Registry) (.object [("xs", .array [.null, .null])]) =
        .ok (.ofText "a $#$ = '?' a $#$ = '?' ") := by
  obtain ⟨template, built, renders⟩ :=
    (escape_renders "q" .unknown ({} : Registry) "a $#$ = '?' ").2 "xs"
  refine ⟨template, ?_, ?_⟩
  · rw [← built]
    rfl
  · exact renders _ _ [.null, .null] rfl

end Template

end DynamicSql
