import DynamicSql.Proofs.Iteration.Passes

/-!
# What an iteration makes of its passes

An iteration renders its body once for each item of its array. The texts of the
passes are put in a row; the first one with content is opened, every later one
with content is joined to those before it, and after the last pass the whole is
closed if there was content at all. Blank texts go through as they are.
-/

namespace DynamicSql

open Rendering

theorem Text.hasContent_append (first second : String) :
    hasContent (first ++ second) = (hasContent first || hasContent second) := by
  simp [hasContent, String.toList_append, List.any_append]

theorem Text.hasContent_around {text : String} (content : hasContent text = true)
    (before after : String) : hasContent (before ++ text ++ after) = true := by
  rw [hasContent_append, hasContent_append, content, Bool.or_true, Bool.true_or]

namespace Tag

/-- What stands before the text of a pass, by the texts of all passes: before the
    first one with content the text in front of the tag, unless it is left out, and
    the opening; before every later one with content the conjunction. -/
def leading (tag : Tag) (leftOut : Bool) (texts : List String) (pass : Nat) : String :=
  if texts[pass]?.any Text.hasContent then
    if pass = texts.findIdx Text.hasContent then
      (if leftOut then "" else tag.prepend.getD "") ++ tag.opening.getD ""
    else tag.conjunction.getD ""
  else ""

/-- What stands behind the text of a pass: the closing, behind the last one and if
    there is content. -/
def trailing (tag : Tag) (texts : List String) (pass : Nat) : String :=
  if pass + 1 = texts.length && texts.any Text.hasContent then tag.closing.getD "" else ""

/-- What an iteration makes of the texts of its passes. -/
def splice (tag : Tag) (leftOut : Bool) (texts : List String) : String :=
  String.join <| texts.mapIdx fun pass text =>
    tag.leading leftOut texts pass ++ text ++ tag.trailing texts pass

/-- Without content an iteration adds nothing to its passes. -/
theorem splice_of_blank {tag : Tag} {leftOut : Bool} {texts : List String}
    (blank : texts.any Text.hasContent = false) : tag.splice leftOut texts = String.join texts := by
  have none (pass : Nat) : texts[pass]?.any Text.hasContent = false := by
    cases found : texts[pass]? with
    | none => rfl
    | some text =>
      have member := List.mem_of_getElem? found
      simpa using List.any_eq_false.mp blank text member
  have unchanged : (fun (pass : Nat) (text : String) =>
      tag.leading leftOut texts pass ++ text ++ tag.trailing texts pass) =
        fun _ text => text := by
    funext pass text
    simp [leading, trailing, none, blank]
  have same : texts.mapIdx (fun _ text => text) = texts :=
    List.ext_getElem (by simp) (by simp)
  rw [splice, unchanged, same]

/-- The same from the left: whether a pass before the texts had content is known. -/
def spliceFrom (tag : Tag) (leftOut : Bool) : Bool → List String → String
  | _, [] => ""
  | produced, text :: rest =>
    (if Text.hasContent text then
      if produced then tag.conjunction.getD ""
      else (if leftOut then "" else tag.prepend.getD "") ++ tag.opening.getD ""
    else "") ++ text ++
      (if rest.isEmpty && (produced || Text.hasContent text) then tag.closing.getD "" else "") ++
      spliceFrom tag leftOut (produced || Text.hasContent text) rest

/-- What stands before the first of some texts, by whether there was content before. -/
theorem leading_length (tag : Tag) (leftOut : Bool) (front rest : List String)
    (text : String) :
    tag.leading leftOut (front ++ text :: rest) front.length =
      if Text.hasContent text then
        if front.any Text.hasContent then tag.conjunction.getD ""
        else (if leftOut then "" else tag.prepend.getD "") ++ tag.opening.getD ""
      else "" := by
  have here : (front ++ text :: rest)[front.length]? = some text := by simp
  rw [leading, here]
  cases content : Text.hasContent text with
  | false => simp [content]
  | true =>
    simp only [Option.any_some, content, ↓reduceIte, List.findIdx_append]
    cases before : front.any Text.hasContent with
    | true =>
      have found : ∃ other, other ∈ front ∧ Text.hasContent other = true := by
        simpa using before
      have earlier : front.findIdx Text.hasContent < front.length :=
        List.findIdx_lt_length.mpr found
      simp [found, Nat.ne_of_gt earlier]
    | false =>
      have none : ¬ ∃ other, other ∈ front ∧ Text.hasContent other = true := by
        simpa using before
      simp [none, List.findIdx_cons, content]

theorem trailing_length (tag : Tag) (front rest : List String) (text : String) :
    tag.trailing (front ++ text :: rest) front.length =
      if rest.isEmpty && (front.any Text.hasContent || Text.hasContent text) then
        tag.closing.getD ""
      else "" := by
  cases rest with
  | nil => simp [trailing]
  | cons next rest => simp [trailing]

theorem spliceFrom_eq_join (tag : Tag) (leftOut : Bool) (front texts : List String) :
    tag.spliceFrom leftOut (front.any Text.hasContent) texts =
      String.join (texts.mapIdx fun pass text =>
        tag.leading leftOut (front ++ texts) (front.length + pass) ++ text ++
          tag.trailing (front ++ texts) (front.length + pass)) := by
  induction texts generalizing front with
  | nil => rfl
  | cons text rest ih =>
    have next := ih (front ++ [text])
    simp only [List.any_append, List.any_cons, List.any_nil, Bool.or_false, List.append_assoc,
      List.singleton_append, List.length_append, List.length_singleton] at next
    rw [spliceFrom, next, List.mapIdx_cons, String.join_cons]
    simp only [Nat.add_zero, leading_length, trailing_length, Nat.add_assoc, Nat.add_comm 1]

theorem spliceFrom_false (tag : Tag) (leftOut : Bool) (texts : List String) :
    tag.spliceFrom leftOut false texts = tag.splice leftOut texts := by
  have all := spliceFrom_eq_join tag leftOut [] texts
  simpa [splice] using all

section Passes

variable {tag : Tag} {parent : Option Tag} {body : Rendering Fragment} {id : Nat}

/-- One pass of a pending loop, from its body to its end. -/
theorem pass_ended
    (bodyKept : KeepsFrames id body)
    {loop : Loop} {outer : List Loop} {armed isLast : Bool} {rest : List Marker}
    {inner piece : Fragment} {frames middle next : Frames}
    (loops : frames.loops = loop :: outer) (pending : loop.Pending)
    (markers : frames.markers = ⟨id, armed⟩ :: rest)
    (ran : body.run frames = .ok (inner, middle))
    (ended : tag.endPass parent inner middle = ((piece, isLast), next)) :
    ∃ pass, loop.Ended tag inner.sql pass ∧ isLast = pass.loop.exhausted ∧
      tag.Passed parent id rest outer inner pass piece next := by
  have kept := bodyKept (Frames.below_of_own ⟨armed, rest, markers⟩) ran
  obtain ⟨reached, reachedLoops, stepped⟩ := kept.loops.cons loops
  have own : ∃ armed', middle.markers = ⟨id, armed'⟩ :: rest := by
    have same := kept.markers
    rw [markers] at same
    generalize middle.markers = after at same
    cases same
    · exact ⟨armed, rfl⟩
    · exact ⟨false, rfl⟩
  obtain ⟨armed', middleMarkers⟩ := own
  have does : loop.Ended tag inner.sql (reached.endPass tag inner.sql) := by
    rcases stepped with rfl | rfl
    · exact Loop.ended_endPass _ tag inner.sql pending
    · exact Loop.ended_endPass_advance loop tag inner.sql pending
  have content (first : (reached.endPass tag inner.sql).isFirst = true) :
      Text.hasContent (reached.endPass tag inner.sql).text = true := by
    rw [does.isFirst, Bool.and_eq_true] at first
    rw [does.text]
    exact Text.hasContent_around first.1 _ _
  obtain ⟨last, passed⟩ := endPass_passed reachedLoops middleMarkers content ended
  exact ⟨_, does, last, passed⟩

/-- What a pass contributes is what the texts in a row have at its place. -/
theorem Passed.sql_eq {rest : List Marker} {outer : List Loop} {loop : Loop}
    {inner piece : Fragment} {pass : PassEnd} {next : Frames} {leftOut : Bool}
    {others : List String} (passed : tag.Passed parent id rest outer inner pass piece next)
    (does : loop.Ended tag inner.sql pass)
    (around : loop.produced = false →
      leftOut = (parent.isSome && rest.head?.any Marker.armed))
    (last : loop.step.hasNext = ! others.isEmpty) :
    piece.sql ++ tag.spliceFrom leftOut pass.loop.produced others =
      tag.spliceFrom leftOut loop.produced (inner.sql :: others) := by
  rw [passed.sql, does.isFirst, does.text, does.produced, last, Bool.not_not, spliceFrom,
    Bool.and_comm (loop.produced || _)]
  cases content : Text.hasContent inner.sql with
  | false => simp
  | true =>
    cases produced : loop.produced with
    | true => simp
    | false =>
      rw [← around produced]
      simp [String.append_assoc]

/-- A loop that is between two passes has as many passes as items left, and they make
    of the texts of the body what their texts in a row have. -/
theorem Passes.spliced
    (bodyKept : KeepsFrames id body)
    {inners : List Fragment} {fragment : Fragment} {frames after : Frames}
    (passes : tag.Passes parent body frames inners fragment after)
    {loop : Loop} {outer : List Loop} {armed leftOut : Bool} {rest : List Marker}
    (loops : frames.loops = loop :: outer) (pending : loop.Pending)
    (markers : frames.markers = ⟨id, armed⟩ :: rest)
    (around : loop.produced = false →
      leftOut = (parent.isSome && rest.head?.any Marker.armed)) :
    inners.length = loop.remaining ∧
      fragment.sql = tag.spliceFrom leftOut loop.produced (inners.map Fragment.sql) ∧
      fragment.bindings = inners.flatMap Fragment.bindings ∧
      after.loops.head?.any Loop.hasNext = false := by
  induction passes generalizing loop armed rest with
  | done none =>
    have finished := none
    rw [loops, List.head?_cons, Option.any_some, Loop.hasNext_eq_remaining,
      decide_eq_false_iff_not] at finished
    exact ⟨by simp only [List.length_nil]; omega, rfl, rfl, none⟩
  | last some ran ended =>
    obtain ⟨pass, does, isLast, passed⟩ := pass_ended bodyKept loops pending markers ran ended
    have final := does.exhausted isLast.symm
    have last : loop.step.hasNext = ! ([] : List String).isEmpty := final
    have text := passed.sql_eq does around last
    have left := does.remaining
    rw [loops, List.head?_cons, Option.any_some, Loop.hasNext_eq_remaining,
      decide_eq_true_eq] at some
    rw [Loop.hasNext_eq_remaining, decide_eq_false_iff_not, Loop.remaining_step] at final
    refine ⟨by simp only [List.length_singleton]; omega, ?_, ?_, ?_⟩
    · rw [spliceFrom, String.append_empty] at text
      exact text
    · rw [passed.bindings]
      simp
    · rw [passed.loops, List.head?_cons, Option.any_some, Loop.hasNext_eq_remaining,
        decide_eq_false_iff_not]
      omega
  | @more _ _ _ _ inner piece others inners some ran ended _ ih =>
    obtain ⟨pass, does, isLast, passed⟩ := pass_ended bodyKept loops pending markers ran ended
    obtain ⟨armed', rest', nextMarkers, untouched⟩ := passed.markers
    have aroundNext (nothing : pass.loop.produced = false) :
        leftOut = (parent.isSome && rest'.head?.any Marker.armed) := by
      rw [does.produced, Bool.or_eq_false_iff] at nothing
      rw [untouched (by rw [does.isFirst, nothing.2]; rfl)]
      exact around nothing.1
    obtain ⟨length, sql, bindings, finished⟩ :=
      ih passed.loops ⟨does.stepped, isLast.symm⟩ nextMarkers aroundNext
    rw [loops, List.head?_cons, Option.any_some, Loop.hasNext_eq_remaining,
      decide_eq_true_eq] at some
    rw [does.remaining] at length
    have final : loop.step.hasNext = ! (inners.map Fragment.sql).isEmpty := by
      rw [Loop.hasNext_eq_remaining, Loop.remaining_step, ← length]
      cases inners <;> simp
    refine ⟨by simp only [List.length_cons]; omega, ?_, ?_, finished⟩
    · rw [Fragment.sql_append, sql]
      exact passed.sql_eq does around final
    · rw [Fragment.bindings_append, bindings, passed.bindings, List.flatMap_cons]

/-- A bound that is no less than the count of the items left never ends the passes. -/
theorem Passes.of_run
    (bodyKept : KeepsFrames id body)
    {count : Nat} {fragment : Fragment} {frames after : Frames} {loop : Loop}
    {outer : List Loop} {armed : Bool} {rest : List Marker}
    (loops : frames.loops = loop :: outer) (pending : loop.Pending)
    (markers : frames.markers = ⟨id, armed⟩ :: rest) (le : loop.remaining ≤ count)
    (ran : (tag.passes parent body count).run frames = .ok (fragment, after)) :
    ∃ inners, tag.Passes parent body frames inners fragment after := by
  induction count generalizing fragment frames loop armed rest with
  | zero =>
    obtain ⟨rfl, rfl⟩ := run_pure_eq_ok.mp ran
    refine ⟨[], .done ?_⟩
    rw [loops, List.head?_cons, Option.any_some, Loop.hasNext_eq_remaining]
    simpa using le
  | succ count ih =>
    rcases passes_succ_eq_ok.mp ran with
      ⟨finished, rfl, rfl⟩ | ⟨some, inner, middle, piece, isLast, next, ranBody, ended, more⟩
    · exact ⟨[], .done finished⟩
    · rcases more with ⟨rfl, rfl, rfl⟩ | ⟨rfl, others, ranOthers, rfl⟩
      · exact ⟨[inner], .last some ranBody ended⟩
      · obtain ⟨pass, does, isLast, passed⟩ :=
          pass_ended bodyKept loops pending markers ranBody ended
        obtain ⟨armed', rest', nextMarkers, -⟩ := passed.markers
        have less : pass.loop.remaining ≤ count := by rw [does.remaining]; omega
        obtain ⟨inners, passes⟩ :=
          ih passed.loops ⟨does.stepped, isLast.symm⟩ nextMarkers less ranOthers
        exact ⟨inner :: inners, .more some ranBody ended passes⟩

/-- What the body gave in a pass it gave inside the tag, with the loop between two
    passes. -/
theorem Passes.ran_of_mem
    (bodyKept : KeepsFrames id body)
    {inners : List Fragment} {fragment : Fragment} {frames after : Frames}
    (passes : tag.Passes parent body frames inners fragment after)
    {loop : Loop} {outer : List Loop} {armed : Bool} {rest : List Marker}
    (loops : frames.loops = loop :: outer) (pending : loop.Pending)
    (markers : frames.markers = ⟨id, armed⟩ :: rest) {inner : Fragment}
    (member : inner ∈ inners) :
    ∃ before middle present, body.run before = .ok (inner, middle) ∧
      before.Below (id + 1) ∧ before.loops = present :: outer ∧ present.Pending ∧
      loop.SameArray present := by
  induction passes generalizing loop armed rest with
  | done none => cases member
  | last some ran ended =>
    rw [List.mem_singleton.mp member]
    exact ⟨_, _, loop, ran, Frames.below_of_own ⟨armed, rest, markers⟩, loops, pending, .refl loop⟩
  | more some ran ended others ih =>
    rcases List.mem_cons.mp member with rfl | later
    · exact ⟨_, _, loop, ran, Frames.below_of_own ⟨armed, rest, markers⟩, loops, pending,
        .refl loop⟩
    · obtain ⟨pass, does, isLast, passed⟩ := pass_ended bodyKept loops pending markers ran ended
      obtain ⟨armed', rest', nextMarkers, -⟩ := passed.markers
      obtain ⟨before, middle, present, ranBody, below, presentLoops, presentPending, same⟩ :=
        ih passed.loops ⟨does.stepped, isLast.symm⟩ nextMarkers later
      exact ⟨before, middle, present, ranBody, below, presentLoops, presentPending,
        does.array.trans same⟩

end Passes

end Tag

namespace Part

/-- An iteration whose parts are numbered renders its passes inside its own marker. -/
theorem passes_of_iteration {id : Nat} {tag : Tag} {body : List Part}
    (numbered : NumberedAll (id + 1) body) (iterate : tag.handler = .iterate)
    {occasion : Occasion} {parent : Option Tag} {fragment : Fragment} {frames after : Frames}
    (ran : ((Part.tag id tag body).render occasion parent).run frames = .ok (fragment, after)) :
    ∃ armed property items opened inners closed,
      (occasion.collection tag).run (frames.enter id (tag.marker? parent)) =
        .ok ((property, items), opened) ∧
      opened.markers = ⟨id, armed⟩ :: frames.markers ∧
      tag.Passes parent (renderAll occasion (some tag) body)
        (opened.pushLoop { tag := id, size := items.length, property }) inners fragment
        closed := by
  have bodyKept : KeepsFrames id (renderAll occasion (some tag) body) :=
    keepsFrames_renderAll numbered
  rw [render] at ran
  obtain ⟨_, ranContent, -⟩ := Tag.around_eq_ok.mp ran
  cases entered : tag.marker? parent with
  | none =>
    obtain ⟨-, condition, conditional⟩ := Tag.conditional_of_marker? entered
    rw [iterate] at conditional
    cases conditional
  | some armed =>
    rw [entered] at ranContent
    rcases Tag.content_eq_ok.mp ranContent with
      ⟨group, -⟩ | ⟨_, conditional, -⟩ | ⟨-, iterated⟩
    · rw [iterate] at group
      cases group
    · rw [iterate] at conditional
      cases conditional
    · obtain ⟨property, items, opened, closed, collected, passed, -⟩ :=
        Tag.iterateOver_eq_ok.mp iterated
      have markers : opened.markers = ⟨id, armed⟩ :: frames.markers :=
        (Occasion.subject_kept (Occasion.collection_eq_ok.mp collected)).1
      let loop : Loop := { tag := id, size := items.length, property }
      have pending : loop.Pending := ⟨rfl, rfl⟩
      have loops : (opened.pushLoop loop).loops = loop :: opened.loops := rfl
      have enough : loop.remaining ≤ items.length := Nat.le_refl _
      obtain ⟨inners, passes⟩ := Tag.Passes.of_run bodyKept loops pending markers enough passed
      exact ⟨armed, property, items, opened, inners, closed, collected, markers, passes⟩

end Part

namespace Template

/-- An iteration in a built template, whatever it stands in and whatever it contains:
    its body is rendered once for each item of its array and the loop ends, and the
    texts of the passes are spliced. The text in front is left out if the iteration
    stands in another tag and the marker around it is armed. -/
theorem iteration_splices {draft : Draft} {building : Converters} {template : Template}
    (built : draft.build building = .ok template) {id : Nat} {tag : Tag} {body : List Part}
    (inside : (Part.tag id tag body).Inside template.parts)
    (iterate : tag.handler = .iterate) {occasion : Occasion} {parent : Option Tag}
    {fragment : Fragment} {frames after : Frames}
    (ran : ((Part.tag id tag body).render occasion parent).run frames =
      .ok (fragment, after)) :
    ∃ property items opened inners closed,
      (occasion.collection tag).run (frames.enter id (tag.marker? parent)) =
        .ok ((property, items), opened) ∧
      tag.Passes parent (Part.renderAll occasion (some tag) body)
        (opened.pushLoop { tag := id, size := items.length, property }) inners fragment
        closed ∧
      inners.length = items.length ∧
      closed.loops.head?.any Loop.hasNext = false ∧
      fragment.sql = tag.splice (parent.isSome && frames.markers.head?.any Marker.armed)
        (inners.map Fragment.sql) ∧
      fragment.bindings = inners.flatMap Fragment.bindings ∧
      ((inners.map Fragment.sql).any Text.hasContent = false →
        fragment.sql = String.join (inners.map Fragment.sql)) := by
  obtain ⟨parts, builtParts, last⟩ := bind_eq_ok_iff.mp built
  cases last
  obtain ⟨_, numbered⟩ := (Node.numberedAll_of_buildAll _ builtParts).inside inside
  obtain ⟨armed, property, items, opened, inners, closed, collected, markers, passes⟩ :=
    Part.passes_of_iteration numbered.2 iterate ran
  have pending : Loop.Pending { tag := id, size := items.length, property } := ⟨rfl, rfl⟩
  obtain ⟨length, sql, bindings, finished⟩ :=
    passes.spliced (Part.keepsFrames_renderAll numbered.2) rfl pending markers fun _ => rfl
  rw [Tag.spliceFrom_false] at sql
  refine ⟨property, items, opened, inners, closed, collected, passes, length, finished, sql,
    bindings, fun blank => ?_⟩
  rw [sql, Tag.splice_of_blank blank]

/-- Two passes inside a group that leaves out the text in front. -/
theorem iteration_splices_in_group :
    ∃ inners : List Fragment, inners.length = 2 ∧
      Tag.splice { handler := .iterate, prepend := some "AND ", opening := some "(",
                   closing := some ")", conjunction := some " OR " }
        true (inners.map Fragment.sql) = "(x OR x)" := by
  let each : Tag := { handler := .iterate, prepend := some "AND ", opening := some "(",
                      closing := some ")", conjunction := some " OR " }
  let group : Tag := { handler := .group, prepend := some "WHERE " }
  let text : TextPart := { source := "x", inIteration := true, ready := none }
  let draft : Draft := { id := "q", nodes := [.tag group [.tag each [.text "x"]]] }
  let template : Template :=
    { id := "q", cls := .unknown, parts := [.tag 0 group [.tag 1 each [.text 2 text]]] }
  let occasion : Occasion :=
    { cls := .unknown, converters := ({} : Registry), param := .array [.null, .null] }
  have built : draft.build ({} : Registry) = .ok template := rfl
  have inside : (Part.tag 1 each [.text 2 text]).Inside template.parts :=
    .within (.head _) (.among (.head _))
  have ran : ((Part.tag 1 each [.text 2 text]).render occasion (some group)).run
      { markers := [⟨0, true⟩] } = .ok (⟨"(x OR x)", []⟩, { markers := [⟨0, false⟩] }) := by
    dsimp only [each, group, text, occasion]
    rfl
  obtain ⟨_, _, _, inners, _, collected, -, length, -, sql, -⟩ :=
    iteration_splices built inside rfl ran
  cases collected
  exact ⟨inners, length, sql.symm⟩

end Template

end DynamicSql
