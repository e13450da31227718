import DynamicSql.Proofs.Progress.Rounds

/-!
# The stacks of a rendering

Wherever a rendering of a built template comes to, a part that is rendered there leaves
the stacks in order: the markers and loops of the same tags are there afterwards, at most
the innermost marker was used up, at most the innermost loop has reached its item, and the
bindings from before are the first ones of those that are there then.
-/

namespace DynamicSql

open Rendering Recording

/-- The loops after a part: the same, or the innermost one at its item. -/
inductive OpenLoopsKept : List OpenLoop → List OpenLoop → Prop
  | same (loops : List OpenLoop) : OpenLoopsKept loops loops
  | advanced (loop : OpenLoop) (outer : List OpenLoop) :
      OpenLoopsKept (loop :: outer) (loop.advance :: outer)

/-- The state after a part: at most the innermost marker was used up, at most the innermost loop
    has reached its item, and bindings were put behind those from before. -/
structure Progress.Kept (before after : Progress) : Prop where
  markers : MarkersKept before.markers after.markers
  loops : OpenLoopsKept before.loops after.loops
  bindings : before.bindings <+: after.bindings

namespace OpenLoop

/-- What no part changes of the loops around it: the tag, the array with the path to it, and
    whether a pass has had content and is still to get the text in front of the tag. -/
def lasting (loop : OpenLoop) : Nat × String × List Value × Bool × Bool :=
  (loop.tag, loop.property, loop.items, loop.produced, loop.lead)

@[simp]
theorem lasting_advance (loop : OpenLoop) : loop.advance.lasting = loop.lasting := by
  unfold lasting advance goOn Loop.advance
  split <;> rfl

theorem eq_of_fixed {loop other : OpenLoop} (view : other.toLoop = loop.toLoop)
    (fixed : other.fixed = loop.fixed) : other = loop := by
  obtain ⟨toLoop, items, sized, lead⟩ := loop
  obtain ⟨_, items', sized', lead'⟩ := other
  simp only [OpenLoop.fixed, Prod.mk.injEq] at fixed
  obtain ⟨-, -, rfl, rfl⟩ := fixed
  subst view
  rfl

theorem eq_of_map_fixed : ∀ {loops others : List OpenLoop},
    others.map toLoop = loops.map toLoop → others.map fixed = loops.map fixed → others = loops
  | [], _, views, _ => List.map_eq_nil_iff.mp views
  | loop :: loops, others, views, fixes => by
    obtain ⟨other, rest, rfl, view, restViews⟩ := List.map_eq_cons_iff.mp views
    obtain ⟨fixed, restFixes⟩ := List.cons_eq_cons.mp fixes
    rw [eq_of_fixed view fixed, eq_of_map_fixed restViews restFixes]

end OpenLoop

/-- What the frames tell of the loops and what no pass changes of them is all of them. -/
theorem OpenLoopsKept.of_frames {before after : List OpenLoop}
    (views : LoopsKept (before.map OpenLoop.toLoop) (after.map OpenLoop.toLoop))
    (fixes : after.map OpenLoop.fixed = before.map OpenLoop.fixed) :
    OpenLoopsKept before after := by
  generalize seen : before.map OpenLoop.toLoop = first at views
  generalize seenAfter : after.map OpenLoop.toLoop = last at views
  cases views with
  | same =>
    rw [OpenLoop.eq_of_map_fixed (seenAfter.trans seen.symm) fixes]
    exact .same before
  | advanced =>
    obtain ⟨loop, outer, rfl, rfl, rfl⟩ := List.map_eq_cons_iff.mp seen
    have reached : (loop.advance :: outer).map OpenLoop.fixed =
        (loop :: outer).map OpenLoop.fixed := by simp
    rw [OpenLoop.eq_of_map_fixed seenAfter (fixes.trans reached.symm)]
    exact .advanced loop outer

theorem MarkersKept.tags {before after : List Marker} (kept : MarkersKept before after) :
    after.map Marker.tag = before.map Marker.tag := by
  cases kept <;> rfl

theorem OpenLoopsKept.lasting {before after : List OpenLoop} (kept : OpenLoopsKept before after) :
    after.map OpenLoop.lasting = before.map OpenLoop.lasting := by
  cases kept with
  | same => rfl
  | advanced loop outer => simp

/-- A part leaves the markers and loops of the same tags. -/
theorem Progress.Kept.tags {before after : Progress} (kept : before.Kept after) :
    after.tags = before.tags := by
  have loops := congrArg (List.map Prod.fst) kept.loops.lasting
  simp only [List.map_map] at loops
  rw [Progress.tags, Progress.tags, Prod.mk.injEq]
  exact ⟨kept.markers.tags, loops⟩

/-- A part leaves the state in order. -/
theorem Part.record_kept {occasion : Occasion} {parent : Option Tag} {part : Part} {least : Nat}
    {text : String} {before after : Progress} (numbered : part.Numbered least)
    (below : before.Below least)
    (ran : (part.record occasion parent).run before = .ok (text, after)) :
    before.Kept after := by
  obtain ⟨fragment, rendered, -, grown⟩ := (record_matches part numbered below).of_run ran
  have kept := render_kept numbered below.frames rendered
  exact ⟨kept.markers, .of_frames kept.loops grown.loops, fragment.bindings, grown.bindings.symm⟩

namespace Tag

/-- A round of a tag that a rendering comes to in one state begins in another one. -/
inductive RoundBegins (tag : Tag) (occasion : Occasion) (parent : Option Tag) (id : Nat)
    (body : Recording String) (entered : Progress) : Progress → Prop
  | first {inside : Progress}
      (started : (tag.startRound occasion parent id).run entered = .ok (true, inside)) :
      RoundBegins tag occasion parent id body entered inside
  | again {inside middle closed next : Progress} {inner text : String}
      (before : RoundBegins tag occasion parent id body entered inside)
      (ran : body.run inside = .ok (inner, middle))
      (ended : tag.closeRound parent id inner middle = ((text, true), closed))
      (started : (tag.startRound occasion parent id).run closed = .ok (true, next)) :
      RoundBegins tag occasion parent id body entered next

end Tag

namespace Template

/-- A rendering of the template comes to some parts in a state: it begins with the outermost
    ones, goes on behind a part that it has rendered, and goes into the body of a tag for every
    round of it. -/
inductive Comes (template : Template) (occasion : Occasion) :
    Option Tag → List Part → Progress → Prop
  | start : Comes template occasion none template.parts {}
  | behind {parent : Option Tag} {part : Part} {rest : List Part} {progress after : Progress}
      {text : String} (before : Comes template occasion parent (part :: rest) progress)
      (ran : (part.record occasion parent).run progress = .ok (text, after)) :
      Comes template occasion parent rest after
  | inside {parent : Option Tag} {id : Nat} {tag : Tag} {body rest : List Part}
      {progress inside : Progress}
      (before : Comes template occasion parent (.tag id tag body :: rest) progress)
      (begins : tag.RoundBegins occasion parent id (Part.recordAll occasion (some tag) body)
        progress inside) :
      Comes template occasion (some tag) body inside

end Template

namespace Tag

variable {tag : Tag} {occasion : Occasion} {parent : Option Tag} {id : Nat} {body : List Part}
  {entered inside : Progress}

/-- In a round the innermost marker and loop belong to the tag or to one around it, and in that
    of an iteration the loop is its own and has an item left. -/
structure InRound (tag : Tag) (id : Nat) (inside : Progress) : Prop where
  below : inside.Below (id + 1)
  within : tag.handler = .iterate → inside.Within id
  left : tag.handler = .iterate → inside.frames.loops.head?.any Loop.hasNext = true

theorem inRound_of_started (below : entered.Below id)
    (started : (tag.startRound occasion parent id).run entered = .ok (true, inside)) :
    tag.InRound id inside := by
  have within := below.enter (tag.marker? parent)
  cases handler : tag.handler with
  | group =>
    simp only [startRound, handler] at started
    cases started
    exact ⟨within, by simp [handler], by simp [handler]⟩
  | conditional condition =>
    simp only [startRound, handler] at started
    rw [run_modify_bind] at started
    have matched := decides_matches occasion condition tag (entered.enter id (tag.marker? parent))
    obtain ⟨_, -, -, grown⟩ := matched.of_run started
    exact ⟨grown.below within, by simp [handler], by simp [handler]⟩
  | iterate =>
    have first := startRound_first occasion parent handler (Progress.loopOf_of_below below.2) pure
    rw [bind_pure, started, StateT.run_bind] at first
    obtain ⟨⟨⟨property, items⟩, opened⟩, collected, rest⟩ := bind_eq_ok_iff.mp first.symm
    have matched := collection_matches occasion tag (entered.enter id (tag.marker? parent))
    obtain ⟨_, -, -, grown⟩ := matched.of_run collected
    let pushed := opened.pushLoop (.start id property items)
    have own : pushed.loopOf id = some (.start id property items) := Progress.loopOf_own rfl rfl
    have rest : Except.ok ((pushed.loopOf id).any fun loop => loop.hasNext, pushed) =
        .ok (true, inside) := rest
    rw [own, Option.any_some] at rest
    obtain ⟨left, rfl⟩ := Prod.mk.inj (Except.ok.inj rest)
    exact ⟨(grown.below within).pushLoop rfl, fun _ => ⟨_, opened.loops, rfl, rfl, rfl⟩,
      fun _ => left⟩

/-- The round of an iteration that follows another one is in the same loop. -/
theorem InRound.again (inRound : tag.InRound id inside)
    (numbered : Part.NumberedAll (id + 1) body) {middle closed next : Progress}
    {inner text : String}
    (ran : (Part.recordAll occasion (some tag) body).run inside = .ok (inner, middle))
    (ended : tag.closeRound parent id inner middle = ((text, true), closed))
    (started : (tag.startRound occasion parent id).run closed = .ok (true, next)) :
    tag.InRound id next := by
  obtain ⟨fragment, rendered, rfl, grown⟩ :=
    (Part.recordAll_matches body numbered inRound.below).of_run ran
  by_cases iterate : tag.handler = .iterate
  · obtain ⟨loop, outer, loops, own, silent⟩ := grown.within (inRound.within iterate)
    have kept := (Part.renderAll_kept numbered inRound.below.frames rendered).loops
    have left := Progress.left_of_kept kept (inRound.left iterate) loops
    have closing := (closeRound_iterate iterate parent loops own silent left fragment).2
    rw [ended] at closing
    have reached := grown.trans_nil closing
    obtain ⟨later, ran, -, rearmed⟩ :=
      startRound_again occasion parent iterate (reached.within (inRound.within iterate))
    rw [started] at ran
    obtain ⟨left, rfl⟩ := Prod.mk.inj (Except.ok.inj ran)
    have last := reached.trans_nil rearmed
    exact ⟨last.below inRound.below, fun _ => last.within (inRound.within iterate),
      fun _ => left.symm⟩
  · rw [closeRound_single iterate] at ended
    cases ended

theorem RoundBegins.inRound (numbered : Part.NumberedAll (id + 1) body) (below : entered.Below id)
    (begins : tag.RoundBegins occasion parent id (Part.recordAll occasion (some tag) body)
      entered inside) : tag.InRound id inside := by
  induction begins with
  | first started => exact inRound_of_started below started
  | again before ran ended started ih => exact ih.again numbered ran ended started

end Tag

namespace Template

variable {draft : Draft} {building : Converters} {template : Template} {occasion : Occasion}
  {parent : Option Tag} {parts : List Part} {progress : Progress}

/-- Wherever a rendering comes to, the tags there have greater numbers than those that have
    the innermost marker and the innermost loop. -/
theorem Comes.orderly (built : draft.build building = .ok template)
    (comes : template.Comes occasion parent parts progress) :
    ∃ least, Part.NumberedAll least parts ∧ progress.Below least := by
  induction comes with
  | start =>
    obtain ⟨parts, builtParts, last⟩ := bind_eq_ok_iff.mp built
    cases last
    exact ⟨0, Node.numberedAll_of_buildAll _ builtParts, by simp [Progress.Below, Progress.tags]⟩
  | behind before ran ih =>
    obtain ⟨least, numbered, below⟩ := ih
    obtain ⟨_, -, -, grown⟩ := (Part.record_matches _ numbered.1 below).of_run ran
    exact ⟨least, numbered.2, grown.below below⟩
  | inside before begins ih =>
    obtain ⟨least, numbered, below⟩ := ih
    have inRound := begins.inRound numbered.1.2 (below.mono numbered.1.1)
    exact ⟨_, numbered.1.2, inRound.below⟩

/-- A part that is rendered anywhere in a rendering of a built template leaves the state in
    order. So the markers and the loops of the same tags are there, no marker was armed, and the
    loops still go through the same arrays and have had content, or not, as before. -/
theorem kept_of_comes (built : draft.build building = .ok template) {part : Part}
    {rest : List Part} {before after : Progress} {text : String}
    (comes : template.Comes occasion parent (part :: rest) before)
    (ran : (part.record occasion parent).run before = .ok (text, after)) :
    before.Kept after ∧ after.tags = before.tags ∧
      after.loops.map OpenLoop.lasting = before.loops.map OpenLoop.lasting := by
  obtain ⟨least, numbered, below⟩ := comes.orderly built
  have kept := Part.record_kept numbered.1 below ran
  exact ⟨kept, kept.tags, kept.loops.lasting⟩

/-- A parameter of two items. -/
def ofItems : Occasion :=
  { cls := .unknown, converters := ({} : Registry), param := .array [.string "x", .string "y"] }

/-- In the first pass of an iteration a condition on the item lets the loop reach it, uses up
    the marker of the iteration and binds the item. -/
theorem kept_of_comes_in_pass :
    ∃ (template : Template) (outer : Tag) (part : Part) (before after : Progress) (text : String),
      Draft.build { id := "q", nodes := [.tag { handler := .iterate, removeFirst := some .on }
        [.tag { handler := .conditional .isNotNull, prepend := some "and ", property := some "[]" }
          [.text "a = #[]#"]]] } ({} : Registry) = .ok template ∧
      template.Comes ofItems (some outer) [part] before ∧
      (part.record ofItems (some outer)).run before = .ok (text, after) ∧
      (before.Kept after ∧ after.tags = before.tags ∧
        after.loops.map OpenLoop.lasting = before.loops.map OpenLoop.lasting) ∧
      before.markers = [⟨0, true⟩] ∧ after.markers = [⟨0, false⟩] ∧
      before.loops.map (fun loop => loop.index) = [none] ∧
      after.loops.map (fun loop => loop.index) = [some 0] ∧ after.bindings.length = 1 := by
  let outer : Tag := { handler := .iterate, removeFirst := some .on }
  let inner : Tag :=
    { handler := .conditional .isNotNull, prepend := some "and ", property := some "[]" }
  let part : Part := .tag 1 inner [.text 2 ⟨"a = #[]#", true, none⟩]
  let template : Template := ⟨"q", .unknown, [.tag 0 outer [part]]⟩
  have built : Draft.build { id := "q", nodes := [.tag outer [.tag inner [.text "a = #[]#"]]] }
      ({} : Registry) = .ok template := rfl
  let before : Progress :=
    { markers := [⟨0, true⟩], loops := [.start 0 "" [.string "x", .string "y"]] }
  have started : (outer.startRound ofItems none 0).run {} = .ok (true, before) := rfl
  have comes : template.Comes ofItems (some outer) [part] before := .inside .start (.first started)
  let told : String × Progress → Bool := fun outcome =>
    decide (outcome.2.markers = [⟨0, false⟩] ∧
      outcome.2.loops.map (fun loop => loop.index) = [some 0] ∧ outcome.2.bindings.length = 1)
  obtain ⟨⟨text, after⟩, ran, done⟩ :
      ∃ outcome, (part.record ofItems (some outer)).run before = .ok outcome ∧
        told outcome = true := by
    apply exists_ok_of_any
    decide +kernel
  obtain ⟨markers, index, count⟩ := of_decide_eq_true done
  exact ⟨template, outer, part, before, after, text, built, comes, ran,
    kept_of_comes built comes ran, rfl, markers, rfl, index, count⟩

end Template

end DynamicSql
