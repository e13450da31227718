import DynamicSql.Proofs.Rendering.Discipline

/-!
# Passes of an iteration

The passes of an iteration as a relation without a bound on their number: the
loop goes on while there is an item left, unless a pass says that it was the
last one. One pass reaches one item, whether something in the body asks for it
or the end of the pass goes on to it, so there are as many passes as items and
the bound with which the passes are rendered is never what stops them.
-/

namespace DynamicSql

open Rendering

namespace Loop

/-- The loop is between two passes, and no pass was the last one. -/
structure Pending (loop : Loop) : Prop where
  stepped : loop.stepped = false
  exhausted : loop.exhausted = false

/-- The first look at the item of a pass reaches it. -/
theorem Pending.index_advance {loop : Loop} (pending : loop.Pending) :
    loop.advance.index = some loop.upcoming := by
  simp [advance, pending.stepped, step]

/-- The count of the items that were not reached. -/
def remaining (loop : Loop) : Nat := loop.size - loop.upcoming

theorem hasNext_eq_remaining (loop : Loop) : loop.hasNext = decide (0 < loop.remaining) := by
  simp only [hasNext, remaining]
  congr 1
  apply propext
  omega

/-- Going on to an item leaves one less. -/
theorem remaining_step (loop : Loop) : loop.step.remaining = loop.remaining - 1 := by
  have upcoming : loop.step.upcoming = loop.upcoming + 1 := rfl
  have size : loop.step.size = loop.size := rfl
  rw [remaining, remaining, upcoming, size]
  omega

/-- What a pass does to a pending loop, whether or not its body has reached the item. -/
structure Ended (loop : Loop) (tag : Tag) (body : String) (pass : PassEnd) : Prop where
  array : loop.SameArray pass.loop
  upcoming : pass.loop.upcoming = loop.upcoming + 1
  stepped : pass.loop.stepped = false
  produced : pass.loop.produced = (loop.produced || Text.hasContent body)
  exhausted : pass.loop.exhausted = true → loop.step.hasNext = false
  isFirst : pass.isFirst = (Text.hasContent body && ! loop.produced)
  text : pass.text =
    (if Text.hasContent body then
      if loop.produced then tag.conjunction.getD "" else tag.opening.getD ""
    else "") ++ body ++
      if (loop.produced || Text.hasContent body) && ! loop.step.hasNext then
        tag.closing.getD ""
      else ""

theorem Ended.remaining {loop : Loop} {tag : Tag} {body : String} {pass : PassEnd}
    (does : loop.Ended tag body pass) : pass.loop.remaining = loop.remaining - 1 := by
  rw [Loop.remaining, Loop.remaining, does.array.size, does.upcoming]
  omega

/-- The end of a pass that has reached its item, by what was reached. -/
theorem endPass_text (loop reached : Loop) (tag : Tag) (body : String)
    (same : (if loop.stepped then loop else loop.step) = reached) :
    (loop.endPass tag body).text =
      (if Text.hasContent body then
        if loop.produced then tag.conjunction.getD "" else tag.opening.getD ""
      else "") ++ body ++
        if (loop.produced || Text.hasContent body) && ! reached.hasNext then
          tag.closing.getD ""
        else "" := by
  subst same
  cases content : Text.hasContent body <;> cases produced : loop.produced <;>
    simp [endPass, content, produced, apply_ite (Option.getD · "")]

/-- A pass that comes to its item only at the end. -/
theorem ended_endPass (loop : Loop) (tag : Tag) (body : String) (pending : loop.Pending) :
    loop.Ended tag body (loop.endPass tag body) := by
  obtain ⟨stepped, exhausted⟩ := pending
  refine ⟨loop.sameArray_endPass tag body, ?_, ?_, ?_, ?_, rfl,
    endPass_text loop loop.step tag body (by simp [stepped])⟩ <;>
    simp [endPass, step, upcoming, stepped, exhausted]

/-- A pass whose body has come to the item. -/
theorem ended_endPass_advance (loop : Loop) (tag : Tag) (body : String)
    (pending : loop.Pending) : loop.Ended tag body (loop.advance.endPass tag body) := by
  obtain ⟨stepped, exhausted⟩ := pending
  have reached : loop.advance =
      { loop.step with stepped := true, exhausted := ! loop.step.hasNext } := by
    simp [advance, stepped, step, exhausted]
  have produced : loop.advance.produced = loop.produced := by rw [reached]; rfl
  have text := endPass_text loop.advance loop.advance tag body (by simp [reached])
  have next : loop.advance.hasNext = loop.step.hasNext := by rw [reached]; rfl
  rw [produced, next] at text
  refine ⟨loop.sameArray_advance.trans (loop.advance.sameArray_endPass tag body), ?_, ?_, ?_, ?_,
    ?_, text⟩ <;>
    simp [endPass, reached, step, upcoming]

end Loop

namespace Tag

/-- The passes of the innermost loop without a bound on their number: from the one
    frames to the other, with what the body gives in each pass and with what the
    passes make of it. -/
inductive Passes (tag : Tag) (parent : Option Tag) (body : Rendering Fragment) :
    Frames → List Fragment → Fragment → Frames → Prop
  | done {frames : Frames} (none : frames.loops.head?.any Loop.hasNext = false) :
      Passes tag parent body frames [] {} frames
  | last {frames middle next : Frames} {inner piece : Fragment}
      (some : frames.loops.head?.any Loop.hasNext = true)
      (ran : body.run frames = .ok (inner, middle))
      (ended : tag.endPass parent inner middle = ((piece, true), next)) :
      Passes tag parent body frames [inner] piece next
  | more {frames middle next after : Frames} {inner piece rest : Fragment}
      {inners : List Fragment}
      (some : frames.loops.head?.any Loop.hasNext = true)
      (ran : body.run frames = .ok (inner, middle))
      (ended : tag.endPass parent inner middle = ((piece, false), next))
      (others : Passes tag parent body next inners rest after) :
      Passes tag parent body frames (inner :: inners) (piece ++ rest) after

/-- A bound that the passes do not exceed does not matter. -/
theorem Passes.run {tag : Tag} {parent : Option Tag} {body : Rendering Fragment}
    {frames after : Frames} {inners : List Fragment} {fragment : Fragment}
    (passes : tag.Passes parent body frames inners fragment after) {count : Nat}
    (le : inners.length ≤ count) :
    (tag.passes parent body count).run frames = .ok (fragment, after) := by
  induction passes generalizing count with
  | done none =>
    cases count with
    | zero => exact run_pure_eq_ok.mpr ⟨rfl, rfl⟩
    | succ count => exact passes_succ_eq_ok.mpr (.inl ⟨none, rfl, rfl⟩)
  | last some ran ended =>
    cases count with
    | zero => simp at le
    | succ count =>
      exact passes_succ_eq_ok.mpr
        (.inr ⟨some, _, _, _, _, _, ran, ended, .inl ⟨rfl, rfl, rfl⟩⟩)
  | more some ran ended _ ih =>
    cases count with
    | zero => simp at le
    | succ count =>
      have others := ih (Nat.le_of_succ_le_succ le)
      exact passes_succ_eq_ok.mpr
        (.inr ⟨some, _, _, _, _, _, ran, ended, .inr ⟨rfl, _, others, rfl⟩⟩)

/-- In front of text with content stands what the tag has for it, unless the marker
    around the tag is armed. -/
theorem prependTo_of_own {tag : Tag} {parent : Option Tag} {text : String} {frames : Frames}
    {own : Marker} {rest : List Marker} (markers : frames.markers = own :: rest)
    (content : Text.hasContent text = true) :
    (tag.prependTo parent text frames).1 =
      (if parent.isSome && rest.head?.any Marker.armed then "" else tag.prepend.getD "") ++
        text := by
  obtain ⟨_, loops⟩ := frames
  subst markers
  cases lead : tag.prepend with
  | none => simp [prependTo, lead]
  | some lead' =>
    cases parent with
    | none => simp [prependTo, lead, content]
    | some outside =>
      cases rest with
      | nil => simp [prependTo, lead, content, Frames.takeEnclosing]
      | cons enclosing rest =>
        cases armed : enclosing.armed <;>
          simp [prependTo, lead, content, Frames.takeEnclosing, armed]

/-- What the end of a pass leaves behind, by what it does to the loop: the markers
    around the tag change at most if the pass is the first one with content. -/
structure Passed (tag : Tag) (parent : Option Tag) (id : Nat) (rest : List Marker)
    (outer : List Loop) (inner : Fragment) (pass : PassEnd) (piece : Fragment)
    (next : Frames) : Prop where
  loops : next.loops = pass.loop :: outer
  markers : ∃ armed rest', next.markers = ⟨id, armed⟩ :: rest' ∧
    (pass.isFirst = false → rest' = rest)
  bindings : piece.bindings = inner.bindings
  sql : piece.sql =
    if pass.isFirst then
      (if parent.isSome && rest.head?.any Marker.armed then "" else tag.prepend.getD "") ++
        pass.text
    else pass.text

theorem endPass_passed {tag : Tag} {parent : Option Tag} {id : Nat} {armed : Bool}
    {rest : List Marker} {loop : Loop} {outer : List Loop} {inner piece : Fragment}
    {isLast : Bool} {frames next : Frames} (loops : frames.loops = loop :: outer)
    (markers : frames.markers = ⟨id, armed⟩ :: rest)
    (content : (loop.endPass tag inner.sql).isFirst = true →
      Text.hasContent (loop.endPass tag inner.sql).text = true)
    (ended : tag.endPass parent inner frames = ((piece, isLast), next)) :
    isLast = (loop.endPass tag inner.sql).loop.exhausted ∧
      tag.Passed parent id rest outer inner (loop.endPass tag inner.sql) piece next := by
  obtain ⟨kept, nextLoops⟩ := endPass_kept tag parent inner loops ⟨armed, rest, markers⟩
  rw [ended] at kept nextLoops
  obtain ⟨armed', rest', nextMarkers⟩ := kept.has_own
  obtain ⟨_, _⟩ := frames
  subst loops markers
  rw [endPass_cons] at ended
  revert content ended nextLoops
  generalize loop.endPass tag inner.sql = pass
  intro content nextLoops ended
  dsimp only at ended nextMarkers
  rw [Prod.mk.injEq, Prod.mk.injEq] at ended
  obtain ⟨⟨rfl, rfl⟩, nextFrames⟩ := ended
  refine ⟨rfl, nextLoops, ⟨armed', rest', nextMarkers, fun notFirst => ?_⟩, rfl, ?_⟩
  · rw [notFirst] at nextFrames
    simp only [Bool.false_eq_true, ↓reduceIte] at nextFrames
    split at nextFrames
    · subst nextFrames
      cases nextMarkers
      rfl
    · subst nextFrames
      cases nextMarkers
      rfl
  · dsimp only
    split
    · next first => exact prependTo_of_own rfl (content first)
    · rfl

/-- An iteration with no other attribute than its property. -/
def through (property : Option String) : Tag := { handler := .iterate, property }

/-- Such an iteration leaves the fragment of a pass as it is. -/
theorem endPass_through (property : Option String) (parent : Option Tag) (inner : Fragment)
    {frames : Frames} {loop : Loop} {outer : List Loop} (loops : frames.loops = loop :: outer) :
    (through property).endPass parent inner frames =
      ((inner, (loop.endPass (through property) inner.sql).loop.exhausted),
        { frames with loops := (loop.endPass (through property) inner.sql).loop :: outer }) := by
  obtain ⟨markers, _⟩ := frames
  subst loops
  have text : (loop.endPass (through property) inner.sql).text = inner.sql := by
    rw [loop.endPass_text _ (through property) inner.sql rfl]
    simp [through]
  have front : ∀ frames : Frames, (through property).prependTo parent inner.sql frames =
      (inner.sql, frames) := fun _ => prependTo_none rfl
  rw [endPass_cons]
  simp only [text, front, ite_self]
  rw [if_neg (by simp [through])]

end Tag

/-- An iteration outside every other one is built around what its body is built to inside
    an iteration. -/
theorem Node.buildAll_through {cls : ParameterClass} {converters : Converters} {id : Nat}
    {body : List Node} {parts : List Part} (property : Option String)
    (built : buildAll cls converters true (id + 1) body = .ok parts) :
    buildAll cls converters false id [.tag (.through property) body] =
      .ok [.tag id (.through property) parts] := by
  have alone : build cls converters false id (.tag (.through property) body) =
      .ok (.tag id (.through property) parts) :=
    bind_eq_ok_iff.mpr ⟨_, rfl, bind_eq_ok_iff.mpr ⟨parts, built, rfl⟩⟩
  exact bind_eq_ok_iff.mpr ⟨_, alone, bind_eq_ok_iff.mpr ⟨[], rfl, rfl⟩⟩

end DynamicSql
