import DynamicSql.Proofs.Rendering.Tree

/-!
# Stack discipline

A part leaves the frames as it finds them, but for two things: it may use up the
innermost marker, and the innermost loop may reach its item. This holds although
some tags enter without a marker, although an iteration leaves its loop in more
than one way, and although the text in front of a tag uses up a marker that is
not the innermost one: it is the innermost one again once the tag is left.
-/

namespace DynamicSql

open Rendering

/-- The markers after a part: the same, or the innermost one used up. -/
inductive MarkersKept : List Marker → List Marker → Prop
  | same (markers : List Marker) : MarkersKept markers markers
  | usedUp (marker : Marker) (rest : List Marker) :
      MarkersKept (marker :: rest) ({ marker with armed := false } :: rest)

/-- The loops after a part: the same, or the innermost one at its item. -/
inductive LoopsKept : List Loop → List Loop → Prop
  | same (loops : List Loop) : LoopsKept loops loops
  | advanced (loop : Loop) (outer : List Loop) :
      LoopsKept (loop :: outer) (loop.advance :: outer)

/-- The markers after the content of the tag with the given number, whose own marker
    is the innermost one: the own marker may be in any state. -/
inductive MarkersKeptWithin (id : Nat) : List Marker → List Marker → Prop
  | own {armed armed' : Bool} {rest rest' : List Marker} (kept : MarkersKept rest rest') :
      MarkersKeptWithin id (⟨id, armed⟩ :: rest) (⟨id, armed'⟩ :: rest')

/-- A loop through the same array as another one. -/
structure Loop.SameArray (before after : Loop) : Prop where
  tag : after.tag = before.tag
  size : after.size = before.size
  property : after.property = before.property

namespace MarkersKept

theorem trans {first second third : List Marker} (left : MarkersKept first second)
    (right : MarkersKept second third) : MarkersKept first third := by
  cases left with
  | same => exact right
  | usedUp marker rest =>
    cases right with
    | same => exact .usedUp marker rest
    | usedUp => exact .usedUp marker rest

theorem head_tag {before after : List Marker} (kept : MarkersKept before after) :
    after.head?.map Marker.tag = before.head?.map Marker.tag := by
  cases kept <;> rfl

theorem within {id : Nat} {before after : List Marker} (kept : MarkersKept before after)
    (own : ∃ armed rest, before = ⟨id, armed⟩ :: rest) :
    MarkersKeptWithin id before after := by
  obtain ⟨armed, rest, rfl⟩ := own
  cases kept with
  | same => exact .own (.same rest)
  | usedUp => exact .own (.same rest)

end MarkersKept

namespace MarkersKeptWithin

theorem trans {id : Nat} {first second third : List Marker}
    (left : MarkersKeptWithin id first second) (right : MarkersKeptWithin id second third) :
    MarkersKeptWithin id first third := by
  cases left with
  | own keptLeft =>
    cases right with
    | own keptRight => exact .own (keptLeft.trans keptRight)

theorem rearm {id : Nat} {before : List Marker} {after : Frames}
    (kept : MarkersKeptWithin id before after.markers) :
    MarkersKeptWithin id before after.rearm.markers := by
  obtain ⟨markers, loops⟩ := after
  cases kept with
  | own kept => exact .own kept

theorem has_own {id : Nat} {before after : List Marker}
    (kept : MarkersKeptWithin id before after) : ∃ armed rest, after = ⟨id, armed⟩ :: rest := by
  cases kept
  exact ⟨_, _, rfl⟩

end MarkersKeptWithin

namespace LoopsKept

theorem trans {first second third : List Loop} (left : LoopsKept first second)
    (right : LoopsKept second third) : LoopsKept first third := by
  cases left with
  | same => exact right
  | advanced loop outer =>
    generalize reached : loop.advance :: outer = loops at right
    cases right with
    | same =>
      subst reached
      exact .advanced loop outer
    | advanced again outer' =>
      cases reached
      rw [Loop.advance_advance]
      exact .advanced loop outer

end LoopsKept

namespace Loop

theorem SameArray.refl (loop : Loop) : loop.SameArray loop := ⟨rfl, rfl, rfl⟩

theorem SameArray.trans {first second third : Loop} (left : first.SameArray second)
    (right : second.SameArray third) : first.SameArray third :=
  ⟨right.tag.trans left.tag, right.size.trans left.size, right.property.trans left.property⟩

theorem sameArray_advance (loop : Loop) : loop.SameArray loop.advance := by
  unfold advance
  split <;> exact ⟨rfl, rfl, rfl⟩

theorem sameArray_endPass (loop : Loop) (tag : Tag) (body : String) :
    loop.SameArray (loop.endPass tag body).loop := by
  unfold endPass
  constructor <;> (dsimp only; split <;> rfl)

end Loop

/-- The loops after a part, if there are any. -/
theorem LoopsKept.cons {before after : List Loop} {loop : Loop} {outer : List Loop}
    (kept : LoopsKept before after) (loops : before = loop :: outer) :
    ∃ next, after = next :: outer ∧ (next = loop ∨ next = loop.advance) := by
  cases kept with
  | same => exact ⟨loop, loops, .inl rfl⟩
  | advanced first rest =>
    cases loops
    exact ⟨_, rfl, .inr rfl⟩

namespace Frames

@[simp]
theorem loops_rearm (frames : Frames) : frames.rearm.loops = frames.loops := by
  unfold rearm
  split <;> rfl

/-- The frames after a part. -/
structure Kept (before after : Frames) : Prop where
  markers : MarkersKept before.markers after.markers
  loops : LoopsKept before.loops after.loops

/-- The innermost marker belongs to a tag with a number below the given one. -/
def Below (frames : Frames) (bound : Nat) : Prop :=
  ∀ marker ∈ frames.markers.head?, marker.tag < bound

namespace Kept

theorem refl (frames : Frames) : frames.Kept frames := ⟨.same _, .same _⟩

theorem trans {first second third : Frames} (left : first.Kept second)
    (right : second.Kept third) : first.Kept third :=
  ⟨left.markers.trans right.markers, left.loops.trans right.loops⟩

theorem below {before after : Frames} {bound : Nat} (kept : before.Kept after)
    (below : before.Below bound) : after.Below bound := by
  intro marker member
  have tags := kept.markers.head_tag
  rw [Option.mem_def.mp member, Option.map_some] at tags
  obtain ⟨own, found, same⟩ := Option.map_eq_some_iff.mp tags.symm
  rw [← same]
  exact below own found

end Kept

@[simp]
theorem markers_advance (frames : Frames) : frames.advance.markers = frames.markers := by
  unfold advance
  split <;> rfl

theorem kept_advance (frames : Frames) : frames.Kept frames.advance := by
  obtain ⟨markers, loops⟩ := frames
  cases loops with
  | nil => exact .refl _
  | cons loop outer => exact ⟨.same _, .advanced loop outer⟩

theorem Below.mono {frames : Frames} {bound greater : Nat} (below : frames.Below bound)
    (le : bound ≤ greater) : frames.Below greater :=
  fun marker member => Nat.lt_of_lt_of_le (below marker member) le

/-- Inside a tag with a marker the innermost marker is that of the tag. -/
theorem below_of_own {frames : Frames} {id : Nat}
    (own : ∃ armed rest, frames.markers = ⟨id, armed⟩ :: rest) : frames.Below (id + 1) := by
  obtain ⟨armed, rest, same⟩ := own
  intro marker member
  rw [same, List.head?_cons, Option.mem_some_iff] at member
  rw [← member]
  exact Nat.lt_succ_self id

/-- Using up the marker around the innermost one is done inside the tag of the
    innermost one. -/
theorem takeEnclosing_kept {frames : Frames} {id : Nat}
    (own : ∃ armed rest, frames.markers = ⟨id, armed⟩ :: rest) :
    MarkersKeptWithin id frames.markers frames.takeEnclosing.2.markers ∧
      frames.takeEnclosing.2.loops = frames.loops := by
  obtain ⟨markers, loops⟩ := frames
  obtain ⟨armed, rest, rfl⟩ := own
  cases rest with
  | nil => exact ⟨.own (.same []), rfl⟩
  | cons enclosing rest =>
    unfold takeEnclosing
    dsimp only
    split
    · exact ⟨.own (.usedUp enclosing rest), rfl⟩
    · exact ⟨.own (.same _), rfl⟩

/-- Leaving a tag takes its own marker away. -/
theorem popMarker_kept {frames left : Frames} {id : Nat} {armed : Bool}
    (markers : MarkersKeptWithin id (⟨id, armed⟩ :: frames.markers) left.markers)
    (loops : LoopsKept frames.loops left.loops) : frames.Kept (left.popMarker id) := by
  obtain ⟨leftMarkers, leftLoops⟩ := left
  cases markers with
  | own kept =>
    simp only [popMarker, ↓reduceIte]
    exact ⟨kept, loops⟩

theorem popMarker_own (id : Nat) (armed : Bool) (rest : List Marker) (loops : List Loop) :
    (⟨⟨id, armed⟩ :: rest, loops⟩ : Frames).popMarker id = ⟨rest, loops⟩ := by
  simp [popMarker]

/-- Leaving a tag without a marker changes nothing. -/
theorem popMarker_of_below {frames : Frames} {id : Nat} (below : frames.Below id) :
    frames.popMarker id = frames := by
  obtain ⟨markers, loops⟩ := frames
  cases markers with
  | nil => rfl
  | cons marker rest =>
    have less : marker.tag < id := below marker rfl
    simp [popMarker, Nat.ne_of_lt less]

end Frames

/-- A rendering inside the tag with the given number leaves the frames as it finds them. -/
def KeepsFrames (id : Nat) (body : Rendering Fragment) : Prop :=
  ∀ ⦃frames fragment after⦄, frames.Below (id + 1) → body.run frames = .ok (fragment, after) →
    frames.Kept after

namespace Occasion

theorem subject_kept {occasion : Occasion} {tag : Tag} {found : String × Option Value}
    {frames after : Frames}
    (ran : (occasion.subject tag).run frames = .ok (found, after)) :
    after.markers = frames.markers ∧ LoopsKept frames.loops after.loops := by
  rcases subject_frames ran with rfl | rfl
  · exact ⟨rfl, .same _⟩
  · exact ⟨frames.markers_advance, frames.kept_advance.loops⟩

theorem decides_kept {occasion : Occasion} {condition : Condition} {tag : Tag}
    {holds : Bool} {frames after : Frames}
    (ran : (occasion.decides condition tag).run frames = .ok (holds, after)) :
    after.markers = frames.markers ∧ LoopsKept frames.loops after.loops := by
  rcases decides_frames ran with rfl | rfl
  · exact ⟨rfl, .same _⟩
  · exact ⟨frames.markers_advance, frames.kept_advance.loops⟩

end Occasion

namespace Tag

theorem prependTo_kept (tag : Tag) (parent : Option Tag) (body : String) {frames : Frames}
    {id : Nat} (own : ∃ armed rest, frames.markers = ⟨id, armed⟩ :: rest) :
    MarkersKeptWithin id frames.markers (tag.prependTo parent body frames).2.markers ∧
      (tag.prependTo parent body frames).2.loops = frames.loops := by
  have stays : MarkersKeptWithin id frames.markers frames.markers :=
    (MarkersKept.same _).within own
  unfold prependTo
  split
  · exact ⟨stays, rfl⟩
  · split
    · exact ⟨stays, rfl⟩
    · split
      · exact ⟨stays, rfl⟩
      · exact Frames.takeEnclosing_kept own

/-- A tag without a text in front never looks at the markers. -/
theorem prependTo_none {tag : Tag} {parent : Option Tag} {body : String} {frames : Frames}
    (without : tag.prepend = none) : tag.prependTo parent body frames = (body, frames) := by
  simp [prependTo, without]

/-- Only a conditional tag without a text in front enters without a marker. -/
theorem conditional_of_marker? {tag : Tag} {parent : Option Tag}
    (without : tag.marker? parent = none) :
    tag.prepend = none ∧ ∃ condition, tag.handler = .conditional condition := by
  unfold marker? at without
  dsimp only at without
  split at without
  · cases without
  · cases handler : tag.handler with
    | conditional condition =>
      cases present : tag.prepend with
      | none => exact ⟨rfl, condition, rfl⟩
      | some lead => simp [handler, Handler.isGroup, present] at without
    | group => simp [handler, Handler.isGroup] at without
    | iterate => simp [handler, Handler.isGroup] at without

/-- An iteration enters with a marker, whatever stands in front of it. -/
theorem exists_marker?_of_iterate {tag : Tag} (iterate : tag.handler = .iterate)
    (parent : Option Tag) : ∃ armed, tag.marker? parent = some armed := by
  cases entered : tag.marker? parent with
  | some armed => exact ⟨armed, rfl⟩
  | none =>
    obtain ⟨-, condition, conditional⟩ := conditional_of_marker? entered
    rw [iterate] at conditional
    cases conditional

/-- The end of a pass in terms of the innermost loop. -/
theorem endPass_cons (tag : Tag) (parent : Option Tag) (inner : Fragment)
    (markers : List Marker) (loop : Loop) (outer : List Loop) :
    tag.endPass parent inner ⟨markers, loop :: outer⟩ =
      let pass := loop.endPass tag inner.sql
      let ended : Frames := ⟨markers, pass.loop :: outer⟩
      let front :=
        if pass.isFirst then tag.prependTo parent pass.text ended else (pass.text, ended)
      ((⟨front.1, inner.bindings⟩, pass.loop.exhausted),
        if ! pass.loop.exhausted && tag.removeFirst = some .everyPass then front.2.rearm
        else front.2) := rfl

/-- The end of a pass stays inside the tag and goes on with the same array. -/
theorem endPass_kept (tag : Tag) (parent : Option Tag) (inner : Fragment) {frames : Frames}
    {id : Nat} {loop : Loop} {outer : List Loop} (loops : frames.loops = loop :: outer)
    (own : ∃ armed rest, frames.markers = ⟨id, armed⟩ :: rest) :
    MarkersKeptWithin id frames.markers (tag.endPass parent inner frames).2.markers ∧
      (tag.endPass parent inner frames).2.loops =
        (loop.endPass tag inner.sql).loop :: outer := by
  obtain ⟨markers, _⟩ := frames
  subst loops
  rw [endPass_cons]
  generalize loop.endPass tag inner.sql = pass
  have front : ∀ front : String × Frames,
      front = (if pass.isFirst then tag.prependTo parent pass.text ⟨markers, pass.loop :: outer⟩
        else (pass.text, ⟨markers, pass.loop :: outer⟩)) →
      MarkersKeptWithin id markers front.2.markers ∧ front.2.loops = pass.loop :: outer := by
    rintro front rfl
    split
    · have inside : ∃ armed rest,
          (⟨markers, pass.loop :: outer⟩ : Frames).markers = ⟨id, armed⟩ :: rest := own
      exact prependTo_kept tag parent pass.text inside
    · exact ⟨(MarkersKept.same _).within own, rfl⟩
  obtain ⟨kept, loops⟩ := front _ rfl
  dsimp only
  split
  · exact ⟨kept.rearm, by rw [Frames.loops_rearm, loops]⟩
  · exact ⟨kept, loops⟩

section Body

variable {body : Rendering Fragment} {id : Nat}

/-- The passes stay inside the tag and leave the outer loops alone, if the body is
    such that it leaves the frames as it finds them. -/
theorem passes_kept {tag : Tag} {parent : Option Tag}
    (bodyKept : KeepsFrames id body)
    {count : Nat} {fragment : Fragment} {frames after : Frames} {loop : Loop}
    {outer : List Loop} (loops : frames.loops = loop :: outer)
    (own : ∃ armed rest, frames.markers = ⟨id, armed⟩ :: rest)
    (ran : (tag.passes parent body count).run frames = .ok (fragment, after)) :
    MarkersKeptWithin id frames.markers after.markers ∧
      ∃ last, after.loops = last :: outer ∧ loop.SameArray last := by
  have stays : MarkersKeptWithin id frames.markers frames.markers :=
    (MarkersKept.same _).within own
  induction count generalizing fragment frames loop with
  | zero =>
    obtain ⟨rfl, rfl⟩ := run_pure_eq_ok.mp ran
    exact ⟨stays, loop, loops, .refl loop⟩
  | succ count ih =>
    rcases passes_succ_eq_ok.mp ran with
      ⟨_, rfl, rfl⟩ | ⟨_, inner, middle, piece, isLast, next, ranBody, ended, rest⟩
    · exact ⟨stays, loop, loops, .refl loop⟩
    · have kept := bodyKept (Frames.below_of_own own) ranBody
      have first := kept.markers.within own
      obtain ⟨reached, reachedLoops, stepped⟩ := kept.loops.cons loops
      have reachedSame : loop.SameArray reached := by
        rcases stepped with rfl | rfl
        · exact .refl _
        · exact loop.sameArray_advance
      obtain ⟨second, nextLoops⟩ := endPass_kept tag parent inner reachedLoops first.has_own
      rw [ended] at second nextLoops
      have step := first.trans second
      have same := reachedSame.trans (reached.sameArray_endPass tag inner.sql)
      rcases rest with ⟨_, rfl, rfl⟩ | ⟨_, others, more, rfl⟩
      · exact ⟨step, _, nextLoops, same⟩
      · obtain ⟨markers, last, lastLoops, lastSame⟩ :=
          ih nextLoops step.has_own more ((MarkersKept.same _).within step.has_own)
        exact ⟨step.trans markers, last, lastLoops, same.trans lastSame⟩

/-- A tag with a marker of its own renders its content inside the tag. -/
theorem content_kept_within {tag : Tag} {occasion : Occasion} {parent : Option Tag}
    (bodyKept : KeepsFrames id body)
    {fragment : Fragment} {frames after : Frames}
    (own : ∃ armed rest, frames.markers = ⟨id, armed⟩ :: rest)
    (ran : (tag.content occasion parent id body).run frames = .ok (fragment, after)) :
    MarkersKeptWithin id frames.markers after.markers ∧ LoopsKept frames.loops after.loops := by
  have onceKept {frames fragment after}
      (own : ∃ armed rest, frames.markers = ⟨id, armed⟩ :: rest)
      (ran : (tag.once parent body).run frames = .ok (fragment, after)) :
      MarkersKeptWithin id frames.markers after.markers ∧
        LoopsKept frames.loops after.loops := by
    obtain ⟨inner, middle, ranBody, -, rfl⟩ := once_eq_ok.mp ran
    have kept := bodyKept (Frames.below_of_own own) ranBody
    have first := kept.markers.within own
    obtain ⟨second, same⟩ := prependTo_kept tag parent (tag.wrap inner.sql) first.has_own
    exact ⟨first.trans second, by rw [same]; exact kept.loops⟩
  rcases content_eq_ok.mp ran with
    ⟨-, once⟩ | ⟨condition, -, holds, middle, decided, branch⟩ | ⟨-, iterated⟩
  · exact onceKept own once
  · have looked : middle.markers = frames.markers ∧ LoopsKept frames.loops middle.loops :=
      Occasion.decides_kept decided
    rcases branch with ⟨-, once⟩ | ⟨-, -, rfl⟩
    · obtain ⟨markers, loops⟩ := onceKept (by rw [looked.1]; exact own) once
      exact ⟨by rw [← looked.1]; exact markers, looked.2.trans loops⟩
    · exact ⟨by rw [looked.1]; exact (MarkersKept.same _).within own, looked.2⟩
  · obtain ⟨property, items, opened, closed, collected, passed, rfl⟩ :=
      iterateOver_eq_ok.mp iterated
    obtain ⟨same, loops⟩ := Occasion.subject_kept (Occasion.collection_eq_ok.mp collected)
    obtain ⟨markers, last, closedLoops, -⟩ := passes_kept bodyKept rfl
      (by rw [← same] at own; exact own) passed
    refine ⟨by rw [← same]; exact markers, ?_⟩
    have left : closed.popLoop.loops = opened.loops := by
      simp [Frames.popLoop, closedLoops]
    rw [left]
    exact loops

/-- A conditional tag without a text in front renders its content like its body. -/
theorem content_kept {tag : Tag} {occasion : Occasion} {parent : Option Tag}
    (bodyKept : KeepsFrames id body)
    {condition : Condition} (conditional : tag.handler = .conditional condition)
    (without : tag.prepend = none) {fragment : Fragment} {frames after : Frames}
    (below : frames.Below id)
    (ran : (tag.content occasion parent id body).run frames = .ok (fragment, after)) :
    frames.Kept after := by
  rcases content_eq_ok.mp ran with
    ⟨group, -⟩ | ⟨_, -, holds, middle, decided, branch⟩ | ⟨iterate, -⟩
  · rw [conditional] at group
    cases group
  · obtain ⟨markers, loops⟩ := Occasion.decides_kept decided
    have looked : frames.Kept middle := ⟨by rw [markers]; exact .same _, loops⟩
    rcases branch with ⟨-, once⟩ | ⟨-, -, rfl⟩
    · obtain ⟨inner, inside, ranBody, -, rfl⟩ := once_eq_ok.mp once
      rw [prependTo_none without]
      have deeper := (looked.below below).mono (Nat.le_succ id)
      exact looked.trans (bodyKept deeper ranBody)
    · exact looked
  · rw [conditional] at iterate
    cases iterate

/-- A tag leaves the frames as it finds them, if its body is such that it does. -/
theorem around_kept {tag : Tag} {occasion : Occasion} {parent : Option Tag}
    (bodyKept : KeepsFrames id body)
    {fragment : Fragment} {frames after : Frames} (below : frames.Below id)
    (ran : (tag.around occasion parent id body).run frames = .ok (fragment, after)) :
    frames.Kept after := by
  obtain ⟨left, ranContent, rfl⟩ := around_eq_ok.mp ran
  cases entered : tag.marker? parent with
  | some armed =>
    rw [entered] at ranContent
    have own : ∃ armed' rest, (frames.enter id (some armed)).markers = ⟨id, armed'⟩ :: rest :=
      ⟨armed, frames.markers, rfl⟩
    obtain ⟨markers, loops⟩ := content_kept_within bodyKept own ranContent
    exact Frames.popMarker_kept markers loops
  | none =>
    rw [entered] at ranContent
    obtain ⟨without, condition, conditional⟩ := conditional_of_marker? entered
    have kept : frames.Kept left := content_kept bodyKept conditional without below ranContent
    rw [Frames.popMarker_of_below (kept.below below)]
    exact kept

end Body

end Tag

namespace Part

variable {occasion : Occasion} {parent : Option Tag} {least : Nat} {fragment : Fragment}
  {frames after : Frames}

private theorem eachOf_trivial : ∀ parts : List Part,
    EachOf (fun _ => True) (fun _ => True) parts
  | [] => trivial
  | .text _ _ :: rest => ⟨trivial, eachOf_trivial rest⟩
  | .tag _ _ body :: rest => ⟨⟨trivial, eachOf_trivial body⟩, eachOf_trivial rest⟩

/-- Parts leave the frames as they find them. -/
theorem renderAll_kept {parts : List Part} (numbered : NumberedAll least parts)
    (below : frames.Below least)
    (ran : (renderAll occasion parent parts).run frames = .ok (fragment, after)) :
    frames.Kept after := by
  refine renderAll_induction
    (motive := fun least rendering => ∀ frames fragment after, frames.Below least →
      rendering.run frames = .ok (fragment, after) → frames.Kept after)
    ?text ?none ?row ?tag parts numbered (eachOf_trivial parts) frames fragment after below ran
  case text =>
    intro _ content _ frames fragment after _ ran
    rcases TextPart.render_eq_ok.mp ran with ⟨-, rfl⟩ | ⟨-, -, -, rfl⟩ | ⟨-, -, rfl, -⟩
    · exact .refl _
    · exact .refl _
    · exact frames.kept_advance
  case none =>
    intro _ frames fragment after _ ran
    obtain ⟨-, rfl⟩ := run_pure_eq_ok.mp ran
    exact .refl _
  case row =>
    intro _ first rest ihFirst ihRest frames fragment after below ran
    obtain ⟨_, middle, ranFirst, more⟩ := run_bind_eq_ok.mp ran
    obtain ⟨_, _, ranRest, last⟩ := run_bind_eq_ok.mp more
    obtain ⟨-, rfl⟩ := run_pure_eq_ok.mp last
    have kept := ihFirst _ _ _ below ranFirst
    exact kept.trans (ihRest _ _ _ (kept.below below) ranRest)
  case tag =>
    intro _ parent id t body _ le ih frames fragment after below ran
    exact Tag.around_kept ih (below.mono le) ran

/-- A part leaves the frames as it finds them. -/
theorem render_kept {part : Part} (numbered : part.Numbered least) (below : frames.Below least)
    (ran : (part.render occasion parent).run frames = .ok (fragment, after)) :
    frames.Kept after := by
  have row : NumberedAll least [part] := ⟨numbered, trivial⟩
  exact renderAll_kept row below (renderAll_singleton_eq_ok.mpr ran)

/-- Outside every tag and loop parts leave no frames behind. -/
theorem renderAll_outside {parts : List Part} (numbered : NumberedAll least parts)
    (ran : (renderAll occasion parent parts).run {} = .ok (fragment, after)) : after = {} := by
  have below : ({} : Frames).Below least := by simp [Frames.Below]
  obtain ⟨markers, loops⟩ := renderAll_kept numbered below ran
  obtain ⟨_, _⟩ := after
  cases markers
  cases loops
  rfl

/-- The body of a tag leaves the frames as it finds them. -/
theorem keepsFrames_renderAll {id : Nat} {body : List Part}
    (numbered : NumberedAll (id + 1) body) : KeepsFrames id (renderAll occasion parent body) :=
  fun _ _ _ below ran => renderAll_kept numbered below ran

end Part

end DynamicSql
