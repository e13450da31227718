import DynamicSql.Proofs.Correspondence.Texts

/-!
# Tags in two surroundings

A tag around bodies that correspond renders to the same in both surroundings. The tag
that it stands in may be there in one of them only, if that one leaves out no text and
no marker is armed: a text in front of a body is then never left out, whether the tag
looks for a marker around its own or not, and whether it has a marker of its own or not.
-/

namespace DynamicSql

open Rendering

/-- Idle loops put nothing into the properties of a tag. -/
structure Tag.Spared (idle : String → Prop) (tag : Tag) : Prop where
  property : ∀ property ∈ tag.property, Text.Spared idle property.toList
  compareProperty : ∀ property ∈ tag.compareProperty, Text.Spared idle property.toList

/-- What two surroundings of parts have in common: the frames are twins, the numbers of
    the parts are new to them, and parts that were read in advance stand outside every
    iteration. -/
structure Frames.Meet (idle : String → Prop) (least least' : Nat) (inIteration : Bool)
    (left right : Frames) : Prop where
  twin : left.Twin idle right
  below : left.Below least
  below' : right.Below least'
  outside : inIteration = false → left.loops = []

theorem Frames.Meet.kept {idle : String → Prop} {least least' : Nat} {inIteration : Bool}
    {left right after after' : Frames} (meet : Frames.Meet idle least least' inIteration left right)
    (twin : after.Twin idle after') (kept : left.Kept after) (kept' : right.Kept after') :
    Frames.Meet idle least least' inIteration after after' := by
  refine ⟨twin, kept.below meet.below, kept'.below meet.below', fun outside => ?_⟩
  have none := kept.loops
  rw [meet.outside outside] at none
  generalize after.loops = loops at none
  cases none
  rfl

theorem Frames.Meet.mono {idle : String → Prop} {least least' bound bound' : Nat}
    {inIteration : Bool} {left right : Frames}
    (meet : Frames.Meet idle least least' inIteration left right) (le : least ≤ bound)
    (le' : least' ≤ bound') : Frames.Meet idle bound bound' inIteration left right :=
  ⟨meet.twin, meet.below.mono le, meet.below'.mono le', meet.outside⟩

/-- Inside a tag with a marker of its own the numbers behind the tag are new. -/
theorem Frames.Meet.enter {idle : String → Prop} {id id' : Nat} {inIteration : Bool}
    {left right : Frames} {marker marker' : Option Bool}
    (meet : Frames.Meet idle id id' inIteration left right)
    (own : ∃ armed rest, (left.enter id marker).markers = ⟨id, armed⟩ :: rest)
    (own' : ∃ armed rest, (right.enter id' marker').markers = ⟨id', armed⟩ :: rest)
    (twin : (left.enter id marker).Twin idle (right.enter id' marker')) :
    Frames.Meet idle (id + 1) (id' + 1) inIteration (left.enter id marker)
      (right.enter id' marker') := by
  refine ⟨twin, below_of_own own, below_of_own own', fun outside => ?_⟩
  rw [loops_enter]
  exact meet.outside outside

/-- The tag may have a marker of its own in one of the surroundings only. -/
theorem Frames.Meet.enter_left {idle : String → Prop} {id least' : Nat} {inIteration : Bool}
    {left right : Frames} {marker : Option Bool}
    (meet : Frames.Meet idle (id + 1) least' inIteration left right)
    (own : ∃ armed rest, (left.enter id marker).markers = ⟨id, armed⟩ :: rest)
    (twin : (left.enter id marker).Twin idle right) :
    Frames.Meet idle (id + 1) least' inIteration (left.enter id marker) right := by
  refine ⟨twin, below_of_own own, meet.below', fun outside => ?_⟩
  rw [loops_enter]
  exact meet.outside outside

/-- Renderings of the bodies of a tag in two surroundings. -/
def BodiesCorrespond (idle : String → Prop) (id id' : Nat) (inIteration : Bool)
    (body body' : Rendering Fragment) : Prop :=
  ∀ ⦃left right⦄, Frames.Meet idle (id + 1) (id' + 1) inIteration left right →
    Corresponding (Frames.Twin idle) (body.run left) (body'.run right)

namespace Occasion

variable {idle : String → Prop} {occasion : Occasion} {left right : Frames} {tag : Tag}

theorem look_corresponds (twin : left.Twin idle right) {property : String}
    (spared : Text.Spared idle property.toList) :
    Corresponding (Frames.Twin idle) ((occasion.look property).run left)
      ((occasion.look property).run right) := by
  unfold look
  refine .modify (.get ?_)
  rw [twin.advance.qualify spared]
  exact .bind_pure (.lift _ twin.advance)

theorem subject_corresponds (twin : left.Twin idle right) (spared : tag.Spared idle) :
    Corresponding (Frames.Twin idle) ((occasion.subject tag).run left)
      ((occasion.subject tag).run right) := by
  unfold subject
  cases named : tag.property with
  | none => exact .pure _ twin
  | some property => exact look_corresponds twin (spared.property property named)

theorem collection_corresponds (twin : left.Twin idle right) (spared : tag.Spared idle) :
    Corresponding (Frames.Twin idle) ((occasion.collection tag).run left)
      ((occasion.collection tag).run right) := by
  unfold collection
  refine .bind (subject_corresponds twin spared) fun found _ _ _ _ reached => ?_
  exact .bind_pure (.lift _ reached)

theorem operand_corresponds (twin : left.Twin idle right) (spared : tag.Spared idle)
    (condition : Condition) :
    Corresponding (Frames.Twin idle) ((occasion.operand condition tag).run left)
      ((occasion.operand condition tag).run right) := by
  unfold operand
  split
  · cases named : tag.compareProperty with
    | some property =>
      exact .bind_pure (look_corresponds twin (spared.compareProperty property named))
    | none =>
      cases tag.compareValue with
      | some value => exact .pure _ twin
      | none => exact .throw _
  · exact .pure _ twin

theorem decides_corresponds (twin : left.Twin idle right) (spared : tag.Spared idle)
    (condition : Condition) :
    Corresponding (Frames.Twin idle) ((occasion.decides condition tag).run left)
      ((occasion.decides condition tag).run right) := by
  unfold decides
  refine .bind (subject_corresponds twin spared) fun found _ _ _ _ reached => ?_
  exact .bind_pure (operand_corresponds reached spared condition)

/-- Deciding a condition leaves the frames as it finds them. -/
theorem kept_of_decides {condition : Condition} {holds : Bool} {frames after : Frames}
    (ran : (occasion.decides condition tag).run frames = .ok (holds, after)) :
    frames.Kept after := by
  obtain ⟨markers, loops⟩ := decides_kept ran
  exact ⟨markers ▸ .same _, loops⟩

end Occasion

namespace Tag

variable {idle : String → Prop} {tag : Tag} {parent parent' : Option Tag}
  {left right : Frames}

/-- Inside a tag whose own marker is the innermost one: if only the other surroundings
    have a tag around it, the marker around its own is not armed. -/
def SameLead (parent parent' : Option Tag) (left : Frames) : Prop :=
  parent.isSome = parent'.isSome ∨ (parent = none ∧ left.armedAt 1 = false)

theorem SameLead.kept {after : Frames} (lead : SameLead parent parent' left)
    (kept : left.Kept after) : SameLead parent parent' after := by
  rcases lead with same | ⟨outside, disarmed⟩
  · exact .inl same
  · exact .inr ⟨outside, Frames.armed_eq_false_of_kept kept.markers disarmed⟩

theorem SameLead.within {id : Nat} {after : Frames} (lead : SameLead parent parent' left)
    (kept : MarkersKeptWithin id left.markers after.markers) :
    SameLead parent parent' after := by
  rcases lead with same | ⟨outside, disarmed⟩
  · exact .inl same
  · exact .inr ⟨outside, Frames.armedAt_succ_eq_false kept disarmed⟩

theorem prependTo_twin (tag : Tag) (twin : left.Twin idle right)
    (lead : SameLead parent parent' left) (body : String) :
    (tag.prependTo parent body left).1 = (tag.prependTo parent' body right).1 ∧
      (tag.prependTo parent body left).2.Twin idle (tag.prependTo parent' body right).2 := by
  unfold prependTo
  cases tag.prepend with
  | none => exact ⟨rfl, twin⟩
  | some text =>
    cases Text.hasContent body with
    | false => exact ⟨rfl, twin⟩
    | true =>
      cases parent with
      | none =>
        cases parent' with
        | none => exact ⟨rfl, twin⟩
        | some outside =>
          rcases lead with impossible | ⟨-, disarmed⟩
          · cases impossible
          · obtain ⟨taken, after⟩ := twin.takeEnclosing_right disarmed
            simp [taken, after]
      | some outside =>
        cases parent' with
        | none => rcases lead with impossible | ⟨impossible, -⟩ <;> cases impossible
        | some outside' =>
          obtain ⟨taken, after⟩ := twin.takeEnclosing
          simp [taken, after]

/-- What stands in front of the text of a pass, with the markers behind it. -/
theorem front_twin (tag : Tag) (twin : left.Twin idle right)
    (lead : SameLead parent parent' left) {id id' : Nat}
    (own : ∃ armed rest, left.markers = ⟨id, armed⟩ :: rest)
    (own' : ∃ armed rest, right.markers = ⟨id', armed⟩ :: rest) (isFirst : Bool)
    (text : String) {front front' : String × Frames}
    (put : front = if isFirst then tag.prependTo parent text left else (text, left))
    (put' : front' = if isFirst then tag.prependTo parent' text right else (text, right)) :
    front.1 = front'.1 ∧ front.2.Twin idle front'.2 ∧ front.2.markers ≠ [] ∧
      front'.2.markers ≠ [] := by
  subst put put'
  cases isFirst with
  | true =>
    obtain ⟨same, after⟩ := prependTo_twin tag twin lead text
    obtain ⟨_, _, markers⟩ := (prependTo_kept tag parent text own).1.has_own
    obtain ⟨_, _, markers'⟩ := (prependTo_kept tag parent' text own').1.has_own
    refine ⟨same, after, ?_, ?_⟩
    · simp [markers]
    · simp [markers']
  | false =>
    obtain ⟨_, _, markers⟩ := own
    obtain ⟨_, _, markers'⟩ := own'
    refine ⟨rfl, twin, ?_, ?_⟩
    · simp [markers]
    · simp [markers']

/-- The passes of twin loops end alike. -/
theorem endPass_twin (tag : Tag) (twin : left.Twin idle right)
    (lead : SameLead parent parent' left) {id id' : Nat} {loop : Loop} {outer : List Loop}
    (loops : left.loops = loop :: outer)
    (own : ∃ armed rest, left.markers = ⟨id, armed⟩ :: rest)
    (own' : ∃ armed rest, right.markers = ⟨id', armed⟩ :: rest) (inner : Fragment) :
    (tag.endPass parent inner left).1 = (tag.endPass parent' inner right).1 ∧
      (tag.endPass parent inner left).2.Twin idle (tag.endPass parent' inner right).2 := by
  obtain ⟨number, others, loops', rest⟩ := twin.exists_loop loops
  obtain ⟨markers, _⟩ := left
  obtain ⟨markers', _⟩ := right
  dsimp only at loops loops' own own'
  subst loops loops'
  rw [endPass_cons, endPass_cons, loop.endPass_renumber]
  generalize loop.endPass tag inner.sql = pass
  have ended : (⟨markers, pass.loop :: outer⟩ : Frames).Twin idle
      ⟨markers', pass.loop.renumber number :: others⟩ :=
    ⟨twin.markers, .inside pass.loop number rest⟩
  obtain ⟨same, after, some, some'⟩ :=
    front_twin tag ended lead own own' pass.isFirst pass.text rfl rfl
  simp only [Loop.exhausted_renumber]
  refine ⟨by rw [same], ?_⟩
  split
  · exact after.rearm some some'
  · exact after

/-- The tags around two places: the same one, or one in the other surroundings only that
    leaves out no text, while no marker is armed. -/
def SameOutside (parent parent' : Option Tag) (left : Frames) : Prop :=
  parent = parent' ∨ (parent = none ∧ left.Disarmed ∧
    ∀ outside ∈ parent', outside.removeFirst.any RemoveFirst.isArmed = false)

theorem SameOutside.sameLead (outside : SameOutside parent parent' left) {id : Nat}
    (armed : Bool) : SameLead parent parent' (left.enter id (some armed)) := by
  rcases outside with rfl | ⟨none, disarmed, -⟩
  · exact .inl rfl
  · exact .inr ⟨none, disarmed 0⟩

theorem SameOutside.sameLead_here (outside : SameOutside parent parent' left) :
    SameLead parent parent' left := by
  rcases outside with rfl | ⟨none, disarmed, -⟩
  · exact .inl rfl
  · exact .inr ⟨none, disarmed 1⟩

/-- A tag enters with the same marker, or with a disarmed one here and without one there. -/
theorem SameOutside.marker?_cases (outside : SameOutside parent parent' left) (tag : Tag) :
    tag.marker? parent = tag.marker? parent' ∨
      (left.Disarmed ∧ tag.marker? parent = some false ∧ tag.marker? parent' = none) := by
  rcases outside with rfl | ⟨rfl, disarmed, off⟩
  · exact .inl rfl
  · cases parent' with
    | none => exact .inl rfl
    | some outside =>
      have off : outside.removeFirst.any RemoveFirst.isArmed = false := off outside rfl
      simp only [marker?, Option.any_some, off, Option.isSome_none,
        Option.isSome_some, Bool.and_false, Bool.and_true, Bool.false_eq_true, ↓reduceIte]
      split
      · exact .inl rfl
      · split
        · exact .inl rfl
        · split
          · exact .inr ⟨disarmed, rfl, rfl⟩
          · exact .inl rfl

section Body

variable {id id' : Nat} {body body' : Rendering Fragment}

/-- The passes of twin loops. -/
theorem passes_corresponds (kept : KeepsFrames id body) (kept' : KeepsFrames id' body')
    (bodies : BodiesCorrespond idle id id' true body body')
    (twin : left.Twin idle right) (lead : SameLead parent parent' left) {loop : Loop}
    {outer : List Loop} (loops : left.loops = loop :: outer)
    (own : ∃ armed rest, left.markers = ⟨id, armed⟩ :: rest)
    (own' : ∃ armed rest, right.markers = ⟨id', armed⟩ :: rest) (count : Nat) :
    Corresponding (Frames.Twin idle) ((tag.passes parent body count).run left)
      ((tag.passes parent' body' count).run right) := by
  -- Before every pass the frames are twins with the marker of the tag innermost and its loop
  -- in front. The body keeps all of this, and so does the end of the pass.
  induction count generalizing left right loop with
  | zero => exact .pure _ twin
  | succ count ih =>
    rw [passes, passes]
    refine .get ?_
    rw [twin.hasNext loops]
    split
    · exact .pure _ twin
    · have meet : Frames.Meet idle (id + 1) (id' + 1) true left right :=
        ⟨twin, Frames.below_of_own own, Frames.below_of_own own', by simp⟩
      refine .bind (bodies meet) fun inner middle middle' ran ran' reached => ?_
      have keptLeft := kept meet.below ran
      have keptRight := kept' meet.below' ran'
      obtain ⟨next, nextLoops, -⟩ := keptLeft.loops.cons loops
      have inside := (keptLeft.markers.within own).has_own
      have inside' := (keptRight.markers.within own').has_own
      obtain ⟨same, ended⟩ :=
        endPass_twin tag reached (lead.kept keptLeft) nextLoops inside inside' inner
      refine .bind (.modifyGet same ended) fun piece after after' ran ran' twins => ?_
      obtain ⟨fragment, isLast⟩ := piece
      cases isLast with
      | true => exact .pure fragment twins
      | false =>
        obtain ⟨markers, loopsAfter⟩ := endPass_kept tag parent inner nextLoops inside
        obtain ⟨id'', _, loops', _⟩ := reached.exists_loop nextLoops
        obtain ⟨markers', -⟩ := endPass_kept tag parent' inner loops' inside'
        have leadAfter := (lead.kept keptLeft).within markers
        rw [run_modifyGet_eq_ok.mp ran] at markers loopsAfter leadAfter
        rw [run_modifyGet_eq_ok.mp ran'] at markers'
        exact .bind_pure (ih twins leadAfter loopsAfter markers.has_own markers'.has_own)

variable {occasion : Occasion} {inIteration : Bool}

/-- A loop is entered, goes through its passes and is left. -/
theorem iterateOver_corresponds (kept : KeepsFrames id body) (kept' : KeepsFrames id' body')
    (bodies : BodiesCorrespond idle id id' true body body') (spared : tag.Spared idle)
    (twin : left.Twin idle right) (lead : SameLead parent parent' left)
    (own : ∃ armed rest, left.markers = ⟨id, armed⟩ :: rest)
    (own' : ∃ armed rest, right.markers = ⟨id', armed⟩ :: rest) :
    Corresponding (Frames.Twin idle) ((tag.iterateOver occasion parent id body).run left)
      ((tag.iterateOver occasion parent' id' body').run right) := by
  unfold iterateOver
  refine .bind (Occasion.collection_corresponds twin spared) ?_
  intro found opened opened' ran ran' reached
  obtain ⟨property, items⟩ := found
  obtain ⟨markers, loops⟩ := Occasion.subject_kept (Occasion.collection_eq_ok.mp ran)
  obtain ⟨markers', -⟩ := Occasion.subject_kept (Occasion.collection_eq_ok.mp ran')
  have leadOpened : SameLead parent parent' opened := lead.kept ⟨markers ▸ .same _, loops⟩
  rw [← markers] at own
  rw [← markers'] at own'
  have inside := reached.pushLoop
    ⟨id, items.length, property, none, false, false, false⟩ id'
  refine .modify (.bind (passes_corresponds kept kept' bodies inside leadOpened rfl own own'
    items.length) ?_)
  intro fragment closed closed' passed passed' done
  obtain ⟨-, last, closedLoops, -⟩ := passes_kept kept rfl (by exact own) passed
  exact .modify (.pure fragment (done.popLoop closedLoops))

/-- A body that appears once. -/
theorem once_corresponds (kept : KeepsFrames id body)
    (bodies : BodiesCorrespond idle id id' inIteration body body')
    (meet : Frames.Meet idle (id + 1) (id' + 1) inIteration left right)
    (lead : SameLead parent parent' left) :
    Corresponding (Frames.Twin idle) ((tag.once parent body).run left)
      ((tag.once parent' body').run right) := by
  unfold once
  refine .bind (bodies meet) fun inner middle middle' ran _ reached => ?_
  obtain ⟨same, after⟩ :=
    prependTo_twin tag reached (lead.kept (kept meet.below ran)) (tag.wrap inner.sql)
  exact .bind_pure (.modifyGet same after)

/-- The content of a tag, which is entered with a marker of its own if it is an iteration. -/
theorem content_corresponds (kept : KeepsFrames id body) (kept' : KeepsFrames id' body')
    (bodies : BodiesCorrespond idle id id' (inIteration || tag.handler == .iterate) body body')
    (spared : tag.Spared idle) (meet : Frames.Meet idle (id + 1) (id' + 1) inIteration left right)
    (lead : SameLead parent parent' left)
    (own : tag.handler = .iterate → ∃ armed rest, left.markers = ⟨id, armed⟩ :: rest)
    (own' : tag.handler = .iterate → ∃ armed rest, right.markers = ⟨id', armed⟩ :: rest) :
    Corresponding (Frames.Twin idle) ((tag.content occasion parent id body).run left)
      ((tag.content occasion parent' id' body').run right) := by
  unfold content
  cases handler : tag.handler with
  | group =>
    have here : (inIteration || tag.handler == .iterate) = inIteration := by simp [handler]
    rw [here] at bodies
    exact once_corresponds kept bodies meet lead
  | iterate =>
    have deeper : (inIteration || tag.handler == .iterate) = true := by simp [handler]
    rw [deeper] at bodies
    exact iterateOver_corresponds kept kept' bodies spared meet.twin lead (own handler)
      (own' handler)
  | conditional condition =>
    have here : (inIteration || tag.handler == .iterate) = inIteration := by simp [handler]
    rw [here] at bodies
    refine .bind (Occasion.decides_corresponds meet.twin spared condition) ?_
    intro holds middle middle' ran ran' reached
    have looked := Occasion.kept_of_decides ran
    have looked' := Occasion.kept_of_decides ran'
    cases holds with
    | false => exact .pure _ reached
    | true =>
      exact once_corresponds kept bodies (meet.kept reached looked looked') (lead.kept looked)

/-- A tag around bodies that correspond. -/
theorem around_corresponds (kept : KeepsFrames id body) (kept' : KeepsFrames id' body')
    (bodies : BodiesCorrespond idle id id' (inIteration || tag.handler == .iterate) body body')
    (spared : tag.Spared idle) (meet : Frames.Meet idle id id' inIteration left right)
    (outside : SameOutside parent parent' left) :
    Corresponding (Frames.Twin idle) ((tag.around occasion parent id body).run left)
      ((tag.around occasion parent' id' body').run right) := by
  unfold around
  refine .modify ?_
  have own (armed : Bool) : ∃ armed' rest,
      (left.enter id (some armed)).markers = ⟨id, armed'⟩ :: rest := ⟨armed, left.markers, rfl⟩
  -- A tag may have a marker here and none there: then both markers and frames are kept, and the
  -- one that is left on the way out was never armed.
  rcases outside.marker?_cases tag with same | ⟨disarmed, marked, unmarked⟩
  · rw [same]
    cases entered : tag.marker? parent' with
    | some armed =>
      have own' : ∃ armed' rest,
          (right.enter id' (some armed)).markers = ⟨id', armed'⟩ :: rest :=
        ⟨armed, right.markers, rfl⟩
      have inside := meet.enter (own armed) own' (meet.twin.enter id id' armed)
      refine .bind (content_corresponds kept kept' bodies spared inside
        (outside.sameLead armed) (fun _ => own armed) fun _ => own') ?_
      intro fragment after after' ran ran' reached
      obtain ⟨markers, -⟩ := content_kept_within kept (own armed) ran
      obtain ⟨markers', -⟩ := content_kept_within kept' own' ran'
      exact .modify (.pure fragment (reached.popMarker markers.has_own markers'.has_own))
    | none =>
      obtain ⟨without, condition, conditional⟩ := conditional_of_marker? entered
      have noLoop : tag.handler ≠ .iterate := by simp [conditional]
      refine .bind (content_corresponds kept kept' bodies spared
        (meet.mono (Nat.le_succ id) (Nat.le_succ id')) outside.sameLead_here
        (fun loop => absurd loop noLoop) fun loop => absurd loop noLoop) ?_
      intro fragment after after' ran ran' reached
      have done := content_kept kept conditional without meet.below ran
      have done' := content_kept kept' conditional without meet.below' ran'
      refine .modify ?_
      rw [Frames.popMarker_of_below (done.below meet.below),
        Frames.popMarker_of_below (done'.below meet.below')]
      exact .pure fragment reached
  · rw [marked, unmarked]
    obtain ⟨without, condition, conditional⟩ := conditional_of_marker? unmarked
    have noLoop : tag.handler ≠ .iterate := by simp [conditional]
    have inside := (meet.mono (Nat.le_succ id) (Nat.le_succ id')).enter_left (own false)
      (meet.twin.enter_left id disarmed)
    refine .bind (content_corresponds kept kept' bodies spared inside (outside.sameLead false)
      (fun loop => absurd loop noLoop) fun loop => absurd loop noLoop) ?_
    intro fragment after after' ran ran' reached
    obtain ⟨markers, loops⟩ := content_kept_within kept (own false) ran
    have done := Frames.popMarker_kept markers loops
    have done' := content_kept kept' conditional without meet.below' ran'
    refine .modify ?_
    rw [Frames.popMarker_of_below (done'.below meet.below')]
    exact .pure fragment (reached.popMarker_left (done.disarmed disarmed)
      (done'.disarmed (meet.twin.disarmed disarmed)))

end Body

end Tag

end DynamicSql
