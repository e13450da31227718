import DynamicSql.Proofs.Iteration.Passes
import DynamicSql.Proofs.Nesting.Rendering

/-!
# Frames in two surroundings

The frames of a rendering and those of another one of the same template inside a
loop more are twins. Their loops go through the same arrays and have come equally
far, but for their numbers and for outer loops of which nothing names an item. Of
the markers only those that are armed count, and they are at the same places: a
marker that is disarmed, or none, is all the same.
-/

namespace DynamicSql

namespace Loop

/-- The loop of a tag with another number. -/
def renumber (loop : Loop) (id : Nat) : Loop := { loop with tag := id }

/-- The number of the tag does not matter to a loop. -/
theorem advance_renumber (loop : Loop) (id : Nat) :
    (loop.renumber id).advance = loop.advance.renumber id := by
  obtain ⟨_, _, _, _, stepped, _, _⟩ := loop
  cases stepped <;> rfl

theorem exhausted_renumber (loop : Loop) (id : Nat) :
    (loop.renumber id).exhausted = loop.exhausted := rfl

theorem qualify_renumber (loop : Loop) (id : Nat) (path : List Char) :
    (loop.renumber id).qualify path = loop.qualify path := rfl

theorem endPass_renumber (loop : Loop) (id : Nat) (tag : Tag) (body : String) :
    (loop.renumber id).endPass tag body =
      { loop.endPass tag body with loop := (loop.endPass tag body).loop.renumber id } := by
  obtain ⟨_, _, _, _, stepped, _, _⟩ := loop
  cases stepped <;> rfl

end Loop

/-- Loops that differ in their numbers and in outer ones that are idle. -/
inductive LoopsTwin (idle : String → Prop) : List Loop → List Loop → Prop
  | outside {others : List Loop} (all : ∀ loop ∈ others, idle loop.property) :
      LoopsTwin idle [] others
  | inside (loop : Loop) (id : Nat) {outer others : List Loop}
      (rest : LoopsTwin idle outer others) :
      LoopsTwin idle (loop :: outer) (loop.renumber id :: others)

namespace Frames

/-- The marker at a place, counted from the innermost one, is armed. -/
def armedAt (frames : Frames) (place : Nat) : Bool := frames.markers[place]?.any Marker.armed

/-- Frames that no rendering can tell apart. -/
structure Twin (idle : String → Prop) (left right : Frames) : Prop where
  markers : ∀ place, left.armedAt place = right.armedAt place
  loops : LoopsTwin idle left.loops right.loops

/-- No marker is armed. -/
def Disarmed (frames : Frames) : Prop := ∀ place, frames.armedAt place = false

section Armed

variable {frames : Frames}

@[simp]
theorem armedAt_advance (frames : Frames) (place : Nat) :
    frames.advance.armedAt place = frames.armedAt place := by
  rw [armedAt, markers_advance, armedAt]

/-- Whether a text is left out is told by the marker around the innermost one, which is
    then used up. -/
theorem takeEnclosing_fst (frames : Frames) : frames.takeEnclosing.1 = frames.armedAt 1 := by
  obtain ⟨markers, loops⟩ := frames
  rcases markers with _ | ⟨own, _ | ⟨enclosing, rest⟩⟩
  · rfl
  · rfl
  · cases armed : enclosing.armed <;> simp [takeEnclosing, armedAt, armed]

theorem armedAt_takeEnclosing (frames : Frames) (place : Nat) :
    frames.takeEnclosing.2.armedAt place =
      if place = 1 then false else frames.armedAt place := by
  obtain ⟨markers, loops⟩ := frames
  rcases markers with _ | ⟨own, _ | ⟨enclosing, rest⟩⟩
  · simp [takeEnclosing, armedAt]
  · rcases place with _ | _ | place <;> simp [takeEnclosing, armedAt]
  · rcases place with _ | _ | place <;>
      cases armed : enclosing.armed <;> simp [takeEnclosing, armedAt, armed]

@[simp]
theorem loops_takeEnclosing (frames : Frames) :
    frames.takeEnclosing.2.loops = frames.loops := by
  unfold takeEnclosing
  split
  · split <;> rfl
  · rfl

theorem armedAt_rearm (some : frames.markers ≠ []) (place : Nat) :
    frames.rearm.armedAt place = if place = 0 then true else frames.armedAt place := by
  obtain ⟨markers, loops⟩ := frames
  cases markers with
  | nil => exact absurd rfl some
  | cons own rest => cases place <;> simp [rearm, armedAt]

theorem armedAt_popMarker {id : Nat} (own : ∃ armed rest, frames.markers = ⟨id, armed⟩ :: rest)
    (place : Nat) : (frames.popMarker id).armedAt place = frames.armedAt (place + 1) := by
  obtain ⟨markers, loops⟩ := frames
  obtain ⟨armed, rest, rfl⟩ := own
  rw [popMarker_own]
  rfl

end Armed

/-- A part arms no marker. -/
theorem armed_eq_false_of_kept {before after : List Marker} (kept : MarkersKept before after)
    {place : Nat} (disarmed : before[place]?.any Marker.armed = false) :
    after[place]?.any Marker.armed = false := by
  cases kept with
  | same => exact disarmed
  | usedUp marker rest => cases place <;> simp_all

theorem Kept.disarmed {before after : Frames} (kept : before.Kept after)
    (disarmed : before.Disarmed) : after.Disarmed :=
  fun place => armed_eq_false_of_kept kept.markers (disarmed place)

/-- The content of a tag arms no marker around that of the tag. -/
theorem armedAt_succ_eq_false {id : Nat} {before after : Frames}
    (kept : MarkersKeptWithin id before.markers after.markers) {place : Nat}
    (disarmed : before.armedAt (place + 1) = false) : after.armedAt (place + 1) = false := by
  obtain ⟨beforeMarkers, _⟩ := before
  obtain ⟨afterMarkers, _⟩ := after
  cases kept with
  | own inner => exact armed_eq_false_of_kept inner disarmed

namespace Twin

variable {idle : String → Prop} {left right : Frames}

/-- Outside every loop frames are twins of themselves. -/
theorem outside (idle : String → Prop) (markers : List Marker) :
    (⟨markers, []⟩ : Frames).Twin idle ⟨markers, []⟩ :=
  ⟨fun _ => rfl, .outside (by simp)⟩

theorem disarmed (twin : left.Twin idle right) (disarmed : left.Disarmed) : right.Disarmed :=
  fun place => (twin.markers place).symm.trans (disarmed place)

theorem enter (twin : left.Twin idle right) (id id' : Nat) (armed : Bool) :
    (left.enter id (some armed)).Twin idle (right.enter id' (some armed)) := by
  refine ⟨fun place => ?_, twin.loops⟩
  cases place with
  | zero => rfl
  | succ place => exact twin.markers place

/-- A tag that enters with a disarmed marker may do so without one if none is armed. -/
theorem enter_left (twin : left.Twin idle right) (id : Nat) (disarmed : left.Disarmed) :
    (left.enter id (some false)).Twin idle right := by
  refine ⟨fun place => ?_, twin.loops⟩
  rw [twin.disarmed disarmed place]
  cases place with
  | zero => rfl
  | succ place => exact disarmed place

theorem popMarker {id id' : Nat} (twin : left.Twin idle right)
    (own : ∃ armed rest, left.markers = ⟨id, armed⟩ :: rest)
    (own' : ∃ armed rest, right.markers = ⟨id', armed⟩ :: rest) :
    (left.popMarker id).Twin idle (right.popMarker id') := by
  constructor
  · intro place
    rw [armedAt_popMarker own, armedAt_popMarker own']
    exact twin.markers (place + 1)
  · rw [loops_popMarker, loops_popMarker]
    exact twin.loops

/-- A marker that is left on the one side only does not matter if none is armed. -/
theorem popMarker_left {id : Nat} (twin : left.Twin idle right)
    (disarmed : (left.popMarker id).Disarmed) (disarmed' : right.Disarmed) :
    (left.popMarker id).Twin idle right := by
  refine ⟨fun place => (disarmed place).trans (disarmed' place).symm, ?_⟩
  rw [loops_popMarker]
  exact twin.loops

theorem takeEnclosing (twin : left.Twin idle right) :
    left.takeEnclosing.1 = right.takeEnclosing.1 ∧
      left.takeEnclosing.2.Twin idle right.takeEnclosing.2 := by
  refine ⟨by rw [takeEnclosing_fst, takeEnclosing_fst, twin.markers], fun place => ?_, ?_⟩
  · rw [armedAt_takeEnclosing, armedAt_takeEnclosing, twin.markers]
  · rw [loops_takeEnclosing, loops_takeEnclosing]
    exact twin.loops

/-- Without an armed marker around it nothing is used up. -/
theorem takeEnclosing_right (twin : left.Twin idle right) (disarmed : left.armedAt 1 = false) :
    right.takeEnclosing.1 = false ∧ left.Twin idle right.takeEnclosing.2 := by
  have same : right.armedAt 1 = false := (twin.markers 1).symm.trans disarmed
  refine ⟨by rw [takeEnclosing_fst, same], fun place => ?_, ?_⟩
  · rw [armedAt_takeEnclosing]
    split
    · next here => rw [here, disarmed]
    · exact twin.markers place
  · rw [loops_takeEnclosing]
    exact twin.loops

theorem rearm (twin : left.Twin idle right) (some : left.markers ≠ [])
    (some' : right.markers ≠ []) : left.rearm.Twin idle right.rearm := by
  constructor
  · intro place
    rw [armedAt_rearm some, armedAt_rearm some', twin.markers]
  · rw [loops_rearm, loops_rearm]
    exact twin.loops

end Twin

end Frames

namespace LoopsTwin

variable {idle : String → Prop} {loops others : List Loop}

/-- The loops that are idle put nothing into a path that they spare. -/
theorem foldr_qualify (twin : LoopsTwin idle loops others) {path : List Char}
    (spared : ∀ loop : Loop, idle loop.property → loop.qualify path = path) :
    others.foldr Loop.qualify path = loops.foldr Loop.qualify path := by
  induction twin with
  | @outside others all =>
    induction others with
    | nil => rfl
    | cons loop rest ih =>
      obtain ⟨here, later⟩ := List.forall_mem_cons.mp all
      rw [List.foldr_cons, ih later]
      exact spared loop here
  | inside loop id _ ih => rw [List.foldr_cons, List.foldr_cons, ih, loop.qualify_renumber]

end LoopsTwin

namespace Frames.Twin

variable {idle : String → Prop} {left right : Frames}

theorem advance (twin : left.Twin idle right) : left.advance.Twin idle right.advance := by
  refine ⟨fun place => ?_, ?_⟩
  · rw [armedAt_advance, armedAt_advance, twin.markers]
  · obtain ⟨-, loops⟩ := twin
    obtain ⟨_, leftLoops⟩ := left
    obtain ⟨_, rightLoops⟩ := right
    cases loops with
    | outside all =>
      refine .outside fun loop member => ?_
      cases rightLoops with
      | nil => exact all loop member
      | cons first rest =>
        obtain ⟨here, later⟩ := List.forall_mem_cons.mp all
        rcases List.mem_cons.mp member with rfl | member
        · rw [first.sameArray_advance.property]
          exact here
        · exact later loop member
    | inside loop id rest =>
      show LoopsTwin idle (loop.advance :: _) ((loop.renumber id).advance :: _)
      rw [loop.advance_renumber]
      exact .inside loop.advance id rest

theorem pushLoop (twin : left.Twin idle right) (loop : Loop) (id : Nat) :
    (left.pushLoop loop).Twin idle (right.pushLoop (loop.renumber id)) :=
  ⟨twin.markers, .inside loop id twin.loops⟩

/-- Inside a loop of its own the other surroundings have the same loop. -/
theorem exists_loop (twin : left.Twin idle right) {loop : Loop} {outer : List Loop}
    (loops : left.loops = loop :: outer) :
    ∃ id others, right.loops = loop.renumber id :: others ∧ LoopsTwin idle outer others := by
  obtain ⟨-, twins⟩ := twin
  rw [loops] at twins
  generalize right.loops = rightLoops at twins
  cases twins with
  | inside _ id rest => exact ⟨id, _, rfl, rest⟩

theorem popLoop (twin : left.Twin idle right) {loop : Loop} {outer : List Loop}
    (loops : left.loops = loop :: outer) : left.popLoop.Twin idle right.popLoop := by
  obtain ⟨id, others, loops', rest⟩ := twin.exists_loop loops
  refine ⟨twin.markers, ?_⟩
  simp only [Frames.popLoop, loops, loops', List.tail_cons]
  exact rest

theorem hasNext (twin : left.Twin idle right) {loop : Loop} {outer : List Loop}
    (loops : left.loops = loop :: outer) :
    right.loops.head?.any Loop.hasNext = left.loops.head?.any Loop.hasNext := by
  obtain ⟨id, others, loops', -⟩ := twin.exists_loop loops
  rw [loops, loops']
  rfl

end Frames.Twin

end DynamicSql
