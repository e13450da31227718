import DynamicSql.Template.Loop
import DynamicSql.Text.Span

/-!
# Frames

What a rendering keeps of the tags around the present place: the loops, and for
the tags that leave out the text in front of the first tag inside them a marker
that is armed until this has happened. The innermost ones come first.
-/

namespace DynamicSql

/-- Whether a tag still has a text to leave out. -/
structure Marker where
  /-- The number of the tag. -/
  tag : Nat
  armed : Bool
  deriving DecidableEq, Repr

/-- The markers and loops around a place of a template. -/
structure Frames where
  markers : List Marker := []
  loops : List Loop := []
  deriving DecidableEq, Repr

namespace Frames

/-- Enters a tag with a marker. -/
def pushMarker (frames : Frames) (tag : Nat) (armed : Bool) : Frames :=
  { frames with markers := ⟨tag, armed⟩ :: frames.markers }

/-- Enters a tag, which may have no marker. -/
def enter (frames : Frames) (tag : Nat) : Option Bool → Frames
  | some armed => frames.pushMarker tag armed
  | none => frames

/-- Leaves a tag, which may have no marker. -/
def popMarker (frames : Frames) (tag : Nat) : Frames :=
  match frames.markers with
  | marker :: rest => if marker.tag = tag then { frames with markers := rest } else frames
  | [] => frames

/-- Arms the innermost marker again. -/
def rearm (frames : Frames) : Frames :=
  match frames.markers with
  | marker :: rest => { frames with markers := { marker with armed := true } :: rest }
  | [] => frames

/-- Uses up the marker around the innermost one; says whether it was armed. -/
def takeEnclosing (frames : Frames) : Bool × Frames :=
  match frames.markers with
  | own :: enclosing :: rest =>
    if enclosing.armed then
      (true, { frames with markers := own :: { enclosing with armed := false } :: rest })
    else (false, frames)
  | _ => (false, frames)

/-- Enters a loop. -/
def pushLoop (frames : Frames) (loop : Loop) : Frames :=
  { frames with loops := loop :: frames.loops }

/-- Leaves the innermost loop. -/
def popLoop (frames : Frames) : Frames :=
  { frames with loops := frames.loops.tail }

/-- Puts a loop in the place of the innermost one. -/
def setLoop (frames : Frames) (loop : Loop) : Frames :=
  { frames with loops := loop :: frames.loops.tail }

/-- Lets the innermost loop reach the item of its present pass. -/
def advance (frames : Frames) : Frames :=
  match frames.loops with
  | loop :: outer => { frames with loops := loop.advance :: outer }
  | [] => frames

@[simp]
theorem advance_advance (frames : Frames) : frames.advance.advance = frames.advance := by
  obtain ⟨markers, loops⟩ := frames
  cases loops with
  | nil => rfl
  | cons loop outer => simp [advance]

/-- Puts the indexes of all loops into a path, those of the outer ones first. -/
def qualify (frames : Frames) (path : List Char) : List Char :=
  frames.loops.foldr Loop.qualify path

/-- Puts the indexes into all that pairs of a delimiter enclose. -/
def qualifyEnclosed (frames : Frames) (delimiter : Char) (text : List Char) : List Char :=
  (Text.spans delimiter text).flatMap fun span =>
    (span.mapEnclosed frames.qualify).source delimiter

/-- Puts the indexes into the placeholders of both kinds. -/
def qualifyPlaceholders (frames : Frames) (text : String) : String :=
  String.ofList (frames.qualifyEnclosed '$' (frames.qualifyEnclosed '#' text.toList))

end Frames

end DynamicSql
