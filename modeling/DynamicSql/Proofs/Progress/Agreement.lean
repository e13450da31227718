import DynamicSql.Proofs.Correspondence.Frames
import DynamicSql.Template.Progress

/-!
# Renderings in one state agree with renderings in frames

A rendering in one state goes along with the rendering in the frames of that state:
both fail with the same error, or both succeed, and then the frames behind the one are
those of the state behind the other, the texts are the same, and the bindings that the
one gives are those that the other puts behind the ones it had.
-/

namespace DynamicSql

open Rendering

namespace OpenLoop

/-- What no pass changes of a loop once the text in front of the tag was dealt with. -/
def fixed (loop : OpenLoop) : Nat × String × List Value × Bool :=
  (loop.tag, loop.property, loop.items, loop.lead)

theorem fixed_goOn {loop : OpenLoop} {next : Loop} (same : loop.SameArray next) :
    (loop.goOn next same.size).fixed = loop.fixed := by
  rw [fixed, fixed]
  exact congrArg₂ (fun tag property => (tag, property, loop.items, loop.lead)) same.tag
    same.property

@[simp]
theorem fixed_advance (loop : OpenLoop) : loop.advance.fixed = loop.fixed :=
  fixed_goOn loop.sameArray_advance

end OpenLoop

namespace Progress

/-- The numbers of the tags that have the markers, and of those that have the loops. -/
def tags (progress : Progress) : List Nat × List Nat :=
  (progress.markers.map Marker.tag, progress.loops.map fun loop => loop.tag)

/-- The innermost marker and the innermost loop belong to tags with numbers below the
    given one. -/
def Below (progress : Progress) (bound : Nat) : Prop :=
  (∀ tag ∈ progress.tags.1.head?, tag < bound) ∧ ∀ tag ∈ progress.tags.2.head?, tag < bound

/-- The markers and loops of the same tags are there, the loops go through the same
    items, and the given bindings were put behind those from before. -/
structure Grown (before after : Progress) (added : List Binding) : Prop where
  markers : after.markers.map Marker.tag = before.markers.map Marker.tag
  loops : after.loops.map OpenLoop.fixed = before.loops.map OpenLoop.fixed
  bindings : after.bindings = before.bindings ++ added

variable {progress before after : Progress}

@[simp]
theorem frames_withMarkers {frames : Frames} (same : frames.loops = progress.frames.loops) :
    (progress.withMarkers frames).frames = frames := by
  obtain ⟨markers, loops⟩ := frames
  rw [Frames.mk.injEq]
  exact ⟨rfl, same.symm⟩

@[simp]
theorem frames_enter (tag : Nat) (marker : Option Bool) :
    (progress.enter tag marker).frames = progress.frames.enter tag marker :=
  frames_withMarkers (Frames.loops_enter _ _ _)

@[simp]
theorem frames_popMarker (tag : Nat) :
    (progress.popMarker tag).frames = progress.frames.popMarker tag :=
  frames_withMarkers (Frames.loops_popMarker _ _)

@[simp]
theorem frames_rearm : progress.rearm.frames = progress.frames.rearm :=
  frames_withMarkers (Frames.loops_rearm _)

@[simp]
theorem frames_advance : progress.advance.frames = progress.frames.advance := by
  obtain ⟨markers, loops, bindings⟩ := progress
  cases loops <;> rfl

namespace Grown

theorem refl (progress : Progress) : progress.Grown progress [] :=
  ⟨rfl, rfl, (List.append_nil _).symm⟩

theorem trans {first second third : Progress} {added more : List Binding}
    (left : first.Grown second added) (right : second.Grown third more) :
    first.Grown third (added ++ more) :=
  ⟨right.markers.trans left.markers, right.loops.trans left.loops,
    by rw [right.bindings, left.bindings, List.append_assoc]⟩

/-- A step behind which no more bindings are there. -/
theorem trans_nil {first second third : Progress} {added : List Binding}
    (left : first.Grown second added) (right : second.Grown third []) :
    first.Grown third added := by
  have both := left.trans right
  rwa [List.append_nil] at both

theorem tags {added : List Binding} (grown : before.Grown after added) :
    after.tags = before.tags := by
  have loops := congrArg (List.map Prod.fst) grown.loops
  simp only [List.map_map] at loops
  rw [Progress.tags, Progress.tags, Prod.mk.injEq]
  exact ⟨grown.markers, loops⟩

theorem below {added : List Binding} {bound : Nat} (grown : before.Grown after added)
    (below : before.Below bound) : after.Below bound := by
  rw [Below, grown.tags]
  exact below

theorem advance (progress : Progress) : progress.Grown progress.advance [] := by
  obtain ⟨markers, loops, bindings⟩ := progress
  cases loops with
  | nil => exact .refl _
  | cons loop outer =>
    refine ⟨rfl, ?_, (List.append_nil _).symm⟩
    simp [Progress.advance]

theorem add (progress : Progress) (bindings : List Binding) :
    progress.Grown (progress.add bindings) bindings := ⟨rfl, rfl, rfl⟩

end Grown

end Progress

namespace Recording

variable {α β γ δ : Type} {progress : Progress}

/-- The two outcomes are the same error, or related results behind which the frames are
    those of the state. -/
inductive Matches (related : α → β → Progress → Prop) :
    Except Error (α × Frames) → Except Error (β × Progress) → Prop
  | failed (e : Error) : Matches related (.error e) (.error e)
  | done {a : α} {b : β} {after : Progress} (holds : related a b after) :
      Matches related (.ok (a, after.frames)) (.ok (b, after))

/-- The same was found, and nothing was written. -/
def Found (before : Progress) (a b : α) (after : Progress) : Prop :=
  b = a ∧ before.Grown after []

/-- The text of the fragment was written, and its bindings were put behind the others. -/
def Written (before : Progress) (fragment : Fragment) (text : String) (after : Progress) : Prop :=
  text = fragment.sql ∧ before.Grown after fragment.bindings

namespace Matches

variable {related : α → β → Progress → Prop} {later : γ → δ → Progress → Prop}

theorem bind {x : Rendering α} {y : Recording β} {f : α → Rendering γ} {g : β → Recording δ}
    (first : Matches related (x.run progress.frames) (y.run progress))
    (second : ∀ a b after, x.run progress.frames = .ok (a, after.frames) → related a b after →
      Matches later ((f a).run after.frames) ((g b).run after)) :
    Matches later ((x >>= f).run progress.frames) ((y >>= g).run progress) := by
  rw [StateT.run_bind, StateT.run_bind]
  generalize ranLeft : x.run progress.frames = left at first second ⊢
  generalize y.run progress = right at first ⊢
  cases first with
  | failed e => exact .failed e
  | done holds => exact second _ _ _ rfl holds

theorem pure {a : α} {b : β} (holds : related a b progress) :
    Matches related ((Pure.pure a : Rendering α).run progress.frames)
      ((Pure.pure b : Recording β).run progress) := .done holds

theorem throw (e : Error) :
    Matches related ((MonadExcept.throw e : Rendering α).run progress.frames)
      ((MonadExcept.throw e : Recording β).run progress) := .failed e

/-- What ends well in a state ends well in its frames. -/
theorem of_run {rendered : Except Error (α × Frames)} {recorded : Except Error (β × Progress)}
    {b : β} {after : Progress} (matched : Matches related rendered recorded)
    (ran : recorded = .ok (b, after)) :
    ∃ a, rendered = .ok (a, after.frames) ∧ related a b after := by
  cases matched with
  | failed e => cases ran
  | done holds =>
    cases ran
    exact ⟨_, rfl, holds⟩

/-- A step that looks neither at the frames nor at the state. -/
theorem lift {x : Except Error γ} {f : γ → Rendering α} {g : γ → Recording β}
    (next : ∀ c, x = .ok c →
      Matches related ((f c).run progress.frames) ((g c).run progress)) :
    Matches related ((liftM x >>= f : Rendering α).run progress.frames)
      ((liftM x >>= g : Recording β).run progress) := by
  cases x with
  | error e => exact .failed e
  | ok c => exact next c rfl

/-- A change of the frames that goes along with a change of the state. -/
theorem modify {f : Frames → Frames} {g : Progress → Progress} {x : PUnit → Rendering α}
    {y : PUnit → Recording β} (same : (g progress).frames = f progress.frames)
    (next : Matches related ((x ⟨⟩).run (g progress).frames) ((y ⟨⟩).run (g progress))) :
    Matches related ((modify f >>= x : Rendering α).run progress.frames)
      ((modify g >>= y : Recording β).run progress) := by
  rw [same] at next
  exact next

/-- The frames and the state that are looked at are those that go along. -/
theorem get {f : Frames → Rendering α} {g : Progress → Recording β}
    (next : Matches related ((f progress.frames).run progress.frames)
      ((g progress).run progress)) :
    Matches related ((MonadState.get >>= f : Rendering α).run progress.frames)
      ((MonadState.get >>= g : Recording β).run progress) := next

/-- What is made of a result without a look at the frames or the state. -/
theorem bind_pure {related : α → β → Progress → Prop} {x : Rendering α} {y : Recording β}
    {f : α → γ} {g : β → δ}
    (outcomes : Matches related (x.run progress.frames) (y.run progress))
    (made : ∀ a b after, related a b after → later (f a) (g b) after) :
    Matches later ((do return f (← x) : Rendering γ).run progress.frames)
      ((do return g (← y) : Recording δ).run progress) :=
  .bind outcomes fun a b after _ holds => .pure (made a b after holds)

end Matches

section Lookups

variable (occasion : Occasion) (condition : Condition) (tag : Tag) (progress : Progress)

theorem look_matches (property : String) :
    Matches (Found progress) ((occasion.look property).run progress.frames)
      ((look occasion property).run progress) := by
  refine .modify progress.frames_advance (.get ?_)
  have reached : progress.Grown progress.advance [] := .advance progress
  exact .lift fun value _ => .pure ⟨rfl, reached⟩

theorem subject_matches :
    Matches (Found progress) ((occasion.subject tag).run progress.frames)
      ((subject occasion tag).run progress) := by
  unfold Occasion.subject subject
  cases tag.property with
  | none => exact .pure ⟨rfl, .refl progress⟩
  | some property => exact look_matches occasion progress property

theorem collection_matches :
    Matches (Found progress) ((occasion.collection tag).run progress.frames)
      ((collection occasion tag).run progress) := by
  refine .bind (subject_matches occasion tag progress) ?_
  rintro ⟨path, value⟩ _ after - ⟨rfl, grown⟩
  exact .lift fun items _ => .pure ⟨rfl, grown⟩

theorem operand_matches :
    Matches (Found progress) ((occasion.operand condition tag).run progress.frames)
      ((operand occasion condition tag).run progress) := by
  unfold Occasion.operand operand
  split
  · cases tag.compareProperty with
    | some property =>
      refine .bind_pure (look_matches occasion progress property) ?_
      rintro found _ after ⟨rfl, grown⟩
      exact ⟨rfl, grown⟩
    | none =>
      cases tag.compareValue with
      | some value => exact .pure ⟨rfl, .refl progress⟩
      | none => exact .throw _
  · exact .pure ⟨rfl, .refl progress⟩

theorem decides_matches :
    Matches (Found progress) ((occasion.decides condition tag).run progress.frames)
      ((decides occasion condition tag).run progress) := by
  refine .bind (subject_matches occasion tag progress) ?_
  rintro ⟨_, found⟩ _ middle - ⟨rfl, first⟩
  refine .bind_pure (operand_matches occasion condition tag middle) ?_
  rintro value _ after ⟨rfl, second⟩
  exact ⟨rfl, first.trans second⟩

end Lookups

theorem write_matches {before : Progress} (grown : before.Grown progress [])
    (fragment : Fragment) :
    Matches (Written before) ((Pure.pure fragment : Rendering Fragment).run progress.frames)
      ((write fragment).run progress) := by
  have written : Written before fragment fragment.sql (progress.add fragment.bindings) :=
    ⟨rfl, grown.trans (.add progress fragment.bindings)⟩
  exact .done written

theorem text_matches (occasion : Occasion) (text : TextPart) (progress : Progress) :
    Matches (Written progress) ((text.render occasion).run progress.frames)
      ((text.record occasion).run progress) := by
  unfold TextPart.render TextPart.record
  cases text.ready with
  | some fragment => exact write_matches (.refl progress) fragment
  | none =>
    cases Text.hasContent text.source with
    | true =>
      refine .modify progress.frames_advance (.get ?_)
      have reached : progress.Grown progress.advance [] := .advance progress
      dsimp only
      cases Fragment.parse _ _ (progress.advance.frames.qualifyPlaceholders text.source) with
      | error e => exact .failed e
      | ok fragment => exact write_matches reached fragment
    | false => exact .pure ⟨rfl, .refl progress⟩

end Recording

end DynamicSql
