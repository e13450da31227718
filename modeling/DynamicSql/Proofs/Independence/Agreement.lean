import DynamicSql.Proofs.Rendering.Conditions
import DynamicSql.Proofs.Rendering.Tree

/-!
# Renderings that agree

Two renderings agree if from the same frames they succeed alike, with the same
result and the same frames behind them. Steps in a row agree if each one does. So
the renderings of a template for two parameters agree as soon as those steps do
that look at the parameter: the conditions, and the lengths of the arrays that
iterations go through.
-/

namespace DynamicSql

open Rendering

/-- From the same frames two renderings succeed alike, with the same result. -/
def Rendering.Agree {α : Type} (x y : Rendering α) : Prop :=
  ∀ ⦃frames a after⦄, x.run frames = .ok (a, after) ↔ y.run frames = .ok (a, after)

namespace Rendering.Agree

variable {α β : Type} {x y : Rendering α}

theorem refl (x : Rendering α) : x.Agree x := fun _ _ _ => Iff.rfl

theorem symm (agree : x.Agree y) : y.Agree x := fun _ _ _ => Iff.symm (@agree _ _ _)

theorem bind {f g : α → Rendering β} (first : x.Agree y) (second : ∀ a, (f a).Agree (g a)) :
    (x >>= f).Agree (y >>= g) := by
  intro frames b after
  rw [run_bind_eq_ok, run_bind_eq_ok]
  exact exists_congr fun a => exists_congr fun middle => and_congr (@first _ _ _) (@second a _ _ _)

end Rendering.Agree

/-- The length of the array that the text of a path leads to, if it leads to one. -/
def Value.lengthAt? (value : Value) (path : String) : Option Nat :=
  match value.get path with
  | .ok (some (.array items)) => some items.length
  | _ => none

theorem Value.lengthAt?_eq_some {value : Value} {path : String} {length : Nat} :
    value.lengthAt? path = some length ↔
      ∃ items, value.get path = .ok (some (.array items)) ∧ items.length = length := by
  unfold lengthAt?
  split
  · next items found => simp [found]
  · next other =>
    simp only [reduceCtorEq, false_iff]
    rintro ⟨items, found, -⟩
    exact other items found

/-- The empty path leads to the value itself. -/
theorem Value.get_empty (value : Value) : value.get "" = .ok (some value) := rfl

/-- A tag with other paths in the place of its properties. -/
def Tag.withPaths (tag : Tag) (path operand : String) : Tag :=
  { tag with
    property := tag.property.map fun _ => path
    compareProperty := tag.compareProperty.map fun _ => operand }

theorem Tag.located_eq_withPaths (tag : Tag) (frames : Frames) :
    tag.located frames =
      tag.withPaths (frames.locate (tag.property.getD ""))
        (frames.locate (tag.compareProperty.getD "")) := by
  unfold located withPaths
  cases tag.property <;> cases tag.compareProperty <;> rfl

/-- A tag has the same outcomes for two parameters, whatever paths its properties mean. -/
def Tag.SameOutcomes (occasion other : Occasion) (tag : Tag) : Prop :=
  ∀ condition, tag.handler = .conditional condition → ∀ path operand,
    occasion.outcome? condition (tag.withPaths path operand) =
      other.outcome? condition (tag.withPaths path operand)

/-- Two occasions differ at most in the parameter, and every path leads to arrays of one
    length or in neither parameter to an array. -/
structure Occasion.Alike (occasion other : Occasion) : Prop where
  cls : occasion.cls = other.cls
  converters : occasion.converters = other.converters
  lengths : ∀ path, occasion.param.lengthAt? path = other.param.lengthAt? path

namespace Occasion

variable {occasion other : Occasion} {tag : Tag}

theorem Alike.symm (alike : occasion.Alike other) : other.Alike occasion :=
  ⟨alike.cls.symm, alike.converters.symm, fun path => (alike.lengths path).symm⟩

theorem Alike.exists_items (alike : occasion.Alike other) {path : String} {items : List Value}
    (found : occasion.param.get path = .ok (some (.array items))) :
    ∃ others, other.param.get path = .ok (some (.array others)) ∧
      others.length = items.length := by
  rw [← Value.lengthAt?_eq_some, ← alike.lengths, Value.lengthAt?_eq_some]
  exact ⟨items, found, rfl⟩

/-- Where one parameter has an array the other one has an array of the same length. -/
theorem Alike.collection (alike : occasion.Alike other) {path : String} {items : List Value}
    {frames after : Frames}
    (ran : (occasion.collection tag).run frames = .ok ((path, items), after)) :
    ∃ others, (other.collection tag).run frames = .ok ((path, others), after) ∧
      others.length = items.length := by
  simp only [collection_eq_ok, subject_eq_ok, look_eq_ok] at ran ⊢
  rcases ran with ⟨property, named, rfl, rfl, found⟩ | ⟨unnamed, rfl, isParam, rfl⟩
  · obtain ⟨others, found, length⟩ := alike.exists_items found
    exact ⟨others, .inl ⟨property, named, rfl, rfl, found⟩, length⟩
  · have found := Value.get_empty occasion.param
    rw [← isParam] at found
    obtain ⟨others, found, length⟩ := alike.exists_items found
    rw [Value.get_empty, Except.ok.injEq] at found
    exact ⟨others, .inr ⟨unnamed, rfl, found.symm, rfl⟩, length⟩

/-- Deciding a condition looks at the parameter in no other way than its outcomes tell. -/
theorem decides_agree {condition : Condition} (conditional : tag.handler = .conditional condition)
    (same : tag.SameOutcomes occasion other) :
    (occasion.decides condition tag).Agree (other.decides condition tag) := by
  intro frames holds after
  rw [decides_eq_ok, decides_eq_ok, tag.located_eq_withPaths, same condition conditional]

end Occasion

theorem TextPart.render_agree {occasion other : Occasion} (alike : occasion.Alike other)
    (text : TextPart) : (text.render occasion).Agree (text.render other) := by
  intro frames fragment after
  rw [render_eq_ok, render_eq_ok, alike.cls, alike.converters]

namespace Tag

variable {tag : Tag} {parent : Option Tag} {body body' : Rendering Fragment}
  {occasion other : Occasion} {id : Nat}

theorem once_agree (inner : body.Agree body') :
    (tag.once parent body).Agree (tag.once parent body') :=
  inner.bind fun _ => .refl _

theorem passes_agree (inner : body.Agree body') (count : Nat) :
    (tag.passes parent body count).Agree (tag.passes parent body' count) := by
  induction count with
  | zero => exact .refl _
  | succ count ih =>
    rw [passes, passes]
    refine (Agree.refl get).bind fun frames => ?_
    split
    · exact .refl _
    · refine inner.bind fun fragment => (Agree.refl _).bind fun ended => ?_
      dsimp only
      split
      · exact .refl _
      · exact ih.bind fun _ => .refl _

/-- Iterations over arrays of the same length. -/
theorem run_iterateOver_of_alike (alike : occasion.Alike other) (inner : body.Agree body')
    {frames after : Frames} {fragment : Fragment}
    (ran : (tag.iterateOver occasion parent id body).run frames = .ok (fragment, after)) :
    (tag.iterateOver other parent id body').run frames = .ok (fragment, after) := by
  obtain ⟨property, items, opened, closed, collected, passed, rfl⟩ := iterateOver_eq_ok.mp ran
  obtain ⟨others, collected, length⟩ := alike.collection collected
  refine iterateOver_eq_ok.mpr ⟨property, others, opened, closed, collected, ?_, rfl⟩
  rw [length]
  exact (passes_agree inner items.length).mp passed

theorem iterateOver_agree (alike : occasion.Alike other) (inner : body.Agree body') :
    (tag.iterateOver occasion parent id body).Agree (tag.iterateOver other parent id body') :=
  fun _ _ _ => ⟨run_iterateOver_of_alike alike inner,
    run_iterateOver_of_alike alike.symm inner.symm⟩

theorem around_agree (alike : occasion.Alike other) (same : tag.SameOutcomes occasion other)
    (inner : body.Agree body') :
    (tag.around occasion parent id body).Agree (tag.around other parent id body') := by
  have content : (tag.content occasion parent id body).Agree
      (tag.content other parent id body') := by
    unfold content
    cases handler : tag.handler with
    | group => exact once_agree inner
    | iterate => exact iterateOver_agree alike inner
    | conditional condition =>
      refine (Occasion.decides_agree handler same).bind fun holds => ?_
      cases holds with
      | true => exact once_agree inner
      | false => exact .refl _
  exact (Agree.refl _).bind fun _ => content.bind fun _ => .refl _

end Tag

namespace Part

variable {occasion other : Occasion}

mutual

/-- A part renders alike for two parameters that are alike. -/
theorem render_agree (alike : occasion.Alike other) {parent : Option Tag} : ∀ part : Part,
    part.Each (fun _ => True) (Tag.SameOutcomes occasion other) →
      (part.render occasion parent).Agree (part.render other parent)
  | .text _ content, _ => by
    rw [render, render]
    exact content.render_agree alike
  | .tag _ _ body, same => by
    rw [render, render]
    exact Tag.around_agree alike same.1 (renderAll_agree alike body same.2)

theorem renderAll_agree (alike : occasion.Alike other) {parent : Option Tag} :
    ∀ parts : List Part, EachOf (fun _ => True) (Tag.SameOutcomes occasion other) parts →
      (renderAll occasion parent parts).Agree (renderAll other parent parts)
  | [], _ => by
    rw [renderAll, renderAll]
    exact .refl _
  | part :: rest, same => by
    rw [renderAll, renderAll]
    exact (render_agree alike part same.1).bind fun _ =>
      (renderAll_agree alike rest same.2).bind fun _ => .refl _

end

end Part

end DynamicSql
