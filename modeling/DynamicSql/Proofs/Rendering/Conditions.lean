import DynamicSql.Proofs.Rendering.Run

/-!
# Outcomes of conditions

A condition depends on the frames only through the indexes that they put into the
properties of its tag. So its outcome is the one outside every loop of the tag
with the paths that the properties mean at the place, and what it does to the
frames depends on the tag alone.
-/

namespace DynamicSql

open Rendering

namespace Frames

/-- The path that a property means at a place. -/
def locate (frames : Frames) (property : String) : String :=
  String.ofList (frames.advance.qualify property.toList)

/-- The frames after a property, if there is one, was looked up. -/
def lookedUp (frames : Frames) (property : Option String) : Frames :=
  if property.isSome then frames.advance else frames

/-- The frames after the condition of a tag was decided. -/
def decided (frames : Frames) (condition : Condition) (tag : Tag) : Frames :=
  let found := frames.lookedUp tag.property
  if condition.isComparison then found.lookedUp tag.compareProperty else found

theorem advance_outside {frames : Frames} (outside : frames.loops = []) :
    frames.advance = frames := by
  simp [advance, outside]

theorem locate_outside {frames : Frames} (outside : frames.loops = []) (property : String) :
    frames.locate property = property := by
  rw [locate, advance_outside outside, qualify, outside, List.foldr_nil, String.ofList_toList]

theorem locate_lookedUp (frames : Frames) (property : Option String) :
    (frames.lookedUp property).locate = frames.locate := by
  unfold lookedUp
  split
  · funext path
    rw [locate, advance_advance, locate]
  · rfl

theorem decided_outside {frames : Frames} (outside : frames.loops = []) (condition : Condition)
    (tag : Tag) : frames.decided condition tag = frames := by
  simp [decided, lookedUp, advance_outside outside]

end Frames

namespace Tag

/-- A tag with the paths that its properties mean at a place. -/
def located (tag : Tag) (frames : Frames) : Tag :=
  { tag with
    property := tag.property.map frames.locate
    compareProperty := tag.compareProperty.map frames.locate }

theorem located_outside {frames : Frames} (outside : frames.loops = []) (tag : Tag) :
    tag.located frames = tag := by
  have same : frames.locate = id := funext (Frames.locate_outside outside)
  simp [located, same]

theorem located_lookedUp (tag : Tag) (frames : Frames) (property : Option String) :
    tag.located (frames.lookedUp property) = tag.located frames := by
  simp only [located, Frames.locate_lookedUp]

end Tag

/-- What looks at nothing gives the same everywhere. -/
theorem Rendering.run_pure_located {α : Type} {a b : α} {frames after : Frames} :
    (pure a : Rendering α).run frames = .ok (b, after) ↔
      after = frames ∧ (pure a : Rendering α).run {} = .ok (b, {}) := by
  rw [run_pure_eq_ok, run_pure_eq_ok]
  exact and_comm.trans (and_congr_right' (and_iff_left rfl).symm)

namespace Occasion

variable {occasion : Occasion} {condition : Condition} {tag : Tag} {frames after : Frames}

/-- Whether the condition of a tag holds outside every loop, if that can be told. -/
def outcome? (occasion : Occasion) (condition : Condition) (tag : Tag) : Option Bool :=
  ((occasion.decides condition tag).run {}).toOption.map Prod.fst

theorem look_located {property : String} {found : String × Option Value} :
    (occasion.look property).run frames = .ok (found, after) ↔
      after = frames.advance ∧
        (occasion.look (frames.locate property)).run {} = .ok (found, {}) := by
  obtain ⟨path, value⟩ := found
  rw [look_eq_ok, look_eq_ok]
  have outside : ({} : Frames).locate (frames.locate property) = frames.locate property :=
    Frames.locate_outside rfl _
  rw [← Frames.locate, ← Frames.locate, outside]
  exact and_congr_right' (and_iff_right rfl).symm

theorem subject_located {found : String × Option Value} :
    (occasion.subject tag).run frames = .ok (found, after) ↔
      after = frames.lookedUp tag.property ∧
        (occasion.subject (tag.located frames)).run {} = .ok (found, {}) := by
  simp only [subject, Tag.located, Frames.lookedUp]
  cases tag.property with
  | none => exact run_pure_located
  | some property => exact look_located

theorem operand_located {value : Value} :
    (occasion.operand condition tag).run frames = .ok (value, after) ↔
      after = (if condition.isComparison then frames.lookedUp tag.compareProperty
        else frames) ∧
        (occasion.operand condition (tag.located frames)).run {} = .ok (value, {}) := by
  simp only [operand, Tag.located, Frames.lookedUp]
  cases condition.isComparison with
  | false => exact run_pure_located
  | true =>
    cases tag.compareProperty with
    | some property =>
      simp only [↓reduceIte, Option.map_some, Option.isSome_some, run_bind_eq_ok, run_pure_eq_ok]
      constructor
      · rintro ⟨found, _, looked, rfl, rfl⟩
        obtain ⟨rfl, outside⟩ := look_located.mp looked
        exact ⟨rfl, found, _, outside, rfl, rfl⟩
      · rintro ⟨rfl, found, _, outside, rfl, rfl⟩
        exact ⟨found, _, look_located.mpr ⟨rfl, outside⟩, rfl, rfl⟩
    | none =>
      cases tag.compareValue with
      | some text => exact run_pure_located
      | none =>
        exact ⟨fun ran => (run_throw_ne_ok ran).elim, fun ran => (run_throw_ne_ok ran.2).elim⟩

theorem outcome?_eq_some {holds : Bool} :
    occasion.outcome? condition tag = some holds ↔
      (occasion.decides condition tag).run {} = .ok (holds, {}) := by
  rw [outcome?, Option.map_eq_some_iff]
  constructor
  · rintro ⟨⟨_, after⟩, known, rfl⟩
    have ran := eq_ok_of_toOption known
    have same : after = {} := by rcases decides_frames ran with rfl | rfl <;> rfl
    rw [ran, same]
  · intro ran
    exact ⟨(holds, {}), by rw [ran]; rfl, rfl⟩

/-- A condition is a subject and an operand, found outside every loop. -/
theorem decides_steps {holds : Bool} :
    (occasion.decides condition tag).run frames = .ok (holds, after) ↔
      after = frames.decided condition tag ∧ ∃ path subject operand,
        (occasion.subject (tag.located frames)).run {} = .ok ((path, subject), {}) ∧
        (occasion.operand condition (tag.located frames)).run {} = .ok (operand, {}) ∧
        holds = condition.holds occasion.param subject operand := by
  simp only [decides, run_bind_eq_ok, run_pure_eq_ok, Frames.decided]
  constructor
  · rintro ⟨⟨path, subject⟩, _, first, operand, _, second, rfl, rfl⟩
    obtain ⟨rfl, found⟩ := subject_located.mp first
    obtain ⟨rfl, compared⟩ := operand_located.mp second
    rw [Tag.located_lookedUp] at compared
    exact ⟨rfl, path, subject, operand, found, compared, rfl⟩
  · rintro ⟨rfl, path, subject, operand, found, compared, rfl⟩
    rw [← Tag.located_lookedUp tag frames tag.property] at compared
    exact ⟨(path, subject), _, subject_located.mpr ⟨rfl, found⟩, operand, _,
      operand_located.mpr ⟨rfl, compared⟩, rfl, rfl⟩

/-- A condition is decided as outside every loop, with the indexes put into the
    properties. -/
theorem decides_eq_ok {holds : Bool} :
    (occasion.decides condition tag).run frames = .ok (holds, after) ↔
      after = frames.decided condition tag ∧
        occasion.outcome? condition (tag.located frames) = some holds := by
  have noLoops : ({} : Frames).loops = [] := rfl
  have outside := @decides_steps occasion condition (tag.located frames) {} {} holds
  rw [Tag.located_outside noLoops, Frames.decided_outside noLoops, and_iff_right rfl] at outside
  rw [decides_steps, outcome?_eq_some, outside]

/-- A condition without an operand is told by the value at its property. -/
theorem outcome?_of_property {property : String} (named : tag.property = some property)
    (single : condition.isComparison = false) :
    occasion.outcome? condition tag =
      (occasion.param.get property).toOption.map fun subject =>
        condition.holds occasion.param subject .null := by
  have same : String.ofList (({} : Frames).advance.qualify property.toList) = property :=
    Frames.locate_outside rfl property
  refine Option.ext fun holds => ?_
  rw [outcome?_eq_some, Option.map_eq_some_iff]
  simp only [decides, subject, named, operand, single, run_bind_eq_ok, run_pure_eq_ok,
    Bool.false_eq_true, if_false]
  constructor
  · rintro ⟨⟨path, subject⟩, _, looked, _, _, ⟨rfl, rfl⟩, rfl, -⟩
    obtain ⟨-, rfl, found⟩ := look_eq_ok.mp looked
    rw [same] at found
    exact ⟨subject, by rw [found]; rfl, rfl⟩
  · rintro ⟨subject, known, rfl⟩
    exact ⟨(property, subject), {}, look_eq_ok.mpr ⟨rfl, same.symm, eq_ok_of_toOption known⟩,
      .null, {}, ⟨rfl, rfl⟩, rfl, rfl⟩

end Occasion

end DynamicSql
