import DynamicSql.Proofs.Outcome
import DynamicSql.Template.Execution

/-!
# Successful runs of renderings

A rendering that succeeds is a chain of steps that succeed. The lemmas of this
module take a run apart into the runs of its steps, one lemma for each step, so
that no later proof opens the definitions of the rendering.
-/

namespace DynamicSql

namespace Rendering

variable {α β : Type}

theorem run_bind_eq_ok {x : Rendering α} {f : α → Rendering β} {frames after : Frames}
    {b : β} :
    (x >>= f).run frames = .ok (b, after) ↔
      ∃ a middle, x.run frames = .ok (a, middle) ∧ (f a).run middle = .ok (b, after) := by
  rw [StateT.run_bind, bind_eq_ok_iff]
  constructor
  · rintro ⟨⟨a, middle⟩, first, second⟩
    exact ⟨a, middle, first, second⟩
  · rintro ⟨a, middle, first, second⟩
    exact ⟨(a, middle), first, second⟩

theorem run_pure_eq_ok {a b : α} {frames after : Frames} :
    (pure a : Rendering α).run frames = .ok (b, after) ↔ b = a ∧ after = frames := by
  show Except.ok (a, frames) = .ok (b, after) ↔ _
  simp [eq_comm]

theorem run_get_eq_ok {frames found after : Frames} :
    (get : Rendering Frames).run frames = .ok (found, after) ↔
      found = frames ∧ after = frames := by
  show Except.ok (frames, frames) = .ok (found, after) ↔ _
  simp [eq_comm]

theorem run_modify_eq_ok {f : Frames → Frames} {frames after : Frames} {u : PUnit} :
    (modify f : Rendering PUnit).run frames = .ok (u, after) ↔ after = f frames := by
  show Except.ok (PUnit.unit, f frames) = .ok (u, after) ↔ _
  simp [eq_comm]

theorem run_modifyGet_eq_ok {f : Frames → α × Frames} {a : α} {frames after : Frames} :
    (modifyGet f : Rendering α).run frames = .ok (a, after) ↔ f frames = (a, after) := by
  show Except.ok (f frames) = .ok (a, after) ↔ _
  simp

theorem run_lift_eq_ok {x : Except Error α} {a : α} {frames after : Frames} :
    (liftM x : Rendering α).run frames = .ok (a, after) ↔ x = .ok a ∧ after = frames := by
  cases x with
  | error e =>
    show Except.error e = .ok (a, after) ↔ _
    simp
  | ok b =>
    show Except.ok (b, frames) = .ok (a, after) ↔ _
    simp [eq_comm]

theorem run_throw_ne_ok {e : Error} {frames after : Frames} {a : α} :
    (throw e : Rendering α).run frames ≠ .ok (a, after) := by
  intro ok
  have impossible : Except.error e = Except.ok (a, after) := ok
  cases impossible

end Rendering

open Rendering

namespace Occasion

/-- A property is looked up after the innermost loop has reached its item. -/
theorem look_eq_ok {occasion : Occasion} {property path : String} {value : Option Value}
    {frames after : Frames} :
    (occasion.look property).run frames = .ok ((path, value), after) ↔
      after = frames.advance ∧
        path = String.ofList (frames.advance.qualify property.toList) ∧
        occasion.param.get path = .ok value := by
  simp only [look, run_bind_eq_ok, run_modify_eq_ok, run_get_eq_ok, run_lift_eq_ok,
    run_pure_eq_ok, Prod.mk.injEq]
  constructor
  · rintro ⟨_, _, rfl, _, _, ⟨rfl, rfl⟩, _, _, ⟨found, rfl⟩, ⟨rfl, rfl⟩, rfl⟩
    exact ⟨rfl, rfl, found⟩
  · rintro ⟨rfl, rfl, found⟩
    exact ⟨⟨⟩, _, rfl, _, _, ⟨rfl, rfl⟩, _, _, ⟨found, rfl⟩, ⟨rfl, rfl⟩, rfl⟩

/-- A tag is about the value at its property, or about the parameter if it names
    none. -/
theorem subject_eq_ok {occasion : Occasion} {tag : Tag} {path : String}
    {value : Option Value} {frames after : Frames} :
    (occasion.subject tag).run frames = .ok ((path, value), after) ↔
      (∃ property, tag.property = some property ∧
        (occasion.look property).run frames = .ok ((path, value), after)) ∨
      (tag.property = none ∧ path = "" ∧ value = some occasion.param ∧ after = frames) := by
  unfold subject
  cases tag.property with
  | none =>
    rw [run_pure_eq_ok]
    simp [and_assoc]
  | some property => simp

theorem itemsOf_eq_ok {occasion : Occasion} {path : String} {value : Option Value}
    {items : List Value} :
    occasion.itemsOf path value = .ok items ↔ value = some (.array items) := by
  unfold itemsOf
  split <;> simp_all

/-- An iteration goes through the array that it is about. -/
theorem collection_eq_ok {occasion : Occasion} {tag : Tag} {path : String}
    {items : List Value} {frames after : Frames} :
    (occasion.collection tag).run frames = .ok ((path, items), after) ↔
      (occasion.subject tag).run frames = .ok ((path, some (.array items)), after) := by
  simp only [collection, run_bind_eq_ok, run_lift_eq_ok, run_pure_eq_ok, itemsOf_eq_ok,
    Prod.mk.injEq]
  constructor
  · rintro ⟨⟨_, _⟩, _, found, _, _, ⟨rfl, rfl⟩, ⟨rfl, rfl⟩, rfl⟩
    exact found
  · intro found
    exact ⟨_, _, found, _, _, ⟨rfl, rfl⟩, ⟨rfl, rfl⟩, rfl⟩

/-- A subject is found with the frames as they are, or with the innermost loop at
    its item. -/
theorem subject_frames {occasion : Occasion} {tag : Tag} {frames after : Frames}
    {found : String × Option Value}
    (ran : (occasion.subject tag).run frames = .ok (found, after)) :
    after = frames ∨ after = frames.advance := by
  rcases subject_eq_ok.mp ran with ⟨_, _, looked⟩ | ⟨_, _, _, same⟩
  · exact .inr (look_eq_ok.mp looked).1
  · exact .inl same

theorem operand_frames {occasion : Occasion} {condition : Condition} {tag : Tag}
    {frames after : Frames} {value : Value}
    (ran : (occasion.operand condition tag).run frames = .ok (value, after)) :
    after = frames ∨ after = frames.advance := by
  unfold operand at ran
  split at ran
  · split at ran
    · obtain ⟨_, _, looked, last⟩ := run_bind_eq_ok.mp ran
      rw [(run_pure_eq_ok.mp last).2]
      exact .inr (look_eq_ok.mp looked).1
    · exact .inl (run_pure_eq_ok.mp ran).2
    · exact (run_throw_ne_ok ran).elim
  · exact .inl (run_pure_eq_ok.mp ran).2

/-- Deciding a condition lets at most the innermost loop reach its item. -/
theorem decides_frames {occasion : Occasion} {condition : Condition} {tag : Tag}
    {frames after : Frames} {holds : Bool}
    (ran : (occasion.decides condition tag).run frames = .ok (holds, after)) :
    after = frames ∨ after = frames.advance := by
  obtain ⟨_, middle, first, rest⟩ := run_bind_eq_ok.mp ran
  obtain ⟨_, _, second, last⟩ := run_bind_eq_ok.mp rest
  rw [(run_pure_eq_ok.mp last).2]
  rcases subject_frames first with rfl | rfl <;> rcases operand_frames second with rfl | rfl
  · exact .inl rfl
  · exact .inr rfl
  · exact .inr rfl
  · exact .inr (Frames.advance_advance frames)

end Occasion

namespace TextPart

/-- Text contributes what was read when it was built; blank text contributes
    itself; other text is read with the indexes of the loops. -/
theorem render_eq_ok {occasion : Occasion} {text : TextPart} {fragment : Fragment}
    {frames after : Frames} :
    (text.render occasion).run frames = .ok (fragment, after) ↔
      (text.ready = some fragment ∧ after = frames) ∨
      (text.ready = none ∧ Text.hasContent text.source = false ∧
        fragment = .ofText text.source ∧ after = frames) ∨
      (text.ready = none ∧ Text.hasContent text.source = true ∧ after = frames.advance ∧
        Fragment.parse occasion.cls occasion.converters
          (frames.advance.qualifyPlaceholders text.source) = .ok fragment) := by
  unfold render
  cases text.ready with
  | some known =>
    rw [run_pure_eq_ok]
    simp only [Option.some.injEq, reduceCtorEq, false_and, or_false]
    exact and_congr_left' eq_comm
  | none =>
    cases Text.hasContent text.source with
    | false =>
      show (pure _ : Rendering Fragment).run frames = _ ↔ _
      rw [run_pure_eq_ok]
      simp
    | true =>
      simp only [↓reduceIte, run_bind_eq_ok, run_modify_eq_ok, run_get_eq_ok, run_lift_eq_ok]
      constructor
      · rintro ⟨_, _, rfl, _, _, ⟨rfl, rfl⟩, parsed, rfl⟩
        exact .inr (.inr ⟨trivial, trivial, rfl, parsed⟩)
      · rintro (⟨impossible, _⟩ | ⟨_, impossible, _⟩ | ⟨_, _, rfl, parsed⟩)
        · cases impossible
        · cases impossible
        · exact ⟨⟨⟩, _, rfl, _, _, ⟨rfl, rfl⟩, parsed, rfl⟩

end TextPart

namespace Tag

/-- A tag whose body appears once. -/
theorem once_eq_ok {tag : Tag} {parent : Option Tag} {body : Rendering Fragment}
    {fragment : Fragment} {frames after : Frames} :
    (tag.once parent body).run frames = .ok (fragment, after) ↔
      ∃ inner middle, body.run frames = .ok (inner, middle) ∧
        fragment = ⟨(tag.prependTo parent (tag.wrap inner.sql) middle).1, inner.bindings⟩ ∧
        after = (tag.prependTo parent (tag.wrap inner.sql) middle).2 := by
  simp only [once, run_bind_eq_ok, run_pure_eq_ok, run_modifyGet_eq_ok]
  constructor
  · rintro ⟨inner, middle, ran, sql, _, prepended, rfl, rfl⟩
    exact ⟨inner, middle, ran, by rw [prepended], by rw [prepended]⟩
  · rintro ⟨inner, middle, ran, rfl, rfl⟩
    exact ⟨inner, middle, ran, _, _, rfl, rfl, rfl⟩

/-- An iteration opens its loop, renders the passes and leaves the loop. -/
theorem iterateOver_eq_ok {tag : Tag} {occasion : Occasion} {parent : Option Tag} {id : Nat}
    {body : Rendering Fragment} {fragment : Fragment} {frames after : Frames} :
    (tag.iterateOver occasion parent id body).run frames = .ok (fragment, after) ↔
      ∃ property items opened closed,
        (occasion.collection tag).run frames = .ok ((property, items), opened) ∧
        (tag.passes parent body items.length).run
          (opened.pushLoop { tag := id, size := items.length, property }) =
            .ok (fragment, closed) ∧
        after = closed.popLoop := by
  simp only [iterateOver, run_bind_eq_ok, run_pure_eq_ok, run_modify_eq_ok]
  constructor
  · rintro ⟨⟨property, items⟩, opened, collected, _, _, rfl, _, closed, ran, _, _, rfl, rfl,
      rfl⟩
    exact ⟨property, items, opened, closed, collected, ran, rfl⟩
  · rintro ⟨property, items, opened, closed, collected, ran, rfl⟩
    exact ⟨(property, items), opened, collected, ⟨⟩, _, rfl, fragment, closed, ran, ⟨⟩, _,
      rfl, rfl, rfl⟩

/-- What a tag makes of its body, by its handler. -/
theorem content_eq_ok {tag : Tag} {occasion : Occasion} {parent : Option Tag} {id : Nat}
    {body : Rendering Fragment} {fragment : Fragment} {frames after : Frames} :
    (tag.content occasion parent id body).run frames = .ok (fragment, after) ↔
      (tag.handler = .group ∧ (tag.once parent body).run frames = .ok (fragment, after)) ∨
      (∃ condition, tag.handler = .conditional condition ∧ ∃ holds middle,
        (occasion.decides condition tag).run frames = .ok (holds, middle) ∧
        ((holds = true ∧ (tag.once parent body).run middle = .ok (fragment, after)) ∨
          (holds = false ∧ fragment = {} ∧ after = middle))) ∨
      (tag.handler = .iterate ∧
        (tag.iterateOver occasion parent id body).run frames = .ok (fragment, after)) := by
  unfold content
  cases tag.handler with
  | group => simp
  | iterate => simp
  | conditional condition =>
    simp only [run_bind_eq_ok, reduceCtorEq, false_and, false_or, or_false,
      Handler.conditional.injEq, exists_eq_left']
    constructor
    · rintro ⟨holds, middle, decided, rest⟩
      cases holds with
      | true => exact ⟨true, middle, decided, .inl ⟨rfl, rest⟩⟩
      | false => exact ⟨false, middle, decided, .inr ⟨rfl, run_pure_eq_ok.mp rest⟩⟩
    · rintro ⟨holds, middle, decided, ⟨rfl, rest⟩ | ⟨rfl, rest⟩⟩
      · exact ⟨true, middle, decided, rest⟩
      · exact ⟨false, middle, decided, run_pure_eq_ok.mpr rest⟩

/-- A tag is entered, rendered and left. -/
theorem around_eq_ok {tag : Tag} {occasion : Occasion} {parent : Option Tag} {id : Nat}
    {body : Rendering Fragment} {fragment : Fragment} {frames after : Frames} :
    (tag.around occasion parent id body).run frames = .ok (fragment, after) ↔
      ∃ left, (tag.content occasion parent id body).run
          (frames.enter id (tag.marker? parent)) = .ok (fragment, left) ∧
        after = left.popMarker id := by
  simp only [around, run_bind_eq_ok, run_pure_eq_ok, run_modify_eq_ok]
  constructor
  · rintro ⟨_, _, rfl, _, left, ran, _, _, rfl, rfl, rfl⟩
    exact ⟨left, ran, rfl⟩
  · rintro ⟨left, ran, rfl⟩
    exact ⟨⟨⟩, _, rfl, fragment, left, ran, ⟨⟩, _, rfl, rfl, rfl⟩

/-- The passes go on while the innermost loop has an item left and no pass was the
    last one. -/
theorem passes_succ_eq_ok {tag : Tag} {parent : Option Tag} {body : Rendering Fragment}
    {count : Nat} {fragment : Fragment} {frames after : Frames} :
    (tag.passes parent body (count + 1)).run frames = .ok (fragment, after) ↔
      (frames.loops.head?.any Loop.hasNext = false ∧ fragment = {} ∧ after = frames) ∨
      (frames.loops.head?.any Loop.hasNext = true ∧ ∃ inner middle piece isLast next,
        body.run frames = .ok (inner, middle) ∧
        tag.endPass parent inner middle = ((piece, isLast), next) ∧
        ((isLast = true ∧ fragment = piece ∧ after = next) ∨
          (isLast = false ∧ ∃ rest,
            (tag.passes parent body count).run next = .ok (rest, after) ∧
            fragment = piece ++ rest))) := by
  rw [passes, run_bind_eq_ok]
  simp only [run_get_eq_ok]
  constructor
  · rintro ⟨_, _, ⟨rfl, rfl⟩, rest⟩
    revert rest
    cases Option.any Loop.hasNext _ with
    | false =>
      intro rest
      exact .inl ⟨rfl, run_pure_eq_ok.mp rest⟩
    | true =>
      simp only [Bool.not_true, Bool.false_eq_true, ↓reduceIte, run_bind_eq_ok,
        run_modifyGet_eq_ok]
      rintro ⟨inner, middle, ran, ⟨piece, isLast⟩, next, ended, rest⟩
      refine .inr ⟨trivial, inner, middle, piece, isLast, next, ran, ended, ?_⟩
      cases isLast with
      | true => exact .inl ⟨rfl, run_pure_eq_ok.mp rest⟩
      | false =>
        simp only [Bool.false_eq_true, ↓reduceIte, run_bind_eq_ok, run_pure_eq_ok] at rest
        obtain ⟨rest, _, ran, rfl, rfl⟩ := rest
        exact .inr ⟨rfl, rest, ran, rfl⟩
  · intro ran
    refine ⟨_, _, ⟨rfl, rfl⟩, ?_⟩
    revert ran
    cases Option.any Loop.hasNext _ with
    | false =>
      rintro (⟨_, rfl, rfl⟩ | ⟨impossible, _⟩)
      · exact run_pure_eq_ok.mpr ⟨rfl, rfl⟩
      · cases impossible
    | true =>
      simp only [Bool.not_true, Bool.false_eq_true, ↓reduceIte, run_bind_eq_ok,
        run_modifyGet_eq_ok]
      rintro (⟨impossible, _⟩ | ⟨_, inner, middle, piece, isLast, next, ran, ended, last⟩)
      · cases impossible
      refine ⟨inner, middle, ran, (piece, isLast), next, ended, ?_⟩
      rcases last with ⟨rfl, rfl, rfl⟩ | ⟨rfl, rest, ran, rfl⟩
      · exact run_pure_eq_ok.mpr ⟨rfl, rfl⟩
      · simp only [Bool.false_eq_true, ↓reduceIte, run_bind_eq_ok, run_pure_eq_ok]
        exact ⟨rest, _, ran, rfl, rfl⟩

end Tag

namespace Part

theorem renderAll_cons_eq_ok {occasion : Occasion} {parent : Option Tag} {part : Part}
    {rest : List Part} {fragment : Fragment} {frames after : Frames} :
    (renderAll occasion parent (part :: rest)).run frames = .ok (fragment, after) ↔
      ∃ first middle others, (part.render occasion parent).run frames = .ok (first, middle) ∧
        (renderAll occasion parent rest).run middle = .ok (others, after) ∧
        fragment = first ++ others := by
  rw [renderAll]
  simp only [run_bind_eq_ok, run_pure_eq_ok]
  constructor
  · rintro ⟨first, middle, ran, others, _, more, rfl, rfl⟩
    exact ⟨first, middle, others, ran, more, rfl⟩
  · rintro ⟨first, middle, others, ran, more, rfl⟩
    exact ⟨first, middle, ran, others, _, more, rfl, rfl⟩

/-- A part alone is a row of one. -/
theorem renderAll_singleton_eq_ok {occasion : Occasion} {parent : Option Tag} {part : Part}
    {fragment : Fragment} {frames after : Frames} :
    (renderAll occasion parent [part]).run frames = .ok (fragment, after) ↔
      (part.render occasion parent).run frames = .ok (fragment, after) := by
  rw [renderAll_cons_eq_ok]
  constructor
  · rintro ⟨first, middle, others, ran, none, rfl⟩
    rw [renderAll] at none
    obtain ⟨rfl, rfl⟩ := run_pure_eq_ok.mp none
    rw [Fragment.append_empty]
    exact ran
  · intro ran
    refine ⟨fragment, after, {}, ran, ?_, (Fragment.append_empty fragment).symm⟩
    rw [renderAll]
    exact run_pure_eq_ok.mpr ⟨rfl, rfl⟩

/-- Two rows of parts are rendered one after the other. -/
theorem renderAll_append_eq_ok {occasion : Occasion} {parent : Option Tag}
    {parts others : List Part} {fragment : Fragment} {frames after : Frames} :
    (renderAll occasion parent (parts ++ others)).run frames = .ok (fragment, after) ↔
      ∃ first middle second, (renderAll occasion parent parts).run frames = .ok (first, middle) ∧
        (renderAll occasion parent others).run middle = .ok (second, after) ∧
        fragment = first ++ second := by
  induction parts generalizing fragment frames with
  | nil =>
    constructor
    · intro ran
      refine ⟨{}, frames, fragment, ?_, ran, (Fragment.empty_append fragment).symm⟩
      rw [renderAll]
      exact run_pure_eq_ok.mpr ⟨rfl, rfl⟩
    · rintro ⟨first, middle, second, none, ran, rfl⟩
      rw [renderAll] at none
      obtain ⟨rfl, rfl⟩ := run_pure_eq_ok.mp none
      rw [Fragment.empty_append]
      exact ran
  | cons part rest ih =>
    rw [List.cons_append, renderAll_cons_eq_ok]
    constructor
    · rintro ⟨first, middle, _, ran, more, rfl⟩
      obtain ⟨second, between, third, ranRest, ranOthers, rfl⟩ := ih.mp more
      exact ⟨first ++ second, between, third,
        renderAll_cons_eq_ok.mpr ⟨first, middle, second, ran, ranRest, rfl⟩, ranOthers,
        (Fragment.append_assoc first second third).symm⟩
    · rintro ⟨_, between, third, ranParts, ranOthers, rfl⟩
      obtain ⟨first, middle, second, ran, ranRest, rfl⟩ := renderAll_cons_eq_ok.mp ranParts
      exact ⟨first, middle, second ++ third, ran,
        ih.mpr ⟨second, between, third, ranRest, ranOthers, rfl⟩,
        Fragment.append_assoc first second third⟩

end Part

namespace Template

/-- What a template is rendered with. -/
def occasion (template : Template) (converters : Converters) (param : Value) : Occasion :=
  { cls := template.cls, converters, param }

/-- The statement of a template is what its parts render to, with the texts of values
    put in. -/
theorem render_eq_ok {template : Template} {converters : Converters} {param : Value}
    {statement : Fragment} :
    template.render converters param = .ok statement ↔
      ∃ assembled after,
        (Part.renderAll (template.occasion converters param) none template.parts).run {} =
          .ok (assembled, after) ∧
        substitute param template.cls assembled.sql = .ok statement.sql ∧
        statement.bindings = assembled.bindings := by
  simp only [render, bind_eq_ok_iff]
  constructor
  · rintro ⟨⟨assembled, after⟩, ran, sql, replaced, last⟩
    cases last
    exact ⟨assembled, after, ran, replaced, rfl⟩
  · rintro ⟨assembled, after, ran, replaced, same⟩
    refine ⟨(assembled, after), ran, statement.sql, replaced, ?_⟩
    rw [← same]
    rfl

end Template

end DynamicSql
