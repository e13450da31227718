import DynamicSql.Proofs.Stages.Course

/-!
# Where a rendering fails

A rendering fails with an error just if it comes to a place at which the first part is faulty
by itself: its text cannot be read, its condition cannot be decided, or there is no array to go
through. So the places that a rendering comes to are all that it has, also if it fails.
-/

namespace DynamicSql

namespace Rendering

variable {α β : Type} {frames : Frames} {e : Error}

theorem run_bind_eq_error {x : Rendering α} {f : α → Rendering β} :
    (x >>= f).run frames = .error e ↔
      x.run frames = .error e ∨
        ∃ a middle, x.run frames = .ok (a, middle) ∧ (f a).run middle = .error e := by
  rw [StateT.run_bind]
  cases x.run frames with
  | error e' =>
    show Except.error e' = Except.error e ↔ _
    simp
  | ok outcome =>
    obtain ⟨a, middle⟩ := outcome
    show (f a).run middle = .error e ↔ _
    simp

theorem run_pure_ne_error {a : α} : (pure a : Rendering α).run frames ≠ .error e := nofun

/-- If what follows cannot fail, only the beginning can. -/
theorem run_bind_eq_error_left {x : Rendering α} {f : α → Rendering β}
    (succeeds : ∀ a middle, (f a).run middle ≠ .error e) :
    (x >>= f).run frames = .error e ↔ x.run frames = .error e := by
  rw [run_bind_eq_error]
  constructor
  · intro fails
    rcases fails with fails | ⟨a, middle, -, impossible⟩
    · exact fails
    · exact absurd impossible (succeeds a middle)
  · exact .inl

/-- What is made of a result cannot fail. -/
theorem run_bind_pure_eq_error {x : Rendering α} {f : α → β} :
    (do return f (← x) : Rendering β).run frames = .error e ↔ x.run frames = .error e := by
  apply run_bind_eq_error_left
  intro a middle
  exact run_pure_ne_error

/-- A change of the frames cannot fail, but what follows it can. -/
theorem run_modify_bind_eq_error {f : Frames → Frames} {x : PUnit → Rendering β} :
    (modify f >>= x : Rendering β).run frames = .error e ↔ (x ⟨⟩).run (f frames) = .error e :=
  Iff.rfl

end Rendering

open Rendering

namespace Tag

variable {tag : Tag} {occasion : Occasion} {parent : Option Tag} {id : Nat}
  {body : Rendering Fragment} {frames : Frames} {e : Error}

theorem once_eq_error :
    (tag.once parent body).run frames = .error e ↔ body.run frames = .error e := by
  unfold once
  apply run_bind_eq_error_left
  intro inner middle impossible
  cases impossible

theorem around_eq_error :
    (tag.around occasion parent id body).run frames = .error e ↔
      (tag.content occasion parent id body).run (frames.enter id (tag.marker? parent)) =
        .error e := by
  unfold around
  rw [run_modify_bind_eq_error]
  apply run_bind_eq_error_left
  intro fragment middle impossible
  cases impossible

theorem iterateOver_eq_error :
    (tag.iterateOver occasion parent id body).run frames = .error e ↔
      (occasion.collection tag).run frames = .error e ∨
        ∃ property items opened,
          (occasion.collection tag).run frames = .ok ((property, items), opened) ∧
          (tag.passes parent body items.length).run
            (opened.pushLoop { tag := id, size := items.length, property }) = .error e := by
  unfold iterateOver
  rw [run_bind_eq_error]
  refine or_congr_right ?_
  constructor
  · intro ⟨⟨property, items⟩, opened, collected, fails⟩
    refine ⟨property, items, opened, collected, ?_⟩
    refine (run_bind_eq_error_left ?_).mp (run_modify_bind_eq_error.mp fails)
    intro fragment middle impossible
    cases impossible
  · intro ⟨property, items, opened, collected, fails⟩
    exact ⟨(property, items), opened, collected,
      run_modify_bind_eq_error.mpr (run_bind_eq_error.mpr (.inl fails))⟩

/-- The passes fail in one of them, or behind it. -/
theorem passes_succ_eq_error {count : Nat} :
    (tag.passes parent body (count + 1)).run frames = .error e ↔
      frames.loops.head?.any Loop.hasNext = true ∧
        (body.run frames = .error e ∨ ∃ inner middle piece next,
          body.run frames = .ok (inner, middle) ∧
          tag.endPass parent inner middle = ((piece, false), next) ∧
          (tag.passes parent body count).run next = .error e) := by
  rw [passes]
  show (if ! frames.loops.head?.any Loop.hasNext then pure {} else _ : Rendering Fragment).run
    frames = .error e ↔ _
  cases frames.loops.head?.any Loop.hasNext with
  | false =>
    simp only [Bool.not_false, ↓reduceIte, run_pure_ne_error, Bool.false_eq_true, false_and]
  | true =>
    rw [Bool.not_true, if_neg Bool.false_ne_true, run_bind_eq_error, eq_self, true_and]
    refine or_congr_right ?_
    constructor
    · intro fails
      obtain ⟨inner, middle, ran, fails⟩ := fails
      obtain impossible | ⟨⟨piece, isLast⟩, next, ended, fails⟩ := run_bind_eq_error.mp fails
      · cases impossible
      · refine ⟨inner, middle, piece, next, ran, ?_⟩
        cases isLast with
        | true => cases fails
        | false =>
          refine ⟨run_modifyGet_eq_ok.mp ended, ?_⟩
          simp only [Bool.false_eq_true, ↓reduceIte] at fails
          exact run_bind_pure_eq_error.mp fails
    · intro fails
      obtain ⟨inner, middle, piece, next, ran, ended, fails⟩ := fails
      refine ⟨inner, middle, ran, run_bind_eq_error.mpr (.inr ⟨(piece, false), next, ?_, ?_⟩)⟩
      · exact run_modifyGet_eq_ok.mpr ended
      · simp only [Bool.false_eq_true, ↓reduceIte]
        exact run_bind_pure_eq_error.mpr fails

/-- Passes that begin behind another one. -/
theorem Begins.behind {middle next inside : Frames} {inner piece : Fragment} {pass : Nat}
    (some : frames.loops.head?.any Loop.hasNext = true)
    (ran : body.run frames = .ok (inner, middle))
    (ended : tag.endPass parent inner middle = ((piece, false), next))
    (begins : tag.Begins parent body next pass inside) :
    tag.Begins parent body frames (pass + 1) inside := by
  induction begins with
  | first again => exact .next (.first some) ran ended again
  | next _ ranLater endedLater again ih => exact .next ih ranLater endedLater again

theorem Begins.hasNext {first inside : Frames} {pass : Nat}
    (begins : tag.Begins parent body first pass inside) :
    inside.loops.head?.any Loop.hasNext = true := by
  cases begins with
  | first some => exact some
  | next _ _ _ some => exact some

/-- Passes that fail do so in the body of one of them. -/
theorem exists_begins_of_passes {count : Nat}
    (fails : (tag.passes parent body count).run frames = .error e) :
    ∃ pass inside, tag.Begins parent body frames pass inside ∧ body.run inside = .error e := by
  induction count generalizing frames with
  | zero => cases fails
  | succ count ih =>
    obtain ⟨some, here | ⟨inner, middle, piece, next, ran, ended, later⟩⟩ :=
      passes_succ_eq_error.mp fails
    · exact ⟨0, frames, .first some, here⟩
    · obtain ⟨pass, inside, begins, failsInside⟩ := ih later
      exact ⟨pass + 1, inside, .behind some ran ended begins, failsInside⟩

/-- If the passes from one on fail, all of them do. -/
theorem Begins.passes_eq_error {first inside : Frames} {pass : Nat}
    (begins : tag.Begins parent body first pass inside) {count : Nat}
    (fails : (tag.passes parent body count).run inside = .error e) :
    (tag.passes parent body (count + pass)).run first = .error e := by
  induction begins generalizing count with
  | first => exact fails
  | @next pass frames middle next inner piece before ran ended some ih =>
    have here : (tag.passes parent body (count + 1)).run frames = .error e :=
      passes_succ_eq_error.mpr
        ⟨before.hasNext, .inr ⟨inner, middle, piece, next, ran, ended, fails⟩⟩
    have all := ih here
    rw [Nat.add_right_comm] at all
    exact all

/-- The loop of an iteration through some items fails if a pass does: there are no more passes
    than items, so their bound is not what ends them. -/
theorem Begins.fails (kept : KeepsFrames id body) {opened inside : Frames} {pass : Nat}
    {property : String} {items : List Value}
    (begins : tag.Begins parent body
      (opened.pushLoop { tag := id, size := items.length, property }) pass inside)
    (own : ∃ armed rest, opened.markers = ⟨id, armed⟩ :: rest)
    (fails : body.run inside = .error e) :
    (tag.passes parent body items.length).run
      (opened.pushLoop { tag := id, size := items.length, property }) = .error e := by
  obtain ⟨present, loops, -, same, number, -⟩ := begins.within kept rfl ⟨rfl, rfl⟩ own
  have less : present.upcoming < present.size := by
    have some := begins.hasNext
    rw [loops] at some
    exact of_decide_eq_true some
  rw [number, same.size] at less
  obtain ⟨more, bound⟩ : ∃ more, items.length = more + 1 + pass :=
    ⟨items.length - 1 - pass, by simp only [Loop.upcoming] at less; omega⟩
  have here : (tag.passes parent body (more + 1)).run inside = .error e :=
    passes_succ_eq_error.mpr ⟨begins.hasNext, .inl fails⟩
  have all := begins.passes_eq_error here
  rw [← bound] at all
  exact all

end Tag

namespace Part

variable {occasion : Occasion} {parent : Option Tag} {frames : Frames} {e : Error}

theorem renderAll_cons_eq_error {part : Part} {rest : List Part} :
    (renderAll occasion parent (part :: rest)).run frames = .error e ↔
      (part.render occasion parent).run frames = .error e ∨
        ∃ fragment after, (part.render occasion parent).run frames = .ok (fragment, after) ∧
          (renderAll occasion parent rest).run after = .error e := by
  rw [renderAll, run_bind_eq_error]
  refine or_congr_right ?_
  constructor
  · intro ⟨fragment, after, ran, fails⟩
    exact ⟨fragment, after, ran, run_bind_pure_eq_error.mp fails⟩
  · intro ⟨fragment, after, ran, fails⟩
    exact ⟨fragment, after, ran, run_bind_pure_eq_error.mpr fails⟩

end Part

namespace Stage

variable {occasion : Occasion} {e : Error}

/-- What is left at a place fails. -/
def Fails (occasion : Occasion) (stage : Stage) (e : Error) : Prop :=
  (Part.renderAll occasion stage.parent stage.parts).run stage.frames = .error e

/-- The first part of a place fails by itself, not because of a part inside it. -/
inductive Faulty (occasion : Occasion) (stage : Stage) (e : Error) : Prop
  | text {id : Nat} {content : TextPart} {rest : List Part}
      (parts : stage.parts = .text id content :: rest)
      (fails : (content.render occasion).run stage.frames = .error e)
  | condition {id : Nat} {tag : Tag} {body rest : List Part} {condition : Condition}
      (parts : stage.parts = .tag id tag body :: rest)
      (handler : tag.handler = .conditional condition)
      (fails : (occasion.decides condition tag).run
        (stage.frames.enter id (tag.marker? stage.parent)) = .error e)
  | collection {id : Nat} {tag : Tag} {body rest : List Part}
      (parts : stage.parts = .tag id tag body :: rest) (handler : tag.handler = .iterate)
      (fails : (occasion.collection tag).run
        (stage.frames.enter id (tag.marker? stage.parent)) = .error e)

theorem Faulty.fails {stage : Stage} (faulty : stage.Faulty occasion e) :
    stage.Fails occasion e := by
  unfold Fails
  cases faulty with
  | text parts fails =>
    rw [parts, Part.renderAll_cons_eq_error, Part.render]
    exact .inl fails
  | condition parts handler fails =>
    rw [parts, Part.renderAll_cons_eq_error, Part.render, Tag.around_eq_error, Tag.content,
      handler]
    exact .inl (run_bind_eq_error.mpr (.inl fails))
  | collection parts handler fails =>
    rw [parts, Part.renderAll_cons_eq_error, Part.render, Tag.around_eq_error, Tag.content,
      handler]
    exact .inl (Tag.iterateOver_eq_error.mpr (.inl fails))

/-- What fails at a later place fails already at an earlier one. -/
theorem Next.fails {stage later : Stage} (orderly : stage.Orderly)
    (goes : Next occasion stage later) (fails : later.Fails occasion e) :
    stage.Fails occasion e := by
  unfold Fails
  cases goes with
  | behind parts ran =>
    rw [parts, Part.renderAll_cons_eq_error]
    exact .inr ⟨_, _, ran, fails⟩
  | @inside id tag body rest pass frames parts opens =>
    have inside : (Part.renderAll occasion (some tag) body).run frames = .error e := fails
    obtain ⟨numbered, -⟩ := orderly.body parts
    rw [parts, Part.renderAll_cons_eq_error, Part.render, Tag.around_eq_error, Tag.content]
    refine .inl ?_
    cases opens with
    | group handler =>
      rw [handler]
      exact Tag.once_eq_error.mpr inside
    | conditional handler decided =>
      rw [handler]
      refine run_bind_eq_error.mpr (.inr ⟨true, frames, decided, ?_⟩)
      simp only [↓reduceIte]
      exact Tag.once_eq_error.mpr inside
    | @pass property items opened _ pass handler collected begins =>
      rw [handler]
      refine Tag.iterateOver_eq_error.mpr (.inr ⟨property, items, opened, collected, ?_⟩)
      have own := Tag.own_of_collection handler collected
      exact begins.fails (Part.keepsFrames_renderAll numbered) own inside

theorem Leads.fails {stage later : Stage} (orderly : stage.Orderly)
    (leads : Leads occasion stage later) (fails : later.Fails occasion e) :
    stage.Fails occasion e := by
  induction leads using Relation.ReflTransGen.head_induction_on with
  | refl => exact fails
  | head goes _ ih => exact goes.fails orderly (ih (orderly.next goes))

mutual

/-- A part that fails is faulty by itself, or its body leads to a part that is. -/
theorem exists_faulty_of_render : ∀ (part : Part) {around : List Enclosure} {rest : List Part}
    {frames : Frames},
    (part.render occasion (around.head?.map Enclosure.tag)).run frames = .error e →
    ∃ later, Leads occasion ⟨around, part :: rest, frames⟩ later ∧ later.Faulty occasion e
  | .text id content, around, rest, frames, fails => by
    rw [Part.render] at fails
    exact ⟨_, .refl, .text rfl fails⟩
  | .tag id tag body, around, rest, frames, fails => by
    have enters {pass : Option Nat} {inside : Frames}
        (opens : tag.Opens occasion (around.head?.map Enclosure.tag) id body frames pass inside)
        (failsInside : (Part.renderAll occasion (some tag) body).run inside = .error e) :
        ∃ later, Leads occasion ⟨around, .tag id tag body :: rest, frames⟩ later ∧
          later.Faulty occasion e := by
      let within : List Enclosure := ⟨id, tag, pass, Loop.settled frames.loops⟩ :: around
      have failsThere : (Part.renderAll occasion (within.head?.map Enclosure.tag) body).run inside =
          .error e := failsInside
      obtain ⟨later, leads, faulty⟩ := exists_faulty_of_renderAll body failsThere
      exact ⟨later, .head (.inside rfl opens) leads, faulty⟩
    rw [Part.render, Tag.around_eq_error, Tag.content] at fails
    cases handler : tag.handler with
    | group =>
      rw [handler] at fails
      exact enters (.group handler) (Tag.once_eq_error.mp fails)
    | conditional condition =>
      rw [handler] at fails
      rcases run_bind_eq_error.mp fails with undecided | ⟨holds, inside, decided, failsInside⟩
      · exact ⟨_, .refl, .condition rfl handler undecided⟩
      · cases holds with
        | false => cases failsInside
        | true =>
          simp only [↓reduceIte] at failsInside
          exact enters (.conditional handler decided) (Tag.once_eq_error.mp failsInside)
    | iterate =>
      rw [handler] at fails
      rcases Tag.iterateOver_eq_error.mp fails with
        notFound | ⟨property, items, opened, collected, failsInside⟩
      · exact ⟨_, .refl, .collection rfl handler notFound⟩
      · obtain ⟨pass, inside, begins, failsInside⟩ := Tag.exists_begins_of_passes failsInside
        exact enters (.pass handler collected begins) failsInside

theorem exists_faulty_of_renderAll : ∀ (parts : List Part) {around : List Enclosure}
    {frames : Frames},
    (Part.renderAll occasion (around.head?.map Enclosure.tag) parts).run frames = .error e →
    ∃ later, Leads occasion ⟨around, parts, frames⟩ later ∧ later.Faulty occasion e
  | [], _, _, fails => by
    rw [Part.renderAll] at fails
    exact absurd fails run_pure_ne_error
  | part :: rest, around, frames, fails => by
    rcases Part.renderAll_cons_eq_error.mp fails with here | ⟨fragment, after, ran, later⟩
    · exact exists_faulty_of_render part here
    · obtain ⟨stage, leads, faulty⟩ := exists_faulty_of_renderAll rest later
      exact ⟨stage, .head (.behind rfl ran) leads, faulty⟩

end

end Stage

namespace Template

/-- A rendering fails with an error just if it comes to a place where the first part is faulty
    by itself with this error. -/
theorem renderAll_eq_error_iff {draft : Draft} {building : Converters} {template : Template}
    (built : draft.build building = .ok template) {occasion : Occasion} {e : Error} :
    (Part.renderAll occasion none template.parts).run {} = .error e ↔
      ∃ stage, template.Reaches occasion stage ∧ stage.Faulty occasion e := by
  constructor
  · intro fails
    exact Stage.exists_faulty_of_renderAll template.parts fails
  · intro ⟨stage, reached, faulty⟩
    exact reached.fails (orderly_outset built) faulty.fails

end Template

end DynamicSql
