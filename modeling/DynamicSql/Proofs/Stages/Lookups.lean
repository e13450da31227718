import DynamicSql.Proofs.Stages.Course

/-!
# The indexes that a look-up sees

A look-up of a rendering puts the indexes of all loops around it into a path. It lets the
innermost loop reach the item of its pass, but only that one. A tag that looks up its own
property lets the loop around it reach its item before it goes inside; an iteration through
the parameter looks nothing up. So a look-up sees the numbers of the passes just if each
iteration through the parameter began after the loop around it had come to its item.
-/

namespace DynamicSql

open Rendering

namespace Enclosure

/-- An iteration whose loop around, if there is one, has reached the item of its pass when its
    own passes begin: it has looked up a property, or something in front of it has. -/
def Awaits (enclosure : Enclosure) : Prop :=
  enclosure.pass.isSome → enclosure.tag.property.isSome ∨ enclosure.settled

end Enclosure

namespace Stage

/-- The numbers of the passes that are rendered around a place, the innermost one first. -/
def passes (stage : Stage) : List Nat := stage.around.filterMap Enclosure.pass

/-- At a place indexes are put into a path, in the given frames: for the placeholders of text
    that waited, for the property of a tag, and for the property that a value is compared to. -/
inductive Reads (occasion : Occasion) (stage : Stage) : Frames → Prop
  | text {id : Nat} {content : TextPart} {rest : List Part}
      (parts : stage.parts = .text id content :: rest) (waits : content.ready = none)
      (some : Text.hasContent content.source = true) :
      Reads occasion stage stage.frames.advance
  | property {id : Nat} {tag : Tag} {body rest : List Part} {name : String}
      (parts : stage.parts = .tag id tag body :: rest) (asks : tag.handler ≠ .group)
      (named : tag.property = some name) :
      Reads occasion stage (stage.frames.enter id (tag.marker? stage.parent)).advance
  | operand {id : Nat} {tag : Tag} {body rest : List Part} {condition : Condition}
      {name : String} {found : String × Option Value} {middle : Frames}
      (parts : stage.parts = .tag id tag body :: rest)
      (handler : tag.handler = .conditional condition)
      (compares : condition.isComparison = true) (named : tag.compareProperty = some name)
      (subject : (occasion.subject tag).run (stage.frames.enter id (tag.marker? stage.parent)) =
        .ok (found, middle)) :
      Reads occasion stage middle.advance

end Stage

/-- The loops at a place belong to the iterations around it. A loop that has not reached the
    item of its pass has reached as many as passes came before, and otherwise one more. -/
inductive Tracks : List Loop → List Enclosure → Prop
  | outside : Tracks [] []
  | once {loops : List Loop} {around : List Enclosure} {enclosure : Enclosure}
      (single : enclosure.pass = none) (tracks : Tracks loops around) :
      Tracks loops (enclosure :: around)
  | pass {loop : Loop} {outer : List Loop} {around : List Enclosure} {enclosure : Enclosure}
      {number : Nat} (passed : enclosure.pass = some number)
      (upcoming : loop.upcoming = if loop.stepped then number + 1 else number)
      (settled : Loop.settled outer = (enclosure.tag.property.isSome || enclosure.settled))
      (tracks : Tracks outer around) : Tracks (loop :: outer) (enclosure :: around)

theorem Loop.upcoming_advance (loop : Loop) :
    loop.advance.upcoming = if loop.stepped then loop.upcoming else loop.upcoming + 1 := by
  unfold advance
  split <;> rfl

theorem Loop.stepped_advance (loop : Loop) : loop.advance.stepped = true := by
  unfold advance
  split
  · assumption
  · rfl

/-- As many items were reached as the last one tells. -/
theorem Loop.index_of_upcoming {loop : Loop} {number : Nat} (reached : loop.upcoming = number + 1) :
    loop.index = some number := by
  unfold upcoming at reached
  split at reached
  · cases reached
  · next index => rw [index, Nat.succ.inj reached]

theorem Loop.index_ne_of_upcoming {loop : Loop} {number : Nat} (waits : loop.upcoming = number) :
    loop.index ≠ some number := by
  intro reached
  rw [upcoming, reached] at waits
  exact absurd waits (Nat.succ_ne_self number)

namespace Tracks

/-- The innermost loop may reach its item. -/
theorem kept {before after : List Loop} {around : List Enclosure} (tracks : Tracks before around)
    (kept : LoopsKept before after) : Tracks after around := by
  induction tracks generalizing after with
  | outside =>
    cases kept
    exact .outside
  | once single _ ih => exact .once single (ih kept)
  | @pass loop _ _ _ number passed upcoming settled tracks =>
    cases kept with
    | same => exact .pass passed upcoming settled tracks
    | advanced =>
      refine .pass passed ?_ settled tracks
      rw [loop.upcoming_advance, loop.stepped_advance, upcoming]
      cases loop.stepped <;> rfl

/-- A loop that waits for its item is behind the number of its pass. -/
theorem indexes_ne {loops : List Loop} {around : List Enclosure} (tracks : Tracks loops around)
    (waits : Loop.settled loops = false) :
    loops.map Loop.index ≠ (around.filterMap Enclosure.pass).map some := by
  induction tracks with
  | outside => cases waits
  | once single _ ih =>
    rw [List.filterMap_cons_none single]
    exact ih waits
  | @pass loop outer around enclosure number passed upcoming _ _ =>
    have stepped : loop.stepped = false := waits
    rw [stepped, if_neg Bool.false_ne_true] at upcoming
    rw [List.filterMap_cons_some passed, List.map_cons, List.map_cons]
    intro same
    exact Loop.index_ne_of_upcoming upcoming (List.cons.inj same).1

/-- If the innermost loop has reached its item, the indexes are the numbers of the passes just
    if no iteration began before the loop around it had reached its own. -/
theorem indexes_iff {loops : List Loop} {around : List Enclosure} (tracks : Tracks loops around)
    (reached : Loop.settled loops = true) :
    loops.map Loop.index = (around.filterMap Enclosure.pass).map some ↔
      ∀ enclosure ∈ around, enclosure.Awaits := by
  induction tracks with
  | outside => simp
  | @once _ around enclosure single _ ih =>
    have awaits : enclosure.Awaits := by
      intro iteration
      rw [single] at iteration
      cases iteration
    rw [List.filterMap_cons_none single, List.forall_mem_cons, ih reached, and_iff_right awaits]
  | @pass loop outer around enclosure number passed upcoming settled tracks ih =>
    have stepped : loop.stepped = true := reached
    rw [stepped, if_pos rfl] at upcoming
    have awaits : enclosure.Awaits ↔ Loop.settled outer = true := by
      rw [Enclosure.Awaits, passed, settled, Bool.or_eq_true]
      exact ⟨fun awaits => awaits rfl, fun either _ => either⟩
    rw [List.filterMap_cons_some passed, List.forall_mem_cons, awaits, List.map_cons,
      List.map_cons, Loop.index_of_upcoming upcoming, List.cons.injEq, eq_self, true_and]
    cases around : Loop.settled outer with
    | true => rw [ih around, and_iff_right rfl]
    | false =>
      refine iff_of_false (tracks.indexes_ne around) ?_
      intro ⟨impossible, _⟩
      cases impossible

end Tracks

namespace Stage

/-- The loops of a place belong to the iterations around it. -/
def Tracked (stage : Stage) : Prop := Tracks stage.frames.loops stage.around

/-- Wherever a rendering goes on to, the loops belong to the iterations around. -/
theorem Tracked.next {occasion : Occasion} {stage later : Stage} (orderly : stage.Orderly)
    (tracked : stage.Tracked) (goes : Next occasion stage later) : later.Tracked := by
  cases goes with
  | behind parts ran => exact tracked.kept (orderly.kept parts ran).loops
  | @inside id tag body rest pass frames parts opens =>
    cases pass with
    | none => exact .once rfl (tracked.kept opens.once.2)
    | some number =>
      obtain ⟨loop, outer, loops, pending, upcoming, kept, settled, -⟩ :=
        opens.in_pass (orderly.body parts).1
      unfold Tracked
      dsimp only
      rw [loops]
      refine .pass rfl ?_ settled (tracked.kept kept)
      rw [pending.stepped]
      exact upcoming

/-- A look-up sees the loops of its place, and the innermost one has reached its item. -/
theorem Reads.loops {occasion : Occasion} {stage : Stage} {seen : Frames}
    (reads : stage.Reads occasion seen) :
    LoopsKept stage.frames.loops seen.loops ∧ Loop.settled seen.loops = true := by
  cases reads with
  | text => exact ⟨stage.frames.kept_advance.loops, stage.frames.settled_advance⟩
  | @property id tag =>
    have kept := (stage.frames.enter id (tag.marker? stage.parent)).kept_advance.loops
    rw [Frames.loops_enter] at kept
    exact ⟨kept, Frames.settled_advance _⟩
  | @operand _ _ _ _ _ _ _ middle _ _ _ _ subject =>
    have looked := (Occasion.subject_kept subject).2
    rw [Frames.loops_enter] at looked
    exact ⟨looked.trans middle.kept_advance.loops, middle.settled_advance⟩

end Stage

namespace Template

/-- Whatever a built template is rendered for, and wherever the rendering comes to: a look-up
    there sees the number of the pass of each iteration around just if none of them is one
    through the parameter that began while the loop around it still waited for its item. -/
theorem indexes_of_reads {draft : Draft} {building : Converters} {template : Template}
    (built : draft.build building = .ok template) {occasion : Occasion} {stage : Stage}
    (reached : template.Reaches occasion stage) {seen : Frames}
    (reads : stage.Reads occasion seen) :
    seen.loops.map Loop.index = stage.passes.map some ↔
      ∀ enclosure ∈ stage.around, enclosure.Awaits := by
  have outset : template.outset.Tracked := .outside
  have tracked : stage.Tracked :=
    holds_of_reaches built outset (fun _ _ orderly tracked goes => tracked.next orderly goes)
      reached
  obtain ⟨kept, settled⟩ := reads.loops
  exact (tracked.kept kept).indexes_iff settled

/-- An array of one array of two texts. -/
def ofPair : Occasion :=
  { cls := .unknown, converters := ({} : Registry),
    param := .array [.array [.string "x", .string "y"]] }

/-- In the second pass of an iteration, behind text with its item, an iteration through the
    parameter sees that pass. -/
theorem indexes_of_reads_behind_text :
    ∃ (template : Template) (stage : Stage) (seen : Frames),
      Draft.build { id := "q", nodes := [.tag (Tag.iterate "[0]")
        [.text "#[0][]#", .tag { handler := .iterate } [.text "#[0][]#"]]] } ({} : Registry) =
          .ok template ∧
      template.Reaches ofPair stage ∧ stage.Reads ofPair seen ∧ stage.passes = [0, 1] ∧
      seen.loops.map Loop.index = [some 0, some 1] := by
  let outer : Tag := Tag.iterate "[0]"
  let inner : Tag := { handler := .iterate }
  let item : TextPart := ⟨"#[0][]#", true, none⟩
  let body : List Part := [.text 1 item, .tag 2 inner [.text 3 item]]
  let template : Template := ⟨"q", .unknown, [.tag 0 outer body]⟩
  have built : Draft.build { id := "q", nodes := [.tag outer
      [.text "#[0][]#", .tag inner [.text "#[0][]#"]]] } ({} : Registry) = .ok template := rfl
  -- The loop through the pair as it is opened, behind the first pass, and at its second item.
  let begun : Loop := { tag := 0, size := 2, property := "[0]" }
  let again : Loop := { begun with index := some 0, produced := true }
  let reached : Loop := { again with index := some 1, stepped := true, exhausted := true }
  let binding (property : String) : Binding :=
    { property, converter := ⟨"unknown", .unknown, none⟩ }
  have collected : (ofPair.collection outer).run ⟨[⟨0, false⟩], []⟩ =
      .ok (("[0]", [.string "x", .string "y"]), ⟨[⟨0, false⟩], []⟩) := rfl
  have first : (Part.renderAll ofPair (some outer) body).run ⟨[⟨0, false⟩], [begun]⟩ =
      .ok (⟨"??", [binding "[0][0]", binding "[0][0]"]⟩,
        ⟨[⟨0, false⟩], [{ begun with index := some 0, stepped := true }]⟩) := by
    apply eq_ok_of_toOption
    decide +kernel
  have ended : outer.endPass none ⟨"??", [binding "[0][0]", binding "[0][0]"]⟩
      ⟨[⟨0, false⟩], [{ begun with index := some 0, stepped := true }]⟩ =
        ((⟨"??", [binding "[0][0]", binding "[0][0]"]⟩, false), ⟨[⟨0, false⟩], [again]⟩) := by
    decide +kernel
  have second : outer.Begins none (Part.renderAll ofPair (some outer) body) ⟨[⟨0, false⟩], [begun]⟩
      1 ⟨[⟨0, false⟩], [again]⟩ := .next (.first rfl) first ended rfl
  have text : ((Part.text 1 item).render ofPair (some outer)).run ⟨[⟨0, false⟩], [again]⟩ =
      .ok (⟨"?", [binding "[0][1]"]⟩, ⟨[⟨0, false⟩], [reached]⟩) := by
    apply eq_ok_of_toOption
    decide +kernel
  have whole : (ofPair.collection inner).run ⟨[⟨2, false⟩, ⟨0, false⟩], [reached]⟩ =
      .ok (("", [.array [.string "x", .string "y"]]),
        ⟨[⟨2, false⟩, ⟨0, false⟩], [reached]⟩) := rfl
  let stage : Stage :=
    ⟨[⟨2, inner, some 0, true⟩, ⟨0, outer, some 1, true⟩], [.text 3 item],
      ⟨[⟨2, false⟩, ⟨0, false⟩], [{ tag := 2, size := 1, property := "" }, reached]⟩⟩
  have reaches : template.Reaches ofPair stage :=
    .tail (.tail (.tail .refl (.inside rfl (.pass rfl collected second))) (.behind rfl text))
      (.inside rfl (.pass rfl whole (.first rfl)))
  have content : Text.hasContent item.source = true := by decide +kernel
  have reads : stage.Reads ofPair stage.frames.advance := .text rfl rfl content
  refine ⟨template, stage, _, built, reaches, reads, rfl, ?_⟩
  refine (indexes_of_reads built reaches reads).mpr ?_
  intro enclosure member _
  -- Both iterations were entered with the loop around them, if any, at its item.
  have settled : enclosure.settled = true := by
    rcases List.mem_pair.mp member with rfl | rfl <;> rfl
  exact .inr settled

/-- In the first pass of an iteration an iteration through the parameter sees no pass of it. -/
theorem reads_stale_index :
    ∃ (template : Template) (stage : Stage) (seen : Frames),
      Draft.build { id := "q", nodes := [.tag (Tag.iterate "[0]")
        [.tag { handler := .iterate } [.text "#[0][]#"]]] } ({} : Registry) = .ok template ∧
      template.Reaches ofPair stage ∧ stage.Reads ofPair seen ∧ stage.passes = [0, 0] ∧
      seen.loops.map Loop.index = [some 0, none] := by
  let outer : Tag := Tag.iterate "[0]"
  let inner : Tag := { handler := .iterate }
  let item : TextPart := ⟨"#[0][]#", true, none⟩
  let template : Template := ⟨"q", .unknown, [.tag 0 outer [.tag 1 inner [.text 2 item]]]⟩
  let begun : Loop := { tag := 0, size := 2, property := "[0]" }
  have pair : (ofPair.collection outer).run ⟨[⟨0, false⟩], []⟩ =
      .ok (("[0]", [.string "x", .string "y"]), ⟨[⟨0, false⟩], []⟩) := rfl
  have whole : (ofPair.collection inner).run ⟨[⟨1, false⟩, ⟨0, false⟩], [begun]⟩ =
      .ok (("", [.array [.string "x", .string "y"]]),
        ⟨[⟨1, false⟩, ⟨0, false⟩], [begun]⟩) := rfl
  have reaches : template.Reaches ofPair _ :=
    .tail (.tail .refl (.inside rfl (.pass rfl pair (.first rfl))))
      (.inside rfl (.pass rfl whole (.first rfl)))
  have content : Text.hasContent item.source = true := by decide +kernel
  exact ⟨template, _, _, rfl, reaches, .text rfl rfl content, rfl, rfl⟩

end Template

end DynamicSql
