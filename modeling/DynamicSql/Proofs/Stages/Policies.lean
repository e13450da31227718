import DynamicSql.Proofs.Correspondence.Frames
import DynamicSql.Proofs.Stages.Course

/-!
# What a policy decides

A tag can say whether the text in front of the first tag inside it is left out. Its policy
decides the marker with which it is entered, and under a policy that leaves nothing out the
tags directly inside keep their texts in front. There is one tag whose policy is overlooked
when it says that nothing is left out: a condition without a text in front that stands inside
another tag. It is entered without a marker, or with the armed one of the tag around it.
-/

namespace DynamicSql

open Rendering

namespace Tag

/-- A condition inside another tag, without a text in front, that leaves nothing out. -/
structure Overlooked (tag : Tag) (parent : Option Tag) : Prop where
  policy : tag.removeFirst = some .off
  conditional : tag.handler.isGroup = false
  noLead : tag.prepend = none
  nested : parent.isSome

/-- The marker of a tag with a policy. -/
theorem marker?_of_policy {tag : Tag} {parent : Option Tag} {policy : RemoveFirst}
    (given : tag.removeFirst = some policy) (regarded : ¬ tag.Overlooked parent) :
    tag.marker? parent = some policy.isArmed := by
  unfold marker?
  rw [given, Option.any_some, Option.isNone_some, Bool.false_and]
  cases armed : policy.isArmed with
  | true => rfl
  | false =>
    have off : policy = .off := by
      cases policy <;> first | rfl | cases armed
    rw [off] at given
    cases group : tag.handler.isGroup with
    | true => rfl
    | false =>
      have marked : (tag.prepend.isNone && parent.isSome) = false := by
        by_contra unmarked
        rw [Bool.not_eq_false, Bool.and_eq_true, Option.isNone_iff_eq_none] at unmarked
        exact regarded ⟨given, group, unmarked.1, unmarked.2⟩
      simp [marked]

/-- A tag that is overlooked has an armed marker or none. -/
theorem Overlooked.marker? {tag : Tag} {parent : Option Tag} (overlooked : tag.Overlooked parent) :
    tag.marker? parent ≠ some false := by
  obtain ⟨policy, conditional, noLead, nested⟩ := overlooked
  simp only [Tag.marker?, policy, conditional, noLead, nested, RemoveFirst.isArmed,
    Option.any_some, Option.isNone_none, Bool.and_self, Bool.false_eq_true, ↓reduceIte]
  split <;> simp

/-- A tag is entered with a marker of its own that is armed as its policy says, unless it is
    overlooked. -/
theorem head_enter_iff {tag : Tag} {parent : Option Tag} {policy : RemoveFirst}
    (given : tag.removeFirst = some policy) {id : Nat} {frames : Frames} (below : frames.Below id) :
    (frames.enter id (tag.marker? parent)).markers.head? = some ⟨id, policy.isArmed⟩ ↔
      ¬ tag.Overlooked parent := by
  constructor
  · intro own overlooked
    have off : policy = .off := Option.some.inj (given.symm.trans overlooked.policy)
    subst off
    cases entered : tag.marker? parent with
    | none =>
      rw [entered] at own
      exact absurd (below _ own) (Nat.lt_irrefl id)
    | some armed =>
      rw [entered] at own
      have disarmed : armed = false := congrArg Marker.armed (Option.some.inj own)
      rw [disarmed] at entered
      exact overlooked.marker? entered
  · intro regarded
    rw [marker?_of_policy given regarded]
    rfl

end Tag

namespace Rendering

variable {α β : Type}

/-- Two renderings that begin alike are the same if they go on alike. -/
theorem run_bind_congr {x : Rendering α} {f g : α → Rendering β} {frames : Frames}
    (same : ∀ a middle, x.run frames = .ok (a, middle) → (f a).run middle = (g a).run middle) :
    (x >>= f).run frames = (x >>= g).run frames := by
  rw [StateT.run_bind, StateT.run_bind]
  cases ran : x.run frames with
  | error e => rfl
  | ok outcome => exact same outcome.1 outcome.2 ran

/-- What follows two renderings that are the same here. -/
theorem run_bind_congr_left {x y : Rendering α} {f : α → Rendering β} {frames : Frames}
    (same : x.run frames = y.run frames) : (x >>= f).run frames = (y >>= f).run frames := by
  rw [StateT.run_bind, StateT.run_bind, same]

theorem run_modify_bind_congr {f : Frames → Frames} {x y : PUnit → Rendering β}
    {frames : Frames} (same : (x ⟨⟩).run (f frames) = (y ⟨⟩).run (f frames)) :
    (modify f >>= x : Rendering β).run frames = (modify f >>= y : Rendering β).run frames := same

/-- Two changes of the frames that do the same here. -/
theorem run_modifyGet_bind_congr {f g : Frames → α × Frames} {next : α → Rendering β}
    {frames : Frames} (same : f frames = g frames) :
    (modifyGet f >>= next : Rendering β).run frames =
      (modifyGet g >>= next : Rendering β).run frames := by
  show (next (f frames).1).run (f frames).2 = (next (g frames).1).run (g frames).2
  rw [same]

end Rendering

/-- Where the marker around the innermost one is not armed, nothing is used up. -/
theorem Frames.takeEnclosing_of_disarmed {frames : Frames} (disarmed : frames.armedAt 1 = false) :
    frames.takeEnclosing = (false, frames) := by
  obtain ⟨markers, loops⟩ := frames
  rcases markers with _ | ⟨own, _ | ⟨enclosing, rest⟩⟩
  · rfl
  · rfl
  · have off : enclosing.armed = false := disarmed
    simp [takeEnclosing, off]

@[simp]
theorem Frames.head?_takeEnclosing (frames : Frames) :
    frames.takeEnclosing.2.markers.head? = frames.markers.head? := by
  unfold takeEnclosing
  split
  · next markers =>
    split
    · rw [markers, List.head?_cons, List.head?_cons]
    · rfl
  · rfl

/-- An innermost marker that is not armed stays as it is. -/
theorem MarkersKept.head_disarmed {before after : List Marker} (kept : MarkersKept before after)
    {id : Nat} (own : before.head? = some ⟨id, false⟩) : after.head? = some ⟨id, false⟩ := by
  cases kept with
  | same => exact own
  | usedUp marker rest =>
    cases own
    rfl

namespace Tag

variable {tag : Tag} {parent : Option Tag} {id : Nat} {body : Rendering Fragment}
  {frames : Frames}

/-- Outside every tag the text in front of a body with content stays. -/
theorem prependTo_outside (tag : Tag) (text : String) (frames : Frames) :
    tag.prependTo none text frames =
      (if Text.hasContent text then tag.prepend.getD "" ++ text else text, frames) := by
  unfold prependTo
  cases tag.prepend <;> cases Text.hasContent text <;> simp

/-- Where the marker around the innermost one is not armed it stays as well. -/
theorem prependTo_of_disarmed (tag : Tag) (parent : Option Tag) (text : String)
    (disarmed : frames.armedAt 1 = false) :
    tag.prependTo parent text frames = tag.prependTo none text frames := by
  unfold prependTo
  rw [Frames.takeEnclosing_of_disarmed disarmed]
  cases tag.prepend with
  | none => rfl
  | some lead => cases parent <;> rfl

theorem endPass_of_disarmed (tag : Tag) (parent : Option Tag) (inner : Fragment)
    (disarmed : frames.armedAt 1 = false) :
    tag.endPass parent inner frames = tag.endPass none inner frames := by
  obtain ⟨markers, loops⟩ := frames
  cases loops with
  | nil => rfl
  | cons loop outer =>
    rw [endPass_cons, endPass_cons]
    have front (text : String) (ended : Loop) : tag.prependTo parent text ⟨markers, ended :: outer⟩ =
        tag.prependTo none text ⟨markers, ended :: outer⟩ :=
      prependTo_of_disarmed tag parent text disarmed
    simp only [front]

/-- The marker of the tag in front of which a text stands is not what decides on it. -/
theorem head?_prependTo (tag : Tag) (parent : Option Tag) (text : String) (frames : Frames) :
    (tag.prependTo parent text frames).2.markers.head? = frames.markers.head? := by
  unfold prependTo
  split
  · rfl
  · split
    · rfl
    · split
      · rfl
      · exact frames.head?_takeEnclosing

/-- Only a policy that starts anew with every pass arms the marker of the tag again. -/
theorem head?_endPass (once : tag.removeFirst ≠ some .everyPass) (parent : Option Tag)
    (inner : Fragment) (frames : Frames) :
    (tag.endPass parent inner frames).2.markers.head? = frames.markers.head? := by
  obtain ⟨markers, loops⟩ := frames
  cases loops with
  | nil => rfl
  | cons loop outer =>
    rw [endPass_cons]
    simp only [once, decide_false, Bool.and_false, Bool.false_eq_true, ↓reduceIte]
    split
    · exact head?_prependTo tag parent _ _
    · rfl

section Spared

variable (kept : KeepsFrames id body)

include kept

/-- A body that appears once. -/
theorem once_of_disarmed (own : ∃ armed rest, frames.markers = ⟨id, armed⟩ :: rest)
    (disarmed : frames.armedAt 1 = false) :
    (tag.once parent body).run frames = (tag.once none body).run frames := by
  unfold once
  refine run_bind_congr fun inner middle ran => ?_
  have still : middle.armedAt 1 = false :=
    Frames.armed_eq_false_of_kept (kept (Frames.below_of_own own) ran).markers disarmed
  exact run_modifyGet_bind_congr (tag.prependTo_of_disarmed parent _ still)

theorem passes_of_disarmed {loop : Loop} {outer : List Loop} (loops : frames.loops = loop :: outer)
    (own : ∃ armed rest, frames.markers = ⟨id, armed⟩ :: rest)
    (disarmed : frames.armedAt 1 = false) (count : Nat) :
    (tag.passes parent body count).run frames = (tag.passes none body count).run frames := by
  induction count generalizing frames loop with
  | zero => rfl
  | succ count ih =>
    rw [passes, passes]
    refine run_bind_congr fun found same read => ?_
    obtain ⟨rfl, rfl⟩ := run_get_eq_ok.mp read
    split
    · rfl
    · refine run_bind_congr fun inner middle ran => ?_
      have keeps := kept (Frames.below_of_own own) ran
      have still : middle.armedAt 1 = false :=
        Frames.armed_eq_false_of_kept keeps.markers disarmed
      obtain ⟨reached, middleLoops, -⟩ := keeps.loops.cons loops
      have inside := (keeps.markers.within own).has_own
      refine (run_modifyGet_bind_congr (tag.endPass_of_disarmed parent inner still)).trans ?_
      refine run_bind_congr fun piece next ended => ?_
      obtain ⟨fragment, isLast⟩ := piece
      cases isLast with
      | true => simp only [↓reduceIte]
      | false =>
        obtain ⟨markers, nextLoops⟩ := tag.endPass_kept none inner middleLoops inside
        have later := Frames.armedAt_succ_eq_false markers still
        have has := markers.has_own
        rw [run_modifyGet_eq_ok.mp ended] at nextLoops later has
        simp only [Bool.false_eq_true, ↓reduceIte]
        exact run_bind_congr_left (ih nextLoops has later)

theorem iterateOver_of_disarmed {occasion : Occasion}
    (own : ∃ armed rest, frames.markers = ⟨id, armed⟩ :: rest)
    (disarmed : frames.armedAt 1 = false) :
    (tag.iterateOver occasion parent id body).run frames =
      (tag.iterateOver occasion none id body).run frames := by
  unfold iterateOver
  refine run_bind_congr fun found opened ran => ?_
  obtain ⟨property, items⟩ := found
  have markers := (Occasion.subject_kept (Occasion.collection_eq_ok.mp ran)).1
  rw [← markers] at own
  have still : opened.armedAt 1 = false := by
    rw [Frames.armedAt, markers]
    exact disarmed
  refine run_modify_bind_congr (run_bind_congr_left ?_)
  apply passes_of_disarmed kept rfl
  · exact own
  · exact still

theorem content_of_disarmed {occasion : Occasion}
    (own : ∃ armed rest, frames.markers = ⟨id, armed⟩ :: rest)
    (disarmed : frames.armedAt 1 = false) :
    (tag.content occasion parent id body).run frames =
      (tag.content occasion none id body).run frames := by
  unfold content
  cases tag.handler with
  | group => exact once_of_disarmed kept own disarmed
  | iterate => exact iterateOver_of_disarmed kept own disarmed
  | conditional condition =>
    refine run_bind_congr fun holds middle ran => ?_
    have markers := (Occasion.decides_kept ran).1
    rw [← markers] at own
    have still : middle.armedAt 1 = false := by
      rw [Frames.armedAt, markers]
      exact disarmed
    cases holds with
    | false => rw [if_neg Bool.false_ne_true, if_neg Bool.false_ne_true]
    | true =>
      rw [if_pos rfl, if_pos rfl]
      exact once_of_disarmed kept own still

/-- A tag with a text in front renders where the innermost marker is not armed as it does
    outside every tag. -/
theorem around_of_disarmed {occasion : Occasion} (lead : tag.prepend.isSome)
    (disarmed : frames.armedAt 0 = false) :
    (tag.around occasion parent id body).run frames =
      (tag.around occasion none id body).run frames := by
  have same : tag.marker? parent = tag.marker? none := by
    obtain ⟨text, given⟩ := Option.isSome_iff_exists.mp lead
    simp [marker?, given]
  obtain ⟨armed, entered⟩ : ∃ armed, tag.marker? none = some armed := by
    refine Option.ne_none_iff_exists'.mp fun unmarked => ?_
    rw [(conditional_of_marker? unmarked).1] at lead
    cases lead
  have own : ∃ armed' rest, (frames.enter id (some armed)).markers = ⟨id, armed'⟩ :: rest :=
    ⟨armed, frames.markers, rfl⟩
  unfold around
  rw [same, entered]
  exact run_modify_bind_congr (run_bind_congr_left (content_of_disarmed kept own disarmed))

end Spared

/-- A pass under a policy that leaves nothing out begins with the marker of the tag as it was. -/
theorem Begins.head_disarmed (kept : KeepsFrames id body) (policy : tag.removeFirst = some .off)
    {first inside : Frames} {pass : Nat} (begins : tag.Begins parent body first pass inside)
    (own : first.markers.head? = some ⟨id, false⟩) :
    inside.markers.head? = some ⟨id, false⟩ := by
  induction begins with
  | first => exact own
  | @next _ frames middle next inner piece _ ran ended _ ih =>
    have below : frames.Below (id + 1) := by
      intro marker member
      rw [ih, Option.mem_some_iff] at member
      rw [← member]
      exact Nat.lt_succ_self id
    have once : tag.removeFirst ≠ some .everyPass := by simp [policy]
    have same := head?_endPass once parent inner middle
    rw [ended] at same
    rw [same]
    exact (kept below ran).markers.head_disarmed ih

end Tag

namespace Stage

/-- Directly inside a tag that leaves nothing out and is not overlooked the innermost marker is
    that of the tag, and it is not armed. -/
def Disarmed (stage : Stage) : Prop :=
  ∀ enclosure outer, stage.around = enclosure :: outer → enclosure.tag.removeFirst = some .off →
    ¬ enclosure.tag.Overlooked (outer.head?.map Enclosure.tag) →
    stage.frames.markers.head? = some ⟨enclosure.id, false⟩

/-- Parts in the tag arm no marker, and a tag that is entered has its own. -/
theorem Disarmed.next {occasion : Occasion} {stage later : Stage} (orderly : stage.Orderly)
    (disarmed : stage.Disarmed) (goes : Next occasion stage later) : later.Disarmed := by
  cases goes with
  | behind parts ran =>
    intro enclosure outer around policy regarded
    have own := disarmed enclosure outer around policy regarded
    exact (orderly.kept parts ran).markers.head_disarmed own
  | @inside id tag body rest pass frames parts opens =>
    obtain ⟨numbered, below⟩ := orderly.body parts
    intro enclosure outer around policy regarded
    cases around
    have entered : (stage.frames.enter id (tag.marker? stage.parent)).markers.head? =
        some ⟨id, false⟩ := (Tag.head_enter_iff policy below).mpr regarded
    cases opens with
    | group => exact entered
    | conditional _ decided =>
      rw [(Occasion.decides_kept decided).1]
      exact entered
    | @pass _ _ opened _ _ _ collected begins =>
      have markers := (Occasion.subject_kept (Occasion.collection_eq_ok.mp collected)).1
      rw [← markers] at entered
      exact begins.head_disarmed (Part.keepsFrames_renderAll numbered) policy entered

end Stage

namespace Template

/-- Whatever a built template is rendered for, and wherever the rendering comes to: a tag with a
    policy is entered with a marker of its own that is armed as the policy says, just if it is not
    a condition without a text in front that leaves nothing out inside another tag. And directly
    inside any other tag that leaves nothing out a tag with a text in front renders as it does
    outside every tag, where no text in front is left out (`Tag.prependTo_outside`). -/
theorem policy_decides {draft : Draft} {building : Converters} {template : Template}
    (built : draft.build building = .ok template) {occasion : Occasion} {stage : Stage}
    (reached : template.Reaches occasion stage) {id : Nat} {tag : Tag} {body rest : List Part}
    (parts : stage.parts = .tag id tag body :: rest) :
    (∀ policy, tag.removeFirst = some policy →
      ((stage.frames.enter id (tag.marker? stage.parent)).markers.head? =
        some ⟨id, policy.isArmed⟩ ↔ ¬ tag.Overlooked stage.parent)) ∧
    (∀ outside outer, stage.around = outside :: outer → outside.tag.removeFirst = some .off →
      ¬ outside.tag.Overlooked (outer.head?.map Enclosure.tag) → tag.prepend.isSome →
      ((Part.tag id tag body).render occasion stage.parent).run stage.frames =
        ((Part.tag id tag body).render occasion none).run stage.frames) := by
  obtain ⟨numbered, below⟩ := (orderly_of_reaches built reached).body parts
  have outset : template.outset.Disarmed := by
    intro enclosure outer around
    cases around
  have disarmed : stage.Disarmed :=
    holds_of_reaches built outset (fun _ _ orderly disarmed goes => disarmed.next orderly goes)
      reached
  constructor
  · intro policy given
    exact Tag.head_enter_iff given below
  · intro outside outer around policy regarded lead
    have own := disarmed outside outer around policy regarded
    have off : stage.frames.armedAt 0 = false := by
      rw [Frames.armedAt, ← List.head?_eq_getElem?, own]
      rfl
    rw [Part.render, Part.render]
    exact Tag.around_of_disarmed (Part.keepsFrames_renderAll numbered) lead off

/-- An object with one field. -/
def ofField : Occasion :=
  { cls := .unknown, converters := ({} : Registry), param := .object [("a", .bool true)] }

/-- A condition on that field. -/
def onField (prepend : Option String) (removeFirst : Option RemoveFirst) : Tag :=
  { handler := .conditional .isNotNull, property := some "a", prepend, removeFirst }

/-- A condition with a text in front is entered with a marker that is not armed, though the one
    around it is, and the text in front of the tag in it stays. -/
theorem policy_decides_between :
    let group : Tag := { handler := .group, prepend := some "where " }
    let text : TextPart := ⟨"a = 1", false, some ⟨"a = 1", []⟩⟩
    let inner : Part := .tag 2 (onField (some "and ") none) [.text 3 text]
    let frames : Frames := ⟨[⟨1, false⟩, ⟨0, true⟩], []⟩
    (Frames.enter ⟨[⟨0, true⟩], []⟩ 1
        ((onField (some "or ") (some .off)).marker? (some group))).markers.head? =
      some ⟨1, false⟩ ∧
    (inner.render ofField (some (onField (some "or ") (some .off)))).run frames =
      (inner.render ofField none).run frames := by
  intro group text inner frames
  let tag : Tag := onField (some "or ") (some .off)
  let template : Template := ⟨"q", .unknown, [.tag 0 group [.tag 1 tag [inner]]]⟩
  have built : Draft.build { id := "q", nodes := [.tag group [.tag tag
      [.tag (onField (some "and ") none) [.text "a = 1"]]]] } ({} : Registry) = .ok template := rfl
  have decided : (ofField.decides .isNotNull tag).run frames = .ok (true, frames) := by
    apply eq_ok_of_toOption
    decide +kernel
  have first : template.Reaches ofField
      ⟨[⟨0, group, none, true⟩], [.tag 1 tag [inner]], ⟨[⟨0, true⟩], []⟩⟩ :=
    .tail .refl (.inside rfl (.group rfl))
  have second : template.Reaches ofField
      ⟨[⟨1, tag, none, true⟩, ⟨0, group, none, true⟩], [inner], frames⟩ :=
    .tail first (.inside rfl (.conditional rfl decided))
  have regarded : ¬ tag.Overlooked (some group) := by
    intro overlooked
    cases overlooked.noLead
  exact ⟨((policy_decides built first rfl).1 .off rfl).mpr regarded,
    (policy_decides built second rfl).2 _ _ rfl rfl regarded rfl⟩

/-- Without a text in front of its own such a condition has no marker, and the text in front of
    the tag in it is left out. -/
theorem policy_overlooked :
    ∃ (template : Template) (stage : Stage) (body rest : List Part),
      Draft.build { id := "q", nodes := [.tag { handler := .group, prepend := some "where " }
        [.tag (onField none (some .off))
          [.tag (onField (some "and ") none) [.text "a = 1"]]]] } ({} : Registry) =
            .ok template ∧
      template.Reaches ofField stage ∧
      stage.parts = .tag 1 (onField none (some .off)) body :: rest ∧
      (stage.frames.enter 1 ((onField none (some .off)).marker? stage.parent)).markers.head? ≠
        some ⟨1, false⟩ ∧
      template.render ofField.converters ofField.param = .ok ⟨"where a = 1", []⟩ := by
  let group : Tag := { handler := .group, prepend := some "where " }
  let text : TextPart := ⟨"a = 1", false, some ⟨"a = 1", []⟩⟩
  let body : List Part := [.tag 2 (onField (some "and ") none) [.text 3 text]]
  let template : Template :=
    ⟨"q", .unknown, [.tag 0 group [.tag 1 (onField none (some .off)) body]]⟩
  have reaches : template.Reaches ofField
      ⟨[⟨0, group, none, true⟩], [.tag 1 (onField none (some .off)) body], ⟨[⟨0, true⟩], []⟩⟩ :=
    .tail .refl (.inside rfl (.group rfl))
  refine ⟨template, _, body, [], rfl, reaches, rfl, by decide, ?_⟩
  apply eq_ok_of_toOption
  decide +kernel

end Template

end DynamicSql
