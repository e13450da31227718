import DynamicSql.Proofs.Iteration.Splicing
import DynamicSql.Proofs.Nesting.Rendering
import Mathlib.Logic.Relation

/-!
# The course of a rendering

A rendering comes from place to place: behind a part once it is rendered, and into the
body of a tag, which is once for each pass if the tag is an iteration. A stage tells the
place: the tags around it, the parts that are left there, and the frames. What a step
preserves holds wherever a rendering comes to, also if it fails later.
-/

namespace DynamicSql

open Rendering

namespace Loop

/-- The innermost of some loops, if there is one, has reached the item of its pass. -/
def settled (loops : List Loop) : Bool := loops.head?.all Loop.stepped

end Loop

/-- A tag around a place. -/
structure Enclosure where
  id : Nat
  tag : Tag
  /-- The number of the pass that is rendered, if the tag is an iteration. -/
  pass : Option Nat
  /-- When the tag was entered, the loop around it had reached the item of its pass. -/
  settled : Bool

/-- A place of a rendering. The innermost tag around it comes first. -/
structure Stage where
  around : List Enclosure
  parts : List Part
  frames : Frames

namespace Tag

/-- The passes of the innermost loop begin one behind the other, from the given frames on. -/
inductive Begins (tag : Tag) (parent : Option Tag) (body : Rendering Fragment) (first : Frames) :
    Nat → Frames → Prop
  | first (some : first.loops.head?.any Loop.hasNext = true) : Begins tag parent body first 0 first
  | next {pass : Nat} {frames middle next : Frames} {inner piece : Fragment}
      (before : Begins tag parent body first pass frames)
      (ran : body.run frames = .ok (inner, middle))
      (ended : tag.endPass parent inner middle = ((piece, false), next))
      (some : next.loops.head?.any Loop.hasNext = true) :
      Begins tag parent body first (pass + 1) next

/-- A tag that is entered comes to its body, perhaps in a pass. -/
inductive Opens (tag : Tag) (occasion : Occasion) (parent : Option Tag) (id : Nat)
    (body : List Part) (frames : Frames) : Option Nat → Frames → Prop
  | group (handler : tag.handler = .group) :
      Opens tag occasion parent id body frames none (frames.enter id (tag.marker? parent))
  | conditional {condition : Condition} {inside : Frames}
      (handler : tag.handler = .conditional condition)
      (decided : (occasion.decides condition tag).run (frames.enter id (tag.marker? parent)) =
        .ok (true, inside)) :
      Opens tag occasion parent id body frames none inside
  | pass {property : String} {items : List Value} {opened inside : Frames} {pass : Nat}
      (handler : tag.handler = .iterate)
      (collected : (occasion.collection tag).run (frames.enter id (tag.marker? parent)) =
        .ok ((property, items), opened))
      (begins : tag.Begins parent (Part.renderAll occasion (some tag) body)
        (opened.pushLoop { tag := id, size := items.length, property }) pass inside) :
      Opens tag occasion parent id body frames (some pass) inside

end Tag

namespace Stage

/-- The tag that a place stands directly in. -/
def parent (stage : Stage) : Option Tag := stage.around.head?.map Enclosure.tag

/-- A rendering goes on from one place to another one. -/
inductive Next (occasion : Occasion) : Stage → Stage → Prop
  | behind {stage : Stage} {part : Part} {rest : List Part} {fragment : Fragment} {after : Frames}
      (parts : stage.parts = part :: rest)
      (ran : (part.render occasion stage.parent).run stage.frames = .ok (fragment, after)) :
      Next occasion stage { stage with parts := rest, frames := after }
  | inside {stage : Stage} {id : Nat} {tag : Tag} {body rest : List Part} {pass : Option Nat}
      {frames : Frames} (parts : stage.parts = .tag id tag body :: rest)
      (opens : tag.Opens occasion stage.parent id body stage.frames pass frames) :
      Next occasion stage
        { around := ⟨id, tag, pass, Loop.settled stage.frames.loops⟩ :: stage.around
          parts := body, frames }

/-- A rendering that is at one place comes to another one. -/
def Leads (occasion : Occasion) : Stage → Stage → Prop := Relation.ReflTransGen (Next occasion)

/-- The tags at a place are numbered, and the marker there belongs to a tag around it. -/
def Orderly (stage : Stage) : Prop :=
  ∃ least, Part.NumberedAll least stage.parts ∧ stage.frames.Below least

end Stage

namespace Template

/-- Where a rendering begins. -/
def outset (template : Template) : Stage := ⟨[], template.parts, {}⟩

/-- A rendering of the template comes to a place. -/
def Reaches (template : Template) (occasion : Occasion) (stage : Stage) : Prop :=
  Stage.Leads occasion template.outset stage

end Template

/-- A loop that is asked for its item has reached it. -/
theorem Frames.settled_advance (frames : Frames) : Loop.settled frames.advance.loops = true := by
  obtain ⟨markers, loops⟩ := frames
  cases loops with
  | nil => rfl
  | cons loop outer =>
    show loop.advance.stepped = true
    unfold Loop.advance
    split
    · assumption
    · rfl

namespace Occasion

/-- A property that is looked up lets the loop around it reach its item. -/
theorem settled_of_subject {occasion : Occasion} {tag : Tag} {found : String × Option Value}
    {frames after : Frames}
    (ran : (occasion.subject tag).run frames = .ok (found, after)) :
    Loop.settled after.loops = (tag.property.isSome || Loop.settled frames.loops) := by
  rcases subject_eq_ok.mp ran with ⟨property, named, looked⟩ | ⟨unnamed, -, -, same⟩
  · rw [(look_eq_ok.mp looked).1, named]
    exact frames.settled_advance
  · rw [same, unnamed]
    rfl

end Occasion

namespace Tag

variable {tag : Tag} {occasion : Occasion} {parent : Option Tag} {id : Nat} {body : List Part}
  {frames inside : Frames}

/-- When its array is found the innermost marker is that of the iteration. -/
theorem own_of_collection (iterate : tag.handler = .iterate) {found : String × List Value}
    {opened : Frames}
    (collected : (occasion.collection tag).run (frames.enter id (tag.marker? parent)) =
      .ok (found, opened)) :
    ∃ armed rest, opened.markers = ⟨id, armed⟩ :: rest := by
  have markers := (Occasion.subject_kept (Occasion.collection_eq_ok.mp collected)).1
  obtain ⟨armed, entered⟩ := exists_marker?_of_iterate iterate parent
  rw [entered] at markers
  exact ⟨armed, frames.markers, markers⟩

/-- Where a pass begins, as many items were reached as passes came before, and the marker of
    the tag is the innermost one. -/
theorem Begins.within {rendering : Rendering Fragment} (bodyKept : KeepsFrames id rendering)
    {first : Frames} {pass : Nat} (begins : tag.Begins parent rendering first pass inside)
    {loop : Loop} {outer : List Loop} (loops : first.loops = loop :: outer)
    (pending : loop.Pending) (own : ∃ armed rest, first.markers = ⟨id, armed⟩ :: rest) :
    ∃ present, inside.loops = present :: outer ∧ present.Pending ∧ loop.SameArray present ∧
      present.upcoming = loop.upcoming + pass ∧
      ∃ armed rest, inside.markers = ⟨id, armed⟩ :: rest := by
  induction begins with
  | first => exact ⟨loop, loops, pending, .refl loop, rfl, own⟩
  | next _ ran ended _ ih =>
    obtain ⟨present, presentLoops, presentPending, same, number, armed, rest, markers⟩ := ih
    obtain ⟨passEnd, does, isLast, passed⟩ :=
      pass_ended bodyKept presentLoops presentPending markers ran ended
    obtain ⟨armed', rest', nextMarkers, -⟩ := passed.markers
    refine ⟨passEnd.loop, passed.loops, ⟨does.stepped, isLast.symm⟩, same.trans does.array, ?_,
      armed', rest', nextMarkers⟩
    rw [does.upcoming, number, Nat.add_assoc]

/-- The body of a tag that is no iteration is rendered in the frames in which the tag was
    entered, but that the loop around it may have reached its item. -/
theorem Opens.once (opens : tag.Opens occasion parent id body frames none inside) :
    inside.markers = (frames.enter id (tag.marker? parent)).markers ∧
      LoopsKept frames.loops inside.loops := by
  have loops := frames.loops_enter id (tag.marker? parent)
  cases opens with
  | group => exact ⟨rfl, by rw [loops]; exact .same _⟩
  | conditional _ decided =>
    obtain ⟨markers, kept⟩ := Occasion.decides_kept decided
    rw [loops] at kept
    exact ⟨markers, kept⟩

/-- In a pass the loop of the iteration is the innermost one, and as many of its items were
    reached as passes came before. The loop around it may have reached its own item when the
    array was looked up. -/
theorem Opens.in_pass (numbered : Part.NumberedAll (id + 1) body) {pass : Nat}
    (opens : tag.Opens occasion parent id body frames (some pass) inside) :
    ∃ loop outer, inside.loops = loop :: outer ∧ loop.Pending ∧ loop.upcoming = pass ∧
      LoopsKept frames.loops outer ∧
      Loop.settled outer = (tag.property.isSome || Loop.settled frames.loops) ∧
      ∃ armed rest, inside.markers = ⟨id, armed⟩ :: rest := by
  cases opens with
  | @pass property items opened _ _ handler collected begins =>
    have subject := Occasion.collection_eq_ok.mp collected
    have kept := (Occasion.subject_kept subject).2
    have settled := Occasion.settled_of_subject subject
    rw [frames.loops_enter] at kept settled
    have own := own_of_collection handler collected
    obtain ⟨present, loops, pending, -, number, inner⟩ :=
      begins.within (Part.keepsFrames_renderAll numbered) rfl ⟨rfl, rfl⟩ own
    exact ⟨present, opened.loops, loops, pending, number.trans (Nat.zero_add pass), kept, settled,
      inner⟩

/-- Inside a tag the innermost marker belongs to the tag or to one around it. -/
theorem Opens.below (numbered : Part.NumberedAll (id + 1) body) (below : frames.Below id)
    {pass : Option Nat} (opens : tag.Opens occasion parent id body frames pass inside) :
    inside.Below (id + 1) := by
  cases pass with
  | none =>
    have markers := opens.once.1
    cases entered : tag.marker? parent with
    | none =>
      rw [entered] at markers
      have same : inside.Below id := by
        rw [Frames.Below, markers]
        exact below
      exact same.mono (Nat.le_succ id)
    | some armed =>
      rw [entered] at markers
      exact Frames.below_of_own ⟨armed, frames.markers, markers⟩
  | some pass =>
    obtain ⟨_, _, -, -, -, -, -, own⟩ := opens.in_pass numbered
    exact Frames.below_of_own own

end Tag

namespace Stage

namespace Orderly

variable {occasion : Occasion} {stage later : Stage} {rest : List Part}

/-- Behind a part the frames are as in front of it, but for what a part may change. -/
theorem kept (orderly : stage.Orderly) {part : Part} (parts : stage.parts = part :: rest)
    {fragment : Fragment} {after : Frames}
    (ran : (part.render occasion stage.parent).run stage.frames = .ok (fragment, after)) :
    stage.frames.Kept after := by
  obtain ⟨least, numbered, below⟩ := orderly
  rw [parts] at numbered
  exact Part.render_kept numbered.1 below ran

/-- The body of a tag is numbered after the tag, and the marker in front of the tag belongs to
    one with a smaller number. -/
theorem body (orderly : stage.Orderly) {id : Nat} {tag : Tag} {body : List Part}
    (parts : stage.parts = .tag id tag body :: rest) :
    Part.NumberedAll (id + 1) body ∧ stage.frames.Below id := by
  obtain ⟨least, numbered, below⟩ := orderly
  rw [parts] at numbered
  exact ⟨numbered.1.2, below.mono numbered.1.1⟩

theorem next (orderly : stage.Orderly) (goes : Next occasion stage later) : later.Orderly := by
  cases goes with
  | behind parts ran =>
    have kept := orderly.kept parts ran
    obtain ⟨least, numbered, below⟩ := orderly
    rw [parts] at numbered
    exact ⟨least, numbered.2, kept.below below⟩
  | inside parts opens =>
    obtain ⟨numbered, below⟩ := orderly.body parts
    exact ⟨_, numbered, opens.below numbered below⟩

end Orderly

end Stage

namespace Template

variable {draft : Draft} {building : Converters} {template : Template} {occasion : Occasion}

theorem orderly_outset (built : draft.build building = .ok template) :
    template.outset.Orderly := by
  obtain ⟨parts, builtParts, last⟩ := bind_eq_ok_iff.mp built
  cases last
  exact ⟨0, Node.numberedAll_of_buildAll _ builtParts, by simp [outset, Frames.Below]⟩

theorem orderly_of_reaches (built : draft.build building = .ok template) {stage : Stage}
    (reached : template.Reaches occasion stage) : stage.Orderly := by
  induction reached with
  | refl => exact orderly_outset built
  | tail _ goes ih => exact ih.next goes

/-- What holds at the beginning and is preserved from place to place holds at every place that
    a rendering of a built template comes to. -/
theorem holds_of_reaches (built : draft.build building = .ok template) {holds : Stage → Prop}
    (outset : holds template.outset)
    (step : ∀ stage later, stage.Orderly → holds stage → Stage.Next occasion stage later →
      holds later)
    {stage : Stage} (reached : template.Reaches occasion stage) : holds stage := by
  induction reached with
  | refl => exact outset
  | tail before goes ih => exact step _ _ (orderly_of_reaches built before) ih goes

end Template

end DynamicSql
