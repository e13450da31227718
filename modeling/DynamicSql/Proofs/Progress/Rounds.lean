import DynamicSql.Proofs.Iteration.Splicing
import DynamicSql.Proofs.Progress.Agreement

/-!
# Rounds agree with passes

The rounds of a tag in one state go along with what the tag makes of its body in the
frames: those of an iteration with the passes, and the one round of another tag with its
body that appears once. The loop of an iteration is the innermost one at both ends of each
round, so the numbers of the tags tell whose marker and whose loop are left at the end.
-/

namespace DynamicSql

open Rendering Recording

namespace Frames

theorem tags_takeEnclosing (frames : Frames) :
    frames.takeEnclosing.2.markers.map Marker.tag = frames.markers.map Marker.tag := by
  unfold takeEnclosing
  split
  · next own enclosing rest same =>
    split
    · rw [same]
      rfl
    · rfl
  · rfl

/-- To put the text in front of a tag the frames are left as they are, or the marker around
    the innermost one is used up. -/
theorem prependTo_cases (tag : Tag) (parent : Option Tag) (body : String) (frames : Frames) :
    (tag.prependTo parent body frames).2 = frames ∨
      (tag.prependTo parent body frames).2 = frames.takeEnclosing.2 := by
  unfold Tag.prependTo
  split
  · exact .inl rfl
  · split
    · exact .inl rfl
    · split
      · exact .inl rfl
      · exact .inr rfl

theorem loops_prependTo (tag : Tag) (parent : Option Tag) (body : String) (frames : Frames) :
    (tag.prependTo parent body frames).2.loops = frames.loops := by
  rcases frames.prependTo_cases tag parent body with same | taken
  · rw [same]
  · rw [taken, loops_takeEnclosing]

theorem tags_prependTo (tag : Tag) (parent : Option Tag) (body : String) (frames : Frames) :
    (tag.prependTo parent body frames).2.markers.map Marker.tag =
      frames.markers.map Marker.tag := by
  rcases frames.prependTo_cases tag parent body with same | taken
  · rw [same]
  · rw [taken, tags_takeEnclosing]

theorem tags_rearm (frames : Frames) :
    frames.rearm.markers.map Marker.tag = frames.markers.map Marker.tag := by
  unfold rearm
  split
  · next marker rest same =>
    rw [same]
    rfl
  · rfl

end Frames

section Steps

variable {σ α β : Type}

theorem run_get_bind (next : σ → StateT σ (Except Error) α) (state : σ) :
    (get >>= next : StateT σ (Except Error) α).run state = (next state).run state := rfl

theorem run_modify_bind (f : σ → σ) (next : PUnit → StateT σ (Except Error) α) (state : σ) :
    (modify f >>= next : StateT σ (Except Error) α).run state = (next ⟨⟩).run (f state) := rfl

theorem run_modifyGet_bind (f : σ → α × σ) (next : α → StateT σ (Except Error) β) (state : σ) :
    (modifyGet f >>= next : StateT σ (Except Error) β).run state =
      (next (f state).1).run (f state).2 := rfl

end Steps

/-- A loop that had an item left has still one left, or has come to the last one, once it has
    reached that of its pass. -/
theorem Loop.left_advance {loop : Loop} (some : loop.hasNext = true) :
    (loop.advance.hasNext || loop.advance.exhausted) = true := by
  unfold advance
  split
  · rw [some, Bool.true_or]
  · show (loop.step.hasNext || (loop.step.exhausted || ! loop.step.hasNext)) = true
    cases loop.step.hasNext <;> simp

namespace Progress

variable {progress after : Progress} {id : Nat} {loop : OpenLoop} {outer : List OpenLoop}

theorem Grown.withMarkers {frames : Frames}
    (tags : frames.markers.map Marker.tag = progress.markers.map Marker.tag) :
    progress.Grown (progress.withMarkers frames) [] :=
  ⟨tags, rfl, (List.append_nil _).symm⟩

theorem Grown.rearm (progress : Progress) : progress.Grown progress.rearm [] :=
  .withMarkers progress.frames.tags_rearm

theorem Below.mono {bound greater : Nat} (below : progress.Below bound)
    (le : bound ≤ greater) : progress.Below greater :=
  ⟨fun tag member => Nat.lt_of_lt_of_le (below.1 tag member) le,
    fun tag member => Nat.lt_of_lt_of_le (below.2 tag member) le⟩

theorem Below.frames {bound : Nat} (below : progress.Below bound) :
    progress.frames.Below bound := by
  intro marker member
  apply below.1
  rw [tags, List.head?_map]
  exact Option.mem_map_of_mem Marker.tag member

/-- Inside a tag the innermost marker and loop belong to the tag or to one around it. -/
theorem Below.enter (below : progress.Below id) (marker : Option Bool) :
    (progress.enter id marker).Below (id + 1) := by
  cases marker with
  | none => exact below.mono (Nat.le_succ id)
  | some armed =>
    refine ⟨?_, (below.mono (Nat.le_succ id)).2⟩
    intro tag member
    rw [← Option.some_inj.mp member]
    exact Nat.lt_succ_self id

/-- Inside an iteration the innermost loop is that of the tag. -/
theorem Below.pushLoop (below : progress.Below (id + 1)) (own : loop.tag = id) :
    (progress.pushLoop loop).Below (id + 1) := by
  refine ⟨below.1, ?_⟩
  intro tag member
  have same : loop.tag = tag := Option.some_inj.mp member
  rw [← same, own]
  exact Nat.lt_succ_self id

theorem loopOf_own (loops : progress.loops = loop :: outer) (own : loop.tag = id) :
    progress.loopOf id = some loop := by
  simp [loopOf, loops, own]

theorem loopOf_of_below (below : ∀ tag ∈ progress.tags.2.head?, tag < id) :
    progress.loopOf id = none := by
  obtain ⟨markers, loops, bindings⟩ := progress
  cases loops with
  | nil => rfl
  | cons loop outer =>
    have less : loop.tag < id := below loop.tag rfl
    simp [loopOf, Nat.ne_of_lt less]

theorem popLoop_own (loops : progress.loops = loop :: outer) (own : loop.tag = id) :
    progress.popLoop id = { progress with loops := outer } := by
  simp [popLoop, loopOf_own loops own, loops]

theorem popLoop_of_below (below : progress.Below id) : progress.popLoop id = progress := by
  simp [popLoop, loopOf_of_below below.2]

/-- The innermost loop is that of the tag, and no text in front of it is due. -/
def Within (id : Nat) (progress : Progress) : Prop :=
  ∃ loop outer, progress.loops = loop :: outer ∧ loop.tag = id ∧ loop.lead = false

theorem Grown.within {added : List Binding} (grown : progress.Grown after added)
    (within : progress.Within id) : after.Within id := by
  obtain ⟨loop, outer, loops, own, silent⟩ := within
  have fixed := grown.loops
  rw [loops] at fixed
  obtain ⟨next, rest, found, same, -⟩ := List.map_eq_cons_iff.mp fixed
  simp only [OpenLoop.fixed, Prod.mk.injEq] at same
  exact ⟨next, rest, found, same.1.trans own, same.2.2.2.trans silent⟩

/-- Behind the body of a pass that had an item left the loop still has one left or has come to
    the last one. -/
theorem left_of_kept (kept : LoopsKept progress.frames.loops after.frames.loops)
    (some : progress.frames.loops.head?.any Loop.hasNext = true)
    (loops : after.loops = loop :: outer) : (loop.hasNext || loop.exhausted) = true := by
  have same : after.frames.loops = loop.toLoop :: outer.map OpenLoop.toLoop := by
    rw [frames, loops]
    rfl
  rw [same] at kept
  generalize progress.frames.loops = before at kept some
  cases before with
  | nil => cases some
  | cons first rest =>
    have left : first.hasNext = true := some
    obtain ⟨next, found, stepped⟩ := kept.cons rfl
    obtain ⟨rfl, -⟩ := List.cons_eq_cons.mp found
    rcases stepped with same | same
    · rw [same, left, Bool.true_or]
    · rw [same, Loop.left_advance left]

/-- Leaving a tag takes away the marker that it was entered with, if there is one. -/
theorem Grown.popMarker {added : List Binding} (below : progress.Below id)
    {marker : Option Bool} (grown : (progress.enter id marker).Grown after added) :
    progress.Grown (after.popMarker id) added := by
  refine ⟨?_, grown.loops, grown.bindings⟩
  cases marker with
  | none =>
    have left : after.frames.Below id := (grown.below below).frames
    rw [Progress.popMarker, Frames.popMarker_of_below left]
    exact grown.markers
  | some armed =>
    obtain ⟨markers, loops, bindings⟩ := after
    have tags : markers.map Marker.tag = id :: progress.markers.map Marker.tag := grown.markers
    obtain ⟨own, rest, rfl, rfl, others⟩ := List.map_eq_cons_iff.mp tags
    simp only [Progress.popMarker, Progress.frames, Frames.popMarker, ↓reduceIte]
    exact others

end Progress

namespace Tag

variable {tag : Tag} {parent : Option Tag} {id : Nat} {progress : Progress} {body : String}

theorem frames_prependIn (tag : Tag) (parent : Option Tag) (body : String) (progress : Progress) :
    (tag.prependIn parent body progress).2.frames =
      (tag.prependTo parent body progress.frames).2 :=
  Progress.frames_withMarkers (Frames.loops_prependTo _ _ _ _)

theorem grown_prependIn (tag : Tag) (parent : Option Tag) (body : String) (progress : Progress) :
    progress.Grown (tag.prependIn parent body progress).2 [] :=
  .withMarkers (progress.frames.tags_prependTo tag parent body)

/-- Closing a body and opening it then is opening and closing it. -/
theorem closeRound_single (single : tag.handler ≠ .iterate) (parent : Option Tag) (id : Nat)
    (body : String) (progress : Progress) :
    tag.closeRound parent id body progress =
      (((tag.prependIn parent (tag.wrap body) progress).1, false),
        (tag.prependIn parent (tag.wrap body) progress).2) := by
  simp only [closeRound, endRound, front, wrap, single, ↓reduceIte]
  cases content : Text.hasContent body with
  | false => simp [content]
  | true => simp [Text.hasContent_append, content, String.append_assoc]

/-- The body of the tag with the given number is rendered alike in a state and in its
    frames. -/
def Agrees (id : Nat) (rendered : Rendering Fragment) (recorded : Recording String) : Prop :=
  ∀ progress : Progress, progress.Below (id + 1) →
    Matches (Written progress) (rendered.run progress.frames) (recorded.run progress)

variable {occasion : Occasion} {rendered : Rendering Fragment} {recorded : Recording String}

theorem once_matches (agrees : Agrees id rendered recorded) (single : tag.handler ≠ .iterate)
    (below : progress.Below (id + 1)) (count : Nat) :
    Matches (Written progress) ((tag.once parent rendered).run progress.frames)
      ((tag.rounds occasion parent id recorded (count + 1) true).run progress) := by
  refine .bind (agrees progress below) ?_
  rintro inner _ middle - ⟨rfl, grown⟩
  have last := grown.trans_nil (grown_prependIn tag parent (tag.wrap inner.sql) middle)
  rw [run_modifyGet_bind, run_modifyGet_bind, closeRound_single single, ← frames_prependIn]
  exact .pure ⟨rfl, last⟩

section Iteration

variable {loop : OpenLoop} {outer : List OpenLoop}

theorem endRound_iterate (iterate : tag.handler = .iterate)
    (loops : progress.loops = loop :: outer) (own : loop.tag = id)
    (left : (loop.hasNext || loop.exhausted) = true) (body : String) :
    tag.endRound id body progress =
      (((loop.endPass tag body).1, ! (loop.endPass tag body).2.exhausted),
        progress.setLoop (loop.endPass tag body).2) := by
  simp only [endRound, iterate, ↓reduceIte, Progress.loopOf_own loops own, left]

theorem front_iterate (iterate : tag.handler = .iterate)
    (loops : progress.loops = loop :: outer) (own : loop.tag = id) (body : String) :
    tag.front parent id body progress =
      if loop.lead then tag.prependIn parent body (progress.setLoop (loop.withLead false))
      else (body, progress) := by
  simp only [front, iterate, ↓reduceIte, Progress.loopOf_own loops own]

/-- The end of a round in terms of the innermost loop. -/
theorem closeRound_cons (iterate : tag.handler = .iterate) (parent : Option Tag)
    (own : loop.tag = id) (silent : loop.lead = false)
    (left : (loop.hasNext || loop.exhausted) = true) (markers : List Marker)
    (bindings : List Binding) (body : String) :
    tag.closeRound parent id body ⟨markers, loop :: outer, bindings⟩ =
      let pass := loop.toLoop.endPass tag body
      let next := loop.goOn pass.loop (loop.size_endPass tag body)
      let ended : Progress := ⟨markers, next :: outer, bindings⟩
      let front := if pass.isFirst then tag.prependIn parent pass.text ended
        else (pass.text, ended)
      ((front.1, ! pass.loop.exhausted), front.2) := by
  let pass := loop.toLoop.endPass tag body
  let next := loop.goOn pass.loop (loop.size_endPass tag body)
  have silenced : next.withLead false = next := congrArg next.withLead silent.symm
  have reached : loop.endPass tag body = (pass.text, next.withLead pass.isFirst) := by
    simp only [OpenLoop.endPass, silent, Bool.false_or, pass, next]
  let noted : Progress := ⟨markers, next.withLead pass.isFirst :: outer, bindings⟩
  let ended : Progress := ⟨markers, next :: outer, bindings⟩
  have tagged : (next.withLead pass.isFirst).tag = id :=
    (loop.toLoop.sameArray_endPass tag body).tag.trans own
  have fronted : tag.front parent id pass.text noted =
      if pass.isFirst then tag.prependIn parent pass.text ended else (pass.text, ended) := by
    have loops : noted.loops = next.withLead pass.isFirst :: outer := rfl
    rw [front_iterate iterate loops tagged]
    cases first : pass.isFirst with
    | true =>
      have settled : noted.setLoop ((next.withLead true).withLead false) = ended :=
        congrArg (fun loop => (⟨markers, loop :: outer, bindings⟩ : Progress)) silenced
      rw [settled]
      rfl
    | false =>
      have settled : noted = ended := by
        simp only [noted, ended, first, silenced]
      rw [settled]
      rfl
  rw [closeRound, endRound_iterate iterate rfl own left, reached]
  show (let front := tag.front parent id pass.text noted
        ((front.1, ! pass.loop.exhausted), front.2)) = _
  rw [fronted]

/-- What ends a round of an iteration is what ends a pass, but that the marker is armed
    again when the next round is started. -/
theorem closeRound_iterate (iterate : tag.handler = .iterate) (parent : Option Tag)
    (loops : progress.loops = loop :: outer) (own : loop.tag = id) (silent : loop.lead = false)
    (left : (loop.hasNext || loop.exhausted) = true) (fragment : Fragment) :
    let closed := tag.closeRound parent id fragment.sql progress
    tag.endPass parent fragment progress.frames =
        ((⟨closed.1.1, fragment.bindings⟩, ! closed.1.2),
          if closed.1.2 && tag.removeFirst = some .everyPass then closed.2.frames.rearm
          else closed.2.frames) ∧
      progress.Grown closed.2 [] := by
  obtain ⟨markers, _, bindings⟩ := progress
  subst loops
  rw [closeRound_cons iterate parent own silent left]
  show tag.endPass parent fragment ⟨markers, loop.toLoop :: outer.map OpenLoop.toLoop⟩ = _ ∧ _
  rw [endPass_cons]
  let pass := loop.toLoop.endPass tag fragment.sql
  have same : loop.SameArray pass.loop := loop.toLoop.sameArray_endPass tag fragment.sql
  let next : Progress := ⟨markers, loop.goOn pass.loop same.size :: outer, bindings⟩
  have grown : Progress.Grown ⟨markers, loop :: outer, bindings⟩ next [] := by
    refine ⟨rfl, ?_, (List.append_nil _).symm⟩
    simp only [next, List.map_cons, OpenLoop.fixed_goOn same]
  cases first : pass.isFirst with
  | true =>
    have prepended := grown_prependIn tag parent pass.text next
    simp only [pass] at first
    simp only [first, ↓reduceIte, Bool.not_not, frames_prependIn]
    exact ⟨rfl, grown.trans prepended⟩
  | false =>
    simp only [pass] at first
    simp only [first, Bool.false_eq_true, ↓reduceIte, Bool.not_not]
    exact ⟨rfl, grown⟩

/-- The first round of an iteration finds the array. -/
theorem startRound_first {α : Type} (occasion : Occasion) (parent : Option Tag)
    (iterate : tag.handler = .iterate) (none : progress.loopOf id = none)
    (next : Bool → Recording α) :
    (tag.startRound occasion parent id >>= next).run progress =
      (do
        let (property, items) ← collection occasion tag
        modify (·.pushLoop (.start id property items))
        next (((← get).loopOf id).any fun loop => loop.hasNext) : Recording α).run
          (progress.enter id (tag.marker? parent)) := by
  simp only [startRound, iterate, startLoop, bind_assoc, pure_bind]
  rw [run_get_bind, none]
  simp only [Option.isNone_none, ↓reduceIte, bind_assoc]
  rfl

/-- A round that is not the first one arms the marker again if the policy says so. -/
theorem startRound_again (occasion : Occasion) (parent : Option Tag)
    (iterate : tag.handler = .iterate) (within : progress.Within id) :
    ∃ next, (tag.startRound occasion parent id).run progress =
        .ok (next.frames.loops.head?.any Loop.hasNext, next) ∧
      next.frames = (if tag.removeFirst = some .everyPass then progress.frames.rearm
        else progress.frames) ∧
      progress.Grown next [] := by
  obtain ⟨loop, outer, loops, own, -⟩ := within
  have found := Progress.loopOf_own loops own
  let next := if tag.removeFirst = some .everyPass then progress.rearm else progress
  have entered : (tag.startLoop occasion parent id).run progress = .ok (⟨⟩, next) := by
    show StateT.run (if (progress.loopOf id).isNone then _ else _) progress = _
    rw [found]
    by_cases policy : tag.removeFirst = some .everyPass
    · simp only [next, if_pos policy]
      rfl
    · simp only [next, if_neg policy]
      rfl
  have still : next.loops = loop :: outer := by
    unfold next
    split <;> exact loops
  refine ⟨next, ?_, ?_, ?_⟩
  · simp only [startRound, iterate, StateT.run_bind, entered]
    show Except.ok ((next.loopOf id).any _, next) = _
    rw [Progress.loopOf_own still own, Progress.frames, still]
    rfl
  · unfold next
    split
    · exact progress.frames_rearm
    · rfl
  · unfold next
    split
    · exact .rearm progress
    · exact .refl progress

/-- The rounds of an iteration whose first one was started are rendered like its passes, if the
    body is rendered alike. -/
theorem passes_match (iterate : tag.handler = .iterate) (agrees : Agrees id rendered recorded)
    (bodyKept : KeepsFrames id rendered) (count : Nat) (within : progress.Within id)
    (below : progress.Below (id + 1)) :
    Matches (Written progress) ((tag.passes parent rendered count).run progress.frames)
      ((tag.rounds occasion parent id recorded count
        (progress.frames.loops.head?.any Loop.hasNext)).run progress) := by
  -- One round is one pass, and the state in which the next one starts is again one of the loop.
  induction count generalizing progress with
  | zero => exact .pure ⟨rfl, .refl progress⟩
  | succ count ih =>
    show Matches _
      (StateT.run (if ! progress.frames.loops.head?.any Loop.hasNext then _ else _) _) _
    cases some : progress.frames.loops.head?.any Loop.hasNext with
    | false => exact .pure ⟨rfl, .refl progress⟩
    | true =>
      refine .bind (agrees progress below) ?_
      rintro inner _ middle ran ⟨rfl, grown⟩
      obtain ⟨loop, outer, loops, own, silent⟩ := grown.within within
      have left := Progress.left_of_kept (bodyKept below.frames ran).loops some loops
      obtain ⟨ended, closed⟩ := closeRound_iterate iterate parent loops own silent left inner
      have closed := grown.trans_nil closed
      rw [run_modifyGet_bind, run_modifyGet_bind, ended]
      generalize tag.closeRound parent id inner.sql middle = round at closed
      obtain ⟨⟨text, again⟩, next⟩ := round
      cases again with
      | false => exact .pure ⟨rfl, closed⟩
      | true =>
        obtain ⟨started, ranStart, frames, grownStart⟩ :=
          startRound_again occasion parent iterate (closed.within within)
        have reached := closed.trans_nil grownStart
        simp only [Bool.not_true, Bool.false_eq_true, ↓reduceIte, Bool.true_and,
          decide_eq_true_eq]
        rw [← frames, StateT.run_bind (tag.startRound occasion parent id), ranStart]
        refine .bind_pure (ih (reached.within within) (reached.below below)) ?_
        rintro rest _ after ⟨rfl, grownRest⟩
        exact ⟨rfl, reached.trans grownRest⟩

end Iteration

/-- Leaving a tag without a loop of its own. -/
theorem leave_matches {marker : Option Bool} {middle : Progress} (below : progress.Below id)
    (grown : (progress.enter id marker).Grown middle [])
    (inside : Matches (Written middle) (rendered.run middle.frames) (recorded.run middle)) :
    Matches (Written progress)
      ((do
        let fragment ← rendered
        modify (·.popMarker id)
        return fragment : Rendering Fragment).run middle.frames)
      ((do
        let text ← recorded
        modify (·.popMarker id)
        modify (·.popLoop id)
        return text : Recording String).run middle) := by
  refine .bind inside ?_
  rintro fragment _ after - ⟨rfl, written⟩
  have left := Progress.Grown.popMarker below (grown.trans written)
  have none : (after.popMarker id).popLoop id = after.popMarker id :=
    Progress.popLoop_of_below (left.below below)
  show Matches _ (.ok (fragment, after.frames.popMarker id))
    (.ok (fragment.sql, (after.popMarker id).popLoop id))
  rw [none, ← Progress.frames_popMarker]
  exact .done ⟨rfl, left⟩

/-- A tag that is no iteration, from where its round was started. -/
theorem round_matches (single : tag.handler ≠ .iterate) (agrees : Agrees id rendered recorded)
    {marker : Option Bool} {middle : Progress} (below : progress.Below id)
    (grown : (progress.enter id marker).Grown middle []) (started : Bool) :
    Matches (Written progress)
      ((do
        let fragment ← (if started then tag.once parent rendered else pure {} : Rendering Fragment)
        modify (·.popMarker id)
        return fragment : Rendering Fragment).run middle.frames)
      ((do
        let text ← tag.rounds occasion parent id recorded ((← get).rounds id) started
        modify (·.popMarker id)
        modify (·.popLoop id)
        return text : Recording String).run middle) := by
  have inside := grown.below (below.enter marker)
  have none : middle.loopOf id = none := by
    apply Progress.loopOf_of_below
    rw [grown.tags]
    exact below.2
  have count : middle.rounds id = 1 := by
    rw [Progress.rounds, none]
  show Matches _ _ (StateT.run (do
    let text ← tag.rounds occasion parent id recorded (middle.rounds id) started
    modify (·.popMarker id)
    modify (·.popLoop id)
    return text) middle)
  rw [count]
  refine leave_matches below grown ?_
  cases started with
  | true => exact once_matches agrees single inside 0
  | false => exact .pure ⟨rfl, .refl middle⟩

/-- Leaving an iteration takes its loop away. -/
theorem leave_loop {loop : OpenLoop} {closed : Progress} {added : List Binding}
    (own : loop.tag = id) (grown : (progress.pushLoop loop).Grown closed added) :
    ∃ left, (closed.popMarker id).popLoop id = left.popMarker id ∧
      left.frames = closed.frames.popLoop ∧ progress.Grown left added := by
  obtain ⟨markers, loops, bindings⟩ := closed
  have fixed : loops.map OpenLoop.fixed = loop.fixed :: progress.loops.map OpenLoop.fixed :=
    grown.loops
  obtain ⟨last, outer, rfl, same, others⟩ := List.map_eq_cons_iff.mp fixed
  have tag : last.tag = id := (congrArg Prod.fst same).trans own
  refine ⟨⟨markers, outer, bindings⟩, (Progress.popLoop_own rfl tag).trans ?_, rfl,
    grown.markers, others, grown.bindings⟩
  cases markers with
  | nil => rfl
  | cons marker rest =>
    simp only [Progress.popMarker, Progress.frames, Frames.popMarker]
    split <;> rfl

/-- An iteration, from where its array was found. -/
theorem loop_matches (iterate : tag.handler = .iterate) (agrees : Agrees id rendered recorded)
    (bodyKept : KeepsFrames id rendered) {marker : Option Bool} {opened : Progress}
    (below : progress.Below id) (grown : (progress.enter id marker).Grown opened [])
    (property : String) (items : List Value) :
    Matches (Written progress)
      ((do
        modify (·.pushLoop { tag := id, size := items.length, property })
        let fragment ← tag.passes parent rendered items.length
        modify Frames.popLoop
        modify (·.popMarker id)
        return fragment : Rendering Fragment).run opened.frames)
      ((do
        modify (·.pushLoop (.start id property items))
        let started := ((← get).loopOf id).any fun loop => loop.hasNext
        let text ← tag.rounds occasion parent id recorded ((← get).rounds id) started
        modify (·.popMarker id)
        modify (·.popLoop id)
        return text : Recording String).run opened) := by
  let pushed := opened.pushLoop (.start id property items)
  have own : pushed.loopOf id = some (.start id property items) := Progress.loopOf_own rfl rfl
  have within : pushed.Within id := ⟨_, opened.loops, rfl, rfl, rfl⟩
  have inside : pushed.Below (id + 1) := (grown.below (below.enter marker)).pushLoop rfl
  have count : pushed.rounds id = items.length := by
    rw [Progress.rounds, own]
    rfl
  refine .modify rfl ?_
  rw [run_get_bind, run_get_bind, own, count]
  refine .bind (passes_match iterate agrees bodyKept items.length within inside) ?_
  rintro fragment _ closed - ⟨rfl, passed⟩
  have tag : (OpenLoop.start id property items).tag = id := rfl
  obtain ⟨left, popped, frames, written⟩ := leave_loop tag passed
  have last := Progress.Grown.popMarker below (grown.trans written)
  show Matches _ (.ok (fragment, closed.frames.popLoop.popMarker id))
    (.ok (fragment.sql, (closed.popMarker id).popLoop id))
  rw [popped, ← frames, ← Progress.frames_popMarker]
  exact .done ⟨rfl, last⟩

/-- A tag is rendered alike in a state and in its frames if its body is. -/
theorem record_matches (agrees : Agrees id rendered recorded)
    (bodyKept : KeepsFrames id rendered) (below : progress.Below id) :
    Matches (Written progress) ((tag.around occasion parent id rendered).run progress.frames)
      ((tag.record occasion parent id recorded).run progress) := by
  have entered : (progress.enter id (tag.marker? parent)).frames =
      progress.frames.enter id (tag.marker? parent) := progress.frames_enter id _
  cases handler : tag.handler with
  | group =>
    have single : tag.handler ≠ .iterate := by simp [handler]
    simp only [around, content, record, startRound, handler, bind_assoc]
    refine .modify entered ?_
    exact round_matches single agrees below (.refl _) true
  | conditional condition =>
    have single : tag.handler ≠ .iterate := by simp [handler]
    simp only [around, content, record, startRound, handler, bind_assoc]
    refine .modify entered ?_
    refine .bind (decides_matches occasion condition tag _) ?_
    rintro started _ middle - ⟨rfl, grown⟩
    exact round_matches single agrees below grown _
  | iterate =>
    rw [record, startRound_first occasion parent handler (Progress.loopOf_of_below below.2)]
    simp only [around, content, iterateOver, handler, bind_assoc, pure_bind]
    rw [run_modify_bind, ← entered]
    refine .bind (collection_matches occasion tag _) ?_
    rintro ⟨property, items⟩ _ opened - ⟨rfl, grown⟩
    exact loop_matches handler agrees bodyKept below grown property items

end Tag

namespace Part

mutual

/-- A part is rendered alike in a state and in its frames. -/
theorem record_matches {occasion : Occasion} {parent : Option Tag} {least : Nat}
    {progress : Progress} :
    ∀ part : Part, part.Numbered least → progress.Below least →
      Matches (Written progress) ((part.render occasion parent).run progress.frames)
        ((part.record occasion parent).run progress)
  | .text _ content, _, _ => text_matches occasion content progress
  | .tag id t body, numbered, below => by
    rw [render, record]
    exact Tag.record_matches (fun _ inside => recordAll_matches body numbered.2 inside)
      (keepsFrames_renderAll numbered.2) (below.mono numbered.1)

theorem recordAll_matches {occasion : Occasion} {parent : Option Tag} {least : Nat}
    {progress : Progress} :
    ∀ parts : List Part, NumberedAll least parts → progress.Below least →
      Matches (Written progress) ((renderAll occasion parent parts).run progress.frames)
        ((recordAll occasion parent parts).run progress)
  | [], _, _ => .pure ⟨rfl, .refl progress⟩
  | part :: rest, numbered, below => by
    rw [renderAll, recordAll]
    refine .bind (record_matches part numbered.1 below) ?_
    rintro first _ middle - ⟨rfl, grown⟩
    refine .bind_pure (recordAll_matches rest numbered.2 (grown.below below)) ?_
    rintro others _ after ⟨rfl, more⟩
    exact ⟨rfl, grown.trans more⟩

end

end Part

/-- The statement of a template is the same whether the bindings are given by the parts or
    kept in a state, and so is the error. -/
theorem Template.record_eq_render {draft : Draft} {building : Converters} {template : Template}
    (built : draft.build building = .ok template) (converters : Converters) (param : Value) :
    template.record converters param = template.render converters param := by
  obtain ⟨parts, builtParts, last⟩ := bind_eq_ok_iff.mp built
  cases last
  have numbered := Node.numberedAll_of_buildAll _ builtParts
  have below : ({} : Progress).Below 0 := by simp [Progress.Below, Progress.tags]
  have matched : Matches (Written {})
      ((Part.renderAll ⟨draft.cls, converters, param⟩ none parts).run {})
      ((Part.recordAll ⟨draft.cls, converters, param⟩ none parts).run {}) :=
    Part.recordAll_matches parts numbered below
  simp only [record, render]
  generalize (Part.renderAll _ none parts).run {} = rendered at matched ⊢
  generalize (Part.recordAll _ none parts).run {} = recorded at matched ⊢
  cases matched with
  | failed e => rfl
  | done written =>
    obtain ⟨rfl, grown⟩ := written
    have bindings := grown.bindings
    rw [List.nil_append] at bindings
    simp only [bind, Except.bind, bindings]

end DynamicSql
