import DynamicSql.Proofs.Iteration.Indexes
import DynamicSql.Proofs.Iteration.Passes

/-!
# Invariants of fragments

Rendering only puts fragments together: markers, texts of the template, what tags
put around them, and indexes in placeholders. So a condition that holds of markers
and of clean text, and of fragments one after the other, holds of everything that
a template of clean texts renders to. Which texts are clean is told by their
characters.
-/

namespace DynamicSql

open Rendering

namespace Tag

/-- The texts that a tag puts around and between its bodies. -/
def glue (tag : Tag) : List String :=
  [tag.prepend, tag.opening, tag.closing, tag.conjunction].filterMap id

end Tag

namespace Fragment

/-- A condition on fragments that putting together passes on, with the texts that satisfy
    it by their characters. -/
structure Invariant (permitted : Char → Prop) (clean : String → Prop)
    (holds : Fragment → Prop) : Prop where
  chars : ∀ {text : String}, clean text ↔ ∀ c ∈ text.toList, permitted c
  text : ∀ {text : String}, clean text → holds (ofText text)
  marker : ∀ binding : Binding, holds (marker binding)
  append : ∀ {first second : Fragment}, holds first → holds second → holds (first ++ second)
  sign : permitted '#'
  opening : permitted '['
  closing : permitted ']'
  digit : ∀ c : Char, c.isDigit → permitted c

variable {permitted : Char → Prop} {clean : String → Prop} {holds : Fragment → Prop}

namespace Invariant

theorem clean_empty (invariant : Invariant permitted clean holds) : clean "" := by
  simp [invariant.chars]

theorem empty (invariant : Invariant permitted clean holds) : holds {} :=
  invariant.text invariant.clean_empty

/-- Clean text around a fragment. -/
theorem around (invariant : Invariant permitted clean holds) {fragment : Fragment}
    {before after : String} (inside : holds fragment) (front : clean before)
    (behind : clean after) :
    holds ⟨before ++ fragment.sql ++ after, fragment.bindings⟩ := by
  have whole := invariant.append (invariant.append (invariant.text front) inside)
    (invariant.text behind)
  have same : ofText before ++ fragment ++ ofText after =
      ⟨before ++ fragment.sql ++ after, fragment.bindings⟩ := by
    ext1 <;> simp [ofText]
  rw [← same]
  exact whole

/-- Text of which all parts are clean, with markers in the place of its placeholders. -/
theorem of_ofSpans (invariant : Invariant permitted clean holds) {cls : ParameterClass}
    {converters : Converters} :
    ∀ {spans : List Text.Span} {fragment : Fragment},
      (∀ span ∈ spans, ∀ c ∈ span.source '#', permitted c) →
      ofSpans cls converters spans = .ok fragment → holds fragment
  | [], _, _, read => by
    cases read
    exact invariant.empty
  | .plain text :: _, _, all, read => by
    obtain ⟨_, others, last⟩ := bind_eq_ok_iff.mp read
    cases last
    obtain ⟨here, later⟩ := List.forall_mem_cons.mp all
    have plain : clean (String.ofList text) := by
      rw [invariant.chars, String.toList_ofList]
      exact here
    exact invariant.append (invariant.text plain) (invariant.of_ofSpans later others)
  | .enclosed [] :: _, _, all, read => by
    obtain ⟨_, others, last⟩ := bind_eq_ok_iff.mp read
    cases last
    have sign : clean "#" := by simpa [invariant.chars] using invariant.sign
    exact invariant.append (invariant.text sign)
      (invariant.of_ofSpans (List.forall_mem_cons.mp all).2 others)
  | .enclosed (_ :: _) :: _, _, all, read => by
    obtain ⟨_, _, rest⟩ := bind_eq_ok_iff.mp read
    obtain ⟨binding, _, rest⟩ := bind_eq_ok_iff.mp rest
    obtain ⟨_, others, last⟩ := bind_eq_ok_iff.mp rest
    cases last
    exact invariant.append (invariant.marker binding)
      (invariant.of_ofSpans (List.forall_mem_cons.mp all).2 others)

theorem of_parse (invariant : Invariant permitted clean holds) {cls : ParameterClass}
    {converters : Converters} {text : String} {fragment : Fragment} (isClean : clean text)
    (read : parse cls converters text = .ok fragment) : holds fragment := by
  refine invariant.of_ofSpans (fun span among c member => ?_) read
  exact invariant.chars.mp isClean c (Text.mem_of_mem_spans among member)

theorem clean_qualifyPlaceholders (invariant : Invariant permitted clean holds)
    (frames : Frames) {text : String} (isClean : clean text) :
    clean (frames.qualifyPlaceholders text) :=
  invariant.chars.mpr <| frames.forall_mem_qualifyPlaceholders invariant.opening
    invariant.closing invariant.digit (invariant.chars.mp isClean)

end Invariant

end Fragment

open Fragment

section Passed

variable {permitted : Char → Prop} {clean : String → Prop} {holds : Fragment → Prop}

namespace Tag

variable {tag : Tag} {parent : Option Tag}

/-- A tag puts clean texts only around its bodies. -/
def CleanGlue (clean : String → Prop) (tag : Tag) : Prop := ∀ text ∈ tag.glue, clean text

theorem CleanGlue.getD (isClean : tag.CleanGlue clean) (empty : clean "")
    {text : Option String}
    (member : text ∈ [tag.prepend, tag.opening, tag.closing, tag.conjunction]) :
    clean (text.getD "") := by
  cases text with
  | none => exact empty
  | some text => exact isClean text (List.mem_filterMap.mpr ⟨_, member, rfl⟩)

theorem holds_wrap (invariant : Invariant permitted clean holds) (isClean : tag.CleanGlue clean)
    {fragment : Fragment} (inside : holds fragment) :
    holds ⟨tag.wrap fragment.sql, fragment.bindings⟩ := by
  have empty := invariant.clean_empty
  unfold wrap
  split
  · exact invariant.around inside (isClean.getD empty (by simp)) (isClean.getD empty (by simp))
  · exact inside

theorem holds_prependTo (invariant : Invariant permitted clean holds)
    (isClean : tag.CleanGlue clean) {fragment : Fragment} (inside : holds fragment)
    (frames : Frames) :
    holds ⟨(tag.prependTo parent fragment.sql frames).1, fragment.bindings⟩ := by
  have empty := invariant.clean_empty
  have front : holds ⟨tag.prepend.getD "" ++ fragment.sql, fragment.bindings⟩ := by
    simpa using invariant.around inside (isClean.getD empty (by simp)) empty
  unfold prependTo
  split
  · exact inside
  · next lead present =>
    rw [present] at front
    split
    · exact inside
    · split
      · exact front
      · dsimp only
        split
        · exact inside
        · exact front

theorem holds_endPass_text (invariant : Invariant permitted clean holds)
    (isClean : tag.CleanGlue clean) (loop : Loop) {inner : Fragment} (inside : holds inner) :
    holds ⟨(loop.endPass tag inner.sql).text, inner.bindings⟩ := by
  have empty := invariant.clean_empty
  obtain ⟨reached, same⟩ : ∃ reached, (if loop.stepped then loop else loop.step) = reached :=
    ⟨_, rfl⟩
  rw [Loop.endPass_text loop reached tag inner.sql same]
  refine invariant.around inside ?_ ?_
  · split
    · split <;> exact isClean.getD empty (by simp)
    · exact empty
  · split
    · exact isClean.getD empty (by simp)
    · exact empty

theorem holds_endPass (invariant : Invariant permitted clean holds)
    (isClean : tag.CleanGlue clean) {inner piece : Fragment} {isLast : Bool}
    {frames next : Frames} (inside : holds inner)
    (ended : tag.endPass parent inner frames = ((piece, isLast), next)) : holds piece := by
  obtain ⟨markers, loops⟩ := frames
  cases loops with
  | nil =>
    cases ended
    exact inside
  | cons loop outer =>
    rw [endPass_cons] at ended
    cases ended
    have text := holds_endPass_text invariant isClean loop inside
    split
    · exact holds_prependTo invariant isClean text _
    · exact text

theorem holds_of_passes (invariant : Invariant permitted clean holds)
    (isClean : tag.CleanGlue clean) {body : Rendering Fragment}
    (each : ∀ {frames inner after}, body.run frames = .ok (inner, after) → holds inner)
    {count : Nat} {frames after : Frames} {fragment : Fragment}
    (ran : (tag.passes parent body count).run frames = .ok (fragment, after)) :
    holds fragment := by
  induction count generalizing frames fragment with
  | zero =>
    obtain ⟨rfl, -⟩ := run_pure_eq_ok.mp ran
    exact invariant.empty
  | succ count ih =>
    rcases passes_succ_eq_ok.mp ran with
      ⟨-, rfl, -⟩ | ⟨-, inner, middle, piece, isLast, next, ranBody, ended, rest⟩
    · exact invariant.empty
    · have first : holds piece := holds_endPass invariant isClean (each ranBody) ended
      rcases rest with ⟨-, rfl, -⟩ | ⟨-, others, more, rfl⟩
      · exact first
      · exact invariant.append first (ih more)

/-- A tag passes an invariant on from its body, however often the body is rendered. -/
theorem holds_of_around (invariant : Invariant permitted clean holds)
    (isClean : tag.CleanGlue clean) {occasion : Occasion} {id : Nat}
    {body : Rendering Fragment}
    (each : ∀ {frames inner after}, body.run frames = .ok (inner, after) → holds inner)
    {frames after : Frames} {fragment : Fragment}
    (ran : (tag.around occasion parent id body).run frames = .ok (fragment, after)) :
    holds fragment := by
  have once {frames fragment after}
      (ran : (tag.once parent body).run frames = .ok (fragment, after)) : holds fragment := by
    obtain ⟨inner, middle, ranBody, rfl, -⟩ := once_eq_ok.mp ran
    exact holds_prependTo invariant isClean (holds_wrap invariant isClean (each ranBody)) middle
  obtain ⟨_, ranContent, -⟩ := around_eq_ok.mp ran
  rcases content_eq_ok.mp ranContent with
    ⟨-, appeared⟩ | ⟨_, -, _, _, -, branch⟩ | ⟨-, iterated⟩
  · exact once appeared
  · rcases branch with ⟨-, appeared⟩ | ⟨-, rfl, -⟩
    · exact once appeared
    · exact invariant.empty
  · obtain ⟨_, _, _, _, -, passed, -⟩ := iterateOver_eq_ok.mp iterated
    exact holds_of_passes invariant isClean each passed

end Tag

/-- Clean text that was built; what was read in advance satisfies the condition. -/
def TextPart.Clean (clean : String → Prop) (holds : Fragment → Prop) (text : TextPart) : Prop :=
  clean text.source ∧ ∀ fragment ∈ text.ready, holds fragment

theorem Node.clean_of_buildText (invariant : Invariant permitted clean holds)
    {cls : ParameterClass} {converters : Converters} {inIteration : Bool} {source : String}
    {content : TextPart} (isClean : clean source)
    (built : buildText cls converters inIteration source = .ok content) :
    content.Clean clean holds := by
  unfold buildText at built
  split at built
  · cases built
    exact ⟨isClean, by simp⟩
  · obtain ⟨fragment, read, last⟩ := bind_eq_ok_iff.mp built
    cases last
    refine ⟨isClean, fun known member => ?_⟩
    cases member
    exact invariant.of_parse isClean read

theorem TextPart.holds_of_render (invariant : Invariant permitted clean holds)
    {occasion : Occasion} {text : TextPart} (isClean : text.Clean clean holds)
    {fragment : Fragment} {frames after : Frames}
    (ran : (text.render occasion).run frames = .ok (fragment, after)) : holds fragment := by
  rcases render_eq_ok.mp ran with ⟨known, -⟩ | ⟨-, -, rfl, -⟩ | ⟨-, -, -, read⟩
  · exact isClean.2 fragment known
  · exact invariant.text isClean.1
  · exact invariant.of_parse (invariant.clean_qualifyPlaceholders _ isClean.1) read

namespace Part

/-- What parts of clean texts render to satisfies the condition. -/
theorem holds_of_renderAll (invariant : Invariant permitted clean holds) {occasion : Occasion}
    {parent : Option Tag} {least : Nat} {parts : List Part} (numbered : NumberedAll least parts)
    (isClean : EachOf (TextPart.Clean clean holds) (Tag.CleanGlue clean) parts)
    {fragment : Fragment} {frames after : Frames}
    (ran : (renderAll occasion parent parts).run frames = .ok (fragment, after)) :
    holds fragment := by
  refine renderAll_induction
    (motive := fun _ rendering => ∀ {frames fragment after},
      rendering.run frames = .ok (fragment, after) → holds fragment)
    ?text ?none ?row ?tag parts numbered isClean ran
  case text =>
    intro _ content isClean frames fragment after ran
    exact TextPart.holds_of_render invariant isClean ran
  case none =>
    intro _ frames fragment after ran
    obtain ⟨rfl, -⟩ := run_pure_eq_ok.mp ran
    exact invariant.empty
  case row =>
    intro _ first rest ihFirst ihRest frames fragment after ran
    obtain ⟨_, middle, ranFirst, more⟩ := run_bind_eq_ok.mp ran
    obtain ⟨_, _, ranRest, last⟩ := run_bind_eq_ok.mp more
    obtain ⟨rfl, -⟩ := run_pure_eq_ok.mp last
    exact invariant.append (ihFirst ranFirst) (ihRest ranRest)
  case tag =>
    intro _ parent id tag body isClean _ ih frames fragment after ran
    exact Tag.holds_of_around invariant isClean ih ran

end Part

end Passed

end DynamicSql
