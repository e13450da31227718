import DynamicSql.Proofs.Correspondence.Frames
import DynamicSql.Proofs.Correspondence.Outcomes
import DynamicSql.Proofs.Nesting.Persistence

/-!
# Texts in two surroundings

Text outside every iteration is read when the template is built, and text inside one
is read in every pass, with the indexes put in. Both come to the same if the loops
around the text have no index to put in: then the second reading is of the very text
that the first one was of.
-/

namespace DynamicSql

open Rendering

namespace Text

/-- What a pair of delimiters encloses stands in the text. -/
theorem infix_of_mem_spans {delimiter : Char} {text body : List Char}
    (among : .enclosed body ∈ spans delimiter text) : body <:+: text := by
  obtain ⟨front, behind, split⟩ := List.append_of_mem among
  have whole := flatMap_source_spans delimiter text
  rw [split, List.flatMap_append, List.flatMap_cons] at whole
  refine ⟨front.flatMap (Span.source delimiter) ++ [delimiter],
    delimiter :: behind.flatMap (Span.source delimiter), ?_⟩
  rw [← whole]
  simp [Span.source]

namespace Filled

/-- A character that is no bracket was there before. -/
theorem of_cons_right {c : Char} {text after : List Char} (noBracket : c ≠ '[')
    (filled : Filled text (c :: after)) : ∃ rest, text = c :: rest ∧ Filled rest after := by
  generalize same : c :: after = whole at filled
  cases filled with
  | nil => cases same
  | keep _ rest =>
    cases same
    exact ⟨_, rfl, rest⟩
  | fill index rest => exact absurd (List.head_eq_of_cons_eq same) noBracket

theorem trans {first second third : List Char} (left : Filled first second)
    (right : Filled second third) : Filled first third := by
  induction left generalizing third with
  | nil => exact right
  | @keep c text after rest ih =>
    generalize same : c :: after = whole at right
    cases right with
    | nil => cases same
    | keep _ others =>
      cases same
      exact .keep c (ih others)
    | fill index others =>
      cases same
      -- The closing bracket behind `c` was there before, and so was the pair.
      obtain ⟨_, rfl, between⟩ := (ih (.keep ']' others)).of_cons_right (by decide)
      exact .fill index between
  | fill index rest ih =>
    obtain ⟨next, behind, rfl, others, same⟩ := right.of_place
    rw [same (by simp)]
    exact .fill index (ih others)

end Filled

/-- Idle loops put nothing into a text, whatever other loops have put into it before. -/
def Spared (idle : String → Prop) (text : List Char) : Prop :=
  ∀ loop : Loop, idle loop.property → ∀ after, Filled text after →
    ∀ body, body <:+: after → loop.qualify body = body

/-- If no loop is idle, every text is spared. -/
theorem spared_of_none (text : List Char) : Spared (fun _ => False) text :=
  fun _ none => none.elim

end Text

namespace Loop

theorem filled_qualify (loop : Loop) (path : List Char) :
    Text.Filled path (loop.qualify path) := by
  cases reached : loop.index with
  | none =>
    rw [qualify, reached]
    exact .refl path
  | some index =>
    by_cases array : loop.property.toList = []
    · have nameless : loop.property.isEmpty = true := by simpa using array
      rw [qualify, reached]
      simp only [nameless, ↓reduceIte]
      split
      · exact .fill index (.refl _)
      · exact .refl _
    · rw [qualify_of_array array reached]
      exact Text.Filled.replaceFrom index 0 true path

end Loop

namespace Frames

theorem filled_qualify (frames : Frames) (path : List Char) :
    Text.Filled path (frames.qualify path) := by
  unfold qualify
  induction frames.loops with
  | nil => exact .refl path
  | cons loop outer ih => exact ih.trans (loop.filled_qualify _)

/-- The loops only put indexes into empty brackets. -/
theorem filled_qualifyEnclosed (frames : Frames) (delimiter : Char) (text : List Char) :
    Text.Filled text (frames.qualifyEnclosed delimiter text) := by
  unfold qualifyEnclosed
  conv => arg 1; rw [← Text.flatMap_source_spans delimiter text]
  induction Text.spans delimiter text with
  | nil => exact .nil
  | cons span rest ih =>
    refine Text.Filled.append ?_ ih
    cases span with
    | plain text => exact .refl _
    | unclosed tail => exact .refl _
    | enclosed body => exact .keep _ ((frames.filled_qualify body).append (.refl _))

/-- Outside every loop nothing is put in. -/
theorem qualifyPlaceholders_of_outside {frames : Frames} (outside : frames.loops = [])
    (text : String) : frames.qualifyPlaceholders text = text := by
  have same : ∀ delimiter text, frames.qualifyEnclosed delimiter text = text := by
    intro delimiter text
    have nothing : ∀ span : Text.Span, span.mapEnclosed frames.qualify = span := by
      intro span
      cases span <;> simp [Text.Span.mapEnclosed, qualify, outside]
    simp only [qualifyEnclosed, nothing]
    exact Text.flatMap_source_spans delimiter text
  rw [qualifyPlaceholders, same, same, String.ofList_toList]

namespace Twin

variable {idle : String → Prop} {left right : Frames}

theorem qualify (twin : left.Twin idle right) {path : List Char}
    (spared : Text.Spared idle path) : right.qualify path = left.qualify path :=
  twin.loops.foldr_qualify fun loop isIdle =>
    spared loop isIdle path (.refl path) path (List.infix_refl path)

theorem qualifyEnclosed (twin : left.Twin idle right) (delimiter : Char) {text : List Char}
    (spared : ∀ loop : Loop, idle loop.property → ∀ body, body <:+: text →
      loop.qualify body = body) :
    right.qualifyEnclosed delimiter text = left.qualifyEnclosed delimiter text := by
  refine List.flatMap_congr fun span among => ?_
  cases span with
  | plain text => rfl
  | unclosed tail => rfl
  | enclosed body =>
    have same : right.qualify body = left.qualify body :=
      twin.loops.foldr_qualify fun loop isIdle =>
        spared loop isIdle body (Text.infix_of_mem_spans among)
    rw [Text.Span.mapEnclosed, Text.Span.mapEnclosed, same]

theorem qualifyPlaceholders (twin : left.Twin idle right) {text : String}
    (spared : Text.Spared idle text.toList) :
    right.qualifyPlaceholders text = left.qualifyPlaceholders text := by
  rw [Frames.qualifyPlaceholders, Frames.qualifyPlaceholders,
    twin.qualifyEnclosed '#' fun loop isIdle => spared loop isIdle _ (.refl _),
    twin.qualifyEnclosed '$' fun loop isIdle =>
      spared loop isIdle _ (left.filled_qualifyEnclosed '#' text.toList)]

end Twin

end Frames

namespace Node

/-- Text is read when it is built, unless it has to wait or is blank. -/
theorem buildText_eq_ok {cls : ParameterClass} {converters : Converters} {inIteration : Bool}
    {source : String} {text : TextPart} :
    buildText cls converters inIteration source = .ok text ↔
      ((inIteration = true ∨ Text.hasContent source = false) ∧
        text = ⟨source, inIteration, none⟩) ∨
      (inIteration = false ∧ Text.hasContent source = true ∧ ∃ fragment,
        Fragment.parse cls converters source = .ok fragment ∧
        text = ⟨source, inIteration, some fragment⟩) := by
  unfold buildText
  cases inIteration with
  | true =>
    simp only [Bool.true_or, ↓reduceIte, Except.ok.injEq, true_or, true_and, Bool.true_eq_false,
      false_and, or_false]
    exact eq_comm
  | false =>
    cases Text.hasContent source with
    | false =>
      simp only [Bool.not_false, Bool.or_true, ↓reduceIte, Except.ok.injEq, or_true, true_and,
        Bool.false_eq_true, false_and, and_false, or_false]
      exact eq_comm
    | true =>
      simp only [Bool.not_true, Bool.or_self, Bool.false_eq_true, ↓reduceIte, bind_eq_ok_iff,
        pure, Except.pure, Except.ok.injEq, Bool.true_eq_false, or_self, false_and, false_or,
        true_and]
      exact exists_congr fun fragment => and_congr_right' eq_comm

end Node

namespace TextPart

variable {idle : String → Prop} {occasion : Occasion} {left right : Frames} {source : String}

/-- Text that has to wait in both surroundings is read with the same indexes. -/
theorem waiting_corresponds (twin : left.Twin idle right)
    (spared : Text.Spared idle source.toList) (inIteration inIteration' : Bool) :
    Corresponding (Frames.Twin idle)
      ((render occasion ⟨source, inIteration, none⟩).run left)
      ((render occasion ⟨source, inIteration', none⟩).run right) := by
  unfold render
  dsimp only
  split
  · refine .modify (.get ?_)
    rw [twin.advance.qualifyPlaceholders spared]
    exact .lift _ twin.advance
  · exact .pure _ twin

/-- Text that was read in advance and the same text that has to wait, which is read in a
    place without an index to put in. -/
theorem ready_corresponds (twin : left.Twin idle right) (outside : left.loops = [])
    (spared : Text.Spared idle source.toList) {fragment : Fragment}
    (read : Fragment.parse occasion.cls occasion.converters source = .ok fragment)
    (content : Text.hasContent source = true) (inIteration inIteration' : Bool) :
    Corresponding (Frames.Twin idle)
      ((render occasion ⟨source, inIteration, some fragment⟩).run left)
      ((render occasion ⟨source, inIteration', none⟩).run right) := by
  have still : left.advance = left := by
    rw [Frames.advance, outside]
  have reached : left.Twin idle right.advance := by
    have both := twin.advance
    rw [still] at both
    exact both
  have same : right.advance.qualifyPlaceholders source = source := by
    rw [reached.qualifyPlaceholders spared, Frames.qualifyPlaceholders_of_outside outside]
  have waited : (render occasion ⟨source, inIteration', none⟩).run right =
      .ok (fragment, right.advance) := by
    rw [render_eq_ok, same]
    exact .inr (.inr ⟨rfl, content, rfl, read⟩)
  rw [waited]
  exact .done fragment reached

/-- Text that is built inside more iterations renders to the same. -/
theorem render_corresponds {inIteration inIteration' : Bool} {text text' : TextPart}
    (built : Node.buildText occasion.cls occasion.converters inIteration source = .ok text)
    (built' : Node.buildText occasion.cls occasion.converters inIteration' source = .ok text')
    (deeper : inIteration = true → inIteration' = true)
    (spared : Text.Spared idle source.toList) (twin : left.Twin idle right)
    (outside : inIteration = false → left.loops = []) :
    Corresponding (Frames.Twin idle) ((text.render occasion).run left)
      ((text'.render occasion).run right) := by
  rcases Node.buildText_eq_ok.mp built with ⟨waits, rfl⟩ | ⟨early, content, fragment, read, rfl⟩
  · rcases Node.buildText_eq_ok.mp built' with ⟨_, rfl⟩ | ⟨early', content', _, _, rfl⟩
    · exact waiting_corresponds twin spared inIteration inIteration'
    · rcases waits with inside | blank
      · cases (deeper inside).symm.trans early'
      · cases blank.symm.trans content'
  · rcases Node.buildText_eq_ok.mp built' with ⟨_, rfl⟩ | ⟨_, _, _, read', rfl⟩
    · exact ready_corresponds twin (outside early) spared read content inIteration inIteration'
    · cases read.symm.trans read'
      exact .pure fragment twin

end TextPart

end DynamicSql
