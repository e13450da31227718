import DynamicSql.Proofs.Iteration.Splicing
import DynamicSql.Proofs.Rendering.Conditions

/-!
# The pieces of a clause

Outside iterations nodes contribute a row of pieces in the order of writing: the
texts, and what the tags that appear put around their bodies. A piece that stands
in front of a tag is a lead. It always has content behind it, so whether pieces
have content does not depend on their leads.
-/

namespace DynamicSql

/-- A piece of a clause. -/
inductive Piece where
  | text (source : String)
  /-- The text in front of a tag. -/
  | lead (source : String)
  deriving DecidableEq, Repr

namespace Piece

variable {pieces others : List Piece} {armed : Bool}

def source : Piece → String
  | text source => source
  | lead source => source

def isLead : Piece → Bool
  | text _ => false
  | lead _ => true

/-- The text of pieces in a row. -/
def join : List Piece → String
  | [] => ""
  | piece :: rest => piece.source ++ join rest

/-- Pieces between two texts. -/
def between (before after : String) (pieces : List Piece) : List Piece :=
  text before :: (pieces ++ [text after])

/-- What is left of pieces inside a marker: if it is armed, all but the first lead. -/
def left (armed : Bool) (pieces : List Piece) : List Piece :=
  if armed then pieces.eraseP isLead else pieces

/-- The marker around pieces is still armed behind them. -/
def staysArmed (armed : Bool) (pieces : List Piece) : Bool :=
  armed && ! pieces.any isLead

/-- Every lead has content behind it. -/
def Covered : List Piece → Prop
  | [] => True
  | text _ :: rest => Covered rest
  | lead _ :: rest => Text.hasContent (join rest) = true ∧ Covered rest

theorem join_text (source : String) : join [text source] = source :=
  String.append_empty

theorem join_append (pieces others : List Piece) :
    join (pieces ++ others) = join pieces ++ join others := by
  induction pieces with
  | nil => simp [join]
  | cons piece rest ih => simp [join, ih, String.append_assoc]

theorem join_between (before after : String) (pieces : List Piece) :
    join (between before after pieces) = before ++ join pieces ++ after := by
  simp [between, join, join_append, source, String.append_assoc]

theorem hasContent_between (content : Text.hasContent (join pieces) = true)
    (before after : String) : Text.hasContent (join (between before after pieces)) = true := by
  rw [join_between]
  exact Text.hasContent_around content before after

@[simp]
theorem left_nil (armed : Bool) : left armed [] = [] := by
  cases armed <;> rfl

@[simp]
theorem staysArmed_nil (armed : Bool) : staysArmed armed [] = armed := by
  cases armed <;> rfl

theorem left_text (armed : Bool) (source : String) (rest : List Piece) :
    left armed (text source :: rest) = text source :: left armed rest := by
  cases armed <;> rfl

theorem staysArmed_text (armed : Bool) (source : String) (rest : List Piece) :
    staysArmed armed (text source :: rest) = staysArmed armed rest := by
  simp [staysArmed, isLead]

theorem left_append (armed : Bool) (pieces others : List Piece) :
    left armed (pieces ++ others) = left armed pieces ++ left (staysArmed armed pieces) others := by
  cases armed with
  | false => rfl
  | true =>
    cases found : pieces.any isLead with
    | true =>
      obtain ⟨lead, member, isLead⟩ := List.any_eq_true.mp found
      simp [left, staysArmed, found, List.eraseP_append_left isLead others member]
    | false =>
      have none : ∀ piece ∈ pieces, ¬ piece.isLead = true := List.any_eq_false.mp found
      simp [left, staysArmed, found, List.eraseP_append_right others none,
        List.eraseP_of_forall_not none]

theorem left_between (armed : Bool) (before after : String) (pieces : List Piece) :
    left armed (between before after pieces) = between before after (left armed pieces) := by
  rw [between, left_text, left_append, left_text, left_nil, between]

theorem left_of_noLead (none : pieces.any isLead = false) : left armed pieces = pieces := by
  cases armed with
  | false => rfl
  | true => exact List.eraseP_of_forall_not (List.any_eq_false.mp none)

theorem staysArmed_append (armed : Bool) (pieces others : List Piece) :
    staysArmed armed (pieces ++ others) = staysArmed (staysArmed armed pieces) others := by
  simp [staysArmed, Bool.and_assoc]

theorem staysArmed_between (armed : Bool) (before after : String) (pieces : List Piece) :
    staysArmed armed (between before after pieces) = staysArmed armed pieces := by
  simp [staysArmed, between, isLead]

theorem Covered.append (first : Covered pieces) (second : Covered others) :
    Covered (pieces ++ others) := by
  induction pieces with
  | nil => exact second
  | cons piece rest ih =>
    cases piece with
    | text source => exact ih first
    | lead source =>
      have content : Text.hasContent (join (rest ++ others)) = true := by
        rw [join_append, Text.hasContent_append, first.1, Bool.true_or]
      exact ⟨content, ih first.2⟩

theorem Covered.between (covered : Covered pieces) (before after : String) :
    Covered (between before after pieces) :=
  covered.append trivial

/-- Pieces without content hold no lead. -/
theorem Covered.noLead (covered : Covered pieces)
    (blank : Text.hasContent (join pieces) = false) : pieces.any isLead = false := by
  induction pieces with
  | nil => rfl
  | cons piece rest ih =>
    rw [join, Text.hasContent_append, Bool.or_eq_false_iff] at blank
    cases piece with
    | text source => exact ih covered blank.2
    | lead source => exact absurd covered.1 (by simp [blank.2])

/-- Without a lead the pieces have content just if they have it with all leads. -/
theorem Covered.hasContent_left (covered : Covered pieces) :
    Text.hasContent (join (left armed pieces)) = Text.hasContent (join pieces) := by
  induction pieces with
  | nil => cases armed <;> rfl
  | cons piece rest ih =>
    cases piece with
    | text source =>
      rw [left_text, join, join, Text.hasContent_append, Text.hasContent_append, ih covered]
    | lead source =>
      cases armed with
      | false => rfl
      | true =>
        have content : Text.hasContent (join (lead source :: rest)) = true := by
          rw [join, Text.hasContent_append, covered.1, Bool.or_true]
        rw [content]
        exact covered.1

end Piece

open Piece

namespace Tag

/-- Puts all that a tag has around text, if the text has content. -/
def enclose (tag : Tag) (text : String) : String :=
  if Text.hasContent text then
    tag.prepend.getD "" ++ tag.opening.getD "" ++ text ++ tag.closing.getD ""
  else text

/-- What a tag that appears makes of its body. -/
def dress (tag : Tag) (body : List Piece) : List Piece :=
  if Text.hasContent (join body) then
    (tag.prepend.map Piece.lead).toList ++
      between (tag.opening.getD "") (tag.closing.getD "") body
  else body

theorem dress_blank {tag : Tag} {body : List Piece}
    (blank : Text.hasContent (join body) = false) : tag.dress body = body := by
  simp [dress, blank]

theorem dress_without_lead {tag : Tag} {body : List Piece} (without : tag.prepend = none)
    (content : Text.hasContent (join body) = true) :
    tag.dress body = between (tag.opening.getD "") (tag.closing.getD "") body := by
  simp [dress, without, content]

theorem dress_with_lead {tag : Tag} {body : List Piece} {lead : String}
    (leads : tag.prepend = some lead) (content : Text.hasContent (join body) = true) :
    tag.dress body =
      Piece.lead lead :: between (tag.opening.getD "") (tag.closing.getD "") body := by
  simp [dress, leads, content]

/-- A tag has no condition, or its condition holds outside every loop. -/
def appears (tag : Tag) (occasion : Occasion) : Bool :=
  match tag.handler with
  | .conditional condition => occasion.outcome? condition tag == some true
  | _ => true

theorem appears_conditional {tag : Tag} {occasion : Occasion} {condition : Condition}
    (conditional : tag.handler = .conditional condition) :
    tag.appears occasion = (occasion.outcome? condition tag == some true) := by
  rw [appears, conditional]

theorem covered_dress (tag : Tag) {body : List Piece} (covered : Covered body) :
    Covered (tag.dress body) := by
  cases content : Text.hasContent (join body) with
  | false =>
    rw [dress_blank content]
    exact covered
  | true =>
    have inner := covered.between (tag.opening.getD "") (tag.closing.getD "")
    cases leads : tag.prepend with
    | none =>
      rw [dress_without_lead leads content]
      exact inner
    | some lead =>
      rw [dress_with_lead leads content]
      exact ⟨hasContent_between content _ _, inner⟩

end Tag

namespace Node

/-- What text contributes outside iterations. -/
def written (cls : ParameterClass) (building : Converters) (source : String) : String :=
  if Text.hasContent source then
    ((Fragment.parse cls building source).toOption.map Fragment.sql).getD ""
  else source

section Pieces

variable (cls : ParameterClass) (building : Converters) (occasion : Occasion)

mutual

/-- The pieces of a node. -/
def pieces : Node → List Piece
  | .text source => [.text (written cls building source)]
  | .tag t body => if t.appears occasion then t.dress (piecesOf body) else []

/-- The pieces of some nodes, in the order of writing. -/
def piecesOf : List Node → List Piece
  | [] => []
  | node :: rest => node.pieces ++ piecesOf rest

end

/-- The text of some nodes inside an armed marker: all of their pieces but the first lead. -/
def clause (nodes : List Node) : String :=
  join ((piecesOf cls building occasion nodes).eraseP isLead)

mutual

theorem covered_pieces : ∀ node : Node, Covered (node.pieces cls building occasion)
  | .text _ => trivial
  | .tag t body => by
    rw [pieces]
    split
    · exact t.covered_dress (covered_piecesOf body)
    · trivial

theorem covered_piecesOf : ∀ nodes : List Node, Covered (piecesOf cls building occasion nodes)
  | [] => trivial
  | node :: rest => (covered_pieces node).append (covered_piecesOf rest)

end

end Pieces

end Node

end DynamicSql
