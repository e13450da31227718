import DynamicSql.Proofs.Clauses.Pieces
import DynamicSql.Proofs.Rendering.Discipline

/-!
# Clauses of groups

A group with a text in front leaves out the first lead among the pieces of its
body, and no other one. Its marker is armed when it is entered; a tag with a lead
has a marker of its own and uses up the one around it; a tag without a lead has
none, so that what is inside it sees the marker of the group.
-/

namespace DynamicSql

open Rendering Piece

/-- Inside the tag with the given number and outside every loop, a rendering writes
    pieces: all of them, or all but the first lead if the marker of the tag is armed,
    which the lead uses up. -/
def WritesPieces (id : Nat) (pieces : List Piece) (rendering : Rendering Fragment) : Prop :=
  ∀ ⦃armed rest fragment after⦄,
    rendering.run ⟨⟨id, armed⟩ :: rest, []⟩ = .ok (fragment, after) →
      fragment.sql = join (left armed pieces) ∧
        after = ⟨⟨id, staysArmed armed pieces⟩ :: rest, []⟩

namespace WritesPieces

variable {id : Nat} {pieces others : List Piece} {first second : Rendering Fragment}

theorem nothing : WritesPieces id [] (pure {}) := by
  intro armed rest fragment after ran
  obtain ⟨rfl, rfl⟩ := run_pure_eq_ok.mp ran
  rw [left_nil, staysArmed_nil]
  exact ⟨rfl, rfl⟩

theorem append (front : WritesPieces id pieces first) (back : WritesPieces id others second) :
    WritesPieces id (pieces ++ others) (do return (← first) ++ (← second)) := by
  intro armed rest fragment after ran
  obtain ⟨_, _, ranFirst, more⟩ := run_bind_eq_ok.mp ran
  obtain ⟨_, _, ranSecond, last⟩ := run_bind_eq_ok.mp more
  obtain ⟨rfl, rfl⟩ := run_pure_eq_ok.mp last
  obtain ⟨frontSql, rfl⟩ := front ranFirst
  obtain ⟨backSql, rfl⟩ := back ranSecond
  rw [left_append, join_append, staysArmed_append, Fragment.sql_append, frontSql, backSql]
  exact ⟨rfl, rfl⟩

end WritesPieces

namespace Tag

variable {tag parent : Tag} {condition : Condition} {pieces : List Piece}

/-- A condition without a policy of its own, inside a tag without one, has a marker
    only if it has a text in front. -/
theorem marker?_conditional (conditional : tag.handler = .conditional condition)
    (noPolicy : tag.removeFirst = none) (noneAround : parent.removeFirst = none) :
    tag.marker? (some parent) = if tag.prepend.isSome then some false else none := by
  cases lead : tag.prepend <;>
    simp [marker?, conditional, noPolicy, noneAround, lead, Handler.isGroup]

theorem hasContent_wrap (tag : Tag) (text : String) :
    Text.hasContent (tag.wrap text) = Text.hasContent text := by
  unfold wrap
  split
  · next content =>
    rw [content]
    exact Text.hasContent_around content _ _
  · rfl

theorem wrap_blank {text : String} (blank : Text.hasContent text = false) :
    tag.wrap text = text := by
  simp [wrap, blank]

theorem wrap_join (covered : Covered pieces) (content : Text.hasContent (join pieces) = true)
    (armed : Bool) :
    tag.wrap (join (left armed pieces)) =
      join (left armed (between (tag.opening.getD "") (tag.closing.getD "") pieces)) := by
  rw [wrap, covered.hasContent_left, content, left_between, join_between, if_pos rfl]

/-- The text in front of a tag uses up the marker around that of the tag. -/
theorem prependTo_enclosed {lead text : String} (leads : tag.prepend = some lead)
    (content : Text.hasContent text = true) (own : Marker) (outer : Nat) (armed : Bool)
    (rest : List Marker) (loops : List Loop) :
    tag.prependTo (some parent) text ⟨own :: ⟨outer, armed⟩ :: rest, loops⟩ =
      (if armed then text else lead ++ text, ⟨own :: ⟨outer, false⟩ :: rest, loops⟩) := by
  cases armed <;> simp [prependTo, leads, content, Frames.takeEnclosing]

/-- Outside all tags nothing keeps the text in front of a tag away. -/
theorem prependTo_wrap (leads : tag.prepend.isSome) (text : String) (frames : Frames) :
    tag.prependTo none (tag.wrap text) frames = (tag.enclose text, frames) := by
  obtain ⟨lead, isLead⟩ := Option.isSome_iff_exists.mp leads
  rw [prependTo, isLead, enclose, isLead]
  dsimp only
  rw [tag.hasContent_wrap, wrap]
  cases Text.hasContent text with
  | false => rfl
  | true => simp [String.append_assoc]

theorem prependTo_blank {parent : Option Tag} {text : String}
    (blank : Text.hasContent text = false) (frames : Frames) :
    tag.prependTo parent text frames = (text, frames) := by
  unfold prependTo
  split <;> simp [blank]

section Conditional

variable {id outer : Nat} {body : Rendering Fragment} {occasion : Occasion} {armed : Bool}
  {rest : List Marker} {fragment : Fragment} {after : Frames}

/-- A tag without a lead dresses its pieces inside the marker around it. -/
theorem once_without_lead (without : tag.prepend = none) (covered : Covered pieces)
    (writes : WritesPieces outer pieces body) :
    WritesPieces outer (tag.dress pieces) (tag.once (some parent) body) := by
  intro armed rest fragment after ran
  obtain ⟨inner, _, ranBody, rfl, rfl⟩ := once_eq_ok.mp ran
  obtain ⟨sql, rfl⟩ := writes ranBody
  rw [prependTo_none without, sql]
  cases content : Text.hasContent (join pieces) with
  | false =>
    have blank : Text.hasContent (join (left armed pieces)) = false := by
      rw [covered.hasContent_left, content]
    rw [dress_blank content, wrap_blank blank]
    exact ⟨rfl, rfl⟩
  | true =>
    rw [dress_without_lead without content, wrap_join covered content, staysArmed_between]
    exact ⟨rfl, rfl⟩

/-- A tag with a lead uses up the marker around its own. -/
theorem once_with_lead {lead : String} (leads : tag.prepend = some lead)
    (covered : Covered pieces) (writes : WritesPieces id pieces body)
    (ran : (tag.once (some parent) body).run ⟨⟨id, false⟩ :: ⟨outer, armed⟩ :: rest, []⟩ =
      .ok (fragment, after)) :
    fragment.sql = join (left armed (tag.dress pieces)) ∧
      after = ⟨⟨id, false⟩ :: ⟨outer, staysArmed armed (tag.dress pieces)⟩ :: rest, []⟩ := by
  obtain ⟨inner, _, ranBody, rfl, rfl⟩ := once_eq_ok.mp ran
  obtain ⟨sql, rfl⟩ := writes ranBody
  rw [sql]
  cases content : Text.hasContent (join pieces) with
  | false =>
    -- Nothing is put in front of a blank body, and it holds no lead of another tag.
    have none := covered.noLead content
    have blank : Text.hasContent (join (left false pieces)) = false := content
    rw [dress_blank content, wrap_blank blank, prependTo_blank blank, left_of_noLead none]
    simp [staysArmed, none, left_of_noLead none]
  | true =>
    have opened : Text.hasContent (tag.wrap (join (left false pieces))) = true := by
      rw [tag.hasContent_wrap]
      exact content
    rw [dress_with_lead leads content, prependTo_enclosed leads opened,
      wrap_join covered content]
    cases armed with
    | false => exact ⟨rfl, rfl⟩
    | true => exact ⟨rfl, rfl⟩

/-- What a condition without a policy makes of its body, outside every loop. -/
theorem content_conditional (conditional : tag.handler = .conditional condition)
    {parent : Option Tag} {id : Nat} {frames : Frames} (outside : frames.loops = [])
    (ran : (tag.content occasion parent id body).run frames = .ok (fragment, after)) :
    if tag.appears occasion then (tag.once parent body).run frames = .ok (fragment, after)
    else fragment = {} ∧ after = frames := by
  rcases content_eq_ok.mp ran with
    ⟨group, -⟩ | ⟨_, same, holds, middle, decided, branch⟩ | ⟨iterate, -⟩
  · rw [conditional] at group
    cases group
  · obtain ⟨rfl, outcome⟩ := Occasion.decides_eq_ok.mp decided
    rw [Tag.located_outside outside] at outcome
    rw [Frames.decided_outside outside] at branch
    rw [appears_conditional same, outcome]
    rcases branch with ⟨rfl, once⟩ | ⟨rfl, rfl, rfl⟩
    · exact once
    · exact ⟨rfl, rfl⟩
  · rw [conditional] at iterate
    cases iterate

/-- A condition writes what its tag makes of its pieces, if it holds. -/
theorem around_conditional (conditional : tag.handler = .conditional condition)
    (noPolicy : tag.removeFirst = none) (noneAround : parent.removeFirst = none)
    (less : outer < id) (covered : Covered pieces) (within : WritesPieces id pieces body)
    (around : WritesPieces outer pieces body) :
    WritesPieces outer (if tag.appears occasion then tag.dress pieces else [])
      (tag.around occasion (some parent) id body) := by
  intro armed rest fragment after ran
  obtain ⟨last, ranContent, rfl⟩ := around_eq_ok.mp ran
  rw [marker?_conditional conditional noPolicy noneAround] at ranContent
  have inside (armed : Bool) : (⟨⟨outer, armed⟩ :: rest, []⟩ : Frames).Below id :=
    (Frames.below_of_own ⟨armed, rest, rfl⟩).mono less
  cases leads : tag.prepend with
  | none =>
    -- The innermost marker is still that of the tag around, so leaving takes none away.
    rw [leads] at ranContent
    have made := content_conditional conditional rfl ranContent
    revert made
    cases tag.appears occasion with
    | true =>
      intro once
      obtain ⟨sql, rfl⟩ := once_without_lead leads covered around once
      exact ⟨sql, Frames.popMarker_of_below (inside _)⟩
    | false =>
      rintro ⟨rfl, rfl⟩
      rw [if_neg Bool.false_ne_true, left_nil, staysArmed_nil]
      exact ⟨rfl, Frames.popMarker_of_below (inside armed)⟩
  | some lead =>
    rw [leads] at ranContent
    have made := content_conditional conditional rfl ranContent
    revert made
    cases tag.appears occasion with
    | true =>
      intro once
      obtain ⟨sql, rfl⟩ := once_with_lead leads covered within once
      exact ⟨sql, Frames.popMarker_own id false _ _⟩
    | false =>
      rintro ⟨rfl, rfl⟩
      rw [if_neg Bool.false_ne_true, left_nil, staysArmed_nil]
      exact ⟨rfl, Frames.popMarker_own id false _ _⟩

end Conditional

/-- A condition that leaves it to the tags around it whether its lead is left out. -/
structure Plain (tag : Tag) : Prop where
  conditional : ∃ condition, tag.handler = .conditional condition
  noPolicy : tag.removeFirst = none

end Tag

namespace Node

variable {cls : ParameterClass} {building : Converters} {occasion : Occasion}

/-- Text outside iterations is read when it is built. -/
theorem render_of_buildText {source : String} {content : TextPart} {fragment : Fragment}
    {frames after : Frames} (built : buildText cls building false source = .ok content)
    (ran : (content.render occasion).run frames = .ok (fragment, after)) :
    fragment.sql = written cls building source ∧ after = frames := by
  unfold buildText at built
  rw [written]
  cases known : Text.hasContent source with
  | false =>
    rw [known] at built
    cases built
    rcases TextPart.render_eq_ok.mp ran with ⟨ready, -⟩ | ⟨-, -, rfl, rfl⟩ | ⟨-, content, -⟩
    · cases ready
    · exact ⟨rfl, rfl⟩
    · exact absurd known (by simp [content])
  | true =>
    rw [known] at built
    obtain ⟨read, parsed, last⟩ := bind_eq_ok_iff.mp built
    cases last
    rw [parsed]
    rcases TextPart.render_eq_ok.mp ran with ⟨ready, rfl⟩ | ⟨missing, -⟩ | ⟨missing, -⟩
    · cases ready
      exact ⟨rfl, rfl⟩
    · cases missing
    · cases missing

mutual

/-- A node of plain conditions writes its pieces. -/
theorem writes_render {parent : Tag} {outer id : Nat} {part : Part}
    (noneAround : parent.removeFirst = none) (less : outer < id) :
    ∀ node : Node, node.Each (fun _ => True) Tag.Plain →
      node.build cls building false id = .ok part →
        WritesPieces outer (node.pieces cls building occasion)
          (part.render occasion (some parent))
  | .text source, _, built => by
    obtain ⟨content, read, last⟩ := bind_eq_ok_iff.mp built
    cases last
    intro armed rest fragment after ran
    rw [Part.render] at ran
    obtain ⟨sql, rfl⟩ := render_of_buildText read ran
    rw [pieces, left_text, left_nil, join_text, staysArmed_text, staysArmed_nil]
    exact ⟨sql, rfl⟩
  | .tag t body, plain, built => by
    obtain ⟨_, _, more⟩ := bind_eq_ok_iff.mp built
    obtain ⟨parts, inner, last⟩ := bind_eq_ok_iff.mp more
    cases last
    obtain ⟨⟨⟨condition, conditional⟩, noPolicy⟩, plainBody⟩ := plain
    rw [conditional] at inner
    rw [Part.render, pieces]
    exact Tag.around_conditional conditional noPolicy noneAround less (covered_piecesOf _ _ _ body)
      (writes_renderAll noPolicy (Nat.lt_succ_self id) body plainBody inner)
      (writes_renderAll noPolicy (Nat.lt_succ_of_lt less) body plainBody inner)

theorem writes_renderAll {parent : Tag} {outer id : Nat} {parts : List Part}
    (noneAround : parent.removeFirst = none) (less : outer < id) :
    ∀ nodes : List Node, EachOf (fun _ => True) Tag.Plain nodes →
      buildAll cls building false id nodes = .ok parts →
        WritesPieces outer (piecesOf cls building occasion nodes)
          (Part.renderAll occasion (some parent) parts)
  | [], _, built => by
    cases built
    rw [Part.renderAll]
    exact .nothing
  | node :: rest, plain, built => by
    obtain ⟨_, first, more⟩ := bind_eq_ok_iff.mp built
    obtain ⟨_, others, last⟩ := bind_eq_ok_iff.mp more
    cases last
    rw [Part.renderAll]
    exact (writes_render noneAround less node plain.1 first).append
      (writes_renderAll noneAround (Nat.lt_of_lt_of_le less (Nat.le_add_right id node.size)) rest
        plain.2 others)

end

end Node

namespace Tag

variable {group : Tag} {cls : ParameterClass} {building : Converters} {occasion : Occasion}

/-- A group with a text in front encloses the clause of its body. -/
theorem render_group (isGroup : group.handler = .group) (leads : group.prepend.isSome)
    (noPolicy : group.removeFirst = none) {body : List Node}
    (plain : Node.EachOf (fun _ => True) Tag.Plain body) {id : Nat} {part : Part}
    (built : (Node.tag group body).build cls building false id = .ok part) {fragment : Fragment}
    {after : Frames} (ran : (part.render occasion none).run {} = .ok (fragment, after)) :
    fragment.sql = group.enclose (Node.clause cls building occasion body) := by
  obtain ⟨_, _, more⟩ := bind_eq_ok_iff.mp built
  obtain ⟨parts, inner, last⟩ := bind_eq_ok_iff.mp more
  cases last
  rw [isGroup] at inner
  have writes : WritesPieces id (Node.piecesOf cls building occasion body)
      (Part.renderAll occasion (some group) parts) :=
    Node.writes_renderAll noPolicy (Nat.lt_succ_self id) body plain inner
  rw [Part.render] at ran
  obtain ⟨_, ranContent, -⟩ := around_eq_ok.mp ran
  have armed : group.marker? none = some true := by
    simp [marker?, isGroup, noPolicy, leads, Handler.isGroup]
  rw [armed, content, isGroup] at ranContent
  obtain ⟨_, _, ranBody, rfl, -⟩ := once_eq_ok.mp ranContent
  obtain ⟨sql, rfl⟩ := writes ranBody
  rw [prependTo_wrap leads, sql]
  rfl

end Tag

namespace Template

/-- The statement of a template holds, in the place of every group outside all tags that has
    a text in front, the clause of its body, enclosed if it has content: of all the leads in
    it just the first one is left out. -/
theorem group_drops_first_lead {draft : Draft} {building converters : Converters}
    {template : Template} {before after body : List Node} {group : Tag}
    (built : draft.build building = .ok template)
    (nodes : draft.nodes = before ++ .tag group body :: after)
    (isGroup : group.handler = .group) (leads : group.prepend.isSome)
    (noPolicy : group.removeFirst = none) (plain : Node.EachOf (fun _ => True) Tag.Plain body)
    {param : Value} {statement : Fragment}
    (rendered : template.render converters param = .ok statement) :
    ∃ part front piece behind,
      template.parts[before.length]? = some part ∧
      (part.render (template.occasion converters param) none).run {} = .ok (piece, {}) ∧
      substitute param template.cls (front ++ (piece ++ behind)).sql = .ok statement.sql ∧
      piece.sql = group.enclose
        (Node.clause draft.cls building (template.occasion converters param) body) := by
  obtain ⟨parts, builtParts, last⟩ := bind_eq_ok_iff.mp built
  cases last
  obtain ⟨_, _, ran, replaced, -⟩ := render_eq_ok.mp rendered
  rw [nodes] at builtParts
  obtain ⟨frontParts, _, builtFront, builtBack, rfl⟩ := Node.buildAll_append_eq_ok.mp builtParts
  obtain ⟨part, builtPart, more⟩ := bind_eq_ok_iff.mp builtBack
  obtain ⟨behindParts, _, last⟩ := bind_eq_ok_iff.mp more
  cases last
  obtain ⟨front, _, _, ranFront, ranBack, rfl⟩ := Part.renderAll_append_eq_ok.mp ran
  obtain rfl := Part.renderAll_outside (Node.numberedAll_of_buildAll _ builtFront) ranFront
  obtain ⟨piece, next, behind, ranPart, ranBehind, rfl⟩ := Part.renderAll_cons_eq_ok.mp ranBack
  have alone : Part.NumberedAll _ [part] := ⟨Node.numbered_of_build _ builtPart, trivial⟩
  obtain rfl := Part.renderAll_outside alone (Part.renderAll_singleton_eq_ok.mpr ranPart)
  have position : (frontParts ++ part :: behindParts)[before.length]? = some part := by
    rw [← Node.length_of_buildAll builtFront]
    simp
  exact ⟨part, front, piece, behind, position, ranPart, replaced,
    Tag.render_group isGroup leads noPolicy plain builtPart ranPart⟩

/-- A condition that fails, and two that hold inside one without a lead. -/
theorem group_drops_first_lead_inside_condition :
    let lead (condition : Condition) : Tag :=
      { handler := .conditional condition, property := some "a", prepend := some "AND " }
    let wrapper : Tag :=
      { handler := .conditional .isParameterPresent, opening := some "(", closing := some ")" }
    let group : Tag := { handler := .group, prepend := some "WHERE " }
    let body : List Node :=
      [.tag (lead .isNull) [.text "w"],
        .tag wrapper [.tag (lead .isNotNull) [.text "x "], .tag (lead .isNotNull) [.text "y"]]]
    let draft : Draft := { id := "q", nodes := [.text "DELETE FROM t ", .tag group body] }
    let param : Value := .object [("a", .bool true)]
    ∃ template part piece, draft.build ({} : Registry) = .ok template ∧
      template.render ({} : Registry) param = .ok ⟨"DELETE FROM t WHERE (x AND y)", []⟩ ∧
      template.parts[1]? = some part ∧
      (part.render (template.occasion ({} : Registry) param) none).run {} = .ok (piece, {}) ∧
      piece.sql = "WHERE (x AND y)" := by
  intro lead wrapper group body draft param
  let text (source : String) : TextPart := ⟨source, false, some ⟨source, []⟩⟩
  let template : Template :=
    { id := "q", cls := .unknown,
      parts := [.text 0 (text "DELETE FROM t "),
        .tag 1 group [.tag 2 (lead .isNull) [.text 3 (text "w")],
          .tag 4 wrapper [.tag 5 (lead .isNotNull) [.text 6 (text "x ")],
            .tag 7 (lead .isNotNull) [.text 8 (text "y")]]]] }
  have built : draft.build ({} : Registry) = .ok template := by rfl
  have plain : Node.EachOf (fun _ => True) Tag.Plain body :=
    ⟨⟨⟨⟨_, rfl⟩, rfl⟩, trivial, trivial⟩,
      ⟨⟨⟨_, rfl⟩, rfl⟩, ⟨⟨⟨_, rfl⟩, rfl⟩, trivial, trivial⟩, ⟨⟨⟨_, rfl⟩, rfl⟩, trivial, trivial⟩,
        trivial⟩, trivial⟩
  have rendered : template.render ({} : Registry) param =
      .ok ⟨"DELETE FROM t WHERE (x AND y)", []⟩ := by
    apply eq_ok_of_toOption
    dsimp only [template, param, text, lead, wrapper, group]
    decide +kernel
  have nodes : draft.nodes = [.text "DELETE FROM t "] ++ .tag group body :: [] := rfl
  obtain ⟨part, _, piece, _, position, ran, -, sql⟩ :=
    group_drops_first_lead built nodes rfl rfl rfl plain rendered
  refine ⟨template, part, piece, built, rendered, position, ran, sql.trans ?_⟩
  dsimp only [template, param, text, lead, wrapper, group, body, draft]
  decide +kernel

end Template

end DynamicSql
