import DynamicSql.Proofs.Correspondence.Templates
import DynamicSql.Proofs.Independence.Values

/-!
# Templates one after the other

A template that goes on where another one ends renders to both statements in a row.
The nodes in front leave no marker, no loop and no index behind, so those that follow
render as they do alone; only their numbers are others.
-/

namespace DynamicSql

open Rendering

theorem Node.eachOf_append {text : String → Prop} {tag : Tag → Prop} :
    ∀ {nodes others : List Node}, EachOf text tag nodes → EachOf text tag others →
      EachOf text tag (nodes ++ others)
  | [], _, _, each' => each'
  | _ :: _, _, each, each' => ⟨each.1, eachOf_append each.2 each'⟩

mutual

/-- If no loop is idle, there is nothing to spare. -/
theorem Node.spared_of_none : ∀ node : Node,
    node.Each (fun source => Text.Spared (fun _ => False) source.toList)
      (Tag.Spared fun _ => False)
  | .text source => Text.spared_of_none source.toList
  | .tag _ body =>
    ⟨⟨fun _ _ => Text.spared_of_none _, fun _ _ => Text.spared_of_none _⟩,
      sparedOf_of_none body⟩

theorem Node.sparedOf_of_none : ∀ nodes : List Node, Node.SparedOf (fun _ => False) nodes
  | [] => trivial
  | node :: rest => ⟨spared_of_none node, sparedOf_of_none rest⟩

end

/-- Two rows of parts are rendered one after the other, also if one of them fails. -/
theorem Part.renderAll_append (occasion : Occasion) (parent : Option Tag)
    (parts others : List Part) :
    renderAll occasion parent (parts ++ others) = (do
      let front ← renderAll occasion parent parts
      return front ++ (← renderAll occasion parent others)) := by
  induction parts with
  | nil => simp only [List.nil_append, renderAll, pure_bind, Fragment.empty_append, bind_pure]
  | cons part rest ih =>
    simp only [List.cons_append, renderAll, ih, bind_assoc, pure_bind, Fragment.append_assoc]

/-- Behind parts outside every tag and loop others render as they do alone. -/
theorem Part.assemble_append (occasion : Occasion) {least : Nat} {parts : List Part}
    (numbered : NumberedAll least parts) (others : List Part) :
    assemble occasion (parts ++ others) = (do
      let front ← assemble occasion parts
      return front ++ (← assemble occasion others)) := by
  rw [assemble, renderAll_append, run'_bind, assemble, StateT.run'_eq]
  cases ran : (renderAll occasion none parts).run {} with
  | error e => rfl
  | ok outcome =>
    obtain ⟨front, after⟩ := outcome
    have began : after = {} := renderAll_outside numbered ran
    subst began
    exact run'_bind_pure (renderAll occasion none others) (front ++ ·) {}

namespace Template

variable {draft other : Draft} {building converters : Converters}
  {template first second : Template}

/-- Without dollar signs a template fails or succeeds as its parts do. -/
theorem render_of_noDollar (built : draft.build building = .ok template)
    (noDollar : Node.EachOf Text.NoDollar (Tag.CleanGlue Text.NoDollar) draft.nodes)
    (param : Value) :
    template.render converters param =
      Part.assemble (template.occasion converters param) template.parts := by
  cases ran : (Part.renderAll (template.occasion converters param) none template.parts).run {} with
  | error e =>
    rw [render_eq_assemble, Part.assemble, StateT.run'_eq, ran]
    rfl
  | ok outcome =>
    rw [(render_eq_ok_of_noDollar built noDollar).mpr ⟨outcome.2, ran⟩, Part.assemble,
      StateT.run'_eq, ran]
    rfl

/-- Nodes behind others render as they do alone: the fault of the nodes in front is that of
    the whole, otherwise the fault of those behind is, and otherwise both fragments stand in
    a row. Behind the nodes in front the frames are those of the beginning. -/
theorem render_add (sameClass : other.cls = draft.cls)
    (built : draft.build converters = .ok first) (built' : other.build converters = .ok second)
    (noDollar : Node.EachOf Text.NoDollar (Tag.CleanGlue Text.NoDollar) draft.nodes)
    (noDollar' : Node.EachOf Text.NoDollar (Tag.CleanGlue Text.NoDollar) other.nodes) :
    ∃ whole, (draft.add other.nodes).build converters = .ok whole ∧
      (∀ param, whole.render converters param = (do
        let front ← first.render converters param
        let behind ← second.render converters param
        return front ++ behind)) ∧
      ∃ behind, whole.parts = first.parts ++ behind ∧ ∀ param fragment after,
        (Part.renderAll (whole.occasion converters param) none first.parts).run {} =
          .ok (fragment, after) → after = {} := by
  obtain ⟨id, _, nodes⟩ := draft
  obtain ⟨id', cls, others⟩ := other
  dsimp only at sameClass noDollar noDollar'
  subst sameClass
  obtain ⟨front, builtFront, last⟩ := bind_eq_ok_iff.mp built
  obtain ⟨alone, builtAlone, last'⟩ := bind_eq_ok_iff.mp built'
  cases last
  cases last'
  obtain ⟨behind, builtBehind⟩ :=
    Node.exists_buildAll (fun inside => inside) (0 + Node.sizes nodes) others builtAlone
  have builtParts := Node.buildAll_append_eq_ok.mpr ⟨front, behind, builtFront, builtBehind, rfl⟩
  have builtWhole : (Draft.add ⟨id, cls, nodes⟩ others).build converters =
      .ok ⟨id, cls, front ++ behind⟩ := bind_eq_ok_iff.mpr ⟨_, builtParts, rfl⟩
  have numbered := Node.numberedAll_of_buildAll nodes builtFront
  refine ⟨_, builtWhole, fun param => ?_, behind, rfl, fun param fragment after ran =>
    Part.renderAll_outside numbered ran⟩
  -- The nodes behind are built with greater numbers than alone, which does not matter.
  let surroundings : Occasion := { cls, converters, param }
  have meet : Frames.Meet (fun _ => False) 0 (0 + Node.sizes nodes) false {} {} :=
    ⟨.outside _ [], by simp [Frames.Below], by simp [Frames.Below], fun _ => rfl⟩
  have same : Part.assemble surroundings alone = Part.assemble surroundings behind :=
    (Node.renderAll_corresponds (fun inside => inside) others (Node.sparedOf_of_none others)
      builtAlone builtBehind meet (.inl rfl)).run'
  rw [render_of_noDollar builtWhole (Node.eachOf_append noDollar noDollar'),
    render_of_noDollar built noDollar, render_of_noDollar built' noDollar']
  show Part.assemble surroundings (front ++ behind) = (do
    let front ← Part.assemble surroundings front
    let behind ← Part.assemble surroundings alone
    return front ++ behind)
  rw [same, Part.assemble_append surroundings numbered]

/-- A list of numbers, and a name behind it. If there is no list, its fault is that of the
    whole. -/
theorem render_add_of_list :
    let ids : Tag := { Tag.iterate "ids" with conjunction := some " OR " }
    let named : Tag := { Tag.conditional .isNotNull "name" with prepend := some " AND " }
    let draft : Draft :=
      { id := "q", nodes := [.text "SELECT id FROM t WHERE ", .tag ids [.text "id = #ids[]#"]] }
    let other : Draft := { id := "r", nodes := [.tag named [.text "name = #name#"]] }
    let list (items : Value) : Value := .object [("ids", items), ("name", .string "Ann")]
    ∃ whole, (draft.add other.nodes).build ({} : Registry) = .ok whole ∧
      (whole.render ({} : Registry) (list (.array [.string "1", .string "2"]))).map Fragment.sql =
        .ok "SELECT id FROM t WHERE id = ? OR id = ? AND name = ?" ∧
      whole.render ({} : Registry) (list .null) =
        .error (.binding "ids" "unknown" (.notACollection "null")) := by
  intro ids named draft other list
  let template : Template :=
    { id := "q", cls := .unknown,
      parts := [.text 0 ⟨"SELECT id FROM t WHERE ", false, some ⟨"SELECT id FROM t WHERE ", []⟩⟩,
        .tag 1 ids [.text 2 ⟨"id = #ids[]#", true, none⟩]] }
  let behind : Template :=
    { id := "r", cls := .unknown,
      parts := [.tag 0 named [.text 1 ⟨"name = #name#", false, some ⟨"name = ?",
        [{ property := "name", converter := ⟨"unknown", .unknown, none⟩ }]⟩⟩]] }
  have built : draft.build ({} : Registry) = .ok template := by rfl
  have built' : other.build ({} : Registry) = .ok behind := by rfl
  have noDollar : Node.EachOf Text.NoDollar (Tag.CleanGlue Text.NoDollar) draft.nodes := by
    simp [draft, ids, Tag.iterate, Node.EachOf, Node.Each, Text.NoDollar, Tag.CleanGlue, Tag.glue]
  have noDollar' : Node.EachOf Text.NoDollar (Tag.CleanGlue Text.NoDollar) other.nodes := by
    simp [other, named, Tag.conditional, Node.EachOf, Node.Each, Text.NoDollar, Tag.CleanGlue,
      Tag.glue]
  obtain ⟨whole, builtWhole, rendered, -⟩ := render_add (by rfl) built built' noDollar noDollar'
  refine ⟨whole, builtWhole, ?_, ?_⟩
  · rw [rendered]
    dsimp only [template, behind, list, ids, named]
    decide +kernel
  · rw [rendered]
    dsimp only [template, behind, list, ids, named]
    decide +kernel

end Template

end DynamicSql
