import DynamicSql.Proofs.Correspondence.Tags

/-!
# Nodes built twice

Nodes that are built with other numbers, or inside one more iteration, are built into
parts that render to the same.
-/

namespace DynamicSql

open Rendering

theorem Tag.SameOutside.kept {parent parent' : Option Tag} {frames after : Frames}
    (outside : SameOutside parent parent' frames) (kept : frames.Kept after) :
    SameOutside parent parent' after := by
  rcases outside with same | ⟨none, disarmed, off⟩
  · exact .inl same
  · exact .inr ⟨none, kept.disarmed disarmed, off⟩

namespace Node

variable {cls : ParameterClass} {converters : Converters}

theorem exists_buildText {inIteration inIteration' : Bool} {source : String} {text : TextPart}
    (deeper : inIteration = true → inIteration' = true)
    (built : buildText cls converters inIteration source = .ok text) :
    ∃ text', buildText cls converters inIteration' source = .ok text' := by
  cases inside : inIteration' with
  | true => exact ⟨_, buildText_eq_ok.mpr (.inl ⟨.inl rfl, rfl⟩)⟩
  | false =>
    rcases buildText_eq_ok.mp built with ⟨waits | blank, -⟩ | ⟨-, content, fragment, read, -⟩
    · cases (deeper waits).symm.trans inside
    · exact ⟨_, buildText_eq_ok.mpr (.inl ⟨.inr blank, rfl⟩)⟩
    · exact ⟨_, buildText_eq_ok.mpr (.inr ⟨rfl, content, fragment, read, rfl⟩)⟩

/-- The body of a tag is as deep in iterations as the tag, or deeper. -/
theorem deeper_body {inIteration inIteration' : Bool}
    (deeper : inIteration = true → inIteration' = true) (t : Tag) :
    (inIteration || t.handler == .iterate) = true →
      (inIteration' || t.handler == .iterate) = true := by
  simp only [Bool.or_eq_true]
  exact Or.imp_left deeper

mutual

/-- What can be built can be built with any number, and inside an iteration too. -/
theorem exists_build {inIteration inIteration' : Bool} {id : Nat} {part : Part}
    (deeper : inIteration = true → inIteration' = true) (id' : Nat) : ∀ node : Node,
    node.build cls converters inIteration id = .ok part →
      ∃ part', node.build cls converters inIteration' id' = .ok part'
  | .text source, built => by
    obtain ⟨_, read, -⟩ := bind_eq_ok_iff.mp built
    obtain ⟨text, read'⟩ := exists_buildText deeper read
    exact ⟨.text id' text, bind_eq_ok_iff.mpr ⟨text, read', rfl⟩⟩
  | .tag t body, built => by
    obtain ⟨_, valid, rest⟩ := bind_eq_ok_iff.mp built
    obtain ⟨_, inner, -⟩ := bind_eq_ok_iff.mp rest
    obtain ⟨parts, inner'⟩ := exists_buildAll (deeper_body deeper t) (id' + 1) body inner
    exact ⟨.tag id' t parts, bind_eq_ok_iff.mpr ⟨_, valid, bind_eq_ok_iff.mpr
      ⟨parts, inner', rfl⟩⟩⟩

theorem exists_buildAll {inIteration inIteration' : Bool} {id : Nat} {parts : List Part}
    (deeper : inIteration = true → inIteration' = true) (id' : Nat) : ∀ nodes : List Node,
    buildAll cls converters inIteration id nodes = .ok parts →
      ∃ parts', buildAll cls converters inIteration' id' nodes = .ok parts'
  | [], _ => ⟨[], rfl⟩
  | node :: rest, built => by
    obtain ⟨_, first, more⟩ := bind_eq_ok_iff.mp built
    obtain ⟨_, others, -⟩ := bind_eq_ok_iff.mp more
    obtain ⟨part, first'⟩ := exists_build deeper id' node first
    obtain ⟨parts, others'⟩ := exists_buildAll deeper (id' + node.size) rest others
    exact ⟨part :: parts, bind_eq_ok_iff.mpr ⟨part, first', bind_eq_ok_iff.mpr
      ⟨parts, others', rfl⟩⟩⟩

end

mutual

theorem Each.mono {text text' : String → Prop} {tag tag' : Tag → Prop}
    (texts : ∀ source, text source → text' source) (tags : ∀ t, tag t → tag' t) :
    ∀ {node : Node}, node.Each text tag → node.Each text' tag'
  | .text source, each => texts source each
  | .tag t _, each => ⟨tags t each.1, EachOf.mono texts tags each.2⟩

/-- Weaker conditions on the texts and the tags of some nodes. -/
theorem EachOf.mono {text text' : String → Prop} {tag tag' : Tag → Prop}
    (texts : ∀ source, text source → text' source) (tags : ∀ t, tag t → tag' t) :
    ∀ {nodes : List Node}, EachOf text tag nodes → EachOf text' tag' nodes
  | [], _ => trivial
  | _ :: _, each => ⟨Each.mono texts tags each.1, EachOf.mono texts tags each.2⟩

end

variable {idle : String → Prop} {occasion : Occasion}

/-- Idle loops put nothing into the texts and the properties of some nodes. -/
def SparedOf (idle : String → Prop) (nodes : List Node) : Prop :=
  EachOf (fun source => Text.Spared idle source.toList) (Tag.Spared idle) nodes

mutual

/-- A node that is built twice renders to the same in both surroundings. -/
theorem render_corresponds {inIteration inIteration' : Bool} {id id' : Nat} {part part' : Part}
    {parent parent' : Option Tag} {left right : Frames}
    (deeper : inIteration = true → inIteration' = true) : ∀ node : Node,
    node.Each (fun source => Text.Spared idle source.toList) (Tag.Spared idle) →
    node.build occasion.cls occasion.converters inIteration id = .ok part →
    node.build occasion.cls occasion.converters inIteration' id' = .ok part' →
    Frames.Meet idle id id' inIteration left right → Tag.SameOutside parent parent' left →
    Corresponding (Frames.Twin idle) ((part.render occasion parent).run left)
      ((part'.render occasion parent').run right)
  | .text source, spared, built, built', meet, _ => by
    obtain ⟨text, read, last⟩ := bind_eq_ok_iff.mp built
    obtain ⟨text', read', last'⟩ := bind_eq_ok_iff.mp built'
    cases last
    cases last'
    rw [Part.render, Part.render]
    exact TextPart.render_corresponds read read' deeper spared meet.twin meet.outside
  | .tag t body, spared, built, built', meet, outside => by
    obtain ⟨_, _, rest⟩ := bind_eq_ok_iff.mp built
    obtain ⟨parts, inner, last⟩ := bind_eq_ok_iff.mp rest
    obtain ⟨_, _, rest'⟩ := bind_eq_ok_iff.mp built'
    obtain ⟨parts', inner', last'⟩ := bind_eq_ok_iff.mp rest'
    cases last
    cases last'
    rw [Part.render, Part.render]
    have kept : KeepsFrames id (Part.renderAll occasion (some t) parts) :=
      Part.keepsFrames_renderAll (numberedAll_of_buildAll body inner)
    have kept' : KeepsFrames id' (Part.renderAll occasion (some t) parts') :=
      Part.keepsFrames_renderAll (numberedAll_of_buildAll body inner')
    refine Tag.around_corresponds kept kept' ?_ spared.1 meet outside
    intro left right meet
    exact renderAll_corresponds (deeper_body deeper t) body spared.2 inner inner' meet (.inl rfl)

/-- Nodes that are built twice render to the same in both surroundings. -/
theorem renderAll_corresponds {inIteration inIteration' : Bool} {id id' : Nat}
    {parts parts' : List Part} {parent parent' : Option Tag} {left right : Frames}
    (deeper : inIteration = true → inIteration' = true) : ∀ nodes : List Node,
    SparedOf idle nodes →
    buildAll occasion.cls occasion.converters inIteration id nodes = .ok parts →
    buildAll occasion.cls occasion.converters inIteration' id' nodes = .ok parts' →
    Frames.Meet idle id id' inIteration left right → Tag.SameOutside parent parent' left →
    Corresponding (Frames.Twin idle) ((Part.renderAll occasion parent parts).run left)
      ((Part.renderAll occasion parent' parts').run right)
  | [], _, built, built', meet, _ => by
    cases built
    cases built'
    rw [Part.renderAll, Part.renderAll]
    exact .pure _ meet.twin
  | node :: rest, spared, built, built', meet, outside => by
    obtain ⟨part, first, more⟩ := bind_eq_ok_iff.mp built
    obtain ⟨parts, others, last⟩ := bind_eq_ok_iff.mp more
    obtain ⟨part', first', more'⟩ := bind_eq_ok_iff.mp built'
    obtain ⟨parts', others', last'⟩ := bind_eq_ok_iff.mp more'
    cases last
    cases last'
    rw [Part.renderAll, Part.renderAll]
    refine .bind (render_corresponds deeper node spared.1 first first' meet outside) ?_
    intro fragment after after' ran ran' reached
    have kept := Part.render_kept (numbered_of_build node first) meet.below ran
    have kept' := Part.render_kept (numbered_of_build node first') meet.below' ran'
    have later := (meet.kept reached kept kept').mono (Nat.le_add_right id node.size)
      (Nat.le_add_right id' node.size)
    exact .bind_pure (renderAll_corresponds deeper rest spared.2 others others' later
      (outside.kept kept))

end

end Node

/-- What parts outside every tag and loop render to. -/
def Part.assemble (occasion : Occasion) (parts : List Part) : Except Error Fragment :=
  (renderAll occasion none parts).run' {}

/-- The statement of a template is what its parts render to, with the texts of values
    put in. -/
theorem Template.render_eq_assemble (template : Template) (converters : Converters)
    (param : Value) :
    template.render converters param = (do
      let assembled ← Part.assemble (template.occasion converters param) template.parts
      let sql ← substitute param template.cls assembled.sql
      return { assembled with sql }) := by
  rw [Part.assemble, StateT.run'_eq, render]
  show (Part.renderAll (template.occasion converters param) none template.parts).run {} >>= _ = _
  cases (Part.renderAll (template.occasion converters param) none template.parts).run {} <;> rfl

end DynamicSql
