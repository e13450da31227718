import DynamicSql.Proofs.Rendering.Run

/-!
# Induction over templates

What holds of every text and every tag of a template before it is built holds
of the built one, and a property of renderings that the texts have and that
rows of parts and tags pass on is one of all parts. Building numbers the parts
so that those inside a tag have greater numbers than the tag.
-/

namespace DynamicSql

namespace Node

mutual

/-- Every text of a node satisfies the one condition and every tag the other. -/
def Each (text : String → Prop) (tag : Tag → Prop) : Node → Prop
  | .text source => text source
  | .tag t body => tag t ∧ EachOf text tag body

/-- Every text of some nodes satisfies the one condition and every tag the other. -/
def EachOf (text : String → Prop) (tag : Tag → Prop) : List Node → Prop
  | [] => True
  | node :: rest => node.Each text tag ∧ EachOf text tag rest

end

end Node

namespace Part

mutual

/-- Every text of a part satisfies the one condition and every tag the other. -/
def Each (text : TextPart → Prop) (tag : Tag → Prop) : Part → Prop
  | .text _ content => text content
  | .tag _ t body => tag t ∧ EachOf text tag body

/-- Every text of some parts satisfies the one condition and every tag the other. -/
def EachOf (text : TextPart → Prop) (tag : Tag → Prop) : List Part → Prop
  | [] => True
  | part :: rest => part.Each text tag ∧ EachOf text tag rest

end

mutual

/-- The tags of a part have numbers from the given one on, and those inside a tag
    have greater numbers than the tag. -/
def Numbered (least : Nat) : Part → Prop
  | .text _ _ => True
  | .tag id _ body => least ≤ id ∧ NumberedAll (id + 1) body

/-- The tags of some parts have numbers from the given one on, and those inside a
    tag have greater numbers than the tag. -/
def NumberedAll (least : Nat) : List Part → Prop
  | [] => True
  | part :: rest => part.Numbered least ∧ NumberedAll least rest

end

/-- A part stands among some parts or inside one of them. -/
inductive Inside (part : Part) : List Part → Prop
  | among {parts : List Part} : part ∈ parts → Inside part parts
  | within {parts body : List Part} {id : Nat} {t : Tag} :
      .tag id t body ∈ parts → Inside part body → Inside part parts

theorem EachOf.of_mem {text : TextPart → Prop} {tag : Tag → Prop} {part : Part} :
    ∀ {parts : List Part}, EachOf text tag parts → part ∈ parts → part.Each text tag
  | _ :: _, each, member => by
    rcases List.mem_cons.mp member with rfl | member
    · exact each.1
    · exact of_mem each.2 member

theorem EachOf.inside {text : TextPart → Prop} {tag : Tag → Prop} {part : Part}
    {parts : List Part} (each : EachOf text tag parts) (inside : part.Inside parts) :
    part.Each text tag := by
  induction inside with
  | among member => exact each.of_mem member
  | within member _ ih => exact ih (each.of_mem member).2

theorem NumberedAll.of_mem {least : Nat} {part : Part} :
    ∀ {parts : List Part}, NumberedAll least parts → part ∈ parts → part.Numbered least
  | _ :: _, numbered, member => by
    rcases List.mem_cons.mp member with rfl | member
    · exact numbered.1
    · exact of_mem numbered.2 member

theorem NumberedAll.inside {least : Nat} {part : Part} {parts : List Part}
    (numbered : NumberedAll least parts) (inside : part.Inside parts) :
    ∃ bound, part.Numbered bound := by
  induction inside generalizing least with
  | among member => exact ⟨least, numbered.of_mem member⟩
  | within member _ ih => exact ih (numbered.of_mem member).2

theorem Numbered.mono {part : Part} {least bound : Nat} (numbered : part.Numbered bound)
    (le : least ≤ bound) : part.Numbered least := by
  cases part with
  | text id content => trivial
  | tag id t body => exact ⟨Nat.le_trans le numbered.1, numbered.2⟩

theorem NumberedAll.mono {least bound : Nat} (le : least ≤ bound) :
    ∀ {parts : List Part}, NumberedAll bound parts → NumberedAll least parts
  | [], _ => trivial
  | _ :: _, numbered => ⟨numbered.1.mono le, mono le numbered.2⟩

end Part

namespace Node

section Building

variable {cls : ParameterClass} {converters : Converters}

mutual

/-- Building numbers the parts inside a tag after the tag. -/
theorem numbered_of_build {inIteration : Bool} {id : Nat} {part : Part} :
    ∀ node : Node, node.build cls converters inIteration id = .ok part → part.Numbered id
  | .text source, built => by
    obtain ⟨_, _, last⟩ := bind_eq_ok_iff.mp built
    cases last
    trivial
  | .tag t body, built => by
    obtain ⟨_, _, rest⟩ := bind_eq_ok_iff.mp built
    obtain ⟨parts, inner, last⟩ := bind_eq_ok_iff.mp rest
    cases last
    exact ⟨Nat.le_refl id, numberedAll_of_buildAll body inner⟩

theorem numberedAll_of_buildAll {inIteration : Bool} {id : Nat} {parts : List Part} :
    ∀ nodes : List Node, buildAll cls converters inIteration id nodes = .ok parts →
      Part.NumberedAll id parts
  | [], built => by
    cases built
    trivial
  | node :: rest, built => by
    obtain ⟨_, first, more⟩ := bind_eq_ok_iff.mp built
    obtain ⟨_, others, last⟩ := bind_eq_ok_iff.mp more
    cases last
    exact ⟨numbered_of_build node first,
      (numberedAll_of_buildAll rest others).mono (Nat.le_add_right id node.size)⟩

end

/-- Nodes are built after those in front of them. -/
theorem buildAll_append_eq_ok {inIteration : Bool} {others : List Node} {parts : List Part} :
    ∀ {nodes : List Node} {id : Nat},
      buildAll cls converters inIteration id (nodes ++ others) = .ok parts ↔
        ∃ front behind, buildAll cls converters inIteration id nodes = .ok front ∧
          buildAll cls converters inIteration (id + sizes nodes) others = .ok behind ∧
          parts = front ++ behind
  | [], id => by
    simp [buildAll, sizes]
  | node :: rest, id => by
    simp only [List.cons_append, buildAll, bind_eq_ok_iff, buildAll_append_eq_ok, sizes,
      Nat.add_assoc]
    constructor
    · rintro ⟨part, built, _, ⟨front, behind, first, second, rfl⟩, last⟩
      cases last
      exact ⟨part :: front, behind, ⟨part, built, front, first, rfl⟩, second, rfl⟩
    · rintro ⟨_, behind, ⟨part, built, front, first, last⟩, second, rfl⟩
      cases last
      exact ⟨part, built, front ++ behind, ⟨front, behind, first, second, rfl⟩, rfl⟩

/-- Building makes one part of every node. -/
theorem length_of_buildAll {inIteration : Bool} :
    ∀ {nodes : List Node} {id : Nat} {parts : List Part},
      buildAll cls converters inIteration id nodes = .ok parts → parts.length = nodes.length
  | [], _, _, built => by
    cases built
    rfl
  | _ :: _, _, _, built => by
    obtain ⟨_, _, more⟩ := bind_eq_ok_iff.mp built
    obtain ⟨_, others, last⟩ := bind_eq_ok_iff.mp more
    cases last
    rw [List.length_cons, List.length_cons, length_of_buildAll others]

variable {text : String → Prop} {ready : TextPart → Prop} {tag : Tag → Prop}

mutual

/-- A condition on the texts of a template that building turns into one on the texts
    of the built template. -/
theorem each_of_build
    (reads : ∀ {inIteration source content}, text source →
      buildText cls converters inIteration source = .ok content → ready content)
    {inIteration : Bool} {id : Nat} {part : Part} :
    ∀ node : Node, node.Each text tag → node.build cls converters inIteration id = .ok part →
      part.Each ready tag
  | .text source, each, built => by
    obtain ⟨content, read, last⟩ := bind_eq_ok_iff.mp built
    cases last
    exact reads each read
  | .tag t body, each, built => by
    obtain ⟨_, _, rest⟩ := bind_eq_ok_iff.mp built
    obtain ⟨parts, inner, last⟩ := bind_eq_ok_iff.mp rest
    cases last
    exact ⟨each.1, eachOf_of_buildAll reads body each.2 inner⟩

theorem eachOf_of_buildAll
    (reads : ∀ {inIteration source content}, text source →
      buildText cls converters inIteration source = .ok content → ready content)
    {inIteration : Bool} {id : Nat} {parts : List Part} :
    ∀ nodes : List Node, EachOf text tag nodes →
      buildAll cls converters inIteration id nodes = .ok parts → Part.EachOf ready tag parts
  | [], _, built => by
    cases built
    trivial
  | node :: rest, each, built => by
    obtain ⟨_, first, more⟩ := bind_eq_ok_iff.mp built
    obtain ⟨_, others, last⟩ := bind_eq_ok_iff.mp more
    cases last
    exact ⟨each_of_build reads node each.1 first, eachOf_of_buildAll reads rest each.2 others⟩

end

end Building

end Node

namespace Part

section Induction

variable {occasion : Occasion} {text : TextPart → Prop} {tag : Tag → Prop}
  {motive : Nat → Rendering Fragment → Prop}

mutual

/-- A property of renderings holds of every part if the texts have it, rows of parts
    pass it on, and tags pass it on from their bodies. It may depend on a number that
    no tag of the part falls below. -/
theorem render_induction
    (onText : ∀ least content, text content → motive least (content.render occasion))
    (onNone : ∀ least, motive least (pure {}))
    (onRow : ∀ least (first rest : Rendering Fragment), motive least first →
      motive least rest → motive least (do return (← first) ++ (← rest)))
    (onTag : ∀ least parent id t body, tag t → least ≤ id → motive (id + 1) body →
      motive least (t.around occasion parent id body))
    {least : Nat} {parent : Option Tag} :
    ∀ part : Part, part.Numbered least → part.Each text tag →
      motive least (part.render occasion parent)
  | .text _ content, _, each => by
    rw [render]
    exact onText least content each
  | .tag id t body, numbered, each => by
    rw [render]
    exact onTag least parent id t _ each.1 numbered.1
      (renderAll_induction onText onNone onRow onTag body numbered.2 each.2)

theorem renderAll_induction
    (onText : ∀ least content, text content → motive least (content.render occasion))
    (onNone : ∀ least, motive least (pure {}))
    (onRow : ∀ least (first rest : Rendering Fragment), motive least first →
      motive least rest → motive least (do return (← first) ++ (← rest)))
    (onTag : ∀ least parent id t body, tag t → least ≤ id → motive (id + 1) body →
      motive least (t.around occasion parent id body))
    {least : Nat} {parent : Option Tag} :
    ∀ parts : List Part, NumberedAll least parts → EachOf text tag parts →
      motive least (renderAll occasion parent parts)
  | [], _, _ => by
    rw [renderAll]
    exact onNone least
  | part :: rest, numbered, each => by
    rw [renderAll]
    exact onRow least _ _ (render_induction onText onNone onRow onTag part numbered.1 each.1)
      (renderAll_induction onText onNone onRow onTag rest numbered.2 each.2)

end

end Induction

end Part

end DynamicSql
