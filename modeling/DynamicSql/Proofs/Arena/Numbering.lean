import DynamicSql.Proofs.Rendering.Tree
import DynamicSql.Template.Arena

/-!
# Numbers of entries

The nodes of a template are numbered in the order of writing: a tag before its body
and a body before what follows the tag. So the entries have the numbers of their
places, and a tag comes before all that stands in it. Building a template numbers it
like this, and does no more than check the tags and read the texts that the numbering
lists, in the order of the list.
-/

namespace DynamicSql

namespace Node

/-- The numbers of some nodes, from a number on. -/
def numbers (id : Nat) : List Node → List Nat
  | [] => []
  | node :: rest => id :: numbers (id + node.size) rest

section Numbering

variable (ready : Bool → String → Option Fragment)

mutual

/-- The part that a node becomes under a given number, with what its texts contribute. -/
def number (inIteration : Bool) (id : Nat) : Node → Part
  | text source => .text id { source, inIteration, ready := ready inIteration source }
  | tag t body =>
    .tag id t (numberAll (inIteration || t.handler == .iterate) (id + 1) body)

/-- The parts that some nodes become from a given number on. -/
def numberAll (inIteration : Bool) (id : Nat) : List Node → List Part
  | [] => []
  | node :: rest => node.number inIteration id :: numberAll inIteration (id + node.size) rest

end

@[simp]
theorem id_number (inIteration : Bool) (id : Nat) (node : Node) :
    (node.number ready inIteration id).id = id := by
  cases node <;> rfl

@[simp]
theorem map_id_numberAll (inIteration : Bool) (id : Nat) (nodes : List Node) :
    (numberAll ready inIteration id nodes).map Part.id = numbers id nodes := by
  induction nodes generalizing id with
  | nil => rfl
  | cons node rest ih => rw [numberAll, numbers, List.map_cons, id_number, ih]

/-- The parts of a row in front and of those behind. -/
theorem numberAll_cons (inIteration : Bool) (id : Nat) (node : Node) (rest : List Node) :
    numberAll ready inIteration id (node :: rest) =
      node.number ready inIteration id :: numberAll ready inIteration (id + node.size) rest := rfl

mutual

/-- Every entry has the number of its place, as many of them as the node takes. -/
theorem map_id_entries (parent : Option Nat) (inIteration : Bool) (id : Nat) :
    ∀ node : Node, ((node.number ready inIteration id).entries parent).map Entry.id =
      List.range' id node.size
  | .text _ => rfl
  | .tag t body => by
    rw [number, Part.entries, List.map_cons, size, map_id_entriesOf, Nat.add_comm 1,
      List.range'_succ]
    rfl

theorem map_id_entriesOf (parent : Option Nat) (inIteration : Bool) (id : Nat) :
    ∀ nodes : List Node,
      (Part.entriesOf parent (numberAll ready inIteration id nodes)).map Entry.id =
        List.range' id (sizes nodes)
  | [] => rfl
  | node :: rest => by
    rw [numberAll, Part.entriesOf, List.map_append, map_id_entries, map_id_entriesOf, sizes,
      List.range'_append_1]

end

theorem length_entries (parent : Option Nat) (inIteration : Bool) (id : Nat) (node : Node) :
    ((node.number ready inIteration id).entries parent).length = node.size := by
  rw [← List.length_map Entry.id, map_id_entries, List.length_range']

end Numbering

/-- Nothing is known of the texts before the template is built. -/
def unread (_ : Bool) (_ : String) : Option Fragment := none

section Building

variable (cls : ParameterClass) (converters : Converters)

/-- What a text contributes once it is built. -/
def known (inIteration : Bool) (source : String) : Option Fragment :=
  if inIteration || ! Text.hasContent source then none
  else (Fragment.parse cls converters source).toOption

variable {cls converters}

mutual

/-- Building numbers a node. -/
theorem eq_number_of_build {inIteration : Bool} {id : Nat} {part : Part} :
    ∀ node : Node, node.build cls converters inIteration id = .ok part →
      part = node.number (known cls converters) inIteration id
  | .text source, built => by
    obtain ⟨content, read, last⟩ := bind_eq_ok_iff.mp built
    cases last
    rw [number, known]
    rw [buildText] at read
    split at read
    · next waits =>
      cases read
      rw [if_pos waits]
    · next reads =>
      obtain ⟨fragment, parsed, last⟩ := bind_eq_ok_iff.mp read
      cases last
      rw [if_neg reads, parsed]
      rfl
  | .tag t body, built => by
    obtain ⟨_, _, rest⟩ := bind_eq_ok_iff.mp built
    obtain ⟨parts, inner, last⟩ := bind_eq_ok_iff.mp rest
    cases last
    rw [number, ← eq_numberAll_of_buildAll body inner]

theorem eq_numberAll_of_buildAll {inIteration : Bool} {id : Nat} {parts : List Part} :
    ∀ nodes : List Node, buildAll cls converters inIteration id nodes = .ok parts →
      parts = numberAll (known cls converters) inIteration id nodes
  | [], built => by
    cases built
    rfl
  | node :: rest, built => by
    obtain ⟨_, first, more⟩ := bind_eq_ok_iff.mp built
    obtain ⟨_, others, last⟩ := bind_eq_ok_iff.mp more
    cases last
    rw [numberAll_cons, ← eq_number_of_build node first, ← eq_numberAll_of_buildAll rest others]

end

mutual

/-- Preparing the entries of a numbered node one after the other builds the node, and
    fails as building does. -/
theorem mapM_prepare_entries (parent : Option Nat) (inIteration : Bool) (id : Nat) :
    ∀ node : Node,
      ((node.number unread inIteration id).entries parent).mapM
          (Entry.prepare cls converters) =
        Part.entries parent <$> node.build cls converters inIteration id
  | .text source => by
    rw [number, Part.entries, List.mapM_cons, List.mapM_nil, Entry.prepare, build, buildText]
    dsimp only
    split
    · rfl
    · cases Fragment.parse cls converters source <;> rfl
  | .tag t body => by
    rw [number, Part.entries, List.mapM_cons, Entry.prepare, build, map_id_numberAll,
      mapM_prepare_entriesOf (some id) _ (id + 1) body]
    cases t.validate with
    | error e => rfl
    | ok valid =>
      dsimp only
      cases built : buildAll cls converters (inIteration || t.handler == .iterate) (id + 1) body with
      | error e => rfl
      | ok parts =>
        have ids : parts.map Part.id = numbers (id + 1) body := by
          rw [eq_numberAll_of_buildAll body built, map_id_numberAll]
        rw [← ids]
        rfl

theorem mapM_prepare_entriesOf (parent : Option Nat) (inIteration : Bool) (id : Nat) :
    ∀ nodes : List Node,
      (Part.entriesOf parent (numberAll unread inIteration id nodes)).mapM
          (Entry.prepare cls converters) =
        Part.entriesOf parent <$> buildAll cls converters inIteration id nodes
  | [] => rfl
  | node :: rest => by
    rw [numberAll_cons, Part.entriesOf, List.mapM_append, mapM_prepare_entries,
      mapM_prepare_entriesOf parent inIteration (id + node.size) rest, buildAll]
    cases node.build cls converters inIteration id with
    | error e => rfl
    | ok part =>
      cases buildAll cls converters inIteration (id + node.size) rest with
      | error e => rfl
      | ok parts => rfl

end

end Building

end Node

end DynamicSql
