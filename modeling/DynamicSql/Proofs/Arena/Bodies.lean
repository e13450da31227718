import DynamicSql.Proofs.Arena.Numbering
import Mathlib.Data.List.Nodup
import Mathlib.Logic.Relation

/-!
# Bodies in a list of entries

A tag in a list of entries names the entries of its body by their numbers. In the list
of numbered nodes every number stands once, among the outermost ones or in the body of
a tag with a smaller number; so what encloses an entry can be told from the list, and
whoever follows the numbers from the outermost ones reads the nodes back.
-/

namespace DynamicSql

open Relation

namespace Entry

/-- A text or a tag without its place in a template. -/
def content : Entry → String ⊕ Tag
  | text _ part => .inl part.source
  | tag _ t _ _ => .inr t

/-- The one number stands in the body of the entry with the other. -/
def Encloses (entries : List Entry) (outer id : Nat) : Prop :=
  ∃ entry, entries[outer]? = some entry ∧ id ∈ entry.children

/-- The entry with the number is an iteration. -/
def Iterates (entries : List Entry) (id : Nat) : Prop :=
  entries[id]?.any Entry.isIteration = true

mutual

/-- What is read at a number if the numbers in bodies are followed. -/
inductive Reads (entries : List Entry) : Nat → Node → Prop
  | text {id : Nat} {part : TextPart} (found : entries[id]? = some (.text id part)) :
      Reads entries id (.text part.source)
  | tag {id : Nat} {t : Tag} {parent : Option Nat} {children : List Nat} {body : List Node}
      (found : entries[id]? = some (.tag id t parent children))
      (inside : ReadsAll entries children body) : Reads entries id (.tag t body)

/-- What is read at numbers one after the other. -/
inductive ReadsAll (entries : List Entry) : List Nat → List Node → Prop
  | nil : ReadsAll entries [] []
  | cons {id : Nat} {node : Node} {ids : List Nat} {nodes : List Node}
      (first : Reads entries id node) (rest : ReadsAll entries ids nodes) :
      ReadsAll entries (id :: ids) (node :: nodes)

end

section Reading

variable {entries : List Entry}

mutual

/-- Nothing else can be read at a number. -/
theorem Reads.unique {id : Nat} :
    ∀ {node other : Node}, Reads entries id node → Reads entries id other → other = node
  | .text _, .text _, .text found, .text found' => by
    rw [found] at found'
    cases found'
    rfl
  | .text _, .tag _ _, .text found, .tag found' _ => by
    rw [found] at found'
    cases found'
  | .tag _ _, .text _, .tag found _, .text found' => by
    rw [found] at found'
    cases found'
  | .tag _ _, .tag _ _, .tag found inside, .tag found' inside' => by
    rw [found] at found'
    cases found'
    rw [inside.unique inside']

theorem ReadsAll.unique :
    ∀ {ids : List Nat} {nodes others : List Node}, ReadsAll entries ids nodes →
      ReadsAll entries ids others → others = nodes
  | [], [], [], .nil, .nil => rfl
  | _ :: _, _ :: _, _ :: _, .cons first rest, .cons first' rest' => by
    rw [first.unique first', rest.unique rest']

end

end Reading

end Entry

namespace Node

mutual

/-- The texts and tags of a node in the order of writing. -/
def contents : Node → List (String ⊕ Tag)
  | text source => [.inl source]
  | tag t body => .inr t :: contentsAll body

/-- The texts and tags of some nodes in the order of writing. -/
def contentsAll : List Node → List (String ⊕ Tag)
  | [] => []
  | node :: rest => node.contents ++ contentsAll rest

end

theorem le_of_mem_numbers {c : Nat} :
    ∀ {nodes : List Node} {id : Nat}, c ∈ numbers id nodes → id ≤ c
  | node :: rest, id, member => by
    rcases List.mem_cons.mp member with rfl | behind
    · exact Nat.le_refl c
    · exact Nat.le_trans (Nat.le_add_right id node.size) (le_of_mem_numbers behind)

section Numbering

variable (ready : Bool → String → Option Fragment)

mutual

/-- The entries of a node list what it is made of in the order of writing. -/
theorem map_content_entries (parent : Option Nat) (inIteration : Bool) (id : Nat) :
    ∀ node : Node, ((node.number ready inIteration id).entries parent).map Entry.content =
      node.contents
  | .text _ => rfl
  | .tag t body => by
    rw [number, Part.entries, List.map_cons, map_content_entriesOf, contents]
    rfl

theorem map_content_entriesOf (parent : Option Nat) (inIteration : Bool) (id : Nat) :
    ∀ nodes : List Node,
      (Part.entriesOf parent (numberAll ready inIteration id nodes)).map Entry.content =
        contentsAll nodes
  | [] => rfl
  | node :: rest => by
    rw [numberAll, Part.entriesOf, List.map_append, map_content_entries, map_content_entriesOf,
      contentsAll]

end

mutual

/-- Every number of a node but its own stands once in the bodies inside it. -/
theorem perm_children_entries (parent : Option Nat) (inIteration : Bool) (id : Nat) :
    ∀ node : Node,
      (id :: ((node.number ready inIteration id).entries parent).flatMap Entry.children).Perm
        (List.range' id node.size)
  | .text _ => List.Perm.refl _
  | .tag t body => by
    rw [number, Part.entries, List.flatMap_cons, Entry.children, map_id_numberAll, size,
      Nat.add_comm 1, List.range'_succ]
    exact (perm_children_entriesOf (some id) _ (id + 1) body).cons id

/-- Every number of some nodes stands once, among the outermost ones or in a body. -/
theorem perm_children_entriesOf (parent : Option Nat) (inIteration : Bool) (id : Nat) :
    ∀ nodes : List Node,
      (numbers id nodes ++ (Part.entriesOf parent
        (numberAll ready inIteration id nodes)).flatMap Entry.children).Perm
          (List.range' id (sizes nodes))
  | [] => List.Perm.refl _
  | node :: rest => by
    have first := perm_children_entries parent inIteration id node
    have others := perm_children_entriesOf parent inIteration (id + node.size) rest
    rw [numberAll, Part.entriesOf, List.flatMap_append, numbers, sizes, ← List.range'_append_1]
    refine List.Perm.trans ?_ (first.append others)
    rw [List.cons_append, List.cons_append]
    refine List.Perm.cons id ?_
    rw [← List.append_assoc, ← List.append_assoc]
    exact List.perm_append_comm.append_right _

end

mutual

/-- A tag has a smaller number than what stands in its body. -/
theorem lt_children_entries (parent : Option Nat) (inIteration : Bool) (id : Nat) :
    ∀ node : Node, ∀ entry ∈ (node.number ready inIteration id).entries parent,
      ∀ c ∈ entry.children, entry.id < c
  | .text _ => by
    intro entry member c inBody
    rw [number, Part.entries, List.mem_singleton] at member
    subst member
    cases inBody
  | .tag t body => by
    intro entry member c inBody
    rw [number, Part.entries, map_id_numberAll] at member
    rcases List.mem_cons.mp member with rfl | inside
    · exact le_of_mem_numbers inBody
    · exact lt_children_entriesOf (some id) _ (id + 1) body entry inside c inBody

theorem lt_children_entriesOf (parent : Option Nat) (inIteration : Bool) (id : Nat) :
    ∀ nodes : List Node,
      ∀ entry ∈ Part.entriesOf parent (numberAll ready inIteration id nodes),
        ∀ c ∈ entry.children, entry.id < c
  | [] => by
    intro entry member
    cases member
  | node :: rest => by
    intro entry member c inBody
    rw [numberAll, Part.entriesOf, List.mem_append] at member
    rcases member with first | behind
    · exact lt_children_entries parent inIteration id node entry first c inBody
    · exact lt_children_entriesOf parent inIteration _ rest entry behind c inBody

end

mutual

/-- A node is read at its number if its entries are at theirs. -/
theorem reads_number {entries : List Entry} (parent : Option Nat) (inIteration : Bool)
    (id : Nat) :
    ∀ node : Node,
      (∀ entry ∈ (node.number ready inIteration id).entries parent,
        entries[entry.id]? = some entry) →
      Entry.Reads entries id node
  | .text source, found => .text (found _ List.mem_cons_self)
  | .tag t body, found => by
    rw [number, Part.entries, map_id_numberAll] at found
    exact .tag (found _ List.mem_cons_self)
      (readsAll_numberAll (some id) _ (id + 1) body fun entry inside =>
        found entry (List.mem_cons_of_mem _ inside))

theorem readsAll_numberAll {entries : List Entry} (parent : Option Nat) (inIteration : Bool)
    (id : Nat) :
    ∀ nodes : List Node,
      (∀ entry ∈ Part.entriesOf parent (numberAll ready inIteration id nodes),
        entries[entry.id]? = some entry) →
      Entry.ReadsAll entries (numbers id nodes) nodes
  | [], _ => .nil
  | node :: rest, found => by
    rw [numberAll, Part.entriesOf] at found
    exact .cons
      (reads_number parent inIteration id node fun entry first =>
        found entry (List.mem_append_left _ first))
      (readsAll_numberAll parent inIteration _ rest fun entry behind =>
        found entry (List.mem_append_right _ behind))

end

end Numbering

end Node

end DynamicSql
