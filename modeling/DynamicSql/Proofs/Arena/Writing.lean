import DynamicSql.Proofs.Arena.Numbering

/-!
# Writing and numbering

The calls that write a template number its nodes one by one. Writing nodes at any place
extends what was written before by the entries of the numbered nodes, and puts the
outermost of their numbers into the body of the tag that is open there; the tags that
are open are the same before and after. So the arena of a template holds the entries
of its numbered nodes.
-/

namespace DynamicSql

/-- A change at a place of a list does not touch what stands behind the list. -/
theorem modify_append_of_lt {α : Type} (f : α → α) {i : Nat} {l : List α}
    (inside : i < l.length) (behind : List α) :
    (l ++ behind).modify i f = l.modify i f ++ behind := by
  have further : i < (l ++ behind).length := by
    rw [List.length_append]
    omega
  rw [List.modify_eq_take_cons_drop inside, List.modify_eq_take_cons_drop further,
    List.take_append_of_le_length (Nat.le_of_lt inside),
    List.drop_append_of_le_length inside, List.getElem_append_left inside]
  simp

/-- A change at the last place of a list. -/
theorem modify_append_length {α : Type} (f : α → α) (l : List α) (last : α) :
    (l ++ [last]).modify l.length f = l ++ [f last] :=
  List.modifyTailIdx_add (List.modifyHead f) 0 l [last]

namespace Arena

/-- The open tags are among the entries. -/
def Sound (arena : Arena) : Prop := ∀ id ∈ arena.opened, id < arena.entries.length

/-- Adds the entries of numbered parts. -/
def extend (arena : Arena) (parts : List Part) : Arena :=
  let registered := arena.register (parts.map Part.id)
  { registered with
    entries := registered.entries ++ Part.entriesOf arena.opened.head? parts }

@[simp]
theorem opened_register (arena : Arena) (ids : List Nat) :
    (arena.register ids).opened = arena.opened := by
  unfold register
  split <;> rfl

@[simp]
theorem length_register (arena : Arena) (ids : List Nat) :
    (arena.register ids).entries.length = arena.entries.length := by
  unfold register
  split
  · rfl
  · exact List.length_modify ..

@[simp]
theorem opened_extend (arena : Arena) (parts : List Part) :
    (arena.extend parts).opened = arena.opened := arena.opened_register _

/-- Entries are added behind the others, whatever body their numbers are put into. -/
theorem register_append {arena : Arena} (sound : arena.Sound) (added : List Entry)
    (ids : List Nat) :
    { arena with entries := arena.entries ++ added }.register ids =
      { arena.register ids with entries := (arena.register ids).entries ++ added } := by
  obtain ⟨entries, roots, opened⟩ := arena
  cases opened with
  | nil => rfl
  | cons parent outer =>
    have inside : parent < entries.length := sound parent List.mem_cons_self
    rw [register, register]
    dsimp only
    rw [modify_append_of_lt _ inside]

/-- Numbers are put behind those that were put there before. -/
theorem register_register (arena : Arena) (ids others : List Nat) :
    (arena.register ids).register others = arena.register (ids ++ others) := by
  obtain ⟨entries, roots, opened⟩ := arena
  cases opened with
  | nil => simp [register]
  | cons parent outer =>
    have twice : Entry.addChildren others ∘ Entry.addChildren ids =
        Entry.addChildren (ids ++ others) := by
      funext entry
      cases entry <;> simp [Entry.addChildren]
    simp only [register, List.modify_modify_eq, twice]

theorem Sound.register {arena : Arena} (sound : arena.Sound) (ids : List Nat) :
    (arena.register ids).Sound := by
  intro id isOpen
  rw [opened_register] at isOpen
  rw [length_register]
  exact sound id isOpen

theorem Sound.extend {arena : Arena} (sound : arena.Sound) (parts : List Part) :
    (arena.extend parts).Sound := by
  intro id isOpen
  have inside := sound.register (parts.map Part.id) id isOpen
  rw [Arena.extend, List.length_append]
  omega

theorem extend_nil (arena : Arena) : arena.extend [] = arena := by
  obtain ⟨entries, roots, opened⟩ := arena
  have none : Entry.addChildren [] = id := by
    funext entry
    cases entry <;> simp [Entry.addChildren]
  cases opened with
  | nil => simp [extend, register, Part.entriesOf]
  | cons parent outer => simp [extend, register, Part.entriesOf, none]

/-- Extending by two rows of parts one after the other. -/
theorem extend_extend {arena : Arena} (sound : arena.Sound) (parts others : List Part) :
    (arena.extend parts).extend others = arena.extend (parts ++ others) := by
  have later := register_append (sound.register (parts.map Part.id))
    (Part.entriesOf arena.opened.head? parts) (others.map Part.id)
  rw [register_register, ← List.map_append] at later
  rw [extend, opened_extend, extend, later, extend, Part.entriesOf_append]
  simp only [List.append_assoc]

/-- What is added changes nothing about the open tags. -/
theorem any_isIteration_register {arena : Arena} (sound : arena.Sound) (ids : List Nat)
    (added : List Entry) :
    (arena.opened.any fun id =>
      ((arena.register ids).entries ++ added)[id]?.any Entry.isIteration) =
        arena.inIteration := by
  rw [inIteration, Bool.eq_iff_iff, List.any_eq_true, List.any_eq_true]
  refine exists_congr fun id => and_congr_right fun isOpen => ?_
  have inside : id < (arena.register ids).entries.length := by
    rw [length_register]
    exact sound id isOpen
  rw [List.getElem?_append_left inside, register]
  split
  · rfl
  · rw [List.getElem?_modify]
    cases arena.entries[id]? with
    | none => rfl
    | some entry => split <;> simp

theorem inIteration_extend {arena : Arena} (sound : arena.Sound) (parts : List Part) :
    (arena.extend parts).inIteration = arena.inIteration := by
  rw [inIteration, opened_extend]
  exact any_isIteration_register sound _ _

/-- A text is the part that it is numbered as. -/
theorem text_eq {arena : Arena} (sound : arena.Sound) (source : String) :
    arena.text source =
      arena.extend [(Node.text source).number Node.unread arena.inIteration arena.next] := by
  rw [text, push, register_append sound]
  rfl

theorem next_extend (arena : Arena) (node : Node) :
    (arena.extend [node.number Node.unread arena.inIteration arena.next]).next =
      arena.next + node.size := by
  rw [next, extend, List.length_append, length_register]
  simp [Part.entriesOf, Node.length_entries, next]

/-- A tag that was opened is the last entry. -/
theorem enter_eq {arena : Arena} (sound : arena.Sound) (t : Tag) :
    arena.enter t =
      { arena.register [arena.next] with
        entries := (arena.register [arena.next]).entries ++
          [.tag arena.next t arena.opened.head? []]
        opened := arena.next :: arena.opened } := by
  rw [enter, push, register_append sound]

theorem next_enter {arena : Arena} (sound : arena.Sound) (t : Tag) :
    (arena.enter t).next = arena.next + 1 := by
  rw [enter_eq sound, next, List.length_append, length_register]
  rfl

theorem Sound.enter {arena : Arena} (sound : arena.Sound) (t : Tag) : (arena.enter t).Sound := by
  have length : (arena.enter t).entries.length = arena.next + 1 := next_enter sound t
  intro id isOpen
  rw [length]
  rcases List.mem_cons.mp isOpen with rfl | before
  · exact Nat.lt_succ_self _
  · exact Nat.lt_succ_of_lt (sound id before)

/-- In an open tag stands what stands in an iteration around it, or in the tag itself if
    that is one. -/
theorem inIteration_enter {arena : Arena} (sound : arena.Sound) (t : Tag) :
    (arena.enter t).inIteration = (arena.inIteration || t.handler == .iterate) := by
  have length : (arena.register [arena.next]).entries.length = arena.next :=
    arena.length_register _
  have last : ((arena.register [arena.next]).entries ++
      [.tag arena.next t arena.opened.head? []])[arena.next]? =
        some (.tag arena.next t arena.opened.head? []) := by
    rw [List.getElem?_append_right (Nat.le_of_eq length), length, Nat.sub_self]
    rfl
  rw [enter_eq sound, inIteration]
  dsimp only
  rw [List.any_cons, last, any_isIteration_register sound, Bool.or_comm]
  rfl

/-- A tag whose body was written is the part that it is numbered as. -/
theorem leave_extend_enter {arena : Arena} (sound : arena.Sound) (t : Tag)
    (parts : List Part) :
    ((arena.enter t).extend parts).leave = arena.extend [.tag arena.next t parts] := by
  let opening : Entry := .tag arena.next t arena.opened.head? []
  have filled : ((arena.register [arena.next]).entries ++ [opening]).modify arena.next
        (Entry.addChildren (parts.map Part.id)) =
      (arena.register [arena.next]).entries ++ [opening.addChildren (parts.map Part.id)] := by
    have last := modify_append_length (Entry.addChildren (parts.map Part.id))
      (arena.register [arena.next]).entries opening
    rw [length_register] at last
    exact last
  rw [enter_eq sound, extend, register]
  dsimp only
  rw [filled]
  simp [leave, extend, Part.entriesOf, Part.entries, Part.id, opening, Entry.addChildren]

end Arena

namespace Node

open Arena

mutual

/-- Writing a node extends the arena by what it is numbered as. -/
theorem write_eq {arena : Arena} (sound : arena.Sound) :
    ∀ node : Node, node.write arena =
      arena.extend [node.number Node.unread arena.inIteration arena.next]
  | .text source => text_eq sound source
  | .tag t body => by
    rw [write, writeAll_eq (sound.enter t) body, leave_extend_enter sound,
      inIteration_enter sound, next_enter sound]
    rfl

theorem writeAll_eq {arena : Arena} (sound : arena.Sound) :
    ∀ nodes : List Node, writeAll nodes arena =
      arena.extend (numberAll Node.unread arena.inIteration arena.next nodes)
  | [] => by
    rw [writeAll, numberAll, extend_nil]
  | node :: rest => by
    -- The rest is written into what the first node leaves, where the same tags are open.
    have first := write_eq sound node
    rw [writeAll, first, writeAll_eq (sound.extend _) rest, inIteration_extend sound,
      next_extend, extend_extend sound]
    rfl

end

end Node

/-- The arena of a template holds the entries of its numbered nodes. -/
theorem Draft.arena_eq (draft : Draft) :
    draft.arena =
      { entries := Part.entriesOf none (Node.numberAll Node.unread false 0 draft.nodes)
        roots := Node.numbers 0 draft.nodes
        opened := [] } := by
  have sound : ({} : Arena).Sound := fun _ isOpen => nomatch isOpen
  rw [arena, Node.writeAll_eq sound draft.nodes]
  simp [Arena.extend, Arena.register, Arena.inIteration, Arena.next]

end DynamicSql
