import Mathlib.Data.List.SplitBy

/-!
# Stretches of a list

The pieces into which a list is divided, by what stands in front of them, in
them and behind them: those between separators, those that each begin with a
marked element, and the one that two marks enclose.
-/

namespace DynamicSql

section Stretches

variable {α β : Type} {p q : α → Bool} {l part : List α}

/-- A stretch without separators, between two of them or a separator and an end. -/
def Between (p : α → Bool) (l part : List α) : Prop :=
  ∃ before after, l = before ++ part ++ after ∧ (∀ x ∈ before.getLast?, p x = true) ∧
    (∀ x ∈ part, p x = false) ∧ ∀ x ∈ after.head?, p x = true

/-- A stretch that begins with a marked element, or with the list, and goes on to the next
    marked element. -/
def StartsAt (p : α → Bool) (l part : List α) : Prop :=
  ∃ before after, l = before ++ part ++ after ∧ part ≠ [] ∧
    (before ≠ [] → ∀ x ∈ part.head?, p x = true) ∧ (∀ x ∈ part.tail, p x = false) ∧
    ∀ x ∈ after.head?, p x = true

/-- The stretch behind the first element with one mark, up to the next one with another. -/
def Follows (p q : α → Bool) (l part : List α) : Prop :=
  ∃ before x after, l = before ++ x :: (part ++ after) ∧ (∀ y ∈ before, p y = false) ∧
    p x = true ∧ (∀ y ∈ part, q y = false) ∧ ∀ y ∈ after.head?, q y = true

section Map

variable {f : α → β} {r s : β → Bool}

theorem Between.map (same : ∀ x, r (f x) = p x) (between : Between p l part) :
    Between r (l.map f) (part.map f) := by
  obtain ⟨before, after, rfl, opened, inside, closed⟩ := between
  exact ⟨before.map f, after.map f, by simp, by simpa [same] using opened,
    by simpa [same] using inside, by simpa [same] using closed⟩

theorem StartsAt.map (same : ∀ x, r (f x) = p x) (starts : StartsAt p l part) :
    StartsAt r (l.map f) (part.map f) := by
  obtain ⟨before, after, rfl, nonempty, opened, inside, closed⟩ := starts
  refine ⟨before.map f, after.map f, by simp, by simpa using nonempty, fun front => ?_, ?_,
    by simpa [same] using closed⟩
  · simpa [same] using opened (by simpa using front)
  · simpa [← List.map_tail, same] using inside

theorem Follows.map (same : ∀ x, r (f x) = p x) (sameEnd : ∀ x, s (f x) = q x)
    (follows : Follows p q l part) : Follows r s (l.map f) (part.map f) := by
  obtain ⟨before, x, after, rfl, first, marked, inside, closed⟩ := follows
  exact ⟨before.map f, f x, after.map f, by simp, by simpa [same] using first,
    (same x).trans marked, by simpa [sameEnd] using inside, by simpa [sameEnd] using closed⟩

end Map

theorem Between.subset (between : Between p l part) : part ⊆ l := by
  obtain ⟨before, after, rfl, -⟩ := between
  intro x member
  simp [member]

theorem StartsAt.subset (starts : StartsAt p l part) : part ⊆ l := by
  obtain ⟨before, after, rfl, -⟩ := starts
  intro x member
  simp [member]

/-- A list without marked elements, or a list divided at its first marked element. -/
theorem first_marked (p : α → Bool) (l : List α) :
    (∀ x ∈ l, p x = false) ∨
      ∃ before x after, l = before ++ x :: after ∧ (∀ y ∈ before, p y = false) ∧ p x = true := by
  cases found : l.find? p with
  | none => exact .inl fun x member => by simpa using List.find?_eq_none.mp found x member
  | some x =>
    obtain ⟨marked, before, after, rfl, unmarked⟩ := List.find?_eq_some_iff_append.mp found
    exact .inr ⟨before, x, after, rfl, fun y member => by simpa using unmarked y member, marked⟩

/-- A list divided in front of its first marked element, or at its end. -/
theorem up_to_marked (p : α → Bool) (l : List α) :
    ∃ before after, l = before ++ after ∧ (∀ x ∈ before, p x = false) ∧
      ∀ x ∈ after.head?, p x = true := by
  rcases first_marked p l with unmarked | ⟨before, x, after, rfl, unmarked, marked⟩
  · exact ⟨l, [], by simp, unmarked, by simp⟩
  · exact ⟨before, x :: after, rfl, unmarked, by simpa using marked⟩

theorem unmarked_or_follows (p q : α → Bool) (l : List α) :
    (∀ x ∈ l, p x = false) ∨ ∃ part, Follows p q l part := by
  refine (first_marked p l).imp_right ?_
  rintro ⟨before, x, behind, rfl, first, marked⟩
  obtain ⟨part, after, rfl, inside, closed⟩ := up_to_marked q behind
  exact ⟨part, before, x, after, rfl, first, marked, inside, closed⟩

/-- What holds of lists without marked elements, and of a list if it holds of what stands behind its
    first marked element, holds of every list. -/
theorem marked_induction {P : List α → Prop} (p : α → Bool)
    (unmarked : ∀ l, (∀ x ∈ l, p x = false) → P l)
    (marked : ∀ front x back, (∀ y ∈ front, p y = false) → p x = true → P back →
      P (front ++ x :: back)) (l : List α) : P l := by
  induction size : l.length using Nat.strong_induction_on generalizing l with
  | _ n ih =>
    rcases first_marked p l with none | ⟨front, x, back, rfl, first, isMarked⟩
    · exact unmarked l none
    · refine marked front x back first isMarked (ih back.length ?_ back rfl)
      simp only [← size, List.length_append, List.length_cons]
      omega

theorem takeWhile_up_to {before after : List α} (inside : ∀ x ∈ before, p x = false)
    (closed : ∀ x ∈ after.head?, p x = true) :
    (before ++ after).takeWhile (! p ·) = before := by
  rw [List.takeWhile_append_of_pos fun x member => by simp [inside x member]]
  cases after with
  | nil => simp
  | cons x after => simp [closed x rfl]

theorem dropWhile_up_to {before after : List α} (inside : ∀ x ∈ before, p x = false)
    (closed : ∀ x ∈ after.head?, p x = true) :
    (before ++ after).dropWhile (! p ·) = after := by
  rw [List.dropWhile_append_of_pos fun x member => by simp [inside x member]]
  cases after with
  | nil => rfl
  | cons x after => simp [closed x rfl]

/-- Splitting at separators gives what stands between them. -/
theorem mem_splitOnP_iff : part ∈ l.splitOnP p ↔ Between p l part := by
  constructor
  · intro member
    induction l using marked_induction p with
    | unmarked l unmarked =>
      rw [List.splitOnP_eq_singleton unmarked, List.mem_singleton] at member
      exact ⟨[], [], by simp [member], by simp, member ▸ unmarked, by simp⟩
    | marked front x back unmarked marked ih =>
      rw [List.splitOnP_append_cons_of_forall_mem unmarked x marked] at member
      rcases List.mem_cons.mp member with rfl | later
      · exact ⟨[], x :: back, rfl, by simp, unmarked, by simpa using marked⟩
      · obtain ⟨before, after, rfl, opened, inside, closed⟩ := ih later
        refine ⟨front ++ x :: before, after, by simp, ?_, inside, closed⟩
        cases before with
        | nil => simpa using marked
        | cons y before => simpa [List.getLast?_append, List.getLast?_cons_cons] using opened
  · rintro ⟨before, after, rfl, opened, inside, closed⟩
    -- Behind the separator in front of it, the piece is the first one.
    have first : part ∈ (part ++ after).splitOnP p := by
      cases after with
      | nil => simp [List.splitOnP_eq_singleton inside]
      | cons x after =>
        rw [List.splitOnP_append_cons_of_forall_mem inside x (closed x rfl)]
        exact List.mem_cons_self
    rcases List.eq_nil_or_concat before with rfl | ⟨front, x, rfl⟩
    · exact first
    · have marked : p x = true := opened x (by simp)
      have behind : front.concat x ++ part ++ after = front ++ x :: (part ++ after) := by simp
      rw [behind, List.splitOnP_append_cons _ _ marked]
      exact List.mem_append_right _ first

/-- Every element that is no separator stands between separators. -/
theorem exists_between_mem {x : α} (member : x ∈ l) (unmarked : p x = false) :
    ∃ part, Between p l part ∧ x ∈ part := by
  obtain ⟨front, back, rfl⟩ := List.append_of_mem member
  obtain ⟨behind, after, rfl, noneBehind, closed⟩ := up_to_marked p back
  obtain ⟨ahead, before, reversed, noneAhead, opened⟩ := up_to_marked p front.reverse
  have same : front = before.reverse ++ ahead.reverse := by
    rw [← List.reverse_append, ← reversed, List.reverse_reverse]
  refine ⟨ahead.reverse ++ x :: behind, ⟨before.reverse, after, by simp [same], ?_, ?_, closed⟩,
    by simp⟩
  · simpa using opened
  · intro y inside
    rcases List.mem_append.mp inside with inAhead | inBehind
    · exact noneAhead y (List.mem_reverse.mp inAhead)
    · rcases List.mem_cons.mp inBehind with rfl | inBehind
      · exact unmarked
      · exact noneBehind y inBehind

theorem splitBy_of_unmarked (nonempty : l ≠ []) (inside : ∀ x ∈ l.tail, p x = false) :
    l.splitBy (fun _ next => ! p next) = [l] := by
  refine List.splitBy_of_isChain nonempty ?_
  induction l with
  | nil => contradiction
  | cons x l ih =>
    cases l with
    | nil => exact .singleton x
    | cons y l =>
      have unmarked := List.forall_mem_cons.mp inside
      exact .cons_cons (by simp [unmarked.1]) (ih (List.cons_ne_nil _ _) unmarked.2)

/-- The first piece goes on to the first marked element behind its beginning. -/
theorem splitBy_of_marked {first x : α} {front back : List α}
    (inside : ∀ y ∈ front, p y = false) (marked : p x = true) :
    (first :: (front ++ x :: back)).splitBy (fun _ next => ! p next) =
      (first :: front) :: (x :: back).splitBy (fun _ next => ! p next) := by
  rw [← List.cons_append, List.splitBy_append_cons _ (by simp [marked]),
    splitBy_of_unmarked (List.cons_ne_nil _ _) inside]
  rfl

/-- Splitting in front of marked elements gives what starts at them. -/
theorem mem_splitBy_iff : part ∈ l.splitBy (fun _ next => ! p next) ↔ StartsAt p l part := by
  constructor
  · intro member
    cases l with
    | nil => simp at member
    | cons first l =>
      induction l using marked_induction p generalizing first with
      | unmarked l unmarked =>
        rw [splitBy_of_unmarked (List.cons_ne_nil _ _) unmarked, List.mem_singleton] at member
        subst member
        exact ⟨[], [], by simp, List.cons_ne_nil _ _, by simp, unmarked, by simp⟩
      | marked front x back unmarked marked ih =>
        rw [splitBy_of_marked unmarked marked] at member
        rcases List.mem_cons.mp member with rfl | later
        · exact ⟨[], x :: back, rfl, List.cons_ne_nil _ _, by simp, unmarked,
            by simpa using marked⟩
        · obtain ⟨before, after, same, nonempty, opened, inside, closed⟩ := ih x later
          refine ⟨first :: front ++ before, after, by simp [same], nonempty, fun _ => ?_,
            inside, closed⟩
          cases before with
          | nil =>
            cases part with
            | nil => contradiction
            | cons y part =>
              cases same
              simpa using marked
          | cons y before => exact opened (List.cons_ne_nil _ _)
  · rintro ⟨before, after, rfl, nonempty, opened, inside, closed⟩
    have first : (part ++ after).splitBy (fun _ next => ! p next) =
        part :: after.splitBy (fun _ next => ! p next) := by
      rw [List.splitBy_append, splitBy_of_unmarked nonempty inside]
      · rfl
      · intro x _ y head
        simp [closed y head]
    cases before with
    | nil =>
      rw [List.nil_append, first]
      exact List.mem_cons_self
    | cons y before =>
      have marked := opened (List.cons_ne_nil _ _)
      rw [List.append_assoc, List.splitBy_append, first]
      · simp
      · intro x _ z head
        rw [List.head?_append_of_ne_nil _ nonempty] at head
        simp [marked z head]

/-- Splitting at separators does not depend on what else the elements hold. -/
theorem splitOnP_map (f : α → β) (r : β → Bool) (l : List α) :
    (l.map f).splitOnP r = (l.splitOnP (r ∘ f)).map (List.map f) := by
  induction l using marked_induction (r ∘ f) with
  | unmarked l unmarked =>
    have none : ∀ y ∈ l.map f, r y = false := List.forall_mem_map.mpr unmarked
    rw [List.splitOnP_eq_singleton none, List.splitOnP_eq_singleton unmarked]
    rfl
  | marked front x back unmarked marked ih =>
    have none : ∀ y ∈ front.map f, r y = false := List.forall_mem_map.mpr unmarked
    rw [List.map_append, List.map_cons,
      List.splitOnP_append_cons_of_forall_mem none (f x) marked, ih,
      List.splitOnP_append_cons_of_forall_mem unmarked x marked, List.map_cons]

/-- Nor does splitting in front of marked elements. -/
theorem splitBy_map (f : α → β) (r : β → Bool) (l : List α) :
    (l.map f).splitBy (fun _ next => ! r next) =
      (l.splitBy fun _ next => ! r (f next)).map (List.map f) := by
  cases l with
  | nil => rfl
  | cons first l =>
    induction l using marked_induction (r ∘ f) generalizing first with
    | unmarked l unmarked =>
      have none : ∀ y ∈ l.map f, r y = false := List.forall_mem_map.mpr unmarked
      have one := splitBy_of_unmarked (p := r ∘ f) (List.cons_ne_nil first l) unmarked
      rw [List.map_cons, splitBy_of_unmarked (List.cons_ne_nil _ _) none]
      exact (congrArg (List.map (List.map f)) one).symm
    | marked front x back unmarked marked ih =>
      have none : ∀ y ∈ front.map f, r y = false := List.forall_mem_map.mpr unmarked
      have two : (first :: (front ++ x :: back)).splitBy (fun _ next => ! r (f next)) =
          (first :: front) :: (x :: back).splitBy (fun _ next => ! r (f next)) :=
        splitBy_of_marked (p := r ∘ f) unmarked marked
      rw [two, List.map_cons, List.map_cons, ← ih x, List.map_append, List.map_cons,
        splitBy_of_marked none marked, List.map_cons]

/-- Every element stands in a stretch that starts at a marked element or at the beginning. -/
theorem exists_startsAt_mem (p : α → Bool) {x : α} (member : x ∈ l) :
    ∃ part, StartsAt p l part ∧ x ∈ part := by
  rw [← List.flatten_splitBy (fun _ next => ! p next) l, List.mem_flatten] at member
  obtain ⟨part, isPart, inside⟩ := member
  exact ⟨part, mem_splitBy_iff.mp isPart, inside⟩

/-- An element that is not marked stands in a stretch with what is around it, as far as the
    marked elements on both sides. -/
theorem exists_startsAt_append (before after : List α) {x : α} (unmarked : p x = false) :
    ∃ front ahead part back, before = front ++ ahead ∧ after = part ++ back ∧
      (∀ y ∈ back.head?, p y = true) ∧
      StartsAt p (before ++ x :: after) (ahead ++ x :: part) := by
  obtain ⟨part, back, rfl, inside, closed⟩ := up_to_marked p after
  obtain ⟨noneAhead, opened, reversed, unmarkedAhead, opens⟩ := up_to_marked p before.reverse
  have same : before = opened.reverse ++ noneAhead.reverse := by
    rw [← List.reverse_append, ← reversed, List.reverse_reverse]
  have plain : ∀ y ∈ noneAhead.reverse ++ x :: part, p y = false := by
    intro y member
    rcases List.mem_append.mp member with inAhead | behind
    · exact unmarkedAhead y (List.mem_reverse.mp inAhead)
    · rcases List.mem_cons.mp behind with rfl | behind
      · exact unmarked
      · exact inside y behind
  cases opened with
  | nil =>
    refine ⟨[], noneAhead.reverse, part, back, by simpa using same, rfl, closed,
      [], back, by simp [same], by simp, by simp, fun y member => ?_, closed⟩
    exact plain y (List.mem_of_mem_tail member)
  | cons y opened =>
    refine ⟨opened.reverse, y :: noneAhead.reverse, part, back, by simpa using same, rfl, closed,
      opened.reverse, back, by simp [same], by simp, fun _ => ?_, plain, closed⟩
    simpa using opens y rfl

end Stretches

end DynamicSql
