import Mathlib.Data.List.Forall2

/-!
# Computations that can fail

When a computation gives an answer, in terms of the computations it is made of.
-/

namespace DynamicSql

/-- Two computations in a row succeed if the first one does and the second one
    does with what the first one gives. -/
theorem bind_eq_ok_iff {ε α β : Type} {x : Except ε α} {f : α → Except ε β} {b : β} :
    x >>= f = .ok b ↔ ∃ a, x = .ok a ∧ f a = .ok b := by
  cases x with
  | error e => simp [bind, Except.bind]
  | ok a => simp [bind, Except.bind]

/-- Two computations in a row fail if the first one does, or the second one with what the first one
    gives. -/
theorem bind_eq_error_iff {ε α β : Type} {x : Except ε α} {f : α → Except ε β} {e : ε} :
    x >>= f = .error e ↔ x = .error e ∨ ∃ a, x = .ok a ∧ f a = .error e := by
  cases x with
  | error e' => simp [bind, Except.bind]
  | ok a => simp [bind, Except.bind]

/-- A computation that is known by its result succeeds with it. -/
theorem eq_ok_of_toOption {ε α : Type} {x : Except ε α} {a : α} (known : x.toOption = some a) :
    x = .ok a := by
  cases x with
  | error e => simp [Except.toOption] at known
  | ok b => simpa [Except.toOption] using known

/-- A computation whose result passes a check succeeds with such a result. -/
theorem exists_ok_of_any {ε α : Type} {x : Except ε α} {check : α → Bool}
    (passed : x.toOption.any check = true) : ∃ a, x = .ok a ∧ check a = true := by
  obtain ⟨a, known, passed⟩ := (Option.any_eq_true _ _).mp passed
  exact ⟨a, eq_ok_of_toOption known, passed⟩

/-- Computations in a row succeed if each of them does. -/
theorem exists_mapM_eq_ok {ε α β : Type} {f : α → Except ε β} {xs : List α}
    (each : ∀ x ∈ xs, ∃ y, f x = .ok y) :
    ∃ ys, xs.mapM f = .ok ys ∧ List.Forall₂ (fun x y => f x = .ok y) xs ys := by
  induction xs with
  | nil => exact ⟨[], rfl, .nil⟩
  | cons x rest ih =>
    obtain ⟨y, first⟩ := each x List.mem_cons_self
    obtain ⟨ys, others, all⟩ := ih fun z member => each z (List.mem_cons_of_mem x member)
    refine ⟨y :: ys, ?_, .cons first all⟩
    rw [List.mapM_cons, first, others]
    rfl

/-- The first of some computations in a row that fails is the failure. -/
theorem mapM_eq_error {ε α β : Type} {f : α → Except ε β} {front behind : List α} {x : α} {e : ε}
    (each : ∀ y ∈ front, ∃ z, f y = .ok z) (fails : f x = .error e) :
    (front ++ x :: behind).mapM f = .error e := by
  induction front with
  | nil =>
    rw [List.nil_append, List.mapM_cons, fails]
    rfl
  | cons y rest ih =>
    obtain ⟨z, first⟩ := each y List.mem_cons_self
    have later := ih fun w member => each w (List.mem_cons_of_mem y member)
    rw [List.cons_append, List.mapM_cons, first, later]
    rfl

/-- Computations in a row succeed with what each of them gives. -/
theorem mapM_eq_ok_iff {ε α β : Type} {f : α → Except ε β} {xs : List α} {ys : List β} :
    xs.mapM f = .ok ys ↔ List.Forall₂ (fun x y => f x = .ok y) xs ys := by
  induction xs generalizing ys with
  | nil =>
    rw [List.forall₂_nil_left_iff]
    exact ⟨fun same => (Except.ok.inj same).symm, fun none => by rw [none]; rfl⟩
  | cons x rest ih =>
    rw [List.mapM_cons, bind_eq_ok_iff, List.forall₂_cons_left_iff]
    constructor
    · intro ⟨y, first, more⟩
      obtain ⟨others, ran, last⟩ := bind_eq_ok_iff.mp more
      exact ⟨y, others, first, ih.mp ran, (Except.ok.inj last).symm⟩
    · intro ⟨y, others, first, each, same⟩
      exact ⟨y, first, bind_eq_ok_iff.mpr ⟨others, ih.mpr each, by rw [same]; rfl⟩⟩

/-- If computations in a row succeed, each of them does. -/
theorem exists_of_mapM_eq_ok {ε α β : Type} {f : α → Except ε β} {xs : List α} {ys : List β}
    (ran : xs.mapM f = .ok ys) : ∀ x ∈ xs, ∃ y, f x = .ok y := by
  intro x member
  have all := mapM_eq_ok_iff.mp ran
  induction all with
  | nil => cases member
  | cons first each ih =>
    rcases List.mem_cons.mp member with rfl | later
    · exact ⟨_, first⟩
    · exact ih (mapM_eq_ok_iff.mpr each) later

/-- Computations in a row succeed with what is known of each of them. -/
theorem mapM_eq_ok_map {ε α β : Type} {f : α → Except ε β} {g : α → β} {xs : List α}
    (each : ∀ x ∈ xs, f x = .ok (g x)) : xs.mapM f = .ok (xs.map g) := by
  rw [mapM_eq_ok_iff, List.forall₂_map_right_iff, List.forall₂_same]
  exact each

/-- Computations in a row fail with the error of the first one that fails. -/
theorem mapM_eq_error_iff {ε α β : Type} {f : α → Except ε β} {xs : List α} {e : ε} :
    xs.mapM f = .error e ↔
      ∃ (i : Nat) (x : α), xs[i]? = some x ∧ f x = .error e ∧
        ∀ j < i, ∀ y, xs[j]? = some y → ∃ z, f y = .ok z := by
  induction xs with
  | nil =>
    constructor
    · intro impossible
      cases impossible
    · intro ⟨_, _, found, _⟩
      cases found
  | cons x rest ih =>
    rw [List.mapM_cons]
    cases first : f x with
    | error e' =>
      constructor
      · intro same
        cases same
        exact ⟨0, x, rfl, first, fun j less => absurd less (Nat.not_lt_zero j)⟩
      · intro ⟨i, y, found, fails, earlier⟩
        cases i with
        | zero =>
          cases found
          rw [first] at fails
          cases fails
          rfl
        | succ i =>
          obtain ⟨z, succeeds⟩ := earlier 0 (Nat.succ_pos i) x rfl
          rw [first] at succeeds
          cases succeeds
    | ok z =>
      have behind : (do let ys ← rest.mapM f; pure (z :: ys)) = Except.error e ↔
          rest.mapM f = .error e := by
        cases rest.mapM f with
        | error e' => exact Iff.rfl
        | ok ys => exact ⟨nofun, nofun⟩
      refine behind.trans (ih.trans ?_)
      constructor
      · intro ⟨i, y, found, fails, earlier⟩
        refine ⟨i + 1, y, found, fails, fun j less w member => ?_⟩
        cases j with
        | zero =>
          cases member
          exact ⟨z, first⟩
        | succ j => exact earlier j (Nat.lt_of_succ_lt_succ less) w member
      · intro ⟨i, y, found, fails, earlier⟩
        cases i with
        | zero =>
          cases found
          rw [first] at fails
          cases fails
        | succ i =>
          exact ⟨i, y, found, fails, fun j less w member =>
            earlier (j + 1) (Nat.succ_lt_succ less) w member⟩

/-- The same for computations that depend on their places in the row. -/
theorem mapM_zipIdx_eq_error_iff {ε α β : Type} {f : α × Nat → Except ε β} {xs : List α} {e : ε} :
    xs.zipIdx.mapM f = .error e ↔
      ∃ (i : Nat) (x : α), xs[i]? = some x ∧ f (x, i) = .error e ∧
        ∀ j < i, ∀ y, xs[j]? = some y → ∃ z, f (y, j) = .ok z := by
  have entry (i : Nat) (x : α) (j : Nat) :
      xs.zipIdx[i]? = some (x, j) ↔ xs[i]? = some x ∧ j = i := by
    rw [List.getElem?_zipIdx, Option.map_eq_some_iff]
    constructor
    · intro ⟨y, found, same⟩
      cases same
      exact ⟨found, Nat.zero_add i⟩
    · intro ⟨found, same⟩
      subst same
      exact ⟨x, found, by rw [Nat.zero_add]⟩
  rw [mapM_eq_error_iff]
  constructor
  · intro ⟨i, (x, k), found, fails, earlier⟩
    obtain ⟨found, same⟩ := (entry i x k).mp found
    subst same
    exact ⟨k, x, found, fails, fun j less y there =>
      earlier j less (y, j) ((entry j y j).mpr ⟨there, rfl⟩)⟩
  · intro ⟨i, x, found, fails, earlier⟩
    refine ⟨i, (x, i), (entry i x i).mpr ⟨found, rfl⟩, fails, ?_⟩
    intro j less (y, k) there
    obtain ⟨there, same⟩ := (entry j y k).mp there
    subst same
    exact earlier k less y there

end DynamicSql
