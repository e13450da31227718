import DynamicSql.Proofs.Rendering.Run

/-!
# Corresponding outcomes

Two renderings of one template in two surroundings go on step by step. Each step
fails with the same error in both, or gives the same result and leaves frames that
are related. So renderings that are put together alike correspond if their steps do.
-/

namespace DynamicSql

namespace Rendering

/-- Two outcomes are the same error, or the same result with related frames. -/
inductive Corresponding {α : Type} (related : Frames → Frames → Prop) :
    Except Error (α × Frames) → Except Error (α × Frames) → Prop
  | failed (e : Error) : Corresponding related (.error e) (.error e)
  | done (a : α) {left right : Frames} (after : related left right) :
      Corresponding related (.ok (a, left)) (.ok (a, right))

namespace Corresponding

variable {α β : Type} {related later : Frames → Frames → Prop} {left right : Frames}

/-- What two steps do next may depend on how they ended. -/
theorem bind {x y : Rendering α} {f g : α → Rendering β}
    (first : Corresponding related (x.run left) (y.run right))
    (second : ∀ a left' right', x.run left = .ok (a, left') → y.run right = .ok (a, right') →
      related left' right' → Corresponding later ((f a).run left') ((g a).run right')) :
    Corresponding later ((x >>= f).run left) ((y >>= g).run right) := by
  rw [StateT.run_bind, StateT.run_bind]
  generalize ranLeft : x.run left = outcome at first second ⊢
  generalize ranRight : y.run right = outcome' at first second ⊢
  cases first with
  | failed e => exact .failed e
  | done a after => exact second a _ _ rfl rfl after

theorem pure (a : α) (after : related left right) :
    Corresponding related ((Pure.pure a : Rendering α).run left)
      ((Pure.pure a : Rendering α).run right) := .done a after

/-- What is made of a result without a look at the frames. -/
theorem bind_pure {x y : Rendering α} {f : α → β}
    (outcomes : Corresponding related (x.run left) (y.run right)) :
    Corresponding related ((do return f (← x) : Rendering β).run left)
      ((do return f (← y) : Rendering β).run right) :=
  .bind outcomes fun a _ _ _ _ after => .pure (f a) after

theorem throw (e : Error) :
    Corresponding (α := α) related ((MonadExcept.throw e : Rendering α).run left)
      ((MonadExcept.throw e : Rendering α).run right) := .failed e

theorem lift (x : Except Error α) (after : related left right) :
    Corresponding related ((liftM x : Rendering α).run left)
      ((liftM x : Rendering α).run right) := by
  cases x with
  | error e => exact .failed e
  | ok a => exact .done a after

/-- A change of the frames that cannot fail. -/
theorem modify {f g : Frames → Frames} {x y : PUnit → Rendering β}
    (next : Corresponding later ((x ⟨⟩).run (f left)) ((y ⟨⟩).run (g right))) :
    Corresponding later ((modify f >>= x : Rendering β).run left)
      ((modify g >>= y : Rendering β).run right) := next

theorem modifyGet {f g : Frames → α × Frames} (same : (f left).1 = (g right).1)
    (after : related (f left).2 (g right).2) :
    Corresponding related ((modifyGet f : Rendering α).run left)
      ((modifyGet g : Rendering α).run right) := by
  show Corresponding related (.ok ((f left).1, (f left).2)) (.ok ((g right).1, (g right).2))
  rw [same]
  exact .done _ after

/-- Frames that are looked at need not be the same. -/
theorem get {f g : Frames → Rendering β}
    (next : Corresponding related ((f left).run left) ((g right).run right)) :
    Corresponding related ((MonadState.get >>= f : Rendering β).run left)
      ((MonadState.get >>= g : Rendering β).run right) := next

/-- Outcomes that correspond have the same result, whatever the frames behind them are. -/
theorem run' {x y : Rendering α} (outcomes : Corresponding related (x.run left) (y.run right)) :
    x.run' left = y.run' right := by
  rw [StateT.run'_eq, StateT.run'_eq]
  generalize x.run left = outcome at outcomes ⊢
  generalize y.run right = outcome' at outcomes ⊢
  cases outcomes <;> rfl

end Corresponding

variable {α β : Type}

theorem run'_bind (x : Rendering α) (f : α → Rendering β) (frames : Frames) :
    (x >>= f).run' frames = (do
      let (a, after) ← x.run frames
      (f a).run' after) := by
  rw [StateT.run'_eq, StateT.run_bind]
  cases x.run frames <;> rfl

theorem run'_get_bind (f : Frames → Rendering β) (frames : Frames) :
    (get >>= f : Rendering β).run' frames = (f frames).run' frames := rfl

theorem run'_modify_bind (f : Frames → Frames) (x : PUnit → Rendering β) (frames : Frames) :
    (modify f >>= x : Rendering β).run' frames = (x ⟨⟩).run' (f frames) := rfl

theorem run'_modifyGet_bind (f : Frames → α × Frames) (x : α → Rendering β)
    (frames : Frames) :
    (modifyGet f >>= x : Rendering β).run' frames = (x (f frames).1).run' (f frames).2 := rfl

theorem run'_bind_pure (x : Rendering α) (f : α → β) (frames : Frames) :
    (do return f (← x) : Rendering β).run' frames = (do return f (← x.run' frames)) := by
  rw [run'_bind, StateT.run'_eq]
  cases x.run frames <;> rfl

/-- A change of the frames behind a rendering does not change its result. -/
theorem run'_bind_modify (x : Rendering α) (f : Frames → Frames) (frames : Frames) :
    (do
      let a ← x
      modify f
      return a : Rendering α).run' frames = x.run' frames := by
  rw [run'_bind, StateT.run'_eq]
  cases x.run frames <;> rfl

end Rendering

end DynamicSql
