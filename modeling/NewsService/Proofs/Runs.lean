/-!
# Runs

A run is a number of moves of a system, one after another. What every move keeps is kept by every
run, and a measure that every move lowers by one bounds the number of moves.
-/

namespace NewsService

variable {State : Type} {Step : State → State → Prop} {m n : Nat} {s t u : State}

/-- A number of moves, one after another. -/
inductive Moves (Step : State → State → Prop) : Nat → State → State → Prop
  | refl (s : State) : Moves Step 0 s s
  | step {n : Nat} {s t u : State} (first : Step s t) (rest : Moves Step n t u) :
      Moves Step (n + 1) s u

namespace Moves

theorem trans (h : Moves Step m s t) (h' : Moves Step n t u) : Moves Step (m + n) s u := by
  induction h with
  | refl => rwa [Nat.zero_add]
  | step first _ ih =>
    rw [Nat.succ_add]
    exact .step first (ih h')

/-- What every move keeps is kept by a run. -/
theorem keeps (Inv : State → Prop) (hstep : ∀ s t, Step s t → Inv s → Inv t)
    (h : Moves Step n s t) (hs : Inv s) : Inv t := by
  induction h with
  | refl => exact hs
  | step first _ ih => exact ih (hstep _ _ first hs)

/-- When every move lowers a measure by one, a run lowers it by the number of its moves. -/
theorem measure_eq (left : State → Nat) (hstep : ∀ s t, Step s t → left s = left t + 1)
    (h : Moves Step n s t) : left s = left t + n := by
  induction h with
  | refl => rfl
  | step first _ ih => rw [hstep _ _ first, ih, Nat.add_assoc]

end Moves

end NewsService
