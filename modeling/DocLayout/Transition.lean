/-!
# Bounded runs of a step function

A machine is given by a function that takes a state one step further or ends with a result.
`Progress.iterate` makes at most a given number of steps, so it is total even where the machine
itself never ends; a run that has ended is not changed by a larger bound.
-/

namespace DocLayout

/-- Where a machine is after a step. -/
inductive Progress (α β : Type) where
  /-- It goes on from a state. -/
  | running (state : α)
  /-- It has ended. -/
  | halted (result : β)

namespace Progress

variable {α β : Type}

/-- At most `bound` steps from a state. -/
def iterate (step : α → Progress α β) : (bound : Nat) → α → Progress α β
  | 0, state => .running state
  | bound + 1, state =>
      match step state with
      | .running next => iterate step bound next
      | .halted result => .halted result

@[simp]
theorem iterate_zero (step : α → Progress α β) (state : α) :
    iterate step 0 state = .running state := rfl

theorem iterate_succ (step : α → Progress α β) (bound : Nat) (state : α) :
    iterate step (bound + 1) state =
      match step state with
      | .running next => iterate step bound next
      | .halted result => .halted result := rfl

/-- Runs may be cut into parts. -/
theorem iterate_add (step : α → Progress α β) (first second : Nat) (state : α) :
    iterate step (first + second) state =
      match iterate step first state with
      | .running next => iterate step second next
      | .halted result => .halted result := by
  induction first generalizing state with
  | zero => simp
  | succ first inductionHypothesis =>
      rw [Nat.succ_add, iterate_succ, iterate_succ]
      cases step state with
      | running next => exact inductionHypothesis next
      | halted result => rfl

/-- A larger bound does not change a result. -/
theorem iterate_mono {step : α → Progress α β} {bound larger : Nat} {state : α} {result : β}
    (halts : iterate step bound state = .halted result) (le : bound ≤ larger) :
    iterate step larger state = .halted result := by
  obtain ⟨more, rfl⟩ := Nat.exists_eq_add_of_le le
  rw [iterate_add, halts]

end Progress

end DocLayout
