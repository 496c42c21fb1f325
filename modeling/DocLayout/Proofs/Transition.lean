import DocLayout.Transition
import Mathlib.Logic.Relation

/-!
# Reaching and halting

What a machine does in the long run, without counting its steps: the states that it reaches, and the
result that it ends with.  A machine is a function, so it ends with at most one result, and it ends
with one exactly if some bounded run does.

Two machines that make the same steps, up to a view of their states, make the same bounded runs.
-/

namespace DocLayout.Progress

variable {α β : Type} {step : α → Progress α β}

/-- Some number of steps leads from a state to another one. -/
def Reaches (step : α → Progress α β) : α → α → Prop :=
  Relation.ReflTransGen fun source target => step source = .running target

/-- Some number of steps leads from a state to a result. -/
def Halts (step : α → Progress α β) (source : α) (result : β) : Prop :=
  ∃ last, Reaches step source last ∧ step last = .halted result

theorem Reaches.refl (state : α) : Reaches step state state :=
  Relation.ReflTransGen.refl

theorem Reaches.head {source next target : α} (first : step source = .running next)
    (later : Reaches step next target) : Reaches step source target :=
  Relation.ReflTransGen.head first later

theorem Reaches.trans {source middle target : α} (first : Reaches step source middle)
    (second : Reaches step middle target) : Reaches step source target :=
  Relation.ReflTransGen.trans first second

theorem Halts.of_step {source : α} {result : β} (last : step source = .halted result) :
    Halts step source result :=
  ⟨source, .refl source, last⟩

theorem Halts.of_reaches {source middle : α} {result : β} (first : Reaches step source middle)
    (halts : Halts step middle result) : Halts step source result := by
  obtain ⟨last, reaches, ends⟩ := halts
  exact ⟨last, first.trans reaches, ends⟩

theorem Halts.head {source next : α} {result : β} (first : step source = .running next)
    (halts : Halts step next result) : Halts step source result :=
  halts.of_reaches (.head first (.refl next))

/-- A machine ends with a result exactly if a run with some bound does. -/
theorem halts_iff_exists_iterate {source : α} {result : β} :
    Halts step source result ↔ ∃ bound, iterate step bound source = .halted result := by
  constructor
  · rintro ⟨last, reaches, ends⟩
    induction reaches using Relation.ReflTransGen.head_induction_on with
    | refl => exact ⟨1, by rw [iterate_succ, ends]⟩
    | head first _ inductionHypothesis =>
        obtain ⟨bound, halts⟩ := inductionHypothesis
        exact ⟨bound + 1, by rw [iterate_succ, first]; exact halts⟩
  · rintro ⟨bound, halts⟩
    induction bound generalizing source with
    | zero => simp at halts
    | succ bound inductionHypothesis =>
        rw [iterate_succ] at halts
        cases next : step source with
        | running state =>
            rw [next] at halts
            exact .head next (inductionHypothesis halts)
        | halted found =>
            rw [next] at halts
            cases halts
            exact .of_step next

/-- After a step fewer steps are left. -/
theorem exists_iterate_of_running {source next : α} {result : β} {bound : Nat}
    (running : step source = .running next) (halts : iterate step bound source = .halted result) :
    ∃ fewer < bound, iterate step fewer next = .halted result := by
  cases bound with
  | zero => simp at halts
  | succ fewer =>
      rw [iterate_succ, running] at halts
      exact ⟨fewer, Nat.lt_succ_self fewer, halts⟩

/-- A run passes through all that is reached, and then no more steps are left than at first. -/
theorem Reaches.exists_iterate {source target : α} {result : β} {bound : Nat}
    (reaches : Reaches step source target) (halts : iterate step bound source = .halted result) :
    ∃ fewer ≤ bound, iterate step fewer target = .halted result := by
  induction reaches using Relation.ReflTransGen.head_induction_on generalizing bound with
  | refl => exact ⟨bound, Nat.le_refl bound, halts⟩
  | head first _ inductionHypothesis =>
      obtain ⟨fewer, less, later⟩ := exists_iterate_of_running first halts
      obtain ⟨fewest, le, last⟩ := inductionHypothesis later
      exact ⟨fewest, Nat.le_trans le (Nat.le_of_lt less), last⟩

/-- A machine ends with at most one result. -/
theorem Halts.unique {source : α} {first second : β} (firstHalts : Halts step source first)
    (secondHalts : Halts step source second) : first = second := by
  obtain ⟨bound, firstRun⟩ := halts_iff_exists_iterate.mp firstHalts
  obtain ⟨other, secondRun⟩ := halts_iff_exists_iterate.mp secondHalts
  have firstLater := iterate_mono firstRun (Nat.le_max_left bound other)
  have secondLater := iterate_mono secondRun (Nat.le_max_right bound other)
  rw [firstLater] at secondLater
  exact (Progress.halted.inj secondLater)

/-! ## Bounded runs -/

theorem iterate_of_step {state : α} {after progress : Progress α β} {bound : Nat}
    (later : (match after with
      | .running next => iterate step bound next
      | .halted result => .halted result) = progress)
    (first : step state = after) : iterate step (bound + 1) state = progress := by
  rw [iterate_succ, first]
  exact later

/-- What every step keeps holds as long as a run goes on. -/
theorem kept_of_iterate {inside : α → Prop}
    (kept : ∀ state next, inside state → step state = .running next → inside next)
    {state last : α} {bound : Nat} (start : inside state)
    (running : iterate step bound state = .running last) : inside last := by
  induction bound generalizing state with
  | zero =>
      cases running
      exact start
  | succ bound inductionHypothesis =>
      rw [iterate_succ] at running
      cases next : step state with
      | running later =>
          rw [next] at running
          exact inductionHypothesis (kept state later start next) running
      | halted result =>
          rw [next] at running
          cases running

/-- The same progress, with the state seen through a view. -/
def map {γ : Type} (view : α → γ) : Progress α β → Progress γ β
  | .running state => .running (view state)
  | .halted result => .halted result

@[simp]
theorem map_running {γ : Type} (view : α → γ) (state : α) :
    (running state : Progress α β).map view = .running (view state) := rfl

@[simp]
theorem map_halted {γ : Type} (view : α → γ) (result : β) :
    (halted result : Progress α β).map view = .halted result := rfl

/-- A machine that makes the steps of another one, seen through a view, makes its runs. -/
theorem iterate_map {γ : Type} {other : γ → Progress γ β} {view : α → γ} {inside : α → Prop}
    (agree : ∀ state, inside state → other (view state) = (step state).map view)
    (kept : ∀ state next, inside state → step state = .running next → inside next)
    {state : α} (start : inside state) (bound : Nat) :
    iterate other bound (view state) = (iterate step bound state).map view := by
  induction bound generalizing state with
  | zero => rfl
  | succ bound inductionHypothesis =>
      rw [iterate_succ, iterate_succ, agree state start]
      cases next : step state with
      | running later => exact inductionHypothesis (kept state later start next)
      | halted result => rfl

end DocLayout.Progress
