import DocLayout.Layout.Walk
import DocLayout.Proofs.Layout.Probe

/-!
# Runs of a walk

A run is a finite part of a walk, with the events that it reports.  A walk that comes to an end
yields one list of events and one ending, and the items among the events are its layout.

Nothing is forgotten in the course of a run.
-/

namespace DocLayout

/-- The item that an event reports, if it reports one. -/
def Event.item? : Event → Option Item
  | .item emitted => some emitted
  | .decision _ => none

/-- The items among events. -/
def itemsOf (events : List Event) : List Item :=
  events.filterMap Event.item?

@[simp]
theorem itemsOf_nil : itemsOf [] = [] := rfl

@[simp]
theorem itemsOf_item_cons (item : Item) (events : List Event) :
    itemsOf (.item item :: events) = item :: itemsOf events := rfl

@[simp]
theorem itemsOf_decision_cons (decision : Decision) (events : List Event) :
    itemsOf (.decision decision :: events) = itemsOf events := rfl

@[simp]
theorem itemsOf_append (first second : List Event) :
    itemsOf (first ++ second) = itemsOf first ++ itemsOf second :=
  List.filterMap_append

@[simp]
theorem itemsOf_map_item (items : List Item) : itemsOf (items.map .item) = items := by
  induction items with
  | nil => rfl
  | cons item items inductionHypothesis =>
      rw [List.map_cons, itemsOf_item_cons, inductionHypothesis]

/-- A whole layout: its items, and why it ends early if it does. -/
structure Layout where
  /-- The items. -/
  items : List Item
  /-- The cause of failure, if something cannot be laid out. -/
  ending : Option Error

namespace Walk

variable {σ : Type} {step : Walk σ → Outcome σ}

/-- The end of a walk, with a cause if it fails. -/
def Outcome.ended (ending : Option Error) (store : Store σ) : Outcome σ :=
  match ending with
  | none => .finished store
  | some cause => .failed cause store

/-- Some number of steps leads from a state of a walk to another one and reports events. -/
inductive Run (step : Walk σ → Outcome σ) : Walk σ → List Event → Walk σ → Prop where
  | refl (walk : Walk σ) : Run step walk [] walk
  | head {walk next last : Walk σ} {events later : List Event}
      (first : step walk = .next events next) (rest : Run step next later last) :
      Run step walk (events ++ later) last

/-- A walk reports events and then ends. -/
def Yields (step : Walk σ → Outcome σ) (walk : Walk σ) (events : List Event)
    (ending : Option Error) (store : Store σ) : Prop :=
  ∃ last, Run step walk events last ∧ step last = .ended ending store

/-- A walk reports events, ends, and leaves the host in a state. -/
def EndsIn (host : Host σ) (width : Int) (walk : Walk σ) (events : List Event)
    (ending : Option Error) (final : σ) : Prop :=
  ∃ store, Yields (Walk.step host width) walk events ending store ∧ store.state = final

variable {walk next middle : Walk σ} {events later : List Event} {ending : Option Error}
  {store : Store σ}

theorem Run.single (first : step walk = .next events next) : Run step walk events next := by
  have run := Run.head first (.refl next)
  rwa [List.append_nil] at run

theorem Run.trans {last : Walk σ} (run : Run step walk events middle)
    (rest : Run step middle later last) : Run step walk (events ++ later) last := by
  induction run with
  | refl => exact rest
  | head first _ inductionHypothesis =>
      rw [List.append_assoc]
      exact .head first (inductionHypothesis rest)

theorem Yields.of_run (run : Run step walk events middle)
    (yields : Yields step middle later ending store) :
    Yields step walk (events ++ later) ending store := by
  obtain ⟨last, rest, ends⟩ := yields
  exact ⟨last, run.trans rest, ends⟩

theorem EndsIn.of_run {host : Host σ} {width : Int} {final : σ}
    (run : Run (Walk.step host width) walk events middle)
    (ends : middle.EndsIn host width later ending final) :
    walk.EndsIn host width (events ++ later) ending final := by
  obtain ⟨store, yields, stateEq⟩ := ends
  exact ⟨store, .of_run run yields, stateEq⟩

theorem Yields.of_step (ends : step walk = .ended ending store) :
    Yields step walk [] ending store :=
  ⟨walk, .refl walk, ends⟩

theorem Outcome.next_ne_ended {walk : Walk σ} :
    (.next events walk : Outcome σ) ≠ .ended ending store := by
  cases ending <;> simp [ended]

theorem Outcome.ended_inj {other : Option Error} {otherStore : Store σ}
    (equal : ended ending store = ended other otherStore) :
    ending = other ∧ store = otherStore := by
  cases ending <;> cases other <;> simp_all [ended]

/-- Whatever a walk goes through, it still yields the rest of what it yields from the start. -/
theorem Yields.drop_run (yields : Yields step walk later ending store)
    (run : Run step walk events middle) :
    ∃ rest, later = events ++ rest ∧ Yields step middle rest ending store := by
  induction run generalizing later with
  | refl => exact ⟨later, rfl, yields⟩
  | head first _ inductionHypothesis =>
      obtain ⟨last, whole, ends⟩ := yields
      cases whole with
      | refl =>
          rw [first] at ends
          exact absurd ends Outcome.next_ne_ended
      | head sameFirst rest =>
          rw [first] at sameFirst
          cases sameFirst
          obtain ⟨remaining, rfl, remainingYields⟩ := inductionHypothesis ⟨last, rest, ends⟩
          exact ⟨remaining, (List.append_assoc ..).symm, remainingYields⟩

/-- A walk yields at most one thing. -/
theorem Yields.unique {other : List Event} {otherEnding : Option Error} {otherStore : Store σ}
    (yields : Yields step walk events ending store)
    (otherYields : Yields step walk other otherEnding otherStore) :
    events = other ∧ ending = otherEnding ∧ store = otherStore := by
  obtain ⟨last, run, ends⟩ := yields
  obtain ⟨rest, rfl, final, finalRun, finalEnds⟩ := otherYields.drop_run run
  cases finalRun with
  | refl =>
      rw [ends] at finalEnds
      exact ⟨(List.append_nil events).symm, Outcome.ended_inj finalEnds⟩
  | head first =>
      rw [ends] at first
      exact absurd first.symm Outcome.next_ne_ended

/-- The layout of a walk: the items that it reports, and how it ends. -/
def Emits (host : Host σ) (width : Int) (walk : Walk σ) (layout : Layout) : Prop :=
  ∃ events store, Yields (Walk.step host width) walk events layout.ending store ∧
    itemsOf events = layout.items

variable {host : Host σ} {width : Int}

/-- A walk has at most one layout. -/
theorem Emits.unique {layout other : Layout} (emits : walk.Emits host width layout)
    (otherEmits : walk.Emits host width other) : layout = other := by
  obtain ⟨events, store, yields, itemsEq⟩ := emits
  obtain ⟨otherEvents, otherStore, otherYields, otherItemsEq⟩ := otherEmits
  obtain ⟨eventsEq, endingEq, -⟩ := yields.unique otherYields
  rcases layout with ⟨items, ending⟩
  rcases other with ⟨otherItems, otherEnding⟩
  cases eventsEq
  cases endingEq
  exact congrArg (Layout.mk · _) (itemsEq.symm.trans otherItemsEq)

/-! ## Memory over time -/

/-- What is remembered in a state of a walk. -/
def memory : Walk σ → Memory
  | .walking _ store => store.memory
  | .probing _ _ _ probe => probe.store.memory

/-- What is remembered after a step. -/
def Outcome.memory : Outcome σ → Memory
  | .next _ walk => walk.memory
  | .finished store => store.memory
  | .failed _ store => store.memory

theorem memory_ended : (Outcome.ended ending store).memory = store.memory := by
  cases ending <;> rfl

/-- Nothing is forgotten by a step. -/
theorem remembered_after_step (host : Host σ) (width : Int) {position : Position}
    (remembered : position ∈ walk.memory) :
    position ∈ (walk.step host width).memory := by
  cases walk with
  | walking start store =>
      rw [Walk.step]
      split
      · exact remembered
      · rename_i cell rest _
        rcases store with ⟨memory, fresh, state⟩
        rcases moveEq : cell.obligation.move host start.column state with ⟨outcome, later⟩
        simp only [advance, moveEq]
        rcases outcome with cause | (_ | _ | _ | _) <;> exact remembered
  | probing column broken rest probe =>
      have after := Probe.remembered_after_step host width remembered
      rw [Walk.step]
      rcases stepEq : probe.step host width with next | (_ | _ | _) <;>
        rw [stepEq] at after <;> exact after

/-- Nothing is forgotten in the course of a walk. -/
theorem remembered_of_yields {position : Position}
    (yields : Yields (Walk.step host width) walk events ending store)
    (remembered : position ∈ walk.memory) : position ∈ store.memory := by
  obtain ⟨last, run, ends⟩ := yields
  induction run with
  | refl walk =>
      have after := remembered_after_step host width remembered
      rwa [ends, memory_ended] at after
  | head first _ inductionHypothesis =>
      have after := remembered_after_step host width remembered
      rw [first] at after
      exact inductionHypothesis after ends

end Walk

end DocLayout
