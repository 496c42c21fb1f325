import DocLayout.Proofs.Layout.Branch
import DocLayout.Proofs.Layout.Columns

/-!
# Straight walks

A straight walk decides every choice for the same side, so it has no need of probes.  If the flat
one never goes past the width, then it is the layout: each probe stops at a line break with all
choices flat, and later choices may be decided within a probe that was started for an earlier one.
If the width is negative, then the broken one is the layout, since every column is beyond the width
and probes end before they make a move.

Nothing is assumed of the host.  The state that it is left in is the one that the straight walk
leaves it in, so the layout calls it just as the straight walk does.
-/

namespace DocLayout

open Progress

variable {σ : Type}

/-- What a move emits. -/
def Move.items (indent : Int) : Move → List Item
  | .emit fragment => [.text fragment]
  | .newline => [.line indent]
  | .choose _ _ => []
  | .replace _ => []

/-- What a move puts in the place of its obligation if choices are decided for a side. -/
def Move.parts (side : Side) (indent : Int) : Move → List Obligation
  | .emit _ => []
  | .newline => []
  | .choose flat broken => [⟨indent, side.pick flat broken⟩]
  | .replace parts => parts

/-- Some moves from a column over obligations with all choices decided for a side: the items that
they emit, the place that they lead to, and the state of the host before and after. -/
inductive Straight (host : Host σ) (side : Side) :
    Int → List Obligation → σ → List Item → Int → List Obligation → σ → Prop where
  | refl (column : Int) (parts : List Obligation) (state : σ) :
      Straight host side column parts state [] column parts state
  | step {column next : Int} {part : Obligation} {rest remaining : List Obligation}
      {state after final : σ} {move : Move} {items : List Item}
      (moves : part.move host column state = (.ok move, after))
      (later : Straight host side (Item.columnAfter column (move.items part.indent))
        (move.parts side part.indent ++ rest) after items next remaining final) :
      Straight host side column (part :: rest) state (move.items part.indent ++ items) next
        remaining final

/-- A straight walk makes no further move: everything has been laid out, or something cannot be. -/
inductive Straight.Ends (host : Host σ) (column : Int) :
    List Obligation → σ → Option Error → σ → Prop where
  | done (state : σ) : Ends host column [] state none state
  | fails {part : Obligation} {rest : List Obligation} {state final : σ} {cause : Error}
      (moves : part.move host column state = (.error cause, final)) :
      Ends host column (part :: rest) state (some cause) final

/-- A walk ends with a layout and leaves the host in a state. -/
def Walk.EmitsTo (host : Host σ) (width : Int) (walk : Walk σ) (layout : Layout) (final : σ) :
    Prop :=
  ∃ events, walk.EndsIn host width events layout.ending final ∧ itemsOf events = layout.items

variable {host : Host σ} {side : Side} {width column next : Int} {part : Obligation}
  {parts rest remaining : List Obligation} {state after final : σ} {items : List Item} {move : Move}

namespace Straight

theorem emit {fragment : Fragment}
    (moves : part.move host column state = (.ok (.emit fragment), after))
    (later : Straight host side (column + fragment.width) rest after items next remaining final) :
    Straight host side column (part :: rest) state (.text fragment :: items) next remaining final :=
  .step moves later

theorem newline (moves : part.move host column state = (.ok .newline, after))
    (later : Straight host side (max part.indent 0) rest after items next remaining final) :
    Straight host side column (part :: rest) state (.line part.indent :: items) next remaining
      final :=
  .step moves later

theorem choose {flat broken : Value}
    (moves : part.move host column state = (.ok (.choose flat broken), after))
    (later : Straight host side column (⟨part.indent, side.pick flat broken⟩ :: rest) after items
      next remaining final) :
    Straight host side column (part :: rest) state items next remaining final :=
  .step moves later

theorem replace {parts : List Obligation}
    (moves : part.move host column state = (.ok (.replace parts), after))
    (later : Straight host side column (parts ++ rest) after items next remaining final) :
    Straight host side column (part :: rest) state items next remaining final :=
  .step moves later

/-- One more move at the end. -/
theorem tail
    (straight : Straight host side column parts state items next (part :: rest) after)
    (moves : part.move host next after = (.ok move, final)) :
    Straight host side column parts state (items ++ move.items part.indent)
      (Item.columnAfter next (move.items part.indent)) (move.parts side part.indent ++ rest)
      final := by
  generalize pendingEq : part :: rest = pending at straight
  induction straight with
  | refl =>
      cases pendingEq
      have single := Straight.step moves (.refl _ (move.parts side part.indent ++ rest) final)
      rwa [List.append_nil] at single
  | step first _ inductionHypothesis =>
      rw [List.append_assoc]
      exact .step first (inductionHypothesis moves pendingEq)

theorem column_eq
    (straight : Straight host side column parts state items next remaining final) :
    next = Item.columnAfter column items := by
  induction straight with
  | refl => rfl
  | step _ _ inductionHypothesis =>
      rw [Item.columnAfter_append]
      exact inductionHypothesis

end Straight

namespace Walk

/-! ## Flat walks -/

/-- The place that a walk is at, or the probe that it waits for. -/
def position : Walk σ → Position
  | .walking position _ => position
  | .probing _ _ _ probe => probe.position

/-- What a probe has emitted and its walk has not. -/
def held : Walk σ → List Item
  | .walking _ _ => []
  | .probing _ _ _ probe => probe.items.reverse

/-- A walk, or the probe that it waits for, is at a column with obligations. -/
structure IsAt (walk : Walk σ) (column : Int) (parts : List Obligation) (state : σ) : Prop where
  column_eq : walk.position.column = column
  parts_eq : walk.position.work.obligations = parts
  state_eq : walk.state = state

variable {walk : Walk σ}

theorem exists_step_of_fits {start : Int} {broken : Obligation} {behind : Work} {probe : Probe σ}
    {place : Position} {store : Store σ}
    (halted : probe.step host width = .halted (.fits items place store)) :
    ∃ events, step host width (.probing start broken behind probe) =
      .next events (.walking place store) ∧ itemsOf events = items :=
  ⟨_, step_of_halted halted, itemsOf_map_item items⟩

/-- Within the width a step makes the move of the first obligation, and decides a choice for its
flat side, unless something is remembered. -/
theorem IsAt.exists_step (isAt : walk.IsAt column (part :: rest) state)
    (memoryEq : walk.memory = .empty) (within : column ≤ width)
    (moves : part.move host column state = (.ok move, after)) :
    ∃ events next, walk.step host width = .next events next ∧
      next.IsAt (Item.columnAfter column (move.items part.indent))
        (move.parts .flat part.indent ++ rest) after ∧
      next.memory = .empty ∧ itemsOf events ++ next.held = walk.held ++ move.items part.indent := by
  obtain ⟨rfl, partsEq, rfl⟩ := isAt
  obtain ⟨cell, work, workEq, rfl, rfl⟩ := List.map_eq_cons_iff.mp partsEq
  cases walk with
  | walking place store =>
      have moved : cell.obligation.move host place.column store.state = (.ok move, after) := moves
      have workEq : place.work = cell :: work := workEq
      have stepEq := step_eq_follow host width store workEq
      rw [moved] at stepEq
      cases move with
      | emit fragment => exact ⟨_, _, stepEq, ⟨rfl, rfl, rfl⟩, memoryEq, rfl⟩
      | newline => exact ⟨_, _, stepEq, ⟨rfl, rfl, rfl⟩, memoryEq, rfl⟩
      | choose flat broken =>
          exact ⟨_, _, stepEq, ⟨rfl, Work.obligations_push_singleton .., rfl⟩, memoryEq, rfl⟩
      | replace parts =>
          exact ⟨_, _, stepEq, ⟨rfl, Work.obligations_push .., rfl⟩, memoryEq, rfl⟩
  | probing start broken behind probe =>
      have moved : cell.obligation.move host probe.position.column probe.store.state =
          (.ok move, after) := moves
      have new : probe.position ∉ probe.store.memory := by
        rw [show probe.store.memory = .empty from memoryEq]
        exact Memory.not_mem_empty _
      have stepEq := (Probe.step_of_new within workEq new).trans
        (Probe.advance_eq_follow host probe cell work)
      rw [moved] at stepEq
      cases move with
      | emit fragment =>
          refine ⟨_, _, step_of_running stepEq, ⟨rfl, rfl, rfl⟩, memoryEq, ?_⟩
          simp [held, Move.items]
      | newline =>
          obtain ⟨events, nextEq, itemsEq⟩ := exists_step_of_fits stepEq
          refine ⟨events, _, nextEq, ⟨rfl, rfl, rfl⟩, memoryEq, ?_⟩
          simp [itemsEq, held, Move.items]
      | choose flat broken =>
          refine ⟨_, _, step_of_running stepEq,
            ⟨rfl, Work.obligations_push_singleton .., rfl⟩, memoryEq, ?_⟩
          simp [held, Move.items]
      | replace parts =>
          refine ⟨_, _, step_of_running stepEq,
            ⟨rfl, Work.obligations_push .., rfl⟩, memoryEq, ?_⟩
          simp [held, Move.items]

/-- At the end a walk emits what its probe has emitted, if it waits for one. -/
theorem IsAt.emitsTo_of_nil (isAt : walk.IsAt column [] state) (within : column ≤ width) :
    walk.EmitsTo host width ⟨walk.held, none⟩ state := by
  obtain ⟨rfl, partsEq, rfl⟩ := isAt
  have workEq : walk.position.work = [] := List.map_eq_nil_iff.mp partsEq
  have finished (place : Position) (store : Store σ) (nothing : place.work = []) :
      (walking place store).EndsIn host width [] none store.state :=
    ⟨store, .of_step (by rw [step, nothing]; rfl), rfl⟩
  cases walk with
  | walking place store => exact ⟨[], finished place store workEq, rfl⟩
  | probing start broken behind probe =>
      obtain ⟨events, nextEq, itemsEq⟩ := exists_step_of_fits (Probe.step_of_nil within workEq)
      have ends := (finished probe.position probe.store workEq).of_run (.single nextEq)
      rw [List.append_nil] at ends
      exact ⟨events, ends, itemsEq⟩

/-- A walk emits the items of a flat walk that never goes past the width, behind what its probe has
emitted, if it waits for one. -/
theorem IsAt.emitsTo_of_straight (isAt : walk.IsAt column parts state)
    (memoryEq : walk.memory = .empty)
    (straight : Straight host .flat column parts state items next remaining final)
    (within : ∀ before, before <+: items → Item.columnAfter column before ≤ width)
    (ends : remaining = []) :
    walk.EmitsTo host width ⟨walk.held ++ items, none⟩ final := by
  induction straight generalizing walk with
  | refl =>
      subst ends
      rw [List.append_nil]
      exact isAt.emitsTo_of_nil (within [] List.nil_prefix)
  | @step column next part rest remaining state after final move items moves _
      inductionHypothesis =>
      obtain ⟨events, later, stepEq, laterAt, laterMemory, itemsEq⟩ :=
        isAt.exists_step memoryEq (within [] List.nil_prefix) moves
      have laterWithin : ∀ before, before <+: items → Item.columnAfter
          (Item.columnAfter column (move.items part.indent)) before ≤ width := by
        intro before isBefore
        rw [← Item.columnAfter_append]
        exact within _ ((List.prefix_append_right_inj _).mpr isBefore)
      obtain ⟨laterEvents, laterEnds, laterItems⟩ :=
        inductionHypothesis laterAt laterMemory laterWithin ends
      refine ⟨events ++ laterEvents, laterEnds.of_run (.single stepEq), ?_⟩
      rw [itemsOf_append, laterItems, ← List.append_assoc, itemsEq, List.append_assoc]

/-! ## Broken walks -/

/-- Beyond the width a walk makes the move of the first obligation, and decides a choice for its
broken side. -/
theorem IsAt.exists_run {position : Position} {store : Store σ}
    (isAt : (walking position store).IsAt column (part :: rest) state) (beyond : width < column)
    (moves : part.move host column state = (.ok move, after)) :
    ∃ events last kept, Run (step host width) (.walking position store) events
        (.walking last kept) ∧
      (walking last kept).IsAt (Item.columnAfter column (move.items part.indent))
        (move.parts .broken part.indent ++ rest) after ∧
      itemsOf events = move.items part.indent := by
  obtain ⟨rfl, partsEq, rfl⟩ := isAt
  obtain ⟨cell, work, workEq, rfl, rfl⟩ := List.map_eq_cons_iff.mp partsEq
  have moved : cell.obligation.move host position.column store.state = (.ok move, after) := moves
  have workEq : position.work = cell :: work := workEq
  have stepEq := step_eq_follow host width store workEq
  rw [moved] at stepEq
  cases move with
  | emit fragment => exact ⟨_, _, _, .single stepEq, ⟨rfl, rfl, rfl⟩, rfl⟩
  | newline => exact ⟨_, _, _, .single stepEq, ⟨rfl, rfl, rfl⟩, rfl⟩
  | choose flat broken =>
      let attempt : Probe σ :=
        .start ⟨position.column, Work.push store.fresh [⟨cell.obligation.indent, flat⟩] work⟩
          { store with fresh := store.fresh + 1, state := after }
      have halted : attempt.step host width = .halted (.overflows attempt.abandoned) :=
        (Probe.step_of_beyond beyond).trans (Probe.backtrack_of_nil rfl)
      exact ⟨_, _, _, (Run.single stepEq).trans (.single (step_of_halted halted)),
        ⟨rfl, Work.obligations_push_singleton .., rfl⟩, rfl⟩
  | replace parts =>
      exact ⟨_, _, _, .single stepEq, ⟨rfl, Work.obligations_push .., rfl⟩, rfl⟩

/-- With a negative width a walk makes all moves of a broken walk. -/
theorem IsAt.exists_run_of_straight {position : Position} {store : Store σ}
    (isAt : (walking position store).IsAt column parts state) (negative : width < 0)
    (nonneg : 0 ≤ column)
    (straight : Straight host .broken column parts state items next remaining final) :
    ∃ events last kept, Run (step host width) (.walking position store) events
        (.walking last kept) ∧
      (walking last kept).IsAt next remaining final ∧ itemsOf events = items := by
  induction straight generalizing position store with
  | refl => exact ⟨[], position, store, .refl _, isAt, rfl⟩
  | step moves _ inductionHypothesis =>
      obtain ⟨events, middle, between, run, middleAt, itemsEq⟩ :=
        isAt.exists_run (Int.lt_of_lt_of_le negative nonneg) moves
      obtain ⟨later, last, kept, laterRun, lastAt, laterItems⟩ :=
        inductionHypothesis middleAt (Item.columnAfter_nonneg nonneg _)
      refine ⟨_, last, kept, run.trans laterRun, lastAt, ?_⟩
      rw [itemsOf_append, itemsEq, laterItems]

/-- A broken walk leads to where a walk is.  Where the walk waits for a probe, the broken walk leads
to the broken member of the choice, and the probe has no open choice. -/
def OnStraight (host : Host σ) (column : Int) (parts : List Obligation) (state : σ)
    (items : List Item) : Walk σ → Prop
  | .walking position store =>
      Straight host .broken column parts state items position.column position.work.obligations
        store.state
  | .probing here broken rest probe =>
      Straight host .broken column parts state items here (broken :: rest.obligations)
        probe.store.state ∧
      probe.position.column = here ∧ probe.choices = []

/-- A probe that a walk waits for ends at once, and leaves the host as it is. -/
theorem OnStraight.probe_overflows {here : Int} {broken : Obligation} {work : Work}
    {probe : Probe σ}
    (onStraight : (probing here broken work probe).OnStraight host column parts state items)
    (negative : width < 0) (nonneg : 0 ≤ column) :
    ∃ store, probe.step host width = .halted (.overflows store) ∧
      store.state = probe.store.state := by
  obtain ⟨straight, columnEq, choicesEq⟩ := onStraight
  have beyond : width < probe.position.column := by
    rw [columnEq, straight.column_eq]
    exact Int.lt_of_lt_of_le negative (Item.columnAfter_nonneg nonneg items)
  exact ⟨probe.abandoned, (Probe.step_of_beyond beyond).trans (Probe.backtrack_of_nil choicesEq),
    rfl⟩

/-- Beyond the width a step goes along the broken walk, or waits for a probe to end. -/
theorem OnStraight.of_step {later : Walk σ} {events : List Event}
    (onStraight : walk.OnStraight host column parts state items) (negative : width < 0)
    (nonneg : 0 ≤ column) (stepEq : walk.step host width = .next events later) :
    later.OnStraight host column parts state (items ++ itemsOf events) := by
  cases walk with
  | walking position store =>
      cases workEq : position.work with
      | nil => simp [step, workEq] at stepEq
      | cons cell work =>
          have followEq := step_eq_follow host width store workEq
          rcases moved : cell.obligation.move host position.column store.state with
            ⟨cause | move, after⟩
          · rw [moved] at followEq
            rw [followEq] at stepEq
            cases stepEq
          · rw [moved] at followEq
            rw [followEq] at stepEq
            rw [OnStraight, workEq] at onStraight
            have extended := onStraight.tail moved
            cases move with
            | emit fragment =>
                cases stepEq
                exact extended
            | newline =>
                cases stepEq
                exact extended
            | choose flat broken =>
                cases stepEq
                exact ⟨extended, rfl, rfl⟩
            | replace parts =>
                cases stepEq
                rw [OnStraight, Work.obligations_push]
                exact extended
  | probing here broken work probe =>
      obtain ⟨store, halted, stateEq⟩ := onStraight.probe_overflows negative nonneg
      have concluded := (step_of_halted halted).symm.trans stepEq
      cases concluded
      rw [OnStraight, Work.obligations_push_singleton, itemsOf_decision_cons, itemsOf_nil,
        List.append_nil, stateEq]
      exact onStraight.1

theorem OnStraight.of_run {last : Walk σ} {events : List Event}
    (run : Run (step host width) walk events last)
    (onStraight : walk.OnStraight host column parts state items) (negative : width < 0)
    (nonneg : 0 ≤ column) :
    last.OnStraight host column parts state (items ++ itemsOf events) := by
  induction run generalizing items with
  | refl => simpa using onStraight
  | head first _ inductionHypothesis =>
      have later := inductionHypothesis (onStraight.of_step negative nonneg first)
      rwa [List.append_assoc, ← itemsOf_append] at later

/-- A broken walk leads to the state of the host. -/
theorem OnStraight.exists_straight (onStraight : walk.OnStraight host column parts state items) :
    ∃ next remaining, Straight host .broken column parts state items next remaining walk.state := by
  cases walk with
  | walking position store => exact ⟨_, _, onStraight⟩
  | probing here broken rest probe => exact ⟨_, _, onStraight.1⟩

theorem walking_onStraight {position : Position} {store : Store σ}
    (isAt : (walking position store).IsAt column parts state) :
    (walking position store).OnStraight host column parts state [] := by
  obtain ⟨rfl, rfl, rfl⟩ := isAt
  exact .refl _ _ _

/-- A walk ends where a straight walk does, if it does not wait for a probe. -/
theorem exists_ended_iff {position : Position} {store : Store σ} {ending : Option Error} :
    (∃ kept, step host width (.walking position store) = .ended ending kept ∧ kept.state = final) ↔
      Straight.Ends host position.column position.work.obligations store.state ending final := by
  cases workEq : position.work with
  | nil =>
      have stepEq : step host width (.walking position store) = .ended none store := by
        rw [step, workEq]
        rfl
      constructor
      · rintro ⟨kept, ended, rfl⟩
        obtain ⟨rfl, rfl⟩ := Outcome.ended_inj (stepEq.symm.trans ended)
        exact .done _
      · rintro ⟨⟩
        exact ⟨store, stepEq, rfl⟩
  | cons cell work =>
      have stepEq := step_eq_follow host width store workEq
      constructor
      · rintro ⟨kept, ended, rfl⟩
        rcases moved : cell.obligation.move host position.column store.state with
          ⟨cause | move, after⟩
        · rw [moved] at stepEq
          have failed : step host width (.walking position store) = .ended (some cause) _ := stepEq
          obtain ⟨rfl, rfl⟩ := Outcome.ended_inj (failed.symm.trans ended)
          exact .fails moved
        · rw [moved] at stepEq
          cases move <;> exact absurd (stepEq.symm.trans ended) Outcome.next_ne_ended
      · intro ends
        cases ends with
        | fails moved =>
            rw [moved] at stepEq
            exact ⟨_, stepEq, rfl⟩

/-- Where a walk ends, the broken walk ends. -/
theorem OnStraight.exists_ends {ending : Option Error} {store : Store σ}
    (onStraight : walk.OnStraight host column parts state items) (negative : width < 0)
    (nonneg : 0 ≤ column) (ended : walk.step host width = .ended ending store) :
    ∃ next remaining after, Straight host .broken column parts state items next remaining after ∧
      Straight.Ends host next remaining after ending store.state := by
  cases walk with
  | walking position kept =>
      exact ⟨_, _, _, onStraight, exists_ended_iff.mp ⟨store, ended, rfl⟩⟩
  | probing here broken work probe =>
      obtain ⟨store, halted, -⟩ := onStraight.probe_overflows negative nonneg
      exact absurd ((step_of_halted halted).symm.trans ended) Outcome.next_ne_ended

/-- With a negative width a walk emits what the broken walk emits, and ends as it does. -/
theorem IsAt.emitsTo_iff_straight {position : Position} {store : Store σ}
    (isAt : (walking position store).IsAt column parts state) (negative : width < 0)
    (nonneg : 0 ≤ column) {layout : Layout} :
    (walking position store).EmitsTo host width layout final ↔
      ∃ next remaining after,
        Straight host .broken column parts state layout.items next remaining after ∧
        Straight.Ends host next remaining after layout.ending final := by
  constructor
  · rintro ⟨events, ⟨kept, ⟨last, run, ended⟩, rfl⟩, itemsEq⟩
    rw [← itemsEq]
    exact ((walking_onStraight isAt).of_run run negative nonneg).exists_ends negative nonneg ended
  · rintro ⟨next, remaining, after, straight, ends⟩
    obtain ⟨events, last, kept, run, lastAt, itemsEq⟩ :=
      isAt.exists_run_of_straight negative nonneg straight
    obtain ⟨rfl, rfl, rfl⟩ := lastAt
    obtain ⟨kept, ended, stateEq⟩ := exists_ended_iff.mpr ends
    exact ⟨events, ⟨kept, ⟨_, run, ended⟩, stateEq⟩, itemsEq⟩

end Walk

/-- What widths at the two ends make of a layout, whatever the host does.  If the walk that decides
all choices for their flat side ends and never goes past the width, then the layout is that of this
walk.  If the width is negative, then the layout is that of the walk that decides all choices for
their broken side, also if it fails or does not end.  In both cases the host is left in the state
that the straight walk leaves it in, so nothing but this walk has called it. -/
theorem extremal_widths (host : Host σ) (width column : Int) (parts : List Obligation)
    (state : σ) :
    (∀ items next final, Straight host .flat column parts state items next [] final →
      (∀ before, before <+: items → Item.columnAfter column before ≤ width) →
      (Walk.start column parts state).EmitsTo host width ⟨items, none⟩ final) ∧
    (width < 0 → 0 ≤ column →
      (∀ layout final, (Walk.start column parts state).EmitsTo host width layout final ↔
        ∃ next remaining after,
          Straight host .broken column parts state layout.items next remaining after ∧
          Straight.Ends host next remaining after layout.ending final) ∧
      (∀ events walk,
        Walk.Run (Walk.step host width) (.start column parts state) events walk →
        ∃ next remaining,
          Straight host .broken column parts state (itemsOf events) next remaining walk.state) ∧
      ∀ items next remaining after,
        Straight host .broken column parts state items next remaining after →
        ∃ events walk, Walk.Run (Walk.step host width) (.start column parts state) events walk ∧
          itemsOf events = items ∧ walk.state = after) := by
  have isAt : (Walk.start column parts state).IsAt column parts state :=
    ⟨rfl, Work.obligations_ofList parts, rfl⟩
  constructor
  · intro items next final straight within
    exact isAt.emitsTo_of_straight rfl straight within rfl
  · intro negative nonneg
    refine ⟨fun layout final => isAt.emitsTo_iff_straight negative nonneg, ?_, ?_⟩
    · intro events walk run
      exact ((Walk.walking_onStraight isAt).of_run run negative nonneg).exists_straight
    · intro items next remaining after straight
      obtain ⟨events, last, kept, run, lastAt, itemsEq⟩ :=
        isAt.exists_run_of_straight negative nonneg straight
      exact ⟨events, _, run, itemsEq, lastAt.state_eq⟩

/-- The deferred document calls the host once in a flat walk, and once in a broken one. -/
theorem steps_at_extremal_widths :
    (∀ before, before <+: [.text .space, .line 0, .text .space] →
      Item.columnAfter 0 before ≤ 1) ∧
    (Walk.start 0 Obligation.steps 0).EmitsTo Meaning.steps.countingHost 1
      ⟨[.text .space, .line 0, .text .space], none⟩ 1 ∧
    (Walk.start 0 Obligation.steps 0).EmitsTo Meaning.steps.countingHost (-1)
      ⟨[.line 0, .line 0, .text .space], none⟩ 1 := by
  let host := Meaning.steps.countingHost
  have behind (side : Side) :
      Straight host side 0 [⟨0, .doc (.text .space)⟩] 1 [.text .space] 1 [] 1 :=
    .emit rfl (.refl ..)
  let waiting : Obligation := ⟨0, .doc (.column ⟨.shared, .function (.custom 0)⟩)⟩
  have deferred (side : Side) (column : Int)
      (gives : waiting.move host column 0 = (.ok (.replace [⟨0, .doc .line⟩]), 1)) :
      Straight host side column [waiting, ⟨0, .doc (.text .space)⟩] 0 [.line 0, .text .space] 1 []
        1 :=
    .replace gives (.newline rfl (behind side))
  have flat : Straight host .flat 0 Obligation.steps 0 [.text .space, .line 0, .text .space] 1 []
      1 :=
    .choose rfl (.replace rfl (.emit rfl (deferred .flat 1 rfl)))
  have broken : Straight host .broken 0 Obligation.steps 0 [.line 0, .line 0, .text .space] 1 []
      1 :=
    .choose rfl (.replace rfl (.newline rfl (deferred .broken 0 rfl)))
  have within : ∀ before, before <+: [.text .space, .line 0, .text .space] →
      Item.columnAfter 0 before ≤ 1 := by
    have taken : ∀ count < 4,
        Item.columnAfter 0 (List.take count [.text .space, .line 0, .text .space]) ≤ 1 := by decide
    intro before isBefore
    rw [List.prefix_iff_eq_take.mp isBefore]
    exact taken _ (Nat.lt_succ_of_le isBefore.length_le)
  obtain ⟨wide, -⟩ := extremal_widths host 1 0 Obligation.steps 0
  obtain ⟨-, narrow⟩ := extremal_widths host (-1) 0 Obligation.steps 0
  obtain ⟨emits, -⟩ := narrow (by decide) (Int.le_refl 0)
  exact ⟨within, wide _ _ _ flat within, (emits _ _).mpr ⟨_, _, _, broken, .done _⟩⟩

end DocLayout
