import DocLayout.Proofs.Layout.Behavior
import Mathlib.Data.List.Forall2

/-!
# Labels are names

Labels only serve to find positions in the memory.  If labels of one run stand for labels of another
one, one by one, then both runs make the same steps, whatever the host does.  Beside that the first
run may have emitted items earlier, and it may have passed other positions, as long as no label in
use stands in front of them.

A work list is well labelled if its labels are all different and no label is free that it uses.  So
two well labelled work lists of the same obligations are laid out alike.
-/

namespace DocLayout

open Progress

/-- Labels of two runs that stand for each other. -/
structure Relabelling where
  /-- A label of the first run stands for one of the other run. -/
  pairs : Nat → Nat → Prop
  /-- Labels are the same in one run exactly if they are the same in the other one. -/
  same_iff : ∀ {label next other otherNext : Nat}, pairs label other → pairs next otherNext →
    (label = next ↔ other = otherNext)

namespace Relabelling

variable (names : Relabelling)

/-- A cell in two runs. -/
structure OnCell (cell other : Cell) : Prop where
  label : names.pairs cell.label other.label
  obligation : other.obligation = cell.obligation

/-- A work list in two runs. -/
abbrev OnWork : Work → Work → Prop :=
  List.Forall₂ names.OnCell

/-- A position in two runs. -/
structure OnPosition (position other : Position) : Prop where
  column : other.column = position.column
  work : names.OnWork position.work other.work

/-- The positions passed in two runs.  The first one may have passed others, with labels in front
that stand for nothing. -/
inductive OnTrail : List Position → List Position → Prop where
  | nil : OnTrail [] []
  | cons {position other : Position} {trail otherTrail : List Position}
      (on : names.OnPosition position other) (following : OnTrail trail otherTrail) :
      OnTrail (position :: trail) (other :: otherTrail)
  | skip {column : Int} {cell : Cell} {work : Work} {trail otherTrail : List Position}
      (unused : ∀ label, ¬ names.pairs cell.label label) (following : OnTrail trail otherTrail) :
      OnTrail (⟨column, cell :: work⟩ :: trail) otherTrail

/-- Memories of two runs: what one remembers is remembered by the other one. -/
def OnMemory (memory other : Memory) : Prop :=
  ∀ (column : Int) {label otherLabel : Nat}, names.pairs label otherLabel →
    Option.Rel names.OnWork memory.entries[(column, label)]? other.entries[(column, otherLabel)]?

variable {names} {work other : Work} {memory otherMemory : Memory}
  {position otherPosition : Position}

theorem OnCell.eq_iff {cell other next otherNext : Cell} (on : names.OnCell cell other)
    (nextOn : names.OnCell next otherNext) : cell = next ↔ other = otherNext := by
  rcases cell with ⟨label, obligation⟩
  rcases other with ⟨otherLabel, otherObligation⟩
  rcases next with ⟨nextLabel, nextObligation⟩
  rcases otherNext with ⟨otherNextLabel, otherNextObligation⟩
  obtain ⟨labels, rfl⟩ := on
  obtain ⟨nextLabels, rfl⟩ := nextOn
  simp only [Cell.mk.injEq, names.same_iff labels nextLabels]

/-- Work lists are the same in one run exactly if they are the same in the other one. -/
theorem OnWork.eq_iff {known otherKnown : Work} (on : names.OnWork work other)
    (knownOn : names.OnWork known otherKnown) : known = work ↔ otherKnown = other := by
  induction on generalizing known otherKnown with
  | nil => cases knownOn <;> simp
  | cons cellOn _ inductionHypothesis =>
      cases knownOn with
      | nil => simp
      | cons knownCellOn knownRestOn =>
          rw [List.cons.injEq, List.cons.injEq, knownCellOn.eq_iff cellOn,
            inductionHypothesis knownRestOn]

theorem OnWork.obligations_eq (on : names.OnWork work other) :
    other.obligations = work.obligations := by
  induction on with
  | nil => rfl
  | cons cellOn _ inductionHypothesis =>
      exact congrArg₂ List.cons cellOn.obligation inductionHypothesis

theorem OnWork.push (on : names.OnWork work other) {fresh otherFresh : Nat}
    (labels : ∀ more, names.pairs (fresh + more) (otherFresh + more)) (parts : List Obligation) :
    names.OnWork (work.push fresh parts) (other.push otherFresh parts) := by
  induction parts generalizing fresh otherFresh with
  | nil => exact on
  | cons part parts inductionHypothesis =>
      refine .cons ⟨labels 0, rfl⟩ (inductionHypothesis fun more => ?_)
      rw [Nat.add_right_comm fresh, Nat.add_right_comm otherFresh]
      exact labels (more + 1)

/-! ## Memories -/

theorem onMemory_empty : names.OnMemory .empty .empty := by
  intro column label otherLabel _
  simp only [Memory.empty, Std.HashMap.getElem?_empty]
  exact .none

/-- A position is remembered in one run exactly if it is in the other one. -/
theorem OnMemory.mem_iff (on : names.OnMemory memory otherMemory)
    (positionOn : names.OnPosition position otherPosition) :
    position ∈ memory ↔ otherPosition ∈ otherMemory := by
  rcases position with ⟨_, work⟩
  rcases otherPosition with ⟨column, other⟩
  obtain ⟨rfl, workOn⟩ := positionOn
  cases workOn with
  | nil => simp [Memory.mem_iff]
  | @cons cell otherCell work other cellOn restOn =>
      have entriesOn := on column cellOn.label
      rw [Memory.mem_cons_iff, Memory.mem_cons_iff]
      generalize memory.entries[(column, cell.label)]? = entry at entriesOn ⊢
      generalize otherMemory.entries[(column, otherCell.label)]? = otherEntry at entriesOn ⊢
      cases entriesOn with
      | none => simp
      | some knownOn =>
          rw [Option.some.injEq, Option.some.injEq]
          exact OnWork.eq_iff (.cons cellOn restOn) knownOn

theorem OnMemory.insert (on : names.OnMemory memory otherMemory)
    (positionOn : names.OnPosition position otherPosition) :
    names.OnMemory (memory.insert position) (otherMemory.insert otherPosition) := by
  rcases position with ⟨_, work⟩
  rcases otherPosition with ⟨column, other⟩
  obtain ⟨rfl, workOn⟩ := positionOn
  cases workOn with
  | nil => exact on
  | @cons cell otherCell work other cellOn restOn =>
      intro otherColumn label otherLabel labels
      have entriesOn := on otherColumn labels
      simp only [Memory.insert, Std.HashMap.getElem?_insertIfNew, beq_iff_eq, Prod.mk.injEq,
        ← names.same_iff cellOn.label labels]
      by_cases same : column = otherColumn ∧ cell.label = label
      · obtain ⟨rfl, rfl⟩ := same
        have otherSame := (names.same_iff cellOn.label labels).mp rfl
        subst otherSame
        simp only [Std.HashMap.mem_iff_isSome_getElem?]
        generalize memory.entries[(column, cell.label)]? = entry at entriesOn ⊢
        generalize otherMemory.entries[(column, otherCell.label)]? = otherEntry at entriesOn ⊢
        -- An entry that is there already is kept, in both runs.
        cases entriesOn with
        | none => exact .some (.cons cellOn restOn)
        | some knownOn => exact .some knownOn
      · simpa [same] using entriesOn

theorem OnMemory.insert_unused (on : names.OnMemory memory otherMemory) (column : Int) {cell : Cell}
    (unused : ∀ label, ¬ names.pairs cell.label label) (work : Work) :
    names.OnMemory (memory.insert ⟨column, cell :: work⟩) otherMemory := by
  intro otherColumn label otherLabel labels
  have different : cell.label ≠ label := by
    rintro rfl
    exact unused otherLabel labels
  simpa [Memory.insert, Std.HashMap.getElem?_insertIfNew, different] using on otherColumn labels

theorem OnMemory.insertAll {trail otherTrail : List Position}
    (trailOn : names.OnTrail trail otherTrail) (on : names.OnMemory memory otherMemory) :
    names.OnMemory (memory.insertAll trail) (otherMemory.insertAll otherTrail) := by
  induction trailOn generalizing memory otherMemory with
  | nil => exact on
  | cons positionOn _ inductionHypothesis => exact inductionHypothesis (on.insert positionOn)
  | skip unused _ inductionHypothesis => exact inductionHypothesis (on.insert_unused _ unused _)

/-! ## Probes -/

variable (names) {σ : Type} (earlier : List Item)

/-- What is kept in two runs. -/
structure OnStore (store other : Store σ) : Prop where
  memory : names.OnMemory store.memory other.memory
  fresh : ∀ more, names.pairs (store.fresh + more) (other.fresh + more)
  state : other.state = store.state

/-- An open choice in two runs, of which the first one has emitted items earlier. -/
structure OnChoice (choice other : Choice) : Prop where
  items : choice.items = other.items ++ earlier
  trail : names.OnTrail choice.trail other.trail
  alternative : names.OnPosition choice.alternative other.alternative

/-- A probe in two runs, of which the first one has emitted items earlier. -/
structure OnProbe (probe other : Probe σ) : Prop where
  items : probe.items = other.items ++ earlier
  position : names.OnPosition probe.position other.position
  trail : names.OnTrail probe.trail other.trail
  choices : List.Forall₂ (names.OnChoice earlier) probe.choices other.choices
  store : names.OnStore probe.store other.store

/-- A verdict in two runs, of which the first one has emitted items earlier. -/
inductive OnVerdict : Verdict σ → Verdict σ → Prop where
  | fits (items : List Item) {rest other : Position} {store otherStore : Store σ}
      (restOn : names.OnPosition rest other) (storeOn : names.OnStore store otherStore) :
      OnVerdict (.fits (earlier.reverse ++ items) rest store) (.fits items other otherStore)
  | overflows {store otherStore : Store σ} (storeOn : names.OnStore store otherStore) :
      OnVerdict (.overflows store) (.overflows otherStore)
  | fails (cause : Error) {store otherStore : Store σ}
      (storeOn : names.OnStore store otherStore) :
      OnVerdict (.fails cause store) (.fails cause otherStore)

/-- What steps of a probe lead to in two runs. -/
inductive OnProgress : Progress (Probe σ) (Verdict σ) → Progress (Probe σ) (Verdict σ) → Prop where
  | running {probe other : Probe σ} (on : names.OnProbe earlier probe other) :
      OnProgress (.running probe) (.running other)
  | halted {verdict other : Verdict σ} (on : names.OnVerdict earlier verdict other) :
      OnProgress (.halted verdict) (.halted other)

variable {names earlier} {host : Host σ} {width : Int} {probe otherProbe : Probe σ}
  {store otherStore : Store σ}

/-- Cells are made alike. -/
theorem OnStore.make (on : names.OnStore store otherStore) (count : Nat) (state : σ) :
    names.OnStore { store with fresh := store.fresh + count, state }
      { otherStore with fresh := otherStore.fresh + count, state } where
  memory := on.memory
  fresh more := by
    have labels := on.fresh (count + more)
    rwa [← Nat.add_assoc, ← Nat.add_assoc] at labels
  state := rfl

theorem OnWork.push_store (on : names.OnWork work other) (storeOn : names.OnStore store otherStore)
    (more : Nat) (parts : List Obligation) :
    names.OnWork (work.push (store.fresh + more) parts)
      (other.push (otherStore.fresh + more) parts) :=
  OnWork.push on (storeOn.make more store.state).fresh parts

theorem OnProbe.abandoned (on : names.OnProbe earlier probe otherProbe) :
    names.OnStore probe.abandoned otherProbe.abandoned where
  memory := on.store.memory.insertAll on.trail
  fresh := on.store.fresh
  state := on.store.state

theorem OnProbe.backtrack (on : names.OnProbe earlier probe otherProbe) :
    names.OnProgress earlier probe.backtrack otherProbe.backtrack := by
  have choicesOn := on.choices
  cases choicesEq : probe.choices with
  | nil =>
      rw [choicesEq] at choicesOn
      rw [Probe.backtrack_of_nil choicesEq,
        Probe.backtrack_of_nil (List.forall₂_nil_left_iff.mp choicesOn)]
      exact .halted (.overflows on.abandoned)
  | cons choice others =>
      rw [choicesEq] at choicesOn
      obtain ⟨otherChoice, otherEarlier, choiceOn, earlierOn, otherEq⟩ :=
        List.forall₂_cons_left_iff.mp choicesOn
      rw [Probe.backtrack_of_cons choicesEq, Probe.backtrack_of_cons otherEq]
      exact .running ⟨choiceOn.items, choiceOn.alternative, choiceOn.trail, earlierOn,
        on.abandoned⟩

/-- The move of the first cell is made in both runs. -/
theorem OnProbe.follow (on : names.OnProbe earlier probe otherProbe)
    (following : names.OnWork work other) (indent : Int) (state : σ)
    (outcome : Except Error Move) :
    names.OnProgress earlier (probe.follow indent work state outcome)
      (otherProbe.follow indent other state outcome) := by
  have trailOn := OnTrail.cons on.position on.trail
  cases outcome with
  | error cause => exact .halted (.fails cause (on.store.make 0 state))
  | ok move =>
      cases move with
      | emit fragment =>
          refine .running ⟨?_, ⟨?_, following⟩, trailOn, on.choices, on.store.make 0 state⟩
          · exact congrArg (.text fragment :: ·) on.items
          · exact congrArg (· + (fragment.width : Int)) on.position.column
      | newline =>
          simp only [Probe.follow, on.items, List.reverse_cons, List.reverse_append,
            List.append_assoc]
          exact .halted (.fits _ ⟨rfl, following⟩ (on.store.make 0 state))
      | choose flat broken =>
          refine .running ⟨on.items, ⟨on.position.column, ?_⟩, .nil, .cons ?_ on.choices,
            on.store.make 2 state⟩
          · exact OnWork.push_store following on.store 1 _
          · exact ⟨on.items, trailOn, on.position.column,
              OnWork.push_store following on.store 0 _⟩
      | replace parts =>
          exact .running ⟨on.items,
            ⟨on.position.column, OnWork.push_store following on.store 0 parts⟩, trailOn,
            on.choices, on.store.make parts.length state⟩

/-- Two runs make the same steps. -/
theorem OnProbe.step (on : names.OnProbe earlier probe otherProbe) (host : Host σ) (width : Int) :
    names.OnProgress earlier (probe.step host width) (otherProbe.step host width) := by
  by_cases within : probe.position.column ≤ width
  · have otherWithin : otherProbe.position.column ≤ width := by rwa [on.position.column]
    by_cases known : probe.position ∈ probe.store.memory
    · have otherKnown := (on.store.memory.mem_iff on.position).mp known
      rw [Probe.step_of_remembered known, Probe.step_of_remembered otherKnown]
      exact on.backtrack
    · have otherNew := fun otherKnown =>
        known ((on.store.memory.mem_iff on.position).mpr otherKnown)
      have workOn := on.position.work
      cases workEq : probe.position.work with
      | nil =>
          rw [workEq] at workOn
          have otherEq := List.forall₂_nil_left_iff.mp workOn
          rw [Probe.step_of_nil within workEq, Probe.step_of_nil otherWithin otherEq, on.items,
            List.reverse_append]
          exact .halted (.fits _ on.position on.store)
      | cons cell work =>
          rw [workEq] at workOn
          obtain ⟨otherCell, other, cellOn, following, otherEq⟩ :=
            List.forall₂_cons_left_iff.mp workOn
          rw [Probe.step_of_new within workEq known, Probe.step_of_new otherWithin otherEq otherNew,
            Probe.advance_eq_follow, Probe.advance_eq_follow, cellOn.obligation,
            on.position.column, on.store.state]
          exact on.follow following ..
  · have exceeds : width < probe.position.column := Int.not_le.mp within
    have otherExceeds : width < otherProbe.position.column := by rwa [on.position.column]
    rw [Probe.step_of_beyond exceeds, Probe.step_of_beyond otherExceeds]
    exact on.backtrack

theorem OnProbe.iterate (on : names.OnProbe earlier probe otherProbe) (host : Host σ) (width : Int)
    (bound : Nat) :
    names.OnProgress earlier (Progress.iterate (Probe.step host width) bound probe)
      (Progress.iterate (Probe.step host width) bound otherProbe) := by
  induction bound generalizing probe otherProbe with
  | zero => exact .running on
  | succ bound inductionHypothesis =>
      rw [iterate_succ, iterate_succ]
      have stepOn := on.step host width
      generalize probe.step host width = progress at stepOn ⊢
      generalize otherProbe.step host width = otherProgress at stepOn ⊢
      cases stepOn with
      | running nextOn => exact inductionHypothesis nextOn
      | halted verdictOn => exact .halted verdictOn

end Relabelling

/-! ## What is seen of both runs -/

/-- A probe ends with what is found, and leaves the host in a state. -/
def Probe.FindsTo {σ : Type} (host : Host σ) (width : Int) (probe : Probe σ) (found : Found)
    (final : σ) : Prop :=
  ∃ verdict, Halts (step host width) probe verdict ∧ verdict.found = found ∧
    verdict.store.state = final

namespace Relabelling

variable {names : Relabelling} {σ : Type} {earlier : List Item} {host : Host σ} {width : Int}
  {found : Found} {final : σ}

theorem OnVerdict.found_eq {verdict other : Verdict σ}
    (on : names.OnVerdict earlier verdict other) :
    verdict.found = other.found.after earlier.reverse := by
  cases on with
  | fits items restOn storeOn =>
      rw [Verdict.found, Verdict.found, Found.after, restOn.column,
        OnWork.obligations_eq restOn.work]
  | overflows => rfl
  | fails => rfl

theorem OnVerdict.state_eq {verdict other : Verdict σ}
    (on : names.OnVerdict earlier verdict other) : other.store.state = verdict.store.state := by
  cases on with
  | fits _ _ storeOn => exact storeOn.state
  | overflows storeOn => exact storeOn.state
  | fails _ storeOn => exact storeOn.state

/-- Both runs find the same, but for the items that the first one has emitted earlier. -/
theorem OnProbe.findsTo_iff {probe other : Probe σ} (on : names.OnProbe earlier probe other) :
    probe.FindsTo host width found final ↔
      ∃ later, other.FindsTo host width later final ∧ found = later.after earlier.reverse := by
  constructor
  · rintro ⟨verdict, halts, rfl, rfl⟩
    obtain ⟨bound, halted⟩ := halts_iff_exists_iterate.mp halts
    have progressOn := on.iterate host width bound
    rw [halted] at progressOn
    generalize otherEq : Progress.iterate (Probe.step host width) bound other = progress
      at progressOn
    cases progressOn with
    | halted verdictOn =>
        exact ⟨_, ⟨_, halts_iff_exists_iterate.mpr ⟨bound, otherEq⟩, rfl, verdictOn.state_eq⟩,
          verdictOn.found_eq⟩
  · rintro ⟨later, ⟨verdict, halts, rfl, rfl⟩, rfl⟩
    obtain ⟨bound, halted⟩ := halts_iff_exists_iterate.mp halts
    have progressOn := on.iterate host width bound
    rw [halted] at progressOn
    generalize probeEq : Progress.iterate (Probe.step host width) bound probe = progress
      at progressOn
    cases progressOn with
    | halted verdictOn =>
        exact ⟨_, halts_iff_exists_iterate.mpr ⟨bound, probeEq⟩, verdictOn.found_eq,
          verdictOn.state_eq.symm⟩

/-! ## Walks -/

variable (names)

/-- A walk in two runs. -/
inductive OnWalk : Walk σ → Walk σ → Prop where
  | walking {position other : Position} {store otherStore : Store σ}
      (positionOn : names.OnPosition position other)
      (storeOn : names.OnStore store otherStore) :
      OnWalk (.walking position store) (.walking other otherStore)
  | probing (column : Int) (broken : Obligation) {rest other : Work} {probe otherProbe : Probe σ}
      (restOn : names.OnWork rest other) (probeOn : names.OnProbe [] probe otherProbe) :
      OnWalk (.probing column broken rest probe) (.probing column broken other otherProbe)

/-- What a step of a walk leads to in two runs. -/
inductive OnOutcome : Walk.Outcome σ → Walk.Outcome σ → Prop where
  | next (events : List Event) {walk other : Walk σ} (on : names.OnWalk walk other) :
      OnOutcome (.next events walk) (.next events other)
  | finished {store other : Store σ} (on : names.OnStore store other) :
      OnOutcome (.finished store) (.finished other)
  | failed (cause : Error) {store other : Store σ} (on : names.OnStore store other) :
      OnOutcome (.failed cause store) (.failed cause other)

variable {names} {work other : Work} {store otherStore : Store σ} {walk last otherWalk : Walk σ}
  {events : List Event} {ending : Option Error}

/-- The move of the first cell is made in both runs. -/
theorem OnWork.walk_follow (following : names.OnWork work other)
    (storeOn : names.OnStore store otherStore) (column indent : Int) (state : σ)
    (outcome : Except Error Move) :
    names.OnOutcome (Walk.follow column indent work store state outcome)
      (Walk.follow column indent other otherStore state outcome) := by
  cases outcome with
  | error cause => exact .failed cause (storeOn.make 0 state)
  | ok move =>
      cases move with
      | emit fragment => exact .next _ (.walking ⟨rfl, following⟩ (storeOn.make 0 state))
      | newline => exact .next _ (.walking ⟨rfl, following⟩ (storeOn.make 0 state))
      | choose flat broken =>
          refine .next _ (.probing column ⟨indent, broken⟩ following ?_)
          exact ⟨rfl, ⟨rfl, push_store following storeOn 0 _⟩, .nil, .nil, storeOn.make 1 state⟩
      | replace parts =>
          exact .next _ (.walking ⟨rfl, push_store following storeOn 0 parts⟩
            (storeOn.make parts.length state))

/-- Two runs make the same steps, and report the same events. -/
theorem OnWalk.step (on : names.OnWalk walk otherWalk) (host : Host σ) (width : Int) :
    names.OnOutcome (walk.step host width) (otherWalk.step host width) := by
  cases on with
  | @walking position otherPosition store otherStore positionOn storeOn =>
      have workOn := positionOn.work
      cases workEq : position.work with
      | nil =>
          rw [workEq] at workOn
          rw [Walk.step, Walk.step, workEq, List.forall₂_nil_left_iff.mp workOn]
          exact .finished storeOn
      | cons cell work =>
          rw [workEq] at workOn
          obtain ⟨otherCell, other, cellOn, following, otherEq⟩ :=
            List.forall₂_cons_left_iff.mp workOn
          rw [Walk.step_eq_follow host width store workEq,
            Walk.step_eq_follow host width otherStore otherEq, cellOn.obligation,
            positionOn.column, storeOn.state]
          exact OnWork.walk_follow following storeOn ..
  | @probing column broken rest other probe otherProbe restOn probeOn =>
      have stepOn := probeOn.step host width
      generalize progressEq : probe.step host width = progress at stepOn
      generalize otherEq : otherProbe.step host width = otherProgress at stepOn
      cases stepOn with
      | running nextOn =>
          rw [Walk.step_of_running progressEq, Walk.step_of_running otherEq]
          exact .next [] (.probing column broken restOn nextOn)
      | halted verdictOn =>
          rw [Walk.step_of_halted progressEq, Walk.step_of_halted otherEq]
          cases verdictOn with
          | fits items positionOn storeOn => exact .next _ (.walking positionOn storeOn)
          | @overflows store _ storeOn =>
              rw [Walk.conclude, Walk.conclude, storeOn.state]
              exact .next _ (.walking ⟨rfl, OnWork.push_store restOn storeOn 0 [broken]⟩
                (storeOn.make 1 store.state))
          | fails cause storeOn => exact .failed cause storeOn

/-- What a walk comes to, it comes to in the other run, with the same events. -/
theorem OnWalk.run (on : names.OnWalk walk otherWalk)
    (run : Walk.Run (Walk.step host width) walk events last) :
    ∃ otherLast, Walk.Run (Walk.step host width) otherWalk events otherLast ∧
      names.OnWalk last otherLast := by
  induction run generalizing otherWalk with
  | refl => exact ⟨otherWalk, .refl otherWalk, on⟩
  | head first _ inductionHypothesis =>
      have stepOn := on.step host width
      rw [first] at stepOn
      generalize otherEq : otherWalk.step host width = outcome at stepOn
      cases stepOn with
      | next events nextOn =>
          obtain ⟨otherLast, rest, lastOn⟩ := inductionHypothesis nextOn
          exact ⟨otherLast, .head otherEq rest, lastOn⟩

theorem OnWalk.endsIn (on : names.OnWalk walk otherWalk)
    (ends : walk.EndsIn host width events ending final) :
    otherWalk.EndsIn host width events ending final := by
  obtain ⟨store, ⟨last, run, ended⟩, rfl⟩ := ends
  obtain ⟨otherLast, otherRun, lastOn⟩ := on.run run
  have stepOn := lastOn.step host width
  rw [ended] at stepOn
  generalize otherEq : otherLast.step host width = outcome at stepOn
  cases ending with
  | none =>
      cases stepOn with
      | finished storeOn => exact ⟨_, ⟨otherLast, otherRun, otherEq⟩, storeOn.state⟩
  | some cause =>
      cases stepOn with
      | failed cause storeOn => exact ⟨_, ⟨otherLast, otherRun, otherEq⟩, storeOn.state⟩

theorem OnWalk.begins (on : names.OnWalk walk otherWalk)
    (begins : walk.Begins host width events) : otherWalk.Begins host width events := by
  obtain ⟨later, last, run⟩ := begins
  obtain ⟨otherLast, otherRun, -⟩ := on.run run
  exact ⟨later, otherLast, otherRun⟩

end Relabelling

/-! ## Work lists that are well labelled -/

namespace Work

/-- The labels of a work list. -/
def labels (work : Work) : List Nat :=
  work.map Cell.label

/-- All labels are different, and below the first one that is free. -/
structure Labelled (fresh : Nat) (work : Work) : Prop where
  nodup : work.labels.Nodup
  used : ∀ label ∈ work.labels, label < fresh

variable {fresh : Nat} {work : Work}

theorem labels_push (fresh : Nat) (parts : List Obligation) (work : Work) :
    labels (push fresh parts work) = List.range' fresh parts.length ++ work.labels := by
  induction parts generalizing fresh with
  | nil => rfl
  | cons part parts inductionHypothesis => exact congrArg _ (inductionHypothesis (fresh + 1))

theorem labelled_nil (fresh : Nat) : Labelled fresh [] :=
  ⟨.nil, nofun⟩

theorem Labelled.push (labelled : Labelled fresh work) (parts : List Obligation) :
    Labelled (fresh + parts.length) (push fresh parts work) where
  nodup := by
    rw [labels_push]
    refine List.nodup_append.mpr ⟨List.nodup_range', labelled.nodup, ?_⟩
    intro label new other old same
    have := labelled.used other old
    have := List.left_le_of_mem_range' new
    omega
  used label member := by
    rw [labels_push] at member
    rcases List.mem_append.mp member with new | old
    · have := (List.mem_range'_1.mp new).2
      omega
    · exact Nat.lt_of_lt_of_le (labelled.used label old) (Nat.le_add_right ..)

theorem labelled_ofList (parts : List Obligation) : Labelled parts.length (ofList parts) := by
  have labelled := (labelled_nil 0).push parts
  rwa [Nat.zero_add] at labelled

theorem Labelled.of_cons {cell : Cell} (labelled : Labelled fresh (cell :: work)) :
    Labelled fresh work :=
  ⟨(List.nodup_cons.mp labelled.nodup).2, (List.forall_mem_cons.mp labelled.used).2⟩

/-- The label of a cell that is taken away is not given again. -/
theorem Labelled.not_mem_push {cell : Cell} (labelled : Labelled fresh (cell :: work))
    (parts : List Obligation) : cell.label ∉ (work.push fresh parts).labels := by
  rw [labels_push]
  intro member
  rcases List.mem_append.mp member with new | old
  · have := List.left_le_of_mem_range' new
    have := (List.forall_mem_cons.mp labelled.used).1
    omega
  · exact (List.nodup_cons.mp labelled.nodup).1 old

theorem Labelled.index_eq_iff (labelled : work.Labelled fresh) {index next label nextLabel : Nat}
    (found : work.labels[index]? = some label) (nextFound : work.labels[next]? = some nextLabel) :
    label = nextLabel ↔ index = next := by
  rw [← List.getElem?_inj (List.getElem?_eq_some_iff.mp found).1 labelled.nodup, found, nextFound,
    Option.some.injEq]

end Work

namespace Relabelling

variable {work other : Work} {fresh otherFresh : Nat}

/-- The labels of two work lists stand for each other in their order, and so do those that are
free. -/
def between (labelled : work.Labelled fresh) (otherLabelled : other.Labelled otherFresh) :
    Relabelling where
  pairs label otherLabel :=
    (∃ index : Nat, work.labels[index]? = some label ∧ other.labels[index]? = some otherLabel) ∨
      ∃ more, label = fresh + more ∧ otherLabel = otherFresh + more
  same_iff := by
    rintro label next otherLabel otherNext (⟨index, found, otherFound⟩ | ⟨more, rfl, rfl⟩)
      (⟨nextIndex, nextFound, otherNextFound⟩ | ⟨nextMore, rfl, rfl⟩)
    · rw [labelled.index_eq_iff found nextFound,
        otherLabelled.index_eq_iff otherFound otherNextFound]
    · have := labelled.used _ (List.mem_of_getElem? found)
      have := otherLabelled.used _ (List.mem_of_getElem? otherFound)
      omega
    · have := labelled.used _ (List.mem_of_getElem? nextFound)
      have := otherLabelled.used _ (List.mem_of_getElem? otherNextFound)
      omega
    · omega

variable (labelled : work.Labelled fresh) (otherLabelled : other.Labelled otherFresh)

theorem onWork_between (same : work.obligations = other.obligations) :
    (between labelled otherLabelled).OnWork work other := by
  have lengths : work.length = other.length := by
    simpa [Work.obligations] using congrArg List.length same
  refine List.forall₂_iff_get.mpr ⟨lengths, fun index inside otherInside => ⟨.inl ⟨index, ?_⟩, ?_⟩⟩
  · simp [Work.labels, inside, otherInside]
  · have obligations := congrArg (·[index]?) same
    simpa [Work.obligations, inside, otherInside] using obligations.symm

variable {σ : Type}

theorem onStore_between (state : σ) :
    (between labelled otherLabelled).OnStore ⟨.empty, fresh, state⟩
      ⟨.empty, otherFresh, state⟩ where
  memory := onMemory_empty
  fresh more := .inr ⟨more, rfl, rfl⟩
  state := rfl

/-- A label that is neither in a work list nor free stands for nothing. -/
theorem between_unused {label : Nat} (absent : label ∉ work.labels) (used : label < fresh)
    (otherLabel : Nat) : ¬ (between labelled otherLabelled).pairs label otherLabel := by
  rintro (⟨index, found, -⟩ | ⟨more, rfl, -⟩)
  · exact absent (List.mem_of_getElem? found)
  · omega

end Relabelling

/-! ## Starting anew -/

variable {σ : Type} {host : Host σ} {width column : Int} {parts rest next : List Obligation}
  {part : Obligation} {state final : σ} {events : List Event} {ending : Option Error}

namespace Walk

/-- A walk is at a column with obligations.  It remembers nothing, and its labels are in order. -/
inductive StartsAt (column : Int) (parts : List Obligation) (state : σ) : Walk σ → Prop where
  | intro {work : Work} {fresh : Nat} (partsEq : work.obligations = parts)
      (labelled : work.Labelled fresh) :
      StartsAt column parts state (.walking ⟨column, work⟩ ⟨.empty, fresh, state⟩)

theorem start_startsAt (column : Int) (parts : List Obligation) (state : σ) :
    (start column parts state).StartsAt column parts state :=
  .intro (Work.obligations_ofList parts) (Work.labelled_ofList parts)

theorem StartsAt.exists_onWalk {walk other : Walk σ} (starts : walk.StartsAt column parts state)
    (otherStarts : other.StartsAt column parts state) :
    ∃ names : Relabelling, names.OnWalk walk other := by
  obtain ⟨partsEq, labelled⟩ := starts
  obtain ⟨otherPartsEq, otherLabelled⟩ := otherStarts
  refine ⟨.between labelled otherLabelled, .walking ⟨rfl, ?_⟩ ?_⟩
  · exact Relabelling.onWork_between labelled otherLabelled (partsEq.trans otherPartsEq.symm)
  · exact Relabelling.onStore_between labelled otherLabelled state

/-- Walks that start at the same place end alike. -/
theorem StartsAt.endsIn_iff {walk other : Walk σ} (starts : walk.StartsAt column parts state)
    (otherStarts : other.StartsAt column parts state) :
    walk.EndsIn host width events ending final ↔ other.EndsIn host width events ending final := by
  obtain ⟨names, on⟩ := starts.exists_onWalk otherStarts
  obtain ⟨otherNames, otherOn⟩ := otherStarts.exists_onWalk starts
  exact ⟨on.endsIn, otherOn.endsIn⟩

/-- Walks that start at the same place begin alike. -/
theorem StartsAt.begins_iff {walk other : Walk σ} (starts : walk.StartsAt column parts state)
    (otherStarts : other.StartsAt column parts state) :
    walk.Begins host width events ↔ other.Begins host width events := by
  obtain ⟨names, on⟩ := starts.exists_onWalk otherStarts
  obtain ⟨otherNames, otherOn⟩ := otherStarts.exists_onWalk starts
  exact ⟨on.begins, otherOn.begins⟩

end Walk

end DocLayout
