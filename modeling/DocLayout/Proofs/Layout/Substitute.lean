import DocLayout.Layout.Memory
import Mathlib.Data.List.Forall2

/-!
# Other work in the place of a blocked cell

Two work lists that differ in their ends only: one has a blocked cell there, which cannot be laid
out, and the other one has any cells in its place.  Since there are more cells, or fewer, from the
first, the labels of cells that are made later differ as well.  A relabelling carries the cells of
one layout over to the other one.

Under this relabelling work lists are the same in one layout exactly if they are the same in the
other one, so a position is remembered in both memories or in neither.
-/

namespace DocLayout

/-- What cannot be laid out. -/
def Obligation.blocked : Obligation := ⟨0, .doc .unknown⟩

/-- What takes the place of the blocked cell. -/
structure Substitute where
  /-- The label of the blocked cell. -/
  label : Nat
  /-- What stands in its place. -/
  work : Work

namespace Substitute

variable (substitute : Substitute)

/-- The label of a cell in the other run. -/
def relabel (label : Nat) : Nat :=
  if label < substitute.label then label else label - 1 + substitute.work.length

/-- A cell with its label in the other run. -/
def carry (cell : Cell) : Cell :=
  ⟨substitute.relabel cell.label, cell.obligation⟩

variable {substitute}

theorem relabel_of_lt {label : Nat} (earlier : label < substitute.label) :
    substitute.relabel label = label :=
  if_pos earlier

theorem relabel_add {label : Nat} (later : substitute.label < label) (more : Nat) :
    substitute.relabel (label + more) = substitute.relabel label + more := by
  rw [relabel, relabel, if_neg (by omega), if_neg (by omega)]
  omega

theorem relabel_inj {label other : Nat} (different : label ≠ substitute.label)
    (otherDifferent : other ≠ substitute.label) :
    substitute.relabel label = substitute.relabel other ↔ label = other := by
  constructor
  · intro same
    unfold relabel at same
    split at same <;> split at same <;> omega
  · rintro rfl
    rfl

theorem carry_inj {cell other : Cell} (different : cell.label ≠ substitute.label)
    (otherDifferent : other.label ≠ substitute.label)
    (same : substitute.carry cell = substitute.carry other) : cell = other := by
  have labelEq : cell.label = other.label :=
    (relabel_inj different otherDifferent).mp (congrArg Cell.label same)
  have obligationEq : cell.obligation = other.obligation := (Cell.mk.inj same).2
  rcases cell with ⟨label, obligation⟩
  rcases other with ⟨otherLabel, otherObligation⟩
  cases labelEq
  cases obligationEq
  rfl

variable (substitute)

/-! ## Work lists -/

/-- A work list with the blocked cell at its end, and the one of the other run. -/
inductive OnWork : Work → Work → Prop where
  | blocked : OnWork [⟨substitute.label, .blocked⟩] substitute.work
  | cons {cell : Cell} {work other : Work} (different : cell.label ≠ substitute.label)
      (following : OnWork work other) : OnWork (cell :: work) (substitute.carry cell :: other)

/-- Positions with such work lists. -/
structure OnPosition (position other : Position) : Prop where
  column : other.column = position.column
  work : substitute.OnWork position.work other.work

/-- Positions with another cell in front of the blocked one. -/
inductive OnPassed : Position → Position → Prop where
  | intro (column : Int) {cell : Cell} {work other : Work}
      (different : cell.label ≠ substitute.label) (following : substitute.OnWork work other) :
      OnPassed ⟨column, cell :: work⟩ ⟨column, substitute.carry cell :: other⟩

variable {substitute} {work other : Work}

theorem OnWork.exists_front (on : substitute.OnWork work other) :
    ∃ front : Work, (∀ cell ∈ front, cell.label ≠ substitute.label) ∧
      work = front ++ [⟨substitute.label, .blocked⟩] ∧
      other = front.map substitute.carry ++ substitute.work := by
  induction on with
  | blocked => exact ⟨[], by simp, rfl, rfl⟩
  | @cons cell _ _ different _ inductionHypothesis =>
      obtain ⟨front, differ, rfl, rfl⟩ := inductionHypothesis
      exact ⟨cell :: front, List.forall_mem_cons.mpr ⟨different, differ⟩, rfl, rfl⟩

theorem eq_of_map_carry_eq {front others : Work}
    (differ : ∀ cell ∈ front, cell.label ≠ substitute.label)
    (othersDiffer : ∀ cell ∈ others, cell.label ≠ substitute.label)
    (same : front.map substitute.carry = others.map substitute.carry) : front = others := by
  induction front generalizing others with
  | nil => exact (List.map_eq_nil_iff.mp same.symm).symm
  | cons cell front inductionHypothesis =>
      cases others with
      | nil => cases same
      | cons other others =>
          obtain ⟨cellSame, frontSame⟩ := List.cons.inj same
          obtain ⟨different, differ⟩ := List.forall_mem_cons.mp differ
          obtain ⟨otherDifferent, othersDiffer⟩ := List.forall_mem_cons.mp othersDiffer
          rw [carry_inj different otherDifferent cellSame,
            inductionHypothesis differ othersDiffer frontSame]

/-- Work lists are the same in one run exactly if they are the same in the other one. -/
theorem OnWork.eq_iff {known otherKnown : Work} (on : substitute.OnWork work other)
    (knownOn : substitute.OnWork known otherKnown) : known = work ↔ otherKnown = other := by
  obtain ⟨front, differ, rfl, rfl⟩ := on.exists_front
  obtain ⟨others, othersDiffer, rfl, rfl⟩ := knownOn.exists_front
  rw [List.append_left_inj, List.append_left_inj]
  constructor
  · rintro rfl
    rfl
  · exact eq_of_map_carry_eq othersDiffer differ

/-- The obligations are the same up to the blocked one. -/
theorem OnWork.obligations_eq (on : substitute.OnWork work other) :
    ∃ front, work.obligations = front ++ [.blocked] ∧
      other.obligations = front ++ substitute.work.obligations := by
  induction on with
  | blocked => exact ⟨[], rfl, rfl⟩
  | @cons cell _ _ _ _ inductionHypothesis =>
      obtain ⟨front, workEq, otherEq⟩ := inductionHypothesis
      exact ⟨cell.obligation :: front, congrArg _ workEq, congrArg _ otherEq⟩

/-- Obligations are pushed in both runs, with labels that correspond. -/
theorem OnWork.push (on : substitute.OnWork work other) {parts : List Obligation}
    {fresh otherFresh : Nat} (labels : ∀ index < parts.length,
      fresh + index ≠ substitute.label ∧
        substitute.relabel (fresh + index) = otherFresh + index) :
    substitute.OnWork (work.push fresh parts) (other.push otherFresh parts) := by
  induction parts generalizing fresh otherFresh with
  | nil => exact on
  | cons part parts inductionHypothesis =>
      obtain ⟨different, labelEq⟩ := labels 0 (Nat.zero_lt_succ _)
      have carried : substitute.carry ⟨fresh, part⟩ = ⟨otherFresh, part⟩ :=
        congrArg (Cell.mk · part) labelEq
      have following : substitute.OnWork (work.push (fresh + 1) parts)
          (other.push (otherFresh + 1) parts) := by
        refine inductionHypothesis fun index less => ?_
        rw [Nat.add_right_comm fresh, Nat.add_right_comm otherFresh]
        exact labels (index + 1) (Nat.succ_lt_succ less)
      have whole : substitute.OnWork (⟨fresh, part⟩ :: work.push (fresh + 1) parts)
          (substitute.carry ⟨fresh, part⟩ :: other.push (otherFresh + 1) parts) :=
        .cons different following
      rwa [carried] at whole

theorem OnWork.push_fresh (on : substitute.OnWork work other) {fresh : Nat}
    (later : substitute.label < fresh) (parts : List Obligation) :
    substitute.OnWork (work.push fresh parts) (other.push (substitute.relabel fresh) parts) :=
  on.push fun index _ => ⟨by omega, relabel_add later index⟩

/-! ## Memories -/

variable (substitute)

/-- Memories of two runs: what one remembers is remembered by the other one. -/
structure OnMemory (memory other : Memory) : Prop where
  blocked (column : Int) : memory.entries[(column, substitute.label)]? = none
  known (column : Int) {label : Nat} (different : label ≠ substitute.label) :
    Option.Rel substitute.OnWork memory.entries[(column, label)]?
      other.entries[(column, substitute.relabel label)]?

variable {substitute} {memory otherMemory : Memory} {position otherPosition : Position}

theorem OnMemory.empty : substitute.OnMemory .empty .empty where
  blocked column := by simp [Memory.empty]
  known column label _ := by
    simp only [Memory.empty, Std.HashMap.getElem?_empty]
    exact .none

/-- A position is remembered in one run exactly if it is in the other one. -/
theorem OnMemory.mem_iff (on : substitute.OnMemory memory otherMemory)
    (passed : substitute.OnPassed position otherPosition) :
    position ∈ memory ↔ otherPosition ∈ otherMemory := by
  cases passed with
  | @intro column cell work other different following =>
      have workOn := OnWork.cons different following
      have entriesOn := on.known column different
      rw [Memory.mem_cons_iff, Memory.mem_cons_iff]
      simp only [carry] at workOn ⊢
      generalize memory.entries[(column, cell.label)]? = entry at entriesOn ⊢
      generalize otherMemory.entries[(column, substitute.relabel cell.label)]? = otherEntry
        at entriesOn ⊢
      cases entriesOn with
      | none => simp
      | some knownOn =>
          rw [Option.some.injEq, Option.some.injEq]
          exact workOn.eq_iff knownOn

theorem OnMemory.insert (on : substitute.OnMemory memory otherMemory)
    (passed : substitute.OnPassed position otherPosition) :
    substitute.OnMemory (memory.insert position) (otherMemory.insert otherPosition) := by
  cases passed with
  | @intro column cell work other different following =>
      constructor
      · intro otherColumn
        simp [Memory.insert, Std.HashMap.getElem?_insertIfNew, different, on.blocked]
      · intro otherColumn label labelDifferent
        have entriesOn := on.known otherColumn labelDifferent
        simp only [Memory.insert, Std.HashMap.getElem?_insertIfNew, carry, beq_iff_eq,
          Prod.mk.injEq, relabel_inj different labelDifferent]
        by_cases same : column = otherColumn ∧ cell.label = label
        · obtain ⟨rfl, rfl⟩ := same
          simp only [Std.HashMap.mem_iff_isSome_getElem?]
          generalize memory.entries[(column, cell.label)]? = entry at entriesOn ⊢
          generalize otherMemory.entries[(column, substitute.relabel cell.label)]? = otherEntry
            at entriesOn ⊢
          -- An entry that is there already is kept, in both runs.
          cases entriesOn with
          | none => exact .some (.cons different following)
          | some knownOn => exact .some knownOn
        · simpa [same] using entriesOn

theorem OnMemory.insertAll {trail otherTrail : List Position}
    (trailOn : List.Forall₂ substitute.OnPassed trail otherTrail)
    (on : substitute.OnMemory memory otherMemory) :
    substitute.OnMemory (memory.insertAll trail) (otherMemory.insertAll otherTrail) := by
  induction trailOn generalizing memory otherMemory with
  | nil => exact on
  | cons passed _ inductionHypothesis => exact inductionHypothesis (on.insert passed)

end Substitute

end DocLayout
