import DocLayout.Layout.Work
import Std.Data.HashMap

/-!
# Memory of failures

A memory holds positions from which no layout reaches the next line break within the width.
Positions are found by their column and the label of their first cell, and a position only counts
as remembered if the work list is the very one that was recorded.

As a set of positions, a memory only grows: inserting a position keeps all others and adds nothing
else.
-/

namespace DocLayout

/-- Positions known to fail. -/
structure Memory where
  /-- Work lists by column and label. -/
  entries : Std.HashMap (Int × Nat) Work

namespace Memory

/-- The memory of nothing. -/
def empty : Memory := ⟨∅⟩

/-- Whether a position is remembered.  The end of the document never is. -/
def contains (memory : Memory) (position : Position) : Bool :=
  match position.work with
  | [] => false
  | cell :: rest =>
      match memory.entries[(position.column, cell.label)]? with
      | some known => Work.same known (cell :: rest)
      | none => false

/-- Remembers a position. -/
def insert (memory : Memory) (position : Position) : Memory :=
  match position.work with
  | [] => memory
  | cell :: rest =>
      ⟨memory.entries.insertIfNew (position.column, cell.label) (cell :: rest)⟩

/-- Remembers several positions. -/
def insertAll (memory : Memory) (positions : List Position) : Memory :=
  positions.foldl insert memory

instance : Membership Position Memory where
  mem memory position := memory.contains position = true

theorem mem_iff {memory : Memory} {position : Position} :
    position ∈ memory ↔
      ∃ cell rest, position.work = cell :: rest ∧
        memory.entries[(position.column, cell.label)]? = some (cell :: rest) := by
  change memory.contains position = true ↔ _
  rcases position with ⟨column, _ | ⟨cell, rest⟩⟩
  · simp [contains]
  · constructor
    · intro remembered
      refine ⟨cell, rest, rfl, ?_⟩
      cases found : memory.entries[(column, cell.label)]? <;>
        simp_all [contains, Work.same_iff]
    · rintro ⟨_, _, ⟨rfl, rfl⟩, found⟩
      simp [contains, found, Work.same_iff]

theorem mem_cons_iff {memory : Memory} {column : Int} {cell : Cell} {rest : Work} :
    (⟨column, cell :: rest⟩ : Position) ∈ memory ↔
      memory.entries[(column, cell.label)]? = some (cell :: rest) := by
  constructor
  · intro remembered
    obtain ⟨_, _, workEq, found⟩ := mem_iff.mp remembered
    cases workEq
    exact found
  · intro found
    exact mem_iff.mpr ⟨cell, rest, rfl, found⟩

theorem not_mem_empty (position : Position) : position ∉ empty := by
  simp [mem_iff, empty]

theorem mem_insert_of_mem {memory : Memory} {position other : Position}
    (remembered : other ∈ memory) : other ∈ memory.insert position := by
  obtain ⟨cell, rest, workEq, found⟩ := mem_iff.mp remembered
  refine mem_iff.mpr ⟨cell, rest, workEq, ?_⟩
  unfold insert
  split
  · exact found
  · rw [Std.HashMap.getElem?_insertIfNew]
    split
    · rename_i clash
      rw [beq_iff_eq.mp clash.1] at clash
      exact absurd (Std.HashMap.isSome_getElem?_iff_mem.mp (by simp [found])) clash.2
    · exact found

theorem mem_insert {memory : Memory} {position other : Position}
    (remembered : other ∈ memory.insert position) : other = position ∨ other ∈ memory := by
  obtain ⟨cell, rest, workEq, found⟩ := mem_iff.mp remembered
  unfold insert at found
  split at found
  · exact .inr (mem_iff.mpr ⟨cell, rest, workEq, found⟩)
  · rename_i first following positionWork
    rw [Std.HashMap.getElem?_insertIfNew] at found
    split at found
    · rename_i fresh
      obtain ⟨columnEq, -⟩ := Prod.mk.inj (beq_iff_eq.mp fresh.1)
      left
      rcases position with ⟨column, work⟩
      rcases other with ⟨otherColumn, otherWork⟩
      simp_all
    · exact .inr (mem_iff.mpr ⟨cell, rest, workEq, found⟩)

theorem mem_insertAll_of_mem {memory : Memory} {positions : List Position} {other : Position}
    (remembered : other ∈ memory) : other ∈ memory.insertAll positions := by
  induction positions generalizing memory with
  | nil => exact remembered
  | cons position rest inductionHypothesis =>
      exact inductionHypothesis (mem_insert_of_mem remembered)

theorem mem_insertAll {memory : Memory} {positions : List Position} {other : Position}
    (remembered : other ∈ memory.insertAll positions) : other ∈ positions ∨ other ∈ memory := by
  induction positions generalizing memory with
  | nil => exact .inr remembered
  | cons position rest inductionHypothesis =>
      rcases inductionHypothesis remembered with later | earlier
      · exact .inl (List.mem_cons_of_mem position later)
      · rcases mem_insert earlier with rfl | before
        · exact .inl List.mem_cons_self
        · exact .inr before

end Memory

end DocLayout
