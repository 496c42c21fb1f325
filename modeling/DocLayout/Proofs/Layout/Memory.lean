import DocLayout.Proofs.Layout.Search

/-!
# Reliable memories

A memory is reliable if no search from a remembered position finds anything but an overflow.  A
layout only ever adds positions that overflow, so it keeps its memory reliable.
-/

namespace DocLayout

variable {meaning : Meaning} {width : Int}

/-- What a search finds from a position. -/
abbrev Position.Finds (meaning : Meaning) (width : Int) (position : Position) (found : Found) :
    Prop :=
  Search meaning width position.column position.work.obligations found

theorem Position.finds_of_search {position : Position} {column : Int} {parts : List Obligation}
    {found : Found} (search : Search meaning width column parts found)
    (columnEq : position.column = column) (partsEq : position.work.obligations = parts) :
    position.Finds meaning width found := by
  rw [Finds, columnEq, partsEq]
  exact search

namespace Memory

/-- No remembered position leads to a line break, to the end or to a failure within the width. -/
def Reliable (meaning : Meaning) (width : Int) (memory : Memory) : Prop :=
  ∀ position ∈ memory, ∀ found, position.Finds meaning width found → found = .overflows

/-- All that one memory holds beyond another one are positions that overflow. -/
def OnlyAdds (meaning : Meaning) (width : Int) (before after : Memory) : Prop :=
  ∀ position ∈ after, position ∈ before ∨ position.Finds meaning width .overflows

theorem OnlyAdds.refl (memory : Memory) : OnlyAdds meaning width memory memory :=
  fun _ remembered => .inl remembered

theorem OnlyAdds.trans {before middle after : Memory} (first : OnlyAdds meaning width before middle)
    (second : OnlyAdds meaning width middle after) : OnlyAdds meaning width before after := by
  intro position remembered
  rcases second position remembered with earlier | overflows
  · exact first position earlier
  · exact .inr overflows

theorem onlyAdds_insertAll {memory : Memory} {positions : List Position}
    (overflow : ∀ position ∈ positions, position.Finds meaning width .overflows) :
    OnlyAdds meaning width memory (memory.insertAll positions) := by
  intro position remembered
  rcases mem_insertAll remembered with new | old
  · exact .inr (overflow position new)
  · exact .inl old

/-- What is added to the empty memory overflows. -/
theorem OnlyAdds.finds_overflows {memory : Memory} (adds : OnlyAdds meaning width empty memory)
    {position : Position} (remembered : position ∈ memory) :
    position.Finds meaning width .overflows := by
  rcases adds position remembered with impossible | overflows
  · exact absurd impossible (not_mem_empty position)
  · exact overflows

theorem reliable_empty : Reliable meaning width empty :=
  fun position remembered => absurd remembered (not_mem_empty position)

theorem Reliable.of_onlyAdds {before after : Memory} (reliable : Reliable meaning width before)
    (adds : OnlyAdds meaning width before after) : Reliable meaning width after := by
  intro position remembered found finds
  rcases adds position remembered with earlier | overflows
  · exact reliable position earlier found finds
  · exact finds.unique overflows

end Memory

end DocLayout
