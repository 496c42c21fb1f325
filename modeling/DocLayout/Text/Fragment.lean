/-!
# Fragments

A fragment is a piece of text that stays on one line: it holds neither a line feed nor a carriage
return.  No other character counts as a line break.
-/

namespace DocLayout

/-- The characters that end a line. -/
def isLineBreak (c : Char) : Bool :=
  c = '\n' || c = '\r'

/-- The characters of a text are looked at one by one, and no other ones. -/
instance (text : String) : Decidable (∀ c ∈ text.toList, isLineBreak c = false) :=
  List.decidableBAll (fun c => isLineBreak c = false) text.toList

/-- Text without line breaks.  Text is a sequence of Unicode scalar values, here as everywhere, so
strings with lone surrogates are outside the model. -/
structure Fragment where
  /-- The characters of the fragment. -/
  text : String
  /-- None of them ends the line. -/
  unbroken : ∀ c ∈ text.toList, isLineBreak c = false
deriving DecidableEq

namespace Fragment

/-- The fragment with the given text, if that has no line break. -/
def ofString? (text : String) : Option Fragment :=
  if unbroken : ∀ c ∈ text.toList, isLineBreak c = false then some ⟨text, unbroken⟩ else none

/-- The number of columns a fragment takes: one for each character. -/
def width (fragment : Fragment) : Nat :=
  fragment.text.length

/-- A single space. -/
def space : Fragment where
  text := " "
  unbroken := List.forall_mem_singleton.mpr rfl

theorem ofString?_eq_some_iff {text : String} {fragment : Fragment} :
    ofString? text = some fragment ↔ fragment.text = text := by
  unfold ofString?
  constructor
  · intro accepted
    split at accepted
    · cases accepted
      rfl
    · contradiction
  · rintro rfl
    rw [dif_pos fragment.unbroken]

theorem ofString?_eq_none_iff {text : String} :
    ofString? text = none ↔ ∃ c ∈ text.toList, isLineBreak c = true := by
  simp [ofString?]

end Fragment

end DocLayout
