import DocLayout.Proofs.Layout.Run

/-!
# Layouts that fit

A layout fits a budget of columns if its text up to the first line break, or to the end, stays
within the budget.  A layout that fails before that leaves the question open.
-/

namespace DocLayout.Layout

/-- Whether items stay within a budget of columns up to the first line break, or to the end.  A
failure that comes first leaves this open. -/
def fitsBudget (ending : Option Error) : (budget : Int) → List Item → Except Error Bool
  | budget, [] => if budget < 0 then .ok false else ending.elim (.ok true) .error
  | budget, .text fragment :: items =>
      if budget < 0 then .ok false else fitsBudget ending (budget - fragment.width) items
  | budget, .line _ :: _ => if budget < 0 then .ok false else .ok true

/-- Whether a layout stays within a budget of columns up to its first line break, or to its end. -/
def fits (layout : Layout) (budget : Int) : Except Error Bool :=
  fitsBudget layout.ending budget layout.items

/-- A layout behind earlier items. -/
def after (earlier : List Item) (layout : Layout) : Layout :=
  ⟨earlier ++ layout.items, layout.ending⟩

/-- Nothing can be laid out. -/
def failed (cause : Error) : Layout :=
  ⟨[], some cause⟩

theorem fits_of_neg (layout : Layout) {budget : Int} (negative : budget < 0) :
    layout.fits budget = .ok false := by
  rcases layout with ⟨_ | ⟨_ | _, _⟩, _⟩ <;> simp [fits, fitsBudget, negative]

theorem fits_text (fragment : Fragment) (layout : Layout) {budget : Int} (nonneg : 0 ≤ budget) :
    (layout.after [.text fragment]).fits budget = layout.fits (budget - fragment.width) := by
  simp [fits, after, fitsBudget, Int.not_lt.mpr nonneg]

theorem fits_line (indent : Int) (layout : Layout) {budget : Int} (nonneg : 0 ≤ budget) :
    (layout.after [.line indent]).fits budget = .ok true := by
  simp [fits, after, fitsBudget, Int.not_lt.mpr nonneg]

theorem fits_empty {budget : Int} (nonneg : 0 ≤ budget) :
    (⟨[], none⟩ : Layout).fits budget = .ok true := by
  simp [fits, fitsBudget, Int.not_lt.mpr nonneg]

theorem fits_failed (cause : Error) {budget : Int} (nonneg : 0 ≤ budget) :
    (failed cause).fits budget = .error cause := by
  simp [fits, failed, fitsBudget, Int.not_lt.mpr nonneg]

/-- The number of columns that several fragments take. -/
def widthOf : List Fragment → Nat
  | [] => 0
  | fragment :: fragments => fragment.width + widthOf fragments

variable {layout : Layout} {budget : Int}

/-- A layout that does not fit begins with text that exceeds the budget. -/
theorem exists_texts_of_overflows (overflows : layout.fits budget = .ok false) :
    ∃ (texts : List Fragment) (later : Layout), layout = later.after (texts.map .text) ∧
      budget < widthOf texts := by
  rcases layout with ⟨items, ending⟩
  induction items generalizing budget with
  | nil =>
      by_cases negative : budget < 0
      · exact ⟨[], ⟨[], ending⟩, rfl, negative⟩
      · cases ending <;> simp [fits, fitsBudget, negative] at overflows
  | cons item items inductionHypothesis =>
      by_cases negative : budget < 0
      · exact ⟨[], ⟨item :: items, ending⟩, rfl, negative⟩
      · have nonneg : 0 ≤ budget := Int.not_lt.mp negative
        cases item with
        | line indent =>
            have fitsEq := (fits_line indent ⟨items, ending⟩ nonneg).symm.trans overflows
            cases fitsEq
        | text fragment =>
            have laterOverflows := (fits_text fragment ⟨items, ending⟩ nonneg).symm.trans overflows
            obtain ⟨texts, later, layoutEq, exceeds⟩ := inductionHypothesis laterOverflows
            cases layoutEq
            refine ⟨fragment :: texts, later, rfl, ?_⟩
            rw [widthOf]
            omega

theorem nonneg_of_fails {cause : Error} (fails : layout.fits budget = .error cause) :
    0 ≤ budget := by
  rcases Int.lt_or_le budget 0 with negative | nonneg
  · have fitsEq := (layout.fits_of_neg negative).symm.trans fails
    cases fitsEq
  · exact nonneg

/-- A layout of which it is open whether it fits is nothing but text before it fails. -/
theorem exists_texts_of_fails {cause : Error} (fails : layout.fits budget = .error cause) :
    ∃ texts : List Fragment, layout = ⟨texts.map .text, some cause⟩ := by
  rcases layout with ⟨items, ending⟩
  induction items generalizing budget with
  | nil =>
      cases ending with
      | none =>
          have fitsEq := (fits_empty (nonneg_of_fails fails)).symm.trans fails
          cases fitsEq
      | some failure =>
          have fitsEq := (fits_failed failure (nonneg_of_fails fails)).symm.trans fails
          cases fitsEq
          exact ⟨[], rfl⟩
  | cons item items inductionHypothesis =>
      cases item with
      | line indent =>
          have fitsEq :=
            (fits_line indent ⟨items, ending⟩ (nonneg_of_fails fails)).symm.trans fails
          cases fitsEq
      | text fragment =>
          have laterFails :=
            (fits_text fragment ⟨items, ending⟩ (nonneg_of_fails fails)).symm.trans fails
          obtain ⟨texts, layoutEq⟩ := inductionHypothesis laterFails
          cases layoutEq
          exact ⟨fragment :: texts, rfl⟩

end DocLayout.Layout
