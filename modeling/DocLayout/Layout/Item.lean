import DocLayout.Text.Fragment

/-!
# Items of a layout

A layout is a flat sequence of pieces of text and indented line breaks.
-/

namespace DocLayout

/-- An item of a layout. -/
inductive Item where
  /-- Text on the current line. -/
  | text (fragment : Fragment)
  /-- A line break, with the indentation of the next line.  Below zero it counts as none. -/
  | line (indent : Int)
deriving DecidableEq

/-- The column after an item that starts at a column. -/
def Item.advance (column : Int) : Item → Int
  | .text fragment => column + fragment.width
  | .line indent => max indent 0

@[simp]
theorem Item.advance_text (column : Int) (fragment : Fragment) :
    Item.advance column (.text fragment) = column + fragment.width := rfl

@[simp]
theorem Item.advance_line (column indent : Int) :
    Item.advance column (.line indent) = max indent 0 := rfl

end DocLayout
