import DocLayout.Layout.Reading
import DocLayout.Text.Repeat

/-!
# Rendering

Every item of a layout becomes one chunk of text: a text item its text, and a line break the newline
followed by as many separators as the line is indented.  Indentation below zero renders as none.
-/

namespace DocLayout

/-- How line breaks are rendered. -/
structure Style where
  /-- What ends a line. -/
  newline : String := "\n"
  /-- What indents a line by one column. -/
  separator : String := " "

/-- The chunk of a line break. -/
def Style.lineBreak (style : Style) (indent : Int) : Except Error String := do
  let margin ← Text.repeated style.separator (max indent 0)
  return style.newline ++ margin

/-- The chunk of an item. -/
def Item.render (style : Style) : Item → Except Error String
  | .text fragment => .ok fragment.text
  | .line indent => style.lineBreak indent

/-- The chunk of a value that is an item. -/
def Value.render (style : Style) : Value → Except Error String
  | .textItem (.str content) => .ok content
  | .textItem content => .error (.notWritable content.kind)
  | .lineItem indent => style.lineBreak indent.toInt
  | value => .error (.notItem value)

/-- A print-out under way. -/
structure Printout where
  /-- The decisions on choices, last first. -/
  decisions : List Decision := []
  /-- The chunks, last first. -/
  chunks : List String := []

/-- The text of a print-out. -/
def Printout.text (printout : Printout) : String :=
  String.join printout.chunks.reverse

/-- Renders items as they come, and keeps the decisions on choices. -/
def Reader.render (style : Style) : Reader Printout where
  wants _ := true
  take printout
    | .item item => do
        let chunk ← item.render style
        return { printout with chunks := chunk :: printout.chunks }
    | .decision decision =>
        return { printout with decisions := decision :: printout.decisions }

end DocLayout
