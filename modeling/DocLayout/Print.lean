import DocLayout.Render
import DocLayout.Value.Number

/-!
# Printing documents

A document is printed by laying it out and rendering the items as they come.  The width and the
document are looked at before anything is laid out: first the width, which has to be an integer,
then the document.
-/

namespace DocLayout

/-- The width of a page unless another one is asked for. -/
def defaultWidth : Int := 79

variable {α σ : Type} (host : Host σ) (bound : Nat)

/-- Lays a document out for a reader. -/
def readLayout (reader : Reader α) (nothing : α) (doc width : Value) (state : σ) :
    Except Error (Reading α σ) := do
  let some columns := width.toInt? | throw (.notInteger width)
  let root ← Doc.ofValue doc
  return reader.read host columns bound nothing (.start 0 [⟨0, .doc root⟩] state)

/-- Prints a document.  Nothing is printed if the width or the document is refused. -/
def printDoc (style : Style) (doc width : Value) (state : σ) : Reading Printout σ :=
  match readLayout host bound (.render style) {} doc width state with
  | .ok reading => reading
  | .error cause => ⟨{}, .failed cause, state⟩

/-- The text of a print-out, unless something failed. -/
def Reading.text (reading : Reading Printout σ) : Except Error String :=
  match reading.failure with
  | none => .ok reading.taken.text
  | some cause => .error cause

/-- Adds the text at the end of a print-out, unless something failed.  A value that does not count
as true adds nothing. -/
def Reading.close (reading : Reading Printout σ) (ending : Value) : Reading Printout σ :=
  match reading.failure, ending with
  | some _, _ => reading
  | none, .str content =>
      if content = "" then reading
      else { reading with
        taken := { reading.taken with chunks := content :: reading.taken.chunks } }
  | none, ending =>
      if ending.isTrue then { reading with ending := .failed (.notWritable ending.kind) }
      else reading

end DocLayout
