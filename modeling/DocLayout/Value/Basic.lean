import DocLayout.Numeric.Binary64
import DocLayout.Text.Fragment

/-!
# Documents and values

A document is a tree that says what is to be printed and where it may be broken.  Documents are
made from values of several kinds, and some of them hold arbitrary values: the members of a layout
choice and the callback of a deferred document are only looked at when the document is laid out.
So documents, values and callbacks are defined together.

Two values with the same content may still be two objects.  Where that can be told, a value is kept
with its identity: as a member of a choice or a list, and as a callback.  Two objects are the same
exactly when they are equal here, identity included.
-/

namespace DocLayout

/-- What tells an object from all others with the same content. -/
inductive Identity where
  /-- Nothing has to: there is only one object with this content. -/
  | shared
  /-- The place where the object is written down. -/
  | written (place : Nat)
  /-- A label, given when the object is made. -/
  | made (label : Nat)
deriving DecidableEq

/-- A content with its identity. -/
structure Identified (α : Type) where
  /-- What tells it from others. -/
  identity : Identity
  /-- What it is. -/
  content : α

/-- The same object seen as something else. -/
def Identified.map {α β : Type} (f : α → β) (object : Identified α) : Identified β where
  identity := object.identity
  content := f object.content

/-- An integer amount.  Truth values count as one and zero, and are still written as truth
values. -/
inductive Amount where
  /-- An integer. -/
  | int (n : Int)
  /-- A truth value. -/
  | bool (b : Bool)
deriving DecidableEq

/-- The integer that an amount stands for. -/
@[simp]
def Amount.toInt : Amount → Int
  | .int n => n
  | .bool b => if b then 1 else 0

mutual

/-- A document. -/
inductive Doc where
  /-- Nothing.  The droppable one is the unit of concatenation; one that is kept stays in place. -/
  | blank (kept : Bool)
  /-- Text on one line. -/
  | text (fragment : Fragment)
  /-- A line break, indented as the place where it stands asks for. -/
  | line
  /-- One document after the other. -/
  | concat (left right : Doc)
  /-- A document whose line breaks are indented by a further amount. -/
  | nest (amount : Amount) (doc : Doc)
  /-- A choice between two layouts, the first of which is meant to take one line. -/
  | union (flat broken : Identified Value)
  /-- A document that a callback makes from the indentation in force. -/
  | nesting (callback : Identified Value)
  /-- A document that a callback makes from the column it starts at. -/
  | column (callback : Identified Value)
  /-- A document that no rule of layout covers. -/
  | unknown

/-- A value that documents are made from. -/
inductive Value where
  /-- The absent value. -/
  | none
  /-- An integer or a truth value. -/
  | num (amount : Amount)
  /-- A floating-point number. -/
  | float (number : Numeric.Binary64)
  /-- A string. -/
  | str (text : String)
  /-- A list of objects. -/
  | list (items : List (Identified Value))
  /-- A sequence that can be run through once. -/
  | sequence (label : Nat)
  /-- A function of one integer. -/
  | function (callback : Callback)
  /-- A document. -/
  | doc (doc : Doc)
  /-- A text item of a layout, whatever it holds. -/
  | textItem (content : Value)
  /-- A line-break item of a layout. -/
  | lineItem (indent : Amount)

/-- A function from an integer to a value, as data. -/
inductive Callback where
  /-- A function that the host of the documents defines. -/
  | custom (label : Nat)
  /-- Given a column, aligns a document to it. -/
  | align (doc : Doc)
  /-- Given the indentation in force, moves a document from there to the column. -/
  | alignAt (column : Int) (doc : Doc)
  /-- Given a column, lays a document out from there and reports its width to a further function. -/
  | width (doc : Doc) (report : Value)
  /-- Given a column, reports its distance from the start to a further function. -/
  | widthFrom (start : Int) (report : Value)

end

/-- A value with its identity. -/
abbrev Object := Identified Value

namespace Value

/-- An integer value. -/
@[match_pattern]
abbrev int (n : Int) : Value := .num (.int n)

/-- A truth value. -/
@[match_pattern]
abbrev bool (b : Bool) : Value := .num (.bool b)

end Value

namespace Doc

/-- The droppable empty document, the unit of concatenation. -/
abbrev empty : Doc := .blank false

/-- A single space. -/
abbrev space : Doc := .text .space

end Doc

/-- A document as a value. -/
abbrev Identified.object (document : Identified Doc) : Object :=
  document.map .doc

instance : Inhabited Doc := ⟨.empty⟩

instance : Inhabited Value := ⟨.none⟩

instance : Inhabited Callback := ⟨.custom 0⟩

end DocLayout
