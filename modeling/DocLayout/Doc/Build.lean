import DocLayout.Doc.Flatten
import DocLayout.Text.Repeat

/-!
# Building documents

The functions of this module accept every object that can be read as a document and report the
first one that cannot.  What they read, and in which order, is part of their meaning, since it
decides which of several causes is reported.

A function that has nothing to add gives back the very object it got.  All others make a new one,
for which they are given a label.
-/

namespace DocLayout

namespace Doc

/-- A line break that becomes a space if the text up to the next line break then fits. -/
def softline : Doc :=
  .union ⟨.shared, .doc .space⟩ ⟨.shared, .doc .line⟩

/-- A document whose line breaks are indented to the column where it starts. -/
def aligned (label : Nat) (doc : Doc) : Doc :=
  .column ⟨.made label, .function (.align doc)⟩

/-- A document followed by what a function makes of the number of columns it takes on its last
line. -/
def withWidth (label : Nat) (doc : Doc) (report : Value) : Doc :=
  .column ⟨.made label, .function (.width doc report)⟩

end Doc

namespace Identified

/-- The droppable blank. -/
def empty : Identified Doc :=
  ⟨.shared, .empty⟩

/-- One document after the other.  Where one of them is the droppable blank, this is the other
one. -/
def append (label : Nat) (left right : Identified Doc) : Identified Doc :=
  match left.content, right.content with
  | .blank false, _ => right
  | _, .blank false => left
  | first, second => ⟨.made label, .concat first second⟩

@[simp]
theorem content_append (label : Nat) (left right : Identified Doc) :
    (left.append label right).content = left.content.append right.content := by
  unfold append Doc.append
  split <;> simp_all

end Identified

namespace Build

variable (label : Nat)

/-- Reads an object as a document. -/
def cast (object : Object) : Except Error (Identified Doc) :=
  match object.content with
  | .doc document => .ok ⟨object.identity, document⟩
  | .str content =>
      if content = "" then .ok .empty
      else do
        let document ← Doc.ofString content
        return ⟨.made label, document⟩
  | value => .error (.notDocLike value)

/-- Reading an object as a document reads its content. -/
theorem content_cast (object : Object) :
    Identified.content <$> cast label object = Doc.ofValue object.content := by
  rcases object with ⟨identity, value⟩
  cases value with
  | str content =>
      by_cases blank : content = ""
      · simp only [cast, Doc.ofValue, if_pos blank]
        rfl
      · simp only [cast, Doc.ofValue, if_neg blank]
        cases Doc.ofString content <;> rfl
  | _ => rfl

/-- The document of a text. -/
def text (value : Value) : Except Error (Identified Doc) :=
  match value with
  | .str content => do
      let document ← Doc.ofString content
      return ⟨.made label, document⟩
  | value => .error (.notText value)

/-- The document of a single character. -/
def char (value : Value) : Except Error (Identified Doc) :=
  match value with
  | .str content =>
      if content.length = 1 then text label value else .error (.notCharacter content)
  | value => .error (.notText value)

/-- One document after the other. -/
def append (left right : Object) : Except Error (Identified Doc) := do
  let left ← cast label left
  let right ← cast label right
  return left.append label right

/-- Documents in a row.  They are put together from the last one to the first. -/
def concat (objects : List Object) : Except Error (Identified Doc) :=
  objects.foldr (fun object rest => do
    let rest ← rest
    let first ← cast label object
    return first.append label rest) (.ok .empty)

/-- A concatenation of two documents, blanks included. -/
def concatOf (left right : Value) : Except Error (Identified Doc) := do
  let joined ← Doc.concatOf left right
  return ⟨.made label, joined⟩

/-- A nesting of a document. -/
def nestOf (amount value : Value) : Except Error (Identified Doc) := do
  let nested ← Doc.nestOf amount value
  return ⟨.made label, nested⟩

/-- A document whose line breaks are indented by a further amount. -/
def nest (amount : Value) (object : Object) : Except Error (Identified Doc) := do
  let inner ← cast label object
  nestOf label amount (.doc inner.content)

/-- A document that is laid out on one line if it fits, together with what follows it up to the
next line break. -/
def group (object : Object) : Except Error (Identified Doc) := do
  let broken ← cast label object
  let flat ← broken.object.flatten label
  return ⟨.made label, .union flat broken.object⟩

/-- A document aligned to the column where it starts. -/
def align (object : Object) : Except Error (Identified Doc) := do
  let inner ← cast label object
  return ⟨.made label, inner.content.aligned label⟩

/-- A document with a report of its width. -/
def width (object : Object) (report : Value) : Except Error (Identified Doc) := do
  let inner ← cast label object
  return ⟨.made label, inner.content.withWidth label report⟩

/-- A document whose line breaks are indented by an amount from the column where it starts. -/
def hang (amount : Value) (object : Object) : Except Error (Identified Doc) := do
  let inner ← nest label amount object
  align label inner.object

/-- A document moved to the right by an amount, line by line.  The spaces are made first. -/
def indent (amount : Value) (object : Object) : Except Error (Identified Doc) := do
  let spaces ← Text.repeatedBy " " amount
  let inner ← append label ⟨.made label, .str spaces⟩ object
  hang label amount inner.object

/-- A document between two others. -/
def surround (left right object : Object) : Except Error (Identified Doc) := do
  let opened ← append label left object
  append label opened.object right

/-- A document between two texts. -/
def enclose (left right : String) (object : Object) : Except Error (Identified Doc) :=
  surround label ⟨.made label, .str left⟩ ⟨.made label, .str right⟩ object

/-- A document in parentheses. -/
def parens : Object → Except Error (Identified Doc) :=
  enclose label "(" ")"

/-- A document in braces. -/
def braces : Object → Except Error (Identified Doc) :=
  enclose label "\x7b" "\x7d"

/-- A document in square brackets. -/
def brackets : Object → Except Error (Identified Doc) :=
  enclose label "[" "]"

/-- A document in angle brackets. -/
def angles : Object → Except Error (Identified Doc) :=
  enclose label "<" ">"

/-- Documents in a row with a separator between neighbours. -/
def join (separator : Object) (objects : List Object) : Except Error (Identified Doc) :=
  concat label (objects.intersperse separator)

/-- Documents in a row with spaces between neighbours. -/
def hsep (objects : List Object) : Except Error (Identified Doc) :=
  join label ⟨.shared, .str " "⟩ objects

/-- Documents with line breaks between neighbours. -/
def vsep (objects : List Object) : Except Error (Identified Doc) :=
  join label ⟨.shared, .doc .line⟩ objects

/-- Documents on one line if they fit, and on a line each otherwise. -/
def sep (objects : List Object) : Except Error (Identified Doc) := do
  let rows ← vsep label objects
  group label rows.object

end Build

end DocLayout
