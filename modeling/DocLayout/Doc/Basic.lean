import DocLayout.Error

/-!
# Documents from values

Wherever a document is expected, text will do: the empty text stands for the droppable blank, and
other text for a fragment.  `Doc.append` puts two documents together and drops droppable blanks.
-/

namespace DocLayout.Doc

/-- The document of a text, which may not hold a line break. -/
def ofString (text : String) : Except Error Doc :=
  match Fragment.ofString? text with
  | some fragment => .ok (.text fragment)
  | none => .error (.brokenText text)

/-- Reads a value as a document. -/
def ofValue : Value → Except Error Doc
  | .doc document => .ok document
  | .str content => if content = "" then .ok .empty else ofString content
  | value => .error (.notDocLike value)

/-- One document after the other, without the droppable blanks. -/
def append : Doc → Doc → Doc
  | .blank false, right => right
  | left, .blank false => left
  | left, right => .concat left right

/-- The concatenation of two values that are documents already. -/
def concatOf : Value → Value → Except Error Doc
  | .doc left, .doc right => .ok (.concat left right)
  | _, _ => .error .malformed

/-- The nesting of a value that is a document already.  The amount is looked at first. -/
def nestOf : Value → Value → Except Error Doc
  | .num amount, .doc inner => .ok (.nest amount inner)
  | .num _, _ => .error .malformed
  | amount, _ => .error (.notInteger amount)

@[simp]
theorem ofValue_doc (doc : Doc) : ofValue (.doc doc) = .ok doc := rfl

@[simp]
theorem empty_append (doc : Doc) : append .empty doc = doc := by
  cases doc <;> rfl

@[simp]
theorem append_empty (doc : Doc) : append doc .empty = doc := by
  rcases doc with (_ | _) | _ | _ | _ | _ | _ | _ | _ | _ <;> rfl

end DocLayout.Doc
