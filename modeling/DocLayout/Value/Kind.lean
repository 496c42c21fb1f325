import DocLayout.Value.Basic

/-!
# Kinds of values

Every value has a kind, and messages call each kind by its name.  A blank is of the same kind
whether it is kept or dropped, while truth values and integers are of different kinds.
-/

namespace DocLayout

/-- What sort of thing a value is. -/
inductive Kind where
  | none
  | bool
  | int
  | float
  | str
  | list
  | sequence
  | function
  | blank
  | text
  | line
  | concat
  | nest
  | union
  | nesting
  | column
  | unknown
  | textItem
  | lineItem
deriving DecidableEq

/-- The name that messages use. -/
def Kind.name : Kind → String
  | .none => "NoneType"
  | .bool => "bool"
  | .int => "int"
  | .float => "float"
  | .str => "str"
  | .list => "list"
  | .sequence => "generator"
  | .function => "function"
  | .blank => "Nil"
  | .text => "Text"
  | .line => "Line"
  | .concat => "Concat"
  | .nest => "Nest"
  | .union => "Union"
  | .nesting => "Nesting"
  | .column => "Column"
  | .unknown => "Unknown"
  | .textItem => "SText"
  | .lineItem => "SLine"

/-- The kind of a document. -/
def Doc.kind : Doc → Kind
  | .blank _ => .blank
  | .text _ => .text
  | .line => .line
  | .concat _ _ => .concat
  | .nest _ _ => .nest
  | .union _ _ => .union
  | .nesting _ => .nesting
  | .column _ => .column
  | .unknown => .unknown

/-- The kind of a value. -/
def Value.kind : Value → Kind
  | .none => .none
  | .bool _ => .bool
  | .int _ => .int
  | .float _ => .float
  | .str _ => .str
  | .list _ => .list
  | .sequence _ => .sequence
  | .function _ => .function
  | .doc document => document.kind
  | .textItem _ => .textItem
  | .lineItem _ => .lineItem

end DocLayout
