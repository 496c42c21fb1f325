import DocLayout.Text.Quoted
import DocLayout.Value.Kind

/-!
# The written form of values

Values are written the way they are put together: constructors with their members in order,
strings in quotes, numbers in decimal.  A callback and a one-shot sequence have no structure to
show and are written as marks.
-/

namespace DocLayout

/-- The written form of an amount. -/
def Amount.written : Amount → String
  | .int n => toString n
  | .bool true => "True"
  | .bool false => "False"

mutual

/-- The written form of a document. -/
def Doc.written : Doc → String
  | .blank _ => "NIL"
  | .text fragment => "Text(" ++ Text.quoted fragment.text ++ ")"
  | .line => "LINE"
  | .concat left right => "Concat(" ++ left.written ++ ", " ++ right.written ++ ")"
  | .nest amount doc => "Nest(" ++ amount.written ++ ", " ++ doc.written ++ ")"
  | .union ⟨_, flat⟩ ⟨_, broken⟩ =>
      "Union(flat=" ++ flat.written ++ ", broken=" ++ broken.written ++ ")"
  | .nesting ⟨_, callback⟩ => "Nesting(" ++ callback.written ++ ")"
  | .column ⟨_, callback⟩ => "Column(" ++ callback.written ++ ")"
  | .unknown => "Unknown"

/-- The written form of a value. -/
def Value.written : Value → String
  | .none => "None"
  | .num amount => amount.written
  | .float number => number.text
  | .str text => Text.quoted text
  | .list items => "[" ++ Value.writtenAll items ++ "]"
  | .sequence _ => "<generator>"
  | .function _ => "<fn>"
  | .doc doc => doc.written
  | .textItem content => "SText(" ++ content.written ++ ")"
  | .lineItem indent => "SLine(" ++ indent.written ++ ")"

/-- The written forms of several values, set apart by commas. -/
def Value.writtenAll : List Object → String
  | [] => ""
  | [⟨_, value⟩] => value.written
  | ⟨_, value⟩ :: rest => value.written ++ ", " ++ Value.writtenAll rest

end

end DocLayout
