import DocLayout.Value.Written

/-!
# Causes of failure

Each way in which building, laying out or rendering documents can fail is a constructor of
`Error`, together with what the message needs to name.
-/

namespace DocLayout

/-- Why an operation failed.  Exceptions of the host's own, `StopIteration` among them, are outside
the model: where a callback of the host fails, it is in one of these ways. -/
inductive Error where
  /-- Text was expected. -/
  | notText (value : Value)
  /-- Text of length one was expected. -/
  | notCharacter (text : String)
  /-- A fragment may not hold a line break. -/
  | brokenText (text : String)
  /-- Neither a document nor text. -/
  | notDocLike (value : Value)
  /-- An integer was expected. -/
  | notInteger (value : Value)
  /-- A document that the layout knows was expected. -/
  | notDoc (value : Value)
  /-- An item of a layout was expected. -/
  | notItem (value : Value)
  /-- A part of a document or an item is not of the required kind. -/
  | malformed
  /-- Values of this kind have no hash. -/
  | unhashable (kind : Kind)
  /-- Values of this kind are not made of items. -/
  | notIterable (kind : Kind)
  /-- Values of this kind cannot be called. -/
  | notCallable (kind : Kind)
  /-- Text cannot be repeated by values of this kind. -/
  | notRepeatable (kind : Kind)
  /-- The number of repetitions is out of range. -/
  | tooManyCopies
  /-- Values of this kind cannot be written to the output. -/
  | notWritable (kind : Kind)
  /-- No value has this name. -/
  | unbound (name : String)

namespace Error

/-- A value that is not what was expected, in words. -/
def unexpected (value : Value) (expected : String) : String :=
  "Got " ++ value.written ++ " of type " ++ value.kind.name ++ ", expected " ++ expected

/-- What an error says. -/
def message : Error → String
  | .notText value => unexpected value "'str'"
  | .notCharacter text => "Expected a single character, got " ++ Text.quoted text
  | .brokenText text =>
      "Text can not contain line breaks, got " ++ Text.quoted text ++ "; use LINE to break lines"
  | .notDocLike value => unexpected value "a Doc or 'str'"
  | .notInteger value => unexpected value "'int'"
  | .notDoc value => unexpected value "a Doc"
  | .notItem value => unexpected value "SText or SLine"
  | .malformed => ""
  | .unhashable kind => "unhashable type: '" ++ kind.name ++ "'"
  | .notIterable kind => "'" ++ kind.name ++ "' object is not iterable"
  | .notCallable kind => "'" ++ kind.name ++ "' object is not callable"
  | .notRepeatable kind => "can't multiply sequence by non-int of type '" ++ kind.name ++ "'"
  | .tooManyCopies => "cannot fit 'int' into an index-sized integer"
  | .notWritable kind => "string argument expected, got '" ++ kind.name ++ "'"
  | .unbound name => "name '" ++ name ++ "' is not defined"

end Error

end DocLayout
