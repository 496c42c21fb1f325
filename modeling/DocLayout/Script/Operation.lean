import DocLayout.Doc.Build
import DocLayout.Script.Heap

/-!
# The operations of a script

What each operation of the language does with objects.  Operations on several documents take the
items of a string, a list or a one-shot sequence.
-/

namespace DocLayout.Script

/-- A result that may be a cause of failure. -/
def liftResult {α : Type} (result : Except Error α) : ScriptM α :=
  match result with
  | .ok value => return value
  | .error cause => throw cause

/-- The document that is built with a new label. -/
def build (make : (label : Nat) → Except Error (Identified Doc)) : ScriptM Object := do
  let document ← liftResult (make (← newLabel))
  return document.object

/-- The integer that a value stands for. -/
def integer (value : Value) : ScriptM Int :=
  match value.toInt? with
  | some n => return n
  | none => throw (.notInteger value)

/-- The integer that a function makes of two integers. -/
def arithmetic (compute : Int → Int → Int) (a b : Value) : ScriptM Object := do
  let m ← integer a
  let n ← integer b
  newObject (.int (compute m n))

/-- Whether two integers are in a relation. -/
def comparison (holds : Int → Int → Bool) (a b : Value) : ScriptM Object := do
  let m ← integer a
  let n ← integer b
  newObject (.bool (holds m n))

/-- A string several times in a row.  Once is the string itself. -/
def textCopies (text : Object) (count : Value) : ScriptM Object :=
  match text.content with
  | .str content => do
      let copies ← liftResult (Text.repeatedBy content count)
      if count.toInt? = some 1 then return text else newObject (.str copies)
  | value => throw (.notText value)

/-- The object of a constant. -/
def Constant.object : Constant → ScriptM Object
  | .empty => return ⟨.shared, .doc .empty⟩
  | .keptBlank => newObject (.doc (.blank true))
  | .line => return ⟨.shared, .doc .line⟩
  | .ownLine => newObject (.doc .line)
  | .space => return ⟨.shared, .doc .space⟩
  | .softline => return ⟨.shared, .doc .softline⟩
  | .unknown => newObject (.doc .unknown)

/-- The object that an operation makes of one object. -/
def Unary.apply : Unary → Object → ScriptM Object
  | .text, object => build (Build.text · object.content)
  | .char, object => build (Build.char · object.content)
  | .castDoc, object => build (Build.cast · object)
  | .concat, object => do
      let items ← takeItems object.content
      build (Build.concat · items)
  | .group, object => build (Build.group · object)
  | .nesting, callback => newObject (.doc (.nesting callback))
  | .column, callback => newObject (.doc (.column callback))
  | .align, object => build (Build.align · object)
  | .parens, object => build (Build.parens · object)
  | .braces, object => build (Build.braces · object)
  | .brackets, object => build (Build.brackets · object)
  | .angles, object => build (Build.angles · object)
  | .hsep, object => do
      let items ← takeItems object.content
      build (Build.hsep · items)
  | .vsep, object => do
      let items ← takeItems object.content
      build (Build.vsep · items)
  | .sep, object => do
      let items ← takeItems object.content
      build (Build.sep · items)
  | .flatten, object => do liftResult (object.flatten (← newLabel))
  | .textItem, object => newObject (.textItem object.content)
  | .lineItem, object =>
      match object.content with
      | .num indent => newObject (.lineItem indent)
      | _ => throw .malformed
  | .decimal, object => do
      let n ← integer object.content
      return ⟨.made (← newLabel), .str (toString n)⟩

/-- The object that an operation makes of two objects. -/
def Binary.apply : Binary → Object → Object → ScriptM Object
  | .append, left, right => build (Build.append · left right)
  | .nest, amount, object => build (Build.nest · amount.content object)
  | .width, object, report => build (Build.width · object report.content)
  | .hang, amount, object => build (Build.hang · amount.content object)
  | .indent, amount, object => build (Build.indent · amount.content object)
  | .join, separator, objects => do
      let items ← takeItems objects.content
      build (Build.join · separator items)
  | .intersperse, separator, objects => do
      let items ← takeItems objects.content
      newObject (.list (items.intersperse separator))
  | .concatOf, left, right => build (Build.concatOf · left.content right.content)
  | .nestOf, amount, inner => build (Build.nestOf · amount.content inner.content)
  | .union, flat, broken => newObject (.doc (.union flat broken))
  | .repeatText, text, count => textCopies text count.content
  | .add, a, b => arithmetic (· + ·) a.content b.content
  | .sub, a, b => arithmetic (· - ·) a.content b.content
  | .mul, a, b => arithmetic (· * ·) a.content b.content
  | .lt, a, b => comparison (fun m n => m < n) a.content b.content
  | .le, a, b => comparison (fun m n => m ≤ n) a.content b.content
  | .equal, a, b => newObject (.bool (a.content.equal b.content))

end DocLayout.Script
