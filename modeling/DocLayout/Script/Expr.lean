import DocLayout.Value.Basic

/-!
# Expressions

A small language to say which value is meant.  Expressions are evaluated in an environment of
named values.  Besides the operations of the library it has local names, functions of one integer,
conditions, repetition, lists and one-shot sequences.
-/

namespace DocLayout.Script

/-- A value that stands for itself. -/
inductive Literal where
  | none
  | bool (b : Bool)
  | int (n : Int)
  | float (number : Numeric.Binary64)
  | str (text : String)

/-- A document without parts. -/
inductive Constant where
  /-- The droppable blank. -/
  | empty
  /-- A new blank that is kept. -/
  | keptBlank
  /-- The line break that all scripts share. -/
  | line
  /-- A new line break. -/
  | ownLine
  | space
  | softline
  /-- A new document that no rule of layout covers. -/
  | unknown

/-- An operation on one value. -/
inductive Unary where
  | text
  | char
  /-- Reads a value as a document. -/
  | castDoc
  | concat
  | group
  | nesting
  | column
  | align
  | parens
  | braces
  | brackets
  | angles
  | hsep
  | vsep
  | sep
  | flatten
  /-- A text item of a layout. -/
  | textItem
  /-- A line-break item of a layout. -/
  | lineItem
  /-- The decimal text of an integer. -/
  | decimal

/-- An operation on two values. -/
inductive Binary where
  | append
  | nest
  | width
  | hang
  | indent
  | join
  | intersperse
  /-- The concatenation of two documents, blanks included. -/
  | concatOf
  /-- The nesting of a document. -/
  | nestOf
  /-- A layout choice between any two values. -/
  | union
  /-- A string several times in a row. -/
  | repeatText
  | add
  | sub
  | mul
  | lt
  | le
  | equal

/-- An expression. -/
inductive Expr where
  /-- A value that stands for itself, written at a place.  It is the same object each time. -/
  | literal (place : Nat) (value : Literal)
  /-- A value that stands for itself, and is a new object each time. -/
  | fresh (value : Literal)
  /-- The value of a name. -/
  | var (name : String)
  /-- A name for a value, in a further expression. -/
  | bind (name : String) (value body : Expr)
  /-- One of two expressions, as a condition says. -/
  | cond (test yes no : Expr)
  /-- A new function.  It may have a name for itself. -/
  | function (self : Option String) (param : String) (body : Expr)
  /-- A value replaced several times by what an expression makes of it. -/
  | iterate (count : Expr) (name : String) (start body : Expr)
  /-- The list of what an expression makes of consecutive integers. -/
  | range (lower upper : Expr) (name : String) (body : Expr)
  /-- The list of one value several times. -/
  | replicate (count value : Expr)
  /-- A list. -/
  | list (items : List Expr)
  /-- A new one-shot sequence. -/
  | sequence (items : List Expr)
  /-- A document without parts. -/
  | constant (constant : Constant)
  /-- An operation on one value. -/
  | unary (operation : Unary) (operand : Expr)
  /-- An operation on two values. -/
  | binary (operation : Binary) (left right : Expr)
  /-- A document between two others. -/
  | surround (left right inner : Expr)

end DocLayout.Script
