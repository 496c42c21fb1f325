import DocLayout.Layout.Walk
import DocLayout.Script.Expr

/-!
# Requests and answers

A request names values by expressions and asks for one thing to be done with them.  A session is a
row of requests that share names and a heap.  An answer keeps what was produced before something
failed, where the request is one that produces its results piece by piece.
-/

namespace DocLayout.Script

/-- One thing to be done. -/
inductive Request where
  /-- The text of a document at a width. -/
  | pretty (width doc : Expr)
  /-- The texts of a document at several widths. -/
  | sweep (doc : Expr) (widths : List Int)
  /-- The text of a document, at the default width unless another one is given. -/
  | format (doc : Expr) (width : Option Expr)
  /-- The chunks that a document is printed as, with an ending. -/
  | print (doc : Expr) (width ending : Option Expr)
  /-- The items of a layout. -/
  | layout (doc width : Expr) (limit : Option Nat)
  /-- The items of a layout that starts at a column with given obligations. -/
  | layoutWork (width column : Expr) (work : List (Expr × Expr)) (limit : Option Nat)
  /-- The verdict of a probe, and the items of the layout that goes on from there. -/
  | probe (width column : Expr) (work : List (Expr × Expr)) (limit : Option Nat)
  /-- The text of a document and the decisions on its choices. -/
  | log (width doc : Expr)
  /-- The text of given items. -/
  | render (items : Expr) (newline separator : Option Expr)
  /-- The chunks of given items. -/
  | renderChunks (items : Expr) (newline separator : Option Expr)
  /-- The text of a document with line breaks of a given style. -/
  | renderLayout (newline separator : Option Expr) (doc width : Expr)
  /-- The written form of a value. -/
  | written (value : Expr)
  /-- Whether two values are equal. -/
  | equal (a b : Expr)
  /-- Whether a value has a hash. -/
  | hash (value : Expr)
  /-- How many distinct items a value has. -/
  | distinct (values : Expr)
  /-- The public names. -/
  | catalogue

/-- A step of a session. -/
inductive Step where
  /-- A request. -/
  | ask (request : Request)
  /-- A name for a value, for the steps that follow. -/
  | bind (name : String) (value : Expr)

/-- What is asked for at once. -/
inductive Task where
  /-- A single request. -/
  | single (request : Request)
  /-- A session. -/
  | session (steps : List Step)

/-- What a probe that fits leads to. -/
structure Continuation where
  /-- The items up to the line break or the end. -/
  items : List Item
  /-- The column after them. -/
  column : Int
  /-- What is still to be laid out, in written form, with its indentation. -/
  rest : List (Int × String)
  /-- The items that follow. -/
  following : List Item
  /-- Why no more items follow, if something failed. -/
  failure : Option Error

/-- The answer to a request. -/
inductive Answer where
  /-- Nothing but the cause of failure. -/
  | failure (cause : Error)
  /-- A text. -/
  | text (content : String)
  /-- A text or a cause of failure for each width. -/
  | texts (results : List (Except Error String))
  /-- Chunks, and why there are no more of them. -/
  | chunks (chunks : List String) (failure : Option Error)
  /-- Items, and why there are no more of them. -/
  | items (items : List Item) (failure : Option Error)
  /-- The probe exceeds the width. -/
  | overflow
  /-- The probe fits. -/
  | fits (continuation : Continuation)
  /-- A text or a cause of failure, after some decisions. -/
  | logged (result : Except Error String) (decisions : List Decision)
  /-- Whether two values are equal. -/
  | equality (equal : Bool)
  /-- The value has a hash. -/
  | hashable
  /-- A number. -/
  | count (number : Nat)
  /-- The public names, their version, and the default width. -/
  | catalogue (names : List String) (version : String) (defaultWidth : Int)
  /-- The answers of a session. -/
  | session (answers : List Answer)

end DocLayout.Script
