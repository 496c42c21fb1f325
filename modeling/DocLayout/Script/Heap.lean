import DocLayout.Layout.Callback
import DocLayout.Script.Expr
import DocLayout.Value.Identity

/-!
# The heap of a script

Functions and one-shot sequences outlive the expressions that make them, and a sequence changes
when it is run through.  The heap keeps them by label, and hands out labels for all other objects
that have an identity.
-/

namespace DocLayout.Script

/-- Named objects, the innermost first. -/
abbrev Env := List (String × Object)

/-- A function with the environment it was made in. -/
structure Closure where
  /-- The name that the function has for itself, if any. -/
  self : Option String
  /-- The name of the argument. -/
  param : String
  /-- What the function makes of the argument. -/
  body : Expr
  /-- The values of all other names. -/
  env : Env

/-- What a script keeps. -/
structure Heap where
  /-- The functions, each at the place that is its label. -/
  functions : Array Closure := #[]
  /-- What is left of each one-shot sequence, at the place that is its label. -/
  sequences : Array (List Object) := #[]
  /-- The first label that no other object has. -/
  fresh : Nat := 0

/-- Computations on a heap. -/
abbrev ScriptM := HostM Heap

/-- A label for a new object. -/
def newLabel : ScriptM Nat :=
  modifyGet fun heap => (heap.fresh, { heap with fresh := heap.fresh + 1 })

/-- A new object with a content. -/
def newObject (value : Value) : ScriptM Object :=
  return value.object (.made (← newLabel))

/-- A new function. -/
def newFunction (closure : Closure) : ScriptM Object :=
  modifyGet fun heap =>
    (⟨.shared, .function (.custom heap.functions.size)⟩,
      { heap with functions := heap.functions.push closure })

/-- A new one-shot sequence. -/
def newSequence (items : List Object) : ScriptM Object :=
  modifyGet fun heap =>
    (⟨.shared, .sequence heap.sequences.size⟩,
      { heap with sequences := heap.sequences.push items })

/-- What can still be taken from a value, item by item.  The items of a string are its
characters. -/
def remaining : Value → ScriptM (List Object)
  | .str text => text.toList.mapM fun c => newObject (.str c.toString)
  | .list items => return items
  | .sequence label => return (← get).sequences.getD label []
  | value => throw (.notIterable value.kind)

/-- Leaves given items in a one-shot sequence.  Other values are not changed by taking items. -/
def leave (value : Value) (items : List Object) : ScriptM Unit :=
  match value with
  | .sequence label => modify fun heap =>
      { heap with sequences := heap.sequences.setIfInBounds label items }
  | _ => return ()

/-- Takes all items of a value. -/
def takeItems (value : Value) : ScriptM (List Object) := do
  let items ← remaining value
  leave value []
  return items

end DocLayout.Script
