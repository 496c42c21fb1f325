import DocLayout.Doc.Basic
import DocLayout.Value.Equality

/-!
# The one-line form

Flattening puts a document on one line: every line break becomes a space and every layout choice
its flat member, which is not looked into.  Deferred documents are left as they are, and so is a
value that is no document.  Where a flat member is no document, the concatenation or nesting around
it cannot be put together again.

A document with nothing to flatten is its own one-line form, as the same object.  The one-line form
of a choice is its flat member, and that of a line break is the space, as the same objects too.

The transform runs on two stacks, of what is still to be done and of what has been made, so its
depth does not grow with the document.
-/

namespace DocLayout

/-- A step of flattening that is still to be done. -/
inductive FlattenTask where
  /-- Flatten a value. -/
  | visit (value : Value)
  /-- Put the last two results together, which take the place of these documents. -/
  | joinConcat (left right : Doc)
  /-- Nest the last result, which takes the place of this document. -/
  | joinNest (amount : Amount) (inner : Doc)

namespace FlattenTask

/-- A bound on the number of steps that a task takes. -/
def cost : FlattenTask → Nat
  | .visit value => 2 * value.size
  | .joinConcat _ _ => 1
  | .joinNest _ _ => 1

/-- A bound on the number of steps that several tasks take. -/
def costs : List FlattenTask → Nat
  | [] => 0
  | task :: tasks => task.cost + costs tasks

/-- Carries out tasks in order.  Results are put on a stack, the last one on top; there is none for
a value that is its own one-line form. -/
def run : List FlattenTask → List (Option Value) → Except Error (List (Option Value))
  | [], results => .ok results
  | .visit (.doc (.concat left right)) :: tasks, results =>
      run (.visit (.doc left) :: .visit (.doc right) :: .joinConcat left right :: tasks) results
  | .visit (.doc (.nest amount inner)) :: tasks, results =>
      run (.visit (.doc inner) :: .joinNest amount inner :: tasks) results
  | .visit (.doc .line) :: tasks, results => run tasks (some (.doc .space) :: results)
  | .visit (.doc (.union flat _)) :: tasks, results => run tasks (some flat.content :: results)
  | .visit _ :: tasks, results => run tasks (none :: results)
  | .joinConcat _ _ :: tasks, none :: none :: results => run tasks (none :: results)
  | .joinConcat left right :: tasks, newRight :: newLeft :: results =>
      match Doc.concatOf (newLeft.getD (.doc left)) (newRight.getD (.doc right)) with
      | .ok joined => run tasks (some (.doc joined) :: results)
      | .error cause => .error cause
  | .joinNest _ _ :: tasks, none :: results => run tasks (none :: results)
  | .joinNest amount _ :: tasks, some newInner :: results =>
      match Doc.nestOf (.num amount) newInner with
      | .ok joined => run tasks (some (.doc joined) :: results)
      | .error cause => .error cause
  | _ :: _, _ => .error .malformed
termination_by tasks => costs tasks
decreasing_by
  all_goals simp only [costs, cost, Value.size, Doc.size]
  all_goals try omega
  exact Nat.lt_add_of_pos_left (Nat.mul_pos Nat.two_pos (Value.size_pos _))

end FlattenTask

/-- The one-line form of a value, if that is another value. -/
def Value.oneLine? (value : Value) : Except Error (Option Value) :=
  match FlattenTask.run [.visit value] [] with
  | .ok [result] => .ok result
  | .ok _ => .error .malformed
  | .error cause => .error cause

/-- The one-line form of a value. -/
def Value.flatten (value : Value) : Except Error Value := do
  let result ← value.oneLine?
  return result.getD value

/-- The one-line form of an object, with a label for the object that may have to be made. -/
def Identified.flatten (label : Nat) (object : Object) : Except Error Object :=
  match object.content with
  | .doc .line => .ok ⟨.shared, .doc .space⟩
  | .doc (.union flat _) => .ok flat
  | value => do
      match ← value.oneLine? with
      | none => return object
      | some flat => return ⟨.made label, flat⟩

/-- Flattening an object flattens its content. -/
theorem Identified.content_flatten (label : Nat) (object : Object) :
    Identified.content <$> object.flatten label = object.content.flatten := by
  unfold Identified.flatten Value.flatten
  split
  · rename_i contentEq
    simp only [contentEq, Value.oneLine?, FlattenTask.run]
    rfl
  · rename_i contentEq
    simp only [contentEq, Value.oneLine?, FlattenTask.run]
    rfl
  · cases object.content.oneLine? with
    | error cause => rfl
    | ok result => cases result <;> rfl

end DocLayout
