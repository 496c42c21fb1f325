import DocLayout.Script.Operation

/-!
# Evaluation

Expressions are evaluated from left to right, and the first failure ends the evaluation.  What has
happened to the heap until then stays.  A function is evaluated anew at each call, in the
environment it was made in.
-/

namespace DocLayout.Script

/-- Replaces an object several times. -/
def iterateM (step : Object → ScriptM Object) : (count : Nat) → Object → ScriptM Object
  | 0, object => return object
  | count + 1, object => do iterateM step count (← step object)

/-- The list of what a function makes of consecutive integers. -/
def rangeM (step : Object → ScriptM Object) :
    (count : Nat) → (start : Int) → ScriptM (List Object)
  | 0, _ => return []
  | count + 1, start => do
      let first ← step (← newObject (.int start))
      let rest ← rangeM step count (start + 1)
      return first :: rest

/-- What a literal stands for. -/
def Literal.value : Literal → Value
  | .none => .none
  | .bool b => .bool b
  | .int n => .int n
  | .float number => .float number
  | .str text => .str text

mutual

/-- The object that an expression stands for. -/
def Expr.eval (env : Env) : Expr → ScriptM Object
  | .literal place value => return value.value.object (.written place)
  | .fresh value => newObject value.value
  | .var name =>
      match env.lookup name with
      | some object => return object
      | none => throw (.unbound name)
  | .bind name value body => do
      let object ← value.eval env
      body.eval ((name, object) :: env)
  | .cond test yes no => do
      let test ← test.eval env
      if test.content.isTrue then yes.eval env else no.eval env
  | .function self param body => newFunction ⟨self, param, body, env⟩
  | .iterate count name start body => do
      let count ← integer (← count.eval env).content
      let start ← start.eval env
      iterateM (fun object => body.eval ((name, object) :: env)) count.toNat start
  | .range lower upper name body => do
      let lower ← integer (← lower.eval env).content
      let upper ← integer (← upper.eval env).content
      let items ← rangeM (fun n => body.eval ((name, n) :: env)) (upper - lower).toNat lower
      newObject (.list items)
  | .replicate count value => do
      let count ← integer (← count.eval env).content
      let object ← value.eval env
      newObject (.list (List.replicate count.toNat object))
  | .list items => do
      let items ← Expr.evalAll env items
      newObject (.list items)
  | .sequence items => do
      let items ← Expr.evalAll env items
      newSequence items
  | .constant leaf => leaf.object
  | .unary operation operand => do
      let operand ← operand.eval env
      operation.apply operand
  | .binary operation left right => do
      let left ← left.eval env
      let right ← right.eval env
      operation.apply left right
  | .surround left right inner => do
      let left ← left.eval env
      let right ← right.eval env
      let inner ← inner.eval env
      build (Build.surround · left right inner)

/-- The objects that several expressions stand for, in order. -/
def Expr.evalAll (env : Env) : List Expr → ScriptM (List Object)
  | [] => return []
  | expr :: rest => do
      let object ← expr.eval env
      let objects ← Expr.evalAll env rest
      return object :: objects

end

/-- The value of an expression, whatever object it is. -/
def Expr.evalContent (env : Env) (expr : Expr) : ScriptM Value := do
  let object ← expr.eval env
  return object.content

/-- The value of a function of the heap. -/
def host : Host Heap := fun label argument => do
  match (← get).functions[label]? with
  | none => throw (.notCallable .function)
  | some closure =>
      let argument ← newObject (.int argument)
      let env := (closure.param, argument) :: match closure.self with
        | some name => (name, ⟨.shared, .function (.custom label)⟩) :: closure.env
        | none => closure.env
      closure.body.evalContent env

end DocLayout.Script
