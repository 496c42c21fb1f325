import DocLayout.Catalogue
import DocLayout.Print
import DocLayout.Script.Eval
import DocLayout.Script.Request

/-!
# Answering requests

The expressions of a request are evaluated in the order in which the request names them, and then
the library does what is asked for.  Layouts make a bounded number of steps, so that a document
that never comes to an end is answered too, by what it emits within the bound.
-/

namespace DocLayout.Script

/-- The value of an expression that may be left out. -/
def evalOr (env : Env) (expr : Option Expr) (default : Value) : ScriptM Value :=
  match expr with
  | some expr => expr.evalContent env
  | none => return default

/-- The text that a value holds. -/
def string (value : Value) : ScriptM String :=
  match value with
  | .str text => return text
  | value => throw (.notText value)

/-- The style that expressions describe.  What is left out is as usual. -/
def evalStyle (env : Env) (newline separator : Option Expr) : ScriptM Style := do
  let usual : Style := {}
  let newline ← evalOr env newline (.str usual.newline)
  let separator ← evalOr env separator (.str usual.separator)
  return ⟨← string newline, ← string separator⟩

/-- The obligations that pairs of expressions describe. -/
def evalWork (env : Env) : List (Expr × Expr) → ScriptM (List Obligation)
  | [] => return []
  | (indent, value) :: rest => do
      let indent ← integer (← indent.evalContent env)
      let value ← value.evalContent env
      let parts ← evalWork env rest
      return ⟨indent, value⟩ :: parts

/-- Carries out a reading on the heap. -/
def reading {α : Type} (read : Heap → Reading α Heap) : ScriptM (Reading α Heap) :=
  modifyGet fun heap =>
    let result := read heap
    (result, result.state)

/-- Folds items into a result as long as they are accepted.  The items after the first one that is
refused are left. -/
def foldItems {α : Type} (accept : α → Object → Except Error α) (result : α) :
    List Object → α × Option Error × List Object
  | [] => (result, none, [])
  | item :: rest =>
      match accept result item with
      | .ok result => foldItems accept result rest
      | .error cause => (result, some cause, rest)

/-- Folds the items of a value into a result as long as they are accepted. -/
def foldValue {α : Type} (accept : α → Object → Except Error α) (result : α) (value : Value) :
    ScriptM (α × Option Error) := do
  let items ← remaining value
  let (result, failure, rest) := foldItems accept result items
  leave value rest
  return (result, failure)

/-- The chunks of the items of a value, and why there are no more of them. -/
def renderValue (style : Style) (items : Value) : ScriptM (List String × Option Error) := do
  let (chunks, failure) ← tryCatch
    (foldValue (fun chunks item => do
      let chunk ← item.content.render style
      return chunk :: chunks) [] items)
    (fun cause => return ([], some cause))
  return (chunks.reverse, failure)

variable (bound : Nat)

/-- The text of a document at a width. -/
def prettyText (style : Style) (doc width : Value) : ScriptM String := do
  let printed ← reading (printDoc host bound style doc width)
  liftResult printed.text

/-- The texts of a document at several widths. -/
def sweepTexts (doc : Value) : List Int → ScriptM (List (Except Error String))
  | [] => return []
  | width :: widths => do
      let printed ← reading (printDoc host bound {} doc (.int width))
      let rest ← sweepTexts doc widths
      return printed.text :: rest

/-- The items of a walk, up to a limit, and why there are no more of them. -/
def walkItems (limit : Option Nat) (width : Int) (start : Heap → Walk Heap) :
    ScriptM (List Item × Option Error) := do
  let result ← reading fun heap =>
    Reader.collect.read host width bound ⟨limit, []⟩ (start heap)
  return (result.taken.items.reverse, result.failure)

/-- The verdict of a probe, and what follows if it fits. -/
def probeAnswer (limit : Option Nat) (width column : Int) (parts : List Obligation) :
    ScriptM Answer := do
  let start : Heap → Probe Heap := fun heap =>
    .start ⟨column, Work.ofList parts⟩ ⟨.empty, parts.length, heap⟩
  match (start (← get)).run host width bound with
  | .running probe => do
      set probe.store.state
      return .overflow
  | .halted (.overflows store) => do
      set store.state
      return .overflow
  | .halted (.fails cause store) => do
      set store.state
      throw cause
  | .halted (.fits items position store) => do
      set store.state
      let (following, failure) ← walkItems bound limit width fun heap =>
        .walking position ⟨.empty, store.fresh, heap⟩
      return .fits {
        items
        column := position.column
        rest := position.work.map fun cell =>
          (cell.obligation.indent, cell.obligation.value.written)
        following
        failure }

/-- The answer to a request, unless evaluating it fails. -/
def Request.answer? (env : Env) : Request → ScriptM Answer
  | .pretty width doc => do
      let width ← width.evalContent env
      let doc ← doc.evalContent env
      return .text (← prettyText bound {} doc width)
  | .sweep doc widths => do
      let doc ← doc.evalContent env
      return .texts (← sweepTexts bound doc widths)
  | .format doc width => do
      let doc ← doc.evalContent env
      let width ← evalOr env width (.int defaultWidth)
      return .text (← prettyText bound {} doc width)
  | .print doc width ending => do
      let doc ← doc.evalContent env
      let width ← evalOr env width (.int defaultWidth)
      let ending ← evalOr env ending (.str "\n")
      let printed ← reading (printDoc host bound {} doc width)
      let closed := printed.close ending
      return .chunks closed.taken.chunks.reverse closed.failure
  | .layout doc width limit => do
      let doc ← doc.evalContent env
      let width ← width.evalContent env
      let result ← liftResult (readLayout host bound .collect ⟨limit, []⟩ doc width (← get))
      set result.state
      return .items result.taken.items.reverse result.failure
  | .layoutWork width column work limit => do
      let width ← integer (← width.evalContent env)
      let column ← integer (← column.evalContent env)
      let parts ← evalWork env work
      let (items, failure) ← walkItems bound limit width (.start column parts)
      return .items items failure
  | .probe width column work limit => do
      let width ← integer (← width.evalContent env)
      let column ← integer (← column.evalContent env)
      let parts ← evalWork env work
      probeAnswer bound limit width column parts
  | .log width doc =>
      tryCatch
        (do
          let width ← width.evalContent env
          let doc ← doc.evalContent env
          let printed ← reading (printDoc host bound {} doc width)
          return .logged printed.text printed.taken.decisions.reverse)
        (fun cause => return .logged (.error cause) [])
  | .render items newline separator => do
      let items ← items.evalContent env
      let style ← evalStyle env newline separator
      match ← renderValue style items with
      | (chunks, none) => return .text (String.join chunks)
      | (_, some cause) => throw cause
  | .renderChunks items newline separator => do
      let items ← items.evalContent env
      let style ← evalStyle env newline separator
      let (chunks, failure) ← renderValue style items
      return .chunks chunks failure
  | .renderLayout newline separator doc width => do
      let style ← evalStyle env newline separator
      let doc ← doc.evalContent env
      let width ← width.evalContent env
      return .text (← prettyText bound style doc width)
  | .written value => return .text (← value.evalContent env).written
  | .equal a b => do
      let a ← a.evalContent env
      let b ← b.evalContent env
      return .equality (a.equal b)
  | .hash value => do
      let value ← value.evalContent env
      liftResult value.requireHash
      return .hashable
  | .distinct values => do
      let values ← values.evalContent env
      match ← foldValue Value.insertDistinct [] values with
      | (found, none) => return .count found.length
      | (_, some cause) => throw cause
  | .catalogue => return .catalogue publicNames version defaultWidth

/-- The answer to a request. -/
def Request.answer (env : Env) (request : Request) : StateM Heap Answer := do
  match ← (request.answer? bound env).run with
  | .ok answer => return answer
  | .error cause => return .failure cause

/-- The answers to the steps of a session.  A step that fails does not end the session, and gives
no name. -/
def answerSteps (env : Env) : List Step → StateM Heap (List Answer)
  | [] => return []
  | .ask request :: steps => do
      let answer ← request.answer bound env
      let answers ← answerSteps env steps
      return answer :: answers
  | .bind name value :: steps => do
      match ← (value.eval env).run with
      | .ok object => do
          let answers ← answerSteps ((name, object) :: env) steps
          return .text object.content.written :: answers
      | .error cause => do
          let answers ← answerSteps env steps
          return .failure cause :: answers

/-- The answer to a task. -/
def Task.answer : Task → Answer
  | .single request => ((request.answer bound []).run {}).run.1
  | .session steps => .session ((answerSteps bound [] steps).run {}).run.1

end DocLayout.Script
