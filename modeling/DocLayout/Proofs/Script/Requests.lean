import DocLayout.Script.Answer

/-!
# Requests that print

A request that names a document and a width by variables is answered by what the library prints for
the values of these variables, from the heap as it is.
-/

namespace DocLayout.Script

variable {bound : Nat} {env : Env} {docName widthName endingName : String}
  {docObject widthObject endingObject : Object}

/-- A variable stands for the content of what is bound to it. -/
theorem evalContent_var {name : String} {object : Object}
    (isBound : env.lookup name = some object) :
    (Expr.var name).evalContent env = pure object.content := by
  simp [Expr.evalContent, Expr.eval, isBound]

/-- The answer that is a text, or the cause why there is none. -/
def Answer.ofOutcome : Except Error String → Answer
  | .ok content => .text content
  | .error cause => .failure cause

/-- The answer that is given from a heap, and the heap after it. -/
def Request.reply (bound : Nat) (env : Env) (request : Request) (heap : Heap) : Answer × Heap :=
  ((request.answer bound env).run heap).run

theorem prettyText_run (style : Style) (doc width : Value) (heap : Heap) :
    ((prettyText bound style doc width).run.run heap).run =
      ((printDoc host bound style doc width heap).text,
        (printDoc host bound style doc width heap).state) := by
  change ((liftResult (printDoc host bound style doc width heap).text).run.run
    (printDoc host bound style doc width heap).state).run = _
  cases (printDoc host bound style doc width heap).text <;> rfl

/-- A request for a text is answered by the text, or by the cause of failure. -/
theorem reply_of_prettyText {request : Request} {style : Style} {doc width : Value}
    (evaluated : request.answer? bound env = Answer.text <$> prettyText bound style doc width)
    (heap : Heap) :
    request.reply bound env heap =
      (.ofOutcome (printDoc host bound style doc width heap).text,
        (printDoc host bound style doc width heap).state) := by
  rw [Request.reply, Request.answer, evaluated]
  simp only [ExceptT.run_map, StateT.run_bind, StateT.run_map, Id.run_bind, Id.run_map,
    prettyText_run]
  cases (printDoc host bound style doc width heap).text <;> rfl

section Named

variable (docBound : env.lookup docName = some docObject)
  (widthBound : env.lookup widthName = some widthObject) (heap : Heap)

include docBound widthBound

/-- A text is asked for by a width and a document. -/
theorem reply_pretty :
    (Request.pretty (.var widthName) (.var docName)).reply bound env heap =
      (.ofOutcome (printDoc host bound {} docObject.content widthObject.content heap).text,
        (printDoc host bound {} docObject.content widthObject.content heap).state) := by
  apply reply_of_prettyText
  simp [Request.answer?, evalContent_var docBound, evalContent_var widthBound]

/-- It is asked for by the document and the width as well. -/
theorem reply_format :
    (Request.format (.var docName) (some (.var widthName))).reply bound env heap =
      (.ofOutcome (printDoc host bound {} docObject.content widthObject.content heap).text,
        (printDoc host bound {} docObject.content widthObject.content heap).state) := by
  apply reply_of_prettyText
  simp [Request.answer?, evalOr, evalContent_var docBound, evalContent_var widthBound]

/-- What is written is the print-out with its ending, as far as it goes. -/
theorem reply_print (endingBound : env.lookup endingName = some endingObject) :
    let printed := printDoc host bound {} docObject.content widthObject.content heap
    let closed := printed.close endingObject.content
    (Request.print (.var docName) (some (.var widthName)) (some (.var endingName))).reply bound env
      heap = (.chunks closed.taken.chunks.reverse closed.failure, printed.state) := by
  intro printed closed
  have evaluated :
      (Request.print (.var docName) (some (.var widthName)) (some (.var endingName))).answer? bound
        env = do
          let printed ← reading (printDoc host bound {} docObject.content widthObject.content)
          let closed := printed.close endingObject.content
          return .chunks closed.taken.chunks.reverse closed.failure := by
    simp [Request.answer?, evalOr, evalContent_var docBound, evalContent_var widthBound,
      evalContent_var endingBound]
  rw [Request.reply, Request.answer, evaluated]
  rfl

end Named

end DocLayout.Script
