import DocLayout.Layout.Callback
import DocLayout.Value.Identity

/-!
# Work lists

What is still to be laid out is a list of obligations, each a document at an indentation.  An
obligation makes one move: it emits text, ends the line, offers a choice, or is replaced by its
parts.

The cells of a work list are labelled as they are made, so that a label stands for the cell and all
that follows it.  Pushing obligations shares the rest of the list.
-/

namespace DocLayout

/-- A value to be laid out, with the indentation in force. -/
structure Obligation where
  /-- The indentation of line breaks. -/
  indent : Int
  /-- What is to be laid out. -/
  value : Value
deriving DecidableEq

/-- What laying out an obligation begins with. -/
inductive Move where
  /-- Text is emitted. -/
  | emit (fragment : Fragment)
  /-- The line ends. -/
  | newline
  /-- One of two values takes the place of the obligation. -/
  | choose (flat broken : Value)
  /-- Other obligations take the place of the obligation. -/
  | replace (parts : List Obligation)

/-- The move of an obligation at a column.  Only deferred documents call the host. -/
def Obligation.move {σ : Type} (host : Host σ) (column : Int) (obligation : Obligation) :
    HostM σ Move :=
  let indent := obligation.indent
  match obligation.value with
  | .doc (.blank _) => return .replace []
  | .doc (.text fragment) => return .emit fragment
  | .doc .line => return .newline
  | .doc (.concat left right) => return .replace [⟨indent, .doc left⟩, ⟨indent, .doc right⟩]
  | .doc (.nest amount inner) => return .replace [⟨indent + amount.toInt, .doc inner⟩]
  | .doc (.union flat broken) => return .choose flat.content broken.content
  | .doc (.nesting callback) => do
      let doc ← callback.content.resolve host indent
      return .replace [⟨indent, .doc doc⟩]
  | .doc (.column callback) => do
      let doc ← callback.content.resolve host column
      return .replace [⟨indent, .doc doc⟩]
  | value => throw (.notDoc value)

namespace Obligation

variable {σ : Type} (host : Host σ) (column indent : Int)

@[simp]
theorem move_blank (kept : Bool) :
    move host column ⟨indent, .doc (.blank kept)⟩ = pure (.replace []) := rfl

@[simp]
theorem move_text (fragment : Fragment) :
    move host column ⟨indent, .doc (.text fragment)⟩ = pure (.emit fragment) := rfl

@[simp]
theorem move_line : move host column ⟨indent, .doc .line⟩ = pure .newline := rfl

@[simp]
theorem move_concat (left right : Doc) :
    move host column ⟨indent, .doc (.concat left right)⟩ =
      pure (.replace [⟨indent, .doc left⟩, ⟨indent, .doc right⟩]) := rfl

@[simp]
theorem move_nest (amount : Amount) (inner : Doc) :
    move host column ⟨indent, .doc (.nest amount inner)⟩ =
      pure (.replace [⟨indent + amount.toInt, .doc inner⟩]) := rfl

@[simp]
theorem move_union (flat broken : Object) :
    move host column ⟨indent, .doc (.union flat broken)⟩ =
      pure (.choose flat.content broken.content) := rfl

@[simp]
theorem move_nesting (callback : Object) :
    move host column ⟨indent, .doc (.nesting callback)⟩ =
      (fun doc => .replace [⟨indent, .doc doc⟩]) <$> callback.content.resolve host indent := rfl

@[simp]
theorem move_column (callback : Object) :
    move host column ⟨indent, .doc (.column callback)⟩ =
      (fun doc => .replace [⟨indent, .doc doc⟩]) <$> callback.content.resolve host column := rfl

@[simp]
theorem move_unknown :
    move host column ⟨indent, .doc .unknown⟩ = throw (.notDoc (.doc .unknown)) := rfl

theorem move_of_not_doc {value : Value} (notDoc : ∀ document, value ≠ .doc document) :
    move host column ⟨indent, value⟩ = throw (.notDoc value) := by
  cases value with
  | doc document => exact absurd rfl (notDoc document)
  | _ => rfl

end Obligation

/-- An obligation in a work list. -/
structure Cell where
  /-- The label, which no other cell of the same run has. -/
  label : Nat
  /-- What is to be laid out. -/
  obligation : Obligation
deriving DecidableEq

/-- What is still to be laid out, first things first. -/
abbrev Work := List Cell

namespace Work

/-- Puts obligations in front of a work list, with labels from `fresh` on. -/
def push (fresh : Nat) (parts : List Obligation) (work : Work) : Work :=
  match parts with
  | [] => work
  | part :: rest => ⟨fresh, part⟩ :: push (fresh + 1) rest work

/-- The work list of given obligations. -/
def ofList (parts : List Obligation) : Work :=
  push 0 parts []

/-- The obligations of a work list. -/
def obligations (work : Work) : List Obligation :=
  work.map Cell.obligation

@[simp]
theorem obligations_push (fresh : Nat) (parts : List Obligation) (work : Work) :
    obligations (push fresh parts work) = parts ++ work.obligations := by
  induction parts generalizing fresh with
  | nil => rfl
  | cons part rest inductionHypothesis =>
      exact congrArg (part :: ·) (inductionHypothesis (fresh + 1))

@[simp]
theorem obligations_ofList (parts : List Obligation) : (ofList parts).obligations = parts := by
  rw [ofList, obligations_push]
  exact List.append_nil parts

theorem length_push (fresh : Nat) (parts : List Obligation) (work : Work) :
    (push fresh parts work).length = parts.length + work.length := by
  have lengths := congrArg List.length (obligations_push fresh parts work)
  simpa [obligations] using lengths

theorem push_append (first second : List Obligation) (fresh : Nat) (work : Work) :
    push fresh (first ++ second) work =
      push fresh first (push (fresh + first.length) second work) := by
  induction first generalizing fresh with
  | nil => rfl
  | cons part first inductionHypothesis =>
      have later := inductionHypothesis (fresh + 1)
      rw [Nat.add_right_comm, Nat.add_assoc] at later
      exact congrArg _ later

/-- Whether two work lists are the same, cell by cell.  One and the same list is recognised by its
address. -/
def same (work other : Work) : Bool :=
  withPtrEq work other (fun _ => decide (work = other)) (fun equal => decide_eq_true equal)

theorem same_iff {work other : Work} : work.same other = true ↔ work = other := by
  simp [same, withPtrEq]

end Work

/-- A place in a layout: the column reached, and what is still to be laid out. -/
structure Position where
  /-- The column reached. -/
  column : Int
  /-- What is still to be laid out. -/
  work : Work

end DocLayout
