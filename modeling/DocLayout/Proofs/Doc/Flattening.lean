import Mathlib.Logic.Relation
import DocLayout.Proofs.Doc.Grouped

/-!
# Flattening follows the tree

The one-line form of a value is given by its form alone, one node at a time.  A choice stands for
its flat member, whatever that is, so a concatenation or a nesting may get a part that is no
document.  Then there is no one-line form.  This happens exactly if a choice with such a member lies
below the root and nothing but concatenations and nestings is in between.

The two stacks of flattening agree with this for every value.  A visit leaves the stack of results
as it was, with one result more, or fails; so one result is left in the end.
-/

namespace DocLayout

/-- A value has another one as its one-line form. -/
inductive Value.FlattensTo : Value → Value → Prop where
  | line : FlattensTo (.doc .line) (.doc .space)
  | union (flat broken : Object) : FlattensTo (.doc (.union flat broken)) flat.content
  | concat {left right flatLeft flatRight : Doc}
      (leftFlattens : FlattensTo (.doc left) (.doc flatLeft))
      (rightFlattens : FlattensTo (.doc right) (.doc flatRight)) :
      FlattensTo (.doc (.concat left right)) (.doc (.concat flatLeft flatRight))
  | nest (amount : Amount) {inner flat : Doc}
      (innerFlattens : FlattensTo (.doc inner) (.doc flat)) :
      FlattensTo (.doc (.nest amount inner)) (.doc (.nest amount flat))
  | blank (kept : Bool) : FlattensTo (.doc (.blank kept)) (.doc (.blank kept))
  | text (fragment : Fragment) : FlattensTo (.doc (.text fragment)) (.doc (.text fragment))
  | nesting (callback : Object) : FlattensTo (.doc (.nesting callback)) (.doc (.nesting callback))
  | column (callback : Object) : FlattensTo (.doc (.column callback)) (.doc (.column callback))
  | unknown : FlattensTo (.doc .unknown) (.doc .unknown)
  | other {value : Value} (notDoc : ∀ document, value ≠ .doc document) : FlattensTo value value

/-- A document is a part of a concatenation or of a nesting. -/
inductive Doc.PartOf : Doc → Doc → Prop where
  | left (left right : Doc) : PartOf left (.concat left right)
  | right (left right : Doc) : PartOf right (.concat left right)
  | inner (amount : Amount) (inner : Doc) : PartOf inner (.nest amount inner)

/-- A choice whose flat member is no document. -/
inductive Doc.Misfit : Doc → Prop where
  | union {flat : Object} (broken : Object) (notDoc : ∀ document, flat.content ≠ .doc document) :
      Misfit (.union flat broken)

namespace Doc

/-- Below a document lies a choice whose flat member is no document, with nothing but concatenations
and nestings in between. -/
def Obstructed (document : Doc) : Prop :=
  ∃ choice, Relation.TransGen PartOf choice document ∧ choice.Misfit

variable {left right inner document : Doc} {amount : Amount} {value : Value}

theorem obstructed_iff :
    document.Obstructed ↔ ∃ part, PartOf part document ∧ (part.Misfit ∨ part.Obstructed) := by
  constructor
  · rintro ⟨choice, path, misfit⟩
    cases path with
    | single partOf => exact ⟨choice, partOf, .inl misfit⟩
    | tail path partOf => exact ⟨_, partOf, .inr ⟨choice, path, misfit⟩⟩
  · rintro ⟨part, partOf, misfit | ⟨choice, path, misfit⟩⟩
    · exact ⟨part, .single partOf, misfit⟩
    · exact ⟨choice, path.tail partOf, misfit⟩

theorem obstructed_concat_iff :
    (concat left right).Obstructed ↔
      (left.Misfit ∨ left.Obstructed) ∨ (right.Misfit ∨ right.Obstructed) := by
  rw [obstructed_iff]
  constructor
  · rintro ⟨part, partOf, obstructed⟩
    cases partOf with
    | left => exact .inl obstructed
    | right => exact .inr obstructed
  · rintro (obstructed | obstructed)
    · exact ⟨left, .left left right, obstructed⟩
    · exact ⟨right, .right left right, obstructed⟩

theorem obstructed_nest_iff :
    (nest amount inner).Obstructed ↔ inner.Misfit ∨ inner.Obstructed := by
  rw [obstructed_iff]
  constructor
  · rintro ⟨part, partOf, obstructed⟩
    cases partOf with
    | inner => exact obstructed
  · intro obstructed
    exact ⟨inner, .inner amount inner, obstructed⟩

/-- The one-line form by recursion is the one by form. -/
theorem oneLine_eq_ok_iff : ∀ {document : Doc} {value : Value},
    document.oneLine = .ok value ↔ Value.FlattensTo (.doc document) value
  | .concat left right, value => by
      rw [oneLine_concat_eq_ok_iff]
      constructor
      · rintro ⟨flatLeft, flatRight, leftEq, rightEq, rfl⟩
        exact .concat (oneLine_eq_ok_iff.mp leftEq) (oneLine_eq_ok_iff.mp rightEq)
      · intro flattens
        cases flattens with
        | concat leftFlattens rightFlattens =>
            have leftEq := oneLine_eq_ok_iff.mpr leftFlattens
            have rightEq := oneLine_eq_ok_iff.mpr rightFlattens
            exact ⟨_, _, leftEq, rightEq, rfl⟩
        | other notDoc => exact absurd rfl (notDoc _)
  | .nest amount inner, value => by
      rw [oneLine_nest_eq_ok_iff]
      constructor
      · rintro ⟨flat, innerEq, rfl⟩
        exact .nest amount (oneLine_eq_ok_iff.mp innerEq)
      · intro flattens
        cases flattens with
        | nest _ innerFlattens => exact ⟨_, oneLine_eq_ok_iff.mpr innerFlattens, rfl⟩
        | other notDoc => exact absurd rfl (notDoc _)
  | .blank _, _ | .text _, _ | .line, _ | .union _ _, _ | .nesting _, _ | .column _, _
  | .unknown, _ => by
      constructor
      · intro flattens
        cases flattens
        constructor
      · intro flattens
        cases flattens with
        | other notDoc => exact absurd rfl (notDoc _)
        | _ => rfl

/-- The one-line form is no document exactly for a choice with such a flat member. -/
theorem misfit_iff :
    document.Misfit ↔ ∃ value, document.oneLine = .ok value ∧ ∀ flat, value ≠ .doc flat := by
  constructor
  · rintro ⟨broken, notDoc⟩
    exact ⟨_, rfl, notDoc⟩
  · rintro ⟨value, flattens, notDoc⟩
    have form := oneLine_eq_ok_iff.mp flattens
    cases form with
    | union flat broken => exact .union broken notDoc
    | _ => exact absurd rfl (notDoc _)

/-- If a one-line form is only missing below an obstruction, then one that is a document is only
missing there or for a misfit at the root. -/
theorem exists_oneLine_doc_iff
    (formIff : (∃ value, document.oneLine = .ok value) ↔ ¬ document.Obstructed) :
    (∃ flat, document.oneLine = .ok (.doc flat)) ↔ ¬ (document.Misfit ∨ document.Obstructed) := by
  rw [not_or, ← formIff, misfit_iff]
  constructor
  · rintro ⟨flat, flattens⟩
    refine ⟨?_, _, flattens⟩
    rintro ⟨value, valueEq, notDoc⟩
    cases flattens.symm.trans valueEq
    exact notDoc flat rfl
  · rintro ⟨fitting, value, flattens⟩
    cases value with
    | doc flat => exact ⟨flat, flattens⟩
    | _ => exact absurd ⟨_, flattens, by simp⟩ fitting

/-- A document has a one-line form unless it is obstructed. -/
theorem exists_oneLine_iff : ∀ {document : Doc},
    (∃ value, document.oneLine = .ok value) ↔ ¬ document.Obstructed
  | .concat left right => by
      rw [obstructed_concat_iff, not_or, ← exists_oneLine_doc_iff exists_oneLine_iff,
        ← exists_oneLine_doc_iff exists_oneLine_iff]
      simp only [oneLine_concat_eq_ok_iff]
      constructor
      · rintro ⟨_, flatLeft, flatRight, leftEq, rightEq, -⟩
        exact ⟨⟨flatLeft, leftEq⟩, flatRight, rightEq⟩
      · rintro ⟨⟨flatLeft, leftEq⟩, flatRight, rightEq⟩
        exact ⟨_, flatLeft, flatRight, leftEq, rightEq, rfl⟩
  | .nest amount inner => by
      rw [obstructed_nest_iff, ← exists_oneLine_doc_iff exists_oneLine_iff]
      simp only [oneLine_nest_eq_ok_iff]
      constructor
      · rintro ⟨_, flat, innerEq, -⟩
        exact ⟨flat, innerEq⟩
      · rintro ⟨flat, innerEq⟩
        exact ⟨_, flat, innerEq, rfl⟩
  | .blank _ | .text _ | .line | .union _ _ | .nesting _ | .column _ | .unknown => by
      rw [obstructed_iff]
      constructor
      · rintro - ⟨part, partOf, -⟩
        cases partOf
      · intro
        exact ⟨_, rfl⟩

/-- Flattening has one cause to fail. -/
theorem eq_malformed_of_oneLine : ∀ {document : Doc} {cause : Error},
    document.oneLine = .error cause → cause = .malformed
  | .concat left right, cause => by
      intro fails
      rw [oneLine] at fails
      cases leftEq : left.oneLine with
      | error leftCause =>
          rw [leftEq] at fails
          cases fails
          exact eq_malformed_of_oneLine leftEq
      | ok newLeft =>
          cases rightEq : right.oneLine with
          | error rightCause =>
              rw [leftEq, rightEq] at fails
              cases fails
              exact eq_malformed_of_oneLine rightEq
          | ok newRight =>
              rw [leftEq, rightEq] at fails
              cases newLeft with
              | doc flatLeft => cases newRight <;> cases fails <;> rfl
              | _ => cases fails; rfl
  | .nest amount inner, cause => by
      intro fails
      rw [oneLine] at fails
      cases innerEq : inner.oneLine with
      | error innerCause =>
          rw [innerEq] at fails
          cases fails
          exact eq_malformed_of_oneLine innerEq
      | ok newInner =>
          rw [innerEq] at fails
          cases newInner <;> cases fails <;> rfl
  | .blank _, _ | .text _, _ | .line, _ | .union _ _, _ | .nesting _, _ | .column _, _
  | .unknown, _ => by
      rintro ⟨⟩

theorem oneLine_eq_error_iff {cause : Error} :
    document.oneLine = .error cause ↔ cause = .malformed ∧ document.Obstructed := by
  cases flattens : document.oneLine with
  | ok value =>
      have clear := exists_oneLine_iff.mp ⟨value, flattens⟩
      simp [clear]
  | error found =>
      obtain rfl := eq_malformed_of_oneLine flattens
      have refused : ¬ ∃ value, document.oneLine = .ok value := by
        rintro ⟨value, valueEq⟩
        cases flattens.symm.trans valueEq
      have obstructed : document.Obstructed :=
        Classical.not_not.mp (mt exists_oneLine_iff.mpr refused)
      simp [obstructed, eq_comm]

end Doc

/-- A value that is no document has nothing to flatten. -/
theorem FlattenTask.run_visit_other {value : Value} (notDoc : ∀ document, value ≠ .doc document)
    (tasks : List FlattenTask) (results : List (Option Value)) :
    run (.visit value :: tasks) results = run tasks (none :: results) := by
  cases value with
  | doc document => exact absurd rfl (notDoc document)
  | _ => rw [run] <;> simp

namespace Value

variable {value : Value}

/-- A document is obstructed. -/
def Obstructed (value : Value) : Prop :=
  ∃ document, value = .doc document ∧ document.Obstructed

theorem obstructed_doc_iff {document : Doc} : (doc document).Obstructed ↔ document.Obstructed := by
  simp [Obstructed]

theorem flatten_eq_self (notDoc : ∀ document, value ≠ .doc document) :
    value.flatten = .ok value := by
  rw [flatten, oneLine?, FlattenTask.run_visit_other notDoc, FlattenTask.run]
  rfl

theorem flatten_eq_ok_iff {flat : Value} : value.flatten = .ok flat ↔ value.FlattensTo flat := by
  by_cases isDoc : ∃ document, value = .doc document
  · obtain ⟨document, rfl⟩ := isDoc
    rw [flatten_doc, Doc.oneLine_eq_ok_iff]
  · have notDoc := not_exists.mp isDoc
    rw [flatten_eq_self notDoc]
    constructor
    · rintro ⟨⟩
      exact .other notDoc
    · intro flattens
      cases flattens with
      | other => rfl
      | _ => exact absurd rfl (notDoc _)

theorem flatten_eq_error_iff {cause : Error} :
    value.flatten = .error cause ↔ cause = .malformed ∧ value.Obstructed := by
  by_cases isDoc : ∃ document, value = .doc document
  · obtain ⟨document, rfl⟩ := isDoc
    rw [flatten_doc, Doc.oneLine_eq_error_iff, obstructed_doc_iff]
  · rw [flatten_eq_self (not_exists.mp isDoc)]
    constructor
    · rintro ⟨⟩
    · rintro ⟨-, document, valueEq, -⟩
      exact absurd ⟨document, valueEq⟩ isDoc

end Value

/-- A visit adds one result to those that are there, or fails over an obstruction.  What is left to
be done and the results that are there do not matter. -/
theorem FlattenTask.run_visit_value (value : Value) (tasks : List FlattenTask)
    (results : List (Option Value)) :
    (∃ result, value.FlattensTo (result.getD value) ∧
      run (.visit value :: tasks) results = run tasks (result :: results)) ∨
    (value.Obstructed ∧ run (.visit value :: tasks) results = .error .malformed) := by
  by_cases isDoc : ∃ document, value = .doc document
  · obtain ⟨document, rfl⟩ := isDoc
    rw [run_visit, Value.obstructed_doc_iff]
    have replaced := document.getD_oneLine?
    cases flattens : document.oneLine? with
    | ok result =>
        rw [flattens] at replaced
        exact .inl ⟨result, Doc.oneLine_eq_ok_iff.mp replaced.symm, rfl⟩
    | error cause =>
        rw [flattens] at replaced
        obtain ⟨rfl, obstructed⟩ := Doc.oneLine_eq_error_iff.mp replaced.symm
        exact .inr ⟨obstructed, rfl⟩
  · have notDoc := not_exists.mp isDoc
    exact .inl ⟨none, .other notDoc, run_visit_other notDoc tasks results⟩

/-- Flattening an object follows the tree, whatever the object is.  It makes the one-line form if
there is one, and fails with the one cause exactly if the object is obstructed.  The stacks end with
exactly one result, unless they stop at the obstruction. -/
theorem flattening_follows_tree (object : Object) (label : Nat) :
    (∀ flat, Identified.content <$> object.flatten label = .ok flat ↔
      object.content.FlattensTo flat) ∧
    (∀ cause, object.flatten label = .error cause ↔
      cause = .malformed ∧ object.content.Obstructed) ∧
    ((∃ result, FlattenTask.run [.visit object.content] [] = .ok [result]) ∨
      (object.content.Obstructed ∧
        FlattenTask.run [.visit object.content] [] = .error .malformed)) := by
  have contentEq := object.content_flatten label
  refine ⟨fun flat => ?_, fun cause => ?_, ?_⟩
  · rw [contentEq]
    exact Value.flatten_eq_ok_iff
  · rw [← Value.flatten_eq_error_iff, ← contentEq]
    cases object.flatten label <;> simp [Functor.map, Except.map]
  · rcases FlattenTask.run_visit_value object.content [] [] with ⟨result, -, runs⟩ | stops
    · refine .inl ⟨result, ?_⟩
      rw [runs, FlattenTask.run]
    · exact .inr stops

end DocLayout
