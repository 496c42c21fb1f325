import DocLayout.Proofs.Layout.Path
import DocLayout.Proofs.Layout.Reference

/-!
# What a document denotes

A document denotes all the layouts that come about if each of its choices is made, in one way or the
other.  Every text and every line break is laid out once and in order, a line break with the
indentation of the nestings around it, and a deferred document is what its callback gives for the
indentation or the column at that very place.

A walk that comes to its end has emitted a layout that its document denotes.  So nothing is left
over in it from a path that a probe has given up.
-/

namespace DocLayout

/-- From a column with an indentation in force a value is laid out as items, up to a further
column. -/
inductive Lays (meaning : Meaning) : Int → Int → Value → List Item → Int → Prop where
  | blank {indent column : Int} (kept : Bool) :
      Lays meaning indent column (.doc (.blank kept)) [] column
  | text {indent column : Int} (fragment : Fragment) :
      Lays meaning indent column (.doc (.text fragment)) [.text fragment] (column + fragment.width)
  | line {indent column : Int} :
      Lays meaning indent column (.doc .line) [.line indent] (max indent 0)
  | concat {indent column middle next : Int} {left right : Doc} {items later : List Item}
      (leftLays : Lays meaning indent column (.doc left) items middle)
      (rightLays : Lays meaning indent middle (.doc right) later next) :
      Lays meaning indent column (.doc (.concat left right)) (items ++ later) next
  | nest {indent column next : Int} {amount : Amount} {inner : Doc} {items : List Item}
      (innerLays : Lays meaning (indent + amount.toInt) column (.doc inner) items next) :
      Lays meaning indent column (.doc (.nest amount inner)) items next
  | nesting {indent column next : Int} {callback : Object} {result : Doc} {items : List Item}
      (gives : callback.content.resolved meaning indent = .ok result)
      (resultLays : Lays meaning indent column (.doc result) items next) :
      Lays meaning indent column (.doc (.nesting callback)) items next
  | column {indent column next : Int} {callback : Object} {result : Doc} {items : List Item}
      (gives : callback.content.resolved meaning column = .ok result)
      (resultLays : Lays meaning indent column (.doc result) items next) :
      Lays meaning indent column (.doc (.column callback)) items next
  | flat {indent column next : Int} {flat broken : Object} {items : List Item}
      (flatLays : Lays meaning indent column flat.content items next) :
      Lays meaning indent column (.doc (.union flat broken)) items next
  | broken {indent column next : Int} {flat broken : Object} {items : List Item}
      (brokenLays : Lays meaning indent column broken.content items next) :
      Lays meaning indent column (.doc (.union flat broken)) items next

/-- Obligations are laid out one after the other. -/
inductive LaysAll (meaning : Meaning) : Int → List Obligation → List Item → Int → Prop where
  | nil {column : Int} : LaysAll meaning column [] [] column
  | cons {column middle next : Int} {part : Obligation} {rest : List Obligation}
      {items later : List Item} (lays : Lays meaning part.indent column part.value items middle)
      (laysRest : LaysAll meaning middle rest later next) :
      LaysAll meaning column (part :: rest) (items ++ later) next

variable {meaning : Meaning} {column next : Int} {part : Obligation} {rest : List Obligation}
  {items : List Item}

theorem laysAll_nil_iff : LaysAll meaning column [] items next ↔ items = [] ∧ next = column := by
  constructor
  · intro lays
    cases lays
    exact ⟨rfl, rfl⟩
  · rintro ⟨rfl, rfl⟩
    exact .nil

theorem laysAll_cons_iff :
    LaysAll meaning column (part :: rest) items next ↔
      ∃ first later middle, items = first ++ later ∧
        Lays meaning part.indent column part.value first middle ∧
        LaysAll meaning middle rest later next := by
  constructor
  · intro lays
    cases lays with
    | cons lays laysRest => exact ⟨_, _, _, rfl, lays, laysRest⟩
  · rintro ⟨first, later, middle, rfl, lays, laysRest⟩
    exact .cons lays laysRest

theorem laysAll_append_iff {parts : List Obligation} :
    LaysAll meaning column (parts ++ rest) items next ↔
      ∃ first later middle, items = first ++ later ∧
        LaysAll meaning column parts first middle ∧ LaysAll meaning middle rest later next := by
  induction parts generalizing column items with
  | nil =>
      constructor
      · intro laysRest
        exact ⟨[], items, column, rfl, .nil, laysRest⟩
      · rintro ⟨first, later, middle, rfl, laysNone, laysRest⟩
        obtain ⟨rfl, rfl⟩ := laysAll_nil_iff.mp laysNone
        exact laysRest
  | cons part parts inductionHypothesis =>
      rw [List.cons_append, laysAll_cons_iff]
      constructor
      · rintro ⟨first, later, middle, rfl, lays, laysRest⟩
        obtain ⟨second, last, final, rfl, laysParts, laysLast⟩ := inductionHypothesis.mp laysRest
        exact ⟨first ++ second, last, final, by simp, .cons lays laysParts, laysLast⟩
      · rintro ⟨first, later, middle, rfl, laysParts, laysRest⟩
        obtain ⟨head, second, final, rfl, lays, laysSecond⟩ := laysAll_cons_iff.mp laysParts
        exact ⟨head, second ++ later, final, by simp, lays,
          inductionHypothesis.mpr ⟨second, later, middle, rfl, laysSecond, laysRest⟩⟩

theorem laysAll_singleton_iff {indent : Int} {value : Value} :
    LaysAll meaning column [⟨indent, value⟩] items next ↔
      Lays meaning indent column value items next := by
  simp [laysAll_cons_iff, laysAll_nil_iff]

/-! ## Moves -/

/-- What a move begins with is laid out as items, up to a further column. -/
def Move.Lays (meaning : Meaning) (indent column : Int) (items : List Item) (next : Int) :
    Move → Prop
  | .emit fragment => items = [.text fragment] ∧ next = column + fragment.width
  | .newline => items = [.line indent] ∧ next = max indent 0
  | .choose flat broken =>
      DocLayout.Lays meaning indent column flat items next ∨
        DocLayout.Lays meaning indent column broken items next
  | .replace parts => LaysAll meaning column parts items next

/-- An obligation is laid out as its move says. -/
theorem Lays.of_answer {move : Move} (answer : part.answer meaning column = .ok move)
    (lays : move.Lays meaning part.indent column items next) :
    Lays meaning part.indent column part.value items next := by
  rcases part with ⟨indent, value⟩
  cases value with
  | doc document =>
      cases document with
      | blank kept =>
          cases answer
          obtain ⟨rfl, rfl⟩ := laysAll_nil_iff.mp lays
          exact .blank kept
      | text fragment =>
          cases answer
          obtain ⟨rfl, rfl⟩ := lays
          exact .text fragment
      | line =>
          cases answer
          obtain ⟨rfl, rfl⟩ := lays
          exact .line
      | concat left right =>
          cases answer
          obtain ⟨first, later, middle, rfl, leftLays, rightLays⟩ := laysAll_cons_iff.mp lays
          exact .concat leftLays (laysAll_singleton_iff.mp rightLays)
      | nest amount inner =>
          cases answer
          exact .nest (laysAll_singleton_iff.mp lays)
      | union flat broken =>
          cases answer
          rcases lays with flatLays | brokenLays
          · exact .flat flatLays
          · exact .broken brokenLays
      | nesting callback =>
          rw [Obligation.answer_nesting] at answer
          cases gives : callback.content.resolved meaning indent with
          | error cause => simp [gives, Except.map] at answer
          | ok result =>
              rw [gives] at answer
              cases answer
              exact .nesting gives (laysAll_singleton_iff.mp lays)
      | column callback =>
          rw [Obligation.answer_column] at answer
          cases gives : callback.content.resolved meaning column with
          | error cause => simp [gives, Except.map] at answer
          | ok result =>
              rw [gives] at answer
              cases answer
              exact .column gives (laysAll_singleton_iff.mp lays)
      | unknown => cases answer
  | _ => cases answer

variable {σ : Type} {host : Host σ} {parts : List Obligation}

/-- A host that realizes a meaning makes no other moves than those of the meaning. -/
theorem Obligation.MayMove.answer_eq (realizes : host.Realizes meaning) {move : Move}
    (mayMove : part.MayMove host column move) : part.answer meaning column = .ok move := by
  obtain ⟨state, moveEq⟩ := mayMove
  exact (realizes.move_eq column part state).symm.trans moveEq

/-- What is met on a path to the end is denoted by the obligations at its start. -/
theorem laysAll_of_path (realizes : host.Realizes meaning) {remaining : List Obligation}
    (path : Path host column parts items next remaining) (ended : remaining = []) :
    LaysAll meaning column parts items next := by
  induction path with
  | refl =>
      subst ended
      exact .nil
  | emit mayMove _ inductionHypothesis =>
      have lays := Lays.of_answer (mayMove.answer_eq realizes) ⟨rfl, rfl⟩
      exact .cons lays (inductionHypothesis ended)
  | newline mayMove _ inductionHypothesis =>
      have lays := Lays.of_answer (mayMove.answer_eq realizes) ⟨rfl, rfl⟩
      exact .cons lays (inductionHypothesis ended)
  | replace mayMove _ inductionHypothesis =>
      obtain ⟨first, later, middle, rfl, laysParts, laysRest⟩ :=
        laysAll_append_iff.mp (inductionHypothesis ended)
      exact .cons (.of_answer (mayMove.answer_eq realizes) laysParts) laysRest
  | flat mayMove _ inductionHypothesis =>
      obtain ⟨first, later, middle, rfl, laysFlat, laysRest⟩ :=
        laysAll_cons_iff.mp (inductionHypothesis ended)
      exact .cons (.of_answer (mayMove.answer_eq realizes) (.inl laysFlat)) laysRest
  | broken mayMove _ inductionHypothesis =>
      obtain ⟨first, later, middle, rfl, laysBroken, laysRest⟩ :=
        laysAll_cons_iff.mp (inductionHypothesis ended)
      exact .cons (.of_answer (mayMove.answer_eq realizes) (.inr laysBroken)) laysRest

/-- A walk that comes to its end has taken a path to the end. -/
theorem Walk.exists_path_of_emits {width : Int} {state : σ}
    (emits : (Walk.start column parts state).Emits host width ⟨items, none⟩) :
    ∃ next, Path host column parts items next [] := by
  obtain ⟨events, store, ⟨last, run, ends⟩, itemsEq⟩ := emits
  have onPath := onPath_of_run run
  have atEnd : last.AtEnd := atEnd_iff_exists_finished.mpr ⟨store, ends⟩
  rw [itemsEq] at onPath
  cases last with
  | walking position kept =>
      have workEq : position.work = [] := atEnd
      rw [OnPath, workEq] at onPath
      exact ⟨_, onPath⟩
  | probing => cases atEnd

/-- Whatever the width, a walk that comes to its end has emitted one of the layouts that its value
denotes, with the columns of these very items.  Nothing is assumed of the deferral. -/
theorem layout_is_denoted (realizes : host.Realizes meaning) {indent : Int} {value : Value}
    {width : Int} {state : σ}
    (emits : (Walk.start column [⟨indent, value⟩] state).Emits host width ⟨items, none⟩) :
    Lays meaning indent column value items (Item.columnAfter column items) := by
  obtain ⟨next, path⟩ := Walk.exists_path_of_emits emits
  rw [← path.column_eq]
  exact laysAll_singleton_iff.mp (laysAll_of_path realizes path rfl)

/-- The obligations of `Obligation.steps` as one document. -/
def Doc.steps : Doc :=
  let deferred := Doc.column ⟨.shared, .function (.custom 0)⟩
  .concat
    (.union ⟨.shared, .doc (.concat (.text .space) deferred)⟩
      ⟨.shared, .doc (.concat .line deferred)⟩)
    (.text .space)

theorem steps_layout_is_denoted :
    Meaning.steps.countingHost.Realizes .steps ∧
      (Walk.start 0 [⟨0, .doc .steps⟩] 0).Emits Meaning.steps.countingHost 0
        ⟨[.line 0, .line 0, .text .space], none⟩ ∧
      Lays .steps 0 0 (.doc .steps) [.line 0, .line 0, .text .space] 1 := by
  have realizes := Meaning.steps.realizes_countingHost
  have prescribed : Prescribed .steps 0 0 [⟨0, .doc .steps⟩]
      ⟨[.line 0, .line 0, .text .space], none⟩ := .concat Prescribed.of_steps
  have emits : (Walk.start 0 [⟨0, .doc .steps⟩] 0).Emits Meaning.steps.countingHost 0
      ⟨[.line 0, .line 0, .text .space], none⟩ :=
    prescribed.start_emits realizes 0
  exact ⟨realizes, emits, layout_is_denoted realizes emits⟩

end DocLayout
