import DocLayout.Proofs.Layout.Course

/-!
# Stretches of a course

A stretch is a part of a course: it leads from a column with obligations to another one and reports
events on the way.  A course is a stretch up to a place where nothing further is reported.  An
endless layout has no course, but it has stretches of any length.
-/

namespace DocLayout

/-- Some moves of a walk, with the events that they report and the place that they lead to. -/
inductive Stretch (meaning : Meaning) (width : Int) :
    Int → List Obligation → List Event → Int → List Obligation → Prop where
  | refl (column : Int) (parts : List Obligation) :
      Stretch meaning width column parts [] column parts
  | emit {column next : Int} {part : Obligation} {rest remaining : List Obligation}
      {fragment : Fragment} {events : List Event}
      (move : part.answer meaning column = .ok (.emit fragment))
      (later : Stretch meaning width (column + fragment.width) rest events next remaining) :
      Stretch meaning width column (part :: rest) (.item (.text fragment) :: events) next remaining
  | newline {column next : Int} {part : Obligation} {rest remaining : List Obligation}
      {events : List Event} (move : part.answer meaning column = .ok .newline)
      (later : Stretch meaning width (max part.indent 0) rest events next remaining) :
      Stretch meaning width column (part :: rest) (.item (.line part.indent) :: events) next
        remaining
  | replace {column next : Int} {part : Obligation} {rest remaining parts : List Obligation}
      {events : List Event} (move : part.answer meaning column = .ok (.replace parts))
      (later : Stretch meaning width column (parts ++ rest) events next remaining) :
      Stretch meaning width column (part :: rest) events next remaining
  | flat {column middle next : Int} {part : Obligation} {rest pending remaining : List Obligation}
      {flat broken : Value} {items : List Item} {events : List Event}
      (move : part.answer meaning column = .ok (.choose flat broken))
      (fits : Search meaning width column (⟨part.indent, flat⟩ :: rest)
        (.fits items middle pending))
      (later : Stretch meaning width middle pending events next remaining) :
      Stretch meaning width column (part :: rest)
        (.decision ⟨part.indent, column, true⟩ :: (items.map .item ++ events)) next remaining
  | broken {column next : Int} {part : Obligation} {rest remaining : List Obligation}
      {flat broken : Value} {events : List Event}
      (move : part.answer meaning column = .ok (.choose flat broken))
      (overflows : Search meaning width column (⟨part.indent, flat⟩ :: rest) .overflows)
      (later : Stretch meaning width column (⟨part.indent, broken⟩ :: rest) events next
        remaining) :
      Stretch meaning width column (part :: rest)
        (.decision ⟨part.indent, column, false⟩ :: events) next remaining

/-- Nothing further is reported: everything has been laid out, or something cannot be. -/
inductive Stops (meaning : Meaning) (width column : Int) :
    List Obligation → Option Error → Prop where
  | done : Stops meaning width column [] none
  | undecided {part : Obligation} {rest : List Obligation} {flat broken : Value} {cause : Error}
      (move : part.answer meaning column = .ok (.choose flat broken))
      (fails : Search meaning width column (⟨part.indent, flat⟩ :: rest) (.fails cause)) :
      Stops meaning width column (part :: rest) (some cause)
  | fails {part : Obligation} {rest : List Obligation} {cause : Error}
      (move : part.answer meaning column = .error cause) :
      Stops meaning width column (part :: rest) (some cause)

variable {meaning : Meaning} {width column middle next : Int}
  {parts pending remaining : List Obligation} {events laterEvents : List Event}
  {ending : Option Error}

namespace Stretch

theorem trans (stretch : Stretch meaning width column parts events middle pending)
    (later : Stretch meaning width middle pending laterEvents next remaining) :
    Stretch meaning width column parts (events ++ laterEvents) next remaining := by
  induction stretch with
  | refl => exact later
  | emit move _ inductionHypothesis => exact .emit move (inductionHypothesis later)
  | newline move _ inductionHypothesis => exact .newline move (inductionHypothesis later)
  | replace move _ inductionHypothesis => exact .replace move (inductionHypothesis later)
  | flat move fits _ inductionHypothesis =>
      rw [List.cons_append, List.append_assoc]
      exact .flat move fits (inductionHypothesis later)
  | broken move overflows _ inductionHypothesis =>
      exact .broken move overflows (inductionHypothesis later)

/-- From the end no stretch leads any further. -/
theorem nil_iff :
    Stretch meaning width column [] events next remaining ↔
      events = [] ∧ next = column ∧ remaining = [] := by
  constructor
  · intro stretch
    cases stretch
    exact ⟨rfl, rfl, rfl⟩
  · rintro ⟨rfl, rfl, rfl⟩
    exact .refl _ _

end Stretch

namespace Course

theorem of_stops (stops : Stops meaning width column parts ending) :
    Course meaning width column parts [] ending := by
  cases stops with
  | done => exact .done
  | undecided move fails => exact .undecided move fails
  | fails move => exact .fails move

theorem of_stretch (stretch : Stretch meaning width column parts events next remaining)
    (later : Course meaning width next remaining laterEvents ending) :
    Course meaning width column parts (events ++ laterEvents) ending := by
  induction stretch with
  | refl => exact later
  | emit move _ inductionHypothesis => exact .emit move (inductionHypothesis later)
  | newline move _ inductionHypothesis => exact .newline move (inductionHypothesis later)
  | replace move _ inductionHypothesis => exact .replace move (inductionHypothesis later)
  | flat move fits _ inductionHypothesis =>
      rw [List.cons_append, List.append_assoc]
      exact .flat move fits (inductionHypothesis later)
  | broken move overflows _ inductionHypothesis =>
      exact .broken move overflows (inductionHypothesis later)

/-- A course is a stretch up to a place where it stops. -/
theorem exists_stretch (course : Course meaning width column parts events ending) :
    ∃ next remaining, Stretch meaning width column parts events next remaining ∧
      Stops meaning width next remaining ending := by
  induction course with
  | done => exact ⟨_, _, .refl _ _, .done⟩
  | emit move _ inductionHypothesis =>
      obtain ⟨next, remaining, stretch, stops⟩ := inductionHypothesis
      exact ⟨next, remaining, .emit move stretch, stops⟩
  | newline move _ inductionHypothesis =>
      obtain ⟨next, remaining, stretch, stops⟩ := inductionHypothesis
      exact ⟨next, remaining, .newline move stretch, stops⟩
  | replace move _ inductionHypothesis =>
      obtain ⟨next, remaining, stretch, stops⟩ := inductionHypothesis
      exact ⟨next, remaining, .replace move stretch, stops⟩
  | flat move fits _ inductionHypothesis =>
      obtain ⟨next, remaining, stretch, stops⟩ := inductionHypothesis
      exact ⟨next, remaining, .flat move fits stretch, stops⟩
  | broken move overflows _ inductionHypothesis =>
      obtain ⟨next, remaining, stretch, stops⟩ := inductionHypothesis
      exact ⟨next, remaining, .broken move overflows stretch, stops⟩
  | undecided move fails => exact ⟨_, _, .refl _ _, .undecided move fails⟩
  | fails move => exact ⟨_, _, .refl _ _, .fails move⟩

theorem iff_exists_stretch :
    Course meaning width column parts events ending ↔
      ∃ next remaining, Stretch meaning width column parts events next remaining ∧
        Stops meaning width next remaining ending := by
  constructor
  · exact exists_stretch
  · rintro ⟨next, remaining, stretch, stops⟩
    have course := of_stretch stretch (of_stops stops)
    rwa [List.append_nil] at course

end Course

end DocLayout
