import DocLayout.Proofs.Layout.Run

/-!
# The course of a walk

What a walk reports, without its probes: at a choice it looks at what a search with the flat member
in front finds.  A walk whose memory is reliable takes this course, and a walk that remembers less
between its probes takes it as well.
-/

namespace DocLayout

/-- The events and the ending of a walk from a column over obligations. -/
inductive Course (meaning : Meaning) (width : Int) :
    Int → List Obligation → List Event → Option Error → Prop where
  | done {column : Int} : Course meaning width column [] [] none
  | emit {column : Int} {part : Obligation} {rest : List Obligation} {fragment : Fragment}
      {events : List Event} {ending : Option Error}
      (move : part.answer meaning column = .ok (.emit fragment))
      (later : Course meaning width (column + fragment.width) rest events ending) :
      Course meaning width column (part :: rest) (.item (.text fragment) :: events) ending
  | newline {column : Int} {part : Obligation} {rest : List Obligation} {events : List Event}
      {ending : Option Error} (move : part.answer meaning column = .ok .newline)
      (later : Course meaning width (max part.indent 0) rest events ending) :
      Course meaning width column (part :: rest) (.item (.line part.indent) :: events) ending
  | replace {column : Int} {part : Obligation} {rest parts : List Obligation} {events : List Event}
      {ending : Option Error} (move : part.answer meaning column = .ok (.replace parts))
      (later : Course meaning width column (parts ++ rest) events ending) :
      Course meaning width column (part :: rest) events ending
  | flat {column next : Int} {part : Obligation} {rest remaining : List Obligation}
      {flat broken : Value} {items : List Item} {events : List Event} {ending : Option Error}
      (move : part.answer meaning column = .ok (.choose flat broken))
      (fits : Search meaning width column (⟨part.indent, flat⟩ :: rest)
        (.fits items next remaining))
      (later : Course meaning width next remaining events ending) :
      Course meaning width column (part :: rest)
        (.decision ⟨part.indent, column, true⟩ :: (items.map .item ++ events)) ending
  | broken {column : Int} {part : Obligation} {rest : List Obligation} {flat broken : Value}
      {events : List Event} {ending : Option Error}
      (move : part.answer meaning column = .ok (.choose flat broken))
      (overflows : Search meaning width column (⟨part.indent, flat⟩ :: rest) .overflows)
      (later : Course meaning width column (⟨part.indent, broken⟩ :: rest) events ending) :
      Course meaning width column (part :: rest)
        (.decision ⟨part.indent, column, false⟩ :: events) ending
  | undecided {column : Int} {part : Obligation} {rest : List Obligation} {flat broken : Value}
      {cause : Error} (move : part.answer meaning column = .ok (.choose flat broken))
      (fails : Search meaning width column (⟨part.indent, flat⟩ :: rest) (.fails cause)) :
      Course meaning width column (part :: rest) [] (some cause)
  | fails {column : Int} {part : Obligation} {rest : List Obligation} {cause : Error}
      (move : part.answer meaning column = .error cause) :
      Course meaning width column (part :: rest) [] (some cause)

namespace Course

variable {meaning : Meaning} {width column : Int} {part : Obligation} {rest : List Obligation}
  {events : List Event} {ending : Option Error}

theorem nil_iff : Course meaning width column [] events ending ↔ events = [] ∧ ending = none := by
  constructor
  · intro course
    cases course
    exact ⟨rfl, rfl⟩
  · rintro ⟨rfl, rfl⟩
    exact .done

theorem emit_iff {fragment : Fragment} (move : part.answer meaning column = .ok (.emit fragment)) :
    Course meaning width column (part :: rest) events ending ↔
      ∃ later, events = .item (.text fragment) :: later ∧
        Course meaning width (column + fragment.width) rest later ending := by
  constructor
  · intro course
    cases course <;> simp_all
  · rintro ⟨later, rfl, course⟩
    exact .emit move course

theorem newline_iff (move : part.answer meaning column = .ok .newline) :
    Course meaning width column (part :: rest) events ending ↔
      ∃ later, events = .item (.line part.indent) :: later ∧
        Course meaning width (max part.indent 0) rest later ending := by
  constructor
  · intro course
    cases course <;> simp_all
  · rintro ⟨later, rfl, course⟩
    exact .newline move course

theorem replace_iff {parts : List Obligation}
    (move : part.answer meaning column = .ok (.replace parts)) :
    Course meaning width column (part :: rest) events ending ↔
      Course meaning width column (parts ++ rest) events ending := by
  constructor
  · intro course
    cases course <;> simp_all
  · exact .replace move

theorem fails_iff {cause : Error} (move : part.answer meaning column = .error cause) :
    Course meaning width column (part :: rest) events ending ↔
      events = [] ∧ ending = some cause := by
  constructor
  · intro course
    cases course <;> simp_all
  · rintro ⟨rfl, rfl⟩
    exact .fails move

/-- The course at a choice, by what is found with the flat member in front. -/
def Decided (meaning : Meaning) (width column indent : Int) (broken : Value)
    (rest : List Obligation) (events : List Event) (ending : Option Error) : Found → Prop
  | .fits items next remaining => ∃ later,
      events = .decision ⟨indent, column, true⟩ :: (items.map .item ++ later) ∧
        Course meaning width next remaining later ending
  | .overflows => ∃ later, events = .decision ⟨indent, column, false⟩ :: later ∧
      Course meaning width column (⟨indent, broken⟩ :: rest) later ending
  | .fails cause => events = [] ∧ ending = some cause

theorem choose_iff {flat broken : Value} {found : Found}
    (move : part.answer meaning column = .ok (.choose flat broken))
    (finds : Search meaning width column (⟨part.indent, flat⟩ :: rest) found) :
    Course meaning width column (part :: rest) events ending ↔
      Decided meaning width column part.indent broken rest events ending found := by
  constructor
  · intro course
    cases course with
    | flat sameMove fits later =>
        cases move.symm.trans sameMove
        cases finds.unique fits
        exact ⟨_, rfl, later⟩
    | broken sameMove overflows later =>
        cases move.symm.trans sameMove
        cases finds.unique overflows
        exact ⟨_, rfl, later⟩
    | undecided sameMove fails =>
        cases move.symm.trans sameMove
        cases finds.unique fails
        exact ⟨rfl, rfl⟩
    | _ => simp_all
  · intro decided
    cases found with
    | fits items next remaining =>
        obtain ⟨later, rfl, course⟩ := decided
        exact .flat move finds course
    | overflows =>
        obtain ⟨later, rfl, course⟩ := decided
        exact .broken move finds course
    | fails cause =>
        obtain ⟨rfl, rfl⟩ := decided
        exact .undecided move finds

/-- There is at most one course. -/
theorem unique {parts : List Obligation} {other : List Event} {otherEnding : Option Error}
    (course : Course meaning width column parts events ending)
    (otherCourse : Course meaning width column parts other otherEnding) :
    events = other ∧ ending = otherEnding := by
  induction course generalizing other with
  | done =>
      obtain ⟨rfl, rfl⟩ := nil_iff.mp otherCourse
      exact ⟨rfl, rfl⟩
  | emit move _ inductionHypothesis =>
      obtain ⟨later, rfl, laterCourse⟩ := (emit_iff move).mp otherCourse
      obtain ⟨rfl, rfl⟩ := inductionHypothesis laterCourse
      exact ⟨rfl, rfl⟩
  | newline move _ inductionHypothesis =>
      obtain ⟨later, rfl, laterCourse⟩ := (newline_iff move).mp otherCourse
      obtain ⟨rfl, rfl⟩ := inductionHypothesis laterCourse
      exact ⟨rfl, rfl⟩
  | replace move _ inductionHypothesis =>
      exact inductionHypothesis ((replace_iff move).mp otherCourse)
  | flat move fits _ inductionHypothesis =>
      obtain ⟨later, rfl, laterCourse⟩ := (choose_iff move fits).mp otherCourse
      obtain ⟨rfl, rfl⟩ := inductionHypothesis laterCourse
      exact ⟨rfl, rfl⟩
  | broken move overflows _ inductionHypothesis =>
      obtain ⟨later, rfl, laterCourse⟩ := (choose_iff move overflows).mp otherCourse
      obtain ⟨rfl, rfl⟩ := inductionHypothesis laterCourse
      exact ⟨rfl, rfl⟩
  | undecided move fails =>
      obtain ⟨rfl, rfl⟩ := (choose_iff move fails).mp otherCourse
      exact ⟨rfl, rfl⟩
  | fails move =>
      obtain ⟨rfl, rfl⟩ := (fails_iff move).mp otherCourse
      exact ⟨rfl, rfl⟩

/-- Where a search fits, the course reports its items and goes on from where it ends. -/
theorem of_fits {parts remaining : List Obligation} {items : List Item} {next : Int}
    {found : Found} (search : Search meaning width column parts found)
    (foundEq : found = .fits items next remaining)
    (course : Course meaning width column parts events ending) :
    ∃ later, Course meaning width next remaining later ending ∧
      itemsOf events = items ++ itemsOf later := by
  induction search generalizing events items with
  | beyond => cases foundEq
  | done =>
      cases foundEq
      exact ⟨events, course, rfl⟩
  | @emit _ _ _ _ later _ move _ inductionHypothesis =>
      obtain ⟨laterEvents, rfl, laterCourse⟩ := (emit_iff move).mp course
      cases later with
      | fits laterItems _ _ =>
          cases foundEq
          obtain ⟨final, finalCourse, itemsEq⟩ := inductionHypothesis rfl laterCourse
          exact ⟨final, finalCourse, congrArg _ itemsEq⟩
      | _ => cases foundEq
  | newline _ move =>
      cases foundEq
      obtain ⟨later, rfl, laterCourse⟩ := (newline_iff move).mp course
      exact ⟨later, laterCourse, rfl⟩
  | replace _ move _ inductionHypothesis =>
      exact inductionHypothesis foundEq ((replace_iff move).mp course)
  | flat _ move flatFound =>
      cases foundEq
      obtain ⟨later, rfl, laterCourse⟩ := (choose_iff move flatFound).mp course
      exact ⟨later, laterCourse, by simp⟩
  | broken _ move flatFound _ _ brokenHypothesis =>
      obtain ⟨later, rfl, laterCourse⟩ := (choose_iff move flatFound).mp course
      obtain ⟨final, finalCourse, itemsEq⟩ := brokenHypothesis foundEq laterCourse
      exact ⟨final, finalCourse, itemsEq⟩
  | fails => cases foundEq

end Course

end DocLayout
