import DocLayout.Proofs.Layout.Excerpt

/-!
# Replacing obligations

Obligations are matched by others if the searches from both give the same answers, and what the
first ones show is shown alike by the others.  What counts as alike is left open: it may be the very
excerpt, or only the layout if it has ended, or only how it ends.

What follows may be replaced by what it is matched with, since a search looks into it by its answer
only.  Obligations that show the very same are interchangeable.
-/

namespace DocLayout

/-- A way to compare excerpts.  What is alike stays alike behind earlier items. -/
structure Comparison where
  /-- A further excerpt is like an excerpt. -/
  alike : Excerpt → Excerpt → Prop
  refl (excerpt : Excerpt) : alike excerpt excerpt
  after (earlier : List Item) {excerpt other : Excerpt} (likeness : alike excerpt other) :
    alike (excerpt.after earlier) (other.after earlier)

namespace Comparison

/-- Only the same excerpt is like an excerpt. -/
def exact : Comparison where
  alike excerpt other := other = excerpt
  refl _ := rfl
  after _ _ _ likeness := congrArg _ likeness

/-- Where a layout has ended, only the same layout is like it. -/
def complete : Comparison where
  alike excerpt other := excerpt.ending = .suspended ∨ other = excerpt
  refl _ := .inr rfl
  after _ _ _ likeness := likeness.imp id (congrArg _)

/-- Only the same layout is like a layout that has come to its end.  A layout that has failed may
hold other items. -/
def outcome : Comparison where
  alike excerpt other :=
    excerpt.ending = .suspended ∨ other = excerpt ∨
      ∃ cause, excerpt.ending = .failed cause ∧ other.ending = .failed cause
  refl _ := .inr (.inl rfl)
  after _ _ _ likeness := likeness.imp id (.imp (congrArg _) id)

end Comparison

variable {comparison : Comparison} {meaning : Meaning} {width column : Int}

/-- Whatever obligations show is shown alike by others, and the searches give the same answers. -/
structure Matched (comparison : Comparison) (meaning : Meaning) (width column : Int)
    (first second : List Obligation) : Prop where
  answers {answer : Except Error Bool} (answered : Answers meaning width column first answer) :
    Answers meaning width column second answer
  shows {excerpt : Excerpt} (shown : Shows meaning width column first excerpt) :
    ∃ other, Shows meaning width column second other ∧ comparison.alike excerpt other

namespace Matched

variable {part otherPart : Obligation} {first second rest otherRest : List Obligation}

theorem refl (parts : List Obligation) : Matched comparison meaning width column parts parts where
  answers answered := answered
  shows shown := ⟨_, shown, comparison.refl _⟩

theorem replaced_left {parts : List Obligation}
    (move : part.answer meaning column = .ok (.replace parts))
    (matched : Matched comparison meaning width column (parts ++ rest) second) :
    Matched comparison meaning width column (part :: rest) second where
  answers answered := matched.answers ((Answers.replace_iff move).mp answered)
  shows shown := matched.shows ((Shows.replace_iff move).mp shown)

theorem replaced_right {parts : List Obligation}
    (move : part.answer meaning column = .ok (.replace parts))
    (matched : Matched comparison meaning width column first (parts ++ rest)) :
    Matched comparison meaning width column first (part :: rest) where
  answers answered := (Answers.replace_iff move).mpr (matched.answers answered)
  shows shown := by
    obtain ⟨other, otherShown, likeness⟩ := matched.shows shown
    exact ⟨other, .replace move otherShown, likeness⟩

theorem chosen {flat broken otherFlat otherBroken : Value}
    (move : part.answer meaning column = .ok (.choose flat broken))
    (otherMove : otherPart.answer meaning column = .ok (.choose otherFlat otherBroken))
    (flatMatched : Matched comparison meaning width column (⟨part.indent, flat⟩ :: rest)
      (⟨otherPart.indent, otherFlat⟩ :: otherRest))
    (brokenMatched : Matched comparison meaning width column (⟨part.indent, broken⟩ :: rest)
      (⟨otherPart.indent, otherBroken⟩ :: otherRest)) :
    Matched comparison meaning width column (part :: rest) (otherPart :: otherRest) where
  answers answered := by
    apply (Answers.choose_iff otherMove).mpr
    rcases (Answers.choose_iff move).mp answered with ⟨flat, settled⟩ | ⟨flat, broken⟩
    · exact .inl ⟨flatMatched.answers flat, settled⟩
    · exact .inr ⟨flatMatched.answers flat, brokenMatched.answers broken⟩
  shows shown := by
    rcases (Shows.choose_iff move).mp shown with
      rfl | ⟨fits, later⟩ | ⟨overflows, later⟩ | ⟨cause, fails, rfl⟩
    · exact ⟨_, .nothing, comparison.refl _⟩
    · obtain ⟨other, otherShown, likeness⟩ := flatMatched.shows later
      exact ⟨other, .flat otherMove (flatMatched.answers fits) otherShown, likeness⟩
    · obtain ⟨other, otherShown, likeness⟩ := brokenMatched.shows later
      exact ⟨other, .broken otherMove (flatMatched.answers overflows) otherShown, likeness⟩
    · exact ⟨_, .undecided otherMove (flatMatched.answers fails), comparison.refl _⟩

/-- A search looks at what follows by the answer that a search from there gives. -/
theorem answers_append
    (matched : ∀ column, Matched comparison meaning width column first second)
    {parts whole : List Obligation} {found : Found}
    (search : Search meaning width column whole found) (wholeEq : whole = parts ++ first) :
    Answers meaning width column (parts ++ second) found.answer := by
  have reached {column : Int} {found : Found} (search : Search meaning width column first found) :
      Answers meaning width column second found.answer :=
    (matched column).answers (.of_search search)
  -- In each case either nothing is left in front of what follows, or a part there makes the move.
  induction search generalizing parts with
  | beyond exceeds => exact .of_search (.beyond exceeds)
  | done within =>
      obtain ⟨rfl, rfl⟩ := List.nil_eq_append_iff.mp wholeEq
      exact reached (.done within)
  | emit within move later inductionHypothesis =>
      rcases List.cons_eq_append_iff.mp wholeEq with ⟨rfl, rfl⟩ | ⟨others, rfl, rfl⟩
      · exact reached (.emit within move later)
      · rw [Found.answer_after]
        exact (Answers.emit_iff move).mpr (inductionHypothesis rfl)
  | newline within move =>
      rcases List.cons_eq_append_iff.mp wholeEq with ⟨rfl, rfl⟩ | ⟨others, rfl, rfl⟩
      · exact reached (.newline within move)
      · exact ⟨_, .newline within move, rfl⟩
  | replace within move later inductionHypothesis =>
      rcases List.cons_eq_append_iff.mp wholeEq with ⟨rfl, rfl⟩ | ⟨others, rfl, rfl⟩
      · exact reached (.replace within move later)
      · have later := inductionHypothesis (List.append_assoc ..).symm
        rw [List.append_assoc] at later
        exact (Answers.replace_iff move).mpr later
  | flat within move flatFound settled inductionHypothesis =>
      rcases List.cons_eq_append_iff.mp wholeEq with ⟨rfl, rfl⟩ | ⟨others, rfl, rfl⟩
      · exact reached (.flat within move flatFound settled)
      · exact (Answers.choose_iff move).mpr (.inl
          ⟨inductionHypothesis (List.cons_append ..).symm, fun overflows =>
            settled (Found.answer_eq_false_iff.mp overflows)⟩)
  | broken within move flatFound brokenFound flatHypothesis brokenHypothesis =>
      rcases List.cons_eq_append_iff.mp wholeEq with ⟨rfl, rfl⟩ | ⟨others, rfl, rfl⟩
      · exact reached (.broken within move flatFound brokenFound)
      · exact (Answers.choose_iff move).mpr (.inr
          ⟨flatHypothesis (List.cons_append ..).symm, brokenHypothesis (List.cons_append ..).symm⟩)
  | fails within move =>
      rcases List.cons_eq_append_iff.mp wholeEq with ⟨rfl, rfl⟩ | ⟨others, rfl, rfl⟩
      · exact reached (.fails within move)
      · exact .of_search (.fails within move)

/-- What is shown of what follows may be replaced by something alike. -/
theorem shows_append (matched : ∀ column, Matched comparison meaning width column first second)
    {parts whole : List Obligation} {excerpt : Excerpt}
    (shown : Shows meaning width column whole excerpt) (wholeEq : whole = parts ++ first) :
    ∃ other, Shows meaning width column (parts ++ second) other ∧
      comparison.alike excerpt other := by
  have reached {column : Int} {excerpt : Excerpt}
      (shown : Shows meaning width column first excerpt) :
      ∃ other, Shows meaning width column second other ∧ comparison.alike excerpt other :=
    (matched column).shows shown
  have answered {column : Int} (parts : List Obligation) {answer : Except Error Bool}
      (answers : Answers meaning width column (parts ++ first) answer) :
      Answers meaning width column (parts ++ second) answer := by
    obtain ⟨found, search, rfl⟩ := answers
    exact answers_append matched search rfl
  induction shown generalizing parts with
  | nothing => exact ⟨_, .nothing, comparison.refl _⟩
  | done =>
      obtain ⟨rfl, rfl⟩ := List.nil_eq_append_iff.mp wholeEq
      exact reached .done
  | emit move later inductionHypothesis =>
      rcases List.cons_eq_append_iff.mp wholeEq with ⟨rfl, rfl⟩ | ⟨others, rfl, rfl⟩
      · exact reached (.emit move later)
      · obtain ⟨other, otherShown, likeness⟩ := inductionHypothesis rfl
        exact ⟨_, .emit move otherShown, comparison.after _ likeness⟩
  | newline move later inductionHypothesis =>
      rcases List.cons_eq_append_iff.mp wholeEq with ⟨rfl, rfl⟩ | ⟨others, rfl, rfl⟩
      · exact reached (.newline move later)
      · obtain ⟨other, otherShown, likeness⟩ := inductionHypothesis rfl
        exact ⟨_, .newline move otherShown, comparison.after _ likeness⟩
  | replace move later inductionHypothesis =>
      rcases List.cons_eq_append_iff.mp wholeEq with ⟨rfl, rfl⟩ | ⟨others, rfl, rfl⟩
      · exact reached (.replace move later)
      · obtain ⟨other, otherShown, likeness⟩ := inductionHypothesis (List.append_assoc ..).symm
        rw [List.append_assoc] at otherShown
        exact ⟨other, .replace move otherShown, likeness⟩
  | flat move fits later inductionHypothesis =>
      rcases List.cons_eq_append_iff.mp wholeEq with ⟨rfl, rfl⟩ | ⟨others, rfl, rfl⟩
      · exact reached (.flat move fits later)
      · obtain ⟨other, otherShown, likeness⟩ := inductionHypothesis (List.cons_append ..).symm
        exact ⟨other, .flat move (answered (_ :: others) fits) otherShown, likeness⟩
  | broken move overflows later inductionHypothesis =>
      rcases List.cons_eq_append_iff.mp wholeEq with ⟨rfl, rfl⟩ | ⟨others, rfl, rfl⟩
      · exact reached (.broken move overflows later)
      · obtain ⟨other, otherShown, likeness⟩ := inductionHypothesis (List.cons_append ..).symm
        exact ⟨other, .broken move (answered (_ :: others) overflows) otherShown, likeness⟩
  | undecided move fails =>
      rcases List.cons_eq_append_iff.mp wholeEq with ⟨rfl, rfl⟩ | ⟨others, rfl, rfl⟩
      · exact reached (.undecided move fails)
      · exact ⟨_, .undecided move (answered (_ :: others) fails), comparison.refl _⟩
  | fails move =>
      rcases List.cons_eq_append_iff.mp wholeEq with ⟨rfl, rfl⟩ | ⟨others, rfl, rfl⟩
      · exact reached (.fails move)
      · exact ⟨_, .fails move, comparison.refl _⟩

/-- What follows may be replaced. -/
theorem append (matched : ∀ column, Matched comparison meaning width column first second)
    (parts : List Obligation) (column : Int) :
    Matched comparison meaning width column (parts ++ first) (parts ++ second) where
  answers := by
    rintro _ ⟨found, search, rfl⟩
    exact answers_append matched search rfl
  shows shown := shows_append matched shown rfl

end Matched

/-! ## Interchangeable obligations -/

/-- Searches from obligations and from others give the same answers, and both show the same. -/
structure Interchangeable (meaning : Meaning) (width column : Int)
    (first second : List Obligation) : Prop where
  answers (answer : Except Error Bool) :
    Answers meaning width column first answer ↔ Answers meaning width column second answer
  shows (excerpt : Excerpt) :
    Shows meaning width column first excerpt ↔ Shows meaning width column second excerpt

namespace Interchangeable

variable {part : Obligation} {first second third rest : List Obligation}

theorem refl (parts : List Obligation) : Interchangeable meaning width column parts parts where
  answers _ := .rfl
  shows _ := .rfl

theorem symm (same : Interchangeable meaning width column first second) :
    Interchangeable meaning width column second first where
  answers answer := (same.answers answer).symm
  shows excerpt := (same.shows excerpt).symm

theorem trans (same : Interchangeable meaning width column first second)
    (later : Interchangeable meaning width column second third) :
    Interchangeable meaning width column first third where
  answers answer := (same.answers answer).trans (later.answers answer)
  shows excerpt := (same.shows excerpt).trans (later.shows excerpt)

theorem matched (same : Interchangeable meaning width column first second) :
    Matched comparison meaning width column first second where
  answers := (same.answers _).mp
  shows shown := ⟨_, (same.shows _).mp shown, comparison.refl _⟩

theorem of_matched (matched : Matched .exact meaning width column first second)
    (reverse : Matched .exact meaning width column second first) :
    Interchangeable meaning width column first second where
  answers _ := ⟨matched.answers, reverse.answers⟩
  shows _ := by
    constructor
    · intro shown
      obtain ⟨_, otherShown, rfl⟩ := matched.shows shown
      exact otherShown
    · intro shown
      obtain ⟨_, otherShown, rfl⟩ := reverse.shows shown
      exact otherShown

/-- What takes the place of an obligation is interchangeable with it. -/
theorem replaced {parts : List Obligation}
    (move : part.answer meaning column = .ok (.replace parts)) :
    Interchangeable meaning width column (part :: rest) (parts ++ rest) where
  answers _ := Answers.replace_iff move
  shows _ := Shows.replace_iff move

theorem append (same : ∀ column, Interchangeable meaning width column first second)
    (parts : List Obligation) (column : Int) :
    Interchangeable meaning width column (parts ++ first) (parts ++ second) :=
  .of_matched (.append (fun column => (same column).matched) parts column)
    (.append (fun column => (same column).symm.matched) parts column)

theorem cons (same : ∀ column, Interchangeable meaning width column first second)
    (part : Obligation) (column : Int) :
    Interchangeable meaning width column (part :: first) (part :: second) :=
  append same [part] column

theorem chosen {otherPart : Obligation} {otherRest : List Obligation}
    {flat broken otherFlat otherBroken : Value}
    (move : part.answer meaning column = .ok (.choose flat broken))
    (otherMove : otherPart.answer meaning column = .ok (.choose otherFlat otherBroken))
    (flatSame : Interchangeable meaning width column (⟨part.indent, flat⟩ :: rest)
      (⟨otherPart.indent, otherFlat⟩ :: otherRest))
    (brokenSame : Interchangeable meaning width column (⟨part.indent, broken⟩ :: rest)
      (⟨otherPart.indent, otherBroken⟩ :: otherRest)) :
    Interchangeable meaning width column (part :: rest) (otherPart :: otherRest) :=
  .of_matched (.chosen move otherMove flatSame.matched brokenSame.matched)
    (.chosen otherMove move flatSame.symm.matched brokenSame.symm.matched)

variable (indent : Int)

theorem blank (kept : Bool) :
    Interchangeable meaning width column (⟨indent, .doc (.blank kept)⟩ :: rest) rest :=
  replaced (Obligation.answer_blank ..)

theorem concat (left right : Doc) :
    Interchangeable meaning width column (⟨indent, .doc (.concat left right)⟩ :: rest)
      (⟨indent, .doc left⟩ :: ⟨indent, .doc right⟩ :: rest) :=
  replaced (Obligation.answer_concat ..)

theorem nest (amount : Amount) (inner : Doc) :
    Interchangeable meaning width column (⟨indent, .doc (.nest amount inner)⟩ :: rest)
      (⟨indent + amount.toInt, .doc inner⟩ :: rest) :=
  replaced (Obligation.answer_nest ..)

/-- Text does not care for its indentation. -/
theorem text (otherIndent : Int) (fragment : Fragment) :
    Interchangeable meaning width column (⟨indent, .doc (.text fragment)⟩ :: rest)
      (⟨otherIndent, .doc (.text fragment)⟩ :: rest) where
  answers _ := (Answers.emit_iff (Obligation.answer_text ..)).trans
    (Answers.emit_iff (Obligation.answer_text ..)).symm
  shows _ := (Shows.emit_iff (Obligation.answer_text ..)).trans
    (Shows.emit_iff (Obligation.answer_text ..)).symm

end Interchangeable

end DocLayout
