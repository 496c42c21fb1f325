import DocLayout.Proofs.Doc.Built
import DocLayout.Proofs.Layout.Behavior
import DocLayout.Proofs.Layout.Reading
import DocLayout.Proofs.Layout.Rows

/-!
# Line breaks separate

What comes behind a line break has no influence on what comes before it.  A search over the
obligations before the line break finds the same with the line break and more behind them, except
that it goes on to the line break where it would come to the end.  So the walk over all of them is
the walk over the first ones, up to its end, then the line break, and then the walk over the others
from the column of the new line.
-/

namespace DocLayout

variable {meaning : Meaning} {width column next indent : Int}
  {before after remaining : List Obligation} {events later : List Event} {ending : Option Error}

/-- Only a line break ends the line, so any other move is one of an obligation before it. -/
theorem exists_others_of_answer {part : Obligation} {rest : List Obligation}
    {outcome : Except Error Move} (partsEq : part :: rest = before ++ ⟨indent, .doc .line⟩ :: after)
    (move : part.answer meaning column = outcome) (other : outcome ≠ .ok .newline) :
    ∃ others, before = part :: others ∧ rest = others ++ ⟨indent, .doc .line⟩ :: after := by
  cases before with
  | nil =>
      cases partsEq
      exact absurd move.symm other
  | cons first others =>
      cases partsEq
      exact ⟨others, rfl, rfl⟩

/-! ## Searches -/

/-- What is found if a line break and more come behind: the line break follows where the end was
reached, and otherwise it is left to be laid out. -/
inductive Found.Continued (indent : Int) (after : List Obligation) : Found → Found → Prop where
  | passes (items : List Item) (column : Int) (rest : List Obligation) :
      Continued indent after (.fits items column rest)
        (.fits items column (rest ++ ⟨indent, .doc .line⟩ :: after))
  | reaches (items : List Item) (column : Int) :
      Continued indent after (.fits items column [])
        (.fits (items ++ [.line indent]) (max indent 0) after)
  | overflows : Continued indent after .overflows .overflows
  | fails (cause : Error) : Continued indent after (.fails cause) (.fails cause)

namespace Found.Continued

variable {found whole : Found}

theorem after_items (continued : Continued indent after found whole) (earlier : List Item) :
    Continued indent after (found.after earlier) (whole.after earlier) := by
  cases continued with
  | passes items column rest => exact .passes (earlier ++ items) column rest
  | reaches items column =>
      rw [Found.after, Found.after, ← List.append_assoc]
      exact .reaches (earlier ++ items) column
  | overflows => exact .overflows
  | fails cause => exact .fails cause

theorem overflows_iff (continued : Continued indent after found whole) :
    found = .overflows ↔ whole = .overflows := by
  cases continued <;> simp

end Found.Continued

namespace Search

variable {found whole : Found}

/-- A search goes on to the line break, if it comes to the end, and stays the same otherwise. -/
theorem exists_continued (search : Search meaning width column before found) (indent : Int)
    (after : List Obligation) :
    ∃ whole, Search meaning width column (before ++ ⟨indent, .doc .line⟩ :: after) whole ∧
      found.Continued indent after whole := by
  induction search with
  | beyond exceeds => exact ⟨_, .beyond exceeds, .overflows⟩
  | done within => exact ⟨_, .newline within (Obligation.answer_line ..), .reaches [] _⟩
  | emit within move _ inductionHypothesis =>
      obtain ⟨whole, search, continued⟩ := inductionHypothesis
      exact ⟨_, .emit within move search, continued.after_items _⟩
  | newline within move => exact ⟨_, .newline within move, .passes _ _ _⟩
  | replace within move _ inductionHypothesis =>
      obtain ⟨whole, search, continued⟩ := inductionHypothesis
      rw [List.append_assoc] at search
      exact ⟨whole, .replace within move search, continued⟩
  | flat within move _ settled inductionHypothesis =>
      obtain ⟨whole, search, continued⟩ := inductionHypothesis
      have wholeSettled : whole ≠ .overflows := fun overflows =>
        settled (continued.overflows_iff.mpr overflows)
      exact ⟨whole, .flat within move search wholeSettled, continued⟩
  | broken within move _ _ flatHypothesis brokenHypothesis =>
      obtain ⟨flatWhole, flatSearch, flatContinued⟩ := flatHypothesis
      obtain ⟨whole, search, continued⟩ := brokenHypothesis
      obtain rfl := flatContinued.overflows_iff.mp rfl
      exact ⟨whole, .broken within move flatSearch search, continued⟩
  | fails within move => exact ⟨_, .fails within move, .fails _⟩

/-- A search with a line break in the way comes from one over the obligations before it. -/
theorem exists_of_continued {parts : List Obligation}
    (search : Search meaning width column parts whole)
    (partsEq : parts = before ++ ⟨indent, .doc .line⟩ :: after) :
    ∃ found, Search meaning width column before found ∧ found.Continued indent after whole := by
  induction search generalizing before with
  | beyond exceeds => exact ⟨_, .beyond exceeds, .overflows⟩
  | done => simp at partsEq
  | emit within move _ inductionHypothesis =>
      obtain ⟨others, rfl, rfl⟩ := exists_others_of_answer partsEq move (by simp)
      obtain ⟨found, search, continued⟩ := inductionHypothesis rfl
      exact ⟨_, .emit within move search, continued.after_items _⟩
  | newline within move =>
      cases before with
      | nil =>
          cases partsEq
          exact ⟨_, .done within, .reaches [] _⟩
      | cons part others =>
          cases partsEq
          exact ⟨_, .newline within move, .passes _ _ _⟩
  | replace within move _ inductionHypothesis =>
      obtain ⟨others, rfl, rfl⟩ := exists_others_of_answer partsEq move (by simp)
      obtain ⟨found, search, continued⟩ := inductionHypothesis (List.append_assoc ..).symm
      exact ⟨found, .replace within move search, continued⟩
  | flat within move _ settled inductionHypothesis =>
      obtain ⟨others, rfl, rfl⟩ := exists_others_of_answer partsEq move (by simp)
      obtain ⟨found, search, continued⟩ := inductionHypothesis (List.cons_append ..).symm
      have foundSettled : found ≠ .overflows := fun overflows =>
        settled (continued.overflows_iff.mp overflows)
      exact ⟨found, .flat within move search foundSettled, continued⟩
  | broken within move _ _ flatHypothesis brokenHypothesis =>
      obtain ⟨others, rfl, rfl⟩ := exists_others_of_answer partsEq move (by simp)
      obtain ⟨flatFound, flatSearch, flatContinued⟩ := flatHypothesis (List.cons_append ..).symm
      obtain ⟨found, search, continued⟩ := brokenHypothesis (List.cons_append ..).symm
      obtain rfl := flatContinued.overflows_iff.mpr rfl
      exact ⟨found, .broken within move flatSearch search, continued⟩
  | fails within move =>
      obtain ⟨others, rfl, rfl⟩ := exists_others_of_answer partsEq move (by simp)
      exact ⟨_, .fails within move, .fails _⟩

end Search

/-! ## Stretches -/

namespace Stretch

/-- A stretch up to the end leads on to the line break; any other one stays as it is, unless it ends
with a choice that is laid out flat up to the line break. -/
theorem followed (stretch : Stretch meaning width column before events next remaining)
    (indent : Int) (after : List Obligation) :
    Stretch meaning width column (before ++ ⟨indent, .doc .line⟩ :: after) events next
        (remaining ++ ⟨indent, .doc .line⟩ :: after) ∨
      remaining = [] ∧
        Stretch meaning width column (before ++ ⟨indent, .doc .line⟩ :: after)
          (events ++ [.item (.line indent)]) (max indent 0) after := by
  induction stretch with
  | refl => exact .inl (.refl _ _)
  | emit move _ inductionHypothesis =>
      rcases inductionHypothesis with stretch | ⟨ended, stretch⟩
      · exact .inl (.emit move stretch)
      · exact .inr ⟨ended, .emit move stretch⟩
  | newline move _ inductionHypothesis =>
      rcases inductionHypothesis with stretch | ⟨ended, stretch⟩
      · exact .inl (.newline move stretch)
      · exact .inr ⟨ended, .newline move stretch⟩
  | replace move _ inductionHypothesis =>
      rw [List.append_assoc] at inductionHypothesis
      rcases inductionHypothesis with stretch | ⟨ended, stretch⟩
      · exact .inl (.replace move stretch)
      · exact .inr ⟨ended, .replace move stretch⟩
  | flat move fits later inductionHypothesis =>
      obtain ⟨whole, search, continued⟩ := fits.exists_continued indent after
      cases continued with
      | passes =>
          rcases inductionHypothesis with stretch | ⟨ended, stretch⟩
          · exact .inl (.flat move search stretch)
          · have whole := Stretch.flat move search stretch
            rw [← List.append_assoc] at whole
            exact .inr ⟨ended, whole⟩
      | reaches =>
          -- Nothing is left behind the choice, so the stretch ends there.
          obtain ⟨rfl, rfl, rfl⟩ := nil_iff.mp later
          right
          have stretch := Stretch.flat move search (.refl _ _)
          rw [List.map_append, List.append_nil] at stretch
          rw [List.append_nil]
          exact ⟨rfl, stretch⟩
  | broken move overflows _ inductionHypothesis =>
      obtain ⟨whole, search, continued⟩ := overflows.exists_continued indent after
      obtain rfl := continued.overflows_iff.mp rfl
      rcases inductionHypothesis with stretch | ⟨ended, stretch⟩
      · exact .inl (.broken move search stretch)
      · exact .inr ⟨ended, .broken move search stretch⟩

/-- A stretch up to the end leads on to the line break. -/
theorem to_lineBreak (stretch : Stretch meaning width column before events next [])
    (indent : Int) (after : List Obligation) :
    Stretch meaning width column (before ++ ⟨indent, .doc .line⟩ :: after)
      (events ++ [.item (.line indent)]) (max indent 0) after := by
  rcases stretch.followed indent after with same | ⟨-, onward⟩
  · exact same.trans (.newline (Obligation.answer_line ..) (.refl _ _))
  · exact onward

/-- A stretch with a line break in the way stays before it, or consists of a stretch up to the end
of what comes before, the line break, and a stretch over what comes behind. -/
theorem separate {parts : List Obligation}
    (stretch : Stretch meaning width column parts events next remaining)
    (partsEq : parts = before ++ ⟨indent, .doc .line⟩ :: after) :
    (∃ rest, remaining = rest ++ ⟨indent, .doc .line⟩ :: after ∧
      Stretch meaning width column before events next rest) ∨
    ∃ earlier later last, events = earlier ++ .item (.line indent) :: later ∧
      Stretch meaning width column before earlier last [] ∧
      Stretch meaning width (max indent 0) after later next remaining := by
  induction stretch generalizing before with
  | refl => exact .inl ⟨before, partsEq, .refl _ _⟩
  | emit move _ inductionHypothesis =>
      obtain ⟨others, rfl, rfl⟩ := exists_others_of_answer partsEq move (by simp)
      rcases inductionHypothesis rfl with
        ⟨rest, restEq, stretch⟩ | ⟨earlier, later, last, rfl, stretch, behind⟩
      · exact .inl ⟨rest, restEq, .emit move stretch⟩
      · exact .inr ⟨_, later, last, rfl, .emit move stretch, behind⟩
  | newline move stretch inductionHypothesis =>
      cases before with
      | nil =>
          cases partsEq
          exact .inr ⟨[], _, _, rfl, .refl _ _, stretch⟩
      | cons part others =>
          cases partsEq
          rcases inductionHypothesis rfl with
            ⟨rest, restEq, stretch⟩ | ⟨earlier, later, last, rfl, stretch, behind⟩
          · exact .inl ⟨rest, restEq, .newline move stretch⟩
          · exact .inr ⟨_, later, last, rfl, .newline move stretch, behind⟩
  | replace move _ inductionHypothesis =>
      obtain ⟨others, rfl, rfl⟩ := exists_others_of_answer partsEq move (by simp)
      rcases inductionHypothesis (List.append_assoc ..).symm with
        ⟨rest, restEq, stretch⟩ | ⟨earlier, later, last, rfl, stretch, behind⟩
      · exact .inl ⟨rest, restEq, .replace move stretch⟩
      · exact .inr ⟨earlier, later, last, rfl, .replace move stretch, behind⟩
  | flat move fits behind inductionHypothesis =>
      obtain ⟨others, rfl, rfl⟩ := exists_others_of_answer partsEq move (by simp)
      obtain ⟨found, search, continued⟩ := fits.exists_of_continued (List.cons_append ..).symm
      cases continued with
      | passes =>
          rcases inductionHypothesis rfl with
            ⟨rest, restEq, stretch⟩ | ⟨earlier, later, last, rfl, stretch, behind⟩
          · exact .inl ⟨rest, restEq, .flat move search stretch⟩
          · refine .inr ⟨_, later, last, ?_, .flat move search stretch, behind⟩
            simp
      | reaches =>
          refine .inr ⟨_, _, _, ?_, .flat move search (.refl _ _), behind⟩
          simp
  | broken move overflows _ inductionHypothesis =>
      obtain ⟨others, rfl, rfl⟩ := exists_others_of_answer partsEq move (by simp)
      obtain ⟨found, search, continued⟩ := overflows.exists_of_continued (List.cons_append ..).symm
      obtain rfl := continued.overflows_iff.mpr rfl
      rcases inductionHypothesis (List.cons_append ..).symm with
        ⟨rest, restEq, stretch⟩ | ⟨earlier, later, last, rfl, stretch, behind⟩
      · exact .inl ⟨rest, restEq, .broken move search stretch⟩
      · exact .inr ⟨_, later, last, rfl, .broken move search stretch, behind⟩

end Stretch

/-! ## Courses -/

theorem Stops.followed {cause : Error} (stops : Stops meaning width column before (some cause))
    (indent : Int) (after : List Obligation) :
    Stops meaning width column (before ++ ⟨indent, .doc .line⟩ :: after) (some cause) := by
  cases stops with
  | undecided move fails =>
      obtain ⟨whole, search, continued⟩ := fails.exists_continued indent after
      cases continued
      exact .undecided move search
  | fails move => exact .fails move

/-- Before a line break nothing stops but a failure. -/
theorem Stops.separate
    (stops : Stops meaning width column (before ++ ⟨indent, .doc .line⟩ :: after) ending) :
    ∃ cause, ending = some cause ∧ Stops meaning width column before (some cause) := by
  generalize partsEq : before ++ ⟨indent, .doc .line⟩ :: after = parts at stops
  cases stops with
  | done => simp at partsEq
  | undecided move fails =>
      obtain ⟨others, rfl, rfl⟩ := exists_others_of_answer partsEq.symm move (by simp)
      obtain ⟨found, search, continued⟩ := fails.exists_of_continued (List.cons_append ..).symm
      cases continued
      exact ⟨_, rfl, .undecided move search⟩
  | fails move =>
      obtain ⟨others, rfl, rfl⟩ := exists_others_of_answer partsEq.symm move (by simp)
      exact ⟨_, rfl, .fails move⟩

/-- Where a course comes to its end, its stretch has left nothing over. -/
theorem Course.none_iff :
    Course meaning width column before events none ↔
      ∃ next, Stretch meaning width column before events next [] := by
  rw [Course.iff_exists_stretch]
  constructor
  · rintro ⟨next, remaining, stretch, stops⟩
    cases stops
    exact ⟨next, stretch⟩
  · rintro ⟨next, stretch⟩
    exact ⟨next, [], stretch, .done⟩

/-- The course over obligations with a line break among them is the course up to the line break, if
that fails, and otherwise the two courses with the line break between them. -/
theorem Course.separate_iff :
    Course meaning width column (before ++ ⟨indent, .doc .line⟩ :: after) events ending ↔
      (∃ cause, ending = some cause ∧ Course meaning width column before events (some cause)) ∨
      ∃ earlier later, events = earlier ++ .item (.line indent) :: later ∧
        Course meaning width column before earlier none ∧
        Course meaning width (max indent 0) after later ending := by
  constructor
  · intro course
    obtain ⟨next, remaining, stretch, stops⟩ := course.exists_stretch
    rcases stretch.separate rfl with
      ⟨rest, rfl, first⟩ | ⟨earlier, later, last, rfl, first, second⟩
    · obtain ⟨cause, rfl, firstStops⟩ := stops.separate
      exact .inl ⟨cause, rfl, iff_exists_stretch.mpr ⟨next, rest, first, firstStops⟩⟩
    · exact .inr ⟨earlier, later, rfl, none_iff.mpr ⟨last, first⟩,
        iff_exists_stretch.mpr ⟨next, remaining, second, stops⟩⟩
  · rintro (⟨cause, rfl, course⟩ | ⟨earlier, later, rfl, firstCourse, secondCourse⟩)
    · obtain ⟨next, remaining, stretch, stops⟩ := course.exists_stretch
      rcases stretch.followed indent after with same | ⟨rfl, -⟩
      · exact iff_exists_stretch.mpr ⟨next, _, same, stops.followed indent after⟩
      · cases stops
    · obtain ⟨last, stretch⟩ := none_iff.mp firstCourse
      have course := of_stretch (stretch.to_lineBreak indent after) secondCourse
      rwa [List.append_assoc] at course

/-- A stretch over obligations with a line break among them begins as one up to the line break does,
or goes on, after all that comes before the line break, as one behind it does. -/
theorem Stretch.begins_separate_iff :
    (∃ more next remaining, Stretch meaning width column (before ++ ⟨indent, .doc .line⟩ :: after)
        (events ++ more) next remaining) ↔
      (∃ more next remaining, Stretch meaning width column before (events ++ more) next
        remaining) ∨
      ∃ earlier later, events = earlier ++ .item (.line indent) :: later ∧
        Course meaning width column before earlier none ∧
        ∃ more next remaining, Stretch meaning width (max indent 0) after (later ++ more) next
          remaining := by
  constructor
  · rintro ⟨more, next, remaining, stretch⟩
    rcases stretch.separate rfl with ⟨rest, -, first⟩ | ⟨earlier, later, last, split, first, second⟩
    · exact .inl ⟨more, next, rest, first⟩
    -- The events in question end before the line break, or reach to it and maybe beyond.
    rcases List.append_eq_append_iff.mp split with
      ⟨missing, rfl, -⟩ | ⟨extra, rfl, behind⟩
    · exact .inl ⟨missing, last, [], first⟩
    · cases extra with
      | nil => exact .inl ⟨[], last, [], by simpa using first⟩
      | cons event extra =>
          cases behind
          exact .inr ⟨earlier, extra, rfl, Course.none_iff.mpr ⟨last, first⟩,
            more, next, remaining, second⟩
  · rintro (⟨more, next, remaining, stretch⟩ |
      ⟨earlier, later, rfl, course, more, next, remaining, second⟩)
    · rcases stretch.followed indent after with same | ⟨-, onward⟩
      · exact ⟨more, next, _, same⟩
      · rw [List.append_assoc] at onward
        exact ⟨_, _, _, onward⟩
    · obtain ⟨last, first⟩ := Course.none_iff.mp course
      have whole := (first.to_lineBreak indent after).trans second
      refine ⟨more, next, remaining, ?_⟩
      simpa using whole

/-! ## Documents -/

namespace Doc

/-- The obligations of a document that is one of several in a row.  The droppable blank has none. -/
def summand (indent : Int) : Doc → List Obligation
  | .blank false => []
  | document => [⟨indent, .doc document⟩]

variable {document : Doc}

theorem summand_of_ne_empty (notEmpty : document ≠ .empty) (indent : Int) :
    document.summand indent = [⟨indent, .doc document⟩] := by
  unfold summand
  split
  · exact absurd rfl notEmpty
  · rfl

end Doc

theorem Course.summand_iff (document : Doc) :
    Course meaning width column (document.summand indent) events ending ↔
      Course meaning width column [⟨indent, .doc document⟩] events ending := by
  by_cases empty : document = .empty
  · subst empty
    exact (replace_iff (Obligation.answer_blank ..)).symm
  · rw [Doc.summand_of_ne_empty empty]

/-- Two documents with a line break between them are laid out as a row of three documents. -/
theorem Course.append_line_append_iff (left right : Doc) :
    Course meaning width column [⟨indent, .doc ((left.append .line).append right)⟩] events ending ↔
      Course meaning width column (left.summand indent ++ ⟨indent, .doc .line⟩ ::
        right.summand indent) events ending := by
  have begun : ∃ opened : Doc, left.append .line = opened ∧ opened ≠ .empty ∧
      ∀ rest, Course meaning width column (⟨indent, .doc opened⟩ :: rest) events ending ↔
        Course meaning width column (left.summand indent ++ ⟨indent, .doc .line⟩ :: rest) events
          ending := by
    by_cases leftEmpty : left = .empty
    · subst leftEmpty
      exact ⟨.line, Doc.empty_append .line, by simp, fun rest => Iff.rfl⟩
    · refine ⟨_, Doc.append_of_ne_empty leftEmpty (by simp), by simp, fun rest => ?_⟩
      rw [Doc.summand_of_ne_empty leftEmpty]
      exact replace_iff (Obligation.answer_concat ..)
  obtain ⟨opened, openedEq, notEmpty, begunIff⟩ := begun
  rw [openedEq, ← begunIff]
  by_cases rightEmpty : right = .empty
  · subst rightEmpty
    rw [Doc.append_empty]
    rfl
  · rw [Doc.append_of_ne_empty notEmpty rightEmpty, Doc.summand_of_ne_empty rightEmpty]
    exact replace_iff (Obligation.answer_concat ..)

variable {σ : Type} {host : Host σ}

/-- With pure callbacks a document is printed as the text of the items of its course. -/
theorem prints_iff_exists_course (realizes : host.Realizes meaning) {style : Style}
    {document : Doc} {state : σ} {text : String} :
    Prints host style width document state text ↔
      ∃ events, Course meaning width 0 [⟨0, .doc document⟩] events none ∧
        Item.renderAll style (itemsOf events) = .ok text := by
  rw [prints_iff]
  constructor
  · rintro ⟨events, store, yields, rendered⟩
    exact ⟨events, (Walk.ends_iff_course realizes 0 _ state).mp ⟨store, yields⟩, rendered⟩
  · rintro ⟨events, course, rendered⟩
    obtain ⟨store, yields⟩ := (Walk.ends_iff_course realizes 0 _ state).mpr course
    exact ⟨events, store, yields, rendered⟩

/-- Two documents with a line break between them are printed as their texts, with a line feed
between them. -/
theorem Prints.append_line_append (realizes : host.Realizes meaning) {left right : Doc}
    {leftState rightState : σ} {leftText rightText : String}
    (leftPrints : Prints host {} width left leftState leftText)
    (rightPrints : Prints host {} width right rightState rightText) (state : σ) :
    Prints host {} width ((left.append .line).append right) state
      (leftText ++ "\n" ++ rightText) := by
  obtain ⟨events, leftCourse, leftRendered⟩ := (prints_iff_exists_course realizes).mp leftPrints
  obtain ⟨later, rightCourse, rightRendered⟩ := (prints_iff_exists_course realizes).mp rightPrints
  have course : Course meaning width 0
      (left.summand 0 ++ ⟨0, .doc .line⟩ :: right.summand 0)
      (events ++ .item (.line 0) :: later) none :=
    Course.separate_iff.mpr (.inr ⟨events, later, rfl, (Course.summand_iff left).mpr leftCourse,
      (Course.summand_iff right).mpr rightCourse⟩)
  refine (prints_iff_exists_course realizes).mpr
    ⟨_, (Course.append_line_append_iff left right).mpr course, ?_⟩
  have lineRendered : Item.renderAll {} [.line 0] = .ok "\n" := by rfl
  have rendered := Item.renderAll_append (Item.renderAll_append leftRendered lineRendered)
    rightRendered
  simpa using rendered

theorem Build.append_object (label : Nat) (left right : Identified Doc) :
    Build.append label left.object right.object = .ok (left.append label right) := rfl

/-- A line break separates what is laid out before it from what is laid out behind it, whatever
labels and whatever state the walks start with.  The walk over all of it reports what the walk over
the first part reports, and ends with it if this fails; otherwise it reports the line break, and
then what the walk over the second part reports from the column of the new line.  The same holds of
what the walks report as far as they get, also if one of them never ends.  In particular, two
documents that are both printed are printed with a line feed between their texts if they are put
together with a line break. -/
theorem lineBreak_separates (realizes : host.Realizes meaning) (width column indent : Int)
    (before after : List Obligation) (state firstState secondState : σ) :
    (∀ events ending,
      (Walk.start column (before ++ ⟨indent, .doc .line⟩ :: after) state).Ends host width events
          ending ↔
        (∃ cause, ending = some cause ∧
          (Walk.start column before firstState).Ends host width events (some cause)) ∨
        ∃ earlier later, events = earlier ++ .item (.line indent) :: later ∧
          (Walk.start column before firstState).Ends host width earlier none ∧
          (Walk.start (max indent 0) after secondState).Ends host width later ending) ∧
    (∀ events,
      (Walk.start column (before ++ ⟨indent, .doc .line⟩ :: after) state).Begins host width
          events ↔
        (Walk.start column before firstState).Begins host width events ∨
        ∃ earlier later, events = earlier ++ .item (.line indent) :: later ∧
          (Walk.start column before firstState).Ends host width earlier none ∧
          (Walk.start (max indent 0) after secondState).Begins host width later) ∧
    ∀ (label other : Nat) (left right : Identified Doc) (leftText rightText : String),
      Prints host {} width left.content firstState leftText →
      Prints host {} width right.content secondState rightText →
      ∃ row whole, Build.append label left.object ⟨.shared, .doc .line⟩ = .ok row ∧
        Build.append other row.object right.object = .ok whole ∧
        Prints host {} width whole.content state (leftText ++ "\n" ++ rightText) := by
  refine ⟨?_, ?_, ?_⟩
  · intro events ending
    simp only [Walk.ends_iff_course realizes]
    exact Course.separate_iff
  · intro events
    simp only [Walk.ends_iff_course realizes, Walk.begins_iff_exists_stretch realizes]
    exact Stretch.begins_separate_iff
  · intro label other left right leftText rightText leftPrints rightPrints
    refine ⟨_, _, Build.append_object label left ⟨.shared, .line⟩,
      Build.append_object other _ right, ?_⟩
    rw [Identified.content_append, Identified.content_append]
    exact leftPrints.append_line_append realizes rightPrints state

theorem choiceInChoice_separated :
    Meaning.steps.countingHost.Realizes .steps ∧
      (∃ events, (Walk.start 0 [⟨0, .doc .choiceInChoice⟩] 0).Ends Meaning.steps.countingHost 1
          events none ∧
        (Walk.start 0 [⟨0, .doc .choiceInChoice⟩, ⟨0, .doc .line⟩, ⟨0, .doc .choiceInChoice⟩]
            0).Ends Meaning.steps.countingHost 1 (events ++ .item (.line 0) :: events) none) ∧
      Prints Meaning.steps.countingHost {} 1 .choiceInChoice 0 " \n" ∧
      ∃ row whole,
        Build.append 1 ⟨.made 0, .doc .choiceInChoice⟩ ⟨.shared, .doc .line⟩ = .ok row ∧
        Build.append 2 row.object ⟨.made 0, .doc .choiceInChoice⟩ = .ok whole ∧
        Prints Meaning.steps.countingHost {} 1 whole.content 0 (" \n" ++ "\n" ++ " \n") := by
  have realizes := Meaning.steps.realizes_countingHost
  have ends := Walk.choiceInChoice_ends
  obtain ⟨whole, -, printed⟩ := lineBreak_separates realizes 1 0 0 [⟨0, .doc .choiceInChoice⟩]
    [⟨0, .doc .choiceInChoice⟩] 0 0 0
  have prints : Prints Meaning.steps.countingHost {} 1 .choiceInChoice 0 " \n" := by
    obtain ⟨store, yields⟩ := ends
    exact prints_iff.mpr ⟨_, store, yields, rfl⟩
  refine ⟨realizes, ⟨_, ends, (whole _ none).mpr (.inr ⟨_, _, rfl, ends, ends⟩)⟩, prints, ?_⟩
  exact printed 1 2 ⟨.made 0, .choiceInChoice⟩ ⟨.made 0, .choiceInChoice⟩ _ _ prints prints

end DocLayout
