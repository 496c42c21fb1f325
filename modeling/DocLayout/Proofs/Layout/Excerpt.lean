import DocLayout.Layout.Reading
import DocLayout.Proofs.Layout.Behavior
import DocLayout.Proofs.Layout.Reference

/-!
# Excerpts of a layout

An excerpt is what has been seen of a layout: its first items, and whether it has ended behind them.
The excerpts of obligations are given by rules that only ask, at a choice, whether the flat member
fits, and then go on with one member from the very column of the choice.  So what a search has found
and where it has ended plays no part in them, and obligations can be compared by the answers of
their searches and their excerpts alone.

The excerpts are those of the walk.  An endless layout has excerpts too, but none that has ended.
-/

namespace DocLayout

/-- First items of a layout, and how it ends behind them.  It is suspended if more may follow. -/
structure Excerpt where
  /-- The items. -/
  items : List Item
  /-- How the layout ends behind them. -/
  ending : Ending

namespace Excerpt

/-- Nothing has been seen yet. -/
abbrev nothing : Excerpt := ⟨[], .suspended⟩

/-- An excerpt behind earlier items. -/
def after (earlier : List Item) (excerpt : Excerpt) : Excerpt :=
  ⟨earlier ++ excerpt.items, excerpt.ending⟩

@[simp]
theorem after_nil (excerpt : Excerpt) : excerpt.after [] = excerpt := rfl

@[simp]
theorem after_after (excerpt : Excerpt) (first second : List Item) :
    (excerpt.after second).after first = excerpt.after (first ++ second) := by
  simp [after]

end Excerpt

/-- The whole of a layout as an excerpt. -/
def Layout.excerpt (layout : Layout) : Excerpt :=
  ⟨layout.items, layout.ending.elim .finished .failed⟩

theorem Layout.excerpt_ending_ne (layout : Layout) : layout.excerpt.ending ≠ .suspended := by
  rcases layout with ⟨items, _ | cause⟩ <;> simp [excerpt]

/-- An excerpt that has ended is a whole layout. -/
theorem Excerpt.exists_layout {excerpt : Excerpt} (ended : excerpt.ending ≠ .suspended) :
    ∃ layout : Layout, excerpt = layout.excerpt := by
  rcases excerpt with ⟨items, _ | cause | _⟩
  · exact ⟨⟨items, none⟩, rfl⟩
  · exact ⟨⟨items, some cause⟩, rfl⟩
  · exact absurd rfl ended

/-- Whether the line fits that a search lays out, or the failure that leaves this open. -/
def Answers (meaning : Meaning) (width column : Int) (parts : List Obligation)
    (answer : Except Error Bool) : Prop :=
  ∃ found, Search meaning width column parts found ∧ found.answer = answer

/-- An excerpt of what is laid out from a column with obligations. -/
inductive Shows (meaning : Meaning) (width : Int) : Int → List Obligation → Excerpt → Prop where
  | nothing {column : Int} {parts : List Obligation} : Shows meaning width column parts .nothing
  | done {column : Int} : Shows meaning width column [] ⟨[], .finished⟩
  | emit {column : Int} {part : Obligation} {rest : List Obligation} {fragment : Fragment}
      {excerpt : Excerpt} (move : part.answer meaning column = .ok (.emit fragment))
      (later : Shows meaning width (column + fragment.width) rest excerpt) :
      Shows meaning width column (part :: rest) (excerpt.after [.text fragment])
  | newline {column : Int} {part : Obligation} {rest : List Obligation} {excerpt : Excerpt}
      (move : part.answer meaning column = .ok .newline)
      (later : Shows meaning width (max part.indent 0) rest excerpt) :
      Shows meaning width column (part :: rest) (excerpt.after [.line part.indent])
  | replace {column : Int} {part : Obligation} {rest parts : List Obligation} {excerpt : Excerpt}
      (move : part.answer meaning column = .ok (.replace parts))
      (later : Shows meaning width column (parts ++ rest) excerpt) :
      Shows meaning width column (part :: rest) excerpt
  | flat {column : Int} {part : Obligation} {rest : List Obligation} {flat broken : Value}
      {excerpt : Excerpt} (move : part.answer meaning column = .ok (.choose flat broken))
      (fits : Answers meaning width column (⟨part.indent, flat⟩ :: rest) (.ok true))
      (later : Shows meaning width column (⟨part.indent, flat⟩ :: rest) excerpt) :
      Shows meaning width column (part :: rest) excerpt
  | broken {column : Int} {part : Obligation} {rest : List Obligation} {flat broken : Value}
      {excerpt : Excerpt} (move : part.answer meaning column = .ok (.choose flat broken))
      (overflows : Answers meaning width column (⟨part.indent, flat⟩ :: rest) (.ok false))
      (later : Shows meaning width column (⟨part.indent, broken⟩ :: rest) excerpt) :
      Shows meaning width column (part :: rest) excerpt
  | undecided {column : Int} {part : Obligation} {rest : List Obligation} {flat broken : Value}
      {cause : Error} (move : part.answer meaning column = .ok (.choose flat broken))
      (fails : Answers meaning width column (⟨part.indent, flat⟩ :: rest) (.error cause)) :
      Shows meaning width column (part :: rest) ⟨[], .failed cause⟩
  | fails {column : Int} {part : Obligation} {rest : List Obligation} {cause : Error}
      (move : part.answer meaning column = .error cause) :
      Shows meaning width column (part :: rest) ⟨[], .failed cause⟩

variable {meaning : Meaning} {width column next : Int} {part : Obligation}
  {parts rest remaining : List Obligation} {items : List Item} {excerpt : Excerpt}
  {answer : Except Error Bool}

/-! ## Answers -/

@[simp]
theorem Found.answer_after (found : Found) (earlier : List Item) :
    (found.after earlier).answer = found.answer := by
  cases found <;> rfl

namespace Answers

theorem of_search {found : Found} (search : Search meaning width column parts found) :
    Answers meaning width column parts found.answer :=
  ⟨found, search, rfl⟩

theorem unique {other : Except Error Bool} (answers : Answers meaning width column parts answer)
    (otherAnswers : Answers meaning width column parts other) : answer = other := by
  obtain ⟨found, search, rfl⟩ := answers
  obtain ⟨otherFound, otherSearch, rfl⟩ := otherAnswers
  rw [search.unique otherSearch]

theorem beyond_iff (exceeds : width < column) :
    Answers meaning width column parts answer ↔ answer = .ok false := by
  simp [Answers, Search.beyond_iff exceeds, Found.answer, eq_comm]

theorem emit_iff {fragment : Fragment} (move : part.answer meaning column = .ok (.emit fragment)) :
    Answers meaning width column (part :: rest) answer ↔
      Answers meaning width (column + fragment.width) rest answer := by
  by_cases within : column ≤ width
  · constructor
    · rintro ⟨_, search, rfl⟩
      obtain ⟨later, laterSearch, rfl⟩ := (Search.emit_iff within move).mp search
      rw [Found.answer_after]
      exact of_search laterSearch
    · rintro ⟨later, search, rfl⟩
      rw [← Found.answer_after later [.text fragment]]
      exact of_search (.emit within move search)
  · rw [beyond_iff (by omega), beyond_iff (by omega)]

theorem replace_iff {parts : List Obligation}
    (move : part.answer meaning column = .ok (.replace parts)) :
    Answers meaning width column (part :: rest) answer ↔
      Answers meaning width column (parts ++ rest) answer := by
  by_cases within : column ≤ width
  · simp only [Answers, Search.replace_iff within move]
  · rw [beyond_iff (by omega), beyond_iff (by omega)]

theorem choose_iff {flat broken : Value}
    (move : part.answer meaning column = .ok (.choose flat broken)) :
    Answers meaning width column (part :: rest) answer ↔
      (Answers meaning width column (⟨part.indent, flat⟩ :: rest) answer ∧ answer ≠ .ok false) ∨
      (Answers meaning width column (⟨part.indent, flat⟩ :: rest) (.ok false) ∧
        Answers meaning width column (⟨part.indent, broken⟩ :: rest) answer) := by
  by_cases within : column ≤ width
  · constructor
    · rintro ⟨found, search, rfl⟩
      rcases (Search.choose_iff within move).mp search with
        ⟨flatSearch, settled⟩ | ⟨flatSearch, brokenSearch⟩
      · exact .inl ⟨of_search flatSearch, fun overflows =>
          settled (Found.answer_eq_false_iff.mp overflows)⟩
      · exact .inr ⟨of_search flatSearch, of_search brokenSearch⟩
    · rintro (⟨⟨found, search, rfl⟩, settled⟩ | ⟨⟨_, search, overflows⟩, found, later, rfl⟩)
      · exact of_search (.flat within move search fun overflows =>
          settled (Found.answer_eq_false_iff.mpr overflows))
      · obtain rfl := Found.answer_eq_false_iff.mp overflows
        exact of_search (.broken within move search later)
  · have exceeds : width < column := by omega
    simp only [beyond_iff exceeds]
    by_cases overflows : answer = .ok false <;> simp [overflows]

end Answers

/-! ## What is shown -/

/-- A stretch from where a search starts stays within the items of the search, or goes on from where
the search ends. -/
theorem Stretch.of_fits {events : List Event} {found : Found} {middle : Int}
    {pending : List Obligation} (search : Search meaning width column parts found)
    (foundEq : found = .fits items middle pending)
    (stretch : Stretch meaning width column parts events next remaining) :
    itemsOf events <+: items ∨ ∃ later, Stretch meaning width middle pending later next remaining ∧
      itemsOf events = items ++ itemsOf later := by
  induction search generalizing events items with
  | beyond => cases foundEq
  | done =>
      cases foundEq
      exact .inr ⟨events, stretch, rfl⟩
  | @emit _ _ _ _ found _ move _ inductionHypothesis =>
      cases found with
      | fits laterItems _ _ =>
          cases foundEq
          cases stretch with
          | refl => exact .inl (List.nil_prefix ..)
          | emit sameMove later =>
              cases move.symm.trans sameMove
              rcases inductionHypothesis rfl later with within | ⟨rest, restStretch, restEq⟩
              · exact .inl (List.prefix_cons_iff.mpr (.inr ⟨_, rfl, within⟩))
              · exact .inr ⟨rest, restStretch, congrArg _ restEq⟩
          | _ => simp_all
      | _ => cases foundEq
  | newline _ move =>
      cases foundEq
      cases stretch with
      | refl => exact .inl (List.nil_prefix ..)
      | newline sameMove later => exact .inr ⟨_, later, rfl⟩
      | _ => simp_all
  | replace _ move _ inductionHypothesis =>
      cases stretch with
      | refl => exact .inl (List.nil_prefix ..)
      | replace sameMove later =>
          cases move.symm.trans sameMove
          exact inductionHypothesis foundEq later
      | _ => simp_all
  | flat _ move flatSearch settled =>
      subst foundEq
      cases stretch with
      | refl => exact .inl (List.nil_prefix ..)
      | flat sameMove fits later =>
          cases move.symm.trans sameMove
          cases flatSearch.unique fits
          exact .inr ⟨_, later, by simp⟩
      | broken sameMove overflows =>
          cases move.symm.trans sameMove
          cases flatSearch.unique overflows
      | _ => simp_all
  | broken _ move flatSearch _ _ inductionHypothesis =>
      cases stretch with
      | refl => exact .inl (List.nil_prefix ..)
      | flat sameMove fits =>
          cases move.symm.trans sameMove
          cases flatSearch.unique fits
      | broken sameMove _ later =>
          cases move.symm.trans sameMove
          have goesOn := inductionHypothesis foundEq later
          exact goesOn
      | _ => simp_all
  | fails => cases foundEq

namespace Shows

theorem replace_iff {parts : List Obligation}
    (move : part.answer meaning column = .ok (.replace parts)) :
    Shows meaning width column (part :: rest) excerpt ↔
      Shows meaning width column (parts ++ rest) excerpt := by
  constructor
  · intro shows
    cases shows with
    | nothing => exact .nothing
    | replace sameMove later =>
        cases move.symm.trans sameMove
        exact later
    | _ => simp_all
  · exact .replace move

theorem emit_iff {fragment : Fragment} (move : part.answer meaning column = .ok (.emit fragment)) :
    Shows meaning width column (part :: rest) excerpt ↔
      excerpt = .nothing ∨ ∃ later, excerpt = later.after [.text fragment] ∧
        Shows meaning width (column + fragment.width) rest later := by
  constructor
  · intro shows
    cases shows with
    | nothing => exact .inl rfl
    | emit sameMove later =>
        cases move.symm.trans sameMove
        exact .inr ⟨_, rfl, later⟩
    | _ => simp_all
  · rintro (rfl | ⟨later, rfl, shows⟩)
    · exact .nothing
    · exact .emit move shows

theorem choose_iff {flat broken : Value}
    (move : part.answer meaning column = .ok (.choose flat broken)) :
    Shows meaning width column (part :: rest) excerpt ↔
      excerpt = .nothing ∨
      (Answers meaning width column (⟨part.indent, flat⟩ :: rest) (.ok true) ∧
        Shows meaning width column (⟨part.indent, flat⟩ :: rest) excerpt) ∨
      (Answers meaning width column (⟨part.indent, flat⟩ :: rest) (.ok false) ∧
        Shows meaning width column (⟨part.indent, broken⟩ :: rest) excerpt) ∨
      ∃ cause, Answers meaning width column (⟨part.indent, flat⟩ :: rest) (.error cause) ∧
        excerpt = ⟨[], .failed cause⟩ := by
  constructor
  · intro shows
    cases shows with
    | nothing => exact .inl rfl
    | flat sameMove fits later =>
        cases move.symm.trans sameMove
        exact .inr (.inl ⟨fits, later⟩)
    | broken sameMove overflows later =>
        cases move.symm.trans sameMove
        exact .inr (.inr (.inl ⟨overflows, later⟩))
    | undecided sameMove fails =>
        cases move.symm.trans sameMove
        exact .inr (.inr (.inr ⟨_, fails, rfl⟩))
    | _ => simp_all
  · rintro (rfl | ⟨fits, later⟩ | ⟨overflows, later⟩ | ⟨cause, fails, rfl⟩)
    · exact .nothing
    · exact .flat move fits later
    · exact .broken move overflows later
    · exact .undecided move fails

/-- Fewer items are shown as well. -/
theorem shortened {fewer : List Item} (shows : Shows meaning width column parts excerpt)
    (isPrefix : fewer <+: excerpt.items) :
    Shows meaning width column parts ⟨fewer, .suspended⟩ := by
  induction shows generalizing fewer with
  | nothing | done | undecided | fails =>
      rw [List.prefix_nil.mp isPrefix]
      exact .nothing
  | emit move _ inductionHypothesis =>
      rcases List.prefix_cons_iff.mp isPrefix with rfl | ⟨items, rfl, restPrefix⟩
      · exact .nothing
      · exact .emit move (inductionHypothesis restPrefix)
  | newline move _ inductionHypothesis =>
      rcases List.prefix_cons_iff.mp isPrefix with rfl | ⟨items, rfl, restPrefix⟩
      · exact .nothing
      · exact .newline move (inductionHypothesis restPrefix)
  | replace move _ inductionHypothesis => exact .replace move (inductionHypothesis isPrefix)
  | flat move fits _ inductionHypothesis => exact .flat move fits (inductionHypothesis isPrefix)
  | broken move overflows _ inductionHypothesis =>
      exact .broken move overflows (inductionHypothesis isPrefix)

/-- What is shown from where a search ends is shown behind its items. -/
theorem of_fits {found : Found} (search : Search meaning width column parts found)
    (foundEq : found = .fits items next remaining)
    (later : Shows meaning width next remaining excerpt) :
    Shows meaning width column parts (excerpt.after items) := by
  induction search generalizing items with
  | beyond => cases foundEq
  | done =>
      cases foundEq
      exact later
  | @emit _ _ _ _ found _ move _ inductionHypothesis =>
      cases found with
      | fits laterItems _ _ =>
          cases foundEq
          rw [← Excerpt.after_after]
          exact .emit move (inductionHypothesis rfl)
      | _ => cases foundEq
  | newline _ move =>
      cases foundEq
      exact .newline move later
  | replace _ move _ inductionHypothesis => exact .replace move (inductionHypothesis foundEq)
  | flat _ move flatSearch _ inductionHypothesis =>
      subst foundEq
      exact .flat move (.of_search flatSearch) (inductionHypothesis rfl)
  | broken _ move flatSearch _ _ inductionHypothesis =>
      exact .broken move (.of_search flatSearch) (inductionHypothesis foundEq)
  | fails => cases foundEq

/-- What is shown from where a stretch leads to is shown behind its items. -/
theorem of_stretch {events : List Event}
    (stretch : Stretch meaning width column parts events next remaining)
    (later : Shows meaning width next remaining excerpt) :
    Shows meaning width column parts (excerpt.after (itemsOf events)) := by
  induction stretch with
  | refl => exact later
  | emit move _ inductionHypothesis => exact .emit move (inductionHypothesis later)
  | newline move _ inductionHypothesis => exact .newline move (inductionHypothesis later)
  | replace move _ inductionHypothesis => exact .replace move (inductionHypothesis later)
  | flat move fits _ inductionHypothesis =>
      rw [itemsOf_decision_cons, itemsOf_append, itemsOf_map_item, ← Excerpt.after_after]
      exact .flat move (.of_search fits) (of_fits fits rfl (inductionHypothesis later))
  | broken move overflows _ inductionHypothesis =>
      rw [itemsOf_decision_cons]
      exact .broken move (.of_search overflows) (inductionHypothesis later)

theorem of_stops {ending : Option Error} (stops : Stops meaning width column parts ending) :
    Shows meaning width column parts ⟨[], ending.elim .finished .failed⟩ := by
  cases stops with
  | done => exact .done
  | undecided move fails => exact .undecided move (.of_search fails)
  | fails move => exact .fails move

/-- What is shown up to an end is a whole course. -/
theorem exists_course {ending : Option Error} (shows : Shows meaning width column parts excerpt)
    (ended : excerpt.ending = ending.elim .finished .failed) :
    ∃ events, Course meaning width column parts events ending ∧
      itemsOf events = excerpt.items := by
  induction shows with
  | nothing => cases ending <;> cases ended
  | done =>
      cases ending <;> cases ended
      exact ⟨[], .done, rfl⟩
  | emit move _ inductionHypothesis =>
      obtain ⟨events, course, itemsEq⟩ := inductionHypothesis ended
      exact ⟨_, .emit move course, congrArg _ itemsEq⟩
  | newline move _ inductionHypothesis =>
      obtain ⟨events, course, itemsEq⟩ := inductionHypothesis ended
      exact ⟨_, .newline move course, congrArg _ itemsEq⟩
  | replace move _ inductionHypothesis =>
      obtain ⟨events, course, itemsEq⟩ := inductionHypothesis ended
      exact ⟨events, .replace move course, itemsEq⟩
  | flat move fits _ inductionHypothesis =>
      obtain ⟨events, course, itemsEq⟩ := inductionHypothesis ended
      obtain ⟨found, search, foundEq⟩ := fits
      obtain ⟨taken, next, remaining, rfl⟩ := Found.answer_eq_true_iff.mp foundEq
      -- The walk takes the items over, so its course goes on where the search ends.
      obtain ⟨later, laterCourse, laterEq⟩ := course.of_fits search rfl
      refine ⟨_, .flat move search laterCourse, ?_⟩
      rw [itemsOf_decision_cons, itemsOf_append, itemsOf_map_item, ← laterEq, itemsEq]
  | broken move overflows _ inductionHypothesis =>
      obtain ⟨events, course, itemsEq⟩ := inductionHypothesis ended
      obtain ⟨found, search, foundEq⟩ := overflows
      obtain rfl := Found.answer_eq_false_iff.mp foundEq
      exact ⟨_, .broken move search course, itemsEq⟩
  | undecided move fails =>
      cases ending <;> cases ended
      obtain ⟨found, search, foundEq⟩ := fails
      obtain rfl := Found.answer_eq_error_iff.mp foundEq
      exact ⟨[], .undecided move search, rfl⟩
  | fails move =>
      cases ending <;> cases ended
      exact ⟨[], .fails move, rfl⟩

/-- What is shown comes first on some stretch. -/
theorem exists_stretch (shows : Shows meaning width column parts excerpt) :
    ∃ events next remaining, Stretch meaning width column parts events next remaining ∧
      excerpt.items <+: itemsOf events := by
  induction shows with
  | nothing | done | undecided | fails => exact ⟨[], _, _, .refl _ _, List.prefix_rfl⟩
  | emit move _ inductionHypothesis =>
      obtain ⟨events, next, remaining, stretch, isPrefix⟩ := inductionHypothesis
      exact ⟨_, next, remaining, .emit move stretch,
        List.prefix_cons_iff.mpr (.inr ⟨_, rfl, isPrefix⟩)⟩
  | newline move _ inductionHypothesis =>
      obtain ⟨events, next, remaining, stretch, isPrefix⟩ := inductionHypothesis
      exact ⟨_, next, remaining, .newline move stretch,
        List.prefix_cons_iff.mpr (.inr ⟨_, rfl, isPrefix⟩)⟩
  | replace move _ inductionHypothesis =>
      obtain ⟨events, next, remaining, stretch, isPrefix⟩ := inductionHypothesis
      exact ⟨events, next, remaining, .replace move stretch, isPrefix⟩
  | flat move fits _ inductionHypothesis =>
      obtain ⟨events, next, remaining, stretch, isPrefix⟩ := inductionHypothesis
      obtain ⟨found, search, foundEq⟩ := fits
      obtain ⟨taken, middle, pending, rfl⟩ := Found.answer_eq_true_iff.mp foundEq
      rcases stretch.of_fits search rfl with within | ⟨later, laterStretch, laterEq⟩
      · refine ⟨_, _, _, .flat move search (.refl _ _), ?_⟩
        simpa using isPrefix.trans within
      · refine ⟨_, _, _, .flat move search laterStretch, ?_⟩
        simpa [laterEq] using isPrefix
  | broken move overflows _ inductionHypothesis =>
      obtain ⟨events, next, remaining, stretch, isPrefix⟩ := inductionHypothesis
      obtain ⟨found, search, foundEq⟩ := overflows
      obtain rfl := Found.answer_eq_false_iff.mp foundEq
      exact ⟨_, next, remaining, .broken move search stretch, isPrefix⟩

/-- Where a layout ends, the search from there has an answer. -/
theorem exists_answers (shows : Shows meaning width column parts excerpt)
    (ended : excerpt.ending ≠ .suspended) :
    ∃ answer, Answers meaning width column parts answer := by
  have of_within {column : Int} {parts : List Obligation}
      (answered : column ≤ width → ∃ answer, Answers meaning width column parts answer) :
      ∃ answer, Answers meaning width column parts answer := by
    by_cases within : column ≤ width
    · exact answered within
    · exact ⟨_, .of_search (.beyond (by omega))⟩
  induction shows with
  | nothing => exact absurd rfl ended
  | done => exact of_within fun within => ⟨_, .of_search (.done within)⟩
  | emit move _ inductionHypothesis =>
      obtain ⟨answer, answers⟩ := inductionHypothesis ended
      exact ⟨answer, (Answers.emit_iff move).mpr answers⟩
  | newline move => exact of_within fun within => ⟨_, .of_search (.newline within move)⟩
  | replace move _ inductionHypothesis =>
      obtain ⟨answer, answers⟩ := inductionHypothesis ended
      exact ⟨answer, (Answers.replace_iff move).mpr answers⟩
  | flat move fits => exact ⟨_, (Answers.choose_iff move).mpr (.inl ⟨fits, by simp⟩)⟩
  | broken move overflows _ inductionHypothesis =>
      obtain ⟨answer, answers⟩ := inductionHypothesis ended
      exact ⟨answer, (Answers.choose_iff move).mpr (.inr ⟨overflows, answers⟩)⟩
  | undecided move fails => exact ⟨_, (Answers.choose_iff move).mpr (.inl ⟨fails, by simp⟩)⟩
  | fails move => exact of_within fun within => ⟨_, .of_search (.fails within move)⟩

/-- Where a search fails, the layout fails with the same cause. -/
theorem of_answers_error {cause : Error}
    (fails : Answers meaning width column parts (.error cause)) :
    ∃ items, Shows meaning width column parts ⟨items, .failed cause⟩ := by
  obtain ⟨found, search, foundEq⟩ := fails
  obtain rfl := Found.answer_eq_error_iff.mp foundEq
  clear foundEq
  generalize foundEq : Found.fails cause = found at search
  induction search with
  | beyond | done | newline => cases foundEq
  | @emit _ _ _ _ found _ move _ inductionHypothesis =>
      cases found with
      | fails =>
          cases foundEq
          obtain ⟨items, shows⟩ := inductionHypothesis rfl
          exact ⟨_, .emit move shows⟩
      | _ => cases foundEq
  | replace _ move _ inductionHypothesis =>
      obtain ⟨items, shows⟩ := inductionHypothesis foundEq
      exact ⟨items, .replace move shows⟩
  | flat _ move flatSearch =>
      subst foundEq
      exact ⟨[], .undecided move (.of_search flatSearch)⟩
  | broken _ move flatSearch _ _ inductionHypothesis =>
      obtain ⟨items, shows⟩ := inductionHypothesis foundEq
      exact ⟨items, .broken move (.of_search flatSearch) shows⟩
  | fails _ move =>
      cases foundEq
      exact ⟨[], .fails move⟩

theorem complete_iff_exists_course {layout : Layout} :
    Shows meaning width column parts layout.excerpt ↔
      ∃ events, Course meaning width column parts events layout.ending ∧
        itemsOf events = layout.items := by
  constructor
  · intro shows
    exact shows.exists_course rfl
  · rintro ⟨events, course, itemsEq⟩
    obtain ⟨next, remaining, stretch, stops⟩ := course.exists_stretch
    have shows := of_stretch stretch (of_stops stops)
    rw [Excerpt.after, itemsEq, List.append_nil] at shows
    exact shows

/-- At most one whole layout is shown. -/
theorem layout_unique {layout other : Layout}
    (shows : Shows meaning width column parts layout.excerpt)
    (otherShows : Shows meaning width column parts other.excerpt) : layout = other := by
  obtain ⟨events, course, itemsEq⟩ := complete_iff_exists_course.mp shows
  obtain ⟨otherEvents, otherCourse, otherItemsEq⟩ := complete_iff_exists_course.mp otherShows
  obtain ⟨rfl, endingEq⟩ := course.unique otherCourse
  rcases layout with ⟨items, ending⟩
  rcases other with ⟨otherItems, otherEnding⟩
  cases endingEq
  exact congrArg (Layout.mk · _) (itemsEq.symm.trans otherItemsEq)

theorem unique_of_ended {other : Excerpt} (shows : Shows meaning width column parts excerpt)
    (otherShows : Shows meaning width column parts other) (ended : excerpt.ending ≠ .suspended)
    (otherEnded : other.ending ≠ .suspended) : excerpt = other := by
  obtain ⟨layout, rfl⟩ := Excerpt.exists_layout ended
  obtain ⟨otherLayout, rfl⟩ := Excerpt.exists_layout otherEnded
  rw [layout_unique shows otherShows]

theorem suspended_iff_exists_stretch :
    Shows meaning width column parts ⟨items, .suspended⟩ ↔
      ∃ events next remaining, Stretch meaning width column parts events next remaining ∧
        items <+: itemsOf events := by
  constructor
  · exact exists_stretch
  · rintro ⟨events, next, remaining, stretch, isPrefix⟩
    exact (of_stretch stretch .nothing).shortened (by simpa [Excerpt.after] using isPrefix)

end Shows

/-! ## Walks -/

namespace Walk

variable {σ : Type} {host : Host σ}

/-- Items are the first ones that a walk emits, whether it ever ends or not. -/
def Opens (host : Host σ) (width : Int) (walk : Walk σ) (items : List Item) : Prop :=
  ∃ events, walk.Begins host width events ∧ items <+: itemsOf events

/-- A walk emits a layout exactly if all of it is shown. -/
theorem emits_iff_shows (realizes : host.Realizes meaning) (column : Int)
    (parts : List Obligation) (state : σ) {layout : Layout} :
    (start column parts state).Emits host width layout ↔
      Shows meaning width column parts layout.excerpt := by
  rw [Shows.complete_iff_exists_course]
  simp only [← ends_iff_course realizes column parts state]
  constructor
  · rintro ⟨events, store, yields, itemsEq⟩
    exact ⟨events, ⟨store, yields⟩, itemsEq⟩
  · rintro ⟨events, ⟨store, yields⟩, itemsEq⟩
    exact ⟨events, store, yields, itemsEq⟩

/-- A walk emits items first exactly if they are shown. -/
theorem opens_iff_shows (realizes : host.Realizes meaning) (column : Int)
    (parts : List Obligation) (state : σ) :
    (start column parts state).Opens host width items ↔
      Shows meaning width column parts ⟨items, .suspended⟩ := by
  rw [Shows.suspended_iff_exists_stretch]
  simp only [Opens, begins_iff_exists_stretch realizes]
  constructor
  · rintro ⟨events, ⟨later, next, remaining, stretch⟩, isPrefix⟩
    refine ⟨events ++ later, next, remaining, stretch, isPrefix.trans ?_⟩
    rw [itemsOf_append]
    exact List.prefix_append ..
  · rintro ⟨events, next, remaining, stretch, isPrefix⟩
    refine ⟨events, ⟨[], next, remaining, ?_⟩, isPrefix⟩
    rwa [List.append_nil]

end Walk

end DocLayout
