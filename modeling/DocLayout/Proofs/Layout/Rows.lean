import DocLayout.Proofs.Layout.Behavior
import DocLayout.Proofs.Layout.Path

/-!
# Rows of a layout

The events of a walk fall into rows: one for every line of output, with the items of the line and
the decisions on choices that are met while the line is built.

A walk fills its rows greedily.  It takes the flat member of a choice only if the row then ends
within the width, and it ends the row, or the document, before it decides on another choice.  So in
each row all decisions but the last are for the broken member, and if the last one is for the flat
member, the row ends within the width.
-/

namespace DocLayout

/-- The decision that an event reports, if it reports one. -/
def Event.decision? : Event → Option Decision
  | .decision made => some made
  | .item _ => none

/-- A line of output: the column that it starts at, and the events while it is built. -/
structure Row where
  /-- The column of the first item. -/
  start : Int
  /-- The decisions and the text items, in order. -/
  events : List Event

namespace Row

/-- A row of which nothing has been built. -/
def opened (column : Int) : Row := ⟨column, []⟩

/-- The decisions on choices that are met in a row. -/
def decisions (row : Row) : List Decision :=
  row.events.filterMap Event.decision?

/-- The column that a row ends at. -/
def finish (row : Row) : Int :=
  Item.columnAfter row.start (itemsOf row.events)

/-- A row with a further event. -/
def add (row : Row) (event : Event) : Row :=
  ⟨row.start, row.events ++ [event]⟩

/-- The row that is being built after an event. -/
def next (row : Row) : Event → Row
  | .item (.line indent) => opened (max indent 0)
  | .item (.text fragment) => row.add (.item (.text fragment))
  | .decision made => row.add (.decision made)

/-- The row that is being built after events. -/
def after (row : Row) (events : List Event) : Row :=
  events.foldl next row

/-- The rows that are ended by line breaks among events. -/
def ended (row : Row) : List Event → List Row
  | [] => []
  | .item (.line indent) :: events => row :: (opened (max indent 0)).ended events
  | .item (.text fragment) :: events => (row.add (.item (.text fragment))).ended events
  | .decision made :: events => (row.add (.decision made)).ended events

/-- All rows of events, the first one of which may have been begun before. -/
def all (row : Row) (events : List Event) : List Row :=
  row.ended events ++ [row.after events]

/-- No choice in a row is laid out flat. -/
def AllBroken (row : Row) : Prop :=
  ∀ made ∈ row.decisions, made.flat = false

/-- Only the last choice in a row may be laid out flat, and then the row ends within the width. -/
structure Greedy (width : Int) (row : Row) : Prop where
  broken : ∀ made ∈ row.decisions.dropLast, made.flat = false
  fits : ∀ made ∈ row.decisions.getLast?, made.flat = true → row.finish ≤ width

variable {width : Int} (row : Row) (events : List Event)

@[simp]
theorem decisions_opened (column : Int) : (opened column).decisions = [] := rfl

@[simp]
theorem decisions_add_item (item : Item) : (row.add (.item item)).decisions = row.decisions := by
  simp [decisions, add, Event.decision?]

@[simp]
theorem decisions_add_decision (made : Decision) :
    (row.add (.decision made)).decisions = row.decisions ++ [made] := by
  simp [decisions, add, Event.decision?]

@[simp]
theorem finish_opened (column : Int) : (opened column).finish = column := rfl

theorem finish_next (event : Event) :
    (row.next event).finish = Item.columnAfter row.finish (itemsOf [event]) := by
  cases event with
  | decision made => simp [next, add, finish]
  | item item =>
      cases item with
      | text fragment => simp [next, add, finish]
      | line indent => rfl

theorem finish_after :
    (row.after events).finish = Item.columnAfter row.finish (itemsOf events) := by
  induction events generalizing row with
  | nil => rfl
  | cons event events inductionHypothesis =>
      change ((row.next event).after events).finish = _
      rw [inductionHypothesis, finish_next, ← Item.columnAfter_append, ← itemsOf_append]
      rfl

theorem after_append (later : List Event) :
    row.after (events ++ later) = (row.after events).after later :=
  List.foldl_append

theorem ended_append (later : List Event) :
    row.ended (events ++ later) = row.ended events ++ (row.after events).ended later := by
  induction events generalizing row with
  | nil => rfl
  | cons event events inductionHypothesis =>
      cases event with
      | decision made => exact inductionHypothesis (row.add (.decision made))
      | item item =>
          cases item with
          | text fragment => exact inductionHypothesis (row.add (.item (.text fragment)))
          | line indent => exact congrArg (row :: ·) (inductionHypothesis (opened (max indent 0)))

theorem all_append (later : List Event) :
    row.all (events ++ later) = row.ended events ++ (row.after events).all later := by
  rw [all, all, ended_append, after_append, List.append_assoc]

/-- Events without a line break stay in their row. -/
theorem after_of_unbroken (unbroken : ∀ indent, Event.item (.line indent) ∉ events) :
    row.ended events = [] ∧ row.after events = ⟨row.start, row.events ++ events⟩ := by
  induction events generalizing row with
  | nil => exact ⟨rfl, by simp [after]⟩
  | cons event events inductionHypothesis =>
      have laterUnbroken : ∀ indent, Event.item (.line indent) ∉ events :=
        fun indent member => unbroken indent (List.mem_cons_of_mem event member)
      have later := inductionHypothesis (row.add event) laterUnbroken
      rw [add, List.append_assoc, List.singleton_append] at later
      cases event with
      | decision made => exact later
      | item item =>
          cases item with
          | text fragment => exact later
          | line indent => exact absurd List.mem_cons_self (unbroken indent)

/-- The first row of events has the decisions of the row that was begun before, and maybe more. -/
theorem exists_mem_all : ∃ whole ∈ row.all events, row.decisions <+: whole.decisions := by
  induction events generalizing row with
  | nil => exact ⟨row, by simp [all, ended, after], List.prefix_rfl⟩
  | cons event events inductionHypothesis =>
      cases event with
      | decision made =>
          obtain ⟨whole, wholeMem, begins⟩ := inductionHypothesis (row.add (.decision made))
          rw [decisions_add_decision] at begins
          exact ⟨whole, wholeMem, (List.prefix_append _ _).trans begins⟩
      | item item =>
          cases item with
          | text fragment =>
              obtain ⟨whole, wholeMem, begins⟩ :=
                inductionHypothesis (row.add (.item (.text fragment)))
              rw [decisions_add_item] at begins
              exact ⟨whole, wholeMem, begins⟩
          | line indent => exact ⟨row, by simp [all, ended], List.prefix_rfl⟩

variable {row events}

theorem AllBroken.greedy (broken : row.AllBroken) : row.Greedy width where
  broken made member := broken made (List.dropLast_subset _ member)
  fits made member flat := by
    rw [broken made (List.mem_of_mem_getLast? member)] at flat
    cases flat

/-- In a row that exceeds the width no choice is laid out flat. -/
theorem Greedy.allBroken (greedy : row.Greedy width) (exceeds : width < row.finish) :
    row.AllBroken := by
  intro made member
  by_cases last : row.decisions.getLast? = some made
  · cases flat : made.flat with
    | false => rfl
    | true =>
        have within := greedy.fits made last flat
        omega
  · apply greedy.broken made
    have nonempty := List.ne_nil_of_mem member
    rw [← List.dropLast_concat_getLast nonempty, List.mem_append, List.mem_singleton] at member
    rcases member with old | rfl
    · exact old
    · exact absurd (List.getLast?_eq_some_getLast nonempty) last

/-- Between a choice that is laid out flat and the next choice there is a line break. -/
theorem exists_line_between (greedy : ∀ done ∈ row.all events, done.Greedy width)
    {earlier between later : List Event} {first second : Decision}
    (eventsEq : events = earlier ++ .decision first :: between ++ .decision second :: later)
    (flat : first.flat = true) : ∃ indent, Event.item (.line indent) ∈ between := by
  by_cases found : ∃ indent, Event.item (.line indent) ∈ between
  · exact found
  have unbroken : ∀ indent, Event.item (.line indent) ∉
      .decision first :: between ++ [.decision second] := by
    intro indent member
    simp at member
    exact found ⟨indent, member⟩
  obtain ⟨-, afterEq⟩ := after_of_unbroken (row.after earlier) _ unbroken
  -- Both decisions are in one row, in which the first one is not the last one.
  obtain ⟨whole, wholeMem, more, wholeEq⟩ := exists_mem_all
    ((row.after earlier).after (.decision first :: between ++ [.decision second])) later
  have wholeGreedy : whole.Greedy width := by
    apply greedy
    have split : events =
        earlier ++ ((.decision first :: between ++ [.decision second]) ++ later) := by
      simp [eventsEq]
    rw [split, all_append, all_append]
    exact List.mem_append_right _ (List.mem_append_right _ wholeMem)
  have decisionsEq : whole.decisions = (row.after earlier).decisions ++
      first :: (between.filterMap Event.decision? ++ second :: more) := by
    rw [← wholeEq, afterEq]
    simp [decisions, Event.decision?]
  have early : first ∈ whole.decisions.dropLast := by
    rw [decisionsEq, List.dropLast_append_of_ne_nil (by simp),
      List.dropLast_cons_of_ne_nil (by simp)]
    simp
  rw [wholeGreedy.broken first early] at flat
  cases flat

/-- If the flat member of a choice fills the row, the row is greedy, and it ends before anything
else is decided. -/
theorem AllBroken.of_fillsLine (broken : row.AllBroken) {made : Decision} {items : List Item}
    {rest : Work} (fills : Probe.FillsLine width row.finish items rest) :
    (∀ done ∈ row.ended (.decision made :: items.map .item), done.Greedy width) ∧
      ((row.after (.decision made :: items.map .item)).AllBroken ∨
        (row.after (.decision made :: items.map .item)).Greedy width ∧ rest = []) := by
  obtain ⟨texts, within, shape⟩ := fills
  obtain ⟨noneEnded, afterEq⟩ :=
    after_of_unbroken (row.add (.decision made)) ((texts.map Item.text).map .item) (by simp)
  have filled :
      ((row.add (.decision made)).after ((texts.map Item.text).map .item)).Greedy width := by
    constructor
    · have noDecision : ((texts.map Item.text).map Event.item).filterMap Event.decision? = [] := by
        simp [Event.decision?]
      rw [afterEq, decisions, List.filterMap_append, noDecision, List.append_nil]
      change ∀ other ∈ (row.add (.decision made)).decisions.dropLast, _
      rw [decisions_add_decision, List.dropLast_concat]
      exact broken
    · intro _ _ _
      have finishEq : (row.add (.decision made)).finish = row.finish :=
        finish_next row (.decision made)
      rw [finish_after, itemsOf_map_item, finishEq]
      exact within
  rcases shape with ⟨rfl, restEq⟩ | ⟨indent, rfl⟩
  · constructor
    · intro done member
      rw [ended, noneEnded] at member
      cases member
    · exact .inr ⟨filled, restEq⟩
  · rw [List.map_append]
    constructor
    · intro done member
      rw [ended, ended_append, noneEnded] at member
      obtain rfl := List.mem_singleton.mp member
      exact filled
    · left
      simp [after, next, AllBroken]

end Row

namespace Walk

variable {σ : Type} {host : Host σ} {width column : Int} {parts : List Obligation}
  {walk next last : Walk σ} {events later : List Event}

/-- The rows of a walk so far are greedy.  If a choice in the row that is being built has been laid
out flat, nothing is left to be laid out. -/
structure FillsRows (width column : Int) (events : List Event) (walk : Walk σ) : Prop where
  ended : ∀ row ∈ (Row.opened column).ended events, row.Greedy width
  current : ((Row.opened column).after events).AllBroken ∨
    ((Row.opened column).after events).Greedy width ∧ walk.AtEnd

theorem FillsRows.append {more : List Event} (fills : walk.FillsRows width column events)
    (moreEnded : ∀ row ∈ ((Row.opened column).after events).ended more, row.Greedy width)
    (current : (((Row.opened column).after events).after more).AllBroken ∨
      (((Row.opened column).after events).after more).Greedy width ∧ next.AtEnd) :
    next.FillsRows width column (events ++ more) where
  ended := by
    rw [Row.ended_append]
    exact List.forall_mem_append.mpr ⟨fills.ended, moreEnded⟩
  current := by
    rw [Row.after_append]
    exact current

/-- A single move ends a row in which no choice is laid out flat, or leaves it as it is. -/
theorem allBroken_of_follow {row : Row} (broken : row.AllBroken) {here indent : Int} {rest : Work}
    {store : Store σ} {state : σ} {outcome : Except Error Move}
    (step : follow here indent rest store state outcome = .next later next) :
    (∀ done ∈ row.ended later, done.Greedy width) ∧ (row.after later).AllBroken := by
  cases outcome with
  | error cause => cases step
  | ok move =>
      cases move with
      | emit fragment =>
          cases step
          constructor
          · simp [Row.ended]
          · simpa [Row.after, Row.next, Row.AllBroken] using broken
      | newline =>
          cases step
          constructor
          · simpa [Row.ended] using broken.greedy
          · simp [Row.after, Row.next, Row.AllBroken]
      | choose flat brokenValue =>
          cases step
          exact ⟨by simp [Row.ended], broken⟩
      | replace replacement =>
          cases step
          exact ⟨by simp [Row.ended], broken⟩

/-- A step goes on to fill the rows. -/
theorem FillsRows.of_step (fills : walk.FillsRows width column events)
    (onPath : walk.OnPath host column parts (itemsOf events))
    (step : walk.step host width = .next later next) :
    next.FillsRows width column (events ++ later) := by
  have broken : ((Row.opened column).after events).AllBroken := by
    rcases fills.current with broken | ⟨-, atEnd⟩
    · exact broken
    · obtain ⟨store, ends⟩ := atEnd_iff_exists_finished.mp atEnd
      rw [ends] at step
      cases step
  cases walk with
  | walking position store =>
      cases workEq : position.work with
      | nil => simp [Walk.step, workEq] at step
      | cons cell rest =>
          obtain ⟨state, stepEq⟩ := step_of_cons host width store workEq
          obtain ⟨moreEnded, stillBroken⟩ := allBroken_of_follow broken (stepEq ▸ step)
          exact fills.append moreEnded (.inl stillBroken)
  | probing here brokenPart rest probe =>
      cases probeStep : probe.step host width with
      | running following =>
          rw [step_of_running probeStep] at step
          cases step
          exact fills.append (by simp [Row.ended]) (.inl broken)
      | halted verdict =>
          rw [step_of_halted probeStep] at step
          cases verdict with
          | fits found position kept =>
              cases step
              have filled := (onPath.2.of_fits probeStep).2
              have finishEq := Row.finish_after (Row.opened column) events
              rw [Row.finish_opened] at finishEq
              rw [← finishEq] at filled
              obtain ⟨moreEnded, current⟩ := broken.of_fillsLine filled
              exact fills.append moreEnded current
          | overflows kept =>
              cases step
              apply fills.append (by simp [Row.ended])
              left
              simpa [Row.after, Row.next, Row.AllBroken, or_imp, forall_and] using broken
          | fails cause kept => cases step

/-- A run fills its rows. -/
theorem FillsRows.of_run (run : Run (Walk.step host width) walk later last)
    (fills : walk.FillsRows width column events)
    (onPath : walk.OnPath host column parts (itemsOf events)) :
    last.FillsRows width column (events ++ later) := by
  induction run generalizing events with
  | refl => simpa using fills
  | head first _ inductionHypothesis =>
      have onPathLater := onPath.of_step first
      rw [← itemsOf_append] at onPathLater
      have filled := inductionHypothesis (fills.of_step onPath first) onPathLater
      rwa [List.append_assoc] at filled

theorem fillsRows_of_run {state : σ}
    (run : Run (Walk.step host width) (start column parts state) events last) :
    last.FillsRows width column events := by
  have fills : (start column parts state).FillsRows width column [] := by
    constructor
    · simp [Row.ended]
    · left
      simp [Row.after, Row.AllBroken]
  exact fills.of_run run (onPath_start host column parts state)

end Walk

/-- A walk fills its rows greedily, wherever it starts and as far as it gets.  In each row only the
last choice may be laid out flat, and then the row ends within the width; in a row that exceeds the
width no choice is laid out flat.  After a choice that is laid out flat there is a line break before
the next choice, or nothing is left to be laid out. -/
theorem rows_filled_greedily {σ : Type} {host : Host σ} {width column : Int}
    {parts : List Obligation} {state : σ} {events : List Event} {walk : Walk σ}
    (run : Walk.Run (Walk.step host width) (Walk.start column parts state) events walk) :
    (∀ row ∈ (Row.opened column).all events,
      (∀ made ∈ row.decisions.dropLast, made.flat = false) ∧
      (∀ made ∈ row.decisions.getLast?, made.flat = true → row.finish ≤ width) ∧
      (width < row.finish → ∀ made ∈ row.decisions, made.flat = false)) ∧
    (∀ earlier first between second later,
      events = earlier ++ .decision first :: between ++ .decision second :: later →
      first.flat = true → ∃ indent, Event.item (.line indent) ∈ between) ∧
    ((∃ made ∈ ((Row.opened column).after events).decisions, made.flat = true) →
      ∃ store, walk.step host width = .finished store) := by
  have fills := Walk.fillsRows_of_run run
  have greedy : ∀ row ∈ (Row.opened column).all events, row.Greedy width := by
    apply List.forall_mem_append.mpr ⟨fills.ended, ?_⟩
    rcases fills.current with broken | ⟨greedy, -⟩
    · exact List.forall_mem_singleton.mpr broken.greedy
    · exact List.forall_mem_singleton.mpr greedy
  refine ⟨?_, ?_, ?_⟩
  · intro row member
    exact ⟨(greedy row member).broken, (greedy row member).fits, (greedy row member).allBroken⟩
  · intro earlier first between second later eventsEq flat
    exact Row.exists_line_between greedy eventsEq flat
  · rintro ⟨made, member, flat⟩
    rcases fills.current with broken | ⟨-, atEnd⟩
    · rw [broken made member] at flat
      cases flat
    · exact Walk.atEnd_iff_exists_finished.mp atEnd

/-- Two spaces, or else a choice between a space and a line break, and another line break. -/
def Doc.choiceInChoice : Doc :=
  .union ⟨.shared, .doc (.concat .space .space)⟩
    ⟨.shared, .doc (.concat (.union ⟨.shared, .doc .space⟩ ⟨.shared, .doc .line⟩) .line)⟩

/-- Within one column the outer choice is broken, and then the inner one is laid out flat. -/
theorem Course.of_choiceInChoice : Course .steps 1 0 [⟨0, .doc .choiceInChoice⟩]
    [.decision ⟨0, 0, false⟩, .decision ⟨0, 0, true⟩, .item (.text .space), .item (.line 0)]
    none := by
  have atStart : (0 : Int) ≤ 1 := by decide
  have afterSpace : (0 : Int) + Fragment.space.width ≤ 1 := by decide
  have exceeds : (1 : Int) < 0 + Fragment.space.width + Fragment.space.width := by decide
  have twoSpaces : Search .steps 1 0 [⟨0, .doc (.concat .space .space)⟩]
      (Found.overflows.after [.text .space]) :=
    .replace atStart (Obligation.answer_concat ..) (.emit atStart (Obligation.answer_text ..)
      (.emit afterSpace (Obligation.answer_text ..) (.beyond exceeds)))
  have spaceThenLine : Search .steps 1 0 [⟨0, .doc .space⟩, ⟨0, .doc .line⟩]
      (.after [.text .space] (.fits [.line 0] (max 0 0) [])) :=
    .emit atStart (Obligation.answer_text ..) (.newline afterSpace (Obligation.answer_line ..))
  have inner : Course .steps 1 0
      [⟨0, .doc (.union ⟨.shared, .doc .space⟩ ⟨.shared, .doc .line⟩)⟩, ⟨0, .doc .line⟩]
      (.decision ⟨0, 0, true⟩ :: ([Item.text .space, .line 0].map .item ++ [])) none :=
    .flat (Obligation.answer_union ..) spaceThenLine .done
  exact .broken (Obligation.answer_union ..) twoSpaces
    (.replace (Obligation.answer_concat ..) inner)

theorem Walk.choiceInChoice_ends :
    (Walk.start 0 [⟨0, .doc .choiceInChoice⟩] 0).Ends Meaning.steps.countingHost 1
      [.decision ⟨0, 0, false⟩, .decision ⟨0, 0, true⟩, .item (.text .space), .item (.line 0)]
      none :=
  (ends_iff_course Meaning.steps.realizes_countingHost 0 _ 0).mpr Course.of_choiceInChoice

theorem choiceInChoice_filled_greedily :
    ∃ walk, Walk.Run (Walk.step Meaning.steps.countingHost 1)
        (Walk.start 0 [⟨0, .doc .choiceInChoice⟩] 0)
        [.decision ⟨0, 0, false⟩, .decision ⟨0, 0, true⟩, .item (.text .space), .item (.line 0)]
        walk ∧
      ∀ row ∈ [Row.mk 0 [.decision ⟨0, 0, false⟩, .decision ⟨0, 0, true⟩, .item (.text .space)],
          Row.opened 0],
        (∀ made ∈ row.decisions.dropLast, made.flat = false) ∧
        (∀ made ∈ row.decisions.getLast?, made.flat = true → row.finish ≤ 1) := by
  obtain ⟨store, walk, run, -⟩ := Walk.choiceInChoice_ends
  obtain ⟨greedy, -, -⟩ := rows_filled_greedily run
  exact ⟨walk, run, fun row member => ⟨(greedy row member).1, (greedy row member).2.1⟩⟩

end DocLayout
