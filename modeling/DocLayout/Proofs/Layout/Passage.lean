import DocLayout.Proofs.Layout.Denotation
import DocLayout.Proofs.Layout.Excerpt

/-!
# Passages

A walk takes the items of a probe over and goes on where the probe has ended.  A passage goes the
same way move by move: at every choice it asks whether the flat member fits, and goes on with one of
the members from the column of the choice.  So it comes to every place that something is laid out
at, and it reports the decisions on all choices, those that a probe has made included.

From one place there is one way to go.  A walk emits the items of the passage that stops where the
walk ends, and every passage is a path.  What a walk reports is what is met on the passage, except
for the decisions on a row that a probe has found to fit: of these only the one is reported that the
probe was asked for.
-/

namespace DocLayout

/-- What a walk reports of the events on a passage.  While it is on a row that a probe has found to
fit, it reports no decisions; this goes on to the next line break. -/
def reportedOf : Bool → List Event → List Event
  | _, [] => []
  | probed, .item (.text fragment) :: events =>
      .item (.text fragment) :: reportedOf probed events
  | _, .item (.line indent) :: events => .item (.line indent) :: reportedOf false events
  | true, .decision _ :: events => reportedOf true events
  | false, .decision made :: events => .decision made :: reportedOf made.flat events

/-- All items are reported. -/
@[simp]
theorem itemsOf_reportedOf (probed : Bool) (events : List Event) :
    itemsOf (reportedOf probed events) = itemsOf events := by
  induction events generalizing probed with
  | nil => cases probed <;> rfl
  | cons event events inductionHypothesis =>
      cases event with
      | item emitted =>
          cases emitted with
          | text fragment => exact congrArg (.text fragment :: ·) (inductionHypothesis probed)
          | line indent => exact congrArg (.line indent :: ·) (inductionHypothesis false)
      | decision made =>
          cases probed with
          | false => exact inductionHypothesis made.flat
          | true => exact inductionHypothesis true

/-- Some moves of a layout, with the items and all decisions on the way, and the place that they
lead to. -/
inductive Passage (meaning : Meaning) (width : Int) :
    Int → List Obligation → List Event → Int → List Obligation → Prop where
  | refl (column : Int) (parts : List Obligation) :
      Passage meaning width column parts [] column parts
  | emit {column next : Int} {part : Obligation} {rest remaining : List Obligation}
      {fragment : Fragment} {events : List Event}
      (move : part.answer meaning column = .ok (.emit fragment))
      (later : Passage meaning width (column + fragment.width) rest events next remaining) :
      Passage meaning width column (part :: rest) (.item (.text fragment) :: events) next remaining
  | newline {column next : Int} {part : Obligation} {rest remaining : List Obligation}
      {events : List Event} (move : part.answer meaning column = .ok .newline)
      (later : Passage meaning width (max part.indent 0) rest events next remaining) :
      Passage meaning width column (part :: rest) (.item (.line part.indent) :: events) next
        remaining
  | replace {column next : Int} {part : Obligation} {rest remaining parts : List Obligation}
      {events : List Event} (move : part.answer meaning column = .ok (.replace parts))
      (later : Passage meaning width column (parts ++ rest) events next remaining) :
      Passage meaning width column (part :: rest) events next remaining
  | flat {column next : Int} {part : Obligation} {rest remaining : List Obligation}
      {flat broken : Value} {events : List Event}
      (move : part.answer meaning column = .ok (.choose flat broken))
      (fits : Answers meaning width column (⟨part.indent, flat⟩ :: rest) (.ok true))
      (later : Passage meaning width column (⟨part.indent, flat⟩ :: rest) events next remaining) :
      Passage meaning width column (part :: rest)
        (.decision ⟨part.indent, column, true⟩ :: events) next remaining
  | broken {column next : Int} {part : Obligation} {rest remaining : List Obligation}
      {flat broken : Value} {events : List Event}
      (move : part.answer meaning column = .ok (.choose flat broken))
      (overflows : Answers meaning width column (⟨part.indent, flat⟩ :: rest) (.ok false))
      (later : Passage meaning width column (⟨part.indent, broken⟩ :: rest) events next
        remaining) :
      Passage meaning width column (part :: rest)
        (.decision ⟨part.indent, column, false⟩ :: events) next remaining

namespace Passage

variable {meaning : Meaning} {width column middle next : Int}
  {parts pending remaining : List Obligation} {events laterEvents : List Event}

theorem trans (passage : Passage meaning width column parts events middle pending)
    (later : Passage meaning width middle pending laterEvents next remaining) :
    Passage meaning width column parts (events ++ laterEvents) next remaining := by
  induction passage with
  | refl => exact later
  | emit move _ inductionHypothesis => exact .emit move (inductionHypothesis later)
  | newline move _ inductionHypothesis => exact .newline move (inductionHypothesis later)
  | replace move _ inductionHypothesis => exact .replace move (inductionHypothesis later)
  | flat move fits _ inductionHypothesis => exact .flat move fits (inductionHypothesis later)
  | broken move overflows _ inductionHypothesis =>
      exact .broken move overflows (inductionHypothesis later)

/-- From the end no passage leads any further. -/
theorem nil_iff :
    Passage meaning width column [] events next remaining ↔
      events = [] ∧ next = column ∧ remaining = [] := by
  constructor
  · intro passage
    cases passage
    exact ⟨rfl, rfl, rfl⟩
  · rintro ⟨rfl, rfl, rfl⟩
    exact .refl _ _

/-- Of two passages from one place, one goes on from where the other one leads. -/
theorem linear (passage : Passage meaning width column parts events middle pending)
    (other : Passage meaning width column parts laterEvents next remaining) :
    (∃ between, Passage meaning width middle pending between next remaining ∧
      laterEvents = events ++ between) ∨
    ∃ between, Passage meaning width next remaining between middle pending ∧
      events = laterEvents ++ between := by
  induction passage generalizing laterEvents with
  | refl => exact .inl ⟨_, other, rfl⟩
  | emit move later inductionHypothesis =>
      cases other with
      | refl => exact .inr ⟨_, .emit move later, rfl⟩
      | emit sameMove otherLater =>
          cases move.symm.trans sameMove
          simpa using inductionHypothesis otherLater
      | _ => simp_all
  | newline move later inductionHypothesis =>
      cases other with
      | refl => exact .inr ⟨_, .newline move later, rfl⟩
      | newline sameMove otherLater => simpa using inductionHypothesis otherLater
      | _ => simp_all
  | replace move later inductionHypothesis =>
      cases other with
      | refl => exact .inr ⟨_, .replace move later, rfl⟩
      | replace sameMove otherLater =>
          cases move.symm.trans sameMove
          exact inductionHypothesis otherLater
      | _ => simp_all
  | flat move fits later inductionHypothesis =>
      cases other with
      | refl => exact .inr ⟨_, .flat move fits later, rfl⟩
      | flat sameMove _ otherLater =>
          cases move.symm.trans sameMove
          simpa using inductionHypothesis otherLater
      | broken sameMove overflows =>
          cases move.symm.trans sameMove
          cases fits.unique overflows
      | _ => simp_all
  | broken move overflows later inductionHypothesis =>
      cases other with
      | refl => exact .inr ⟨_, .broken move overflows later, rfl⟩
      | flat sameMove fits =>
          cases move.symm.trans sameMove
          cases fits.unique overflows
      | broken sameMove _ otherLater =>
          cases move.symm.trans sameMove
          simpa using inductionHypothesis otherLater
      | _ => simp_all

/-- Where one passage leads to the end, any other one can be continued to the end. -/
theorem exists_continuation (passage : Passage meaning width column parts events middle pending)
    (whole : Passage meaning width column parts laterEvents next []) :
    ∃ between, Passage meaning width middle pending between next [] ∧
      laterEvents = events ++ between := by
  rcases passage.linear whole with goesOn | ⟨between, back, rfl⟩
  · exact goesOn
  · obtain ⟨rfl, rfl, rfl⟩ := nil_iff.mp back
    exact ⟨[], .refl _ _, by simp⟩

/-- A passage is a path. -/
theorem path (passage : Passage meaning width column parts events next remaining) :
    Path meaning.host column parts (itemsOf events) next remaining := by
  induction passage with
  | refl => exact .refl _ _
  | emit move _ inductionHypothesis => exact .emit ⟨(), move⟩ inductionHypothesis
  | newline move _ inductionHypothesis => exact .newline ⟨(), move⟩ inductionHypothesis
  | replace move _ inductionHypothesis => exact .replace ⟨(), move⟩ inductionHypothesis
  | flat move _ _ inductionHypothesis => exact .flat ⟨(), move⟩ inductionHypothesis
  | broken move _ _ inductionHypothesis => exact .broken ⟨(), move⟩ inductionHypothesis

/-- On a passage the rest is arrived at, and what has been emitted by then is how the first
obligations are laid out. -/
def Arrives (meaning : Meaning) (width column : Int) (parts rest : List Obligation)
    (events : List Event) (next : Int) (remaining : List Obligation) : Prop :=
  ∃ own middle later, Passage meaning width column (parts ++ rest) own middle rest ∧
    Passage meaning width middle rest later next remaining ∧ events = own ++ later ∧
    LaysAll meaning column parts (itemsOf own) middle

theorem Arrives.of_nil {rest : List Obligation}
    (passage : Passage meaning width column pending events next remaining)
    (pendingEq : pending = [] ++ rest) :
    Arrives meaning width column [] rest events next remaining := by
  subst pendingEq
  exact ⟨[], column, events, .refl _ _, passage, rfl, .nil⟩

/-- A passage to the end arrives at every rest. -/
theorem arrives {whole rest : List Obligation}
    (passage : Passage meaning width column whole events next remaining)
    (wholeEq : whole = parts ++ rest) (ended : remaining = []) :
    Arrives meaning width column parts rest events next remaining := by
  induction passage generalizing parts with
  | refl =>
      subst ended
      obtain ⟨rfl, rfl⟩ := List.append_eq_nil_iff.mp wholeEq.symm
      exact .of_nil (.refl _ _) rfl
  | emit move passage inductionHypothesis =>
      cases parts with
      | nil => exact .of_nil (.emit move passage) wholeEq
      | cons part parts =>
          obtain ⟨rfl, rfl⟩ := List.cons_eq_cons.mp wholeEq
          obtain ⟨own, middle, later, comes, goes, rfl, lays⟩ := inductionHypothesis rfl ended
          exact ⟨_, middle, later, .emit move comes, goes, rfl,
            .cons (.of_answer move ⟨rfl, rfl⟩) lays⟩
  | newline move passage inductionHypothesis =>
      cases parts with
      | nil => exact .of_nil (.newline move passage) wholeEq
      | cons part parts =>
          obtain ⟨rfl, rfl⟩ := List.cons_eq_cons.mp wholeEq
          obtain ⟨own, middle, later, comes, goes, rfl, lays⟩ := inductionHypothesis rfl ended
          exact ⟨_, middle, later, .newline move comes, goes, rfl,
            .cons (.of_answer move ⟨rfl, rfl⟩) lays⟩
  | @replace _ _ _ _ _ made _ move passage inductionHypothesis =>
      cases parts with
      | nil => exact .of_nil (.replace move passage) wholeEq
      | cons part parts =>
          obtain ⟨rfl, rfl⟩ := List.cons_eq_cons.mp wholeEq
          obtain ⟨own, middle, later, comes, goes, rfl, lays⟩ :=
            inductionHypothesis (List.append_assoc made parts rest).symm ended
          rw [List.append_assoc] at comes
          obtain ⟨first, second, between, itemsEq, laysMade, laysParts⟩ :=
            laysAll_append_iff.mp lays
          refine ⟨own, middle, later, .replace move comes, goes, rfl, ?_⟩
          rw [itemsEq]
          exact .cons (.of_answer move laysMade) laysParts
  | flat move fits passage inductionHypothesis =>
      cases parts with
      | nil => exact .of_nil (.flat move fits passage) wholeEq
      | cons part parts =>
          obtain ⟨rfl, rfl⟩ := List.cons_eq_cons.mp wholeEq
          obtain ⟨own, middle, later, comes, goes, rfl, lays⟩ :=
            inductionHypothesis List.cons_append.symm ended
          obtain ⟨first, second, between, itemsEq, laysFlat, laysParts⟩ := laysAll_cons_iff.mp lays
          refine ⟨_, middle, later, .flat move fits comes, goes, rfl, ?_⟩
          rw [itemsOf_decision_cons, itemsEq]
          exact .cons (.of_answer move (.inl laysFlat)) laysParts
  | broken move overflows passage inductionHypothesis =>
      cases parts with
      | nil => exact .of_nil (.broken move overflows passage) wholeEq
      | cons part parts =>
          obtain ⟨rfl, rfl⟩ := List.cons_eq_cons.mp wholeEq
          obtain ⟨own, middle, later, comes, goes, rfl, lays⟩ :=
            inductionHypothesis List.cons_append.symm ended
          obtain ⟨first, second, between, itemsEq, laysBroken, laysParts⟩ :=
            laysAll_cons_iff.mp lays
          refine ⟨_, middle, later, .broken move overflows comes, goes, rfl, ?_⟩
          rw [itemsOf_decision_cons, itemsEq]
          exact .cons (.of_answer move (.inr laysBroken)) laysParts

/-- What is shown from where a passage leads is shown behind its items. -/
theorem shows (passage : Passage meaning width column parts events next remaining)
    {excerpt : Excerpt} (later : Shows meaning width next remaining excerpt) :
    Shows meaning width column parts (excerpt.after (itemsOf events)) := by
  induction passage with
  | refl => exact later
  | emit move _ inductionHypothesis => exact .emit move (inductionHypothesis later)
  | newline move _ inductionHypothesis => exact .newline move (inductionHypothesis later)
  | replace move _ inductionHypothesis => exact .replace move (inductionHypothesis later)
  | flat move fits _ inductionHypothesis => exact .flat move fits (inductionHypothesis later)
  | broken move overflows _ inductionHypothesis =>
      exact .broken move overflows (inductionHypothesis later)

end Passage

namespace Shows

variable {meaning : Meaning} {width column : Int} {parts : List Obligation}

/-- What is shown lies on a passage, which stops there if the layout has ended. -/
theorem exists_passage {excerpt : Excerpt} (shows : Shows meaning width column parts excerpt) :
    ∃ events next remaining, Passage meaning width column parts events next remaining ∧
      itemsOf events = excerpt.items ∧
      ∀ ending : Option Error, excerpt.ending = ending.elim .finished .failed →
        Stops meaning width next remaining ending := by
  induction shows with
  | nothing =>
      refine ⟨[], _, _, .refl _ _, rfl, fun ending ended => ?_⟩
      cases ending <;> cases ended
  | done =>
      refine ⟨[], _, _, .refl _ _, rfl, fun ending ended => ?_⟩
      cases ending <;> cases ended
      exact .done
  | emit move _ inductionHypothesis =>
      obtain ⟨events, next, remaining, passage, itemsEq, stops⟩ := inductionHypothesis
      exact ⟨_, next, remaining, .emit move passage, congrArg _ itemsEq, stops⟩
  | newline move _ inductionHypothesis =>
      obtain ⟨events, next, remaining, passage, itemsEq, stops⟩ := inductionHypothesis
      exact ⟨_, next, remaining, .newline move passage, congrArg _ itemsEq, stops⟩
  | replace move _ inductionHypothesis =>
      obtain ⟨events, next, remaining, passage, itemsEq, stops⟩ := inductionHypothesis
      exact ⟨_, next, remaining, .replace move passage, itemsEq, stops⟩
  | flat move fits _ inductionHypothesis =>
      obtain ⟨events, next, remaining, passage, itemsEq, stops⟩ := inductionHypothesis
      exact ⟨_, next, remaining, .flat move fits passage, itemsEq, stops⟩
  | broken move overflows _ inductionHypothesis =>
      obtain ⟨events, next, remaining, passage, itemsEq, stops⟩ := inductionHypothesis
      exact ⟨_, next, remaining, .broken move overflows passage, itemsEq, stops⟩
  | undecided move fails =>
      refine ⟨[], _, _, .refl _ _, rfl, fun ending ended => ?_⟩
      cases ending <;> cases ended
      obtain ⟨found, search, foundEq⟩ := fails
      obtain rfl := Found.answer_eq_error_iff.mp foundEq
      exact .undecided move search
  | fails move =>
      refine ⟨[], _, _, .refl _ _, rfl, fun ending ended => ?_⟩
      cases ending <;> cases ended
      exact .fails move

end Shows

/-! ## Walks -/

variable {meaning : Meaning} {width column middle next : Int}
  {parts pending remaining : List Obligation} {items : List Item} {events : List Event}
  {ending : Option Error}

/-- Where a search fits, a passage leads to where it ends.  Of this passage the items are reported,
and then everything that comes behind it as if there had been no probe.  A search that has come to
the end has nothing behind it. -/
theorem Search.exists_passage {found : Found} (search : Search meaning width column parts found)
    (foundEq : found = .fits items next remaining) :
    ∃ met, Passage meaning width column parts met next remaining ∧
      ∀ later, (remaining = [] → later = []) →
        reportedOf true (met ++ later) = items.map .item ++ reportedOf false later := by
  induction search generalizing items with
  | beyond => cases foundEq
  | done =>
      cases foundEq
      refine ⟨[], .refl _ _, fun later nothing => ?_⟩
      rw [nothing rfl]
      rfl
  | @emit _ _ _ _ found _ move _ inductionHypothesis =>
      cases found with
      | fits laterItems _ _ =>
          cases foundEq
          obtain ⟨met, passage, reports⟩ := inductionHypothesis rfl
          exact ⟨_, .emit move passage,
            fun later behind => congrArg (_ :: ·) (reports later behind)⟩
      | _ => cases foundEq
  | newline _ move =>
      cases foundEq
      exact ⟨_, .newline move (.refl _ _), fun later _ => rfl⟩
  | replace _ move _ inductionHypothesis =>
      obtain ⟨met, passage, reports⟩ := inductionHypothesis foundEq
      exact ⟨_, .replace move passage, reports⟩
  | flat _ move flatSearch _ inductionHypothesis =>
      subst foundEq
      obtain ⟨met, passage, reports⟩ := inductionHypothesis rfl
      exact ⟨_, .flat move (.of_search flatSearch) passage, reports⟩
  | broken _ move flatSearch _ _ inductionHypothesis =>
      obtain ⟨met, passage, reports⟩ := inductionHypothesis foundEq
      exact ⟨_, .broken move (.of_search flatSearch) passage, reports⟩
  | fails => cases foundEq

/-- What a walk reports on a stretch is what is reported of a passage. -/
theorem Stretch.exists_passage
    (stretch : Stretch meaning width column parts events next remaining) :
    ∃ met, Passage meaning width column parts met next remaining ∧
      reportedOf false met = events := by
  induction stretch with
  | refl => exact ⟨[], .refl _ _, rfl⟩
  | emit move _ inductionHypothesis =>
      obtain ⟨met, passage, reports⟩ := inductionHypothesis
      exact ⟨_, .emit move passage, congrArg (_ :: ·) reports⟩
  | newline move _ inductionHypothesis =>
      obtain ⟨met, passage, reports⟩ := inductionHypothesis
      exact ⟨_, .newline move passage, congrArg (_ :: ·) reports⟩
  | replace move _ inductionHypothesis =>
      obtain ⟨met, passage, reports⟩ := inductionHypothesis
      exact ⟨_, .replace move passage, reports⟩
  | flat move fits _ inductionHypothesis =>
      obtain ⟨met, passage, reports⟩ := inductionHypothesis
      -- The walk takes over the items of the probe, and the passage goes the way of the probe.
      obtain ⟨probed, probedPassage, probedReports⟩ := fits.exists_passage rfl
      refine ⟨_, .flat move (.of_search fits) (probedPassage.trans passage), ?_⟩
      rw [reportedOf, probedReports met, reports]
      rintro rfl
      exact (Passage.nil_iff.mp passage).1
  | broken move overflows _ inductionHypothesis =>
      obtain ⟨met, passage, reports⟩ := inductionHypothesis
      exact ⟨_, .broken move (.of_search overflows) passage, congrArg (_ :: ·) reports⟩

/-- What is reported of a passage comes first on a stretch from where the passage starts.  If a
search from there fits, then it comes first behind the items of the search, too. -/
theorem Passage.exists_stretch
    (passage : Passage meaning width column parts events next remaining) :
    (∃ told last rest, Stretch meaning width column parts told last rest ∧
      reportedOf false events <+: told) ∧
    ∀ {items middle pending}, Search meaning width column parts (.fits items middle pending) →
      ∃ told last rest, Stretch meaning width middle pending told last rest ∧
        reportedOf true events <+: items.map .item ++ told := by
  induction passage with
  | refl =>
      exact ⟨⟨[], _, _, .refl _ _, List.prefix_rfl⟩,
        fun _ => ⟨[], _, _, .refl _ _, List.nil_prefix⟩⟩
  | emit move _ inductionHypothesis =>
      obtain ⟨⟨told, last, rest, stretch, isPrefix⟩, probed⟩ := inductionHypothesis
      refine ⟨⟨_, last, rest, .emit move stretch, (List.prefix_cons_inj _).mpr isPrefix⟩, ?_⟩
      intro items middle pending search
      obtain ⟨found, later, foundEq⟩ := (Search.emit_iff search.within_of_fits move).mp search
      cases found with
      | fits laterItems _ _ =>
          cases foundEq
          obtain ⟨told, last, rest, stretch, isPrefix⟩ := probed later
          exact ⟨told, last, rest, stretch, (List.prefix_cons_inj _).mpr isPrefix⟩
      | _ => cases foundEq
  | newline move _ inductionHypothesis =>
      obtain ⟨⟨told, last, rest, stretch, isPrefix⟩, -⟩ := inductionHypothesis
      refine ⟨⟨_, last, rest, .newline move stretch, (List.prefix_cons_inj _).mpr isPrefix⟩, ?_⟩
      intro items middle pending search
      cases (Search.newline_iff search.within_of_fits move).mp search
      exact ⟨told, last, rest, stretch, (List.prefix_cons_inj _).mpr isPrefix⟩
  | replace move _ inductionHypothesis =>
      obtain ⟨⟨told, last, rest, stretch, isPrefix⟩, probed⟩ := inductionHypothesis
      refine ⟨⟨told, last, rest, .replace move stretch, isPrefix⟩, fun search => ?_⟩
      exact probed ((Search.replace_iff search.within_of_fits move).mp search)
  | flat move fits _ inductionHypothesis =>
      -- The walk leaps to where the search ends, with the items of the search.
      obtain ⟨-, probed⟩ := inductionHypothesis
      constructor
      · obtain ⟨found, search, foundEq⟩ := fits
        obtain ⟨items, middle, pending, rfl⟩ := Found.answer_eq_true_iff.mp foundEq
        obtain ⟨told, last, rest, stretch, isPrefix⟩ := probed search
        exact ⟨_, last, rest, .flat move search stretch, (List.prefix_cons_inj _).mpr isPrefix⟩
      · intro items middle pending search
        rcases (Search.choose_iff search.within_of_fits move).mp search with
          ⟨flatSearch, -⟩ | ⟨overflows, -⟩
        · exact probed flatSearch
        · cases fits.unique (.of_search overflows)
  | broken move overflows _ inductionHypothesis =>
      obtain ⟨⟨told, last, rest, stretch, isPrefix⟩, probed⟩ := inductionHypothesis
      constructor
      · obtain ⟨found, search, foundEq⟩ := overflows
        obtain rfl := Found.answer_eq_false_iff.mp foundEq
        exact ⟨_, last, rest, .broken move search stretch, (List.prefix_cons_inj _).mpr isPrefix⟩
      · intro items middle pending search
        rcases (Search.choose_iff search.within_of_fits move).mp search with
          ⟨flatSearch, -⟩ | ⟨-, brokenSearch⟩
        · cases overflows.unique (.of_search flatSearch)
        · exact probed brokenSearch

/-- From where a layout stops no passage leads any further. -/
theorem Stops.passage_iff (stops : Stops meaning width column parts ending) :
    Passage meaning width column parts events next remaining ↔
      events = [] ∧ next = column ∧ remaining = parts := by
  constructor
  · intro passage
    cases stops with
    | done => exact Passage.nil_iff.mp passage
    | undecided move fails =>
        cases passage with
        | refl => exact ⟨rfl, rfl, rfl⟩
        | flat sameMove fits =>
            cases move.symm.trans sameMove
            cases fits.unique (.of_search fails)
        | broken sameMove overflows =>
            cases move.symm.trans sameMove
            cases overflows.unique (.of_search fails)
        | _ => simp_all
    | fails move =>
        cases passage with
        | refl => exact ⟨rfl, rfl, rfl⟩
        | _ => simp_all
  · rintro ⟨rfl, rfl, rfl⟩
    exact .refl _ _

/-- At most one passage comes to where the layout stops. -/
theorem Passage.unique_of_stops {met : List Event} {otherEnding : Option Error}
    (passage : Passage meaning width column parts events middle pending)
    (stops : Stops meaning width middle pending ending)
    (other : Passage meaning width column parts met next remaining)
    (otherStops : Stops meaning width next remaining otherEnding) : met = events := by
  rcases passage.linear other with ⟨between, goesOn, rfl⟩ | ⟨between, goesOn, rfl⟩
  · obtain ⟨rfl, -, -⟩ := stops.passage_iff.mp goesOn
    exact List.append_nil events
  · obtain ⟨rfl, -, -⟩ := otherStops.passage_iff.mp goesOn
    exact (List.append_nil met).symm

namespace Walk

variable {σ : Type} {host : Host σ}

/-- A walk emits a layout exactly if a passage with these items stops as the layout ends. -/
theorem emits_iff_exists_passage (realizes : host.Realizes meaning) (column : Int)
    (parts : List Obligation) (state : σ) {layout : Layout} :
    (start column parts state).Emits host width layout ↔
      ∃ events next remaining, Passage meaning width column parts events next remaining ∧
        Stops meaning width next remaining layout.ending ∧ itemsOf events = layout.items := by
  rw [emits_iff_shows realizes]
  constructor
  · intro shows
    obtain ⟨events, next, remaining, passage, itemsEq, stops⟩ := shows.exists_passage
    exact ⟨events, next, remaining, passage, stops layout.ending rfl, itemsEq⟩
  · rintro ⟨events, next, remaining, passage, stops, itemsEq⟩
    have shows := passage.shows (Shows.of_stops stops)
    rw [Excerpt.after, itemsEq, List.append_nil] at shows
    exact shows

/-- A walk that ends reports what is reported of the passage to where it stops. -/
theorem ends_iff_exists_passage (realizes : host.Realizes meaning) (column : Int)
    (parts : List Obligation) (state : σ) :
    (start column parts state).Ends host width events ending ↔
      ∃ met next remaining, Passage meaning width column parts met next remaining ∧
        Stops meaning width next remaining ending ∧ reportedOf false met = events := by
  constructor
  · intro ends
    obtain ⟨next, remaining, stretch, stops⟩ :=
      ((ends_iff_course realizes column parts state).mp ends).exists_stretch
    obtain ⟨met, passage, reports⟩ := stretch.exists_passage
    exact ⟨met, next, remaining, passage, stops, reports⟩
  · rintro ⟨met, next, remaining, passage, stops, rfl⟩
    obtain ⟨events, store, yields, -⟩ := (emits_iff_exists_passage realizes column parts state).mpr
      ⟨met, next, remaining, passage, stops, (rfl : _ = (⟨_, ending⟩ : Layout).items)⟩
    have course := (ends_iff_course realizes column parts state).mp ⟨store, yields⟩
    obtain ⟨last, rest, stretch, lastStops⟩ := course.exists_stretch
    obtain ⟨other, otherPassage, rfl⟩ := stretch.exists_passage
    rw [← passage.unique_of_stops stops otherPassage lastStops]
    exact ⟨store, yields⟩

/-- What a walk begins with comes first among what is reported of a passage. -/
theorem begins_iff_exists_passage (realizes : host.Realizes meaning) (column : Int)
    (parts : List Obligation) (state : σ) :
    (start column parts state).Begins host width events ↔
      ∃ met next remaining, Passage meaning width column parts met next remaining ∧
        events <+: reportedOf false met := by
  rw [begins_iff_exists_stretch realizes]
  constructor
  · rintro ⟨later, next, remaining, stretch⟩
    obtain ⟨met, passage, reports⟩ := stretch.exists_passage
    exact ⟨met, next, remaining, passage, later, reports.symm⟩
  · rintro ⟨met, next, remaining, passage, isPrefix⟩
    obtain ⟨⟨told, last, rest, stretch, toldPrefix⟩, -⟩ := passage.exists_stretch
    obtain ⟨later, rfl⟩ := isPrefix.trans toldPrefix
    exact ⟨later, last, rest, stretch⟩

end Walk

end DocLayout
