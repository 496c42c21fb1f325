import DocLayout.Proofs.Layout.Ledger
import DocLayout.Proofs.Layout.Onward

/-!
# What a search notes leads back

A descent goes from one position to another on the same line.  It passes positions one by one, and
at each choice it takes a member: the choices at which this is the flat one are noted, each with how
many items had been emitted and how many positions had been passed by then.

At every step of a search, its ledger is the record of a descent from where it started to where it
is now.  The flat member is taken at the open choices, and the broken one at the choices that have
been passed and given up.  So what is noted of an open choice tells apart the descent to this
choice, which is all that is kept to resume with the broken member, from the descent from the flat
member on, which is all that is given up.

Nothing is assumed of the host or of the memory: a descent takes moves that are made in some state
of the host.
-/

namespace DocLayout

open Progress

variable {σ : Type} {host : Host σ} {width : Int}

namespace Position

/-- There is a choice at a position: at a second position its flat member is next, and at a third
one its broken member. -/
inductive Offers (host : Host σ) : Position → Position → Position → Prop where
  | intro {column : Int} {cell : Cell} {rest : Work} {flat broken : Value}
      (mayMove : cell.obligation.MayMove host column (.choose flat broken)) (label other : Nat) :
      Offers host ⟨column, cell :: rest⟩
        ⟨column, Work.push label [⟨cell.obligation.indent, flat⟩] rest⟩
        ⟨column, Work.push other [⟨cell.obligation.indent, broken⟩] rest⟩

/-- From a position the way proceeds to another one on the same line, and some items are emitted.
At a choice it is the broken member that is taken. -/
inductive Proceeds (host : Host σ) : Position → List Item → Position → Prop where
  | onward {column : Int} {cell : Cell} {rest : Work} {move : Move} {emitted : List Item}
      {parts : List Obligation} (mayMove : cell.obligation.MayMove host column move)
      (onward : move.Onward emitted parts) (label : Nat) :
      Proceeds host ⟨column, cell :: rest⟩ emitted
        ⟨Item.columnAfter column emitted, Work.push label parts rest⟩
  | broken {choice flat broken : Position} (offers : choice.Offers host flat broken) :
      Proceeds host choice [] broken

theorem Proceeds.exists_texts {here next : Position} {emitted : List Item}
    (proceeds : here.Proceeds host emitted next) :
    (∃ texts : List Fragment, emitted = texts.map .text) ∧
      next.column = Item.columnAfter here.column emitted := by
  cases proceeds with
  | onward _ onward _ =>
      cases onward with
      | emit fragment => exact ⟨⟨[fragment], rfl⟩, rfl⟩
      | replace parts => exact ⟨⟨[], rfl⟩, rfl⟩
  | broken offers =>
      cases offers
      exact ⟨⟨[], rfl⟩, rfl⟩

end Position

/-- A way from an origin to another position on the same line: the items emitted, the positions
passed, and the choices at which the flat member is taken, last first.  Of each of these choices it
is noted how many items had been emitted, how many positions had been passed, its own included, and
where the broken member would have led.  At all other choices the broken member is taken. -/
inductive Descent (host : Host σ) (origin : Position) :
    List Item → List Position → List Bookmark → Position → Prop where
  | refl : Descent host origin [] [] [] origin
  | proceed {items emitted : List Item} {trail : List Position} {bookmarks : List Bookmark}
      {here next : Position} (before : Descent host origin items trail bookmarks here)
      (proceeds : here.Proceeds host emitted next) :
      Descent host origin (items ++ emitted) (trail ++ [here]) bookmarks next
  | flat {items : List Item} {trail : List Position} {bookmarks : List Bookmark}
      {choice flat broken : Position} (before : Descent host origin items trail bookmarks choice)
      (offers : choice.Offers host flat broken) :
      Descent host origin items (trail ++ [choice])
        (⟨items.length, trail.length + 1, broken⟩ :: bookmarks) flat

namespace Descent

variable {origin position here : Position} {items : List Item} {trail passed : List Position}
  {bookmarks later earlier : List Bookmark} {bookmark : Bookmark}

theorem broken {choice flat broken : Position}
    (before : Descent host origin items trail bookmarks choice)
    (offers : choice.Offers host flat broken) :
    Descent host origin items (trail ++ [choice]) bookmarks broken := by
  simpa using before.proceed (.broken offers)

/-- Only text is emitted on the way, and the column is the one behind it. -/
theorem exists_texts (descent : Descent host origin items trail bookmarks position) :
    (∃ texts : List Fragment, items = texts.map .text) ∧
      position.column = Item.columnAfter origin.column items := by
  induction descent with
  | refl => exact ⟨⟨[], rfl⟩, rfl⟩
  | proceed _ proceeds inductionHypothesis =>
      obtain ⟨⟨texts, rfl⟩, columnEq⟩ := inductionHypothesis
      obtain ⟨⟨more, rfl⟩, nextEq⟩ := proceeds.exists_texts
      refine ⟨⟨texts ++ more, List.map_append.symm⟩, ?_⟩
      rw [nextEq, columnEq, Item.columnAfter_append]
  | flat _ offers inductionHypothesis =>
      cases offers
      exact inductionHypothesis

/-- No more is noted of a choice than there is. -/
theorem bounded (descent : Descent host origin items trail bookmarks position) :
    ∀ bookmark ∈ bookmarks,
      bookmark.emitted ≤ items.length ∧ bookmark.passed ≤ trail.length := by
  induction descent with
  | refl => exact List.forall_mem_nil _
  | proceed _ _ inductionHypothesis =>
      intro bookmark member
      obtain ⟨emitted, passed⟩ := inductionHypothesis bookmark member
      simp only [List.length_append]
      exact ⟨Nat.le_add_right_of_le emitted, Nat.le_add_right_of_le passed⟩
  | flat _ _ inductionHypothesis =>
      refine List.forall_mem_cons.mpr ⟨by simp, fun bookmark member => ?_⟩
      obtain ⟨emitted, passed⟩ := inductionHypothesis bookmark member
      rw [List.length_append]
      exact ⟨emitted, Nat.le_add_right_of_le passed⟩

/-- Of later choices no fewer items are noted, and more positions. -/
theorem ordered (descent : Descent host origin items trail bookmarks position) :
    bookmarks.Pairwise fun later earlier =>
      earlier.emitted ≤ later.emitted ∧ earlier.passed < later.passed := by
  induction descent with
  | refl => exact .nil
  | proceed _ _ inductionHypothesis => exact inductionHypothesis
  | flat before _ inductionHypothesis =>
      refine .cons (fun bookmark member => ?_) inductionHypothesis
      obtain ⟨emitted, passed⟩ := before.bounded bookmark member
      exact ⟨emitted, Nat.lt_succ_of_le passed⟩

theorem concat_isPrefix_concat {last : Position} (isPrefix : passed ++ [here] <+: trail ++ [last]) :
    (passed = trail ∧ here = last) ∨ passed ++ [here] <+: trail := by
  rcases List.prefix_concat_iff.mp isPrefix with whole | shorter
  · obtain ⟨passedEq, hereEq⟩ := List.append_inj' whole rfl
    exact .inl ⟨passedEq, List.singleton_inj.mp hereEq⟩
  · exact .inr shorter

/-- Every position on the way is reached by passing those before it. -/
theorem exists_of_passed (descent : Descent host origin items trail bookmarks position)
    (isPrefix : passed ++ [here] <+: trail ++ [position]) :
    ∃ emitted taken, emitted <+: items ∧ Descent host origin emitted passed taken here := by
  induction descent with
  | refl =>
      rcases concat_isPrefix_concat isPrefix with ⟨rfl, rfl⟩ | shorter
      · exact ⟨_, _, List.prefix_rfl, .refl⟩
      · simp at shorter
  | proceed before proceeds inductionHypothesis =>
      rcases concat_isPrefix_concat isPrefix with ⟨rfl, rfl⟩ | shorter
      · exact ⟨_, _, List.prefix_rfl, before.proceed proceeds⟩
      · obtain ⟨emitted, taken, emittedPrefix, descent⟩ := inductionHypothesis shorter
        exact ⟨emitted, taken, emittedPrefix.trans (List.prefix_append ..), descent⟩
  | flat before offers inductionHypothesis =>
      rcases concat_isPrefix_concat isPrefix with ⟨rfl, rfl⟩ | shorter
      · exact ⟨_, _, List.prefix_rfl, before.flat offers⟩
      · exact inductionHypothesis shorter

/-- What is noted of a choice divides a descent into one to this choice and one from its flat member
on. -/
theorem exists_choice (descent : Descent host origin items trail bookmarks position)
    (bookmarksEq : bookmarks = later ++ bookmark :: earlier) :
    ∃ before choice flat taken, trail.take bookmark.passed = before ++ [choice] ∧
      choice.Offers host flat bookmark.alternative ∧
      Descent host origin (items.take bookmark.emitted) before earlier choice ∧
      Descent host flat (items.drop bookmark.emitted) (trail.drop bookmark.passed) taken
        position := by
  induction descent generalizing later with
  | refl => simp at bookmarksEq
  | proceed descent proceeds inductionHypothesis =>
      obtain ⟨emitted, passed⟩ := descent.bounded bookmark (by simp [bookmarksEq])
      obtain ⟨before, choice, flat, taken, trailEq, offers, toChoice, fromFlat⟩ :=
        inductionHypothesis bookmarksEq
      -- What is added lies behind what is noted, so it belongs to the second part of the way.
      rw [List.take_append_of_le_length emitted, List.take_append_of_le_length passed,
        List.drop_append_of_le_length emitted, List.drop_append_of_le_length passed]
      exact ⟨before, choice, flat, taken, trailEq, offers, toChoice, fromFlat.proceed proceeds⟩
  | @flat items trail bookmarks last attempt alternative descent offers inductionHypothesis =>
      cases later with
      | nil =>
          -- The choice is the last one, and nothing has been passed since.
          obtain ⟨rfl, rfl⟩ := List.cons.inj bookmarksEq
          refine ⟨trail, last, attempt, [], ?_, offers, ?_, ?_⟩
          · exact List.take_of_length_le (by simp)
          · simpa using descent
          · simpa using refl
      | cons newest later =>
          obtain ⟨-, bookmarksEq⟩ := List.cons.inj bookmarksEq
          obtain ⟨-, passed⟩ := descent.bounded bookmark (by simp [bookmarksEq])
          obtain ⟨before, choice, flat, taken, trailEq, flatOffers, toChoice, fromFlat⟩ :=
            inductionHypothesis bookmarksEq
          rw [List.take_append_of_le_length passed, List.drop_append_of_le_length passed]
          exact ⟨before, choice, flat, _, trailEq, flatOffers, toChoice, fromFlat.flat offers⟩

/-- The descent to a choice leads to its broken member. -/
theorem resumes (descent : Descent host origin items trail bookmarks position)
    (bookmarksEq : bookmarks = later ++ bookmark :: earlier) :
    Descent host origin (items.take bookmark.emitted) (trail.take bookmark.passed) earlier
      bookmark.alternative := by
  obtain ⟨before, choice, flat, _, trailEq, offers, toChoice, -⟩ :=
    descent.exists_choice bookmarksEq
  rw [trailEq]
  exact toChoice.broken offers

end Descent

/-! ## Ledgers -/

namespace Ledger

variable {origin : Position} {ledger next : Ledger σ}

/-- A ledger records a descent from an origin to the position reached. -/
def Records (host : Host σ) (origin : Position) (ledger : Ledger σ) : Prop :=
  Descent host origin ledger.items ledger.trail ledger.bookmarks ledger.position

theorem records_start (host : Host σ) (origin : Position) (store : Store σ) :
    (start origin store).Records host origin :=
  Descent.refl

/-- To give up a path is to go back to the last open choice and to take the broken member there. -/
theorem Records.of_backtrack (records : ledger.Records host origin)
    (running : ledger.backtrack = .running next) : next.Records host origin := by
  rcases ledger with ⟨items, position, trail, _ | ⟨bookmark, earlier⟩, store⟩
  · cases running
  · cases running
    exact Descent.resumes records (List.nil_append _).symm

/-- A move passes one position more. -/
theorem Records.of_follow (records : ledger.Records host origin) {cell : Cell} {rest : Work}
    {state : σ} {outcome : Except Error Move} (workEq : ledger.position.work = cell :: rest)
    (moveEq : (cell.obligation.move host ledger.position.column ledger.store.state).1 = outcome)
    (running : ledger.pass.follow cell.obligation.indent rest state outcome = .running next) :
    next.Records host origin := by
  rcases ledger with ⟨items, ⟨column, work⟩, trail, bookmarks, store⟩
  cases workEq
  cases outcome with
  | error cause => cases running
  | ok move =>
      have mayMove : cell.obligation.MayMove host column move := ⟨store.state, moveEq⟩
      cases move with
      | emit fragment =>
          cases running
          exact records.proceed (.onward mayMove (.emit fragment) store.fresh)
      | newline => cases running
      | choose flat broken =>
          cases running
          simpa [Records, pass] using records.flat (.intro mayMove ..)
      | replace parts =>
          cases running
          simpa [Records, pass] using records.proceed (.onward mayMove (.replace parts) store.fresh)

/-- A step keeps a ledger the record of a descent. -/
theorem Records.of_running (records : ledger.Records host origin)
    (running : ledger.step host width = .running next) : next.Records host origin := by
  rcases backtrack_or_follow_of_running running with
    backtracks | ⟨cell, rest, state, workEq, follows⟩
  · exact records.of_backtrack backtracks
  · exact records.of_follow workEq rfl follows

/-- What is noted in a ledger leads back to the open choices, and from there to the position
reached. -/
structure LeadsBack (host : Host σ) (origin : Position) (ledger : Ledger σ) : Prop where
  /-- Only text has been emitted.  The column is the one behind it, and at an open choice it is the
  one behind the text that had been emitted there. -/
  columns : ∃ texts : List Fragment, ledger.items = texts.map .text ∧
    ledger.position.column = origin.column + Layout.widthOf texts ∧
    ∀ bookmark ∈ ledger.bookmarks,
      bookmark.alternative.column = origin.column + Layout.widthOf (texts.take bookmark.emitted)
  /-- The lengths noted are within those of the lists. -/
  bounded : ∀ bookmark ∈ ledger.bookmarks,
    bookmark.emitted ≤ ledger.items.length ∧ bookmark.passed ≤ ledger.trail.length
  /-- From one open choice to the next the lengths noted do not decrease. -/
  ordered : ledger.bookmarks.Pairwise fun later earlier =>
    earlier.emitted ≤ later.emitted ∧ earlier.passed < later.passed
  /-- The flat members of the open choices, and the broken members of all other choices passed, lead
  to the position reached. -/
  reached : ledger.Records host origin
  /-- The flat members of the open choices before an open choice, and the broken members of all
  other choices passed by then, lead to where its broken member is next. -/
  resumes : ∀ later bookmark earlier, ledger.bookmarks = later ++ bookmark :: earlier →
    Descent host origin (ledger.items.take bookmark.emitted)
      (ledger.trail.take bookmark.passed) earlier bookmark.alternative
  /-- The position of an open choice is the last one of those passed by then.  Its flat member leads
  to every position behind it, the one reached included, over the positions between. -/
  segments : ∀ bookmark ∈ ledger.bookmarks, ∃ before choice flat,
    ledger.trail.take bookmark.passed = before ++ [choice] ∧
    choice.Offers host flat bookmark.alternative ∧
    ∀ passed here, passed ++ [here] <+: ledger.trail.drop bookmark.passed ++ [ledger.position] →
      ∃ emitted taken, emitted <+: ledger.items.drop bookmark.emitted ∧
        Descent host flat emitted passed taken here

theorem Records.leadsBack (records : ledger.Records host origin) :
    ledger.LeadsBack host origin where
  columns := by
    obtain ⟨⟨texts, itemsEq⟩, columnEq⟩ := Descent.exists_texts records
    refine ⟨texts, itemsEq, ?_, fun bookmark member => ?_⟩
    · rw [columnEq, itemsEq, Item.columnAfter_texts]
    · obtain ⟨later, earlier, bookmarksEq⟩ := List.append_of_mem member
      obtain ⟨-, alternativeEq⟩ := (Descent.resumes records bookmarksEq).exists_texts
      rw [alternativeEq, itemsEq, ← List.map_take, Item.columnAfter_texts]
  bounded := Descent.bounded records
  ordered := Descent.ordered records
  reached := records
  resumes _ _ _ bookmarksEq := Descent.resumes records bookmarksEq
  segments bookmark member := by
    obtain ⟨later, earlier, bookmarksEq⟩ := List.append_of_mem member
    obtain ⟨before, choice, flat, taken, trailEq, offers, -, fromFlat⟩ :=
      Descent.exists_choice records bookmarksEq
    exact ⟨before, choice, flat, trailEq, offers, fun _ _ => fromFlat.exists_of_passed⟩

/-- A search that cuts back its lists goes the way of a probe, and ends with its verdict.  As long
as it goes on, what is noted in its ledger leads back. -/
theorem search_leads_back (host : Host σ) (width : Int) (origin : Position) (store : Store σ)
    (bound : Nat) :
    run host width bound (start origin store) =
      (Probe.run host width bound (.start origin store)).map Probe.ledger ∧
    ∀ ledger, run host width bound (start origin store) = .running ledger →
      ledger.LeadsBack host origin := by
  refine ⟨Probe.ledger_run host width bound origin store, fun ledger running => ?_⟩
  have records : ledger.Records host origin :=
    kept_of_iterate (fun _ _ => Records.of_running) (records_start host origin store) running
  exact records.leadsBack

end Ledger

/-- A space, and behind it a choice whose flat member is a choice too, between a space and a third
choice. -/
def Obligation.nestedChoices : List Obligation :=
  let last := Doc.union ⟨.shared, .doc (.blank true)⟩ ⟨.shared, .doc .line⟩
  let middle := Doc.union ⟨.shared, .doc .space⟩ ⟨.shared, .doc last⟩
  [⟨0, .doc .space⟩, ⟨0, .doc (.union ⟨.shared, .doc middle⟩ ⟨.shared, .doc .line⟩)⟩]

/-- Within one column there is no room for the second space.  After six steps the choice in the
middle has been given up, and the other two are open. -/
theorem Probe.exists_run_of_nestedChoices :
    ∃ probe, Probe.run Meaning.steps.countingHost 1 6
        (.start ⟨0, .ofList Obligation.nestedChoices⟩ ⟨.empty, 2, 0⟩) = .running probe ∧
      probe.ledger.items = [.text .space] ∧
      probe.ledger.bookmarks.map Bookmark.emitted = [1, 1] ∧
      probe.ledger.bookmarks.map Bookmark.passed = [4, 2] := by
  have new (position : Position) : position ∉ Memory.empty := Memory.not_mem_empty position
  apply Exists.intro
  apply And.intro
  · rw [Probe.run]
    refine iterate_of_step ?_ (step_of_new (by decide) rfl (new _))
    refine iterate_of_step ?_ (step_of_new (by decide) rfl (new _))
    refine iterate_of_step ?_ (step_of_new (by decide) rfl (new _))
    refine iterate_of_step ?_ (step_of_new (by decide) rfl (new _))
    refine iterate_of_step ?_ (step_of_beyond (by decide))
    refine iterate_of_step rfl (step_of_new (by decide) rfl fun known => ?_)
    -- All that is remembered by now is the position of the second space.
    rcases Memory.mem_insertAll known with given | before
    · have labels := congrArg (fun position => position.work.map Cell.label)
        (List.mem_singleton.mp given)
      exact absurd labels (by decide)
    · exact new _ before
  · exact ⟨rfl, rfl, rfl⟩

theorem Ledger.nestedChoices_lead_back :
    ∃ ledger, Ledger.run Meaning.steps.countingHost 1 6
        (.start ⟨0, .ofList Obligation.nestedChoices⟩ ⟨.empty, 2, 0⟩) = .running ledger ∧
      ledger.items = [.text .space] ∧ ledger.bookmarks.map Bookmark.emitted = [1, 1] ∧
      ledger.bookmarks.map Bookmark.passed = [4, 2] ∧
      ledger.LeadsBack Meaning.steps.countingHost ⟨0, .ofList Obligation.nestedChoices⟩ := by
  obtain ⟨probe, running, itemsEq, emittedEq, passedEq⟩ := Probe.exists_run_of_nestedChoices
  obtain ⟨runEq, leadsBack⟩ := Ledger.search_leads_back Meaning.steps.countingHost 1
    ⟨0, .ofList Obligation.nestedChoices⟩ ⟨.empty, 2, 0⟩ 6
  rw [running] at runEq
  exact ⟨probe.ledger, runEq, itemsEq, emittedEq, passedEq, leadsBack probe.ledger runEq⟩

end DocLayout
