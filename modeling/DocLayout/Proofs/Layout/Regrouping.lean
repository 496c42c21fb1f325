import DocLayout.Proofs.Layout.Exchange

/-!
# Laws of groups

A group of a group is a group, and what is on one line already needs no group.  Nesting goes into a
group, and text goes into it from either side.

Where text in front of a group goes into the group, the choice is made before the text is emitted.
If the choice cannot be made, the text is lost, and likewise the first items of a document on one
line that is grouped.  So layouts that fail may hold other items, but they fail with the same cause.
-/

namespace DocLayout

variable {meaning : Meaning} {width column : Int} {part otherPart : Obligation}
  {rest : List Obligation} {flat broken otherFlat otherBroken : Value}

/-! ## Choices -/

/-- To have the flat member once more in a choice makes no difference. -/
theorem Interchangeable.chosen_again {again : Value}
    (move : part.answer meaning column = .ok (.choose flat again))
    (againMove : Obligation.answer meaning column ⟨part.indent, again⟩ =
      .ok (.choose flat broken)) :
    Interchangeable meaning width column (part :: rest) (⟨part.indent, again⟩ :: rest) where
  answers _ := by
    constructor
    · intro answers
      rcases (Answers.choose_iff move).mp answers with settled | ⟨-, againAnswers⟩
      · exact (Answers.choose_iff againMove).mpr (.inl settled)
      · exact againAnswers
    · intro againAnswers
      rcases (Answers.choose_iff againMove).mp againAnswers with settled | ⟨overflows, -⟩
      · exact (Answers.choose_iff move).mpr (.inl settled)
      · exact (Answers.choose_iff move).mpr (.inr ⟨overflows, againAnswers⟩)
  shows _ := by
    constructor
    · intro shows
      rcases (Shows.choose_iff move).mp shows with
        rfl | ⟨fits, later⟩ | ⟨-, againShows⟩ | ⟨cause, fails, rfl⟩
      · exact .nothing
      · exact .flat againMove fits later
      · exact againShows
      · exact .undecided againMove fails
    · intro againShows
      rcases (Shows.choose_iff againMove).mp againShows with
        rfl | ⟨fits, later⟩ | ⟨overflows, -⟩ | ⟨cause, fails, rfl⟩
      · exact .nothing
      · exact .flat move fits later
      · exact .broken move overflows againShows
      · exact .undecided move fails

namespace Matched

/-- A choice of a value and the same value comes to the value. -/
theorem chosen_alone (move : part.answer meaning column = .ok (.choose flat flat)) :
    Matched .outcome meaning width column (part :: rest) (⟨part.indent, flat⟩ :: rest) where
  answers answers := by
    rcases (Answers.choose_iff move).mp answers with ⟨settled, -⟩ | ⟨-, later⟩
    · exact settled
    · exact later
  shows shows := by
    rcases (Shows.choose_iff move).mp shows with
      rfl | ⟨-, later⟩ | ⟨-, later⟩ | ⟨cause, fails, rfl⟩
    · exact ⟨_, .nothing, .inl rfl⟩
    · exact ⟨_, later, .inr (.inl rfl)⟩
    · exact ⟨_, later, .inr (.inl rfl)⟩
    · obtain ⟨items, failing⟩ := Shows.of_answers_error fails
      exact ⟨_, failing, .inr (.inr ⟨cause, rfl, rfl⟩)⟩

theorem alone_chosen (move : part.answer meaning column = .ok (.choose flat flat)) :
    Matched .outcome meaning width column (⟨part.indent, flat⟩ :: rest) (part :: rest) where
  answers {answer} answers := by
    by_cases overflows : answer = .ok false
    · subst overflows
      exact (Answers.choose_iff move).mpr (.inr ⟨answers, answers⟩)
    · exact (Answers.choose_iff move).mpr (.inl ⟨answers, overflows⟩)
  shows {excerpt} shows := by
    by_cases ended : excerpt.ending = .suspended
    · exact ⟨_, .nothing, .inl ended⟩
    · -- What has ended has an answer, and the choice is made by it.
      obtain ⟨_ | _ | _, answers⟩ := shows.exists_answers ended
      · obtain ⟨items, failing⟩ := Shows.of_answers_error answers
        obtain rfl := shows.unique_of_ended failing ended (by simp)
        exact ⟨_, .undecided move answers, .inr (.inr ⟨_, rfl, rfl⟩)⟩
      · exact ⟨_, .broken move answers shows, .inr (.inl rfl)⟩
      · exact ⟨_, .flat move answers shows, .inr (.inl rfl)⟩

end Matched

section

variable {text chooser : Obligation} {fragment : Fragment}

/-- Text in front of a choice may go into the members.  The choice is then made before the text. -/
theorem Matched.chosen_earlier (width : Int) (rest : List Obligation)
    (emits : text.answer meaning column = .ok (.emit fragment))
    (move : chooser.answer meaning (column + fragment.width) = .ok (.choose flat broken))
    (otherMove : otherPart.answer meaning column = .ok (.choose otherFlat otherBroken))
    (flatSame : Interchangeable meaning width column (text :: ⟨chooser.indent, flat⟩ :: rest)
      (⟨otherPart.indent, otherFlat⟩ :: rest))
    (brokenSame : Interchangeable meaning width column (text :: ⟨chooser.indent, broken⟩ :: rest)
      (⟨otherPart.indent, otherBroken⟩ :: rest)) :
    Matched .outcome meaning width column (text :: chooser :: rest) (otherPart :: rest) ∧
      Matched .outcome meaning width column (otherPart :: rest) (text :: chooser :: rest) := by
  have flatIff (answer : Except Error Bool) :
      Answers meaning width (column + fragment.width) (⟨chooser.indent, flat⟩ :: rest) answer ↔
        Answers meaning width column (⟨otherPart.indent, otherFlat⟩ :: rest) answer :=
    (Answers.emit_iff emits).symm.trans (flatSame.answers answer)
  have brokenIff (answer : Except Error Bool) :
      Answers meaning width (column + fragment.width) (⟨chooser.indent, broken⟩ :: rest) answer ↔
        Answers meaning width column (⟨otherPart.indent, otherBroken⟩ :: rest) answer :=
    (Answers.emit_iff emits).symm.trans (brokenSame.answers answer)
  have answersIff (answer : Except Error Bool) :
      Answers meaning width column (text :: chooser :: rest) answer ↔
        Answers meaning width column (otherPart :: rest) answer := by
    rw [Answers.emit_iff emits, Answers.choose_iff move, Answers.choose_iff otherMove, flatIff,
      flatIff, brokenIff]
  constructor
  · refine ⟨(answersIff _).mp, fun shows => ?_⟩
    rcases (Shows.emit_iff emits).mp shows with rfl | ⟨later, rfl, laterShows⟩
    · exact ⟨_, .nothing, .inl rfl⟩
    rcases (Shows.choose_iff move).mp laterShows with
      rfl | ⟨fits, flatShows⟩ | ⟨overflows, brokenShows⟩ | ⟨cause, fails, rfl⟩
    · exact ⟨_, .nothing, .inl rfl⟩
    · have otherShows := (flatSame.shows _).mp (.emit emits flatShows)
      exact ⟨_, .flat otherMove ((flatIff _).mp fits) otherShows, .inr (.inl rfl)⟩
    · have otherShows := (brokenSame.shows _).mp (.emit emits brokenShows)
      exact ⟨_, .broken otherMove ((flatIff _).mp overflows) otherShows, .inr (.inl rfl)⟩
    · exact ⟨_, .undecided otherMove ((flatIff _).mp fails), .inr (.inr ⟨cause, rfl, rfl⟩)⟩
  · refine ⟨(answersIff _).mpr, fun shows => ?_⟩
    rcases (Shows.choose_iff otherMove).mp shows with
      rfl | ⟨fits, flatShows⟩ | ⟨overflows, brokenShows⟩ | ⟨cause, fails, rfl⟩
    · exact ⟨_, .nothing, .inl rfl⟩
    -- What a member shows begins with the text, which is then emitted before the choice.
    · rcases (Shows.emit_iff emits).mp ((flatSame.shows _).mpr flatShows) with
        rfl | ⟨later, rfl, laterShows⟩
      · exact ⟨_, .nothing, .inl rfl⟩
      · exact ⟨_, .emit emits (.flat move ((flatIff _).mpr fits) laterShows), .inr (.inl rfl)⟩
    · rcases (Shows.emit_iff emits).mp ((brokenSame.shows _).mpr brokenShows) with
        rfl | ⟨later, rfl, laterShows⟩
      · exact ⟨_, .nothing, .inl rfl⟩
      · exact ⟨_, .emit emits (.broken move ((flatIff _).mpr overflows) laterShows),
          .inr (.inl rfl)⟩
    · exact ⟨_, .emit emits (.undecided move ((flatIff _).mpr fails)),
        .inr (.inr ⟨cause, rfl, rfl⟩)⟩

end

/-! ## Documents -/

namespace Doc

variable {admits : Value → Prop} {flatIdentity brokenIdentity innerIdentity : Identity}
  {innerFlatIdentity otherFlatIdentity otherBrokenIdentity : Identity}

theorem Alike.union_union {flat broken : Value} :
    (Doc.union ⟨flatIdentity, flat⟩
      ⟨innerIdentity, .doc (.union ⟨innerFlatIdentity, flat⟩ ⟨brokenIdentity, broken⟩)⟩).Alike
        meaning (.union ⟨otherFlatIdentity, flat⟩ ⟨otherBrokenIdentity, broken⟩) := by
  intro width column indent rest
  refine (Interchangeable.chosen_again (Obligation.answer_union ..)
    (Obligation.answer_union ..)).trans ?_
  exact .chosen (Obligation.answer_union ..) (Obligation.answer_union ..) (.refl _) (.refl _)

theorem Alike.nest_union {amount : Amount} {flat broken : Doc} :
    (Doc.nest amount (.union ⟨flatIdentity, .doc flat⟩ ⟨brokenIdentity, .doc broken⟩)).Alike meaning
      (.union ⟨otherFlatIdentity, .doc (.nest amount flat)⟩
        ⟨otherBrokenIdentity, .doc (.nest amount broken)⟩) := by
  intro width column indent rest
  refine (Interchangeable.nest ..).trans ?_
  exact .chosen (Obligation.answer_union ..) (Obligation.answer_union ..)
    (Interchangeable.nest indent amount flat).symm (Interchangeable.nest indent amount broken).symm

theorem Alike.union_concat {flat broken right : Doc} :
    (Doc.concat (.union ⟨flatIdentity, .doc flat⟩ ⟨brokenIdentity, .doc broken⟩) right).Alike
      meaning (.union ⟨otherFlatIdentity, .doc (.concat flat right)⟩
        ⟨otherBrokenIdentity, .doc (.concat broken right)⟩) := by
  intro width column indent rest
  refine (Interchangeable.concat ..).trans ?_
  exact .chosen (Obligation.answer_union ..) (Obligation.answer_union ..)
    (Interchangeable.concat indent flat right).symm
    (Interchangeable.concat indent broken right).symm

theorem MatchedBy.union_self {document : Doc} :
    (Doc.union ⟨flatIdentity, .doc document⟩ ⟨brokenIdentity, .doc document⟩).MatchedBy .outcome
      meaning admits document :=
  fun _ _ _ _ _ => .chosen_alone (Obligation.answer_union ..)

theorem MatchedBy.self_union {document : Doc} :
    document.MatchedBy .outcome meaning admits
      (.union ⟨flatIdentity, .doc document⟩ ⟨brokenIdentity, .doc document⟩) :=
  fun _ column indent _ _ =>
    .alone_chosen (Obligation.answer_union meaning column indent ⟨flatIdentity, .doc document⟩
      ⟨brokenIdentity, .doc document⟩)

/-- Text in front of a choice of two documents may go into them, and come out again. -/
theorem text_union_matched {fragment : Fragment} {flat broken : Doc} :
    (Doc.concat (.text fragment)
        (.union ⟨flatIdentity, .doc flat⟩ ⟨brokenIdentity, .doc broken⟩)).MatchedBy .outcome meaning
      admits (.union ⟨otherFlatIdentity, .doc (.concat (.text fragment) flat)⟩
        ⟨otherBrokenIdentity, .doc (.concat (.text fragment) broken)⟩) ∧
    (Doc.union ⟨otherFlatIdentity, .doc (.concat (.text fragment) flat)⟩
        ⟨otherBrokenIdentity, .doc (.concat (.text fragment) broken)⟩).MatchedBy .outcome meaning
      admits (.concat (.text fragment)
        (.union ⟨flatIdentity, .doc flat⟩ ⟨brokenIdentity, .doc broken⟩)) := by
  have earlier (width column indent : Int) (rest : List Obligation) :=
    Matched.chosen_earlier width rest (Obligation.answer_text meaning column indent fragment)
      (Obligation.answer_union meaning (column + fragment.width) indent
        ⟨flatIdentity, .doc flat⟩ ⟨brokenIdentity, .doc broken⟩)
      (Obligation.answer_union meaning column indent
        ⟨otherFlatIdentity, .doc (.concat (.text fragment) flat)⟩
        ⟨otherBrokenIdentity, .doc (.concat (.text fragment) broken)⟩)
      (Interchangeable.concat indent (.text fragment) flat).symm
      (Interchangeable.concat indent (.text fragment) broken).symm
  constructor
  · intro width column indent rest _
    exact .replaced_left (Obligation.answer_concat ..) (earlier width column indent rest).1
  · intro width column indent rest _
    exact .replaced_right (Obligation.answer_concat ..) (earlier width column indent rest).2

end Doc

/-! ## Groups -/

/-- Two ways to build with groups from a document and text, which come to the same. -/
inductive Build.Regrouping (document : Identified Doc) :
    Except Error (Identified Doc) → Except Error (Identified Doc) → Prop where
  | group_group (innerLabel outerLabel label : Nat) :
      Regrouping document
        (do
          let once ← group innerLabel document.object
          group outerLabel once.object)
        (group label document.object)
  | group_flatten (flatLabel label otherLabel castLabel : Nat) :
      Regrouping document
        (do
          let flat ← document.object.flatten flatLabel
          group label flat)
        (do
          let flat ← document.object.flatten otherLabel
          cast castLabel flat)
  | nest_group (amount : Amount) (groupLabel nestLabel innerLabel label : Nat) :
      Regrouping document
        (do
          let grouped ← group groupLabel document.object
          nest nestLabel (.num amount) grouped.object)
        (do
          let nested ← nest innerLabel (.num amount) document.object
          group label nested.object)
  | text_group (fragment : Fragment) (groupLabel concatLabel innerLabel label : Nat) :
      Regrouping document
        (do
          let grouped ← group groupLabel document.object
          concatOf concatLabel (.doc (.text fragment)) (.doc grouped.content))
        (do
          let joined ← concatOf innerLabel (.doc (.text fragment)) (.doc document.content)
          group label joined.object)
  | group_text (fragment : Fragment) (groupLabel concatLabel innerLabel label : Nat) :
      Regrouping document
        (do
          let grouped ← group groupLabel document.object
          concatOf concatLabel (.doc grouped.content) (.doc (.text fragment)))
        (do
          let joined ← concatOf innerLabel (.doc document.content) (.doc (.text fragment))
          group label joined.object)

namespace Build.Regrouping

variable {document : Identified Doc} {first second : Except Error (Identified Doc)}

/-- Both ways come to documents, which may be replaced by each other. -/
theorem exists_exchangeable (regrouping : Regrouping document first second)
    (grouped : document.content.Grouped) (meaning : Meaning) (admits : Value → Prop) :
    ∃ left right, first = .ok left ∧ second = .ok right ∧ left.content.Grouped ∧
      left.content.Exchangeable .outcome meaning admits right.content := by
  obtain ⟨flat, flatEq, single⟩ := grouped.exists_oneLine
  cases regrouping with
  | group_group innerLabel outerLabel label =>
      obtain ⟨innerIdentity, innerEq⟩ := exists_group_object flatEq innerLabel
      have onceEq : (⟨.made innerLabel, .union ⟨innerIdentity, .doc flat⟩ document.object⟩ :
        Identified Doc).content.oneLine = .ok (.doc flat) := rfl
      obtain ⟨outerIdentity, outerEq⟩ := exists_group_object onceEq outerLabel
      obtain ⟨identity, groupEq⟩ := exists_group_object flatEq label
      refine ⟨_, _, by rw [innerEq]; exact outerEq, groupEq,
        .group (.group grouped flatEq ..) onceEq .., ?_⟩
      exact .of_alike .union_union rfl rfl fun _ _ _ _ => .refl _
  | group_flatten flatLabel label otherLabel castLabel =>
      obtain ⟨identity, objectEq⟩ := Identified.exists_flatten_object flatEq flatLabel
      obtain ⟨otherIdentity, otherObjectEq⟩ := Identified.exists_flatten_object flatEq otherLabel
      have flatFlattens : (⟨identity, flat⟩ : Identified Doc).content.oneLine = .ok (.doc flat) :=
        single.oneLine_eq
      obtain ⟨groupIdentity, groupEq⟩ := exists_group_object flatFlattens label
      refine ⟨_, ⟨otherIdentity, flat⟩, by rw [objectEq]; exact groupEq, by rw [otherObjectEq]; rfl,
        .group single.grouped single.oneLine_eq .., ?_⟩
      exact .of_same_oneLine .union_self .self_union rfl single.oneLine_eq
  | nest_group amount groupLabel nestLabel innerLabel label =>
      obtain ⟨groupIdentity, groupEq⟩ := exists_group_object flatEq groupLabel
      have nestedFlattens :
          (⟨.made innerLabel, .nest amount document.content⟩ : Identified Doc).content.oneLine =
            .ok (.doc (.nest amount flat)) := Doc.oneLine_nest amount flatEq
      obtain ⟨identity, nestedEq⟩ := exists_group_object nestedFlattens label
      refine ⟨⟨.made nestLabel, .nest amount _⟩, _, by rw [groupEq]; rfl, nestedEq,
        .nest amount (.group grouped flatEq ..), ?_⟩
      exact .of_alike .nest_union (Doc.oneLine_nest amount rfl) rfl fun _ _ _ _ => .refl _
  | text_group fragment groupLabel concatLabel innerLabel label =>
      obtain ⟨groupIdentity, groupEq⟩ := exists_group_object flatEq groupLabel
      have joinedFlattens :
          (⟨.made innerLabel, .concat (.text fragment) document.content⟩ :
            Identified Doc).content.oneLine = .ok (.doc (.concat (.text fragment) flat)) :=
        Doc.oneLine_concat rfl flatEq
      obtain ⟨identity, joinedEq⟩ := exists_group_object joinedFlattens label
      refine ⟨⟨.made concatLabel, .concat (.text fragment) _⟩, _, by rw [groupEq]; rfl, joinedEq,
        .concat (.text fragment) (.group grouped flatEq ..), ?_⟩
      exact .of_same_oneLine Doc.text_union_matched.1 Doc.text_union_matched.2
        (Doc.oneLine_concat rfl rfl) rfl
  | group_text fragment groupLabel concatLabel innerLabel label =>
      obtain ⟨groupIdentity, groupEq⟩ := exists_group_object flatEq groupLabel
      have joinedFlattens :
          (⟨.made innerLabel, .concat document.content (.text fragment)⟩ :
            Identified Doc).content.oneLine = .ok (.doc (.concat flat (.text fragment))) :=
        Doc.oneLine_concat flatEq rfl
      obtain ⟨identity, joinedEq⟩ := exists_group_object joinedFlattens label
      refine ⟨⟨.made concatLabel, .concat _ (.text fragment)⟩, _, by rw [groupEq]; rfl, joinedEq,
        .concat (.group grouped flatEq ..) (.text fragment), ?_⟩
      exact .of_alike .union_concat (Doc.oneLine_concat rfl rfl) rfl fun _ _ _ _ => .refl _

end Build.Regrouping

variable {σ : Type} {host : Host σ}

/-- At every width two documents come to the same: both have the same layout, or both fail with the
same cause, or both are endless. -/
def Doc.SameOutcome (host : Host σ) (first second : Doc) : Prop :=
  ∀ (width : Int) (state other : σ),
    (∀ items, (Walk.start 0 [⟨0, .doc first⟩] state).Emits host width ⟨items, none⟩ ↔
      (Walk.start 0 [⟨0, .doc second⟩] other).Emits host width ⟨items, none⟩) ∧
    ∀ cause,
      (∃ items, (Walk.start 0 [⟨0, .doc first⟩] state).Emits host width ⟨items, some cause⟩) ↔
        ∃ items, (Walk.start 0 [⟨0, .doc second⟩] other).Emits host width ⟨items, some cause⟩

namespace Matched

variable {first second : List Obligation} {items : List Item}

theorem finished (matched : Matched .outcome meaning width column first second)
    (shows : Shows meaning width column first ⟨items, .finished⟩) :
    Shows meaning width column second ⟨items, .finished⟩ := by
  obtain ⟨other, otherShows, suspended | rfl | ⟨_, failed, -⟩⟩ := matched.shows shows
  · cases suspended
  · exact otherShows
  · cases failed

theorem failed {cause : Error} (matched : Matched .outcome meaning width column first second)
    (shows : Shows meaning width column first ⟨items, .failed cause⟩) :
    ∃ others, Shows meaning width column second ⟨others, .failed cause⟩ := by
  obtain ⟨⟨others, ending⟩, otherShows, suspended | same | ⟨_, failed, rfl⟩⟩ :=
    matched.shows shows
  · cases suspended
  · cases same
    exact ⟨items, otherShows⟩
  · cases failed
    exact ⟨others, otherShows⟩

end Matched

theorem Doc.SameOutcome.of_matched {admits : Value → Prop} {first second : Doc}
    (realizes : host.Realizes meaning) (matched : first.MatchedBy .outcome meaning admits second)
    (reverse : second.MatchedBy .outcome meaning admits first) :
    first.SameOutcome host second := by
  intro width state other
  have nothingElse : ∀ part ∈ ([] : List Obligation), admits part.value := by simp
  have forth : Matched .outcome meaning width 0 [⟨0, .doc first⟩] [⟨0, .doc second⟩] :=
    matched nothingElse
  have back : Matched .outcome meaning width 0 [⟨0, .doc second⟩] [⟨0, .doc first⟩] :=
    reverse nothingElse
  simp only [Walk.emits_iff_shows realizes]
  refine ⟨fun items => ⟨forth.finished, back.finished⟩, fun cause => ⟨?_, ?_⟩⟩
  · rintro ⟨items, shows⟩
    exact forth.failed shows
  · rintro ⟨items, shows⟩
    exact back.failed shows

/-- Whatever the context, it makes no difference to the outcome whether a group is built in one way
or in the other one. -/
theorem regrouping_keeps_outcome (realizes : host.Realizes meaning) {document : Identified Doc}
    (grouped : document.content.Grouped) {first second : Except Error (Identified Doc)}
    (regrouping : Build.Regrouping document first second) :
    ∃ left right, first = .ok left ∧ second = .ok right ∧ ∀ context : Context,
      context.FillsAlike (Doc.SameOutcome host) left right ∧
        (context.All Doc.Grouped → ∃ whole, context.fill left = .ok whole) := by
  obtain ⟨left, right, leftEq, rightEq, leftGrouped, exchangeable⟩ :=
    regrouping.exists_exchangeable grouped meaning fun _ => True
  refine ⟨left, right, leftEq, rightEq, fun context => ⟨?_, ?_⟩⟩
  · refine (Context.fillsAlike_of_exchangeable (fun _ _ => trivial)
      (context.all_of_forall fun _ => trivial) exchangeable).mono ?_
    rintro whole other ⟨replaceable, reverse⟩
    exact .of_matched realizes replaceable.matched reverse.matched
  · intro around
    obtain ⟨whole, fills, -⟩ := Context.exists_fill_of_grouped around leftGrouped
    exact ⟨whole, fills⟩

/-- Both groups are broken, and the deferred document breaks the line between them. -/
theorem Prescribed.of_text_group (identity flatIdentity : Identity) :
    let deferred := Doc.column ⟨.shared, .function (.custom 0)⟩
    let group := Doc.union ⟨identity, .doc (.concat deferred .space)⟩
      ⟨.made 3, .doc (.concat deferred .line)⟩
    Prescribed .steps 0 0
      [⟨0, .doc (Context.inAlignedGroup flatIdentity
        (.concat (.text .space) (.concat deferred .space)) (.concat (.text .space) group))⟩]
      ⟨[.text .space, .line 0, .line 0, .line 0], none⟩ := by
  intro deferred group
  -- The space is beyond the width, so none of the flat members fits.
  have flat : Prescribed .steps 0 0
      [⟨0, .doc (.concat (.concat (.text .space) (.concat deferred .space)) .space)⟩]
      (.after [.text .space] (.after [.line 0] ⟨[.text .space, .text .space], none⟩)) :=
    .concat (.concat (.text (.concat (.deferred_steps (by decide) (.text (.text .done))))))
  have groupFlat : Prescribed .steps 0 1 [⟨0, .doc (.concat deferred .space)⟩, ⟨0, .doc .line⟩]
      (.after [.line 0] ⟨[.text .space, .line 0], none⟩) :=
    .concat (.deferred_steps (by decide) (.text (.line .done)))
  have groupBroken : Prescribed .steps 0 1 [⟨0, .doc (.concat deferred .line)⟩, ⟨0, .doc .line⟩]
      (.after [.line 0] ⟨[.line 0, .line 0], none⟩) :=
    .concat (.deferred_steps (by decide) (.line (.line .done)))
  have broken : Prescribed .steps 0 0 [⟨0, .doc (.concat (.concat (.text .space) group) .line)⟩]
      (.after [.text .space] ⟨[.line 0, .line 0, .line 0], none⟩) :=
    .concat (.concat (.text (.broken groupFlat rfl groupBroken)))
  exact .column rfl (.nesting rfl (.nest (.broken flat rfl broken)))

/-- In a group that is broken, the space may stand in front of an inner group or in it. -/
theorem text_into_group_in_alignedGroup :
    let document : Identified Doc :=
      ⟨.made 3, .concat (.column ⟨.shared, .function (.custom 0)⟩) .line⟩
    Meaning.steps.countingHost.Realizes .steps ∧ document.content.Grouped ∧
      ∃ grouped inner joined, Build.group 4 document.object = .ok grouped ∧
        Build.concatOf 6 (.doc (.text .space)) (.doc document.content) = .ok inner ∧
        Build.group 7 inner.object = .ok joined ∧
        ∃ whole other,
          Context.alignedGroup.fill ⟨.made 5, .concat (.text .space) grouped.content⟩ = .ok whole ∧
          Context.alignedGroup.fill joined = .ok other ∧
          whole.content.SameOutcome Meaning.steps.countingHost other.content ∧
          ∀ document ∈ [whole.content, other.content],
            (Walk.start 0 [⟨0, .doc document⟩] 0).Emits Meaning.steps.countingHost 0
              ⟨[.text .space, .line 0, .line 0, .line 0], none⟩ := by
  intro document
  have realizes := Meaning.steps.realizes_countingHost
  have documentGrouped : document.content.Grouped := .concat (.column _) .line
  obtain ⟨left, right, leftEq, rightEq, alike⟩ :=
    regrouping_keeps_outcome realizes documentGrouped (.text_group .space 4 5 6 7)
  obtain ⟨flat, flattens, -⟩ := documentGrouped.exists_oneLine
  obtain ⟨identity, groupEq⟩ := Build.exists_group_object flattens 4
  rw [groupEq] at leftEq
  obtain ⟨whole, fills⟩ := (alike Context.alignedGroup).2 Context.alignedGroup_grouped
  obtain ⟨other, otherFills, sameOutcome⟩ := (alike Context.alignedGroup).1.1 whole fills
  cases leftEq
  obtain ⟨flatIdentity, fillsEq⟩ := Context.exists_fill_alignedGroup
    ⟨.made 5, .concat (.text .space) (.union ⟨identity, .doc flat⟩ document.object)⟩
    (Doc.oneLine_concat rfl rfl)
  cases flattens
  cases fills.symm.trans fillsEq
  have emits := (Prescribed.of_text_group identity flatIdentity).start_emits realizes 0
  have otherEmits := ((sameOutcome 0 0 0).1 _).mp emits
  exact ⟨realizes, documentGrouped, _, _, right, groupEq, rfl, rightEq, _, other, fills,
    otherFills, sameOutcome,
    List.forall_mem_cons.mpr ⟨emits, List.forall_mem_singleton.mpr otherEmits⟩⟩

end DocLayout
