import DocLayout.Proofs.Doc.Equality
import DocLayout.Proofs.Layout.Translation

/-!
# Equal documents are laid out alike

Equal documents may differ in their blanks, in how their amounts are written, and in the identities
of the members of choices.  None of this shows in a layout, so walks over equal documents take the
same course: they report the same events and end in the same way, or go on for ever alike.
-/

namespace DocLayout

/-- Two values are the same, or documents that differ in nothing that a layout shows. -/
inductive Value.LikeLaidOut : Value → Value → Prop where
  | same (value : Value) : LikeLaidOut value value
  | blank (kept otherKept : Bool) : LikeLaidOut (.doc (.blank kept)) (.doc (.blank otherKept))
  | concat {left right otherLeft otherRight : Doc}
      (leftAlike : LikeLaidOut (.doc left) (.doc otherLeft))
      (rightAlike : LikeLaidOut (.doc right) (.doc otherRight)) :
      LikeLaidOut (.doc (.concat left right)) (.doc (.concat otherLeft otherRight))
  | nest {amount otherAmount : Amount} (amountEq : amount.toInt = otherAmount.toInt)
      {inner otherInner : Doc} (innerAlike : LikeLaidOut (.doc inner) (.doc otherInner)) :
      LikeLaidOut (.doc (.nest amount inner)) (.doc (.nest otherAmount otherInner))
  | union {flat broken otherFlat otherBroken : Object}
      (flatAlike : LikeLaidOut flat.content otherFlat.content)
      (brokenAlike : LikeLaidOut broken.content otherBroken.content) :
      LikeLaidOut (.doc (.union flat broken)) (.doc (.union otherFlat otherBroken))

theorem Value.LikeLaidOut.symm {value other : Value} (alike : LikeLaidOut value other) :
    LikeLaidOut other value := by
  induction alike with
  | same value => exact .same value
  | blank kept otherKept => exact .blank otherKept kept
  | concat _ _ leftAlike rightAlike => exact .concat leftAlike rightAlike
  | nest amountEq _ innerAlike => exact .nest amountEq.symm innerAlike
  | union _ _ flatAlike brokenAlike => exact .union flatAlike brokenAlike

/-- Of two documents with the same shape, the first of which is regular, neither is laid out
differently. -/
theorem Doc.Regular.likeLaidOut {first second : Doc} (regular : first.Regular)
    (agree : Value.Agree (.doc first) (.doc second)) :
    Value.LikeLaidOut (.doc first) (.doc second) := by
  induction regular generalizing second with
  | concat _ _ leftHypothesis rightHypothesis =>
      cases agree with
      | concat leftAgree rightAgree =>
          exact .concat (leftHypothesis leftAgree) (rightHypothesis rightAgree)
      | other notDoc => exact absurd rfl (notDoc _)
  | nest _ _ inductionHypothesis =>
      cases agree with
      | nest amountEq innerAgree => exact .nest amountEq (inductionHypothesis innerAgree)
      | other notDoc => exact absurd rfl (notDoc _)
  | union _ _ _ _ flatHypothesis brokenHypothesis =>
      cases agree with
      | @union _ _ otherFlat otherBroken flatAgree brokenAgree =>
          rcases otherFlat with ⟨flatIdentity, otherFlat⟩
          rcases otherBroken with ⟨brokenIdentity, otherBroken⟩
          obtain ⟨flat, rfl⟩ := flatAgree.exists_doc
          obtain ⟨broken, rfl⟩ := brokenAgree.exists_doc
          exact .union (flatHypothesis flatAgree) (brokenHypothesis brokenAgree)
      | other notDoc => exact absurd rfl (notDoc _)
  | blank kept =>
      cases agree with
      | blank _ otherKept => exact .blank kept otherKept
      | other notDoc => exact absurd rfl (notDoc _)
  | _ =>
      cases agree with
      | other notDoc => exact absurd rfl (notDoc _)
      | _ => exact .same _

/-- Obligations at the same indentation whose values are laid out alike. -/
structure Obligation.LikeLaidOut (part other : Obligation) : Prop where
  indent_eq : other.indent = part.indent
  values : part.value.LikeLaidOut other.value

/-- What is laid out alike makes corresponding moves at the same column. -/
theorem Meaning.translates_likeLaidOut (meaning : Meaning) :
    meaning.Translates 0 Obligation.LikeLaidOut where
  indent_eq alike := by rw [alike.indent_eq, Int.add_zero]
  fails {part other column cause} alike move := by
    rcases part with ⟨indent, value⟩
    rcases other with ⟨otherIndent, otherValue⟩
    obtain ⟨rfl, alike⟩ := alike
    rw [Int.add_zero]
    cases alike with
    | same => exact move
    | _ => cases move
  moves {part other column move} alike answers := by
    rcases part with ⟨indent, value⟩
    rcases other with ⟨otherIndent, otherValue⟩
    obtain ⟨rfl, alike⟩ := alike
    rw [Int.add_zero]
    cases alike with
    | same => exact ⟨move, answers, .refl (fun _ => ⟨rfl, .same _⟩) _ move⟩
    | blank kept otherKept =>
        cases answers
        exact ⟨_, rfl, .replace .nil⟩
    | concat leftAlike rightAlike =>
        cases answers
        exact ⟨_, rfl, .replace (.cons ⟨rfl, leftAlike⟩ (.cons ⟨rfl, rightAlike⟩ .nil))⟩
    | nest amountEq innerAlike =>
        cases answers
        exact ⟨_, rfl, .replace (.cons ⟨by rw [amountEq], innerAlike⟩ .nil)⟩
    | union flatAlike brokenAlike =>
        cases answers
        exact ⟨_, rfl, .choose ⟨rfl, flatAlike⟩ ⟨rfl, brokenAlike⟩⟩

variable {meaning : Meaning} {width column next : Int}
  {parts otherParts remaining : List Obligation} {events : List Event} {ending : Option Error}

/-- What is laid out alike has the same stretches. -/
theorem Stretch.of_likeLaidOut (stretch : Stretch meaning width column parts events next remaining)
    (alike : List.Forall₂ Obligation.LikeLaidOut parts otherParts) :
    ∃ otherRemaining, Stretch meaning width column otherParts events next otherRemaining := by
  obtain ⟨otherRemaining, otherStretch, -⟩ := stretch.exists_corresponding
    meaning.translates_likeLaidOut alike fun item _ => item.keepsDistance_zero
  simp only [Int.add_zero, Event.map_moved_zero] at otherStretch
  exact ⟨otherRemaining, otherStretch⟩

/-- What is laid out alike takes the same course. -/
theorem Course.of_likeLaidOut (course : Course meaning width column parts events ending)
    (alike : List.Forall₂ Obligation.LikeLaidOut parts otherParts) :
    Course meaning width column otherParts events ending := by
  have moved := course.moved meaning.translates_likeLaidOut alike fun item _ =>
    item.keepsDistance_zero
  simpa only [Int.add_zero, Event.map_moved_zero] using moved

namespace Walk

variable {σ : Type} {host : Host σ}

theorem Ends.of_likeLaidOut (realizes : host.Realizes meaning)
    (alike : List.Forall₂ Obligation.LikeLaidOut parts otherParts) {state : σ}
    (ends : (start column parts state).Ends host width events ending) (otherState : σ) :
    (start column otherParts otherState).Ends host width events ending := by
  have course := (ends_iff_course realizes column parts state).mp ends
  exact (ends_iff_course realizes column otherParts otherState).mpr (course.of_likeLaidOut alike)

theorem Begins.of_likeLaidOut (realizes : host.Realizes meaning)
    (alike : List.Forall₂ Obligation.LikeLaidOut parts otherParts) {state : σ}
    (begins : (start column parts state).Begins host width events) (otherState : σ) :
    (start column otherParts otherState).Begins host width events := by
  obtain ⟨later, next, remaining, stretch⟩ :=
    (begins_iff_exists_stretch realizes column parts state).mp begins
  obtain ⟨otherRemaining, otherStretch⟩ := stretch.of_likeLaidOut alike
  exact (begins_iff_exists_stretch realizes column otherParts otherState).mpr
    ⟨later, next, otherRemaining, otherStretch⟩

end Walk

/-- Equal documents, the first of which is regular, are interchangeable.  Their one-line forms are
documents and equal.  In front of whatever follows, and for every width, walks over them end with
the same events and for the same cause, whatever states the host starts in, and otherwise they begin
with the same events.  Decisions on choices are among the events. -/
theorem equal_interchangeable {σ : Type} {host : Host σ} (realizes : host.Realizes meaning)
    {first second : Doc} (regular : first.Regular) (equal : first.equal second = true) :
    (∃ flat otherFlat : Doc, (Value.doc first).flatten = .ok (.doc flat) ∧
      (Value.doc second).flatten = .ok (.doc otherFlat) ∧ flat.equal otherFlat = true) ∧
    ∀ (width column indent : Int) (rest : List Obligation) (state otherState : σ),
      (∀ events ending,
        (Walk.start column (⟨indent, .doc first⟩ :: rest) state).Ends host width events ending ↔
          (Walk.start column (⟨indent, .doc second⟩ :: rest) otherState).Ends host width events
            ending) ∧
      ∀ events,
        (Walk.start column (⟨indent, .doc first⟩ :: rest) state).Begins host width events ↔
          (Walk.start column (⟨indent, .doc second⟩ :: rest) otherState).Begins host width
            events := by
  have agree := Doc.equal_eq_true_iff.mp equal
  refine ⟨?_, fun width column indent rest state otherState => ?_⟩
  · obtain ⟨flat, otherFlat, flattens, otherFlattens, same⟩ := regular.exists_oneLine_agree agree
    exact ⟨flat, otherFlat, (Value.flatten_doc first).trans flattens,
      (Value.flatten_doc second).trans otherFlattens, Doc.equal_eq_true_iff.mpr same⟩
  · have docAlike := regular.likeLaidOut agree
    have restAlike : List.Forall₂ Obligation.LikeLaidOut rest rest :=
      List.forall₂_same.mpr fun _ _ => ⟨rfl, .same _⟩
    have alike : List.Forall₂ Obligation.LikeLaidOut (⟨indent, .doc first⟩ :: rest)
        (⟨indent, .doc second⟩ :: rest) := .cons ⟨rfl, docAlike⟩ restAlike
    have reverse : List.Forall₂ Obligation.LikeLaidOut (⟨indent, .doc second⟩ :: rest)
        (⟨indent, .doc first⟩ :: rest) := .cons ⟨rfl, docAlike.symm⟩ restAlike
    constructor
    · intro events ending
      exact ⟨fun ends => ends.of_likeLaidOut realizes alike otherState,
        fun ends => ends.of_likeLaidOut realizes reverse state⟩
    · intro events
      exact ⟨fun begins => begins.of_likeLaidOut realizes alike otherState,
        fun begins => begins.of_likeLaidOut realizes reverse state⟩

/-- A nested choice behind a blank, with a deferred document on the new line. -/
def Doc.nestedStep (kept : Bool) (amount : Amount) (flatLabel brokenLabel : Nat) : Doc :=
  .concat (.blank kept) (.nest amount (.union ⟨.made flatLabel, .doc .space⟩
    ⟨.made brokenLabel, .doc (.concat .line (.column ⟨.shared, .function (.custom 0)⟩))⟩))

theorem Doc.Regular.nestedStep (kept : Bool) (amount : Amount) (flatLabel brokenLabel : Nat) :
    (Doc.nestedStep kept amount flatLabel brokenLabel).Regular :=
  .concat (.blank kept) (.nest amount (.union _ _ (.text _) (.concat .line (.column _))))

/-- The space exceeds the width, so the line breaks.  The deferred document breaks it once more. -/
theorem Course.of_nestedStep :
    Course .steps 0 0 [⟨0, .doc (.nestedStep true (.bool true) 0 1)⟩]
      [.decision ⟨1, 0, false⟩, .item (.line 1), .item (.line 1)] none := by
  have space : Search .steps 0 0 [⟨1, .doc .space⟩] (Found.overflows.after [.text .space]) :=
    .emit (by decide) (Obligation.answer_text ..) (.beyond (by decide))
  have gives : Value.resolved .steps (.function (.custom 0)) 1 = .ok .line := rfl
  have deferredMove : Obligation.answer .steps 1
      ⟨1, .doc (.column ⟨.shared, .function (.custom 0)⟩)⟩ =
        .ok (.replace [⟨1, .doc .line⟩]) := by
    rw [Obligation.answer_column, gives]
    rfl
  have broken : Course .steps 0 0
      [⟨1, .doc (.concat .line (.column ⟨.shared, .function (.custom 0)⟩))⟩]
      [.item (.line 1), .item (.line 1)] none :=
    .replace (Obligation.answer_concat ..) (.newline (Obligation.answer_line ..)
      (.replace deferredMove (.newline (Obligation.answer_line ..) .done)))
  exact .replace (Obligation.answer_concat ..) (.replace (Obligation.answer_blank ..)
    (.replace (Obligation.answer_nest ..) (.broken (Obligation.answer_union ..) space broken)))

/-- Over both documents a walk breaks the choice, and both lines break to the first column. -/
theorem nestedStep_interchangeable :
    Meaning.steps.countingHost.Realizes .steps ∧ (Doc.nestedStep true (.bool true) 0 1).Regular ∧
      (Doc.nestedStep true (.bool true) 0 1).equal (.nestedStep false (.int 1) 2 3) = true ∧
      (∀ events ending,
        (Walk.start 0 [⟨0, .doc (.nestedStep true (.bool true) 0 1)⟩] 0).Ends
            Meaning.steps.countingHost 0 events ending ↔
          (Walk.start 0 [⟨0, .doc (.nestedStep false (.int 1) 2 3)⟩] 7).Ends
            Meaning.steps.countingHost 0 events ending) ∧
      (Walk.start 0 [⟨0, .doc (.nestedStep true (.bool true) 0 1)⟩] 0).Ends
        Meaning.steps.countingHost 0 [.decision ⟨1, 0, false⟩, .item (.line 1), .item (.line 1)]
        none ∧
      (Walk.start 0 [⟨0, .doc (.nestedStep false (.int 1) 2 3)⟩] 7).Ends
        Meaning.steps.countingHost 0 [.decision ⟨1, 0, false⟩, .item (.line 1), .item (.line 1)]
        none := by
  have realizes := Meaning.steps.realizes_countingHost
  have regular := Doc.Regular.nestedStep true (.bool true) 0 1
  have amountEq : (Amount.bool true).toInt = (Amount.int 1).toInt := rfl
  have equal : (Doc.nestedStep true (.bool true) 0 1).equal (.nestedStep false (.int 1) 2 3) =
      true := by
    apply Doc.equal_eq_true_iff.mpr
    exact .concat (.blank true false)
      (.nest amountEq (.union (.text _) (.concat .line (.column _))))
  obtain ⟨-, layouts⟩ := equal_interchangeable realizes regular equal
  obtain ⟨sameEnds, -⟩ := layouts 0 0 0 [] 0 7
  have ends := (Walk.ends_iff_course realizes 0 _ 0).mpr Course.of_nestedStep
  exact ⟨realizes, regular, equal, sameEnds, ends, (sameEnds _ _).mp ends⟩

end DocLayout
