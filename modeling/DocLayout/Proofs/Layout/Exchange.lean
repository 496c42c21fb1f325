import DocLayout.Proofs.Doc.Context
import DocLayout.Proofs.Layout.Replacement

/-!
# Replacing documents

A document may be replaced by another one if it is matched by it in front of whatever follows, and
the same holds of their one-line forms.  Then it may be replaced in every context: a group shows one
of two members that are matched.

What follows is kept to values that are admitted.  Any set will do, as long as it has the one-line
forms of its documents.
-/

namespace DocLayout

/-- In front of whatever is admitted, a document is matched by another one. -/
def Doc.MatchedBy (comparison : Comparison) (meaning : Meaning) (admits : Value → Prop)
    (first second : Doc) : Prop :=
  ∀ ⦃width column indent : Int⦄ ⦃rest : List Obligation⦄, (∀ part ∈ rest, admits part.value) →
    Matched comparison meaning width column (⟨indent, .doc first⟩ :: rest)
      (⟨indent, .doc second⟩ :: rest)

/-- Documents are interchangeable in front of anything. -/
def Doc.Alike (meaning : Meaning) (first second : Doc) : Prop :=
  ∀ (width column indent : Int) (rest : List Obligation),
    Interchangeable meaning width column (⟨indent, .doc first⟩ :: rest)
      (⟨indent, .doc second⟩ :: rest)

/-- A document may be replaced by another one: it is matched by it, and so are their one-line
forms. -/
structure Doc.ReplaceableBy (comparison : Comparison) (meaning : Meaning) (admits : Value → Prop)
    (first second : Doc) : Prop where
  matched : first.MatchedBy comparison meaning admits second
  oneLine {value : Value} (flattens : first.oneLine = .ok value) :
    ∃ flat otherFlat : Doc, value = .doc flat ∧ second.oneLine = .ok (.doc otherFlat) ∧
      flat.MatchedBy comparison meaning admits otherFlat

/-- Two documents may be replaced by each other. -/
structure Doc.Exchangeable (comparison : Comparison) (meaning : Meaning) (admits : Value → Prop)
    (first second : Doc) : Prop where
  replaceable : first.ReplaceableBy comparison meaning admits second
  reverse : second.ReplaceableBy comparison meaning admits first

variable {comparison : Comparison} {meaning : Meaning} {admits : Value → Prop}

/-- An aligned document is laid out with the column where it starts as its indentation. -/
theorem Obligation.answer_aligned (meaning : Meaning) (column indent : Int) (label : Nat)
    (document : Doc) :
    answer meaning column ⟨indent, .doc (document.aligned label)⟩ =
      .ok (.replace [⟨indent, .doc (.nesting ⟨.shared, .function (.alignAt column document)⟩)⟩]) :=
  rfl

theorem Obligation.answer_alignAt (meaning : Meaning) (column indent start : Int)
    (document : Doc) :
    answer meaning column
        ⟨indent, .doc (.nesting ⟨.shared, .function (.alignAt start document)⟩)⟩ =
      .ok (.replace [⟨indent, .doc (.nest (.int (start - indent)) document)⟩]) :=
  rfl

variable {first second flat otherFlat : Doc}

theorem Doc.Alike.symm (same : first.Alike meaning second) :
    second.Alike meaning first :=
  fun width column indent rest => (same width column indent rest).symm

theorem Doc.Alike.matched (same : first.Alike meaning second) :
    first.MatchedBy comparison meaning admits second :=
  fun width column indent rest _ => (same width column indent rest).matched

theorem Doc.ReplaceableBy.of_oneLine (matched : first.MatchedBy comparison meaning admits second)
    (flattens : first.oneLine = .ok (.doc flat))
    (otherFlattens : second.oneLine = .ok (.doc otherFlat))
    (flatMatched : flat.MatchedBy comparison meaning admits otherFlat) :
    first.ReplaceableBy comparison meaning admits second where
  matched := matched
  oneLine sameFlattens := by
    cases flattens.symm.trans sameFlattens
    exact ⟨flat, otherFlat, rfl, otherFlattens, flatMatched⟩

namespace Doc.Exchangeable

theorem of_alike (same : first.Alike meaning second)
    (flattens : first.oneLine = .ok (.doc flat))
    (otherFlattens : second.oneLine = .ok (.doc otherFlat))
    (flatSame : flat.Alike meaning otherFlat) :
    first.Exchangeable comparison meaning admits second where
  replaceable := .of_oneLine same.matched flattens otherFlattens flatSame.matched
  reverse := .of_oneLine same.symm.matched otherFlattens flattens flatSame.symm.matched

/-- Documents with the same one-line form may be replaced by each other if they are matched by each
other. -/
theorem of_same_oneLine (matched : first.MatchedBy comparison meaning admits second)
    (reverse : second.MatchedBy comparison meaning admits first)
    (flattens : first.oneLine = .ok (.doc flat))
    (otherFlattens : second.oneLine = .ok (.doc flat)) :
    first.Exchangeable comparison meaning admits second where
  replaceable := .of_oneLine matched flattens otherFlattens fun _ _ _ _ _ => .refl _
  reverse := .of_oneLine reverse otherFlattens flattens fun _ _ _ _ _ => .refl _

end Doc.Exchangeable

namespace Doc.MatchedBy

theorem concat_left (matched : first.MatchedBy comparison meaning admits second) {right : Doc}
    (rightAdmitted : admits (.doc right)) :
    (Doc.concat first right).MatchedBy comparison meaning admits (.concat second right) := by
  intro width column indent rest admitted
  apply Matched.replaced_left (Obligation.answer_concat ..)
  apply Matched.replaced_right (Obligation.answer_concat ..)
  exact matched (List.forall_mem_cons.mpr ⟨rightAdmitted, admitted⟩)

theorem concat_right (matched : first.MatchedBy comparison meaning admits second) (left : Doc) :
    (Doc.concat left first).MatchedBy comparison meaning admits (.concat left second) := by
  intro width column indent rest admitted
  apply Matched.replaced_left (Obligation.answer_concat ..)
  apply Matched.replaced_right (Obligation.answer_concat ..)
  exact .append (fun _ => matched admitted) [⟨indent, .doc left⟩] column

theorem nest (matched : first.MatchedBy comparison meaning admits second) (amount : Amount) :
    (Doc.nest amount first).MatchedBy comparison meaning admits (.nest amount second) := by
  intro width column indent rest admitted
  apply Matched.replaced_left (Obligation.answer_nest ..)
  apply Matched.replaced_right (Obligation.answer_nest ..)
  exact matched admitted

theorem union (matched : first.MatchedBy comparison meaning admits second)
    (flatMatched : flat.MatchedBy comparison meaning admits otherFlat)
    (flatIdentity firstIdentity otherIdentity secondIdentity : Identity) :
    (Doc.union ⟨flatIdentity, .doc flat⟩ ⟨firstIdentity, .doc first⟩).MatchedBy comparison meaning
      admits (.union ⟨otherIdentity, .doc otherFlat⟩ ⟨secondIdentity, .doc second⟩) := by
  intro width column indent rest admitted
  exact .chosen (Obligation.answer_union ..) (Obligation.answer_union ..) (flatMatched admitted)
    (matched admitted)

theorem aligned (matched : first.MatchedBy comparison meaning admits second) (label : Nat) :
    (first.aligned label).MatchedBy comparison meaning admits (second.aligned label) := by
  intro width column indent rest admitted
  apply Matched.replaced_left (Obligation.answer_aligned ..)
  apply Matched.replaced_right (Obligation.answer_aligned ..)
  apply Matched.replaced_left (Obligation.answer_alignAt ..)
  apply Matched.replaced_right (Obligation.answer_alignAt ..)
  exact matched.nest _ admitted

end Doc.MatchedBy

/-! ## Contexts -/

/-- The one-line form of an admitted document is admitted. -/
def Admissible (admits : Value → Prop) : Prop :=
  ∀ {document : Doc} {value : Value}, admits (.doc document) → document.oneLine = .ok value →
    admits value

/-- What may be replaced may be replaced in every context. -/
theorem Context.replaceable (admissible : Admissible admits) {context : Context}
    (around : context.All fun document => admits (.doc document))
    {first second : Identified Doc}
    (replaceable : first.content.ReplaceableBy comparison meaning admits second.content)
    {whole : Identified Doc} (fills : context.fill first = .ok whole) :
    ∃ other, context.fill second = .ok other ∧
      whole.content.ReplaceableBy comparison meaning admits other.content := by
  induction context generalizing whole with
  | hole =>
      cases fills
      exact ⟨second, rfl, replaceable⟩
  | first label context right inductionHypothesis =>
      obtain ⟨contextAround, rightAdmitted⟩ := around
      obtain ⟨inner, innerFills, rfl⟩ := fill_first_eq_ok_iff.mp fills
      obtain ⟨other, otherFills, matched, oneLine⟩ := inductionHypothesis contextAround innerFills
      refine ⟨_, fill_first_eq_ok_iff.mpr ⟨other, otherFills, rfl⟩,
        matched.concat_left rightAdmitted, fun flattens => ?_⟩
      obtain ⟨newLeft, newRight, leftEq, rightEq, rfl⟩ := Doc.oneLine_concat_eq_ok_iff.mp flattens
      obtain ⟨flat, otherFlat, ⟨⟩, otherEq, flatMatched⟩ := oneLine leftEq
      exact ⟨_, _, rfl, Doc.oneLine_concat otherEq rightEq,
        flatMatched.concat_left (admissible rightAdmitted rightEq)⟩
  | second label left context inductionHypothesis =>
      obtain ⟨-, contextAround⟩ := around
      obtain ⟨inner, innerFills, rfl⟩ := fill_second_eq_ok_iff.mp fills
      obtain ⟨other, otherFills, matched, oneLine⟩ := inductionHypothesis contextAround innerFills
      refine ⟨_, fill_second_eq_ok_iff.mpr ⟨other, otherFills, rfl⟩,
        matched.concat_right left, fun flattens => ?_⟩
      obtain ⟨newLeft, newRight, leftEq, rightEq, rfl⟩ := Doc.oneLine_concat_eq_ok_iff.mp flattens
      obtain ⟨flat, otherFlat, ⟨⟩, otherEq, flatMatched⟩ := oneLine rightEq
      exact ⟨_, _, rfl, Doc.oneLine_concat leftEq otherEq, flatMatched.concat_right newLeft⟩
  | nest label amount context inductionHypothesis =>
      obtain ⟨inner, innerFills, rfl⟩ := fill_nest_eq_ok_iff.mp fills
      obtain ⟨other, otherFills, matched, oneLine⟩ := inductionHypothesis around innerFills
      refine ⟨_, fill_nest_eq_ok_iff.mpr ⟨other, otherFills, rfl⟩, matched.nest amount,
        fun flattens => ?_⟩
      obtain ⟨newInner, innerEq, rfl⟩ := Doc.oneLine_nest_eq_ok_iff.mp flattens
      obtain ⟨flat, otherFlat, ⟨⟩, otherEq, flatMatched⟩ := oneLine innerEq
      exact ⟨_, _, rfl, Doc.oneLine_nest amount otherEq, flatMatched.nest amount⟩
  | group label context inductionHypothesis =>
      obtain ⟨inner, object, innerFills, objectEq, rfl⟩ := fill_group_eq_ok_iff.mp fills
      obtain ⟨other, otherFills, matched, oneLine⟩ := inductionHypothesis around innerFills
      -- The flat member of a group is a one-line form, so both members are replaced.
      have flattens := Identified.content_flatten_object label inner
      rw [objectEq] at flattens
      rcases object with ⟨identity, value⟩
      obtain ⟨flat, otherFlat, rfl, otherEq, flatMatched⟩ := oneLine flattens.symm
      obtain ⟨otherIdentity, otherObjectEq⟩ := Identified.exists_flatten_object otherEq label
      refine ⟨_, fill_group_eq_ok_iff.mpr ⟨other, _, otherFills, otherObjectEq, rfl⟩,
        matched.union flatMatched .., fun groupFlattens => ?_⟩
      cases groupFlattens
      exact ⟨flat, otherFlat, rfl, rfl, flatMatched⟩
  | align label context inductionHypothesis =>
      obtain ⟨inner, innerFills, rfl⟩ := fill_align_eq_ok_iff.mp fills
      obtain ⟨other, otherFills, matched, -⟩ := inductionHypothesis around innerFills
      exact ⟨_, fill_align_eq_ok_iff.mpr ⟨other, otherFills, rfl⟩,
        .of_oneLine (matched.aligned label) rfl rfl (matched.aligned label)⟩

/-- The hole can be filled with both of two documents or with neither of them, and a relation holds
between the documents that are made. -/
def Context.FillsAlike (relation : Doc → Doc → Prop) (context : Context)
    (first second : Identified Doc) : Prop :=
  (∀ whole, context.fill first = .ok whole →
    ∃ other, context.fill second = .ok other ∧ relation whole.content other.content) ∧
  ∀ other, context.fill second = .ok other →
    ∃ whole, context.fill first = .ok whole ∧ relation whole.content other.content

/-- Documents that may be replaced by each other fill a context alike. -/
theorem Context.fillsAlike_of_exchangeable (admissible : Admissible admits) {context : Context}
    (around : context.All fun document => admits (.doc document))
    {first second : Identified Doc}
    (exchangeable : first.content.Exchangeable comparison meaning admits second.content) :
    context.FillsAlike (Doc.Exchangeable comparison meaning admits) first second := by
  obtain ⟨replaceable, reverse⟩ := exchangeable
  constructor
  · intro whole fills
    obtain ⟨other, otherFills, wholeReplaceable⟩ :=
      context.replaceable admissible around replaceable fills
    obtain ⟨same, sameFills, otherReplaceable⟩ :=
      context.replaceable admissible around reverse otherFills
    cases fills.symm.trans sameFills
    exact ⟨other, otherFills, wholeReplaceable, otherReplaceable⟩
  · intro other otherFills
    obtain ⟨whole, fills, otherReplaceable⟩ :=
      context.replaceable admissible around reverse otherFills
    obtain ⟨same, sameFills, wholeReplaceable⟩ :=
      context.replaceable admissible around replaceable fills
    cases otherFills.symm.trans sameFills
    exact ⟨whole, fills, wholeReplaceable, otherReplaceable⟩

theorem Context.FillsAlike.mono {relation weaker : Doc → Doc → Prop} {context : Context}
    {first second : Identified Doc} (alike : context.FillsAlike relation first second)
    (weakens : ∀ {whole other}, relation whole other → weaker whole other) :
    context.FillsAlike weaker first second := by
  constructor
  · intro whole fills
    obtain ⟨other, otherFills, related⟩ := alike.1 whole fills
    exact ⟨other, otherFills, weakens related⟩
  · intro other otherFills
    obtain ⟨whole, fills, related⟩ := alike.2 other otherFills
    exact ⟨whole, fills, weakens related⟩

end DocLayout
