import DocLayout.Proofs.Doc.Grouped

/-!
# Documents with a hole

A context is a document with one hole, around which there are concatenations, nestings, groups and
alignments.  Filling the hole makes a document with the building functions, from the hole outwards.
Grouping may refuse the document that has been made so far, but not if all choices in the context
and in what fills the hole are groups.
-/

namespace DocLayout

/-- A document with a hole.  Every part around the hole has the label that it is made with. -/
inductive Context where
  /-- The hole alone. -/
  | hole
  /-- The hole is in the first one of two documents. -/
  | first (label : Nat) (context : Context) (right : Doc)
  /-- The hole is in the second one of two documents. -/
  | second (label : Nat) (left : Doc) (context : Context)
  /-- The hole is in a nested document. -/
  | nest (label : Nat) (amount : Amount) (context : Context)
  /-- The hole is in a group. -/
  | group (label : Nat) (context : Context)
  /-- The hole is in an aligned document. -/
  | align (label : Nat) (context : Context)

namespace Context

/-- Puts a document in the hole. -/
def fill : Context → Identified Doc → Except Error (Identified Doc)
  | .hole, document => .ok document
  | .first label context right, document => do
      let left ← context.fill document
      Build.concatOf label (.doc left.content) (.doc right)
  | .second label left context, document => do
      let right ← context.fill document
      Build.concatOf label (.doc left) (.doc right.content)
  | .nest label amount context, document => do
      let inner ← context.fill document
      Build.nest label (.num amount) inner.object
  | .group label context, document => do
      let inner ← context.fill document
      Build.group label inner.object
  | .align label context, document => do
      let inner ← context.fill document
      Build.align label inner.object

/-- All documents around the hole have a property. -/
def All (P : Doc → Prop) : Context → Prop
  | .hole => True
  | .first _ context right => context.All P ∧ P right
  | .second _ left context => P left ∧ context.All P
  | .nest _ _ context => context.All P
  | .group _ context => context.All P
  | .align _ context => context.All P

variable {label : Nat} {context : Context} {left right : Doc} {amount : Amount}
  {document whole : Identified Doc}

theorem All.mono {P Q : Doc → Prop} {context : Context} (all : context.All P)
    (weakens : ∀ document, P document → Q document) : context.All Q := by
  induction context with
  | hole => trivial
  | first _ _ right inductionHypothesis => exact ⟨inductionHypothesis all.1, weakens right all.2⟩
  | second _ left _ inductionHypothesis => exact ⟨weakens left all.1, inductionHypothesis all.2⟩
  | nest _ _ _ inductionHypothesis => exact inductionHypothesis all
  | group _ _ inductionHypothesis => exact inductionHypothesis all
  | align _ _ inductionHypothesis => exact inductionHypothesis all

theorem all_of_forall {P : Doc → Prop} (holds : ∀ document, P document) (context : Context) :
    context.All P := by
  induction context with
  | hole => trivial
  | first _ _ right inductionHypothesis => exact ⟨inductionHypothesis, holds right⟩
  | second _ left _ inductionHypothesis => exact ⟨holds left, inductionHypothesis⟩
  | nest _ _ _ inductionHypothesis => exact inductionHypothesis
  | group _ _ inductionHypothesis => exact inductionHypothesis
  | align _ _ inductionHypothesis => exact inductionHypothesis

theorem fill_first_eq_ok_iff :
    (Context.first label context right).fill document = .ok whole ↔
      ∃ inner, context.fill document = .ok inner ∧
        whole = ⟨.made label, .concat inner.content right⟩ := by
  rw [fill]
  cases context.fill document with
  | error cause => simp [Bind.bind, Except.bind]
  | ok inner =>
      simp [Bind.bind, Except.bind, Build.concatOf, Doc.concatOf, pure, Except.pure, eq_comm]

theorem fill_second_eq_ok_iff :
    (Context.second label left context).fill document = .ok whole ↔
      ∃ inner, context.fill document = .ok inner ∧
        whole = ⟨.made label, .concat left inner.content⟩ := by
  rw [fill]
  cases context.fill document with
  | error cause => simp [Bind.bind, Except.bind]
  | ok inner =>
      simp [Bind.bind, Except.bind, Build.concatOf, Doc.concatOf, pure, Except.pure, eq_comm]

theorem fill_nest_eq_ok_iff :
    (Context.nest label amount context).fill document = .ok whole ↔
      ∃ inner, context.fill document = .ok inner ∧
        whole = ⟨.made label, .nest amount inner.content⟩ := by
  rw [fill]
  cases context.fill document with
  | error cause => simp [Bind.bind, Except.bind]
  | ok inner =>
      have made : Build.nest label (.num amount) inner.object =
          .ok ⟨.made label, .nest amount inner.content⟩ := rfl
      simp [Bind.bind, Except.bind, made, eq_comm]

theorem fill_align_eq_ok_iff :
    (Context.align label context).fill document = .ok whole ↔
      ∃ inner, context.fill document = .ok inner ∧
        whole = ⟨.made label, inner.content.aligned label⟩ := by
  rw [fill]
  cases context.fill document with
  | error cause => simp [Bind.bind, Except.bind]
  | ok inner =>
      have made : Build.align label inner.object =
          .ok ⟨.made label, inner.content.aligned label⟩ := rfl
      simp [Bind.bind, Except.bind, made, eq_comm]

theorem fill_group_eq_ok_iff :
    (Context.group label context).fill document = .ok whole ↔
      ∃ inner flat, context.fill document = .ok inner ∧
        inner.object.flatten label = .ok flat ∧
        whole = ⟨.made label, .union flat inner.object⟩ := by
  rw [fill]
  cases context.fill document with
  | error cause => simp [Bind.bind, Except.bind]
  | ok inner =>
      have groupIff : Build.group label inner.object = .ok whole ↔ _ :=
        Build.group_object_eq_ok_iff
      simpa [Bind.bind, Except.bind] using groupIff

/-- Among groups the hole can be filled with a document whose choices are groups. -/
theorem exists_fill_of_grouped (grouped : context.All Doc.Grouped)
    (documentGrouped : document.content.Grouped) :
    ∃ whole, context.fill document = .ok whole ∧ whole.content.Grouped := by
  induction context with
  | hole => exact ⟨document, rfl, documentGrouped⟩
  | first label context right inductionHypothesis =>
      obtain ⟨inner, fills, innerGrouped⟩ := inductionHypothesis grouped.1
      exact ⟨_, fill_first_eq_ok_iff.mpr ⟨inner, fills, rfl⟩, .concat innerGrouped grouped.2⟩
  | second label left context inductionHypothesis =>
      obtain ⟨inner, fills, innerGrouped⟩ := inductionHypothesis grouped.2
      exact ⟨_, fill_second_eq_ok_iff.mpr ⟨inner, fills, rfl⟩, .concat grouped.1 innerGrouped⟩
  | nest label amount context inductionHypothesis =>
      obtain ⟨inner, fills, innerGrouped⟩ := inductionHypothesis grouped
      exact ⟨_, fill_nest_eq_ok_iff.mpr ⟨inner, fills, rfl⟩, .nest amount innerGrouped⟩
  | group label context inductionHypothesis =>
      obtain ⟨inner, fills, innerGrouped⟩ := inductionHypothesis grouped
      obtain ⟨flat, flattens, -⟩ := innerGrouped.exists_oneLine
      obtain ⟨identity, flatEq⟩ := Identified.exists_flatten_object flattens label
      exact ⟨_, fill_group_eq_ok_iff.mpr ⟨inner, _, fills, flatEq, rfl⟩,
        .group innerGrouped flattens identity inner.identity⟩
  | align label context inductionHypothesis =>
      obtain ⟨inner, fills, -⟩ := inductionHypothesis grouped
      exact ⟨_, fill_align_eq_ok_iff.mpr ⟨inner, fills, rfl⟩, .column _⟩

/-! ## An example -/

/-- An aligned group of the hole and a line break. -/
def alignedGroup : Context :=
  .align 2 (.group 1 (.first 0 .hole .line))

theorem alignedGroup_grouped : alignedGroup.All Doc.Grouped :=
  ⟨trivial, .line⟩

/-- A document in the hole.  The flat member of the group has its one-line form. -/
def inAlignedGroup (flatIdentity : Identity) (flat document : Doc) : Doc :=
  (Doc.union ⟨flatIdentity, .doc (.concat flat .space)⟩
    ⟨.made 0, .doc (.concat document .line)⟩).aligned 2

theorem exists_fill_alignedGroup (document : Identified Doc) {flat : Doc}
    (flattens : document.content.oneLine = .ok (.doc flat)) :
    ∃ flatIdentity, alignedGroup.fill document =
      .ok ⟨.made 2, inAlignedGroup flatIdentity flat document.content⟩ := by
  let inner : Identified Doc := ⟨.made 0, .concat document.content .line⟩
  have innerFills : (Context.first 0 .hole .line).fill document = .ok inner := rfl
  have innerFlattens : inner.content.oneLine = .ok (.doc (.concat flat .space)) :=
    Doc.oneLine_concat flattens rfl
  obtain ⟨flatIdentity, flatEq⟩ := Identified.exists_flatten_object innerFlattens 1
  have groupFills := fill_group_eq_ok_iff.mpr ⟨inner, _, innerFills, flatEq, rfl⟩
  exact ⟨flatIdentity, fill_align_eq_ok_iff.mpr ⟨_, groupFills, rfl⟩⟩

end Context

end DocLayout
