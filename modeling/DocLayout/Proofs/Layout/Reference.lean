import DocLayout.Proofs.Layout.Fitting
import DocLayout.Proofs.Layout.Walk
import Mathlib.Logic.ExistsUnique

/-!
# The prescribed layout

The rules of layout, one for each kind of document, without probes and without a memory.  At a
choice the whole rest is laid out with the flat member in front, and the choice is flat if that
layout stays within the width up to its first line break.  Every choice further on is decided anew,
in the same way.

Documents with pure callbacks whose deferral is finite have exactly one prescribed layout, and it is
the layout that the walk emits.
-/

namespace DocLayout

/-- The rules of layout, from a column with obligations to be laid out. -/
inductive Prescribed (meaning : Meaning) (width : Int) :
    Int → List Obligation → Layout → Prop where
  | done {column : Int} : Prescribed meaning width column [] ⟨[], none⟩
  | blank {column indent : Int} {kept : Bool} {rest : List Obligation} {layout : Layout}
      (later : Prescribed meaning width column rest layout) :
      Prescribed meaning width column (⟨indent, .doc (.blank kept)⟩ :: rest) layout
  | text {column indent : Int} {fragment : Fragment} {rest : List Obligation} {layout : Layout}
      (later : Prescribed meaning width (column + fragment.width) rest layout) :
      Prescribed meaning width column (⟨indent, .doc (.text fragment)⟩ :: rest)
        (layout.after [.text fragment])
  | line {column indent : Int} {rest : List Obligation} {layout : Layout}
      (later : Prescribed meaning width (max indent 0) rest layout) :
      Prescribed meaning width column (⟨indent, .doc .line⟩ :: rest) (layout.after [.line indent])
  | concat {column indent : Int} {left right : Doc} {rest : List Obligation} {layout : Layout}
      (later : Prescribed meaning width column
        (⟨indent, .doc left⟩ :: ⟨indent, .doc right⟩ :: rest) layout) :
      Prescribed meaning width column (⟨indent, .doc (.concat left right)⟩ :: rest) layout
  | nest {column indent : Int} {amount : Amount} {inner : Doc} {rest : List Obligation}
      {layout : Layout}
      (later : Prescribed meaning width column (⟨indent + amount.toInt, .doc inner⟩ :: rest)
        layout) :
      Prescribed meaning width column (⟨indent, .doc (.nest amount inner)⟩ :: rest) layout
  | nesting {column indent : Int} {callback : Object} {result : Doc} {rest : List Obligation}
      {layout : Layout} (gives : callback.content.resolved meaning indent = .ok result)
      (later : Prescribed meaning width column (⟨indent, .doc result⟩ :: rest) layout) :
      Prescribed meaning width column (⟨indent, .doc (.nesting callback)⟩ :: rest) layout
  | nestingFails {column indent : Int} {callback : Object} {cause : Error} {rest : List Obligation}
      (gives : callback.content.resolved meaning indent = .error cause) :
      Prescribed meaning width column (⟨indent, .doc (.nesting callback)⟩ :: rest) (.failed cause)
  | column {column indent : Int} {callback : Object} {result : Doc} {rest : List Obligation}
      {layout : Layout} (gives : callback.content.resolved meaning column = .ok result)
      (later : Prescribed meaning width column (⟨indent, .doc result⟩ :: rest) layout) :
      Prescribed meaning width column (⟨indent, .doc (.column callback)⟩ :: rest) layout
  | columnFails {column indent : Int} {callback : Object} {cause : Error} {rest : List Obligation}
      (gives : callback.content.resolved meaning column = .error cause) :
      Prescribed meaning width column (⟨indent, .doc (.column callback)⟩ :: rest) (.failed cause)
  | flat {column indent : Int} {flat broken : Object} {rest : List Obligation} {layout : Layout}
      (flatLayout : Prescribed meaning width column (⟨indent, flat.content⟩ :: rest) layout)
      (fits : layout.fits (width - column) = .ok true) :
      Prescribed meaning width column (⟨indent, .doc (.union flat broken)⟩ :: rest) layout
  | broken {column indent : Int} {flat broken : Object} {rest : List Obligation}
      {flatLayout layout : Layout}
      (flatPrescribed : Prescribed meaning width column (⟨indent, flat.content⟩ :: rest) flatLayout)
      (overflows : flatLayout.fits (width - column) = .ok false)
      (later : Prescribed meaning width column (⟨indent, broken.content⟩ :: rest) layout) :
      Prescribed meaning width column (⟨indent, .doc (.union flat broken)⟩ :: rest) layout
  | undecided {column indent : Int} {flat broken : Object} {rest : List Obligation}
      {flatLayout : Layout} {cause : Error}
      (flatPrescribed : Prescribed meaning width column (⟨indent, flat.content⟩ :: rest) flatLayout)
      (fails : flatLayout.fits (width - column) = .error cause) :
      Prescribed meaning width column (⟨indent, .doc (.union flat broken)⟩ :: rest) (.failed cause)
  | unknown {column indent : Int} {rest : List Obligation} :
      Prescribed meaning width column (⟨indent, .doc .unknown⟩ :: rest)
        (.failed (.notDoc (.doc .unknown)))
  | other {column indent : Int} {value : Value} {rest : List Obligation}
      (notDoc : ∀ document, value ≠ .doc document) :
      Prescribed meaning width column (⟨indent, value⟩ :: rest) (.failed (.notDoc value))

/-- What a search says about the question whether a layout stays within its budget. -/
def Found.answer : Found → Except Error Bool
  | .fits _ _ _ => .ok true
  | .overflows => .ok false
  | .fails cause => .error cause

theorem Found.answer_eq_true_iff {found : Found} :
    found.answer = .ok true ↔ ∃ items column rest, found = .fits items column rest := by
  cases found <;> simp [answer]

theorem Found.answer_eq_false_iff {found : Found} :
    found.answer = .ok false ↔ found = .overflows := by
  cases found <;> simp [answer]

theorem Found.answer_eq_error_iff {found : Found} {cause : Error} :
    found.answer = .error cause ↔ found = .fails cause := by
  cases found <;> simp [answer]

namespace Prescribed

variable {meaning : Meaning} {width column : Int} {parts : List Obligation} {layout : Layout}

/-- The rules by what obligations begin with: all that only puts other obligations in the place of
one is a single case. -/
theorem induction_on_moves
    {motive : ∀ {column parts layout}, Prescribed meaning width column parts layout → Prop}
    (done : ∀ {column}, motive (.done : Prescribed meaning width column [] ⟨[], none⟩))
    (emit : ∀ {column part rest fragment layout}
      (_ : Obligation.answer meaning column part = .ok (.emit fragment))
      (later : Prescribed meaning width (column + fragment.width) rest layout)
      (whole : Prescribed meaning width column (part :: rest) (layout.after [.text fragment])),
      motive later → motive whole)
    (newline : ∀ {column part rest layout}
      (_ : Obligation.answer meaning column part = .ok .newline)
      (later : Prescribed meaning width (max part.indent 0) rest layout)
      (whole : Prescribed meaning width column (part :: rest) (layout.after [.line part.indent])),
      motive later → motive whole)
    (replace : ∀ {column part rest next layout}
      (_ : Obligation.answer meaning column part = .ok (.replace next))
      (later : Prescribed meaning width column (next ++ rest) layout)
      (whole : Prescribed meaning width column (part :: rest) layout),
      motive later → motive whole)
    (flat : ∀ {column part rest flat broken layout}
      (_ : Obligation.answer meaning column part = .ok (.choose flat broken))
      (flatLayout : Prescribed meaning width column (⟨part.indent, flat⟩ :: rest) layout)
      (whole : Prescribed meaning width column (part :: rest) layout),
      layout.fits (width - column) = .ok true → motive flatLayout → motive whole)
    (broken : ∀ {column part rest flat broken skipped layout}
      (_ : Obligation.answer meaning column part = .ok (.choose flat broken))
      (flatLayout : Prescribed meaning width column (⟨part.indent, flat⟩ :: rest) skipped)
      (later : Prescribed meaning width column (⟨part.indent, broken⟩ :: rest) layout)
      (whole : Prescribed meaning width column (part :: rest) layout),
      skipped.fits (width - column) = .ok false → motive flatLayout → motive later → motive whole)
    (undecided : ∀ {column part rest flat broken skipped cause}
      (_ : Obligation.answer meaning column part = .ok (.choose flat broken))
      (flatLayout : Prescribed meaning width column (⟨part.indent, flat⟩ :: rest) skipped)
      (whole : Prescribed meaning width column (part :: rest) (.failed cause)),
      skipped.fits (width - column) = .error cause → motive flatLayout → motive whole)
    (fails : ∀ {column part rest cause} (_ : Obligation.answer meaning column part = .error cause)
      (whole : Prescribed meaning width column (part :: rest) (.failed cause)), motive whole)
    (prescribed : Prescribed meaning width column parts layout) : motive prescribed := by
  induction prescribed with
  | done => exact done
  | blank later hypothesis => exact replace (Obligation.answer_blank ..) later _ hypothesis
  | text later hypothesis => exact emit (Obligation.answer_text ..) later _ hypothesis
  | line later hypothesis => exact newline (Obligation.answer_line ..) later _ hypothesis
  | concat later hypothesis => exact replace (Obligation.answer_concat ..) later _ hypothesis
  | nest later hypothesis => exact replace (Obligation.answer_nest ..) later _ hypothesis
  | nesting gives later hypothesis =>
      exact replace (by rw [Obligation.answer_nesting, gives]; rfl) later _ hypothesis
  | nestingFails gives => exact fails (by rw [Obligation.answer_nesting, gives]; rfl) _
  | column gives later hypothesis =>
      exact replace (by rw [Obligation.answer_column, gives]; rfl) later _ hypothesis
  | columnFails gives => exact fails (by rw [Obligation.answer_column, gives]; rfl) _
  | flat flatLayout fits hypothesis =>
      exact flat (Obligation.answer_union ..) flatLayout _ fits hypothesis
  | broken flatLayout overflows later flatHypothesis hypothesis =>
      exact broken (Obligation.answer_union ..) flatLayout later _ overflows flatHypothesis
        hypothesis
  | undecided flatLayout fitsFails hypothesis =>
      exact undecided (Obligation.answer_union ..) flatLayout _ fitsFails hypothesis
  | unknown => exact fails (Obligation.answer_unknown ..) _
  | other notDoc => exact fails (Obligation.answer_of_not_doc _ _ _ notDoc) _

/-- Beyond the width the answer is known before anything is looked at. -/
theorem exists_search_of_within
    (answered : column ≤ width → ∃ found, Search meaning width column parts found ∧
      layout.fits (width - column) = found.answer) :
    ∃ found, Search meaning width column parts found ∧
      layout.fits (width - column) = found.answer := by
  by_cases within : column ≤ width
  · exact answered within
  · have exceeds : width < column := Int.not_le.mp within
    exact ⟨.overflows, .beyond exceeds, layout.fits_of_neg (by omega)⟩

/-- A search answers whether the prescribed layout fits. -/
theorem exists_search (prescribed : Prescribed meaning width column parts layout) :
    ∃ found, Search meaning width column parts found ∧
      layout.fits (width - column) = found.answer := by
  induction prescribed using induction_on_moves with
  | done =>
      apply exists_search_of_within
      intro within
      exact ⟨_, .done within, Layout.fits_empty (by omega)⟩
  | emit move _ _ inductionHypothesis =>
      apply exists_search_of_within
      intro within
      obtain ⟨found, search, fitsEq⟩ := inductionHypothesis
      refine ⟨_, .emit within move search, ?_⟩
      rw [Layout.fits_text _ _ (by omega), Int.sub_sub, fitsEq]
      cases found <;> rfl
  | newline move =>
      apply exists_search_of_within
      intro within
      exact ⟨_, .newline within move, Layout.fits_line _ _ (by omega)⟩
  | replace move _ _ inductionHypothesis =>
      apply exists_search_of_within
      intro within
      obtain ⟨found, search, fitsEq⟩ := inductionHypothesis
      exact ⟨found, .replace within move search, fitsEq⟩
  | flat move _ _ fits inductionHypothesis =>
      apply exists_search_of_within
      intro within
      obtain ⟨found, search, fitsEq⟩ := inductionHypothesis
      have settled : found ≠ .overflows := by
        rintro rfl
        cases fitsEq.symm.trans fits
      exact ⟨found, .flat within move search settled, fitsEq⟩
  | broken move _ _ _ overflows flatHypothesis brokenHypothesis =>
      apply exists_search_of_within
      intro within
      obtain ⟨flatFound, flatSearch, flatEq⟩ := flatHypothesis
      obtain ⟨found, search, fitsEq⟩ := brokenHypothesis
      obtain rfl := Found.answer_eq_false_iff.mp (flatEq.symm.trans overflows)
      exact ⟨found, .broken within move flatSearch search, fitsEq⟩
  | undecided move _ _ fails inductionHypothesis =>
      apply exists_search_of_within
      intro within
      obtain ⟨found, search, fitsEq⟩ := inductionHypothesis
      obtain rfl := Found.answer_eq_error_iff.mp (fitsEq.symm.trans fails)
      exact ⟨_, .flat within move search (by simp), Layout.fits_failed _ (by omega)⟩
  | fails move =>
      apply exists_search_of_within
      intro within
      exact ⟨_, .fails within move, Layout.fits_failed _ (by omega)⟩

/-- The prescribed layout is the one of the course. -/
theorem exists_course (prescribed : Prescribed meaning width column parts layout) :
    ∃ events, Course meaning width column parts events layout.ending ∧
      itemsOf events = layout.items := by
  induction prescribed using induction_on_moves with
  | done => exact ⟨[], .done, rfl⟩
  | emit move _ _ inductionHypothesis =>
      obtain ⟨events, course, itemsEq⟩ := inductionHypothesis
      exact ⟨_, .emit move course, congrArg _ itemsEq⟩
  | newline move _ _ inductionHypothesis =>
      obtain ⟨events, course, itemsEq⟩ := inductionHypothesis
      exact ⟨_, .newline move course, congrArg _ itemsEq⟩
  | replace move _ _ inductionHypothesis =>
      obtain ⟨events, course, itemsEq⟩ := inductionHypothesis
      exact ⟨events, .replace move course, itemsEq⟩
  | flat move flatLayout _ fits inductionHypothesis =>
      obtain ⟨found, search, fitsEq⟩ := flatLayout.exists_search
      obtain ⟨events, course, itemsEq⟩ := inductionHypothesis
      obtain ⟨items, next, remaining, rfl⟩ := Found.answer_eq_true_iff.mp (fitsEq.symm.trans fits)
      -- The walk takes the items over, so its course goes on where the search ends.
      obtain ⟨later, laterCourse, laterEq⟩ := course.of_fits search rfl
      refine ⟨_, .flat move search laterCourse, ?_⟩
      rw [itemsOf_decision_cons, itemsOf_append, itemsOf_map_item, ← laterEq, itemsEq]
  | broken move flatLayout _ _ overflows _ inductionHypothesis =>
      obtain ⟨found, search, fitsEq⟩ := flatLayout.exists_search
      obtain ⟨events, course, itemsEq⟩ := inductionHypothesis
      obtain rfl := Found.answer_eq_false_iff.mp (fitsEq.symm.trans overflows)
      exact ⟨_, .broken move search course, itemsEq⟩
  | undecided move flatLayout _ fails =>
      obtain ⟨found, search, fitsEq⟩ := flatLayout.exists_search
      obtain rfl := Found.answer_eq_error_iff.mp (fitsEq.symm.trans fails)
      exact ⟨[], .undecided move search, rfl⟩
  | fails move => exact ⟨[], .fails move, rfl⟩

/-- At most one layout is prescribed. -/
theorem unique {other : Layout} (prescribed : Prescribed meaning width column parts layout)
    (otherPrescribed : Prescribed meaning width column parts other) : layout = other := by
  obtain ⟨events, course, itemsEq⟩ := prescribed.exists_course
  obtain ⟨otherEvents, otherCourse, otherItemsEq⟩ := otherPrescribed.exists_course
  obtain ⟨eventsEq, endingEq⟩ := course.unique otherCourse
  rcases layout with ⟨items, ending⟩
  rcases other with ⟨otherItems, otherEnding⟩
  cases eventsEq
  cases endingEq
  exact congrArg (Layout.mk · _) (itemsEq.symm.trans otherItemsEq)

/-- A document whose deferral is finite has a layout in front of anything that has one. -/
theorem exists_cons {value : Value} (settles : value.Settles meaning) {rest : List Obligation}
    (restPrescribed : ∀ column, ∃ layout, Prescribed meaning width column rest layout)
    (column indent : Int) :
    ∃ layout, Prescribed meaning width column (⟨indent, value⟩ :: rest) layout := by
  induction settles generalizing rest column indent with
  | blank kept =>
      obtain ⟨layout, prescribed⟩ := restPrescribed column
      exact ⟨layout, .blank prescribed⟩
  | text fragment =>
      obtain ⟨layout, prescribed⟩ := restPrescribed (column + fragment.width)
      exact ⟨_, .text prescribed⟩
  | line =>
      obtain ⟨layout, prescribed⟩ := restPrescribed (max indent 0)
      exact ⟨_, .line prescribed⟩
  | unknown => exact ⟨_, .unknown⟩
  | concat _ _ leftHypothesis rightHypothesis =>
      obtain ⟨layout, prescribed⟩ := leftHypothesis
        (fun column => rightHypothesis restPrescribed column indent) column indent
      exact ⟨layout, .concat prescribed⟩
  | nest amount _ inductionHypothesis =>
      obtain ⟨layout, prescribed⟩ :=
        inductionHypothesis restPrescribed column (indent + amount.toInt)
      exact ⟨layout, .nest prescribed⟩
  | union _ _ flatHypothesis brokenHypothesis =>
      obtain ⟨flatLayout, flatPrescribed⟩ := flatHypothesis restPrescribed column indent
      obtain ⟨layout, prescribed⟩ := brokenHypothesis restPrescribed column indent
      rcases fitsEq : flatLayout.fits (width - column) with cause | (_ | _)
      · exact ⟨_, .undecided flatPrescribed fitsEq⟩
      · exact ⟨layout, .broken flatPrescribed fitsEq prescribed⟩
      · exact ⟨flatLayout, .flat flatPrescribed fitsEq⟩
  | @nesting callback _ inductionHypothesis =>
      cases gives : callback.content.resolved meaning indent with
      | ok result =>
          obtain ⟨layout, prescribed⟩ := inductionHypothesis gives restPrescribed column indent
          exact ⟨layout, .nesting gives prescribed⟩
      | error cause => exact ⟨_, .nestingFails gives⟩
  | @column callback _ inductionHypothesis =>
      cases gives : callback.content.resolved meaning column with
      | ok result =>
          obtain ⟨layout, prescribed⟩ := inductionHypothesis gives restPrescribed column indent
          exact ⟨layout, .column gives prescribed⟩
      | error cause => exact ⟨_, .columnFails gives⟩
  | other notDoc => exact ⟨_, .other notDoc⟩

/-- Documents whose deferral is finite have a layout. -/
theorem exists_of_settles (width : Int) (settles : ∀ part ∈ parts, part.value.Settles meaning)
    (column : Int) : ∃ layout, Prescribed meaning width column parts layout := by
  induction parts generalizing column with
  | nil => exact ⟨_, .done⟩
  | cons part rest inductionHypothesis =>
      obtain ⟨partSettles, restSettle⟩ := List.forall_mem_cons.mp settles
      exact exists_cons partSettles (inductionHypothesis restSettle) column part.indent

variable {σ : Type} {host : Host σ} {domain : Value → Prop}

/-- A walk whose memory is reliable emits the prescribed layout. -/
theorem emits (follows : host.Follows meaning domain)
    (prescribed : Prescribed meaning width column parts layout)
    (inside : ∀ part ∈ parts, domain part.value) {position : Position} {store : Store σ}
    (columnEq : position.column = column) (partsEq : position.work.obligations = parts)
    (reliable : store.memory.Reliable meaning width) :
    (Walk.walking position store).Emits host width layout := by
  obtain ⟨events, course, itemsEq⟩ := prescribed.exists_course
  have emits := Walk.emits_of_course follows course inside columnEq partsEq reliable
  rwa [itemsEq] at emits

/-- A walk with pure callbacks emits the layout that is prescribed where it starts. -/
theorem start_emits (realizes : host.Realizes meaning)
    (prescribed : Prescribed meaning width column parts layout) (state : σ) :
    (Walk.start column parts state).Emits host width layout :=
  prescribed.emits realizes.follows (fun _ _ => trivial) rfl (Work.obligations_ofList parts)
    Memory.reliable_empty

end Prescribed

/-- Up to the second column the deferred document breaks the line. -/
theorem Prescribed.deferred_steps {width column indent : Int} {rest : List Obligation}
    {layout : Layout} (early : column < 2)
    (later : Prescribed .steps width (max indent 0) rest layout) :
    Prescribed .steps width column
      (⟨indent, .doc (.column ⟨.shared, .function (.custom 0)⟩)⟩ :: rest)
      (layout.after [.line indent]) := by
  have gives : Value.resolved .steps (.function (.custom 0)) column = .ok .line :=
    congrArg Except.ok (if_pos early)
  exact .column gives (.line later)

/-- The space exceeds the width, so the line breaks.  The deferred document breaks it once more. -/
theorem Prescribed.of_steps :
    Prescribed .steps 0 0 Obligation.steps ⟨[.line 0, .line 0, .text .space], none⟩ := by
  have tail : Prescribed .steps 0 0 [⟨0, .doc (.text .space)⟩] ⟨[.text .space], none⟩ := .text .done
  have broken : Prescribed .steps 0 0 Obligation.steps
      (.after [.line 0] (.after [.line 0] ⟨[.text .space], none⟩)) :=
    .broken (.concat (.text (.deferred_steps (by decide) tail))) rfl
      (.concat (.line (.deferred_steps (by decide) tail)))
  exact broken

/-- The search leaves the flat member where it exceeds the width, and comes to the line break. -/
theorem Position.exists_finds_steps : ∃ rest,
    Position.Finds .steps 0 ⟨0, .ofList Obligation.steps⟩ (.fits [.line 0] 0 rest) := by
  have within : (0 : Int) ≤ 0 := Int.le_refl 0
  have exceeds : (0 : Int) < 0 + Fragment.space.width := by decide
  have search : Search .steps 0 0 Obligation.steps (.fits [.line 0] 0 _) :=
    .broken within (Obligation.answer_union ..)
      (.replace within (Obligation.answer_concat ..)
        (.emit within (Obligation.answer_text ..) (.beyond exceeds)))
      (.replace within (Obligation.answer_concat ..)
        (.newline within (Obligation.answer_line ..)))
  exact ⟨_, finds_of_search search rfl (Work.obligations_ofList _)⟩

/-- For documents with pure callbacks whose deferral is finite, exactly one layout is prescribed,
and the walk emits this layout and no other one. -/
theorem emits_iff_prescribed {σ : Type} {host : Host σ} {meaning : Meaning}
    (realizes : host.Realizes meaning) {parts : List Obligation}
    (settles : ∀ part ∈ parts, part.value.Settles meaning) (width column : Int) (state : σ) :
    (∃! layout, Prescribed meaning width column parts layout) ∧
      ∀ layout, (Walk.start column parts state).Emits host width layout ↔
        Prescribed meaning width column parts layout := by
  obtain ⟨layout, prescribed⟩ := Prescribed.exists_of_settles width settles column
  have emits : (Walk.start column parts state).Emits host width layout :=
    prescribed.start_emits realizes state
  constructor
  · exact ⟨layout, prescribed, fun other otherPrescribed => otherPrescribed.unique prescribed⟩
  · intro other
    constructor
    · intro otherEmits
      rwa [otherEmits.unique emits]
    · intro otherPrescribed
      rwa [otherPrescribed.unique prescribed]

theorem steps_emitted_iff_prescribed :
    (∀ part ∈ Obligation.steps, part.value.Settles .steps) ∧
      Meaning.steps.countingHost.Realizes .steps ∧
      (∃! layout, Prescribed .steps 0 0 Obligation.steps layout) ∧
      (Walk.start 0 Obligation.steps 0).Emits Meaning.steps.countingHost 0
        ⟨[.line 0, .line 0, .text .space], none⟩ := by
  have realizes := Meaning.steps.realizes_countingHost
  obtain ⟨prescribed, emitted⟩ := emits_iff_prescribed realizes Obligation.steps_settle 0 0 0
  exact ⟨Obligation.steps_settle, realizes, prescribed, (emitted _).mpr .of_steps⟩

end DocLayout
