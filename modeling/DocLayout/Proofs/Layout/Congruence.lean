import DocLayout.Proofs.Layout.Exchange
import DocLayout.Proofs.Layout.Reading

/-!
# Equivalent documents

Two documents are equivalent if they have the same layout in front of everything, and so have their
one-line forms.  Equivalence is kept in every context.  What follows is laid out behind a document
of finite deferral, so that all layouts are finite: then the layout says what a search answers, and
it is all that is ever shown.
-/

namespace DocLayout

variable {σ : Type} {host : Host σ} {meaning : Meaning}

/-! ## Finite deferral -/

/-- The deferral in the one-line form of a document is finite. -/
theorem Value.Settles.oneLine {document : Doc} {value : Value}
    (settles : Settles meaning (.doc document)) (flattens : document.oneLine = .ok value) :
    value.Settles meaning := by
  generalize wholeEq : Value.doc document = whole at settles
  induction settles generalizing document value with
  | blank kept =>
      cases wholeEq
      cases flattens
      exact .blank kept
  | text fragment =>
      cases wholeEq
      cases flattens
      exact .text fragment
  | line =>
      cases wholeEq
      cases flattens
      exact .text _
  | unknown =>
      cases wholeEq
      cases flattens
      exact .unknown
  | concat _ _ leftHypothesis rightHypothesis =>
      cases wholeEq
      obtain ⟨newLeft, newRight, leftEq, rightEq, rfl⟩ := Doc.oneLine_concat_eq_ok_iff.mp flattens
      exact .concat (leftHypothesis leftEq rfl) (rightHypothesis rightEq rfl)
  | nest amount _ inductionHypothesis =>
      cases wholeEq
      obtain ⟨newInner, innerEq, rfl⟩ := Doc.oneLine_nest_eq_ok_iff.mp flattens
      exact .nest amount (inductionHypothesis innerEq rfl)
  | union flatSettles =>
      cases wholeEq
      cases flattens
      exact flatSettles
  | nesting resultSettles =>
      cases wholeEq
      cases flattens
      exact .nesting resultSettles
  | column resultSettles =>
      cases wholeEq
      cases flattens
      exact .column resultSettles
  | other notDoc => exact absurd wholeEq.symm (notDoc document)

theorem Doc.settles_aligned {document : Doc} (settles : (Value.doc document).Settles meaning)
    (label : Nat) : (Value.doc (document.aligned label)).Settles meaning := by
  refine .column fun {column result} gives => ?_
  cases gives
  refine .nesting fun {indent result} gives => ?_
  cases gives
  exact .nest _ settles

/-- Among finite deferral the hole may be filled with finite deferral. -/
theorem Context.fill_settles {context : Context}
    (around : context.All fun document => (Value.doc document).Settles meaning)
    {document whole : Identified Doc} (settles : (Value.doc document.content).Settles meaning)
    (fills : context.fill document = .ok whole) :
    (Value.doc whole.content).Settles meaning := by
  induction context generalizing whole with
  | hole =>
      cases fills
      exact settles
  | first label context right inductionHypothesis =>
      obtain ⟨inner, innerFills, rfl⟩ := fill_first_eq_ok_iff.mp fills
      exact .concat (inductionHypothesis around.1 innerFills) around.2
  | second label left context inductionHypothesis =>
      obtain ⟨inner, innerFills, rfl⟩ := fill_second_eq_ok_iff.mp fills
      exact .concat around.1 (inductionHypothesis around.2 innerFills)
  | nest label amount context inductionHypothesis =>
      obtain ⟨inner, innerFills, rfl⟩ := fill_nest_eq_ok_iff.mp fills
      exact .nest amount (inductionHypothesis around innerFills)
  | group label context inductionHypothesis =>
      obtain ⟨inner, flat, innerFills, flatEq, rfl⟩ := fill_group_eq_ok_iff.mp fills
      have innerSettles := inductionHypothesis around innerFills
      have flattens := Identified.content_flatten_object label inner
      rw [flatEq] at flattens
      exact .union (innerSettles.oneLine flattens.symm) innerSettles
  | align label context inductionHypothesis =>
      obtain ⟨inner, innerFills, rfl⟩ := fill_align_eq_ok_iff.mp fills
      exact Doc.settles_aligned (inductionHypothesis around innerFills) label

/-! ## Equivalence -/

/-- In front of everything whose deferral is finite, two documents have the same layout. -/
def Doc.SameLayouts (host : Host σ) (meaning : Meaning) (first second : Doc) : Prop :=
  ∀ (width column indent : Int) (rest : List Obligation),
    (∀ part ∈ rest, part.value.Settles meaning) → ∀ (state other : σ) (layout : Layout),
      (Walk.start column (⟨indent, .doc first⟩ :: rest) state).Emits host width layout ↔
        (Walk.start column (⟨indent, .doc second⟩ :: rest) other).Emits host width layout

/-- Two documents have the same layouts, and so have the documents that they are flattened to. -/
structure Doc.Equivalent (host : Host σ) (meaning : Meaning) (first second : Doc) : Prop where
  laid : first.SameLayouts host meaning second
  flat : ∃ flat otherFlat : Doc, (Value.doc first).flatten = .ok (.doc flat) ∧
    (Value.doc second).flatten = .ok (.doc otherFlat) ∧ flat.SameLayouts host meaning otherFlat

variable {width column : Int} {first second : Doc}

theorem Prescribed.exists_of_settles_cons (settles : (Value.doc first).Settles meaning)
    {rest : List Obligation} (restSettle : ∀ part ∈ rest, part.value.Settles meaning)
    (width column indent : Int) :
    ∃ layout, Prescribed meaning width column (⟨indent, .doc first⟩ :: rest) layout :=
  exists_cons settles (fun column => exists_of_settles width restSettle column) column indent

theorem Prescribed.shows {parts : List Obligation} {layout : Layout}
    (prescribed : Prescribed meaning width column parts layout) :
    Shows meaning width column parts layout.excerpt :=
  Shows.complete_iff_exists_course.mpr prescribed.exists_course

/-- Obligations with the same layout are matched by each other. -/
theorem Matched.of_prescribed {parts others : List Obligation} {layout : Layout}
    (prescribed : Prescribed meaning width column parts layout)
    (otherPrescribed : Prescribed meaning width column others layout) :
    Matched .complete meaning width column parts others where
  answers answered := by
    obtain ⟨found, search, foundEq⟩ := prescribed.exists_search
    obtain ⟨otherFound, otherSearch, otherFoundEq⟩ := otherPrescribed.exists_search
    obtain rfl := answered.unique (.of_search search)
    exact ⟨otherFound, otherSearch, otherFoundEq.symm.trans foundEq⟩
  shows {excerpt} shown := by
    by_cases ended : excerpt.ending = .suspended
    · exact ⟨_, otherPrescribed.shows, .inl ended⟩
    · obtain rfl := shown.unique_of_ended prescribed.shows ended layout.excerpt_ending_ne
      exact ⟨_, otherPrescribed.shows, .inr rfl⟩

namespace Doc

theorem SameLayouts.symm (same : first.SameLayouts host meaning second) :
    second.SameLayouts host meaning first :=
  fun width column indent rest settle state other layout =>
    (same width column indent rest settle other state layout).symm

/-- A document is matched by another one with the same layouts. -/
theorem SameLayouts.matchedBy (realizes : host.Realizes meaning)
    (same : first.SameLayouts host meaning second) (settles : (Value.doc first).Settles meaning)
    (otherSettles : (Value.doc second).Settles meaning) (state : σ) :
    first.MatchedBy .complete meaning (Value.Settles meaning) second := by
  intro width column indent rest restSettle
  obtain ⟨layout, prescribed⟩ :=
    Prescribed.exists_of_settles_cons settles restSettle width column indent
  obtain ⟨otherLayout, otherPrescribed⟩ :=
    Prescribed.exists_of_settles_cons otherSettles restSettle width column indent
  have emits := (Walk.emits_iff_shows realizes column _ state).mpr prescribed.shows
  have otherEmits := (same width column indent rest restSettle state state layout).mp emits
  have otherShows := (Walk.emits_iff_shows realizes column _ state).mp otherEmits
  obtain rfl := otherShows.layout_unique otherPrescribed.shows
  exact .of_prescribed prescribed otherPrescribed

/-- A document that is matched by another one has no layout but that of the other one. -/
theorem MatchedBy.emits (realizes : host.Realizes meaning)
    (matched : first.MatchedBy .complete meaning (Value.Settles meaning) second) {indent : Int}
    {rest : List Obligation} (restSettle : ∀ part ∈ rest, part.value.Settles meaning)
    {state other : σ} {layout : Layout}
    (emits : (Walk.start column (⟨indent, .doc first⟩ :: rest) state).Emits host width layout) :
    (Walk.start column (⟨indent, .doc second⟩ :: rest) other).Emits host width layout := by
  have shows := (Walk.emits_iff_shows realizes column _ state).mp emits
  obtain ⟨_, otherShows, suspended | rfl⟩ := (matched restSettle).shows shows
  · exact absurd suspended layout.excerpt_ending_ne
  · exact (Walk.emits_iff_shows realizes column _ other).mpr otherShows

theorem SameLayouts.of_matchedBy (realizes : host.Realizes meaning)
    (matched : σ → first.MatchedBy .complete meaning (Value.Settles meaning) second)
    (reverse : σ → second.MatchedBy .complete meaning (Value.Settles meaning) first) :
    first.SameLayouts host meaning second :=
  fun _ _ _ _ restSettle state _ _ =>
    ⟨(matched state).emits realizes restSettle, (reverse state).emits realizes restSettle⟩

/-- Equivalent documents may be replaced by each other. -/
theorem Equivalent.exchangeable (realizes : host.Realizes meaning)
    (equivalent : first.Equivalent host meaning second)
    (settles : (Value.doc first).Settles meaning)
    (otherSettles : (Value.doc second).Settles meaning) (state : σ) :
    first.Exchangeable .complete meaning (Value.Settles meaning) second := by
  obtain ⟨flat, otherFlat, flattens, otherFlattens, flatSame⟩ := equivalent.flat
  rw [Value.flatten_doc] at flattens otherFlattens
  have flatSettles := settles.oneLine flattens
  have otherFlatSettles := otherSettles.oneLine otherFlattens
  constructor
  · exact .of_oneLine (equivalent.laid.matchedBy realizes settles otherSettles state) flattens
      otherFlattens (flatSame.matchedBy realizes flatSettles otherFlatSettles state)
  · exact .of_oneLine (equivalent.laid.symm.matchedBy realizes otherSettles settles state)
      otherFlattens flattens
      (flatSame.symm.matchedBy realizes otherFlatSettles flatSettles state)

end Doc

/-- Documents that may be replaced by each other, whatever the state, are equivalent if they have
one-line forms. -/
theorem Doc.Equivalent.of_exchangeable (realizes : host.Realizes meaning)
    (exchangeable : σ → first.Exchangeable .complete meaning (Value.Settles meaning) second)
    {flat otherFlat : Doc} (flattens : first.oneLine = .ok (.doc flat))
    (otherFlattens : second.oneLine = .ok (.doc otherFlat)) :
    first.Equivalent host meaning second where
  laid := .of_matchedBy realizes (fun state => (exchangeable state).replaceable.matched)
    fun state => (exchangeable state).reverse.matched
  flat := by
    refine ⟨flat, otherFlat, (Value.flatten_doc first).trans flattens,
      (Value.flatten_doc second).trans otherFlattens, .of_matchedBy realizes ?_ ?_⟩
    · intro state
      obtain ⟨_, _, ⟨⟩, sameFlattens, matched⟩ := (exchangeable state).replaceable.oneLine flattens
      cases sameFlattens.symm.trans otherFlattens
      exact matched
    · intro state
      obtain ⟨_, _, ⟨⟩, sameFlattens, matched⟩ := (exchangeable state).reverse.oneLine otherFlattens
      cases sameFlattens.symm.trans flattens
      exact matched

/-- Equivalent documents make equivalent documents of every context, and these are printed alike. -/
theorem equivalence_is_congruence (realizes : host.Realizes meaning)
    {first second : Identified Doc} (grouped : first.content.Grouped)
    (otherGrouped : second.content.Grouped) (settles : (Value.doc first.content).Settles meaning)
    (otherSettles : (Value.doc second.content).Settles meaning)
    (equivalent : first.content.Equivalent host meaning second.content) (context : Context)
    (around : context.All fun document =>
      document.Grouped ∧ (Value.doc document).Settles meaning) :
    ∃ whole other, context.fill first = .ok whole ∧ context.fill second = .ok other ∧
      whole.content.Equivalent host meaning other.content ∧
      ∀ (style : Style) (width : Int) (state otherState : σ), ∃ outcome,
        PrintsOut host style width whole.content state outcome ∧
          PrintsOut host style width other.content otherState outcome := by
  have aroundGrouped := around.mono fun _ holds => holds.1
  have aroundSettles := around.mono fun _ holds => holds.2
  obtain ⟨whole, fills, wholeGrouped⟩ := Context.exists_fill_of_grouped aroundGrouped grouped
  obtain ⟨other, otherFills, allGrouped⟩ :=
    Context.exists_fill_of_grouped aroundGrouped otherGrouped
  have exchangeable (state : σ) :
      whole.content.Exchangeable .complete meaning (Value.Settles meaning) other.content := by
    obtain ⟨found, foundFills, wholeExchangeable⟩ :=
      (Context.fillsAlike_of_exchangeable (fun inside flattens => inside.oneLine flattens)
        aroundSettles (equivalent.exchangeable realizes settles otherSettles state)).1 whole fills
    cases foundFills.symm.trans otherFills
    exact wholeExchangeable
  obtain ⟨flat, flattens, -⟩ := wholeGrouped.exists_oneLine
  obtain ⟨otherFlat, otherFlattens, -⟩ := allGrouped.exists_oneLine
  have wholeEquivalent : whole.content.Equivalent host meaning other.content :=
    .of_exchangeable realizes exchangeable flattens otherFlattens
  refine ⟨whole, other, fills, otherFills, wholeEquivalent, fun style width state otherState => ?_⟩
  have wholeSettles := Context.fill_settles aroundSettles settles fills
  have nothingElse : ∀ part ∈ ([] : List Obligation), part.value.Settles meaning := by simp
  obtain ⟨layout, prescribed⟩ :=
    Prescribed.exists_of_settles_cons wholeSettles nothingElse width 0 0
  have emits := (Walk.emits_iff_shows realizes 0 _ state).mpr prescribed.shows
  have otherEmits :=
    (wholeEquivalent.laid width 0 0 [] nothingElse state otherState layout).mp emits
  exact ⟨_, printsOut_of_emits emits style, printsOut_of_emits otherEmits style⟩

/-- On one line the deferred document behind the blank breaks the line. -/
theorem Prescribed.of_blank_dropped (flatIdentity : Identity) :
    let deferred := Doc.column ⟨.shared, .function (.custom 0)⟩
    Prescribed .steps 0 0
      [⟨0, .doc (Context.inAlignedGroup flatIdentity (.concat .empty deferred)
        (.concat .empty deferred))⟩]
      ⟨[.line 0, .text .space], none⟩ := by
  intro deferred
  have flat : Prescribed .steps 0 0 [⟨0, .doc (.concat .empty deferred)⟩, ⟨0, .doc .space⟩]
      (.after [.line 0] (.after [.text .space] ⟨[], none⟩)) :=
    .concat (.blank (.deferred_steps (by decide) (.text .done)))
  exact .column rfl (.nesting rfl (.nest (.flat (.concat flat) rfl)))

/-- With the blank and without it, there is a line break and then a space. -/
theorem blank_dropped_in_alignedGroup :
    let deferred := Doc.column ⟨.shared, .function (.custom 0)⟩
    let first : Identified Doc := ⟨.made 3, .concat .empty deferred⟩
    let second : Identified Doc := ⟨.made 4, deferred⟩
    Meaning.steps.countingHost.Realizes .steps ∧ first.content.Grouped ∧ second.content.Grouped ∧
      (Value.doc first.content).Settles .steps ∧ (Value.doc second.content).Settles .steps ∧
      first.content.Equivalent Meaning.steps.countingHost .steps second.content ∧
      (Context.alignedGroup.All fun document =>
        document.Grouped ∧ (Value.doc document).Settles .steps) ∧
      ∃ whole other, Context.alignedGroup.fill first = .ok whole ∧
        Context.alignedGroup.fill second = .ok other ∧
        whole.content.Equivalent Meaning.steps.countingHost .steps other.content ∧
        ∀ document ∈ [whole.content, other.content],
          (Walk.start 0 [⟨0, .doc document⟩] 0).Emits Meaning.steps.countingHost 0
            ⟨[.line 0, .text .space], none⟩ := by
  intro deferred first second
  have realizes := Meaning.steps.realizes_countingHost
  have grouped : first.content.Grouped := .concat (.blank false) (.column _)
  have otherGrouped : second.content.Grouped := .column _
  have settles : (Value.doc first.content).Settles .steps :=
    .concat (.blank false) .deferred_steps
  have otherSettles : (Value.doc second.content).Settles .steps := .deferred_steps
  have alike : first.content.Alike .steps second.content :=
    fun _ _ indent _ => (Interchangeable.concat ..).trans (.blank indent false)
  have equivalent : first.content.Equivalent Meaning.steps.countingHost .steps second.content :=
    .of_exchangeable realizes (fun _ => .of_alike alike rfl rfl alike) rfl rfl
  have around : Context.alignedGroup.All fun document =>
      document.Grouped ∧ (Value.doc document).Settles .steps := ⟨trivial, .line, .line⟩
  obtain ⟨whole, other, fills, otherFills, wholeEquivalent, -⟩ :=
    equivalence_is_congruence realizes grouped otherGrouped settles otherSettles equivalent
      Context.alignedGroup around
  obtain ⟨flatIdentity, fillsEq⟩ := Context.exists_fill_alignedGroup first rfl
  cases fills.symm.trans fillsEq
  have emits := (Prescribed.of_blank_dropped flatIdentity).start_emits realizes 0
  have otherEmits := (wholeEquivalent.laid 0 0 0 [] (List.forall_mem_nil _) 0 0 _).mp emits
  exact ⟨realizes, grouped, otherGrouped, settles, otherSettles, equivalent, around, _, other,
    fills, otherFills, wholeEquivalent,
    List.forall_mem_cons.mpr ⟨emits, List.forall_mem_singleton.mpr otherEmits⟩⟩

end DocLayout
