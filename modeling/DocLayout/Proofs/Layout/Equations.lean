import DocLayout.Proofs.Layout.Exchange

/-!
# Equations of concatenation, blanks and nesting

Concatenation is associative, and blanks are neutral to it.  Nesting adds up, does nothing by zero,
goes into concatenations, and is lost on text and blanks.

The two sides of an equation are replaced by the same obligations, and so are their one-line forms,
which are the sides of an equation of the same kind.  So one side may take the place of the other
one in every context.  This holds of endless layouts as well, item by item.
-/

namespace DocLayout

/-- The equations, each with its left side first. -/
inductive Doc.Equation : Doc → Doc → Prop where
  | concat_concat (first second third : Doc) :
      Equation (.concat (.concat first second) third) (.concat first (.concat second third))
  | blank_concat (kept : Bool) (document : Doc) :
      Equation (.concat (.blank kept) document) document
  | concat_blank (document : Doc) (kept : Bool) :
      Equation (.concat document (.blank kept)) document
  | nest_zero {amount : Amount} (zero : amount.toInt = 0) (document : Doc) :
      Equation (.nest amount document) document
  | nest_nest (outer inner : Amount) (document : Doc) :
      Equation (.nest outer (.nest inner document))
        (.nest (.int (outer.toInt + inner.toInt)) document)
  | nest_concat (amount : Amount) (left right : Doc) :
      Equation (.nest amount (.concat left right))
        (.concat (.nest amount left) (.nest amount right))
  | nest_text (amount : Amount) (fragment : Fragment) :
      Equation (.nest amount (.text fragment)) (.text fragment)
  | nest_blank (amount : Amount) (kept : Bool) :
      Equation (.nest amount (.blank kept)) (.blank kept)

namespace Doc.Equation

variable {left right : Doc}

/-- The sides of an equation are replaced by the same obligations. -/
theorem alike (equation : Equation left right) (meaning : Meaning) :
    left.Alike meaning right := by
  intro width column indent rest
  cases equation with
  | concat_concat first second third =>
      refine ((Interchangeable.concat ..).trans (.concat ..)).trans (.symm ?_)
      exact (Interchangeable.concat ..).trans
        (.cons (fun _ => .concat indent second third) _ column)
  | blank_concat kept => exact (Interchangeable.concat ..).trans (.blank indent kept)
  | concat_blank _ kept =>
      exact (Interchangeable.concat ..).trans (.cons (fun _ => .blank indent kept) _ column)
  | @nest_zero amount zero =>
      refine (Interchangeable.nest ..).trans ?_
      rw [zero, Int.add_zero]
      exact .refl _
  | nest_nest outer inner document =>
      refine ((Interchangeable.nest ..).trans (.nest ..)).trans ?_
      rw [Int.add_assoc]
      exact (Interchangeable.nest indent (.int (outer.toInt + inner.toInt)) document).symm
  | nest_concat amount first second =>
      refine ((Interchangeable.nest ..).trans (.concat ..)).trans (.symm ?_)
      refine (Interchangeable.concat ..).trans ((Interchangeable.nest ..).trans ?_)
      exact .cons (fun _ => .nest indent amount second) _ column
  | nest_text amount fragment => exact (Interchangeable.nest ..).trans (.text ..)
  | nest_blank amount kept =>
      exact ((Interchangeable.nest ..).trans (.blank ..)).trans
        (Interchangeable.blank indent kept).symm

/-- The one-line forms are the sides of an equation of the same kind. -/
theorem exists_oneLine (equation : Equation left right) (grouped : left.Grouped) :
    ∃ flatLeft flatRight : Doc, left.oneLine = .ok (.doc flatLeft) ∧
      right.oneLine = .ok (.doc flatRight) ∧ Equation flatLeft flatRight := by
  cases equation with
  | concat_concat =>
      rcases grouped with _ | _ | _ | ⟨_ | _ | _ | ⟨firstGrouped, secondGrouped⟩, thirdGrouped⟩
      obtain ⟨first, firstEq, -⟩ := firstGrouped.exists_oneLine
      obtain ⟨second, secondEq, -⟩ := secondGrouped.exists_oneLine
      obtain ⟨third, thirdEq, -⟩ := thirdGrouped.exists_oneLine
      exact ⟨_, _, oneLine_concat (oneLine_concat firstEq secondEq) thirdEq,
        oneLine_concat firstEq (oneLine_concat secondEq thirdEq), .concat_concat ..⟩
  | blank_concat kept =>
      rcases grouped with _ | _ | _ | ⟨-, grouped⟩
      obtain ⟨flat, flatEq, -⟩ := grouped.exists_oneLine
      exact ⟨_, flat, oneLine_concat rfl flatEq, flatEq, .blank_concat kept flat⟩
  | concat_blank _ kept =>
      rcases grouped with _ | _ | _ | ⟨grouped, -⟩
      obtain ⟨flat, flatEq, -⟩ := grouped.exists_oneLine
      exact ⟨_, flat, oneLine_concat flatEq rfl, flatEq, .concat_blank flat kept⟩
  | @nest_zero amount zero =>
      rcases grouped with _ | _ | _ | _ | ⟨_, grouped⟩
      obtain ⟨flat, flatEq, -⟩ := grouped.exists_oneLine
      exact ⟨_, flat, oneLine_nest amount flatEq, flatEq, .nest_zero zero flat⟩
  | nest_nest outer inner =>
      rcases grouped with _ | _ | _ | _ | ⟨_, _ | _ | _ | _ | ⟨_, grouped⟩⟩
      obtain ⟨flat, flatEq, -⟩ := grouped.exists_oneLine
      exact ⟨_, _, oneLine_nest outer (oneLine_nest inner flatEq), oneLine_nest _ flatEq,
        .nest_nest outer inner flat⟩
  | nest_concat amount =>
      rcases grouped with _ | _ | _ | _ | ⟨_, _ | _ | _ | ⟨leftGrouped, rightGrouped⟩⟩
      obtain ⟨first, firstEq, -⟩ := leftGrouped.exists_oneLine
      obtain ⟨second, secondEq, -⟩ := rightGrouped.exists_oneLine
      exact ⟨_, _, oneLine_nest amount (oneLine_concat firstEq secondEq),
        oneLine_concat (oneLine_nest amount firstEq) (oneLine_nest amount secondEq),
        .nest_concat amount first second⟩
  | nest_text amount fragment => exact ⟨_, _, rfl, rfl, .nest_text amount fragment⟩
  | nest_blank amount kept => exact ⟨_, _, rfl, rfl, .nest_blank amount kept⟩

/-- The sides of an equation may be replaced by each other. -/
theorem exchangeable (equation : Equation left right) (grouped : left.Grouped)
    (comparison : Comparison) (meaning : Meaning) (admits : Value → Prop) :
    left.Exchangeable comparison meaning admits right := by
  obtain ⟨flatLeft, flatRight, leftEq, rightEq, flatEquation⟩ := equation.exists_oneLine grouped
  exact .of_alike (equation.alike meaning) leftEq rightEq
    (flatEquation.alike meaning)

end Doc.Equation

variable {σ : Type} {host : Host σ} {meaning : Meaning}

/-- At every width two documents have the same layout, and if the layout is endless, the same first
items. -/
def Doc.LaidAlike (host : Host σ) (first second : Doc) : Prop :=
  ∀ (width : Int) (state other : σ),
    (∀ layout, (Walk.start 0 [⟨0, .doc first⟩] state).Emits host width layout ↔
      (Walk.start 0 [⟨0, .doc second⟩] other).Emits host width layout) ∧
    ∀ items, (Walk.start 0 [⟨0, .doc first⟩] state).Opens host width items ↔
      (Walk.start 0 [⟨0, .doc second⟩] other).Opens host width items

/-- Documents that show the same excerpts are laid out alike. -/
theorem Doc.LaidAlike.of_matched {admits : Value → Prop} {first second : Doc}
    (realizes : host.Realizes meaning) (matched : first.MatchedBy .exact meaning admits second)
    (reverse : second.MatchedBy .exact meaning admits first) : first.LaidAlike host second := by
  intro width state other
  have nothingElse : ∀ part ∈ ([] : List Obligation), admits part.value := by simp
  have same : Interchangeable meaning width 0 [⟨0, .doc first⟩] [⟨0, .doc second⟩] :=
    .of_matched (matched nothingElse) (reverse nothingElse)
  simp only [Walk.emits_iff_shows realizes, Walk.opens_iff_shows realizes, same.shows, implies_true,
    and_self]

/-- Documents that may be replaced by each other are laid out alike in every context. -/
theorem Doc.Exchangeable.laidAlike (realizes : host.Realizes meaning) {left right : Identified Doc}
    (exchangeable : left.content.Exchangeable .exact meaning (fun _ => True) right.content)
    (context : Context) : context.FillsAlike (Doc.LaidAlike host) left right := by
  refine (Context.fillsAlike_of_exchangeable (fun _ _ => trivial)
    (context.all_of_forall fun _ => trivial) exchangeable).mono ?_
  rintro whole other ⟨replaceable, reverse⟩
  exact .of_matched realizes replaceable.matched reverse.matched

/-- Whatever the context, either side of an equation may take the place of the other one: the same
layouts are emitted, with the same errors. -/
theorem equation_holds_in_context (realizes : host.Realizes meaning) {left right : Identified Doc}
    (equation : Doc.Equation left.content right.content) (grouped : left.content.Grouped)
    (context : Context) :
    context.FillsAlike (Doc.LaidAlike host) left right ∧
      (context.All Doc.Grouped → ∃ whole, context.fill left = .ok whole) := by
  constructor
  · exact (equation.exchangeable grouped .exact meaning fun _ => True).laidAlike realizes context
  · intro around
    obtain ⟨whole, fills, -⟩ := Context.exists_fill_of_grouped around grouped
    exact ⟨whole, fills⟩

/-- On one line the deferred document breaks the line, and two spaces come behind it. -/
theorem Prescribed.of_nested_concat (flatIdentity : Identity) :
    let deferred := Doc.column ⟨.shared, .function (.custom 0)⟩
    Prescribed .steps 0 0
      [⟨0, .doc (Context.inAlignedGroup flatIdentity (.nest (.int 2) (.concat deferred .space))
        (.nest (.int 2) (.concat deferred .line)))⟩]
      ⟨[.line 2, .text .space, .text .space], none⟩ := by
  intro deferred
  have spaces : Prescribed .steps 0 2 [⟨2, .doc .space⟩, ⟨0, .doc .space⟩]
      ⟨[.text .space, .text .space], none⟩ := .text (.text .done)
  have flat : Prescribed .steps 0 0
      [⟨0, .doc (.nest (.int 2) (.concat deferred .space))⟩, ⟨0, .doc .space⟩]
      (.after [.line 2] ⟨[.text .space, .text .space], none⟩) :=
    .nest (.concat (.deferred_steps (by decide) spaces))
  exact .column rfl (.nesting rfl (.nest (.flat (.concat flat) rfl)))

/-- In an aligned group within no columns, the deferred document breaks the line. -/
theorem nested_concat_in_alignedGroup :
    let deferred := Doc.column ⟨.shared, .function (.custom 0)⟩
    let left : Identified Doc := ⟨.made 3, .nest (.int 2) (.concat deferred .line)⟩
    let right : Identified Doc :=
      ⟨.made 4, .concat (.nest (.int 2) deferred) (.nest (.int 2) .line)⟩
    Meaning.steps.countingHost.Realizes .steps ∧ Doc.Equation left.content right.content ∧
      left.content.Grouped ∧
      ∃ whole other, Context.alignedGroup.fill left = .ok whole ∧
        Context.alignedGroup.fill right = .ok other ∧
        whole.content.LaidAlike Meaning.steps.countingHost other.content ∧
        ∀ document ∈ [whole.content, other.content],
          (Walk.start 0 [⟨0, .doc document⟩] 0).Emits Meaning.steps.countingHost 0
            ⟨[.line 2, .text .space, .text .space], none⟩ := by
  intro deferred left right
  have realizes := Meaning.steps.realizes_countingHost
  have equation : Doc.Equation left.content right.content := .nest_concat (.int 2) deferred .line
  have grouped : left.content.Grouped := .nest (.int 2) (.concat (.column _) .line)
  obtain ⟨alike, exists_whole⟩ :=
    equation_holds_in_context realizes equation grouped Context.alignedGroup
  obtain ⟨whole, fills⟩ := exists_whole Context.alignedGroup_grouped
  obtain ⟨other, otherFills, laidAlike⟩ := alike.1 whole fills
  obtain ⟨flatIdentity, fillsEq⟩ := Context.exists_fill_alignedGroup left rfl
  cases fills.symm.trans fillsEq
  have emits := (Prescribed.of_nested_concat flatIdentity).start_emits realizes 0
  have otherEmits := ((laidAlike 0 0 0).1 _).mp emits
  exact ⟨realizes, equation, grouped, _, other, fills, otherFills, laidAlike,
    List.forall_mem_cons.mpr ⟨emits, List.forall_mem_singleton.mpr otherEmits⟩⟩

end DocLayout
