import DocLayout.Proofs.Layout.Equations
import DocLayout.Proofs.Layout.Indentation
import DocLayout.Proofs.Layout.Onward

/-!
# Alignment sets the indentation

An aligned document is laid out with the column where it starts as its indentation, whatever the
indentation around it is: it waits for the column and then for the indentation, and is nested by the
difference.  A hanging document adds an amount to this column, and an indented one has as many
spaces in front.  There are none if the amount is not positive.

So nesting around an alignment is lost.
-/

namespace DocLayout

variable {σ : Type} {host : Host σ} {width column indent : Int} {rest : List Obligation}

theorem Obligation.move_aligned (host : Host σ) (column indent : Int) (label : Nat)
    (document : Doc) :
    move host column ⟨indent, .doc (document.aligned label)⟩ = pure (.replace
      [⟨indent, .doc (.nesting ⟨.shared, .function (.alignAt column document)⟩)⟩]) :=
  rfl

theorem Obligation.move_alignAt (host : Host σ) (column indent start : Int) (document : Doc) :
    move host column ⟨indent, .doc (.nesting ⟨.shared, .function (.alignAt start document)⟩)⟩ =
      pure (.replace [⟨indent, .doc (.nest (.int (start - indent)) document)⟩]) :=
  rfl

/-- Nesting by the difference leads from the indentation to the column. -/
theorem Amount.add_toInt_difference (column indent : Int) :
    indent + toInt (.int (column - indent)) = column := by
  rw [toInt]
  omega

namespace LeadsTo

variable (host width column indent rest)

theorem blank (kept : Bool) :
    LeadsTo host width column (⟨indent, .doc (.blank kept)⟩ :: rest) [] column rest :=
  replace width (Obligation.move_blank host column indent kept) rest

theorem nest (amount : Amount) (inner : Doc) :
    LeadsTo host width column (⟨indent, .doc (.nest amount inner)⟩ :: rest) [] column
      (⟨indent + amount.toInt, .doc inner⟩ :: rest) :=
  replace width (Obligation.move_nest host column indent amount inner) rest

theorem concat (left right : Doc) :
    LeadsTo host width column (⟨indent, .doc (.concat left right)⟩ :: rest) [] column
      (⟨indent, .doc left⟩ :: ⟨indent, .doc right⟩ :: rest) :=
  replace width (Obligation.move_concat host column indent left right) rest

theorem text (fragment : Fragment) :
    LeadsTo host width column (⟨indent, .doc (.text fragment)⟩ :: rest) [.text fragment]
      (column + fragment.width) rest :=
  emit width (Obligation.move_text host column indent fragment) rest

/-- An aligned document has the column where it starts as its indentation. -/
theorem aligned (label : Nat) (document : Doc) :
    LeadsTo host width column (⟨indent, .doc (document.aligned label)⟩ :: rest) [] column
      (⟨column, .doc document⟩ :: rest) := by
  have columnGiven := replace width (Obligation.move_aligned host column indent label document) rest
  have indentGiven :=
    replace width (Obligation.move_alignAt host column indent column document) rest
  have nested := nest host width column indent rest (.int (column - indent)) document
  rw [Amount.add_toInt_difference] at nested
  exact (columnGiven.trans indentGiven).trans nested

/-- A fragment in front of a document is emitted, unless it is blank. -/
theorem fragment_append (fragment : Fragment) (document : Doc) :
    LeadsTo host width column (⟨indent, .doc (fragment.doc.append document)⟩ :: rest)
      fragment.items (column + fragment.width) (⟨indent, .doc document⟩ :: rest) := by
  by_cases nothing : fragment.text = ""
  · rw [Fragment.items, if_pos nothing, Fragment.doc, if_pos nothing, Doc.empty_append,
      Fragment.width_eq_zero_iff.mpr nothing, Int.natCast_zero, Int.add_zero]
    exact refl ..
  · rw [Fragment.items, if_neg nothing, Fragment.doc, if_neg nothing]
    have emitted (rest : List Obligation) := text host width column indent rest fragment
    by_cases empty : document = .empty
    · -- The blank is dropped, so there is nothing left of the document.
      subst empty
      rw [Doc.append_empty]
      exact (emitted rest).trans (blank host width _ indent rest false).symm
    · rw [Doc.append_of_ne_empty (by simp) empty]
      exact (concat ..).trans (emitted _)

end LeadsTo

/-- An indented document has spaces in front, as many as the amount says. -/
theorem LeadsTo.indented (host : Host σ) (width column indent : Int) (rest : List Obligation)
    (amount : Amount) (label : Nat) (document : Doc) :
    LeadsTo host width column
      (⟨indent, .doc ((Doc.nest amount ((Fragment.spaces amount.toInt.toNat).doc.append
        document)).aligned label)⟩ :: rest)
      (Fragment.spaces amount.toInt.toNat).items (column + amount.toInt.toNat)
      (⟨column + amount.toInt, .doc document⟩ :: rest) := by
  have emitted := fragment_append host width column (column + amount.toInt) rest
    (.spaces amount.toInt.toNat) document
  rw [Fragment.width_spaces] at emitted
  exact ((aligned ..).trans (nest ..)).trans emitted

theorem Fragment.items_spaces_of_pos {count : Nat} (pos : 0 < count) :
    (spaces count).items = [.text (spaces count)] := by
  rw [items, if_neg]
  intro nothing
  have none := width_eq_zero_iff.mpr nothing
  rw [width_spaces] at none
  omega

/-- Nesting around an alignment is lost, and so it is around the one-line form of an alignment. -/
theorem Doc.nest_aligned_exchangeable (comparison : Comparison) (meaning : Meaning)
    (admits : Value → Prop) (amount : Amount) (document : Doc) (label : Nat) :
    (Doc.nest amount (document.aligned label)).Exchangeable comparison meaning admits
      (document.aligned label) := by
  have alignedAlike (width column indent : Int) (rest : List Obligation) :
      Interchangeable meaning width column (⟨indent, .doc (document.aligned label)⟩ :: rest)
        (⟨column, .doc document⟩ :: rest) := by
    have nested : Interchangeable meaning width column
        (⟨indent, .doc (.nest (.int (column - indent)) document)⟩ :: rest) _ := .nest ..
    rw [Amount.add_toInt_difference] at nested
    exact (Interchangeable.replaced (Obligation.answer_aligned ..)).trans
      ((Interchangeable.replaced (Obligation.answer_alignAt ..)).trans nested)
  have alike : (Doc.nest amount (document.aligned label)).Alike meaning
      (document.aligned label) := by
    intro width column indent rest
    exact (Interchangeable.nest ..).trans
      ((alignedAlike ..).trans (alignedAlike width column indent rest).symm)
  exact .of_alike alike (Doc.oneLine_nest amount rfl) rfl alike

variable (host width column indent rest)

/-- Alignment, hanging and indentation set the indentation to the column where they start, whatever
the indentation around them is.  Walks and probes with any host do what they do over the document
itself, from the column and with the indentation that are set; an indented document has spaces in
front, and a probe overflows if they go past the width.  If the amount is not positive, there are no
spaces.  So nesting around an alignment is lost, everywhere. -/
theorem alignment_sets_indentation (document : Identified Doc) (label : Nat) :
    (∃ aligned, Build.align label document.object = .ok aligned ∧
      LeadsTo host width column (⟨indent, .doc aligned.content⟩ :: rest) [] column
        (⟨column, .doc document.content⟩ :: rest)) ∧
    (∀ amount : Amount, ∃ hanging, Build.hang label (.num amount) document.object = .ok hanging ∧
      LeadsTo host width column (⟨indent, .doc hanging.content⟩ :: rest) [] column
        (⟨column + amount.toInt, .doc document.content⟩ :: rest)) ∧
    (∀ amount : Amount, 1 ≤ amount.toInt → amount.toInt < Text.repeatLimit →
      ∃ indented, Build.indent label (.num amount) document.object = .ok indented ∧
        LeadsTo host width column (⟨indent, .doc indented.content⟩ :: rest)
          [.text (.spaces amount.toInt.toNat)] (column + amount.toInt)
          (⟨column + amount.toInt, .doc document.content⟩ :: rest) ∧
        (width < column + amount.toInt → ∀ state found final,
          (Probe.over column (⟨indent, .doc indented.content⟩ :: rest) state).FindsTo host width
            found final ↔ found = .overflows ∧ final = state)) ∧
    (∀ amount : Amount, -Text.repeatLimit ≤ amount.toInt → amount.toInt ≤ 0 →
      ∃ indented, Build.indent label (.num amount) document.object = .ok indented ∧
        LeadsTo host width column (⟨indent, .doc indented.content⟩ :: rest) [] column
          (⟨column + amount.toInt, .doc document.content⟩ :: rest)) ∧
    ∀ (amount : Amount) (outer : Nat), ∃ aligned nested,
      Build.align label document.object = .ok aligned ∧
      Build.nest outer (.num amount) aligned.object = .ok nested ∧
      LeadsTo host width column (⟨indent, .doc nested.content⟩ :: rest) [] column
        (⟨indent, .doc aligned.content⟩ :: rest) ∧
      ∀ meaning, host.Realizes meaning → ∀ context : Context,
        context.FillsAlike (Doc.LaidAlike host) nested aligned := by
  refine ⟨⟨_, rfl, .aligned ..⟩, fun amount => ⟨_, rfl, (LeadsTo.aligned ..).trans (.nest ..)⟩,
    ?_, ?_, ?_⟩
  · intro amount positive upper
    obtain ⟨indented, made, contentEq⟩ :=
      Build.exists_indent_of_inRange (by omega) upper label document
    have leads := LeadsTo.indented host width column indent rest amount label document.content
    have countEq : (amount.toInt.toNat : Int) = amount.toInt := by omega
    rw [Fragment.items_spaces_of_pos (by omega), countEq, ← contentEq] at leads
    refine ⟨indented, made, leads, fun beyond state found final => ?_⟩
    rw [leads.finds]
    simp only [Probe.over_findsTo_iff_of_beyond beyond]
    constructor
    · rintro ⟨_, ⟨rfl, rfl⟩, rfl⟩
      exact ⟨rfl, rfl⟩
    · rintro ⟨rfl, rfl⟩
      exact ⟨_, ⟨rfl, rfl⟩, rfl⟩
  · intro amount lower nonpositive
    obtain ⟨indented, made, contentEq⟩ :=
      Build.exists_indent_of_inRange lower
        (Int.lt_of_le_of_lt nonpositive (by decide)) label document
    have leads := LeadsTo.indented host width column indent rest amount label document.content
    rw [Int.toNat_of_nonpos nonpositive] at leads contentEq
    rw [← contentEq, Int.natCast_zero, Int.add_zero] at leads
    exact ⟨indented, made, leads⟩
  · intro amount outer
    refine ⟨_, _, rfl, rfl, ?_, fun meaning realizes context => ?_⟩
    · exact ((LeadsTo.nest ..).trans (.aligned ..)).trans (LeadsTo.aligned ..).symm
    · exact (Doc.nest_aligned_exchangeable .exact meaning (fun _ => True) amount document.content
        label).laidAlike realizes context

/-- In an aligned group within four columns, the line break of the aligned document stays. -/
theorem Prescribed.of_aligned_line (flatIdentity : Identity) :
    let aligned := (Doc.concat (.text .space) .line).aligned 1
    Prescribed .steps 4 0
      [⟨0, .doc (Context.inAlignedGroup flatIdentity (.nest (.int 7) aligned)
        (.nest (.int 7) aligned))⟩]
      ⟨[.text .space, .line 0, .text .space], none⟩ := by
  intro aligned
  have inside : Prescribed .steps 4 0
      [⟨7, .doc (.nest (.int (0 - 7)) (.concat (.text .space) .line))⟩, ⟨0, .doc .space⟩]
      (.after [.text .space] (.after [.line 0] ⟨[.text .space], none⟩)) :=
    .nest (.concat (.text (.line (.text .done))))
  have flat : Prescribed .steps 4 0 [⟨0, .doc (.concat (.nest (.int 7) aligned) .space)⟩]
      (.after [.text .space] (.after [.line 0] ⟨[.text .space], none⟩)) :=
    .concat (.nest (.column rfl (.nesting rfl inside)))
  exact .column rfl (.nesting rfl (.nest (.flat flat rfl)))

/-- A space and a line break, indented from the third column.  Two spaces go past the width, and a
negative amount gives none.  Aligned, they are laid out alike with nesting around them and without
it. -/
theorem spaced_line_indented :
    let host := Meaning.steps.countingHost
    let document : Identified Doc := ⟨.made 0, .concat (.text .space) .line⟩
    (∃ indented, Build.indent 1 (.num (.int 2)) document.object = .ok indented ∧
      LeadsTo host 4 3 (⟨-5, .doc indented.content⟩ :: Obligation.steps) [.text (.spaces 2)] 5
        (⟨5, .doc document.content⟩ :: Obligation.steps) ∧
      (Probe.over 3 (⟨-5, .doc indented.content⟩ :: Obligation.steps) 0).FindsTo host 4 .overflows
        0) ∧
    (∃ indented, Build.indent 1 (.num (.int (-1))) document.object = .ok indented ∧
      LeadsTo host 4 3 (⟨-5, .doc indented.content⟩ :: Obligation.steps) [] 3
        (⟨2, .doc document.content⟩ :: Obligation.steps)) ∧
    host.Realizes .steps ∧
    ∃ aligned nested whole other, Build.align 1 document.object = .ok aligned ∧
      Build.nest 2 (.num (.int 7)) aligned.object = .ok nested ∧
      Context.alignedGroup.fill nested = .ok whole ∧
      Context.alignedGroup.fill aligned = .ok other ∧
      whole.content.LaidAlike host other.content ∧
      ∀ document ∈ [whole.content, other.content],
        (Walk.start 0 [⟨0, .doc document⟩] 0).Emits host 4
          ⟨[.text .space, .line 0, .text .space], none⟩ := by
  intro host document
  have realizes := Meaning.steps.realizes_countingHost
  obtain ⟨-, -, spaced, unspaced, nesting⟩ :=
    alignment_sets_indentation host 4 3 (-5) Obligation.steps document 1
  obtain ⟨indented, made, leads, overflows⟩ := spaced (.int 2) (by decide) (by decide)
  obtain ⟨hanging, hangingMade, hangingLeads⟩ := unspaced (.int (-1)) (by decide) (by decide)
  obtain ⟨aligned, nested, alignedMade, nestedMade, -, alike⟩ := nesting (.int 7) 2
  cases alignedMade
  cases nestedMade
  obtain ⟨flatIdentity, fills⟩ := Context.exists_fill_alignedGroup
    ⟨.made 2, .nest (.int 7) (document.content.aligned 1)⟩ rfl
  obtain ⟨other, otherFills, laidAlike⟩ :=
    (alike _ realizes Context.alignedGroup).1 _ fills
  have emits := (Prescribed.of_aligned_line flatIdentity).start_emits realizes 0
  have otherEmits := ((laidAlike 4 0 0).1 _).mp emits
  exact ⟨⟨indented, made, leads, (overflows (by decide) 0 _ _).mpr ⟨rfl, rfl⟩⟩,
    ⟨hanging, hangingMade, hangingLeads⟩, realizes, _, _, _, other, rfl, rfl, fills, otherFills,
    laidAlike, List.forall_mem_cons.mpr ⟨emits, List.forall_mem_singleton.mpr otherEmits⟩⟩

end DocLayout
