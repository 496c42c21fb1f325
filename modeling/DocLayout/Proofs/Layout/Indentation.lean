import DocLayout.Proofs.Layout.Standalone
import DocLayout.Proofs.Layout.Translation

/-!
# Indentation is translation

An indented document starts with spaces, and all its line breaks are indented by their number.  If
the width grows by this number too, then all of the layout is just further to the right: all choices
are decided in the same way, and alignments are to columns that are further to the right as well.
In the text every line has the spaces in front.

This holds of documents that stand alone, since what callbacks of the host make may depend on the
column.
-/

namespace DocLayout

variable {meaning : Meaning} {width column indent distance : Int} {document : Doc}

/-! ## Further to the right -/

/-- A value and the one that takes its place if everything is further to the right.  Only what waits
for an indentation holds a column. -/
inductive Value.Moved (distance : Int) : Value → Value → Prop where
  | doc {document : Doc} (alone : document.Standalone) :
      Moved distance (.doc document) (.doc document)
  | alignAt (start : Int) {inner : Doc} (innerAlone : inner.Standalone) :
      Moved distance (.doc (.nesting ⟨.shared, .function (.alignAt start inner)⟩))
        (.doc (.nesting ⟨.shared, .function (.alignAt (start + distance) inner)⟩))

/-- An obligation and the one that takes its place if everything is further to the right. -/
structure Obligation.Moved (distance : Int) (part other : Obligation) : Prop where
  indent_eq : other.indent = part.indent + distance
  values : part.value.Moved distance other.value

theorem Meaning.translates_moved (meaning : Meaning) (distance : Int) :
    meaning.Translates distance (Obligation.Moved distance) where
  indent_eq moved := moved.indent_eq
  fails {part other column cause} moved move := by
    rcases part with ⟨indent, value⟩
    rcases other with ⟨otherIndent, otherValue⟩
    obtain ⟨-, moved⟩ := moved
    cases moved with
    | alignAt => cases move
    | doc alone => cases alone <;> cases move
  moves {part other column move} moved answers := by
    rcases part with ⟨indent, value⟩
    rcases other with ⟨otherIndent, otherValue⟩
    obtain ⟨rfl, moved⟩ := moved
    cases moved with
    | alignAt start innerAlone =>
        cases answers
        refine ⟨_, Obligation.answer_alignAt .., .replace (.cons ⟨rfl, ?_⟩ .nil)⟩
        -- The distance from the indentation to the column is the same.
        rw [Int.add_sub_add_right]
        exact .doc (.nest _ innerAlone)
    | doc alone =>
        cases alone with
        | blank kept =>
            cases answers
            exact ⟨_, rfl, .replace .nil⟩
        | text fragment =>
            cases answers
            exact ⟨_, rfl, .emit fragment⟩
        | line =>
            cases answers
            exact ⟨_, rfl, .newline⟩
        | concat leftAlone rightAlone =>
            cases answers
            exact ⟨_, rfl, .replace
              (.cons ⟨rfl, .doc leftAlone⟩ (.cons ⟨rfl, .doc rightAlone⟩ .nil))⟩
        | nest amount innerAlone =>
            cases answers
            exact ⟨_, rfl, .replace (.cons ⟨Int.add_right_comm .., .doc innerAlone⟩ .nil)⟩
        | union _ _ flatAlone brokenAlone =>
            cases answers
            exact ⟨_, rfl, .choose ⟨rfl, .doc flatAlone⟩ ⟨rfl, .doc brokenAlone⟩⟩
        | aligned _ innerAlone =>
            cases answers
            exact ⟨_, rfl, .replace (.cons ⟨rfl, .alignAt column innerAlone⟩ .nil)⟩

/-! ## Indented documents -/

/-- Spaces on one line. -/
def Fragment.spaces (count : Nat) : Fragment where
  text := Text.copies " " count
  unbroken := by
    intro c member
    rw [Text.toList_copies_space] at member
    rw [List.eq_of_mem_replicate member]
    rfl

@[simp]
theorem Fragment.width_spaces (count : Nat) : (spaces count).width = count := by
  rw [← length_toList, spaces, Text.toList_copies_space, List.length_replicate]

theorem Item.InRange.of_moved {item : Item} (inRange : (item.moved distance).InRange)
    (nonneg : 0 ≤ distance) : item.InRange := by
  cases item with
  | text fragment => trivial
  | line indent =>
      change indent + distance < Text.repeatLimit at inRange
      change indent < Text.repeatLimit
      omega

/-- An indented document.  An amount that is not positive gives no spaces. -/
theorem Build.exists_indent_of_inRange {amount : Amount}
    (lower : -Text.repeatLimit ≤ amount.toInt) (upper : amount.toInt < Text.repeatLimit)
    (label : Nat) (document : Identified Doc) :
    ∃ indented, Build.indent label (.num amount) document.object = .ok indented ∧
      indented.content =
        (Doc.nest amount ((Fragment.spaces amount.toInt.toNat).doc.append
          document.content)).aligned label := by
  have repeated : Text.repeated " " amount.toInt = _ := Text.repeated_eq_ok lower upper
  let spaces := Fragment.spaces amount.toInt.toNat
  let margin : Object := ⟨.made label, .str spaces.text⟩
  have reads : Doc.ofValue margin.content = .ok spaces.doc := spaces.ofValue_str
  obtain ⟨identity, castEq⟩ := exists_cast reads label
  let read : Identified Doc := ⟨identity, spaces.doc⟩
  refine ⟨⟨.made label, (Doc.nest amount (read.append label document).content).aligned label⟩,
    ?_, by rw [Identified.content_append]⟩
  simp only [indent, Text.repeatedBy, repeated]
  change (append label margin document.object >>= fun inner => hang label _ inner.object) = _
  rw [append, castEq]
  rfl

/-- A document that is indented by a number of spaces. -/
theorem Build.exists_indent {amount : Amount} (nonneg : 0 ≤ amount.toInt)
    (bounded : amount.toInt < Text.repeatLimit) (label : Nat) (document : Identified Doc) :
    ∃ indented, Build.indent label (.num amount) document.object = .ok indented ∧
      indented.content =
        (Doc.nest amount ((Fragment.spaces amount.toInt.toNat).doc.append
          document.content)).aligned label := by
  have lower : -Text.repeatLimit ≤ amount.toInt := by
    have limit : 0 < Text.repeatLimit := by decide
    omega
  exact exists_indent_of_inRange lower bounded label document

variable {rest : List Obligation} {events : List Event} {ending : Option Error}

/-- An aligned document is laid out with the column where it starts as its indentation. -/
theorem Course.aligned_iff (label : Nat) :
    Course meaning width column (⟨indent, .doc (document.aligned label)⟩ :: rest) events ending ↔
      Course meaning width column (⟨column, .doc document⟩ :: rest) events ending := by
  rw [replace_iff (Obligation.answer_aligned ..), List.singleton_append,
    replace_iff (Obligation.answer_alignAt ..), List.singleton_append,
    replace_iff (Obligation.answer_nest ..), List.singleton_append]
  have columnEq : indent + (column - indent) = column := by omega
  rw [Amount.toInt, columnEq]

/-- Behind a fragment a document is laid out further to the right. -/
theorem Course.fragment_append_iff (fragment : Fragment) :
    Course meaning width column (⟨indent, .doc (fragment.doc.append document)⟩ :: rest) events
        ending ↔
      ∃ later, events = fragment.items.map .item ++ later ∧
        Course meaning width (column + fragment.width) (⟨indent, .doc document⟩ :: rest) later
          ending := by
  by_cases blank : fragment.text = ""
  · simp [Fragment.doc, Fragment.items, blank, Fragment.width_eq_zero_iff.mpr blank]
  · rw [Fragment.doc, if_neg blank, Fragment.items, if_neg blank]
    by_cases empty : document = .empty
    · subst empty
      rw [Doc.append_empty, emit_iff (Obligation.answer_text ..)]
      simp only [replace_iff (Obligation.answer_blank ..)]
      rfl
    · rw [Doc.append_of_ne_empty (by simp) empty, replace_iff (Obligation.answer_concat ..),
        List.cons_append, emit_iff (Obligation.answer_text ..)]
      rfl

/-- The course over an indented document: spaces, and then the course over the document, moved to
the right. -/
theorem Course.indented (alone : document.Standalone) {amount : Amount}
    (nonneg : 0 ≤ amount.toInt) (label : Nat)
    (course : Course meaning width 0 [⟨0, .doc document⟩] events ending)
    (linesNonneg : ∀ indent, .line indent ∈ itemsOf events → 0 ≤ indent) :
    Course meaning (width + amount.toInt) 0
      [⟨0, .doc ((Doc.nest amount ((Fragment.spaces amount.toInt.toNat).doc.append
        document)).aligned label)⟩]
      ((Fragment.spaces amount.toInt.toNat).items.map .item ++ events.map (.moved amount.toInt))
      ending := by
  have keeps : ∀ item ∈ itemsOf events, item.KeepsDistance amount.toInt := by
    rintro (fragment | indent) member
    · trivial
    · have lineNonneg := linesNonneg indent member
      change max (indent + amount.toInt) 0 = max indent 0 + amount.toInt
      omega
  have related : List.Forall₂ (Obligation.Moved amount.toInt) [⟨0, .doc document⟩]
      [⟨0 + amount.toInt, .doc document⟩] := .cons ⟨rfl, .doc alone⟩ .nil
  have moved := course.moved (meaning.translates_moved amount.toInt) related keeps
  apply (aligned_iff label).mpr
  apply (replace_iff (Obligation.answer_nest ..)).mpr
  refine (fragment_append_iff _).mpr ⟨_, rfl, ?_⟩
  rwa [Fragment.width_spaces, Int.toNat_of_nonneg nonneg]

theorem splitOn_append_newline_cons {first : List Char} (unbroken : ∀ c ∈ first, c ≠ '\n')
    (rest : List Char) : (first ++ '\n' :: rest).splitOn '\n' = first :: rest.splitOn '\n' :=
  List.splitOnP_append_cons_of_forall_mem (by simpa using unbroken) '\n' rfl rest

/-- Split at its line feeds, the text of items further to the right is that of the items, with
spaces in front of every line. -/
theorem Item.splitOn_moved (nonneg : 0 ≤ distance) {items : List Item}
    (linesNonneg : ∀ indent, .line indent ∈ items → 0 ≤ indent) {opened : List Char}
    (unbroken : ∀ c ∈ opened, c ≠ '\n') :
    (List.replicate distance.toNat ' ' ++ opened ++
        (items.map (moved distance)).flatMap chars).splitOn '\n' =
      ((opened ++ items.flatMap chars).splitOn '\n').map
        (List.replicate distance.toNat ' ' ++ ·) := by
  induction items generalizing opened with
  | nil =>
      have absent : '\n' ∉ opened := fun member => unbroken _ member rfl
      have stillAbsent : '\n' ∉ List.replicate distance.toNat ' ' ++ opened := by
        simpa using absent
      rw [List.map_nil, List.flatMap_nil, List.append_nil, List.append_nil,
        List.splitOn_eq_singleton absent, List.splitOn_eq_singleton stillAbsent, List.map_singleton]
  | cons item items inductionHypothesis =>
      have laterNonneg : ∀ indent, .line indent ∈ items → 0 ≤ indent :=
        fun indent member => linesNonneg indent (List.mem_cons_of_mem _ member)
      cases item with
      | text fragment =>
          have later := inductionHypothesis laterNonneg
            (List.forall_mem_append.mpr ⟨unbroken, fragment.ne_newline⟩)
          simpa [chars, moved] using later
      | line indent =>
          have lineNonneg := linesNonneg indent List.mem_cons_self
          have spacesUnbroken : ∀ c ∈ List.replicate indent.toNat ' ', c ≠ '\n' :=
            fun _ => ne_newline_of_mem_replicate
          have later := inductionHypothesis laterNonneg spacesUnbroken
          have spacesEq : List.replicate (indent + distance).toNat ' ' =
              List.replicate distance.toNat ' ' ++ List.replicate indent.toNat ' ' := by
            rw [List.replicate_append_replicate]
            congr 1
            omega
          have movedUnbroken : ∀ c ∈ List.replicate distance.toNat ' ' ++ opened, c ≠ '\n' :=
            List.forall_mem_append.mpr ⟨fun _ => ne_newline_of_mem_replicate, unbroken⟩
          rw [List.map_cons, List.flatMap_cons, List.flatMap_cons, moved, chars, chars,
            List.cons_append, List.cons_append, splitOn_append_newline_cons movedUnbroken,
            splitOn_append_newline_cons unbroken, spacesEq, later, List.map_cons]

/-- Spaces and items further to the right have a text exactly if the items do and the indentations
stay in range.  It has the lines of their text, with the spaces in front. -/
theorem Item.renderAll_moved_iff (nonneg : 0 ≤ distance) {items : List Item}
    (linesNonneg : ∀ indent, .line indent ∈ items → 0 ≤ indent) {movedText : String} :
    renderAll {} ((Fragment.spaces distance.toNat).items ++ items.map (moved distance)) =
        .ok movedText ↔
      (∀ item ∈ items, (item.moved distance).InRange) ∧
        ∃ text, renderAll {} items = .ok text ∧
          movedText.toList.splitOn '\n' =
            (text.toList.splitOn '\n').map (List.replicate distance.toNat ' ' ++ ·) := by
  have splitEq := splitOn_moved nonneg linesNonneg (List.forall_mem_nil _)
  rw [List.append_nil, List.nil_append] at splitEq
  rw [renderAll_eq_ok_iff, List.forall_mem_append, List.forall_mem_map, List.flatMap_append,
    Fragment.chars_items, Fragment.spaces, Text.toList_copies_space]
  constructor
  · rintro ⟨⟨-, inRange⟩, charsEq⟩
    refine ⟨inRange, ?_⟩
    have itemsInRange : ∀ item ∈ items, item.InRange :=
      fun item member => (inRange item member).of_moved nonneg
    obtain ⟨text, rendered, textChars⟩ := exists_renderAll itemsInRange
    refine ⟨text, rendered, ?_⟩
    rw [charsEq, textChars]
    exact splitEq
  · rintro ⟨inRange, text, rendered, linesEq⟩
    refine ⟨⟨Fragment.inRange_items _, inRange⟩, ?_⟩
    rw [(renderAll_eq_ok_iff.mp rendered).2] at linesEq
    -- A text is put together from its lines.
    have joined : ['\n'].intercalate (movedText.toList.splitOn '\n') = movedText.toList :=
      List.intercalate_splitOn '\n'
    rw [linesEq.trans splitEq.symm, List.intercalate_splitOn] at joined
    exact joined.symm

/-- Indentation is translation.  A document that is composed without callbacks of the host can be
indented by any amount that is not negative and in range.  Whatever the width, its layout comes to
the end.  If no line break in it is indented below zero, then the layout of the indented document,
at a width that is larger by the amount, is the same one further to the right: spaces in front, and
the amount added to the indentation of every line break.  What is printed are the lines of the
document, each with the spaces in front, if the indentations are in range. -/
theorem indent_translates (document : Identified Doc)
    (composed : Composed noCallback document.object) {amount : Amount}
    (nonneg : 0 ≤ amount.toInt) (bounded : amount.toInt < Text.repeatLimit) (label : Nat) :
    ∃ indented, Build.indent label (.num amount) document.object = .ok indented ∧
      ∀ {σ : Type} (host : Host σ) (width : Int) (state other : σ), ∃ items,
        (Walk.start 0 [⟨0, .doc document.content⟩] state).Emits host width ⟨items, none⟩ ∧
        ((∀ indent, .line indent ∈ items → 0 ≤ indent) →
          (Walk.start 0 [⟨0, .doc indented.content⟩] other).Emits host (width + amount.toInt)
            ⟨(Fragment.spaces amount.toInt.toNat).items ++ items.map (.moved amount.toInt), none⟩ ∧
          ∀ moved, Prints host {} (width + amount.toInt) indented.content other moved ↔
            (∀ item ∈ items, (item.moved amount.toInt).InRange) ∧
              ∃ text, Prints host {} width document.content state text ∧
                moved.toList.splitOn '\n' = (text.toList.splitOn '\n').map
                  (List.replicate amount.toInt.toNat ' ' ++ ·)) := by
  have alone := (Value.readsAs_doc_iff.mp composed.sound).standalone
  obtain ⟨indented, made, contentEq⟩ := Build.exists_indent nonneg bounded label document
  refine ⟨indented, made, fun host width state other => ?_⟩
  -- No callback is reached, so any meaning will do.
  obtain ⟨events, course⟩ := alone.exists_course (fun _ _ => .ok .none) width 0 0
  have emits := alone.emits host course state
  refine ⟨itemsOf events, emits, fun linesNonneg => ?_⟩
  have movedCourse := course.indented alone nonneg label linesNonneg
  have movedAlone := (Value.readsAs_doc_iff.mp (Composed.indent composed made).sound).standalone
  rw [← contentEq] at movedCourse
  have movedEmits := movedAlone.emits host movedCourse other
  rw [itemsOf_append, itemsOf_map_item, itemsOf_map_moved] at movedEmits
  refine ⟨movedEmits, fun movedText => ?_⟩
  rw [prints_iff_of_emits movedEmits rfl]
  simp only [prints_iff_of_emits emits rfl]
  exact Item.renderAll_moved_iff nonneg linesNonneg

/-- A line break, and another one in an alignment that takes place where the width is exceeded. -/
def Doc.alignedBreak : Doc :=
  .concat .line (Doc.softline.aligned 0)

theorem Composed.alignedBreak : Composed noCallback ⟨.made 1, .doc .alignedBreak⟩ := by
  have aligned : Composed noCallback ⟨.made 0, .doc (Doc.softline.aligned 0)⟩ := by
    have made : Build.align 0 ⟨.shared, .doc .softline⟩ = .ok ⟨.made 0, Doc.softline.aligned 0⟩ :=
      rfl
    exact .align (.softline .shared) made
  have made : Build.append 1 ⟨.shared, .doc .line⟩ ⟨.made 0, .doc (Doc.softline.aligned 0)⟩ =
      .ok ⟨.made 1, .alignedBreak⟩ := rfl
  exact .append .line aligned made

theorem Prescribed.of_alignedBreak :
    Prescribed .steps 0 0 [⟨0, .doc .alignedBreak⟩] ⟨[.line 0, .line 0], none⟩ := by
  have broken : Prescribed .steps 0 0 [⟨0, .doc .softline⟩] (.after [.line 0] ⟨[], none⟩) :=
    .broken (.text .done) rfl (.line .done)
  have aligned : Prescribed .steps 0 0 [⟨0, .doc (Doc.softline.aligned 0)⟩] ⟨[.line 0], none⟩ :=
    .column rfl (.nesting rfl (.nest broken))
  have whole : Prescribed .steps 0 0 [⟨0, .doc .alignedBreak⟩]
      (.after [.line 0] ⟨[.line 0], none⟩) := .concat (.line aligned)
  exact whole

theorem alignedBreak_translated :
    Composed noCallback ⟨.made 1, .doc .alignedBreak⟩ ∧
      (Walk.start 0 [⟨0, .doc .alignedBreak⟩] 0).Emits Meaning.steps.countingHost 0
        ⟨[.line 0, .line 0], none⟩ ∧
      ∃ indented, Build.indent 2 (.int 3) ⟨.made 1, .doc .alignedBreak⟩ = .ok indented ∧
        (Walk.start 0 [⟨0, .doc indented.content⟩] 0).Emits Meaning.steps.countingHost 3
          ⟨[.text (.spaces 3), .line 3, .line 3], none⟩ := by
  have composed := Composed.alignedBreak
  have nonneg : 0 ≤ (Amount.int 3).toInt := by decide
  have bounded : (Amount.int 3).toInt < Text.repeatLimit := by decide
  have realizes := Meaning.steps.realizes_countingHost
  have emits : (Walk.start 0 [⟨0, .doc .alignedBreak⟩] 0).Emits Meaning.steps.countingHost 0
      ⟨[.line 0, .line 0], none⟩ :=
    Prescribed.of_alignedBreak.start_emits realizes 0
  obtain ⟨indented, made, layouts⟩ :=
    indent_translates ⟨.made 1, .alignedBreak⟩ composed nonneg bounded 2
  obtain ⟨items, itemsEmits, moved⟩ := layouts Meaning.steps.countingHost 0 0 0
  cases itemsEmits.unique emits
  obtain ⟨movedEmits, -⟩ := moved (by simp)
  exact ⟨composed, emits, indented, made, movedEmits⟩

end DocLayout
