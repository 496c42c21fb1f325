import DocLayout.Proofs.Doc.Composed
import DocLayout.Proofs.Layout.Columns
import DocLayout.Proofs.Layout.Fitting
import DocLayout.Proofs.Layout.Passage

/-!
# What a report is given

A document with a report is laid out first, and behind it comes what the report makes of a number:
the column where the document has ended, less the one where it has started.  On one line this is the
width of the text that the document has emitted.  Behind a line break the column where the document
has ended tells how long its last line is, and the column where it has started belongs to another
line.  So the number is too small then, and it may be negative.
-/

namespace DocLayout

variable {meaning : Meaning} {width column next indent : Int} {rest : List Obligation}

/-- Behind a line break columns are counted from its indentation. -/
theorem Item.columnAfter_line (column lineIndent : Int) (earlier : List Item)
    (texts : List Fragment) :
    columnAfter column (earlier ++ .line lineIndent :: texts.map .text) =
      max lineIndent 0 + Layout.widthOf texts := by
  rw [columnAfter_append, columnAfter_cons, advance_line, columnAfter_texts]

/-- A report that waits for the column behind a document. -/
def Doc.reportFrom (start : Int) (report : Value) : Doc :=
  .column ⟨.shared, .function (.widthFrom start report)⟩

theorem Obligation.answer_withWidth (meaning : Meaning) (column indent : Int) (inner : Doc)
    (label : Nat) (report : Value) :
    answer meaning column ⟨indent, .doc (inner.withWidth label report)⟩ =
      .ok (.replace [⟨indent, .doc (inner.append (.reportFrom column report))⟩]) :=
  rfl

theorem Obligation.answer_reportFrom (meaning : Meaning) (column indent start : Int)
    (report : Value) :
    answer meaning column ⟨indent, .doc (.reportFrom start report)⟩ =
      (report.resolved meaning (column - start)).map fun doc => .replace [⟨indent, .doc doc⟩] :=
  answer_column meaning column indent _

namespace Passage

variable {events : List Event}

/-- A passage to the end over an obligation that is replaced goes on with what replaces it. -/
theorem of_replaced {part : Obligation} {parts : List Obligation}
    (passage : Passage meaning width column (part :: rest) events next [])
    (move : part.answer meaning column = .ok (.replace parts)) :
    Passage meaning width column (parts ++ rest) events next [] := by
  cases passage with
  | replace sameMove later =>
      cases move.symm.trans sameMove
      exact later
  | _ => simp_all

/-- A passage to the end over a document in front of a report comes to the report. -/
theorem exists_arrival_at_report {inner : Doc} {start : Int} {report : Value}
    (passage : Passage meaning width column
      (⟨indent, .doc (inner.append (.reportFrom start report))⟩ :: rest) events next []) :
    ∃ own middle later, Passage meaning width column
        (⟨indent, .doc (inner.append (.reportFrom start report))⟩ :: rest) own middle
        (⟨indent, .doc (.reportFrom start report)⟩ :: rest) ∧
      Passage meaning width middle (⟨indent, .doc (.reportFrom start report)⟩ :: rest) later next
        [] ∧
      events = own ++ later ∧ Lays meaning indent column (.doc inner) (itemsOf own) middle := by
  by_cases empty : inner = .empty
  · subst empty
    rw [Doc.empty_append] at passage ⊢
    exact ⟨[], column, events, .refl _ _, passage, rfl, .blank false⟩
  · rw [Doc.append_of_ne_empty empty (by simp [Doc.reportFrom])] at passage ⊢
    have move := Obligation.answer_concat meaning column indent inner (.reportFrom start report)
    obtain ⟨own, middle, later, comes, goes, eventsEq, lays⟩ :=
      (passage.of_replaced move).arrives List.singleton_append.symm rfl
    exact ⟨own, middle, later, .replace move comes, goes, eventsEq, laysAll_singleton_iff.mp lays⟩

/-- A passage to the end over a document with a report lays the document out, and comes to what the
report gives for the difference of the columns. -/
theorem exists_arrival_at_result {inner : Doc} {label : Nat} {report : Value}
    (passage : Passage meaning width column
      (⟨indent, .doc (inner.withWidth label report)⟩ :: rest) events next []) :
    ∃ own middle later result, Passage meaning width column
        (⟨indent, .doc (inner.withWidth label report)⟩ :: rest) own middle
        (⟨indent, .doc result⟩ :: rest) ∧
      events = own ++ later ∧ Lays meaning indent column (.doc inner) (itemsOf own) middle ∧
      report.resolved meaning (middle - column) = .ok result := by
  have move := Obligation.answer_withWidth meaning column indent inner label report
  obtain ⟨own, middle, later, comes, goes, eventsEq, lays⟩ :=
    (passage.of_replaced move).exists_arrival_at_report
  have answer := Obligation.answer_reportFrom meaning middle indent column report
  cases resolved : report.resolved meaning (middle - column) with
  | error cause =>
      rw [resolved] at answer
      cases goes <;> simp_all [Except.map]
  | ok result =>
      rw [resolved] at answer
      have given : Passage meaning width middle (⟨indent, .doc (.reportFrom column report)⟩ :: rest)
          [] middle (⟨indent, .doc result⟩ :: rest) := .replace answer (.refl _ _)
      have whole := (Passage.replace move comes).trans given
      rw [List.append_nil] at whole
      exact ⟨own, middle, later, result, whole, eventsEq, lays, resolved⟩

end Passage

/-- In a layout that comes to its end, wherever a document with a report is laid out, the document
itself is laid out, and then what the report gives for the column where that has ended, less the one
where it has started.  If the document has emitted text only, this is the width of the text.  If
there is a line break, it is what stands behind the last one, less the column of the start. -/
theorem report_is_given_difference {σ : Type} {host : Host σ} (realizes : host.Realizes meaning)
    {document : Doc} {state : σ} {items : List Item}
    (emits : (Walk.start 0 [⟨0, .doc document⟩] state).Emits host width ⟨items, none⟩)
    {label : Nat} {object : Object} {report : Value} {measured : Identified Doc}
    (made : Build.width label object report = .ok measured) {events : List Event}
    (comes : Passage meaning width 0 [⟨0, .doc document⟩] events column
      (⟨indent, .doc measured.content⟩ :: rest)) :
    ∃ (inner : Identified Doc) (own : List Event) (result : Doc) (argument : Int),
      Build.cast label object = .ok inner ∧
      Passage meaning width column (⟨indent, .doc measured.content⟩ :: rest) own
        (column + argument) (⟨indent, .doc result⟩ :: rest) ∧
      itemsOf (events ++ own) <+: items ∧
      Lays meaning indent column (.doc inner.content) (itemsOf own) (column + argument) ∧
      report.resolved meaning argument = .ok result ∧
      (∀ texts, itemsOf own = texts.map .text → argument = Layout.widthOf texts) ∧
      ∀ earlier lineIndent texts, itemsOf own = earlier ++ .line lineIndent :: texts.map .text →
        argument = max lineIndent 0 + Layout.widthOf texts - column := by
  obtain ⟨inner, innerEq, made⟩ := Build.exists_of_bind made
  cases made
  obtain ⟨allEvents, last, remaining, whole, stops, itemsEq⟩ :=
    (Walk.emits_iff_exists_passage realizes 0 _ state).mp emits
  cases stops
  obtain ⟨between, goes, rfl⟩ := comes.exists_continuation whole
  obtain ⟨own, middle, later, result, arrives, rfl, lays, gives⟩ := goes.exists_arrival_at_result
  have middleEq : column + (middle - column) = middle := by omega
  have columnsEq : middle = Item.columnAfter column (itemsOf own) := arrives.path.column_eq
  refine ⟨inner, own, result, middle - column, innerEq, ?_, ?_, ?_, gives, ?_, ?_⟩
  · rwa [middleEq]
  · refine ⟨itemsOf later, ?_⟩
    rw [← itemsOf_append, List.append_assoc]
    exact itemsEq
  · rwa [middleEq]
  · intro texts ownEq
    rw [columnsEq, ownEq, Item.columnAfter_texts]
    omega
  · intro earlier lineIndent texts ownEq
    rw [columnsEq, ownEq, Item.columnAfter_line]

/-! ## A report behind a line break -/

/-- Callbacks that write their argument. -/
def Meaning.written : Meaning :=
  fun _ argument => .ok (.str (toString argument))

/-- A letter on a line of its own, with a report. -/
def Doc.reportedLetter : Doc :=
  (Doc.concat .line (.text ⟨"x", by decide⟩)).withWidth 0 (.function (.custom 0))

/-- Two letters, and a third one on a line of its own, with a report. -/
def Doc.lateReport : Doc :=
  .concat (.text ⟨"ab", by decide⟩) .reportedLetter

/-- The items of `Doc.lateReport`. -/
def Layout.lateReport : Layout :=
  ⟨[.text ⟨"ab", by decide⟩, .line 0, .text ⟨"x", by decide⟩, .text ⟨"-1", by decide⟩], none⟩

/-- The layout of `Doc.lateReport` comes to the report at the third column. -/
theorem Passage.to_lateReport (width : Int) :
    Passage .written width 0 [⟨0, .doc .lateReport⟩] [.item (.text ⟨"ab", by decide⟩)] 2
      [⟨0, .doc .reportedLetter⟩] :=
  .replace rfl (.emit rfl (.refl _ _))

/-- From there it ends a line, and is at the second column when the number is asked for. -/
theorem Passage.of_reportedLetter (width : Int) :
    Passage .written width 2 [⟨0, .doc .reportedLetter⟩]
      [.item (.line 0), .item (.text ⟨"x", by decide⟩)] 1
      [⟨0, .doc (.text ⟨"-1", by decide⟩)⟩] :=
  .replace rfl (.replace rfl (.replace rfl (.newline rfl (.emit rfl (.replace rfl (.refl _ _))))))

theorem Walk.emits_lateReport (width : Int) :
    (start 0 [⟨0, .doc .lateReport⟩] 0).Emits Meaning.written.countingHost width .lateReport := by
  have written : Passage .written width 1 [⟨0, .doc (.text ⟨"-1", by decide⟩)⟩]
      [.item (.text ⟨"-1", by decide⟩)] 3 [] :=
    .emit rfl (.refl _ _)
  have whole := ((Passage.to_lateReport width).trans (.of_reportedLetter width)).trans written
  exact (emits_iff_exists_passage Meaning.written.realizes_countingHost 0 _ 0).mpr
    ⟨_, _, _, whole, .done, rfl⟩

theorem lateReport_is_given_difference :
    Meaning.written.countingHost.Realizes .written ∧
      (Walk.start 0 [⟨0, .doc .lateReport⟩] 0).Emits Meaning.written.countingHost 80 .lateReport ∧
      Build.width 0 ⟨.shared, .doc (.concat .line (.text ⟨"x", by decide⟩))⟩
        (.function (.custom 0)) = .ok ⟨.made 0, .reportedLetter⟩ ∧
      Passage .written 80 0 [⟨0, .doc .lateReport⟩] [.item (.text ⟨"ab", by decide⟩)] 2
        [⟨0, .doc .reportedLetter⟩] ∧
      ∃ own result argument, Passage .written 80 2 [⟨0, .doc .reportedLetter⟩] own (2 + argument)
          [⟨0, .doc result⟩] ∧
        (Value.function (.custom 0)).resolved .written argument = .ok result := by
  have realizes := Meaning.written.realizes_countingHost
  have emits := Walk.emits_lateReport 80
  have comes := Passage.to_lateReport 80
  have made : Build.width 0 ⟨.shared, .doc (.concat .line (.text ⟨"x", by decide⟩))⟩
      (.function (.custom 0)) = .ok ⟨.made 0, .reportedLetter⟩ := rfl
  obtain ⟨-, own, result, argument, -, arrives, -, -, gives, -⟩ :=
    report_is_given_difference realizes emits made comes
  exact ⟨realizes, emits, made, comes, own, result, argument, arrives, gives⟩

/-- The last line of the letter takes one column, and that is not what the report is given: the
layout goes on with what the report gives for a negative number, and so it is printed. -/
theorem lateReport_is_given_negative :
    (Walk.start 0 [⟨0, .doc .lateReport⟩] 0).Emits Meaning.written.countingHost 80 .lateReport ∧
      Passage .written 80 0 [⟨0, .doc .lateReport⟩] [.item (.text ⟨"ab", by decide⟩)] 2
        [⟨0, .doc .reportedLetter⟩] ∧
      Passage .written 80 2 [⟨0, .doc .reportedLetter⟩]
        [.item (.line 0), .item (.text ⟨"x", by decide⟩)] 1
        [⟨0, .doc (.text ⟨"-1", by decide⟩)⟩] ∧
      (Value.function (.custom 0)).resolved .written (-1) = .ok (.text ⟨"-1", by decide⟩) ∧
      (Value.function (.custom 0)).resolved .written 1 ≠ .ok (.text ⟨"-1", by decide⟩) ∧
      Prints Meaning.written.countingHost {} 80 .lateReport 0 "ab\nx-1" := by
  have emits := Walk.emits_lateReport 80
  refine ⟨emits, .to_lateReport 80, .of_reportedLetter 80, rfl, ?_, ?_⟩
  · have gives : (Value.function (.custom 0)).resolved .written 1 =
        .ok (.text ⟨"1", by decide⟩) := rfl
    rw [gives]
    intro same
    have sameText : "1" = "-1" := Fragment.mk.inj (Doc.text.inj (Except.ok.inj same))
    exact absurd sameText (by decide)
  · apply (prints_iff_of_emits emits rfl).mpr
    rfl

end DocLayout
