import DocLayout.Proofs.Layout.Passage
import DocLayout.Proofs.Layout.Reading

/-!
# Marks of a layout

The marks of a layout are its characters, its line breaks and its decisions, whatever items the text
comes in.  The decisions are those on a passage, so the ones that probes have made are among them.

The marks settle what a walk reports.  They settle what is printed, too: the text of a layout that
ends, or the first line break that has no text, which also stops a layout that never ends.
-/

namespace DocLayout

/-- What is seen of a layout, whatever pieces its text comes in. -/
inductive Mark where
  /-- A character. -/
  | char (c : Char)
  /-- A line break, with the indentation of the next line. -/
  | line (indent : Int)
  /-- A decision on a choice. -/
  | decision (made : Decision)

/-- The marks of an item. -/
def Item.marks : Item → List Mark
  | .text fragment => fragment.text.toList.map .char
  | .line indent => [.line indent]

/-- The marks of an event. -/
def Event.marks : Event → List Mark
  | .item emitted => emitted.marks
  | .decision made => [.decision made]

/-- The marks of events. -/
def marksOf (events : List Event) : List Mark :=
  events.flatMap Event.marks

@[simp]
theorem marksOf_nil : marksOf [] = [] := rfl

@[simp]
theorem marksOf_cons (event : Event) (events : List Event) :
    marksOf (event :: events) = event.marks ++ marksOf events := rfl

@[simp]
theorem marksOf_append (first second : List Event) :
    marksOf (first ++ second) = marksOf first ++ marksOf second :=
  List.flatMap_append

/-! ## Reports -/

/-- What a walk reports of the marks on a passage.  While it is on a row that a probe has found to
fit, it reports no decisions; this goes on to the next line break. -/
def Mark.reported : Bool → List Mark → List Mark
  | _, [] => []
  | probed, .char c :: marks => .char c :: reported probed marks
  | _, .line indent :: marks => .line indent :: reported false marks
  | true, .decision _ :: marks => reported true marks
  | false, .decision made :: marks => .decision made :: reported made.flat marks

theorem Mark.reported_chars (probed : Bool) (chars : List Char) (marks : List Mark) :
    reported probed (chars.map .char ++ marks) = chars.map .char ++ reported probed marks := by
  induction chars with
  | nil => rfl
  | cons c chars inductionHypothesis => cases probed <;> exact congrArg (_ :: ·) inductionHypothesis

/-- Further marks do not change what is reported of the first ones. -/
theorem Mark.reported_prefix {first second : List Mark} (isPrefix : first <+: second)
    (probed : Bool) : reported probed first <+: reported probed second := by
  obtain ⟨later, rfl⟩ := isPrefix
  induction first generalizing probed with
  | nil => cases probed <;> exact List.nil_prefix
  | cons mark marks inductionHypothesis =>
      cases mark with
      | char c => cases probed <;> exact (List.prefix_cons_inj _).mpr (inductionHypothesis _)
      | line indent => cases probed <;> exact (List.prefix_cons_inj _).mpr (inductionHypothesis _)
      | decision made =>
          cases probed with
          | false => exact (List.prefix_cons_inj _).mpr (inductionHypothesis made.flat)
          | true => exact inductionHypothesis true

/-- The marks of what is reported are reported of the marks. -/
theorem marksOf_reportedOf (probed : Bool) (events : List Event) :
    marksOf (reportedOf probed events) = Mark.reported probed (marksOf events) := by
  induction events generalizing probed with
  | nil => cases probed <;> rfl
  | cons event events inductionHypothesis =>
      cases event with
      | item emitted =>
          cases emitted with
          | text fragment =>
              rw [marksOf_cons, Event.marks, Item.marks, Mark.reported_chars, ← inductionHypothesis]
              cases probed <;> rfl
          | line indent => cases probed <;> exact congrArg (_ :: ·) (inductionHypothesis false)
      | decision made =>
          cases probed with
          | false => exact congrArg (_ :: ·) (inductionHypothesis made.flat)
          | true => exact inductionHypothesis true

/-! ## Text -/

namespace Mark

/-- The text of a mark.  Decisions are not seen in it. -/
def render (style : Style) : Mark → Except Error String
  | .char c => .ok (String.singleton c)
  | .line indent => style.lineBreak indent
  | .decision _ => .ok ""

/-- The text of several marks. -/
def renderAll (style : Style) : List Mark → Except Error String
  | [] => .ok ""
  | mark :: marks => do
      let chunk ← mark.render style
      let rest ← renderAll style marks
      return chunk ++ rest

/-- The text of a layout with these marks, or what fails first: the text of a mark, or the
layout. -/
def text (style : Style) (marks : List Mark) (ending : Option Error) : Except Error String := do
  let text ← renderAll style marks
  ending.elim (.ok text) .error

theorem renderAll_chars (style : Style) (chars : List Char) (marks : List Mark) :
    renderAll style (chars.map .char ++ marks) =
      (String.ofList chars ++ ·) <$> renderAll style marks := by
  induction chars with
  | nil =>
      have nothingAdded : (String.ofList [] ++ ·) = (id : String → String) :=
        funext fun _ => String.empty_append
      rw [nothingAdded, id_map]
      rfl
  | cons c chars inductionHypothesis =>
      have inFront (rest : String) : String.singleton c ++ (String.ofList chars ++ rest) =
          String.ofList (c :: chars) ++ rest := by
        rw [← String.append_assoc, String.singleton_eq_ofList, ← String.ofList_append]
        rfl
      rw [List.map_cons, List.cons_append, renderAll, inductionHypothesis]
      cases renderAll style marks with
      | error cause => rfl
      | ok rest => exact congrArg Except.ok (inFront rest)

theorem renderAll_marksOf (style : Style) (events : List Event) :
    renderAll style (marksOf events) = Item.renderAll style (itemsOf events) := by
  induction events with
  | nil => rfl
  | cons event events inductionHypothesis =>
      cases event with
      | decision made =>
          rw [itemsOf_decision_cons, ← inductionHypothesis]
          change renderAll style (.decision made :: marksOf events) = _
          rw [renderAll]
          cases renderAll style (marksOf events) with
          | error cause => rfl
          | ok rest => exact congrArg Except.ok String.empty_append
      | item emitted =>
          rw [itemsOf_item_cons, Item.renderAll, ← inductionHypothesis]
          cases emitted with
          | text fragment =>
              rw [marksOf_cons, Event.marks, Item.marks, renderAll_chars, String.ofList_toList]
              cases renderAll style (marksOf events) <;> rfl
          | line indent => rfl

/-- Where marks have no text, further ones do not change this. -/
theorem renderAll_of_prefix {style : Style} {marks more : List Mark} {cause : Error}
    (unrendered : renderAll style marks = .error cause) (isPrefix : marks <+: more) :
    renderAll style more = .error cause := by
  obtain ⟨later, rfl⟩ := isPrefix
  induction marks with
  | nil => cases unrendered
  | cons mark marks inductionHypothesis =>
      rw [renderAll] at unrendered
      rw [List.cons_append, renderAll]
      cases chunk : mark.render style with
      | error other =>
          rw [chunk] at unrendered
          exact unrendered
      | ok text =>
          cases rest : renderAll style marks with
          | ok text =>
              rw [chunk, rest] at unrendered
              cases unrendered
          | error other =>
              rw [chunk, rest] at unrendered
              cases unrendered
              rw [inductionHypothesis rest]
              rfl

end Mark

/-- Where items have no text, further ones do not change this. -/
theorem Item.renderAll_of_prefix {style : Style} {items more : List Item} {cause : Error}
    (unrendered : renderAll style items = .error cause) (isPrefix : items <+: more) :
    renderAll style more = .error cause := by
  obtain ⟨later, rfl⟩ := isPrefix
  rw [← itemsOf_map_item items, ← Mark.renderAll_marksOf] at unrendered
  rw [← itemsOf_map_item (items ++ later), ← Mark.renderAll_marksOf, List.map_append,
    marksOf_append]
  exact Mark.renderAll_of_prefix unrendered (List.prefix_append ..)

/-! ## Documents -/

variable {σ : Type} {host : Host σ} {meaning : Meaning} {width : Int} {document : Doc}

/-- The marks of a whole layout of a document, and how it ends. -/
def Doc.Marked (meaning : Meaning) (width : Int) (document : Doc) (marks : List Mark)
    (ending : Option Error) : Prop :=
  ∃ events next remaining, Passage meaning width 0 [⟨0, .doc document⟩] events next remaining ∧
    Stops meaning width next remaining ending ∧ marksOf events = marks

/-- Marks that come first in the layout of a document, whether it ever ends or not. -/
def Doc.MarkedFirst (meaning : Meaning) (width : Int) (document : Doc) (marks : List Mark) : Prop :=
  ∃ events next remaining, Passage meaning width 0 [⟨0, .doc document⟩] events next remaining ∧
    marks <+: marksOf events

/-- A walk reports events with these marks, and then it comes to the end or fails. -/
def Doc.Reported (host : Host σ) (width : Int) (document : Doc) (state : σ) (marks : List Mark)
    (ending : Option Error) : Prop :=
  ∃ events, (Walk.start 0 [⟨0, .doc document⟩] state).Ends host width events ending ∧
    marksOf events = marks

/-- Marks that come first in what a walk reports, whether it ever ends or not. -/
def Doc.ReportedFirst (host : Host σ) (width : Int) (document : Doc) (state : σ)
    (marks : List Mark) : Prop :=
  ∃ events, (Walk.start 0 [⟨0, .doc document⟩] state).Begins host width events ∧
    marks <+: marksOf events

/-- A walk that ends reports what is reported of the marks of the layout. -/
theorem reported_iff_marked (realizes : host.Realizes meaning) {state : σ} {marks : List Mark}
    {ending : Option Error} :
    document.Reported host width state marks ending ↔
      ∃ met, document.Marked meaning width met ending ∧ Mark.reported false met = marks := by
  simp only [Doc.Reported, Walk.ends_iff_exists_passage realizes]
  constructor
  · rintro ⟨_, ⟨events, next, remaining, passage, stops, rfl⟩, rfl⟩
    exact ⟨marksOf events, ⟨events, next, remaining, passage, stops, rfl⟩,
      (marksOf_reportedOf false events).symm⟩
  · rintro ⟨_, ⟨events, next, remaining, passage, stops, rfl⟩, rfl⟩
    exact ⟨_, ⟨events, next, remaining, passage, stops, rfl⟩, marksOf_reportedOf false events⟩

/-- What a walk reports first comes first in what is reported of the first marks of the layout. -/
theorem reportedFirst_iff_markedFirst (realizes : host.Realizes meaning) {state : σ}
    {marks : List Mark} :
    document.ReportedFirst host width state marks ↔
      ∃ met, document.MarkedFirst meaning width met ∧ marks <+: Mark.reported false met := by
  simp only [Doc.ReportedFirst, Walk.begins_iff_exists_passage realizes]
  constructor
  · rintro ⟨told, ⟨events, next, remaining, passage, later, toldEq⟩, isPrefix⟩
    refine ⟨marksOf events, ⟨events, next, remaining, passage, List.prefix_rfl⟩, ?_⟩
    rw [← marksOf_reportedOf, ← toldEq, marksOf_append]
    exact isPrefix.trans (List.prefix_append ..)
  · rintro ⟨met, ⟨events, next, remaining, passage, metPrefix⟩, isPrefix⟩
    refine ⟨_, ⟨events, next, remaining, passage, List.prefix_rfl⟩, ?_⟩
    rw [marksOf_reportedOf]
    exact isPrefix.trans (Mark.reported_prefix metPrefix false)

/-- What is printed is the text of the marks, or the first failure of a mark to have a text. -/
theorem printsOut_iff_marked (realizes : host.Realizes meaning) {style : Style} {state : σ}
    {outcome : Except Error String} :
    PrintsOut host style width document state outcome ↔
      (∃ marks ending, document.Marked meaning width marks ending ∧
        outcome = Mark.text style marks ending) ∨
      ∃ marks cause, document.MarkedFirst meaning width marks ∧
        Mark.renderAll style marks = .error cause ∧ outcome = .error cause := by
  rw [printsOut_iff]
  constructor
  · rintro (⟨layout, emits, rfl⟩ | ⟨events, last, cause, run, unrendered, rfl⟩)
    · obtain ⟨events, next, remaining, passage, stops, itemsEq⟩ :=
        (Walk.emits_iff_exists_passage realizes 0 _ state).mp emits
      refine .inl ⟨_, layout.ending, ⟨events, next, remaining, passage, stops, rfl⟩, ?_⟩
      rw [Mark.text, Mark.renderAll_marksOf, itemsEq]
      rfl
    · obtain ⟨met, next, remaining, passage, later, metEq⟩ :=
        (Walk.begins_iff_exists_passage realizes 0 _ state).mp ⟨[], last, by rwa [List.append_nil]⟩
      refine .inr ⟨marksOf met, cause, ⟨met, next, remaining, passage, List.prefix_rfl⟩, ?_, rfl⟩
      rw [Mark.renderAll_marksOf, ← itemsOf_reportedOf false, ← metEq, itemsOf_append]
      exact Item.renderAll_of_prefix unrendered (List.prefix_append ..)
  · rintro (⟨marks, ending, ⟨events, next, remaining, passage, stops, rfl⟩, rfl⟩ |
      ⟨marks, cause, ⟨events, next, remaining, passage, isPrefix⟩, unrendered, rfl⟩)
    · refine .inl ⟨⟨itemsOf events, ending⟩, ?_, ?_⟩
      · exact (Walk.emits_iff_exists_passage realizes 0 _ state).mpr
          ⟨events, next, remaining, passage, stops, rfl⟩
      · rw [Mark.text, Mark.renderAll_marksOf]
        rfl
    · obtain ⟨later, last, run⟩ := (Walk.begins_iff_exists_passage realizes 0 _ state).mpr
        ⟨events, next, remaining, passage, List.prefix_rfl⟩
      refine .inr ⟨_, last, cause, run, ?_, rfl⟩
      have unrenderedItems := Mark.renderAll_of_prefix unrendered isPrefix
      rw [Mark.renderAll_marksOf] at unrenderedItems
      rw [itemsOf_append, itemsOf_reportedOf]
      exact Item.renderAll_of_prefix unrenderedItems (List.prefix_append ..)

end DocLayout
