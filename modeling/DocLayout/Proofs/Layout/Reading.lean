import DocLayout.Print
import DocLayout.Proofs.Layout.Run
import DocLayout.Proofs.Render

/-!
# Readings of a walk

A reader that never has enough takes just the events that a walk yields, if it makes steps enough,
and it ends as the walk does.  So the reader that collects items without a limit gets the layout,
and a document is printed as a text exactly if its walk comes to the end and the text is that of the
items.
-/

namespace DocLayout

variable {σ α : Type}

namespace Reader

variable {reader : Reader α} {taken after : α}

/-- A reader wants more, whatever it has been given. -/
def Insatiable (reader : Reader α) (taken : α) : Prop :=
  ∀ events, reader.wants (reader.takeAll taken events).1 = true

theorem takeAll_append (reader : Reader α) (taken : α) (first second : List Event) :
    reader.takeAll taken (first ++ second) =
      match reader.takeAll taken first with
      | (middle, none) => reader.takeAll middle second
      | (middle, some cause) => (middle, some cause) := by
  induction first generalizing taken with
  | nil => rfl
  | cons event first inductionHypothesis =>
      rw [List.cons_append, takeAll, takeAll]
      by_cases wanted : reader.wants taken = true
      · simp only [if_pos wanted]
        cases reader.take taken event with
        | ok next => exact inductionHypothesis next
        | error cause => rfl
      · simp only [if_neg wanted]
        cases second with
        | nil => rfl
        | cons other second => simp only [takeAll, if_neg wanted]

/-- What is accepted as a whole is accepted part by part. -/
theorem exists_takeAll_of_append {first second : List Event}
    (takes : reader.takeAll taken (first ++ second) = (after, none)) :
    ∃ middle, reader.takeAll taken first = (middle, none) ∧
      reader.takeAll middle second = (after, none) := by
  rw [takeAll_append] at takes
  rcases firstEq : reader.takeAll taken first with ⟨middle, refused | cause⟩
  · rw [firstEq] at takes
    exact ⟨middle, rfl, takes⟩
  · rw [firstEq] at takes
    cases takes

theorem Insatiable.of_takeAll {events : List Event} (insatiable : reader.Insatiable taken)
    (takes : reader.takeAll taken events = (after, none)) : reader.Insatiable after := by
  intro later
  have wanted := insatiable (events ++ later)
  rwa [takeAll_append, takes] at wanted

theorem insatiable_collect (items : List Item) : Reader.collect.Insatiable ⟨none, items⟩ := by
  intro events
  induction events generalizing items with
  | nil => rfl
  | cons event events inductionHypothesis =>
      cases event with
      | decision decision => exact inductionHypothesis items
      | item item => exact inductionHypothesis (item :: items)

theorem takeAll_collect (events : List Event) (items : List Item) :
    Reader.collect.takeAll ⟨none, items⟩ events =
      (⟨none, (itemsOf events).reverse ++ items⟩, none) := by
  induction events generalizing items with
  | nil => rfl
  | cons event events inductionHypothesis =>
      cases event with
      | decision decision => exact inductionHypothesis items
      | item item =>
          rw [itemsOf_item_cons, List.reverse_cons, List.append_assoc]
          exact inductionHypothesis (item :: items)

variable {style : Style} {printout : Printout} {events : List Event}

theorem insatiable_render (style : Style) (printout : Printout) :
    (Reader.render style).Insatiable printout :=
  fun _ => rfl

theorem text_append (decisions : List Decision) (chunks earlier : List String) :
    Printout.text ⟨decisions, chunks.reverse ++ earlier⟩ =
      Printout.text ⟨decisions, earlier⟩ ++ String.join chunks := by
  rw [Printout.text, Printout.text, List.reverse_append, List.reverse_reverse, String.join_append]

/-- What is printed is the text of each item, up to the first item that has none. -/
theorem exists_takeAll_render (style : Style) (printout : Printout) (events : List Event) :
    ∃ decisions, (Reader.render style).takeAll printout events =
      (⟨decisions, (Item.renderEach style (itemsOf events)).1.reverse ++ printout.chunks⟩,
        (Item.renderEach style (itemsOf events)).2) := by
  induction events generalizing printout with
  | nil => exact ⟨printout.decisions, rfl⟩
  | cons event events inductionHypothesis =>
      cases event with
      | decision decision =>
          exact inductionHypothesis ⟨decision :: printout.decisions, printout.chunks⟩
      | item item =>
          have wanted : (Reader.render style).wants printout = true := rfl
          rw [itemsOf_item_cons, takeAll, if_pos wanted]
          cases rendered : item.render style with
          | error cause =>
              rw [Item.renderEach_cons_of_error rendered]
              refine ⟨printout.decisions, ?_⟩
              simp only [Reader.render, rendered]
              rfl
          | ok chunk =>
              obtain ⟨decisions, takes⟩ :=
                inductionHypothesis ⟨printout.decisions, chunk :: printout.chunks⟩
              rw [Item.renderEach_cons_of_ok rendered, List.reverse_cons, List.append_assoc]
              refine ⟨decisions, ?_⟩
              simp only [Reader.render, rendered]
              exact takes

/-- Items that have a text are accepted, and their text is added. -/
theorem exists_takeAll_render_of_ok {text : String}
    (rendered : Item.renderAll style (itemsOf events) = .ok text) (printout : Printout) :
    ∃ after, (Reader.render style).takeAll printout events = (after, none) ∧
      after.text = printout.text ++ text := by
  obtain ⟨decisions, takes⟩ := exists_takeAll_render style printout events
  rw [Item.renderAll_eq_renderEach] at rendered
  cases failure : (Item.renderEach style (itemsOf events)).2 with
  | some cause =>
      rw [failure] at rendered
      cases rendered
  | none =>
      rw [failure] at rendered takes
      cases rendered
      exact ⟨_, takes, text_append decisions _ printout.chunks⟩

/-- Items that have no text are refused. -/
theorem exists_takeAll_render_of_error {cause : Error}
    (unrendered : Item.renderAll style (itemsOf events) = .error cause) (printout : Printout) :
    ∃ after, (Reader.render style).takeAll printout events = (after, some cause) := by
  obtain ⟨decisions, takes⟩ := exists_takeAll_render style printout events
  rw [Item.renderAll_eq_renderEach] at unrendered
  cases failure : (Item.renderEach style (itemsOf events)).2 with
  | some other =>
      rw [failure] at unrendered takes
      cases unrendered
      exact ⟨_, takes⟩
  | none =>
      rw [failure] at unrendered
      cases unrendered

/-- Items that are accepted have a text, and it is added. -/
theorem exists_renderAll_of_takeAll {after : Printout}
    (takes : (Reader.render style).takeAll printout events = (after, none)) :
    ∃ text, Item.renderAll style (itemsOf events) = .ok text ∧
      after.text = printout.text ++ text := by
  cases rendered : Item.renderAll style (itemsOf events) with
  | error cause =>
      obtain ⟨other, refuses⟩ := exists_takeAll_render_of_error rendered printout
      cases takes.symm.trans refuses
  | ok text =>
      obtain ⟨other, otherTakes, textEq⟩ := exists_takeAll_render_of_ok rendered printout
      cases takes.symm.trans otherTakes
      exact ⟨text, rfl, textEq⟩

end Reader

namespace Walk

variable {host : Host σ} {width : Int} {walk : Walk σ} {events : List Event}
  {ending : Option Error} {store : Store σ} {reader : Reader α} {taken after : α}

/-- A reader that never has enough takes the events that a walk yields, whatever the bound on steps,
as long as it is large enough. -/
theorem read_of_yields (yields : Yields (Walk.step host width) walk events ending store)
    (insatiable : reader.Insatiable taken) (takes : reader.takeAll taken events = (after, none)) :
    ∃ bound, ∀ more, reader.read host width (bound + more) taken walk =
      ⟨after, ending.elim .finished .failed, store.state⟩ := by
  obtain ⟨last, run, ends⟩ := yields
  induction run generalizing taken with
  | refl walk =>
      have wanted : reader.wants taken = true := insatiable []
      cases takes
      refine ⟨1, fun more => ?_⟩
      rw [Nat.add_comm]
      cases ending <;> simp [Reader.read, wanted, ends, Outcome.ended]
  | @head walk next last events later first _ inductionHypothesis =>
      obtain ⟨middle, takesFirst, takesLater⟩ := Reader.exists_takeAll_of_append takes
      have wanted : reader.wants taken = true := insatiable []
      obtain ⟨bound, reads⟩ :=
        inductionHypothesis (insatiable.of_takeAll takesFirst) takesLater ends
      refine ⟨bound + 1, fun more => ?_⟩
      rw [Nat.add_right_comm, ← reads more, Reader.read, if_pos wanted, first]
      simp only [takesFirst]

/-- A reader that never has enough stops where it refuses an event, whatever the bound on steps, as
long as it is large enough. -/
theorem read_of_refused {last : Walk σ} {cause : Error}
    (run : Run (Walk.step host width) walk events last) (insatiable : reader.Insatiable taken)
    (refuses : reader.takeAll taken events = (after, some cause)) :
    ∃ bound state, ∀ more, reader.read host width (bound + more) taken walk =
      ⟨after, .failed cause, state⟩ := by
  induction run generalizing taken with
  | refl walk => cases refuses
  | @head walk next last events later first _ inductionHypothesis =>
      have wanted : reader.wants taken = true := insatiable []
      rw [Reader.takeAll_append] at refuses
      rcases takesEq : reader.takeAll taken events with ⟨middle, refused | other⟩
      · rw [takesEq] at refuses
        obtain ⟨bound, state, reads⟩ := inductionHypothesis (insatiable.of_takeAll takesEq) refuses
        refine ⟨bound + 1, state, fun more => ?_⟩
        rw [Nat.add_right_comm, ← reads more, Reader.read, if_pos wanted, first]
        simp only [takesEq]
      · rw [takesEq] at refuses
        cases refuses
        refine ⟨1, next.state, fun more => ?_⟩
        rw [Nat.add_comm, Reader.read, if_pos wanted, first]
        simp only [takesEq]

/-- What a reading that is not suspended has taken: all that the walk yields, or what comes before
an event that is refused. -/
theorem takes_of_read {bound : Nat} {reading : Reading α σ}
    (reads : reader.read host width bound taken walk = reading)
    (ended : reading.ending ≠ .suspended) :
    (∃ events ending store, Yields (Walk.step host width) walk events ending store ∧
      reader.takeAll taken events = (reading.taken, none) ∧
      reading.ending = ending.elim .finished .failed) ∨
    ∃ events last cause, Run (Walk.step host width) walk events last ∧
      reader.takeAll taken events = (reading.taken, some cause) ∧
      reading.ending = .failed cause := by
  induction bound generalizing taken walk with
  | zero =>
      subst reads
      exact absurd rfl ended
  | succ bound inductionHypothesis =>
      rw [Reader.read] at reads
      by_cases wanted : reader.wants taken = true
      · rw [if_pos wanted] at reads
        cases stepEq : walk.step host width with
        | finished store =>
            simp only [stepEq] at reads
            subst reads
            have ends : walk.step host width = .ended none store := stepEq
            exact .inl ⟨[], none, store, .of_step ends, rfl, rfl⟩
        | failed cause store =>
            simp only [stepEq] at reads
            subst reads
            have ends : walk.step host width = .ended (some cause) store := stepEq
            exact .inl ⟨[], some cause, store, .of_step ends, rfl, rfl⟩
        | next events next =>
            simp only [stepEq] at reads
            rcases takesEq : reader.takeAll taken events with ⟨middle, refused | cause⟩
            · simp only [takesEq] at reads
              have takesBehind (later : List Event) :
                  reader.takeAll taken (events ++ later) = reader.takeAll middle later := by
                rw [Reader.takeAll_append, takesEq]
              rcases inductionHypothesis reads with
                ⟨later, ending, store, yields, takes, endingEq⟩ |
                ⟨later, last, cause, run, refuses, endingEq⟩
              · exact .inl ⟨events ++ later, ending, store, .of_run (.single stepEq) yields,
                  (takesBehind later).trans takes, endingEq⟩
              · exact .inr ⟨events ++ later, last, cause, .head stepEq run,
                  (takesBehind later).trans refuses, endingEq⟩
            · simp only [takesEq] at reads
              subst reads
              exact .inr ⟨events, next, cause, .single stepEq, takesEq, rfl⟩
      · rw [if_neg wanted] at reads
        subst reads
        exact absurd rfl ended

/-- A reading that comes to the end has taken the events that the walk yields. -/
theorem exists_yields_of_read {bound : Nat} {state : σ}
    (reads : reader.read host width bound taken walk = ⟨after, .finished, state⟩) :
    ∃ events store, Yields (Walk.step host width) walk events none store ∧
      reader.takeAll taken events = (after, none) := by
  rcases takes_of_read reads (by simp) with
    ⟨events, _ | cause, store, yields, takes, endingEq⟩ | ⟨_, _, _, _, _, endingEq⟩
  · exact ⟨events, store, yields, takes⟩
  · cases endingEq
  · cases endingEq

end Walk

variable {host : Host σ} {width : Int} {document : Doc} {state : σ}

/-- Reading a document gives the layout that its walk emits, whatever the bound on steps, as long as
it is large enough. -/
theorem readLayout_of_emits {layout : Layout}
    (emits : (Walk.start 0 [⟨0, .doc document⟩] state).Emits host width layout) :
    ∃ bound later, ∀ more,
      readLayout host (bound + more) .collect ⟨none, []⟩ (.doc document) (.int width) state =
        .ok ⟨⟨none, layout.items.reverse⟩, layout.ending.elim .finished .failed, later⟩ := by
  obtain ⟨events, store, yields, itemsEq⟩ := emits
  obtain ⟨bound, reads⟩ := Walk.read_of_yields yields (Reader.insatiable_collect [])
    (Reader.takeAll_collect events [])
  refine ⟨bound, store.state, fun more => ?_⟩
  rw [← itemsEq, ← List.append_nil (itemsOf events).reverse, ← reads more]
  rfl

/-- The text of a layout, or what fails first: the text of an item, or the layout. -/
def Layout.text (style : Style) (layout : Layout) : Except Error String := do
  let text ← Item.renderAll style layout.items
  layout.ending.elim (.ok text) .error

/-- A document is printed to the end, if the bound on steps is large enough, and this is the text or
the cause of failure. -/
def PrintsOut (host : Host σ) (style : Style) (width : Int) (document : Doc) (state : σ)
    (outcome : Except Error String) : Prop :=
  ∃ bound, ∀ more,
    let reading := printDoc host (bound + more) style (.doc document) (.int width) state
    reading.ending ≠ .suspended ∧ reading.text = outcome

theorem printDoc_eq (host : Host σ) (bound : Nat) (style : Style) (document : Doc) (width : Int)
    (state : σ) :
    printDoc host bound style (.doc document) (.int width) state =
      (Reader.render style).read host width bound {} (.start 0 [⟨0, .doc document⟩] state) := rfl

/-- Where an item has no text, nothing is printed, whether the walk ever ends or not. -/
theorem printsOut_of_run {events : List Event} {last : Walk σ} {style : Style} {cause : Error}
    (run : Walk.Run (Walk.step host width) (.start 0 [⟨0, .doc document⟩] state) events last)
    (unrendered : Item.renderAll style (itemsOf events) = .error cause) :
    PrintsOut host style width document state (.error cause) := by
  obtain ⟨after, refuses⟩ := Reader.exists_takeAll_render_of_error unrendered {}
  obtain ⟨bound, later, reads⟩ :=
    Walk.read_of_refused run (Reader.insatiable_render style {}) refuses
  refine ⟨bound, fun more => ?_⟩
  rw [printDoc_eq, reads]
  exact ⟨by simp, rfl⟩

/-- What is printed is the text of the layout. -/
theorem printsOut_of_emits {layout : Layout}
    (emits : (Walk.start 0 [⟨0, .doc document⟩] state).Emits host width layout) (style : Style) :
    PrintsOut host style width document state (layout.text style) := by
  obtain ⟨events, store, yields, itemsEq⟩ := emits
  rw [Layout.text, ← itemsEq]
  cases rendered : Item.renderAll style (itemsOf events) with
  | ok text =>
      obtain ⟨after, takes, textEq⟩ := Reader.exists_takeAll_render_of_ok rendered {}
      obtain ⟨bound, reads⟩ :=
        Walk.read_of_yields yields (Reader.insatiable_render style {}) takes
      have afterText : after.text = text := textEq.trans String.empty_append
      refine ⟨bound, fun more => ?_⟩
      rw [printDoc_eq, reads]
      cases layout.ending with
      | none => exact ⟨by simp, congrArg Except.ok afterText⟩
      | some cause => exact ⟨by simp, rfl⟩
  | error cause =>
      obtain ⟨last, run, -⟩ := yields
      exact printsOut_of_run run rendered

/-- What is printed is the text of the layout, or the first failure of an item to have a text. -/
theorem printsOut_iff {style : Style} {outcome : Except Error String} :
    PrintsOut host style width document state outcome ↔
      (∃ layout, (Walk.start 0 [⟨0, .doc document⟩] state).Emits host width layout ∧
        outcome = layout.text style) ∨
      ∃ events last cause,
        Walk.Run (Walk.step host width) (.start 0 [⟨0, .doc document⟩] state) events last ∧
        Item.renderAll style (itemsOf events) = .error cause ∧ outcome = .error cause := by
  constructor
  · rintro ⟨bound, prints⟩
    obtain ⟨ended, rfl⟩ := prints 0
    rcases Walk.takes_of_read (printDoc_eq host bound style document width state).symm ended with
      ⟨events, ending, store, yields, takes, endingEq⟩ |
      ⟨events, last, cause, run, refuses, endingEq⟩
    · obtain ⟨text, rendered, textEq⟩ := Reader.exists_renderAll_of_takeAll takes
      have sameText := textEq.trans String.empty_append
      refine .inl ⟨⟨itemsOf events, ending⟩, ⟨events, store, yields, rfl⟩, ?_⟩
      rw [Layout.text, rendered, Reading.text, Reading.failure, Nat.add_zero, endingEq]
      cases ending with
      | none => exact congrArg Except.ok sameText
      | some cause => rfl
    · refine .inr ⟨events, last, cause, run, ?_, ?_⟩
      · cases rendered : Item.renderAll style (itemsOf events) with
        | ok text =>
            obtain ⟨after, takes, -⟩ := Reader.exists_takeAll_render_of_ok rendered {}
            cases takes.symm.trans refuses
        | error other =>
            obtain ⟨after, otherRefuses⟩ := Reader.exists_takeAll_render_of_error rendered {}
            cases otherRefuses.symm.trans refuses
            rfl
      · rw [Reading.text, Reading.failure, Nat.add_zero, endingEq]
  · rintro (⟨layout, emits, rfl⟩ | ⟨events, last, cause, run, unrendered, rfl⟩)
    · exact printsOut_of_emits emits style
    · exact printsOut_of_run run unrendered

/-- A document is printed as a text, if the bound on steps is large enough. -/
def Prints (host : Host σ) (style : Style) (width : Int) (document : Doc) (state : σ)
    (text : String) : Prop :=
  ∃ bound, ∃ reading : Reading Printout σ,
    printDoc host bound style (.doc document) (.int width) state = reading ∧
    reading.ending = .finished ∧ reading.taken.text = text

/-- A document is printed as a text exactly if its walk comes to the end and the items have this
text. -/
theorem prints_iff {style : Style} {text : String} :
    Prints host style width document state text ↔
      ∃ events store,
        Walk.Yields (Walk.step host width) (.start 0 [⟨0, .doc document⟩] state) events none
          store ∧
        Item.renderAll style (itemsOf events) = .ok text := by
  constructor
  · rintro ⟨bound, ⟨taken, ending, last⟩, prints, rfl, textEq⟩
    obtain ⟨events, store, yields, takes⟩ :=
      Walk.exists_yields_of_read ((printDoc_eq ..).symm.trans prints)
    obtain ⟨found, rendered, foundEq⟩ := Reader.exists_renderAll_of_takeAll takes
    have sameText : found = text := by
      rw [← textEq, foundEq]
      exact String.empty_append.symm
    exact ⟨events, store, yields, sameText ▸ rendered⟩
  · rintro ⟨events, store, yields, rendered⟩
    obtain ⟨after, takes, textEq⟩ := Reader.exists_takeAll_render_of_ok rendered {}
    obtain ⟨bound, reads⟩ :=
      Walk.read_of_yields yields (Reader.insatiable_render style {}) takes
    refine ⟨bound, _, (printDoc_eq ..).trans (reads 0), rfl, ?_⟩
    rw [textEq]
    exact String.empty_append

/-- A document is printed as one text only. -/
theorem Prints.unique {style : Style} {text other : String}
    (prints : Prints host style width document state text)
    (otherPrints : Prints host style width document state other) : text = other := by
  obtain ⟨events, store, yields, rendered⟩ := prints_iff.mp prints
  obtain ⟨otherEvents, otherStore, otherYields, otherRendered⟩ := prints_iff.mp otherPrints
  obtain ⟨rfl, -, -⟩ := yields.unique otherYields
  exact Except.ok.inj (rendered.symm.trans otherRendered)

/-- A document whose walk comes to the end is printed as the text of its items, and as nothing
else. -/
theorem prints_iff_of_emits {layout : Layout}
    (emits : (Walk.start 0 [⟨0, .doc document⟩] state).Emits host width layout)
    (ends : layout.ending = none) {style : Style} {text : String} :
    Prints host style width document state text ↔
      Item.renderAll style layout.items = .ok text := by
  obtain ⟨events, store, yields, itemsEq⟩ := emits
  rw [ends] at yields
  rw [prints_iff, ← itemsEq]
  constructor
  · rintro ⟨otherEvents, otherStore, otherYields, rendered⟩
    obtain ⟨rfl, -, -⟩ := yields.unique otherYields
    exact rendered
  · intro rendered
    exact ⟨events, store, yields, rendered⟩

end DocLayout
