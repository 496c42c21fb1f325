import DocLayout.Proofs.Layout.Excerpt
import DocLayout.Proofs.Layout.Reading
import DocLayout.Proofs.Script.Requests

/-!
# Printing piece by piece

A document is written one chunk for each item, as the items come, and the ending of the print-out
comes last.  If anything fails, be it the layout or the text of an item, then the chunks of the
items before it have been written, and nothing else.  If the width or the document is refused,
nothing has been.  The text of the document is what is written for it, or there is none, for the
same cause.
-/

namespace DocLayout

variable {σ : Type}

section Outcomes

variable (host : Host σ) (doc width : Value) (state : σ)

/-- The chunks of a document, and why there are no more of them if something fails, whatever the
bound on steps, as long as it is large enough. -/
def PrintsChunks (chunks : List String) (failure : Option Error) : Prop :=
  ∃ bound, ∀ more,
    let printed := printDoc host (bound + more) {} doc width state
    printed.taken.chunks.reverse = chunks ∧ printed.ending = failure.elim .finished .failed

/-- What is written for a document with an ending, chunk by chunk, and the cause of failure. -/
def Writes (ending : Value) (chunks : List String) (failure : Option Error) : Prop :=
  ∃ bound, ∀ more,
    let closed := (printDoc host (bound + more) {} doc width state).close ending
    closed.taken.chunks.reverse = chunks ∧ closed.ending = failure.elim .finished .failed

/-- The text of a document, or the cause of failure.  For a value that is a document and a width
that is an integer this is `PrintsOut` in the default style. -/
def Formats (outcome : Except Error String) : Prop :=
  ∃ bound, ∀ more,
    let printed := printDoc host (bound + more) {} doc width state
    printed.ending ≠ .suspended ∧ printed.text = outcome

/-- Printing fails once these chunks are written.  No ending is written, and there is no text. -/
def FailsAfter (chunks : List String) (cause : Error) : Prop :=
  Formats host doc width state (.error cause) ∧
    ∀ ending, Writes host doc width state ending chunks (some cause)

end Outcomes

/-- A document is not laid out at all: the width is no integer, or else the document cannot be read
as one. -/
def Refuses (doc width : Value) (cause : Error) : Prop :=
  (width.toInt? = none ∧ cause = .notInteger width) ∨
    (width.toInt? ≠ none ∧ Doc.ofValue doc = .error cause)

variable {host : Host σ} {doc width : Value} {state : σ} {chunks : List String}
  {failure : Option Error} {cause : Error}

theorem Reading.failure_of_ending {α : Type} {reading : Reading α σ}
    (endingEq : reading.ending = failure.elim .finished .failed) : reading.failure = failure := by
  rw [Reading.failure, endingEq]
  cases failure <;> rfl

/-! ## Ways of printing -/

namespace PrintsChunks

theorem formats (prints : PrintsChunks host doc width state chunks failure) :
    Formats host doc width state (failure.elim (.ok (String.join chunks)) .error) := by
  obtain ⟨bound, printed⟩ := prints
  refine ⟨bound, fun more => ?_⟩
  obtain ⟨chunksEq, endingEq⟩ := printed more
  simp only [Reading.text, Reading.failure_of_ending endingEq, Printout.text, chunksEq, endingEq]
  cases failure <;> simp

/-- After a failure the ending is not written. -/
theorem writes_of_failed (prints : PrintsChunks host doc width state chunks (some cause))
    (ending : Value) : Writes host doc width state ending chunks (some cause) := by
  obtain ⟨bound, printed⟩ := prints
  refine ⟨bound, fun more => ?_⟩
  obtain ⟨chunksEq, endingEq⟩ := printed more
  simp only [Reading.close, Reading.failure_of_ending endingEq]
  exact ⟨chunksEq, endingEq⟩

theorem writes_ending (prints : PrintsChunks host doc width state chunks none) {content : String}
    (notEmpty : content ≠ "") :
    Writes host doc width state (.str content) (chunks ++ [content]) none := by
  obtain ⟨bound, printed⟩ := prints
  refine ⟨bound, fun more => ?_⟩
  obtain ⟨chunksEq, endingEq⟩ := printed more
  simp only [Reading.close, Reading.failure_of_ending endingEq, if_neg notEmpty, List.reverse_cons,
    chunksEq, endingEq, and_self]

theorem failsAfter (prints : PrintsChunks host doc width state chunks (some cause)) :
    FailsAfter host doc width state chunks cause :=
  ⟨prints.formats, prints.writes_of_failed⟩

/-- An ending that does not count as true is not written. -/
theorem writes_nothing (prints : PrintsChunks host doc width state chunks none) {ending : Value}
    (falsy : ending.isTrue = false) : Writes host doc width state ending chunks none := by
  obtain ⟨bound, printed⟩ := prints
  refine ⟨bound, fun more => ?_⟩
  have finished := Reading.failure_of_ending (printed more).2
  have unchanged : (printDoc host (bound + more) {} doc width state).close ending =
      printDoc host (bound + more) {} doc width state := by
    cases ending <;> simp_all [Reading.close, Value.isTrue]
  rw [unchanged]
  exact printed more

end PrintsChunks

/-! ## What is printed -/

theorem Refuses.printsChunks (refuses : Refuses doc width cause) (host : Host σ) (state : σ) :
    PrintsChunks host doc width state [] (some cause) := by
  have printed (bound : Nat) :
      printDoc host bound {} doc width state = ⟨{}, .failed cause, state⟩ := by
    rcases refuses with ⟨noInteger, rfl⟩ | ⟨integer, unread⟩
    · rw [printDoc, readLayout, noInteger]
      rfl
    · obtain ⟨columns, columnsEq⟩ := Option.ne_none_iff_exists'.mp integer
      rw [printDoc, readLayout, columnsEq, unread]
      rfl
  refine ⟨0, fun more => ?_⟩
  rw [printed]
  exact ⟨rfl, rfl⟩

section Layouts

variable {columns : Int} {root : Doc} {items : List Item}

theorem printDoc_of_reads (widthEq : width.toInt? = some columns)
    (docEq : Doc.ofValue doc = .ok root) (bound : Nat) :
    printDoc host bound {} doc width state =
      (Reader.render {}).read host columns bound {} (.start 0 [⟨0, .doc root⟩] state) := by
  rw [printDoc, readLayout, widthEq, docEq]
  rfl

/-- If all items of a layout have a text, there is one chunk for each of them, and nothing fails but
the layout. -/
theorem printsChunks_of_emits (widthEq : width.toInt? = some columns)
    (docEq : Doc.ofValue doc = .ok root)
    (emits : (Walk.start 0 [⟨0, .doc root⟩] state).Emits host columns ⟨items, failure⟩)
    (renders : ∀ item ∈ items, item.Renders) :
    PrintsChunks host doc width state (items.map Item.chunk) failure := by
  obtain ⟨events, store, yields, rfl⟩ := emits
  obtain ⟨decisions, takes⟩ := Reader.exists_takeAll_render {} {} events
  have rendered := Item.renderEach_append renders []
  rw [List.append_nil] at rendered
  rw [rendered] at takes
  obtain ⟨bound, reads⟩ := Walk.read_of_yields yields (Reader.insatiable_render {} {}) takes
  refine ⟨bound, fun more => ?_⟩
  rw [printDoc_of_reads widthEq docEq, reads more]
  simp [Item.renderEach]

/-- An item without a text comes to nothing, and so does all that follows, whether the walk ever
ends or not. -/
theorem printsChunks_of_opens {bad : Item} (widthEq : width.toInt? = some columns)
    (docEq : Doc.ofValue doc = .ok root)
    (opens : (Walk.start 0 [⟨0, .doc root⟩] state).Opens host columns (items ++ [bad]))
    (renders : ∀ item ∈ items, item.Renders) (unrendered : bad.render {} = .error cause) :
    PrintsChunks host doc width state (items.map Item.chunk) (some cause) := by
  obtain ⟨events, ⟨more, last, run⟩, later, itemsEq⟩ := opens
  obtain ⟨decisions, takes⟩ := Reader.exists_takeAll_render {} {} (events ++ more)
  have allItems : itemsOf (events ++ more) = items ++ bad :: (later ++ itemsOf more) := by
    simp [← itemsEq]
  rw [allItems, Item.renderEach_append renders, Item.renderEach_cons_of_error unrendered] at takes
  obtain ⟨bound, final, reads⟩ :=
    Walk.read_of_refused run (Reader.insatiable_render {} {}) takes
  refine ⟨bound, fun more => ?_⟩
  rw [printDoc_of_reads widthEq docEq, reads more]
  simp

/-- What has been printed of events: the chunks of the items before the first without a text. -/
theorem exists_front_of_takeAll {events : List Event} {after : Printout}
    (takes : (Reader.render {}).takeAll {} events = (after, failure)) :
    ∃ front later, itemsOf events = front ++ later ∧ (∀ item ∈ front, item.Renders) ∧
      after.chunks.reverse = front.map Item.chunk ∧
      ((later = [] ∧ failure = none) ∨ ∃ bad rest cause,
        later = bad :: rest ∧ bad.render {} = .error cause ∧ failure = some cause) := by
  obtain ⟨decisions, rendered⟩ := Reader.exists_takeAll_render {} {} events
  obtain ⟨front, later, itemsEq, renders, chunksEq, ends⟩ :=
    Item.exists_renderEach (itemsOf events)
  cases takes.symm.trans rendered
  exact ⟨front, later, itemsEq, renders, by simp [chunksEq], ends⟩

/-- These are all the ways for a print-out to end. -/
theorem printsChunks_iff (widthEq : width.toInt? = some columns)
    (docEq : Doc.ofValue doc = .ok root) :
    PrintsChunks host doc width state chunks failure ↔
      ∃ items, (∀ item ∈ items, item.Renders) ∧ chunks = items.map Item.chunk ∧
        ((Walk.start 0 [⟨0, .doc root⟩] state).Emits host columns ⟨items, failure⟩ ∨
          ∃ bad cause, (Walk.start 0 [⟨0, .doc root⟩] state).Opens host columns (items ++ [bad]) ∧
            bad.render {} = .error cause ∧ failure = some cause) := by
  constructor
  · rintro ⟨bound, printed⟩
    obtain ⟨rfl, endingEq⟩ := printed 0
    have ended : (printDoc host (bound + 0) {} doc width state).ending ≠ .suspended := by
      rw [endingEq]
      cases failure <;> simp
    rcases Walk.takes_of_read (printDoc_of_reads widthEq docEq (bound + 0)).symm ended with
      ⟨events, ending, store, yields, takes, sameEnding⟩ |
      ⟨events, last, cause, run, refuses, sameEnding⟩
    · obtain ⟨front, later, itemsEq, renders, chunksEq, ⟨rfl, -⟩ | ⟨_, _, _, -, -, impossible⟩⟩ :=
        exists_front_of_takeAll takes
      · cases (Reading.failure_of_ending endingEq).symm.trans
          (Reading.failure_of_ending sameEnding)
        rw [List.append_nil] at itemsEq
        exact ⟨front, renders, chunksEq, .inl ⟨events, store, yields, itemsEq⟩⟩
      · cases impossible
    · obtain ⟨front, later, itemsEq, renders, chunksEq,
        ⟨-, impossible⟩ | ⟨bad, rest, _, rfl, unrendered, causeEq⟩⟩ :=
        exists_front_of_takeAll refuses
      · cases impossible
      · cases causeEq
        have failed : (printDoc host (bound + 0) {} doc width state).failure = some cause :=
          Reading.failure_of_ending sameEnding
        rw [Reading.failure_of_ending endingEq] at failed
        have opens : (Walk.start 0 [⟨0, .doc root⟩] state).Opens host columns (front ++ [bad]) := by
          refine ⟨events, ⟨[], last, by rwa [List.append_nil]⟩, rest, ?_⟩
          rw [itemsEq, List.append_assoc]
          rfl
        exact ⟨front, renders, chunksEq, .inr ⟨bad, cause, opens, unrendered, failed⟩⟩
  · rintro ⟨items, renders, rfl, emits | ⟨bad, cause, opens, unrendered, rfl⟩⟩
    · exact printsChunks_of_emits widthEq docEq emits renders
    · exact printsChunks_of_opens widthEq docEq opens renders unrendered

end Layouts

/-- The ways of printing agree, from one state of the host.

- If the width or the document is refused, nothing is written.
- If the layout comes to its end and every item has a text, then there is one chunk for each item,
  and one for an ending that is not empty.  The chunks make up the text with the ending behind it.
- If the layout fails, or an item has no text, then there is one chunk for each item before that,
  and none for the ending.

Whatever fails, it is the same for the chunks and for the text.  A text that is asked for in either
order is this text, and what is asked to be written are these chunks. -/
theorem printing_paths_agree (host : Host σ) (state : σ) (doc width : Value) :
    (∀ cause, Refuses doc width cause → FailsAfter host doc width state [] cause) ∧
    (∀ columns root, width.toInt? = some columns → Doc.ofValue doc = .ok root →
      (∀ items, (Walk.start 0 [⟨0, .doc root⟩] state).Emits host columns ⟨items, none⟩ →
        (∀ item ∈ items, item.Renders) →
        ∃ text, Formats host doc width state (.ok text) ∧
          (String.join (items.map Item.chunk) = text ∧ ∀ ending, ending.isTrue = false →
            Writes host doc width state ending (items.map Item.chunk) none) ∧
          ∀ content ≠ "", String.join (items.map Item.chunk ++ [content]) = text ++ content ∧
            Writes host doc width state (.str content) (items.map Item.chunk ++ [content]) none) ∧
      (∀ items cause,
        (Walk.start 0 [⟨0, .doc root⟩] state).Emits host columns ⟨items, some cause⟩ →
        (∀ item ∈ items, item.Renders) →
        FailsAfter host doc width state (items.map Item.chunk) cause) ∧
      ∀ items bad cause,
        (Walk.start 0 [⟨0, .doc root⟩] state).Opens host columns (items ++ [bad]) →
        (∀ item ∈ items, item.Renders) → bad.render {} = .error cause →
        FailsAfter host doc width state (items.map Item.chunk) cause) ∧
    ∀ (bound : Nat) (env : Script.Env) (heap : Script.Heap) (docName widthName endingName : String)
      (docObject widthObject endingObject : Object),
      env.lookup docName = some docObject → env.lookup widthName = some widthObject →
      env.lookup endingName = some endingObject →
      let printed :=
        printDoc Script.host bound {} docObject.content widthObject.content heap
      let closed := printed.close endingObject.content
      (Script.Request.pretty (.var widthName) (.var docName)).reply bound env heap =
          (.ofOutcome printed.text, printed.state) ∧
        (Script.Request.format (.var docName) (some (.var widthName))).reply bound env heap =
          (.ofOutcome printed.text, printed.state) ∧
        (Script.Request.print (.var docName) (some (.var widthName))
            (some (.var endingName))).reply bound env heap =
          (.chunks closed.taken.chunks.reverse closed.failure, printed.state) := by
  refine ⟨fun cause refuses => (refuses.printsChunks host state).failsAfter, ?_, ?_⟩
  · intro columns root widthEq docEq
    refine ⟨?_, ?_, ?_⟩
    · intro items emits renders
      have prints : PrintsChunks host doc width state (items.map Item.chunk) none :=
        (printsChunks_iff widthEq docEq).mpr ⟨items, renders, rfl, .inl emits⟩
      refine ⟨_, prints.formats, ⟨rfl, fun ending => prints.writes_nothing⟩, ?_⟩
      intro content notEmpty
      refine ⟨?_, prints.writes_ending notEmpty⟩
      rw [String.join_append, String.join_cons, String.join_nil, String.append_empty]
    · intro items cause emits renders
      apply PrintsChunks.failsAfter
      exact (printsChunks_iff widthEq docEq).mpr ⟨items, renders, rfl, .inl emits⟩
    · intro items bad cause opens renders unrendered
      apply PrintsChunks.failsAfter
      exact (printsChunks_iff widthEq docEq).mpr
        ⟨items, renders, rfl, .inr ⟨bad, cause, opens, unrendered, rfl⟩⟩
  · intro bound env heap docName widthName endingName docObject widthObject endingObject docBound
      widthBound endingBound
    exact ⟨Script.reply_pretty docBound widthBound heap,
      Script.reply_format docBound widthBound heap,
      Script.reply_print docBound widthBound heap endingBound⟩

/-- A letter, and behind an indented line break whatever is given. -/
def Doc.brokenBefore (last : Doc) : Doc :=
  .concat (.text ⟨"a", by decide⟩) (.nest (.int 2) (.concat .line last))

theorem Doc.emits_brokenBefore {last : Doc} {events : List Event} {ending : Option Error}
    (later : Course .steps 80 2 [⟨2, .doc last⟩] events ending) :
    (Walk.start 0 [⟨0, .doc last.brokenBefore⟩] 0).Emits Meaning.steps.countingHost 80
      ⟨.text ⟨"a", by decide⟩ :: .line 2 :: itemsOf events, ending⟩ := by
  have whole : Course .steps 80 0 [⟨0, .doc last.brokenBefore⟩]
      (.item (.text ⟨"a", by decide⟩) :: .item (.line 2) :: events) ending :=
    .replace rfl (.emit rfl (.replace rfl (.replace rfl (.newline rfl later))))
  obtain ⟨store, yields⟩ :=
    (Walk.ends_iff_course Meaning.steps.realizes_countingHost 0 _ 0).mpr whole
  exact ⟨_, store, yields, rfl⟩

/-- A layout that comes to its end, one that fails, one with too deep an indentation, and a text
that is no document. -/
theorem brokenBefore_printed :
    let host := Meaning.steps.countingHost
    let deep : Doc := .nest (.int Text.repeatLimit) .line
    let printed (last : Doc) : Value := .doc last.brokenBefore
    (Formats host (printed .space) (.int 80) 0 (.ok "a\n   ") ∧
      Writes host (printed .space) (.int 80) 0 (.str "\n") ["a", "\n  ", " ", "\n"] none) ∧
    FailsAfter host (printed .unknown) (.int 80) 0 ["a", "\n  "] (.notDoc (.doc .unknown)) ∧
    FailsAfter host (printed deep) (.int 80) 0 ["a", "\n  "] .tooManyCopies ∧
    FailsAfter host (.str "\n") (.int 80) 0 [] (.brokenText "\n") ∧
    ∀ bound,
      let env : Script.Env :=
        [("d", ⟨.shared, printed .space⟩), ("w", ⟨.shared, .int 80⟩), ("e", ⟨.shared, .none⟩)]
      (Script.Request.pretty (.var "w") (.var "d")).reply bound env {} =
        (Script.Request.format (.var "d") (some (.var "w"))).reply bound env {} := by
  intro host deep printed
  let letter : Item := .text ⟨"a", by decide⟩
  have renders : ∀ item ∈ [letter, .line 2] ++ [.text .space], item.Renders := by
    have small : (2 : Int) < Text.repeatLimit := by decide
    simp [letter, Item.renders_iff_inRange, Item.InRange, small]
  have firstRender : ∀ item ∈ [letter, .line 2], item.Renders :=
    (List.forall_mem_append.mp renders).1
  refine ⟨?_, ?_, ?_, ?_, ?_⟩
  · obtain ⟨-, layouts, -⟩ := printing_paths_agree host 0 (printed .space) (.int 80)
    obtain ⟨text, formats, ⟨rfl, -⟩, ending⟩ :=
      (layouts 80 _ rfl rfl).1 _ (Doc.emits_brokenBefore (.emit rfl .done)) renders
    exact ⟨formats, (ending "\n" (by decide)).2⟩
  · obtain ⟨-, layouts, -⟩ := printing_paths_agree host 0 (printed .unknown) (.int 80)
    exact (layouts 80 _ rfl rfl).2.1 _ _ (Doc.emits_brokenBefore (.fails rfl)) firstRender
  · obtain ⟨-, layouts, -⟩ := printing_paths_agree host 0 (printed deep) (.int 80)
    let tooDeep : Item := .line (2 + Text.repeatLimit)
    have later : Course .steps 80 2 [⟨2, .doc deep⟩] [.item tooDeep] none :=
      .replace rfl (.newline rfl .done)
    have opens : (Walk.start 0 [⟨0, .doc deep.brokenBefore⟩] 0).Opens host 80
        ([letter, .line 2] ++ [tooDeep]) := by
      obtain ⟨events, store, ⟨last, run, -⟩, itemsEq⟩ := Doc.emits_brokenBefore later
      refine ⟨events, ⟨[], last, by rwa [List.append_nil]⟩, ?_⟩
      rw [itemsEq]
      exact List.prefix_rfl
    exact (layouts 80 _ rfl rfl).2.2 _ tooDeep .tooManyCopies opens firstRender rfl
  · obtain ⟨refused, -⟩ := printing_paths_agree host 0 (.str "\n") (.int 80)
    exact refused _ (.inr ⟨Option.some_ne_none 80, rfl⟩)
  · intro bound env
    obtain ⟨-, -, requests⟩ := printing_paths_agree host 0 (printed .space) (.int 80)
    obtain ⟨pretty, format, -⟩ := requests bound env {} "d" "w" "e" _ _ _ rfl rfl rfl
    exact pretty.trans format.symm

end DocLayout
