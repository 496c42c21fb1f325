import DocLayout.Proofs.Layout.Exchange
import DocLayout.Proofs.Layout.Spelling

/-!
# The division of text is not seen

A text may be divided in two, and an empty text may be replaced by the blank that is dropped.
Whatever the context, the same marks are laid out at every width: the same characters and line
breaks, and the same decisions on the same choices, those of probes included.  So the walks report
the same decisions, and the same is printed, or printing fails with the same cause.
-/

namespace DocLayout

variable {σ : Type} {host : Host σ} {meaning : Meaning} {width : Int} {first second : Doc}
  {marks : List Mark}

/-! ## Documents that are spelled alike -/

namespace Value.SpelledAlike

/-- A document follows the passages of one that is spelled alike. -/
theorem followed (alike : SpelledAlike (.doc first) (.doc second)) {events : List Event}
    {next : Int} {remaining : List Obligation}
    (passage : Passage meaning width 0 [⟨0, .doc first⟩] events next remaining) :
    Ahead.Followed meaning width 0 [] [⟨0, .doc second⟩] (marksOf events) next remaining := by
  have startAlike : Obligation.SpelledAlike ⟨0, .doc first⟩ ⟨0, .doc second⟩ := ⟨rfl, alike⟩
  exact Ahead.followed passage (.level (.cons startAlike .nil))

theorem marked (alike : SpelledAlike (.doc first) (.doc second)) {ending : Option Error}
    (marked : first.Marked meaning width marks ending) :
    second.Marked meaning width marks ending := by
  obtain ⟨events, next, remaining, passage, stops, rfl⟩ := marked
  obtain ⟨otherEvents, later, otherRemaining, otherPassage, ahead, marksEq⟩ :=
    alike.followed passage
  obtain ⟨rfl, otherStops⟩ := ahead.stops stops
  rw [Ahead.columns_nil] at otherPassage
  exact ⟨otherEvents, next, otherRemaining, otherPassage, otherStops, by simpa using marksEq⟩

theorem markedFirst (alike : SpelledAlike (.doc first) (.doc second))
    (marked : first.MarkedFirst meaning width marks) :
    second.MarkedFirst meaning width marks := by
  obtain ⟨events, next, remaining, passage, isPrefix⟩ := marked
  obtain ⟨otherEvents, later, otherRemaining, otherPassage, -, marksEq⟩ := alike.followed passage
  have eventsPrefix : marksOf events <+: marksOf otherEvents := ⟨_, marksEq.symm⟩
  exact ⟨otherEvents, _, otherRemaining, otherPassage, isPrefix.trans eventsPrefix⟩

end Value.SpelledAlike

/-- Two documents are laid out with the same marks at every width, and the same is reported and
printed.

Marks are those of passages, and the decisions of probes are among them.  A walk takes a passage on
every stretch (`Stretch.exists_passage`).  So passages settle what walks emit
(`Walk.emits_iff_exists_passage`) and what they report (`Walk.ends_iff_exists_passage`,
`Walk.begins_iff_exists_passage`). -/
structure Doc.ShownAlike (host : Host σ) (meaning : Meaning) (first second : Doc) : Prop where
  /-- The marks up to where the layouts stop are the same. -/
  marked (width : Int) (marks : List Mark) (ending : Option Error) :
    first.Marked meaning width marks ending ↔ second.Marked meaning width marks ending
  /-- The first marks are the same, also where the layouts never end. -/
  markedFirst (width : Int) (marks : List Mark) :
    first.MarkedFirst meaning width marks ↔ second.MarkedFirst meaning width marks
  /-- Walks that end report the same characters, line breaks and decisions. -/
  reported (width : Int) (state otherState : σ) (marks : List Mark) (ending : Option Error) :
    first.Reported host width state marks ending ↔
      second.Reported host width otherState marks ending
  /-- Walks report the same first characters, line breaks and decisions. -/
  reportedFirst (width : Int) (state otherState : σ) (marks : List Mark) :
    first.ReportedFirst host width state marks ↔ second.ReportedFirst host width otherState marks
  /-- The same text is printed, or printing fails for the same cause. -/
  printsOut (style : Style) (width : Int) (state otherState : σ)
    (outcome : Except Error String) :
    PrintsOut host style width first state outcome ↔
      PrintsOut host style width second otherState outcome

theorem Doc.ShownAlike.of_spelledAlike (realizes : host.Realizes meaning)
    (alike : Value.SpelledAlike (.doc first) (.doc second)) :
    first.ShownAlike host meaning second := by
  have marked (width : Int) (marks : List Mark) (ending : Option Error) :
      first.Marked meaning width marks ending ↔ second.Marked meaning width marks ending :=
    ⟨alike.marked, alike.symm.marked⟩
  have markedFirst (width : Int) (marks : List Mark) :
      first.MarkedFirst meaning width marks ↔ second.MarkedFirst meaning width marks :=
    ⟨alike.markedFirst, alike.symm.markedFirst⟩
  refine ⟨marked, markedFirst, fun width state otherState marks ending => ?_,
    fun width state otherState marks => ?_, fun style width state otherState outcome => ?_⟩
  · simp only [reported_iff_marked realizes, marked]
  · simp only [reportedFirst_iff_markedFirst realizes, markedFirst]
  · simp only [printsOut_iff_marked realizes, marked, markedFirst]

theorem Context.fillsAlike_of_spelledAlike (realizes : host.Realizes meaning) (context : Context)
    {left right : Identified Doc}
    (alike : Value.SpelledAlike (.doc left.content) (.doc right.content)) :
    context.FillsAlike (Doc.ShownAlike host meaning) left right := by
  constructor
  · intro whole fills
    obtain ⟨other, otherFills, wholeAlike⟩ := exists_fill_spelledAlike alike fills
    exact ⟨other, otherFills, .of_spelledAlike realizes wholeAlike⟩
  · intro other otherFills
    obtain ⟨whole, fills, otherAlike⟩ := exists_fill_spelledAlike alike.symm otherFills
    exact ⟨whole, fills, .of_spelledAlike realizes otherAlike.symm⟩

/-! ## Divided text -/

/-- Two ways to build text, in one piece and divided. -/
inductive Build.Division :
    Except Error (Identified Doc) → Except Error (Identified Doc) → Prop where
  | split (label firstLabel secondLabel concatLabel : Nat) {first second : String}
      (unbroken : ∀ c ∈ first.toList, isLineBreak c = false)
      (laterUnbroken : ∀ c ∈ second.toList, isLineBreak c = false) :
      Division (text label (.str (first ++ second)))
        (do
          let left ← text firstLabel (.str first)
          let right ← text secondLabel (.str second)
          concatOf concatLabel (.doc left.content) (.doc right.content))
  | dropped (label : Nat) : Division (text label (.str "")) (.ok .empty)

theorem Build.text_fragment (label : Nat) (fragment : Fragment) :
    text label (.str fragment.text) = .ok ⟨.made label, .text fragment⟩ := by
  rw [text, Doc.ofString, Fragment.ofString?_eq_some_iff.mpr rfl]
  rfl

/-- Both ways to build text succeed, and the results are spelled alike. -/
theorem Build.Division.exists_spelledAlike
    {joined divided : Except Error (Identified Doc)} (division : Build.Division joined divided) :
    ∃ left right, joined = .ok left ∧ divided = .ok right ∧ left.content.Grouped ∧
      Value.SpelledAlike (.doc left.content) (.doc right.content) := by
  cases division with
  | @split label firstLabel secondLabel concatLabel first second unbroken laterUnbroken =>
      have allUnbroken : ∀ c ∈ (first ++ second).toList, isLineBreak c = false := by
        rw [String.toList_append]
        exact List.forall_mem_append.mpr ⟨unbroken, laterUnbroken⟩
      refine ⟨_, ⟨.made concatLabel,
          .concat (.text ⟨first, unbroken⟩) (.text ⟨second, laterUnbroken⟩)⟩,
        Build.text_fragment label ⟨first ++ second, allUnbroken⟩, ?_, .text _,
        .spelled (.text _) (.concat (.text _) (.text _)) (by simp)⟩
      rw [Build.text_fragment firstLabel ⟨first, unbroken⟩,
        Build.text_fragment secondLabel ⟨second, laterUnbroken⟩]
      rfl
  | dropped label =>
      have unbroken : ∀ c ∈ "".toList, isLineBreak c = false := by simp
      exact ⟨_, .empty, Build.text_fragment label ⟨"", unbroken⟩, rfl, .text _,
        .spelled (.text _) (.blank false) (by simp)⟩

/-- Whatever the context and the width, text in one piece and divided text are laid out with the
same characters, line breaks and decisions.  These are what the walks report, and the same is
printed. -/
theorem division_is_not_seen (realizes : host.Realizes meaning)
    {joined divided : Except Error (Identified Doc)} (division : Build.Division joined divided) :
    ∃ left right, joined = .ok left ∧ divided = .ok right ∧ ∀ context : Context,
      context.FillsAlike (Doc.ShownAlike host meaning) left right ∧
        (context.All Doc.Grouped → ∃ whole, context.fill left = .ok whole) := by
  obtain ⟨left, right, leftEq, rightEq, grouped, alike⟩ := division.exists_spelledAlike
  refine ⟨left, right, leftEq, rightEq, fun context => ⟨?_, fun around => ?_⟩⟩
  · exact context.fillsAlike_of_spelledAlike realizes alike
  · obtain ⟨whole, fills, -⟩ := Context.exists_fill_of_grouped around grouped
    exact ⟨whole, fills⟩

/-- The word is wider than two columns, so the group is broken. -/
theorem Course.of_word (identity : Identity) (word : Fragment) (wide : word.width = 3) :
    Course .steps 2 0
      [⟨0, .doc (Context.inAlignedGroup identity (.text word) (.text word))⟩]
      [.decision ⟨0, 0, false⟩, .item (.text word), .item (.line 0)] none := by
  have flat : Search .steps 2 0 [⟨0, .doc (.concat (.text word) .space)⟩]
      (Found.overflows.after [.text word]) := by
    refine .replace (by decide) (Obligation.answer_concat ..)
      (.emit (by decide) (Obligation.answer_text ..) (.beyond ?_))
    rw [wide]
    decide
  have broken : Course .steps 2 0 [⟨0, .doc (.concat (.text word) .line)⟩]
      [.item (.text word), .item (.line 0)] none :=
    .replace (Obligation.answer_concat ..) (.emit (Obligation.answer_text ..)
      (.newline (Obligation.answer_line ..) .done))
  exact .replace (Obligation.answer_aligned ..) (.replace (Obligation.answer_alignAt ..)
    (.replace (Obligation.answer_nest ..) (.broken (Obligation.answer_union ..) flat broken)))

/-- Within two columns, over the word in one piece and over the divided one, a walk breaks the
group. -/
theorem divided_word_in_alignedGroup :
    let divided := do
      let left ← Build.text 4 (.str "ab")
      let right ← Build.text 5 (.str "c")
      Build.concatOf 6 (.doc left.content) (.doc right.content)
    Meaning.steps.countingHost.Realizes .steps ∧
      Build.Division (Build.text 3 (.str ("ab" ++ "c"))) divided ∧
      ∃ left right whole other, Build.text 3 (.str ("ab" ++ "c")) = .ok left ∧
        divided = .ok right ∧ Context.alignedGroup.fill left = .ok whole ∧
        Context.alignedGroup.fill right = .ok other ∧
        whole.content.ShownAlike Meaning.steps.countingHost .steps other.content ∧
        ∀ document ∈ [whole.content, other.content],
          document.Reported Meaning.steps.countingHost 2 0
            [.decision ⟨0, 0, false⟩, .char 'a', .char 'b', .char 'c', .line 0] none := by
  intro divided
  have realizes := Meaning.steps.realizes_countingHost
  have division : Build.Division (Build.text 3 (.str ("ab" ++ "c"))) divided :=
    .split 3 4 5 6 (by decide) (by decide)
  obtain ⟨left, right, leftEq, rightEq, alike⟩ := division_is_not_seen realizes division
  obtain ⟨whole, fills⟩ := (alike Context.alignedGroup).2 Context.alignedGroup_grouped
  obtain ⟨other, otherFills, shownAlike⟩ := (alike Context.alignedGroup).1.1 whole fills
  let word : Fragment := ⟨"ab" ++ "c", by decide⟩
  obtain rfl := Except.ok.inj (leftEq.symm.trans (Build.text_fragment 3 word))
  obtain ⟨flatIdentity, fillsEq⟩ := Context.exists_fill_alignedGroup ⟨.made 3, .text word⟩ rfl
  cases fills.symm.trans fillsEq
  have ends := (Walk.ends_iff_course realizes 0 _ 0).mpr
    (Course.of_word flatIdentity word (by decide))
  have letters : word.text.toList = ['a', 'b', 'c'] := by decide
  have marksEq : marksOf [.decision ⟨0, 0, false⟩, .item (.text word), .item (.line 0)] =
      [.decision ⟨0, 0, false⟩, .char 'a', .char 'b', .char 'c', .line 0] := by
    simp [Event.marks, Item.marks, letters]
  have reported := (shownAlike.reported 2 0 0 _ none).mp ⟨_, ends, marksEq⟩
  exact ⟨realizes, division, _, right, _, other, leftEq, rightEq, fills, otherFills, shownAlike,
    List.forall_mem_cons.mpr ⟨⟨_, ends, marksEq⟩, List.forall_mem_singleton.mpr reported⟩⟩

end DocLayout
