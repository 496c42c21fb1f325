import DocLayout.Proofs.Doc.Spelling
import DocLayout.Proofs.Layout.Fitting
import DocLayout.Proofs.Layout.Marks
import DocLayout.Proofs.Layout.Translation

/-!
# Layouts and the division of text

Text that is divided in another way gives other items, but the same characters at the same columns.
So two documents that are spelled alike are compared by marks: characters, line breaks and
decisions.

In the comparison the second list of obligations is ahead by some text that the first one has still
to spell.  Wherever the first one meets a part that spells text, the second one emits all the text
of its own part at once.  Everywhere else the two are level and move in step.  A probe may find out
in the middle of a text that the width is exceeded, but then it finds this out in the other division
too, since columns do not go back before the next line break.
-/

namespace DocLayout

open Fragment (charsOf)

/-! ## Text -/

/-- The events that emit fragments. -/
def Event.texts (fragments : List Fragment) : List Event :=
  fragments.map fun fragment => .item (.text fragment)

@[simp]
theorem marksOf_texts (fragments : List Fragment) :
    marksOf (Event.texts fragments) = (charsOf fragments).map .char := by
  induction fragments with
  | nil => rfl
  | cons fragment fragments inductionHypothesis =>
      rw [Fragment.charsOf_cons, List.map_append, ← inductionHypothesis]
      rfl

theorem Fragment.length_charsOf (fragments : List Fragment) :
    (charsOf fragments).length = Layout.widthOf fragments := by
  induction fragments with
  | nil => rfl
  | cons fragment fragments inductionHypothesis =>
      rw [charsOf_cons, List.length_append, inductionHypothesis, fragment.length_toList]
      rfl

/-- Text takes the same columns in one piece and in two. -/
theorem Fragment.columns_eq {first second whole : List Fragment}
    (charsEq : charsOf first ++ charsOf second = charsOf whole) (column : Int) :
    column + Layout.widthOf first + Layout.widthOf second = column + Layout.widthOf whole := by
  have lengthEq := congrArg List.length charsEq
  simp only [List.length_append, length_charsOf] at lengthEq
  omega

/-! ## Obligations that spell text -/

/-- Obligations consist of fragments one after the other. -/
inductive SpellsOut : List Obligation → List Fragment → Prop where
  | nil : SpellsOut [] []
  | blank (indent : Int) (kept : Bool) {rest : List Obligation} {fragments : List Fragment}
      (later : SpellsOut rest fragments) :
      SpellsOut (⟨indent, .doc (.blank kept)⟩ :: rest) fragments
  | text (indent : Int) (fragment : Fragment) {rest : List Obligation} {fragments : List Fragment}
      (later : SpellsOut rest fragments) :
      SpellsOut (⟨indent, .doc (.text fragment)⟩ :: rest) (fragment :: fragments)
  | concat {indent : Int} {left right : Doc} {rest : List Obligation} {fragments : List Fragment}
      (later : SpellsOut (⟨indent, .doc left⟩ :: ⟨indent, .doc right⟩ :: rest) fragments) :
      SpellsOut (⟨indent, .doc (.concat left right)⟩ :: rest) fragments

variable {meaning : Meaning} {width column next : Int} {part other : Obligation}
  {parts rest others taken remaining : List Obligation} {fragments later spelled : List Fragment}

namespace SpellsOut

theorem of_doc {document : Doc} (spells : document.Spells fragments) (indent : Int)
    (restSpells : SpellsOut rest later) :
    SpellsOut (⟨indent, .doc document⟩ :: rest) (fragments ++ later) := by
  induction spells generalizing rest later with
  | blank kept => exact .blank indent kept restSpells
  | text fragment => exact .text indent fragment restSpells
  | concat _ _ leftHypothesis rightHypothesis =>
      rw [List.append_assoc]
      exact .concat (leftHypothesis (rightHypothesis restSpells))

/-- The first obligation emits the first fragment, or it is replaced. -/
theorem emits_or_replaced (meaning : Meaning) (spells : SpellsOut (part :: rest) fragments) :
    (∃ fragment later, fragments = fragment :: later ∧
      (∀ column, part.answer meaning column = .ok (.emit fragment)) ∧ SpellsOut rest later) ∨
    ∃ parts, (∀ column, part.answer meaning column = .ok (.replace parts)) ∧
      SpellsOut (parts ++ rest) fragments := by
  cases spells with
  | blank indent kept later => exact .inr ⟨[], fun _ => rfl, later⟩
  | text indent fragment later => exact .inl ⟨fragment, _, rfl, fun _ => rfl, later⟩
  | concat later => exact .inr ⟨_, fun _ => rfl, later⟩

/-- A search goes on behind the text. -/
theorem answers_iff (spells : SpellsOut taken fragments) {answer : Except Error Bool} :
    Answers meaning width column (taken ++ rest) answer ↔
      Answers meaning width (column + Layout.widthOf fragments) rest answer := by
  induction spells generalizing column with
  | nil => simp [Layout.widthOf]
  | blank indent kept _ inductionHypothesis =>
      rw [List.cons_append, Answers.replace_iff rfl]
      exact inductionHypothesis
  | text indent fragment _ inductionHypothesis =>
      rw [List.cons_append, Answers.emit_iff rfl, Layout.widthOf, Int.natCast_add,
        ← Int.add_assoc]
      exact inductionHypothesis
  | concat _ inductionHypothesis =>
      rw [List.cons_append, Answers.replace_iff rfl]
      exact inductionHypothesis

/-- A passage emits the text. -/
theorem passage (spells : SpellsOut taken fragments) (column : Int) (rest : List Obligation) :
    Passage meaning width column (taken ++ rest) (Event.texts fragments)
      (column + Layout.widthOf fragments) rest := by
  induction spells generalizing column with
  | nil => simpa [Layout.widthOf, Event.texts] using Passage.refl column rest
  | blank indent kept _ inductionHypothesis => exact .replace rfl (inductionHypothesis column)
  | text indent fragment _ inductionHypothesis =>
      rw [Layout.widthOf, Int.natCast_add, ← Int.add_assoc]
      exact .emit rfl (inductionHypothesis _)
  | concat _ inductionHypothesis => exact .replace rfl (inductionHypothesis column)

end SpellsOut

/-! ## Obligations that are spelled alike -/

/-- Obligations at the same indentation whose values are spelled alike. -/
structure Obligation.SpelledAlike (part other : Obligation) : Prop where
  indent_eq : other.indent = part.indent
  values : part.value.SpelledAlike other.value

theorem Obligation.SpelledAlike.refl (part : Obligation) : part.SpelledAlike part :=
  ⟨rfl, .same _⟩

/-- Two obligations at the same indentation fail alike, or make corresponding moves. -/
structure Obligation.InStep (meaning : Meaning) (part other : Obligation) : Prop where
  indent_eq : other.indent = part.indent
  fails {column : Int} {cause : Error} (move : part.answer meaning column = .error cause) :
    other.answer meaning column = .error cause
  moves {column : Int} {move : Move} (answers : part.answer meaning column = .ok move) :
    ∃ otherMove, other.answer meaning column = .ok otherMove ∧
      move.Corresponds Obligation.SpelledAlike part.indent other.indent otherMove

namespace Obligation.InStep

/-- What is replaced by obligations that are spelled alike is in step. -/
theorem of_replaced (indentEq : other.indent = part.indent) {otherParts : List Obligation}
    (move : ∀ column, part.answer meaning column = .ok (.replace parts))
    (otherMove : ∀ column, other.answer meaning column = .ok (.replace otherParts))
    (alike : List.Forall₂ Obligation.SpelledAlike parts otherParts) :
    part.InStep meaning other where
  indent_eq := indentEq
  fails {column cause} answers := by cases (move column).symm.trans answers
  moves {column _} answers := by
    cases (move column).symm.trans answers
    exact ⟨_, otherMove column, .replace alike⟩

end Obligation.InStep

/-- Two obligations that are spelled alike spell the same text, or they are in step. -/
theorem Obligation.SpelledAlike.spell_or_inStep (meaning : Meaning)
    (alike : part.SpelledAlike other) :
    (∃ fragments others, SpellsOut [part] fragments ∧ SpellsOut [other] others ∧
      charsOf fragments = charsOf others) ∨ part.InStep meaning other := by
  rcases part with ⟨indent, value⟩
  rcases other with ⟨otherIndent, otherValue⟩
  obtain ⟨rfl, alike⟩ := alike
  cases alike with
  | same =>
      exact .inr ⟨rfl, fun move => move, fun {_ move} answers =>
        ⟨move, answers, .refl .refl _ move⟩⟩
  | spelled spells otherSpells charsEq =>
      exact .inl ⟨_, _, .of_doc spells _ .nil, .of_doc otherSpells _ .nil, by simpa using charsEq⟩
  | concat leftAlike rightAlike =>
      exact .inr (.of_replaced rfl (fun _ => rfl) (fun _ => rfl)
        (.cons ⟨rfl, leftAlike⟩ (.cons ⟨rfl, rightAlike⟩ .nil)))
  | nest amount innerAlike =>
      exact .inr (.of_replaced rfl (fun _ => rfl) (fun _ => rfl) (.cons ⟨rfl, innerAlike⟩ .nil))
  | union flatAlike brokenAlike =>
      refine .inr ⟨rfl, fun move => ?_, fun answers => ?_⟩
      · cases move
      · cases answers
        exact ⟨_, rfl, .choose ⟨rfl, flatAlike⟩ ⟨rfl, brokenAlike⟩⟩
  | aligned label innerAlike =>
      refine .inr ⟨rfl, fun move => ?_, fun {column _} answers => ?_⟩
      · cases move
      · cases answers
        exact ⟨_, rfl, .replace (.cons ⟨rfl, .alignAt column innerAlike⟩ .nil)⟩
  | alignAt start innerAlike =>
      exact .inr (.of_replaced rfl (fun _ => rfl) (fun _ => rfl)
        (.cons ⟨rfl, .nest _ innerAlike⟩ .nil))

/-! ## One layout ahead of the other one -/

/-- The second list is what is left of the first one, up to the division of text, when the text that
the first one begins with has been spelled. -/
def Ahead (fragments : List Fragment) (parts others : List Obligation) : Prop :=
  ∃ taken rest, parts = taken ++ rest ∧ SpellsOut taken fragments ∧
    List.Forall₂ Obligation.SpelledAlike rest others

namespace Ahead

theorem level (alike : List.Forall₂ Obligation.SpelledAlike parts others) : Ahead [] parts others :=
  ⟨[], parts, rfl, .nil, alike⟩

/-- How the first list begins.  It spells text, by emitting a fragment or by a replacement, and then
the second one emits some text, if any, so that it is ahead again.  Or the two are level and in
step. -/
inductive Front (meaning : Meaning) (fragments : List Fragment) (part : Obligation)
    (rest others : List Obligation) : Prop where
  | emit {fragment : Fragment} {later spelled : List Fragment} {taken remaining : List Obligation}
      (move : ∀ column, part.answer meaning column = .ok (.emit fragment))
      (othersEq : others = taken ++ remaining) (spells : SpellsOut taken spelled)
      (charsEq : charsOf fragments ++ charsOf spelled = charsOf (fragment :: later))
      (ahead : Ahead later rest remaining)
  | replace {later spelled : List Fragment} {parts taken remaining : List Obligation}
      (move : ∀ column, part.answer meaning column = .ok (.replace parts))
      (othersEq : others = taken ++ remaining) (spells : SpellsOut taken spelled)
      (charsEq : charsOf fragments ++ charsOf spelled = charsOf later)
      (ahead : Ahead later (parts ++ rest) remaining)
  | level {other : Obligation} {remaining : List Obligation} (nothing : fragments = [])
      (othersEq : others = other :: remaining) (inStep : part.InStep meaning other)
      (alike : List.Forall₂ Obligation.SpelledAlike rest remaining)

theorem Front.of_spells (meaning : Meaning) (spells : SpellsOut (part :: taken) later)
    (alike : List.Forall₂ Obligation.SpelledAlike rest remaining)
    {otherTaken : List Obligation} (othersEq : others = otherTaken ++ remaining)
    (otherSpells : SpellsOut otherTaken spelled)
    (charsEq : charsOf fragments ++ charsOf spelled = charsOf later) :
    Front meaning fragments part (taken ++ rest) others := by
  rcases spells.emits_or_replaced meaning with ⟨fragment, last, rfl, move, lastSpells⟩ |
    ⟨parts, move, partsSpell⟩
  · exact .emit move othersEq otherSpells charsEq ⟨taken, rest, rfl, lastSpells, alike⟩
  · exact .replace move othersEq otherSpells charsEq
      ⟨parts ++ taken, rest, (List.append_assoc ..).symm, partsSpell, alike⟩

theorem columns_nil (column : Int) : column + (Layout.widthOf [] : Nat) = column :=
  Int.add_zero column

theorem nil_iff : Ahead fragments [] others ↔ fragments = [] ∧ others = [] := by
  constructor
  · rintro ⟨taken, rest, partsEq, spells, alike⟩
    obtain ⟨rfl, rfl⟩ := List.append_eq_nil_iff.mp partsEq.symm
    cases spells
    cases alike
    exact ⟨rfl, rfl⟩
  · rintro ⟨rfl, rfl⟩
    exact .level .nil

theorem front (meaning : Meaning) (ahead : Ahead fragments (part :: rest) others) :
    Front meaning fragments part rest others := by
  obtain ⟨taken, parts, partsEq, spells, alike⟩ := ahead
  cases taken with
  | nil =>
      cases spells
      subst partsEq
      obtain _ | ⟨partAlike, restAlike⟩ := alike
      rcases partAlike.spell_or_inStep meaning with
        ⟨fragments, others, partSpells, otherSpells, charsEq⟩ | inStep
      · exact .of_spells meaning partSpells restAlike rfl otherSpells charsEq.symm
      · exact .level rfl rfl inStep restAlike
  | cons first taken =>
      obtain ⟨rfl, rfl⟩ := List.cons_eq_cons.mp partsEq
      exact .of_spells meaning spells alike rfl .nil (List.append_nil _)

/-- What is neither text nor replaced is level with what is in step with it. -/
theorem exists_level (ahead : Ahead fragments (part :: rest) others) {outcome : Except Error Move}
    (answer : part.answer meaning column = outcome)
    (notEmitted : ∀ fragment, outcome ≠ .ok (.emit fragment))
    (notReplaced : ∀ parts, outcome ≠ .ok (.replace parts)) :
    fragments = [] ∧ ∃ other remaining, others = other :: remaining ∧
      part.InStep meaning other ∧ List.Forall₂ Obligation.SpelledAlike rest remaining := by
  cases ahead.front meaning with
  | emit move => exact absurd (answer.symm.trans (move column)) (notEmitted _)
  | replace move => exact absurd (answer.symm.trans (move column)) (notReplaced _)
  | level nothing othersEq inStep alike => exact ⟨nothing, _, _, othersEq, inStep, alike⟩

theorem newline (ahead : Ahead fragments (part :: rest) others)
    (move : part.answer meaning column = .ok .newline) :
    fragments = [] ∧ ∃ other remaining, others = other :: remaining ∧
      other.indent = part.indent ∧ other.answer meaning column = .ok .newline ∧
      Ahead [] rest remaining := by
  obtain ⟨nothing, other, remaining, othersEq, inStep, alike⟩ :=
    ahead.exists_level move (by simp) (by simp)
  obtain ⟨_, otherMove, corresponds⟩ := inStep.moves move
  cases corresponds
  exact ⟨nothing, other, remaining, othersEq, inStep.indent_eq, otherMove, .level alike⟩

theorem choose (ahead : Ahead fragments (part :: rest) others) {flat broken : Value}
    (move : part.answer meaning column = .ok (.choose flat broken)) :
    fragments = [] ∧ ∃ other remaining otherFlat otherBroken, others = other :: remaining ∧
      other.indent = part.indent ∧
      other.answer meaning column = .ok (.choose otherFlat otherBroken) ∧
      Ahead [] (⟨part.indent, flat⟩ :: rest) (⟨other.indent, otherFlat⟩ :: remaining) ∧
      Ahead [] (⟨part.indent, broken⟩ :: rest) (⟨other.indent, otherBroken⟩ :: remaining) := by
  obtain ⟨nothing, other, remaining, othersEq, inStep, alike⟩ :=
    ahead.exists_level move (by simp) (by simp)
  obtain ⟨_, otherMove, corresponds⟩ := inStep.moves move
  obtain _ | _ | ⟨flatAlike, brokenAlike⟩ := corresponds
  exact ⟨nothing, other, remaining, _, _, othersEq, inStep.indent_eq, otherMove,
    .level (.cons flatAlike alike), .level (.cons brokenAlike alike)⟩

theorem fail (ahead : Ahead fragments (part :: rest) others) {cause : Error}
    (move : part.answer meaning column = .error cause) :
    fragments = [] ∧ ∃ other remaining, others = other :: remaining ∧
      other.answer meaning column = .error cause := by
  obtain ⟨nothing, other, remaining, othersEq, inStep, -⟩ :=
    ahead.exists_level move (by simp) (by simp)
  exact ⟨nothing, other, remaining, othersEq, inStep.fails move⟩

theorem answers_of_search {found : Found} (search : Search meaning width column parts found)
    (ahead : Ahead fragments parts others) :
    Answers meaning width (column + Layout.widthOf fragments) others found.answer := by
  induction search generalizing fragments others with
  | beyond exceeds => exact (Answers.beyond_iff (by omega)).mpr rfl
  | done within =>
      obtain ⟨rfl, rfl⟩ := nil_iff.mp ahead
      rw [columns_nil]
      exact .of_search (.done within)
  | @emit column part rest fragment found within move _ inductionHypothesis =>
      rw [Found.answer_after]
      cases ahead.front meaning with
      -- With all its text at once the second one may be beyond the width before the first one is.
      -- Then the first one comes beyond it too, before anything else than text is met.
      | emit sameMove othersEq spells charsEq later =>
          cases (sameMove column).symm.trans move
          rw [othersEq, spells.answers_iff, Fragment.columns_eq charsEq, Layout.widthOf,
            Int.natCast_add, ← Int.add_assoc]
          exact inductionHypothesis later
      | replace sameMove => cases (sameMove column).symm.trans move
      | level nothing othersEq inStep alike =>
          obtain ⟨_, otherMove, corresponds⟩ := inStep.moves move
          cases corresponds
          have answers := inductionHypothesis (.level alike)
          rw [columns_nil] at answers
          rw [nothing, othersEq, columns_nil]
          exact (Answers.emit_iff otherMove).mpr answers
  | newline within move =>
      obtain ⟨rfl, other, remaining, rfl, -, otherMove, -⟩ := ahead.newline move
      rw [columns_nil]
      exact ⟨_, .newline within otherMove, rfl⟩
  | @replace column part rest parts found within move _ inductionHypothesis =>
      cases ahead.front meaning with
      | emit sameMove => cases (sameMove column).symm.trans move
      | replace sameMove othersEq spells charsEq later =>
          cases (sameMove column).symm.trans move
          rw [othersEq, spells.answers_iff, Fragment.columns_eq charsEq]
          exact inductionHypothesis later
      | level nothing othersEq inStep alike =>
          obtain ⟨_, otherMove, corresponds⟩ := inStep.moves move
          obtain _ | _ | _ | partsAlike := corresponds
          have answers := inductionHypothesis (.level (List.rel_append partsAlike alike))
          rw [nothing, othersEq, Answers.replace_iff (by rwa [columns_nil])]
          exact answers
  | flat within move _ settled inductionHypothesis =>
      obtain ⟨rfl, other, remaining, _, _, rfl, -, otherMove, flatAhead, -⟩ := ahead.choose move
      have unsettled := mt Found.answer_eq_false_iff.mp settled
      rw [Answers.choose_iff (by rwa [columns_nil])]
      exact .inl ⟨inductionHypothesis flatAhead, unsettled⟩
  | broken within move _ _ flatHypothesis brokenHypothesis =>
      obtain ⟨rfl, other, remaining, _, _, rfl, -, otherMove, flatAhead, brokenAhead⟩ :=
        ahead.choose move
      rw [Answers.choose_iff (by rwa [columns_nil])]
      exact .inr ⟨flatHypothesis flatAhead, brokenHypothesis brokenAhead⟩
  | fails within move =>
      obtain ⟨rfl, other, remaining, rfl, otherMove⟩ := ahead.fail move
      rw [columns_nil]
      exact .of_search (.fails within otherMove)

/-- Where the second layout is ahead, its search has the same answer. -/
theorem answers {answer : Except Error Bool} (ahead : Ahead fragments parts others)
    (answers : Answers meaning width column parts answer) :
    Answers meaning width (column + Layout.widthOf fragments) others answer := by
  obtain ⟨found, search, rfl⟩ := answers
  exact answers_of_search search ahead

/-- A passage with given marks is followed from a column: a passage leads from there to where the
second layout is ahead again, and its marks are the same but for the text ahead. -/
def Followed (meaning : Meaning) (width column : Int) (fragments : List Fragment)
    (others : List Obligation) (marks : List Mark) (next : Int) (remaining : List Obligation) :
    Prop :=
  ∃ events later otherRemaining,
    Passage meaning width column others events (next + Layout.widthOf later) otherRemaining ∧
    Ahead later remaining otherRemaining ∧
    (charsOf fragments).map .char ++ marksOf events = marks ++ (charsOf later).map .char

namespace Followed

variable {marks : List Mark}

theorem of_text {fragment : Fragment}
    (followed : Followed meaning width column fragments others marks next remaining) :
    Followed meaning width column (fragment :: fragments) others
      (fragment.text.toList.map .char ++ marks) next remaining := by
  obtain ⟨events, later, otherRemaining, passage, ahead, marksEq⟩ := followed
  refine ⟨events, later, otherRemaining, passage, ahead, ?_⟩
  rw [Fragment.charsOf_cons, List.map_append, List.append_assoc, List.append_assoc, marksEq]

theorem of_spells {pending : List Obligation} (spells : SpellsOut taken spelled)
    (charsEq : charsOf fragments ++ charsOf spelled = charsOf later)
    (followed : Followed meaning width (column + Layout.widthOf later) later pending marks next
      remaining) :
    Followed meaning width (column + Layout.widthOf fragments) fragments (taken ++ pending) marks
      next remaining := by
  obtain ⟨events, last, otherRemaining, passage, ahead, marksEq⟩ := followed
  rw [← Fragment.columns_eq charsEq] at passage
  refine ⟨_, last, otherRemaining, (spells.passage _ _).trans passage, ahead, ?_⟩
  rw [marksOf_append, marksOf_texts, ← List.append_assoc, ← List.map_append, charsEq, marksEq]

theorem of_passage {pending : List Obligation} {first second : List Event} {middle : Int}
    (passage : Passage meaning width column others first middle pending)
    (followed : Followed meaning width middle [] pending (marksOf second) next remaining) :
    Followed meaning width column [] others (marksOf (first ++ second)) next remaining := by
  obtain ⟨events, later, otherRemaining, laterPassage, ahead, marksEq⟩ := followed
  refine ⟨_, later, otherRemaining, passage.trans laterPassage, ahead, ?_⟩
  rw [marksOf_append, marksOf_append, List.append_assoc, ← marksEq]
  rfl

end Followed

/-- Where the second layout is ahead, it follows the passages of the first one. -/
theorem followed {events : List Event}
    (passage : Passage meaning width column parts events next remaining)
    (ahead : Ahead fragments parts others) :
    Followed meaning width (column + Layout.widthOf fragments) fragments others (marksOf events)
      next remaining := by
  induction passage generalizing fragments others with
  | refl => exact ⟨[], fragments, others, .refl _ _, ahead, by simp⟩
  | @emit column next part rest remaining fragment events move _ inductionHypothesis =>
      cases ahead.front meaning with
      | emit sameMove othersEq spells charsEq later =>
          cases (sameMove column).symm.trans move
          have followed := inductionHypothesis later
          rw [Int.add_assoc, ← Int.natCast_add] at followed
          rw [othersEq]
          exact .of_spells spells charsEq followed.of_text
      | replace sameMove => cases (sameMove column).symm.trans move
      | level nothing othersEq inStep alike =>
          obtain ⟨_, otherMove, corresponds⟩ := inStep.moves move
          cases corresponds
          have followed := inductionHypothesis (.level alike)
          rw [columns_nil] at followed
          rw [nothing, othersEq, columns_nil]
          exact .of_passage (.emit otherMove (.refl _ _)) followed
  | newline move _ inductionHypothesis =>
      obtain ⟨rfl, other, rest, rfl, indentEq, otherMove, restAhead⟩ := ahead.newline move
      have followed := inductionHypothesis restAhead
      rw [columns_nil, ← indentEq] at followed
      rw [columns_nil, ← indentEq]
      exact .of_passage (.newline otherMove (.refl _ _)) followed
  | @replace column next part rest remaining parts events move _ inductionHypothesis =>
      cases ahead.front meaning with
      | emit sameMove => cases (sameMove column).symm.trans move
      | replace sameMove othersEq spells charsEq later =>
          cases (sameMove column).symm.trans move
          rw [othersEq]
          exact .of_spells spells charsEq (inductionHypothesis later)
      | level nothing othersEq inStep alike =>
          obtain ⟨_, otherMove, corresponds⟩ := inStep.moves move
          obtain _ | _ | _ | partsAlike := corresponds
          have followed := inductionHypothesis (.level (List.rel_append partsAlike alike))
          rw [columns_nil] at followed
          rw [nothing, othersEq, columns_nil]
          exact .of_passage (.replace otherMove (.refl _ _)) followed
  | flat move fits _ inductionHypothesis =>
      obtain ⟨rfl, other, rest, _, _, rfl, indentEq, otherMove, flatAhead, -⟩ := ahead.choose move
      have otherFits := flatAhead.answers fits
      have followed := inductionHypothesis flatAhead
      rw [columns_nil] at otherFits followed
      rw [columns_nil, ← indentEq]
      exact .of_passage (.flat otherMove otherFits (.refl _ _)) followed
  | broken move overflows _ inductionHypothesis =>
      obtain ⟨rfl, other, rest, _, _, rfl, indentEq, otherMove, flatAhead, brokenAhead⟩ :=
        ahead.choose move
      have otherOverflows := flatAhead.answers overflows
      have followed := inductionHypothesis brokenAhead
      rw [columns_nil] at otherOverflows followed
      rw [columns_nil, ← indentEq]
      exact .of_passage (.broken otherMove otherOverflows (.refl _ _)) followed

/-- Where the second layout is ahead and the first one stops, the second one stops as well, and
there is no text that it could be ahead by. -/
theorem stops {ending : Option Error} (stops : Stops meaning width column parts ending)
    (ahead : Ahead fragments parts others) :
    fragments = [] ∧ Stops meaning width column others ending := by
  cases stops with
  | done =>
      obtain ⟨rfl, rfl⟩ := nil_iff.mp ahead
      exact ⟨rfl, .done⟩
  | undecided move fails =>
      obtain ⟨rfl, other, remaining, _, _, rfl, -, otherMove, flatAhead, -⟩ := ahead.choose move
      obtain ⟨found, search, foundEq⟩ := flatAhead.answers (.of_search fails)
      obtain rfl := Found.answer_eq_error_iff.mp foundEq
      rw [columns_nil] at search
      exact ⟨rfl, .undecided otherMove search⟩
  | fails move =>
      obtain ⟨rfl, other, remaining, rfl, otherMove⟩ := ahead.fail move
      exact ⟨rfl, .fails otherMove⟩

end Ahead

end DocLayout
