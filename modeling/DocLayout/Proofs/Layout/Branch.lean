import DocLayout.Proofs.Layout.Lockstep
import DocLayout.Proofs.Layout.Reference
import Mathlib.Data.Stream.Init

/-!
# Branches of a search

A branch of the search tree is told by the sides that are taken at the choices on it, first things
first.  It ends at the first line break, at the end, or where it goes past the width.  Sides that
are picked in advance, one for each choice that may come, determine one branch.

A probe does not look at all branches, but what it finds is what the first branch within the width
comes to: flat sides are before broken ones, and earlier choices count for more.  It finds that the
width is exceeded only if every branch exceeds it.
-/

namespace DocLayout

open Progress

/-- The members of a choice. -/
inductive Side where
  /-- The member that is tried first. -/
  | flat
  /-- The member that takes its place. -/
  | broken

/-- The flat member is before the broken one. -/
instance : LT Side := ⟨fun side other => side = .flat ∧ other = .broken⟩

/-- The member of a choice on a side. -/
def Side.pick (flat broken : Value) : Side → Value
  | .flat => flat
  | .broken => broken

/-- What is found from a column with obligations if given sides are taken, one at each choice.  All
of the sides are needed. -/
inductive Branch (meaning : Meaning) (width : Int) :
    Int → List Obligation → List Side → Found → Prop where
  | beyond {column : Int} {parts : List Obligation} (exceeds : width < column) :
      Branch meaning width column parts [] .overflows
  | done {column : Int} (within : column ≤ width) :
      Branch meaning width column [] [] (.fits [] column [])
  | emit {column : Int} {part : Obligation} {rest : List Obligation} {fragment : Fragment}
      {sides : List Side} {found : Found} (within : column ≤ width)
      (move : part.answer meaning column = .ok (.emit fragment))
      (later : Branch meaning width (column + fragment.width) rest sides found) :
      Branch meaning width column (part :: rest) sides (found.after [.text fragment])
  | newline {column : Int} {part : Obligation} {rest : List Obligation} (within : column ≤ width)
      (move : part.answer meaning column = .ok .newline) :
      Branch meaning width column (part :: rest) []
        (.fits [.line part.indent] (max part.indent 0) rest)
  | replace {column : Int} {part : Obligation} {rest parts : List Obligation} {sides : List Side}
      {found : Found} (within : column ≤ width)
      (move : part.answer meaning column = .ok (.replace parts))
      (later : Branch meaning width column (parts ++ rest) sides found) :
      Branch meaning width column (part :: rest) sides found
  | choose {column : Int} {part : Obligation} {rest : List Obligation} {flat broken : Value}
      {sides : List Side} {found : Found} (within : column ≤ width)
      (move : part.answer meaning column = .ok (.choose flat broken)) (side : Side)
      (later : Branch meaning width column (⟨part.indent, side.pick flat broken⟩ :: rest) sides
        found) :
      Branch meaning width column (part :: rest) (side :: sides) found
  | fails {column : Int} {part : Obligation} {rest : List Obligation} {cause : Error}
      (within : column ≤ width) (move : part.answer meaning column = .error cause) :
      Branch meaning width column (part :: rest) [] (.fails cause)

namespace Branch

variable {meaning : Meaning} {width column : Int} {part : Obligation} {parts rest : List Obligation}
  {sides : List Side} {found : Found}

theorem beyond_iff (exceeds : width < column) :
    Branch meaning width column parts sides found ↔ sides = [] ∧ found = .overflows := by
  constructor
  · intro branch
    cases branch <;> first | exact ⟨rfl, rfl⟩ | omega
  · rintro ⟨rfl, rfl⟩
    exact .beyond exceeds

theorem nil_iff (within : column ≤ width) :
    Branch meaning width column [] sides found ↔ sides = [] ∧ found = .fits [] column [] := by
  constructor
  · intro branch
    cases branch with
    | beyond exceeds => omega
    | done => exact ⟨rfl, rfl⟩
  · rintro ⟨rfl, rfl⟩
    exact .done within

theorem emit_iff {fragment : Fragment} (within : column ≤ width)
    (move : part.answer meaning column = .ok (.emit fragment)) :
    Branch meaning width column (part :: rest) sides found ↔
      ∃ later, Branch meaning width (column + fragment.width) rest sides later ∧
        found = later.after [.text fragment] := by
  constructor
  · intro branch
    cases branch <;> first | omega | simp_all
    exact ⟨_, ‹_›, rfl⟩
  · rintro ⟨later, branch, rfl⟩
    exact .emit within move branch

theorem newline_iff (within : column ≤ width)
    (move : part.answer meaning column = .ok .newline) :
    Branch meaning width column (part :: rest) sides found ↔
      sides = [] ∧ found = .fits [.line part.indent] (max part.indent 0) rest := by
  constructor
  · intro branch
    cases branch <;> first | exact ⟨rfl, rfl⟩ | omega | simp_all
  · rintro ⟨rfl, rfl⟩
    exact .newline within move

theorem replace_iff {next : List Obligation} (within : column ≤ width)
    (move : part.answer meaning column = .ok (.replace next)) :
    Branch meaning width column (part :: rest) sides found ↔
      Branch meaning width column (next ++ rest) sides found := by
  constructor
  · intro branch
    cases branch <;> first | omega | simp_all
  · exact .replace within move

theorem choose_iff {flat broken : Value} (within : column ≤ width)
    (move : part.answer meaning column = .ok (.choose flat broken)) :
    Branch meaning width column (part :: rest) sides found ↔
      ∃ side later, sides = side :: later ∧
        Branch meaning width column (⟨part.indent, side.pick flat broken⟩ :: rest) later found := by
  constructor
  · intro branch
    cases branch <;> first | omega | simp_all
  · rintro ⟨side, later, rfl, branch⟩
    exact .choose within move side branch

theorem fails_iff {cause : Error} (within : column ≤ width)
    (move : part.answer meaning column = .error cause) :
    Branch meaning width column (part :: rest) sides found ↔
      sides = [] ∧ found = .fails cause := by
  constructor
  · intro branch
    cases branch <;> first | omega | simp_all
  · rintro ⟨rfl, rfl⟩
    exact .fails within move

/-! ## Sides determine a branch -/

/-- Of sides that are picked in advance, one branch takes the first ones. -/
theorem eq_of_isPrefix {other picks : List Side} {otherFound : Found}
    (branch : Branch meaning width column parts sides found)
    (otherBranch : Branch meaning width column parts other otherFound)
    (taken : sides <+: picks) (otherTaken : other <+: picks) :
    sides = other ∧ found = otherFound := by
  induction branch generalizing other picks otherFound with
  | beyond exceeds =>
      obtain ⟨rfl, rfl⟩ := (beyond_iff exceeds).mp otherBranch
      exact ⟨rfl, rfl⟩
  | done within =>
      obtain ⟨rfl, rfl⟩ := (nil_iff within).mp otherBranch
      exact ⟨rfl, rfl⟩
  | emit within move _ inductionHypothesis =>
      obtain ⟨later, laterBranch, rfl⟩ := (emit_iff within move).mp otherBranch
      obtain ⟨rfl, rfl⟩ := inductionHypothesis laterBranch taken otherTaken
      exact ⟨rfl, rfl⟩
  | newline within move =>
      obtain ⟨rfl, rfl⟩ := (newline_iff within move).mp otherBranch
      exact ⟨rfl, rfl⟩
  | replace within move _ inductionHypothesis =>
      exact inductionHypothesis ((replace_iff within move).mp otherBranch) taken otherTaken
  | choose within move side _ inductionHypothesis =>
      obtain ⟨otherSide, later, rfl, laterBranch⟩ := (choose_iff within move).mp otherBranch
      cases picks with
      | nil => cases List.prefix_nil.mp taken
      | cons pick picks =>
          obtain ⟨rfl, sidesTaken⟩ := List.cons_prefix_cons.mp taken
          obtain ⟨rfl, laterTaken⟩ := List.cons_prefix_cons.mp otherTaken
          obtain ⟨rfl, rfl⟩ := inductionHypothesis laterBranch sidesTaken laterTaken
          exact ⟨rfl, rfl⟩
  | fails within move =>
      obtain ⟨rfl, rfl⟩ := (fails_iff within move).mp otherBranch
      exact ⟨rfl, rfl⟩

/-- Whatever sides are picked in advance, some number of them is just what a branch takes. -/
def Complete (meaning : Meaning) (width column : Int) (parts : List Obligation) : Prop :=
  ∀ picks : Stream' Side, ∃ count found,
    Branch meaning width column parts (picks.take count) found

theorem complete_of_within
    (complete : column ≤ width → Complete meaning width column parts) :
    Complete meaning width column parts := by
  rcases Int.lt_or_le width column with exceeds | within
  · exact fun _ => ⟨0, _, .beyond exceeds⟩
  · exact complete within

theorem Complete.emit {fragment : Fragment}
    (move : part.answer meaning column = .ok (.emit fragment))
    (later : Complete meaning width (column + fragment.width) rest) :
    Complete meaning width column (part :: rest) := by
  refine complete_of_within fun within picks => ?_
  obtain ⟨count, found, branch⟩ := later picks
  exact ⟨count, _, .emit within move branch⟩

theorem Complete.newline (move : part.answer meaning column = .ok .newline) :
    Complete meaning width column (part :: rest) :=
  complete_of_within fun within _ => ⟨0, _, .newline within move⟩

theorem Complete.replace {next : List Obligation}
    (move : part.answer meaning column = .ok (.replace next))
    (later : Complete meaning width column (next ++ rest)) :
    Complete meaning width column (part :: rest) := by
  refine complete_of_within fun within picks => ?_
  obtain ⟨count, found, branch⟩ := later picks
  exact ⟨count, found, .replace within move branch⟩

theorem Complete.choose {flat broken : Value}
    (move : part.answer meaning column = .ok (.choose flat broken))
    (flatComplete : Complete meaning width column (⟨part.indent, flat⟩ :: rest))
    (brokenComplete : Complete meaning width column (⟨part.indent, broken⟩ :: rest)) :
    Complete meaning width column (part :: rest) := by
  refine complete_of_within fun within picks => ?_
  have later : Complete meaning width column
      (⟨part.indent, picks.head.pick flat broken⟩ :: rest) := by
    cases picks.head with
    | flat => exact flatComplete
    | broken => exact brokenComplete
  obtain ⟨count, found, branch⟩ := later picks.tail
  refine ⟨count + 1, found, ?_⟩
  rw [Stream'.take_succ]
  exact .choose within move _ branch

theorem Complete.fails {cause : Error} (move : part.answer meaning column = .error cause) :
    Complete meaning width column (part :: rest) :=
  complete_of_within fun within _ => ⟨0, _, .fails within move⟩

/-- A value whose deferral is finite may come in front. -/
theorem complete_cons {value : Value} (settles : value.Settles meaning)
    (restComplete : ∀ column, Complete meaning width column rest) (column indent : Int) :
    Complete meaning width column (⟨indent, value⟩ :: rest) := by
  induction settles generalizing rest column indent with
  | blank kept => exact .replace (Obligation.answer_blank ..) (restComplete column)
  | text fragment => exact .emit (Obligation.answer_text ..) (restComplete _)
  | line => exact .newline (Obligation.answer_line ..)
  | unknown => exact .fails (Obligation.answer_unknown ..)
  | concat _ _ leftHypothesis rightHypothesis =>
      exact .replace (Obligation.answer_concat ..)
        (leftHypothesis (fun column => rightHypothesis restComplete column indent) column indent)
  | nest amount _ inductionHypothesis =>
      exact .replace (Obligation.answer_nest ..) (inductionHypothesis restComplete column _)
  | union _ _ flatHypothesis brokenHypothesis =>
      exact .choose (Obligation.answer_union ..) (flatHypothesis restComplete column indent)
        (brokenHypothesis restComplete column indent)
  | @nesting callback _ inductionHypothesis =>
      have move := Obligation.answer_nesting meaning column indent callback
      cases gives : callback.content.resolved meaning indent with
      | ok result =>
          rw [gives] at move
          exact .replace move (inductionHypothesis gives restComplete column indent)
      | error cause =>
          rw [gives] at move
          exact .fails move
  | @column callback _ inductionHypothesis =>
      have move := Obligation.answer_column meaning column indent callback
      cases gives : callback.content.resolved meaning column with
      | ok result =>
          rw [gives] at move
          exact .replace move (inductionHypothesis gives restComplete column indent)
      | error cause =>
          rw [gives] at move
          exact .fails move
  | other notDoc => exact .fails (Obligation.answer_of_not_doc _ _ _ notDoc)

theorem complete_of_settles (settles : ∀ part ∈ parts, part.value.Settles meaning)
    (width column : Int) : Complete meaning width column parts := by
  induction parts generalizing column with
  | nil => exact complete_of_within fun within _ => ⟨0, _, .done within⟩
  | cons part rest inductionHypothesis =>
      obtain ⟨partSettles, restSettle⟩ := List.forall_mem_cons.mp settles
      exact complete_cons partSettles (inductionHypothesis restSettle) column part.indent

/-- Sides that are picked in advance determine one branch. -/
theorem Complete.existsUnique (complete : Complete meaning width column parts)
    (picks : Stream' Side) :
    ∃! path : Nat × Found, Branch meaning width column parts (picks.take path.1) path.2 := by
  obtain ⟨count, found, branch⟩ := complete picks
  refine ⟨(count, found), branch, ?_⟩
  rintro ⟨otherCount, otherFound⟩ otherBranch
  obtain ⟨takenEq, rfl⟩ := otherBranch.eq_of_isPrefix branch
    ((picks.take_prefix _ _).mpr (Nat.le_max_left otherCount count))
    ((picks.take_prefix _ _).mpr (Nat.le_max_right otherCount count))
  have countEq := congrArg List.length takenEq
  rw [Stream'.length_take, Stream'.length_take] at countEq
  exact Prod.ext countEq rfl

/-! ## The first branch within the width -/

/-- All branches within the width take the given sides or later ones. -/
def First (meaning : Meaning) (width column : Int) (parts : List Obligation)
    (sides : List Side) : Prop :=
  ∀ other found, Branch meaning width column parts other found → found ≠ .overflows →
    sides = other ∨ sides < other

theorem First.cons {flat broken : Value} {side : Side} (within : column ≤ width)
    (move : part.answer meaning column = .ok (.choose flat broken))
    (first : First meaning width column (⟨part.indent, side.pick flat broken⟩ :: rest) sides)
    (others : ∀ otherSide later found,
      Branch meaning width column (⟨part.indent, otherSide.pick flat broken⟩ :: rest) later found →
      found ≠ .overflows → side = otherSide ∨ side < otherSide) :
    First meaning width column (part :: rest) (side :: sides) := by
  intro other found branch settled
  obtain ⟨otherSide, later, rfl, laterBranch⟩ := (choose_iff within move).mp branch
  rcases others otherSide later found laterBranch settled with rfl | less
  · rcases first later found laterBranch settled with rfl | laterLess
    · exact .inl rfl
    · exact .inr (List.cons_lt_cons_iff.mpr (.inr ⟨rfl, laterLess⟩))
  · exact .inr (List.cons_lt_cons_iff.mpr (.inl less))

end Branch

namespace Search

variable {meaning : Meaning} {width column : Int} {parts : List Obligation} {found : Found}

/-- If a search finds that the width is exceeded, then it is exceeded on every branch. -/
theorem branch_overflows (search : Search meaning width column parts found)
    (overflows : found = .overflows) {sides : List Side} {other : Found}
    (branch : Branch meaning width column parts sides other) : other = .overflows := by
  induction search generalizing sides other with
  | beyond exceeds => exact ((Branch.beyond_iff exceeds).mp branch).2
  | done => cases overflows
  | emit within move _ inductionHypothesis =>
      obtain ⟨later, laterBranch, rfl⟩ := (Branch.emit_iff within move).mp branch
      rw [Found.after_eq_overflows_iff] at overflows ⊢
      exact inductionHypothesis overflows laterBranch
  | newline => cases overflows
  | replace within move _ inductionHypothesis =>
      exact inductionHypothesis overflows ((Branch.replace_iff within move).mp branch)
  | flat _ _ _ settled => exact absurd overflows settled
  | broken within move _ _ flatHypothesis brokenHypothesis =>
      obtain ⟨side, later, rfl, laterBranch⟩ := (Branch.choose_iff within move).mp branch
      cases side with
      | flat => exact flatHypothesis rfl laterBranch
      | broken => exact brokenHypothesis overflows laterBranch
  | fails => cases overflows

/-- A search within the width finds what the first branch within the width comes to. -/
theorem exists_first_branch (search : Search meaning width column parts found)
    (settled : found ≠ .overflows) :
    ∃ sides, Branch meaning width column parts sides found ∧
      Branch.First meaning width column parts sides := by
  induction search with
  | beyond => exact absurd rfl settled
  | done within =>
      refine ⟨[], .done within, fun other otherFound branch _ => ?_⟩
      exact .inl ((Branch.nil_iff within).mp branch).1.symm
  | emit within move _ inductionHypothesis =>
      obtain ⟨sides, branch, first⟩ := inductionHypothesis fun overflows =>
        settled (Found.after_eq_overflows_iff.mpr overflows)
      refine ⟨sides, .emit within move branch, fun other otherFound otherBranch otherSettled => ?_⟩
      obtain ⟨later, laterBranch, rfl⟩ := (Branch.emit_iff within move).mp otherBranch
      exact first other later laterBranch fun overflows =>
        otherSettled (Found.after_eq_overflows_iff.mpr overflows)
  | newline within move =>
      refine ⟨[], .newline within move, fun other otherFound branch _ => ?_⟩
      exact .inl ((Branch.newline_iff within move).mp branch).1.symm
  | replace within move _ inductionHypothesis =>
      obtain ⟨sides, branch, first⟩ := inductionHypothesis settled
      refine ⟨sides, .replace within move branch, fun other otherFound otherBranch => ?_⟩
      exact first other otherFound ((Branch.replace_iff within move).mp otherBranch)
  | flat within move _ _ inductionHypothesis =>
      obtain ⟨sides, branch, first⟩ := inductionHypothesis settled
      refine ⟨.flat :: sides, .choose within move .flat branch, .cons within move first ?_⟩
      intro side _ _ _ _
      cases side with
      | flat => exact .inl rfl
      | broken => exact .inr ⟨rfl, rfl⟩
  | broken within move flatFound _ _ brokenHypothesis =>
      obtain ⟨sides, branch, first⟩ := brokenHypothesis settled
      refine ⟨.broken :: sides, .choose within move .broken branch, .cons within move first ?_⟩
      intro side later otherFound otherBranch otherSettled
      cases side with
      | flat => exact absurd (flatFound.branch_overflows rfl otherBranch) otherSettled
      | broken => exact .inl rfl
  | fails within move =>
      refine ⟨[], .fails within move, fun other otherFound branch _ => ?_⟩
      exact .inl ((Branch.fails_iff within move).mp branch).1.symm

end Search

/-! ## What a branch comes to -/

/-- Items come to the first line break, or else to the end, without going past the width.  The
column is the one after the items, and at the end there is nothing left. -/
inductive EndsLine (width column : Int) : List Item → Int → List Obligation → Prop where
  | atEnd (texts : List Fragment) {next : Int} (nextEq : next = column + Layout.widthOf texts)
      (within : next ≤ width) : EndsLine width column (texts.map .text) next []
  | atBreak (texts : List Fragment) (indent : Int) (rest : List Obligation)
      (within : column + Layout.widthOf texts ≤ width) :
      EndsLine width column (texts.map .text ++ [.line indent]) (max indent 0) rest

variable {meaning : Meaning} {width column next : Int} {parts rest : List Obligation}
  {items : List Item}

theorem EndsLine.text {fragment : Fragment}
    (ends : EndsLine width (column + fragment.width) items next rest) :
    EndsLine width column (.text fragment :: items) next rest := by
  have widthEq (texts : List Fragment) :
      column + fragment.width + Layout.widthOf texts =
        column + Layout.widthOf (fragment :: texts) := by
    rw [Layout.widthOf, Int.natCast_add, Int.add_assoc]
  cases ends with
  | atEnd texts nextEq within =>
      exact .atEnd (fragment :: texts) (nextEq.trans (widthEq texts)) within
  | atBreak texts indent rest within =>
      exact .atBreak (fragment :: texts) indent rest (widthEq texts ▸ within)

theorem Branch.endsLine {sides : List Side} {found : Found}
    (branch : Branch meaning width column parts sides found)
    (foundEq : found = .fits items next rest) : EndsLine width column items next rest := by
  induction branch generalizing items with
  | beyond => cases foundEq
  | done within =>
      cases foundEq
      exact .atEnd [] (by simp [Layout.widthOf]) within
  | @emit _ _ _ _ _ later _ _ _ inductionHypothesis =>
      cases later with
      | fits laterItems _ _ =>
          cases foundEq
          exact .text (inductionHypothesis rfl)
      | _ => cases foundEq
  | newline within =>
      cases foundEq
      exact .atBreak [] _ _ (by simpa [Layout.widthOf] using within)
  | replace _ _ _ inductionHypothesis => exact inductionHypothesis foundEq
  | choose _ _ _ _ inductionHypothesis => exact inductionHypothesis foundEq
  | fails => cases foundEq

/-- Sides that are picked in advance determine one branch of the search from a column.  A probe with
an empty memory ends.  It overflows exactly if every branch does; otherwise it ends with what the
first branch that does not overflow comes to.  If it fits, then its items are text, followed by a
line break unless everything has been laid out; the column is the one after the items, and the text
stays within the width. -/
theorem probe_takes_first_branch {σ : Type} {host : Host σ} (realizes : host.Realizes meaning)
    (settles : ∀ part ∈ parts, part.value.Settles meaning) (width column : Int) (state : σ) :
    (∀ picks : Stream' Side, ∃! path : Nat × Found,
      Branch meaning width column parts (picks.take path.1) path.2) ∧
    ∃ verdict, Halts (Probe.step host width) (.over column parts state) verdict ∧
      (verdict.found = .overflows ↔
        ∀ sides found, Branch meaning width column parts sides found → found = .overflows) ∧
      (verdict.found ≠ .overflows → ∃ sides,
        Branch meaning width column parts sides verdict.found ∧
        Branch.First meaning width column parts sides) ∧
      ∀ items next rest, verdict.found = .fits items next rest →
        EndsLine width column items next rest := by
  have complete := Branch.complete_of_settles settles width column
  obtain ⟨layout, prescribed⟩ := Prescribed.exists_of_settles width settles column
  obtain ⟨found, search, -⟩ := prescribed.exists_search
  obtain ⟨verdict, halts, rfl⟩ := Probe.over_halts realizes search state
  refine ⟨complete.existsUnique, verdict, halts, ⟨?_, ?_⟩, search.exists_first_branch, ?_⟩
  · intro overflows sides found branch
    exact search.branch_overflows overflows branch
  · intro allOverflow
    by_contra settled
    obtain ⟨sides, branch, -⟩ := search.exists_first_branch settled
    exact settled (allOverflow sides _ branch)
  · intro items next rest fits
    have settled : verdict.found ≠ .overflows := by simp [fits]
    obtain ⟨sides, branch, -⟩ := search.exists_first_branch settled
    exact branch.endsLine fits

/-- The flat side exceeds the width, and the broken one comes to its line break. -/
theorem steps_take_broken_branch :
    (∀ part ∈ Obligation.steps, part.value.Settles .steps) ∧
      Meaning.steps.countingHost.Realizes .steps ∧
      Branch .steps 0 0 Obligation.steps [.flat] .overflows ∧
      ∃ verdict rest,
        Halts (Probe.step Meaning.steps.countingHost 0) (.over 0 Obligation.steps 0) verdict ∧
        verdict.found = .fits [.line 0] 0 rest ∧
        Branch .steps 0 0 Obligation.steps [.broken] verdict.found ∧
        Branch.First .steps 0 0 Obligation.steps [.broken] := by
  have realizes := Meaning.steps.realizes_countingHost
  have within : (0 : Int) ≤ 0 := Int.le_refl 0
  have exceeds : (0 : Int) < 0 + Fragment.space.width := by decide
  have flat : Branch .steps 0 0 Obligation.steps [.flat] .overflows :=
    .choose within (Obligation.answer_union ..) .flat
      (.replace within (Obligation.answer_concat ..)
        (.emit within (Obligation.answer_text ..) (.beyond exceeds)))
  obtain ⟨rest, broken⟩ : ∃ rest,
      Branch .steps 0 0 Obligation.steps [.broken] (.fits [.line 0] 0 rest) :=
    ⟨_, .choose within (Obligation.answer_union ..) .broken
      (.replace within (Obligation.answer_concat ..)
        (.newline within (Obligation.answer_line ..)))⟩
  obtain ⟨-, verdict, halts, overflows, first, -⟩ :=
    probe_takes_first_branch realizes Obligation.steps_settle 0 0 0
  have settled : verdict.found ≠ .overflows := fun overflow =>
    Found.noConfusion (overflows.mp overflow _ _ broken)
  obtain ⟨sides, branch, isFirst⟩ := first settled
  obtain ⟨side, later, rfl, -⟩ :=
    (Branch.choose_iff within (Obligation.answer_union ..)).mp branch
  cases side with
  | flat =>
      obtain ⟨-, foundEq⟩ := flat.eq_of_isPrefix branch
        (List.cons_prefix_cons.mpr ⟨rfl, List.nil_prefix⟩) List.prefix_rfl
      exact absurd foundEq.symm settled
  | broken =>
      obtain ⟨sidesEq, foundEq⟩ := broken.eq_of_isPrefix branch
        (List.cons_prefix_cons.mpr ⟨rfl, List.nil_prefix⟩) List.prefix_rfl
      rw [← sidesEq] at branch isFirst
      exact ⟨Obligation.steps_settle, realizes, flat, verdict, rest, halts, foundEq.symm, branch,
        isFirst⟩

end DocLayout
