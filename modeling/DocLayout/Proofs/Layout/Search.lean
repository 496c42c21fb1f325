import DocLayout.Layout.Probe
import DocLayout.Proofs.Layout.Meaning

/-!
# What a probe looks for

The search that a probe carries out, without its stacks and its memory: at a choice the flat member
is followed to its end, and the broken one only where the flat one exceeds the width.  The result of
a search is unique.

Work lists are lists of obligations here, since labels only serve the memory.
-/

namespace DocLayout

/-- What a search finds. -/
inductive Found where
  /-- The items reach a line break or the end within the width; this is the column and what is still
  to be laid out there. -/
  | fits (items : List Item) (column : Int) (rest : List Obligation)
  /-- Whatever is chosen, the width is exceeded. -/
  | overflows
  /-- Something cannot be laid out. -/
  | fails (cause : Error)

namespace Found

/-- What is found with earlier items in front. -/
def after (earlier : List Item) : Found → Found
  | .fits items column rest => .fits (earlier ++ items) column rest
  | .overflows => .overflows
  | .fails cause => .fails cause

@[simp]
theorem after_nil (found : Found) : found.after [] = found := by
  cases found <;> rfl

@[simp]
theorem after_after (found : Found) (first second : List Item) :
    (found.after second).after first = found.after (first ++ second) := by
  cases found <;> simp [after]

@[simp]
theorem after_eq_overflows_iff {found : Found} {earlier : List Item} :
    found.after earlier = .overflows ↔ found = .overflows := by
  cases found <;> simp [after]

end Found

/-- What a verdict says about the layout. -/
def Verdict.found {σ : Type} : Verdict σ → Found
  | .fits items rest _ => .fits items rest.column rest.work.obligations
  | .overflows _ => .overflows
  | .fails cause _ => .fails cause

/-- What a probe keeps for the layout when it ends. -/
def Verdict.store {σ : Type} : Verdict σ → Store σ
  | .fits _ _ store => store
  | .overflows store => store
  | .fails _ store => store

/-- What is found from a column with obligations to be laid out. -/
inductive Search (meaning : Meaning) (width : Int) : Int → List Obligation → Found → Prop where
  | beyond {column : Int} {parts : List Obligation} (exceeds : width < column) :
      Search meaning width column parts .overflows
  | done {column : Int} (within : column ≤ width) :
      Search meaning width column [] (.fits [] column [])
  | emit {column : Int} {part : Obligation} {rest : List Obligation} {fragment : Fragment}
      {found : Found} (within : column ≤ width)
      (move : part.answer meaning column = .ok (.emit fragment))
      (later : Search meaning width (column + fragment.width) rest found) :
      Search meaning width column (part :: rest) (found.after [.text fragment])
  | newline {column : Int} {part : Obligation} {rest : List Obligation} (within : column ≤ width)
      (move : part.answer meaning column = .ok .newline) :
      Search meaning width column (part :: rest)
        (.fits [.line part.indent] (max part.indent 0) rest)
  | replace {column : Int} {part : Obligation} {rest parts : List Obligation} {found : Found}
      (within : column ≤ width) (move : part.answer meaning column = .ok (.replace parts))
      (later : Search meaning width column (parts ++ rest) found) :
      Search meaning width column (part :: rest) found
  | flat {column : Int} {part : Obligation} {rest : List Obligation} {flat broken : Value}
      {found : Found} (within : column ≤ width)
      (move : part.answer meaning column = .ok (.choose flat broken))
      (flatFound : Search meaning width column (⟨part.indent, flat⟩ :: rest) found)
      (settled : found ≠ .overflows) : Search meaning width column (part :: rest) found
  | broken {column : Int} {part : Obligation} {rest : List Obligation} {flat broken : Value}
      {found : Found} (within : column ≤ width)
      (move : part.answer meaning column = .ok (.choose flat broken))
      (flatFound : Search meaning width column (⟨part.indent, flat⟩ :: rest) .overflows)
      (brokenFound : Search meaning width column (⟨part.indent, broken⟩ :: rest) found) :
      Search meaning width column (part :: rest) found
  | fails {column : Int} {part : Obligation} {rest : List Obligation} {cause : Error}
      (within : column ≤ width) (move : part.answer meaning column = .error cause) :
      Search meaning width column (part :: rest) (.fails cause)

namespace Search

variable {meaning : Meaning} {width column : Int} {part : Obligation} {rest : List Obligation}
  {found : Found}

theorem beyond_iff {parts : List Obligation} (exceeds : width < column) :
    Search meaning width column parts found ↔ found = .overflows := by
  constructor
  · intro search
    cases search <;> first | rfl | omega
  · rintro rfl
    exact .beyond exceeds

/-- A search that fits starts within the width. -/
theorem within_of_fits {parts remaining : List Obligation} {items : List Item} {next : Int}
    (search : Search meaning width column parts (.fits items next remaining)) : column ≤ width := by
  rcases Int.lt_or_le width column with exceeds | within
  · cases (beyond_iff exceeds).mp search
  · exact within

theorem nil_iff (within : column ≤ width) :
    Search meaning width column [] found ↔ found = .fits [] column [] := by
  constructor
  · intro search
    cases search with
    | beyond exceeds => omega
    | done => rfl
  · rintro rfl
    exact .done within

theorem emit_iff {fragment : Fragment} (within : column ≤ width)
    (move : part.answer meaning column = .ok (.emit fragment)) :
    Search meaning width column (part :: rest) found ↔
      ∃ later, Search meaning width (column + fragment.width) rest later ∧
        found = later.after [.text fragment] := by
  constructor
  · intro search
    cases search <;> first | omega | simp_all
    exact ⟨_, ‹_›, rfl⟩
  · rintro ⟨later, search, rfl⟩
    exact .emit within move search

theorem newline_iff (within : column ≤ width)
    (move : part.answer meaning column = .ok .newline) :
    Search meaning width column (part :: rest) found ↔
      found = .fits [.line part.indent] (max part.indent 0) rest := by
  constructor
  · intro search
    cases search <;> first | rfl | omega | simp_all
  · rintro rfl
    exact .newline within move

theorem replace_iff {parts : List Obligation} (within : column ≤ width)
    (move : part.answer meaning column = .ok (.replace parts)) :
    Search meaning width column (part :: rest) found ↔
      Search meaning width column (parts ++ rest) found := by
  constructor
  · intro search
    cases search <;> first | omega | simp_all
  · exact .replace within move

theorem choose_iff {flat broken : Value} (within : column ≤ width)
    (move : part.answer meaning column = .ok (.choose flat broken)) :
    Search meaning width column (part :: rest) found ↔
      (Search meaning width column (⟨part.indent, flat⟩ :: rest) found ∧ found ≠ .overflows) ∨
      (Search meaning width column (⟨part.indent, flat⟩ :: rest) .overflows ∧
        Search meaning width column (⟨part.indent, broken⟩ :: rest) found) := by
  constructor
  · intro search
    cases search <;> first | omega | simp_all
  · rintro (⟨search, settled⟩ | ⟨flatSearch, brokenSearch⟩)
    · exact .flat within move search settled
    · exact .broken within move flatSearch brokenSearch

theorem fails_iff {cause : Error} (within : column ≤ width)
    (move : part.answer meaning column = .error cause) :
    Search meaning width column (part :: rest) found ↔ found = .fails cause := by
  constructor
  · intro search
    cases search <;> first | omega | simp_all
  · rintro rfl
    exact .fails within move

/-- A search finds one thing only. -/
theorem unique {parts : List Obligation} {other : Found}
    (search : Search meaning width column parts found)
    (otherSearch : Search meaning width column parts other) : found = other := by
  induction search generalizing other with
  | beyond exceeds => exact ((beyond_iff exceeds).mp otherSearch).symm
  | done within => exact ((nil_iff within).mp otherSearch).symm
  | emit within move _ inductionHypothesis =>
      obtain ⟨later, laterSearch, rfl⟩ := (emit_iff within move).mp otherSearch
      rw [inductionHypothesis laterSearch]
  | newline within move => exact ((newline_iff within move).mp otherSearch).symm
  | replace within move _ inductionHypothesis =>
      exact inductionHypothesis ((replace_iff within move).mp otherSearch)
  | flat within move _ settled inductionHypothesis =>
      rcases (choose_iff within move).mp otherSearch with ⟨flatSearch, -⟩ | ⟨flatSearch, -⟩
      · exact inductionHypothesis flatSearch
      · exact absurd (inductionHypothesis flatSearch) settled
  | broken within move _ _ flatHypothesis brokenHypothesis =>
      rcases (choose_iff within move).mp otherSearch with ⟨flatSearch, settled⟩ | ⟨-, brokenSearch⟩
      · exact absurd (flatHypothesis flatSearch).symm settled
      · exact brokenHypothesis brokenSearch
  | fails within move => exact ((fails_iff within move).mp otherSearch).symm

/-- What is left to be laid out after a search comes from what it started with. -/
theorem inside_of_fits {σ : Type} {host : Host σ} {domain : Value → Prop}
    (follows : host.Follows meaning domain) {parts remaining : List Obligation} {items : List Item}
    {next : Int} (search : Search meaning width column parts found)
    (foundEq : found = .fits items next remaining) (inside : ∀ part ∈ parts, domain part.value) :
    ∀ part ∈ remaining, domain part.value := by
  induction search generalizing items with
  | beyond => cases foundEq
  | done =>
      cases foundEq
      exact inside
  | @emit _ _ _ _ later _ _ _ inductionHypothesis =>
      cases later with
      | fits laterItems _ _ =>
          cases foundEq
          exact inductionHypothesis rfl (List.forall_mem_cons.mp inside).2
      | _ => cases foundEq
  | newline =>
      cases foundEq
      exact (List.forall_mem_cons.mp inside).2
  | replace _ move _ inductionHypothesis =>
      exact inductionHypothesis foundEq (follows.replace inside move)
  | flat _ move _ _ inductionHypothesis =>
      exact inductionHypothesis foundEq (follows.flat inside move _)
  | broken _ move _ _ _ brokenHypothesis =>
      exact brokenHypothesis foundEq (follows.broken inside move _)
  | fails => cases foundEq

end Search

@[simp]
theorem Work.obligations_push_singleton (fresh : Nat) (part : Obligation) (work : Work) :
    obligations (push fresh [part] work) = part :: work.obligations :=
  obligations_push fresh [part] work

end DocLayout
