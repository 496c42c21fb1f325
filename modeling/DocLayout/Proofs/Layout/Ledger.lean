import DocLayout.Proofs.Layout.Probe

/-!
# Probes that cut back their lists

A probe keeps, with every open choice, the items that had been emitted there and the positions that
had been passed.  A search can do with one list of each: at a choice it only notes how long both
lists are, and to give up a path it cuts them back to the lengths noted.  The ledger of a probe is
the state of such a search.

A search that cuts back its lists goes just the way of the probe, step by step, and ends with the
same verdict.  Nothing is assumed of the host or of the memory.
-/

namespace DocLayout

variable {σ : Type}

/-- What is noted of a choice while its flat member is being tried. -/
structure Bookmark where
  /-- How many items had been emitted. -/
  emitted : Nat
  /-- How many positions had been passed, the position of the choice included. -/
  passed : Nat
  /-- The position at which the broken member is next. -/
  alternative : Position

/-- A search under way that keeps all items in one list, and all positions passed in another. -/
structure Ledger (σ : Type) where
  /-- The items emitted. -/
  items : List Item
  /-- The position reached. -/
  position : Position
  /-- The positions passed. -/
  trail : List Position
  /-- The open choices, last first. -/
  bookmarks : List Bookmark
  /-- What is kept for the whole layout. -/
  store : Store σ

namespace Ledger

/-- The search from a position. -/
def start (position : Position) (store : Store σ) : Ledger σ where
  items := []
  position := position
  trail := []
  bookmarks := []
  store := store

/-- How many positions had been passed at the last open choice. -/
def settled (ledger : Ledger σ) : Nat :=
  match ledger.bookmarks with
  | [] => 0
  | bookmark :: _ => bookmark.passed

/-- Gives up the current path: remembers the positions passed since the last open choice, and cuts
both lists back to the lengths noted at this choice, for its broken member. -/
def backtrack (ledger : Ledger σ) : Progress (Ledger σ) (Verdict σ) :=
  let failed := ledger.trail.drop ledger.settled
  -- The memory is told of the last position first, as it is by a probe.
  let store := { ledger.store with memory := ledger.store.memory.insertAll failed.reverse }
  match ledger.bookmarks with
  | [] => .halted (.overflows store)
  | bookmark :: earlier =>
      .running ⟨ledger.items.take bookmark.emitted, bookmark.alternative,
        ledger.trail.take bookmark.passed, earlier, store⟩

/-- Adds the position reached to those passed. -/
def pass (ledger : Ledger σ) : Ledger σ :=
  { ledger with trail := ledger.trail ++ [ledger.position] }

/-- Where a move of the first obligation leads to. -/
def follow (ledger : Ledger σ) (indent : Int) (rest : Work) (state : σ) :
    Except Error Move → Progress (Ledger σ) (Verdict σ)
  | .error cause => .halted (.fails cause { ledger.store with state })
  | .ok (.emit fragment) =>
      .running { ledger with
        items := ledger.items ++ [.text fragment]
        position := ⟨ledger.position.column + fragment.width, rest⟩
        store := { ledger.store with state } }
  | .ok .newline =>
      .halted (.fits (ledger.items ++ [.line indent]) ⟨max indent 0, rest⟩
        { ledger.store with state })
  | .ok (.choose flat broken) =>
      let column := ledger.position.column
      let fresh := ledger.store.fresh
      let alternative := ⟨column, Work.push fresh [⟨indent, broken⟩] rest⟩
      .running { ledger with
        position := ⟨column, Work.push (fresh + 1) [⟨indent, flat⟩] rest⟩
        bookmarks := ⟨ledger.items.length, ledger.trail.length, alternative⟩ :: ledger.bookmarks
        store := { ledger.store with fresh := fresh + 2, state } }
  | .ok (.replace parts) =>
      let fresh := ledger.store.fresh
      .running { ledger with
        position := ⟨ledger.position.column, Work.push fresh parts rest⟩
        store := { ledger.store with fresh := fresh + parts.length, state } }

/-- One step of the search.  The width is checked first, then the memory. -/
def step (host : Host σ) (width : Int) (ledger : Ledger σ) : Progress (Ledger σ) (Verdict σ) :=
  if width < ledger.position.column then ledger.backtrack
  else
    match ledger.position.work with
    | [] => .halted (.fits ledger.items ledger.position ledger.store)
    | cell :: rest =>
        if ledger.store.memory.contains ledger.position then ledger.backtrack
        else
          let moved := cell.obligation.move host ledger.position.column ledger.store.state
          ledger.pass.follow cell.obligation.indent rest moved.2 moved.1

/-- At most `bound` steps of the search. -/
def run (host : Host σ) (width : Int) (bound : Nat) (ledger : Ledger σ) :
    Progress (Ledger σ) (Verdict σ) :=
  Progress.iterate (step host width) bound ledger

/-- A step that does not end the search gives up the path, or it passes the position and makes the
move of the first obligation there. -/
theorem backtrack_or_follow_of_running {host : Host σ} {width : Int} {ledger next : Ledger σ}
    (running : ledger.step host width = .running next) :
    ledger.backtrack = .running next ∨
      ∃ cell rest state, ledger.position.work = cell :: rest ∧
        ledger.pass.follow cell.obligation.indent rest state
          (cell.obligation.move host ledger.position.column ledger.store.state).1 =
            .running next := by
  rw [step] at running
  split at running
  · exact .inl running
  split at running
  · cases running
  · rename_i cell rest workEq
    split at running
    · exact .inl running
    · exact .inr ⟨cell, rest, _, workEq, running⟩

end Ledger

/-! ## The ledger of a probe -/

namespace Choice

/-- The positions passed up to the last of several open choices, first ones first. -/
def passed : List Choice → List Position
  | [] => []
  | choice :: earlier => passed earlier ++ choice.trail.reverse

/-- What is noted of open choices. -/
def bookmarks : List Choice → List Bookmark
  | [] => []
  | choice :: earlier =>
      ⟨choice.items.length, (passed (choice :: earlier)).length, choice.alternative⟩ ::
        bookmarks earlier

end Choice

namespace Probe

open Progress

variable {host : Host σ} {width : Int} {probe next : Probe σ}

/-- The ledger of a probe. -/
def ledger (probe : Probe σ) : Ledger σ where
  items := probe.items.reverse
  position := probe.position
  trail := Choice.passed probe.choices ++ probe.trail.reverse
  bookmarks := Choice.bookmarks probe.choices
  store := probe.store

@[simp]
theorem ledger_position (probe : Probe σ) : probe.ledger.position = probe.position := rfl

@[simp]
theorem ledger_store (probe : Probe σ) : probe.ledger.store = probe.store := rfl

/-- What had been emitted at an open choice is the beginning of what had been at the next one, and
of what has been emitted now.  The last items are first, so it is the end of these lists. -/
def Nested (probe : Probe σ) : Prop :=
  (probe.items :: probe.choices.map Choice.items).Pairwise fun later earlier => earlier <:+ later

theorem nested_start (position : Position) (store : Store σ) : (start position store).Nested :=
  List.pairwise_singleton _ _

theorem Nested.of_backtrack (nested : probe.Nested) (running : probe.backtrack = .running next) :
    next.Nested := by
  cases choicesEq : probe.choices with
  | nil => simp [backtrack_of_nil choicesEq] at running
  | cons choice earlier =>
      rw [backtrack_of_cons choicesEq] at running
      cases running
      rw [Nested, choicesEq] at nested
      exact nested.tail

theorem Nested.of_follow (nested : probe.Nested) {indent : Int} {rest : Work} {state : σ}
    {outcome : Except Error Move}
    (running : probe.follow indent rest state outcome = .running next) : next.Nested := by
  obtain ⟨here, choices⟩ := List.pairwise_cons.mp nested
  cases outcome with
  | error cause => cases running
  | ok move =>
      cases move with
      | emit fragment =>
          cases running
          exact List.pairwise_cons.mpr
            ⟨fun items member => (here items member).trans (List.suffix_cons ..), choices⟩
      | newline => cases running
      | choose flat broken =>
          cases running
          exact List.pairwise_cons.mpr
            ⟨List.forall_mem_cons.mpr ⟨List.suffix_rfl, here⟩, nested⟩
      | replace parts =>
          cases running
          exact nested

/-- A step keeps the items of open choices nested. -/
theorem Nested.of_running (nested : probe.Nested)
    (running : probe.step host width = .running next) : next.Nested := by
  cases probe.turn host width with
  | beyond exceeds => exact nested.of_backtrack (step_of_beyond exceeds ▸ running)
  | remembered known => exact nested.of_backtrack (step_of_remembered known ▸ running)
  | done within workEq =>
      rw [step_of_nil within workEq] at running
      cases running
  | move _ cell rest state _ stepEq => exact nested.of_follow (stepEq ▸ running)

/-- Cut back to the lengths noted at the last open choice, the lists are those of this choice. -/
theorem ledger_backtrack (nested : probe.Nested) :
    probe.ledger.backtrack = probe.backtrack.map ledger := by
  rcases probe with ⟨items, position, trail, _ | ⟨choice, earlier⟩, store⟩
  · simp [Ledger.backtrack, Ledger.settled, ledger, backtrack, Choice.bookmarks, Choice.passed]
  · obtain ⟨here, -⟩ := List.pairwise_cons.mp nested
    obtain ⟨since, rfl⟩ := here choice.items List.mem_cons_self
    have itemsKept :
        (since ++ choice.items).reverse.take choice.items.length = choice.items.reverse := by
      rw [List.reverse_append, List.take_left' List.length_reverse]
    simp only [Ledger.backtrack, Ledger.settled, ledger, Choice.bookmarks, itemsKept,
      List.take_left, List.drop_left, List.reverse_reverse]
    rfl

/-- A move adds to the lists of a ledger what it adds to those of a probe. -/
theorem ledger_follow (probe : Probe σ) (indent : Int) (rest : Work) (state : σ)
    (outcome : Except Error Move) :
    probe.ledger.pass.follow indent rest state outcome =
      (probe.follow indent rest state outcome).map ledger := by
  rcases outcome with cause | (_ | _ | _ | _) <;>
    simp [Ledger.follow, Ledger.pass, follow, ledger, Choice.bookmarks, Choice.passed]

/-- A ledger makes the steps of its probe. -/
theorem ledger_step (host : Host σ) (width : Int) (nested : probe.Nested) :
    probe.ledger.step host width = (probe.step host width).map ledger := by
  cases workEq : probe.position.work with
  | nil =>
      simp only [Ledger.step, step, ledger_position, ledger_store, ledger_backtrack nested, workEq]
      split <;> rfl
  | cons cell rest =>
      simp only [Ledger.step, step, ledger_position, ledger_store, ledger_backtrack nested, workEq]
      split
      · rfl
      split
      · rfl
      · rw [advance_eq_follow]
        exact ledger_follow ..

/-- A search that cuts back its lists goes the way of a probe, and ends with its verdict. -/
theorem ledger_run (host : Host σ) (width : Int) (bound : Nat) (position : Position)
    (store : Store σ) :
    Ledger.run host width bound (.start position store) =
      (run host width bound (start position store)).map ledger :=
  iterate_map (fun _ => ledger_step host width) (fun _ _ => Nested.of_running)
    (nested_start position store) bound

end Probe

end DocLayout
