import DocLayout.Layout.Item
import DocLayout.Layout.Memory
import DocLayout.Transition

/-!
# Probes

A probe lays out a work list up to the first line break, or to the end, without going past the
width.  Of every choice on the way it takes the flat member if that leads to a line break within
the width, and the broken one otherwise: it searches depth first, and goes back to the last open
choice where the width is exceeded.  Positions passed since that choice are then known to fail, and
are remembered for the rest of the layout.

The search is a machine.  Its state holds what has been emitted, the open choices with all that is
needed to return to them, and the positions passed since the last open choice.
-/

namespace DocLayout

/-- What is kept for the whole of a layout. -/
structure Store (σ : Type) where
  /-- Positions known to fail. -/
  memory : Memory
  /-- The first label that is not in use. -/
  fresh : Nat
  /-- The state of the host. -/
  state : σ

/-- A choice whose flat member is being tried. -/
structure Choice where
  /-- The items emitted before the choice, last first. -/
  items : List Item
  /-- The positions passed before the choice and since the one before it, last first. -/
  trail : List Position
  /-- The position at which the broken member is next. -/
  alternative : Position

/-- A search under way. -/
structure Probe (σ : Type) where
  /-- The items emitted, last first. -/
  items : List Item
  /-- The position reached. -/
  position : Position
  /-- The positions passed since the last open choice, last first. -/
  trail : List Position
  /-- The open choices, last first. -/
  choices : List Choice
  /-- What is kept for the whole layout. -/
  store : Store σ

/-- How a search ends. -/
inductive Verdict (σ : Type) where
  /-- The items reach a line break or the end within the width; the layout goes on from there. -/
  | fits (items : List Item) (rest : Position) (store : Store σ)
  /-- Whatever is chosen, the width is exceeded. -/
  | overflows (store : Store σ)
  /-- Something cannot be laid out. -/
  | fails (cause : Error) (store : Store σ)

namespace Probe

variable {σ : Type}

/-- The search from a position. -/
def start (position : Position) (store : Store σ) : Probe σ where
  items := []
  position := position
  trail := []
  choices := []
  store := store

/-- Gives up the current path: remembers the positions passed since the last open choice, and
returns to that choice for its broken member. -/
def backtrack (probe : Probe σ) : Progress (Probe σ) (Verdict σ) :=
  let ⟨_, _, trail, choices, ⟨memory, fresh, state⟩⟩ := probe
  let store := ⟨memory.insertAll trail, fresh, state⟩
  match choices with
  | [] => .halted (.overflows store)
  | choice :: earlier =>
      .running ⟨choice.items, choice.alternative, choice.trail, earlier, store⟩

/-- Makes the move of the first cell. -/
def advance (host : Host σ) (probe : Probe σ) (cell : Cell) (rest : Work) :
    Progress (Probe σ) (Verdict σ) :=
  let ⟨items, position, trail, choices, ⟨memory, fresh, state⟩⟩ := probe
  let trail := position :: trail
  let indent := cell.obligation.indent
  match cell.obligation.move host position.column state with
  | (.error cause, state) => .halted (.fails cause ⟨memory, fresh, state⟩)
  | (.ok (.emit fragment), state) =>
      let item := Item.text fragment
      .running ⟨item :: items, ⟨item.advance position.column, rest⟩, trail, choices,
        ⟨memory, fresh, state⟩⟩
  | (.ok .newline, state) =>
      let item := Item.line indent
      .halted (.fits (item :: items).reverse ⟨item.advance position.column, rest⟩
        ⟨memory, fresh, state⟩)
  | (.ok (.choose flat broken), state) =>
      let alternative := ⟨position.column, Work.push fresh [⟨indent, broken⟩] rest⟩
      let attempt := ⟨position.column, Work.push (fresh + 1) [⟨indent, flat⟩] rest⟩
      .running ⟨items, attempt, [], ⟨items, trail, alternative⟩ :: choices,
        ⟨memory, fresh + 2, state⟩⟩
  | (.ok (.replace parts), state) =>
      .running ⟨items, ⟨position.column, Work.push fresh parts rest⟩, trail, choices,
        ⟨memory, fresh + parts.length, state⟩⟩

/-- One step of the search.  The width is checked first, then the memory. -/
def step (host : Host σ) (width : Int) (probe : Probe σ) : Progress (Probe σ) (Verdict σ) :=
  if width < probe.position.column then probe.backtrack
  else
    match probe.position.work with
    | [] => .halted (.fits probe.items.reverse probe.position probe.store)
    | cell :: rest =>
        if probe.store.memory.contains probe.position then probe.backtrack
        else probe.advance host cell rest

/-- At most `bound` steps of the search. -/
def run (host : Host σ) (width : Int) (bound : Nat) (probe : Probe σ) :
    Progress (Probe σ) (Verdict σ) :=
  Progress.iterate (step host width) bound probe

end Probe

end DocLayout
