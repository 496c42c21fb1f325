import DocLayout.Layout.Probe

/-!
# The main walk

A walk lays out a work list and reports what happens: the items of the layout and the decisions on
choices, in order.  At a choice it starts a probe with the flat member in front.  A probe that fits
has made the choices that the walk would make up to the next line break, so its items are taken
over as they are and the walk goes on where the probe ended.  Otherwise the broken member takes the
place of the choice.

The walk is a machine too, and gives its events step by step, so an endless document can be laid
out as far as it is asked for.
-/

namespace DocLayout

/-- The decision on a choice. -/
structure Decision where
  /-- The indentation in force at the choice. -/
  indent : Int
  /-- The column of the choice. -/
  column : Int
  /-- Whether the flat member was taken. -/
  flat : Bool
deriving DecidableEq

/-- What is said about a decision. -/
def Decision.message (decision : Decision) : String :=
  "group at indent=" ++ toString decision.indent ++ " column=" ++ toString decision.column ++
    " laid out " ++ (if decision.flat then "flat" else "broken")

/-- Something that a walk reports. -/
inductive Event where
  /-- A choice is decided. -/
  | decision (decision : Decision)
  /-- An item is emitted. -/
  | item (item : Item)
deriving DecidableEq

/-- A layout under way. -/
inductive Walk (σ : Type) where
  /-- Laying out from a position. -/
  | walking (position : Position) (store : Store σ)
  /-- Trying the flat member of a choice at a column.  The broken member would come next, with the
  work list behind it. -/
  | probing (column : Int) (broken : Obligation) (rest : Work) (probe : Probe σ)

namespace Walk

variable {σ : Type}

/-- What a step of the walk leads to. -/
inductive Outcome (σ : Type) where
  /-- The walk reports events and goes on. -/
  | next (events : List Event) (walk : Walk σ)
  /-- Everything has been laid out. -/
  | finished (store : Store σ)
  /-- Something cannot be laid out. -/
  | failed (cause : Error) (store : Store σ)

/-- The walk from a column over obligations, with an empty memory. -/
def start (column : Int) (parts : List Obligation) (state : σ) : Walk σ :=
  .walking ⟨column, Work.ofList parts⟩ ⟨.empty, parts.length, state⟩

/-- The state of the host. -/
def state : Walk σ → σ
  | .walking _ store => store.state
  | .probing _ _ _ probe => probe.store.state

/-- Makes the move of the first cell. -/
def advance (host : Host σ) (column : Int) (cell : Cell) (rest : Work) (store : Store σ) :
    Outcome σ :=
  let ⟨memory, fresh, state⟩ := store
  let indent := cell.obligation.indent
  match cell.obligation.move host column state with
  | (.error cause, state) => .failed cause ⟨memory, fresh, state⟩
  | (.ok (.emit fragment), state) =>
      let item := Item.text fragment
      .next [.item item] (.walking ⟨item.advance column, rest⟩ ⟨memory, fresh, state⟩)
  | (.ok .newline, state) =>
      let item := Item.line indent
      .next [.item item] (.walking ⟨item.advance column, rest⟩ ⟨memory, fresh, state⟩)
  | (.ok (.choose flat broken), state) =>
      let attempt := ⟨column, Work.push fresh [⟨indent, flat⟩] rest⟩
      .next [] (.probing column ⟨indent, broken⟩ rest
        (Probe.start attempt ⟨memory, fresh + 1, state⟩))
  | (.ok (.replace parts), state) =>
      .next [] (.walking ⟨column, Work.push fresh parts rest⟩
        ⟨memory, fresh + parts.length, state⟩)

/-- One step of the walk, or of the probe that it waits for. -/
def step (host : Host σ) (width : Int) : Walk σ → Outcome σ
  | .walking position store =>
      match position.work with
      | [] => .finished store
      | cell :: rest => advance host position.column cell rest store
  | .probing column broken rest probe =>
      match probe.step host width with
      | .running probe => .next [] (.probing column broken rest probe)
      | .halted (.fits items position store) =>
          .next (.decision ⟨broken.indent, column, true⟩ :: items.map .item)
            (.walking position store)
      | .halted (.overflows ⟨memory, fresh, state⟩) =>
          .next [.decision ⟨broken.indent, column, false⟩]
            (.walking ⟨column, Work.push fresh [broken] rest⟩ ⟨memory, fresh + 1, state⟩)
      | .halted (.fails cause store) => .failed cause store

end Walk

end DocLayout
