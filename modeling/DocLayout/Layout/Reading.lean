import DocLayout.Layout.Walk

/-!
# Reading a walk

A reader takes the events of a walk one by one.  It may refuse an event, and it may have had
enough: then nothing further is laid out.  The walk itself may end or fail.  Whatever happens, what
was taken before is kept.
-/

namespace DocLayout

/-- Something that takes events. -/
structure Reader (α : Type) where
  /-- Whether a further event is wanted. -/
  wants : α → Bool
  /-- Takes an event, or refuses it. -/
  take : α → Event → Except Error α

/-- How a reading ends. -/
inductive Ending where
  /-- Everything has been laid out and taken. -/
  | finished
  /-- Something could not be laid out, or was refused. -/
  | failed (cause : Error)
  /-- More could follow, but the reader has had enough, or the bound on steps is reached. -/
  | suspended

/-- What a reader has when it stops. -/
structure Reading (α σ : Type) where
  /-- What it has taken. -/
  taken : α
  /-- How the reading ended. -/
  ending : Ending
  /-- The state of the host. -/
  state : σ

/-- The cause of failure, if the reading failed. -/
def Reading.failure {α σ : Type} (reading : Reading α σ) : Option Error :=
  match reading.ending with
  | .failed cause => some cause
  | _ => none

namespace Reader

variable {α σ : Type}

/-- Takes events as long as they are wanted, up to the first one that is refused. -/
def takeAll (reader : Reader α) (taken : α) : List Event → α × Option Error
  | [] => (taken, none)
  | event :: events =>
      if reader.wants taken then
        match reader.take taken event with
        | .ok taken => reader.takeAll taken events
        | .error cause => (taken, some cause)
      else (taken, none)

/-- Reads a walk for at most `bound` steps. -/
def read (reader : Reader α) (host : Host σ) (width : Int) :
    (bound : Nat) → α → Walk σ → Reading α σ
  | 0, taken, walk => ⟨taken, .suspended, walk.state⟩
  | bound + 1, taken, walk =>
      if reader.wants taken then
        match walk.step host width with
        | .finished store => ⟨taken, .finished, store.state⟩
        | .failed cause store => ⟨taken, .failed cause, store.state⟩
        | .next events walk =>
            match reader.takeAll taken events with
            | (taken, none) => reader.read host width bound taken walk
            | (taken, some cause) => ⟨taken, .failed cause, walk.state⟩
      else ⟨taken, .suspended, walk.state⟩

/-- Items that have been collected. -/
structure Collected where
  /-- How many more items are wanted, if there is a limit. -/
  room : Option Nat
  /-- The items, last first. -/
  items : List Item

/-- Collects items, up to the limit that it starts with. -/
def collect : Reader Collected where
  wants collected := collected.room ≠ some 0
  take
    | collected, .item item => .ok ⟨collected.room.map (· - 1), item :: collected.items⟩
    | collected, .decision _ => .ok collected

end Reader

end DocLayout
