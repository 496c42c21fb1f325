import DocLayout.Proofs.Layout.Fitting
import DocLayout.Proofs.Layout.Walk

/-!
# Paths

A path leads from a column with obligations to another one by moves alone.  At a choice it takes
either member, whether that fits or not.

Every place that a walk comes to lies on a path from where the walk started, and the items of the
path are those that the walk has emitted.  The same holds of every place that a probe comes to, also
after it has gone back to a choice; what a probe has emitted before it ends is text.  Neither the
memory nor the width has a part in this, and nothing is assumed of the host: a path takes moves that
are made in some state of it.
-/

namespace DocLayout

variable {σ : Type}

/-- The column after items that start at a column. -/
def Item.columnAfter (column : Int) (items : List Item) : Int :=
  items.foldl Item.advance column

@[simp]
theorem Item.columnAfter_nil (column : Int) : columnAfter column [] = column := rfl

@[simp]
theorem Item.columnAfter_cons (column : Int) (item : Item) (items : List Item) :
    columnAfter column (item :: items) = columnAfter (item.advance column) items := rfl

@[simp]
theorem Item.columnAfter_append (column : Int) (first second : List Item) :
    columnAfter column (first ++ second) = columnAfter (columnAfter column first) second :=
  List.foldl_append

/-- The columns behind text are counted from where it starts. -/
theorem Item.columnAfter_texts (column : Int) (texts : List Fragment) :
    columnAfter column (texts.map .text) = column + Layout.widthOf texts := by
  induction texts generalizing column with
  | nil => simp [Layout.widthOf]
  | cons fragment texts inductionHypothesis =>
      rw [List.map_cons, columnAfter_cons, inductionHypothesis, advance_text, Layout.widthOf,
        Int.natCast_add, Int.add_assoc]

/-- In some state of the host an obligation makes a move at a column. -/
def Obligation.MayMove (host : Host σ) (column : Int) (part : Obligation) (move : Move) : Prop :=
  ∃ state, (part.move host column state).1 = .ok move

/-- Some choices lead from a column with obligations to another one, and emit items. -/
inductive Path (host : Host σ) :
    Int → List Obligation → List Item → Int → List Obligation → Prop where
  | refl (column : Int) (parts : List Obligation) : Path host column parts [] column parts
  | emit {column next : Int} {part : Obligation} {rest remaining : List Obligation}
      {fragment : Fragment} {items : List Item} (move : part.MayMove host column (.emit fragment))
      (later : Path host (column + fragment.width) rest items next remaining) :
      Path host column (part :: rest) (.text fragment :: items) next remaining
  | newline {column next : Int} {part : Obligation} {rest remaining : List Obligation}
      {items : List Item} (move : part.MayMove host column .newline)
      (later : Path host (max part.indent 0) rest items next remaining) :
      Path host column (part :: rest) (.line part.indent :: items) next remaining
  | replace {column next : Int} {part : Obligation} {rest remaining parts : List Obligation}
      {items : List Item} (move : part.MayMove host column (.replace parts))
      (later : Path host column (parts ++ rest) items next remaining) :
      Path host column (part :: rest) items next remaining
  | flat {column next : Int} {part : Obligation} {rest remaining : List Obligation}
      {flat broken : Value} {items : List Item}
      (move : part.MayMove host column (.choose flat broken))
      (later : Path host column (⟨part.indent, flat⟩ :: rest) items next remaining) :
      Path host column (part :: rest) items next remaining
  | broken {column next : Int} {part : Obligation} {rest remaining : List Obligation}
      {flat broken : Value} {items : List Item}
      (move : part.MayMove host column (.choose flat broken))
      (later : Path host column (⟨part.indent, broken⟩ :: rest) items next remaining) :
      Path host column (part :: rest) items next remaining

namespace Path

variable {host : Host σ} {column middle next : Int} {parts pending remaining : List Obligation}
  {items later : List Item}

theorem trans (first : Path host column parts items middle pending)
    (second : Path host middle pending later next remaining) :
    Path host column parts (items ++ later) next remaining := by
  induction first with
  | refl => exact second
  | emit move _ inductionHypothesis => exact .emit move (inductionHypothesis second)
  | newline move _ inductionHypothesis => exact .newline move (inductionHypothesis second)
  | replace move _ inductionHypothesis => exact .replace move (inductionHypothesis second)
  | flat move _ inductionHypothesis => exact .flat move (inductionHypothesis second)
  | broken move _ inductionHypothesis => exact .broken move (inductionHypothesis second)

/-- A path that goes on without emitting anything. -/
theorem extend (first : Path host column parts items middle pending)
    (second : Path host middle pending [] next remaining) :
    Path host column parts items next remaining := by
  simpa using first.trans second

/-- A path keeps to the columns of its items. -/
theorem column_eq (path : Path host column parts items next remaining) :
    next = Item.columnAfter column items := by
  induction path with
  | refl => rfl
  | emit _ _ inductionHypothesis => exact inductionHypothesis
  | newline _ _ inductionHypothesis => exact inductionHypothesis
  | replace _ _ inductionHypothesis => exact inductionHypothesis
  | flat _ _ inductionHypothesis => exact inductionHypothesis
  | broken _ _ inductionHypothesis => exact inductionHypothesis

end Path

variable {host : Host σ} {width column : Int} {parts : List Obligation} {earlier : List Item}

/-! ## Probes -/

namespace Probe

/-- A place that a probe comes to.  The items that the probe has emitted by then, last first, are
text, and behind the earlier items they lead there. -/
structure Place (host : Host σ) (column : Int) (parts : List Obligation) (earlier items : List Item)
    (position : Position) : Prop where
  path : Path host column parts (earlier ++ items.reverse) position.column
    position.work.obligations
  texts : ∃ texts : List Fragment, items.reverse = texts.map .text

/-- A probe is at such a place, and has left open choices only at such places. -/
structure Explores (host : Host σ) (column : Int) (parts : List Obligation) (earlier : List Item)
    (probe : Probe σ) : Prop where
  here : Place host column parts earlier probe.items probe.position
  choices : ∀ choice ∈ probe.choices,
    Place host column parts earlier choice.items choice.alternative

/-- Items come to the first line break, or else to the end, without going past the width. -/
def FillsLine (width column : Int) (items : List Item) (rest : Work) : Prop :=
  ∃ texts : List Fragment, Item.columnAfter column (texts.map .text) ≤ width ∧
    (items = texts.map .text ∧ rest = [] ∨ ∃ indent, items = texts.map .text ++ [.line indent])

variable {probe next : Probe σ} {items : List Item} {position : Position}

theorem explores_start (store : Store σ)
    (path : Path host column parts earlier position.column position.work.obligations) :
    (start position store).Explores host column parts earlier where
  here := ⟨by simpa [start] using path, [], rfl⟩
  choices := by simp [start]

/-- A move that emits nothing leads to another place. -/
theorem Place.extend {place : Position}
    (reached : Place host column parts earlier items position)
    (path : Path host position.column position.work.obligations [] place.column
      place.work.obligations) :
    Place host column parts earlier items place :=
  ⟨reached.path.extend path, reached.texts⟩

theorem Explores.of_backtrack (explores : probe.Explores host column parts earlier)
    (running : probe.backtrack = .running next) : next.Explores host column parts earlier := by
  cases choicesEq : probe.choices with
  | nil => simp [backtrack_of_nil choicesEq] at running
  | cons choice others =>
      rw [backtrack_of_cons choicesEq] at running
      cases running
      have choices := explores.choices
      rw [choicesEq] at choices
      obtain ⟨there, otherChoices⟩ := List.forall_mem_cons.mp choices
      exact ⟨there, otherChoices⟩

/-- A move of the first obligation keeps a probe on its paths. -/
theorem Explores.of_follow (explores : probe.Explores host column parts earlier) {cell : Cell}
    {rest : Work} {state : σ} {outcome : Except Error Move}
    (workEq : probe.position.work = cell :: rest)
    (moveEq : (cell.obligation.move host probe.position.column probe.store.state).1 = outcome)
    (running : probe.follow cell.obligation.indent rest state outcome = .running next) :
    next.Explores host column parts earlier := by
  have partsEq : probe.position.work.obligations = cell.obligation :: Work.obligations rest :=
    congrArg Work.obligations workEq
  cases outcome with
  | error cause => cases running
  | ok move =>
      cases move with
      | emit fragment =>
          cases running
          obtain ⟨path, texts, textsEq⟩ := explores.here
          rw [partsEq] at path
          refine ⟨⟨?_, texts ++ [fragment], by simp [textsEq]⟩, explores.choices⟩
          simpa using path.trans (.emit ⟨_, moveEq⟩ (.refl _ _))
      | newline => cases running
      | choose flat broken =>
          cases running
          constructor
          · apply explores.here.extend
            simpa [partsEq] using Path.flat ⟨_, moveEq⟩ (.refl _ _)
          · refine List.forall_mem_cons.mpr ⟨?_, explores.choices⟩
            apply explores.here.extend
            simpa [partsEq] using Path.broken ⟨_, moveEq⟩ (.refl _ _)
      | replace replacement =>
          cases running
          refine ⟨explores.here.extend ?_, explores.choices⟩
          simpa [partsEq] using Path.replace ⟨_, moveEq⟩ (.refl _ _)

/-- A step keeps a probe on its paths. -/
theorem Explores.of_running (explores : probe.Explores host column parts earlier)
    (running : probe.step host width = .running next) :
    next.Explores host column parts earlier := by
  cases probe.turn host width with
  | beyond exceeds => exact explores.of_backtrack (step_of_beyond exceeds ▸ running)
  | remembered known => exact explores.of_backtrack (step_of_remembered known ▸ running)
  | done within workEq =>
      rw [step_of_nil within workEq] at running
      cases running
  | move _ cell rest state workEq stepEq =>
      exact explores.of_follow workEq rfl (stepEq ▸ running)

theorem backtrack_ne_fits {rest : Position} {store : Store σ} :
    probe.backtrack ≠ .halted (.fits items rest store) := by
  cases choicesEq : probe.choices with
  | nil => simp [backtrack_of_nil choicesEq]
  | cons choice others => simp [backtrack_of_cons choicesEq]

/-- A probe that fits has come to the first line break, or to the end, within the width. -/
theorem Explores.of_fits {rest : Position} {store : Store σ}
    (explores : probe.Explores host column parts earlier)
    (fits : probe.step host width = .halted (.fits items rest store)) :
    Path host column parts (earlier ++ items) rest.column rest.work.obligations ∧
      FillsLine width (Item.columnAfter column earlier) items rest.work := by
  obtain ⟨path, texts, textsEq⟩ := explores.here
  have columnEq := path.column_eq
  rw [Item.columnAfter_append, textsEq] at columnEq
  cases probe.turn host width with
  | beyond exceeds => exact absurd (step_of_beyond exceeds ▸ fits) backtrack_ne_fits
  | remembered known => exact absurd (step_of_remembered known ▸ fits) backtrack_ne_fits
  | done within workEq =>
      rw [step_of_nil within workEq] at fits
      cases fits
      exact ⟨path, texts, columnEq ▸ within, .inl ⟨textsEq, workEq⟩⟩
  | move within cell others state workEq stepEq =>
      rw [stepEq] at fits
      rcases moveEq : (cell.obligation.move host probe.position.column probe.store.state).1
        with cause | (_ | _ | _ | _)
      all_goals rw [moveEq] at fits
      all_goals cases fits
      -- Of all moves only a line break ends a probe that fits.
      rw [workEq] at path
      refine ⟨?_, texts, columnEq ▸ within, .inr ⟨cell.obligation.indent, ?_⟩⟩
      · simpa [Work.obligations] using path.trans (.newline ⟨_, moveEq⟩ (.refl _ _))
      · rw [List.reverse_cons, textsEq]

end Probe

/-! ## Walks -/

namespace Walk

/-- A path leads to where a walk is, and to where the probe is that the walk waits for.  Should the
probe not fit, the walk goes on with the broken member of the choice, and a path leads there too. -/
def OnPath (host : Host σ) (column : Int) (parts : List Obligation) (items : List Item) :
    Walk σ → Prop
  | .walking position _ =>
      Path host column parts items position.column position.work.obligations
  | .probing here broken rest probe =>
      Path host column parts items here (broken :: rest.obligations) ∧
        probe.Explores host column parts items

variable {walk next last : Walk σ} {items : List Item} {events : List Event}

theorem onPath_start (host : Host σ) (column : Int) (parts : List Obligation) (state : σ) :
    (start column parts state).OnPath host column parts [] := by
  change Path host column parts [] column (Work.ofList parts).obligations
  rw [Work.obligations_ofList]
  exact .refl column parts

/-- A move of the first obligation keeps a walk on its path. -/
theorem OnPath.of_follow {position : Position} {store : Store σ} {cell : Cell} {rest : Work}
    {state : σ} {outcome : Except Error Move}
    (path : Path host column parts items position.column (cell.obligation :: rest.obligations))
    (moveEq : (cell.obligation.move host position.column store.state).1 = outcome)
    (step : follow position.column cell.obligation.indent rest store state outcome =
      .next events next) :
    next.OnPath host column parts (items ++ itemsOf events) := by
  cases outcome with
  | error cause => cases step
  | ok move =>
      cases move with
      | emit fragment =>
          cases step
          exact path.trans (.emit ⟨_, moveEq⟩ (.refl _ _))
      | newline =>
          cases step
          exact path.trans (.newline ⟨_, moveEq⟩ (.refl _ _))
      | choose flat broken =>
          cases step
          rw [itemsOf_nil, List.append_nil]
          constructor
          · exact path.extend (.broken ⟨_, moveEq⟩ (.refl _ _))
          · apply Probe.explores_start
            rw [Work.obligations_push_singleton]
            exact path.extend (.flat ⟨_, moveEq⟩ (.refl _ _))
      | replace replacement =>
          cases step
          rw [itemsOf_nil, List.append_nil, OnPath, Work.obligations_push]
          exact path.extend (.replace ⟨_, moveEq⟩ (.refl _ _))

/-- A step keeps a walk on its path. -/
theorem OnPath.of_step (onPath : walk.OnPath host column parts items)
    (step : walk.step host width = .next events next) :
    next.OnPath host column parts (items ++ itemsOf events) := by
  cases walk with
  | walking position store =>
      cases workEq : position.work with
      | nil => simp [Walk.step, workEq] at step
      | cons cell rest =>
          obtain ⟨state, stepEq⟩ := step_of_cons host width store workEq
          rw [OnPath, workEq] at onPath
          exact of_follow onPath rfl (stepEq ▸ step)
  | probing here broken rest probe =>
      obtain ⟨brokenPath, explores⟩ := onPath
      cases probeStep : probe.step host width with
      | running later =>
          rw [step_of_running probeStep] at step
          cases step
          rw [itemsOf_nil, List.append_nil]
          exact ⟨brokenPath, explores.of_running probeStep⟩
      | halted verdict =>
          rw [step_of_halted probeStep] at step
          cases verdict with
          | fits found position kept =>
              cases step
              simpa [OnPath] using (explores.of_fits probeStep).1
          | overflows kept =>
              cases step
              simpa [OnPath] using brokenPath
          | fails cause kept => cases step

/-- A run keeps a walk on its path. -/
theorem OnPath.of_run (run : Run (Walk.step host width) walk events last)
    (onPath : walk.OnPath host column parts items) :
    last.OnPath host column parts (items ++ itemsOf events) := by
  induction run generalizing items with
  | refl => simpa using onPath
  | head first _ inductionHypothesis =>
      have later := inductionHypothesis (onPath.of_step first)
      rwa [List.append_assoc, ← itemsOf_append] at later

/-- Every state of a run from the start lies on a path with the items of the run. -/
theorem onPath_of_run {state : σ}
    (run : Run (Walk.step host width) (start column parts state) events last) :
    last.OnPath host column parts (itemsOf events) :=
  (onPath_start host column parts state).of_run run

end Walk

end DocLayout
