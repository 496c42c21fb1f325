import DocLayout.Proofs.Layout.Stretch

/-!
# Walks take their course

The machine of a walk reports the events of its course, and its memory stays reliable.  The same
holds if the memory is changed between probes, as long as nothing is added to it; in particular
every probe may be given an empty one.
-/

namespace DocLayout.Walk

open Progress

variable {σ : Type} {host : Host σ} {meaning : Meaning} {width : Int} {domain : Value → Prop}
  {change : Memory → Memory}

/-- A walk with its memory changed, unless a probe is under way. -/
def revise (change : Memory → Memory) : Walk σ → Walk σ
  | .walking position store => .walking position { store with memory := change store.memory }
  | .probing column broken rest probe => .probing column broken rest probe

/-- One step of a walk whose memory is changed between probes. -/
def stepWith (change : Memory → Memory) (host : Host σ) (width : Int) (walk : Walk σ) : Outcome σ :=
  (walk.revise change).step host width

/-- One step of a walk that gives every probe an empty memory. -/
def stepAnew (host : Host σ) (width : Int) (walk : Walk σ) : Outcome σ :=
  walk.stepWith (fun _ => .empty) host width

theorem stepWith_id (host : Host σ) (width : Int) : stepWith id host width = step host width := by
  funext walk
  cases walk <;> rfl

/-- Where a move of the first obligation leads to. -/
def follow (column indent : Int) (rest : Work) (store : Store σ) (state : σ) :
    Except Error Move → Outcome σ
  | .error cause => .failed cause { store with state }
  | .ok (.emit fragment) =>
      .next [.item (.text fragment)] (.walking ⟨column + fragment.width, rest⟩ { store with state })
  | .ok .newline =>
      .next [.item (.line indent)] (.walking ⟨max indent 0, rest⟩ { store with state })
  | .ok (.choose flat broken) =>
      let attempt := ⟨column, Work.push store.fresh [⟨indent, flat⟩] rest⟩
      .next [] (.probing column ⟨indent, broken⟩ rest
        (Probe.start attempt { store with fresh := store.fresh + 1, state }))
  | .ok (.replace parts) =>
      .next [] (.walking ⟨column, Work.push store.fresh parts rest⟩
        { store with fresh := store.fresh + parts.length, state })

/-- Where a verdict on a choice leads to. -/
def conclude (column : Int) (broken : Obligation) (rest : Work) : Verdict σ → Outcome σ
  | .fits items position store =>
      .next (.decision ⟨broken.indent, column, true⟩ :: items.map .item) (.walking position store)
  | .overflows store =>
      .next [.decision ⟨broken.indent, column, false⟩]
        (.walking ⟨column, Work.push store.fresh [broken] rest⟩
          { store with fresh := store.fresh + 1 })
  | .fails cause store => .failed cause store

variable {position : Position} {store : Store σ} {part : Obligation} {parts : List Obligation}

theorem advance_eq_follow (host : Host σ) (column : Int) (cell : Cell) (rest : Work)
    (store : Store σ) :
    let moved := cell.obligation.move host column store.state
    advance host column cell rest store =
      follow column cell.obligation.indent rest store moved.2 moved.1 := by
  rcases store with ⟨memory, fresh, before⟩
  rcases moveEq : cell.obligation.move host column before with ⟨outcome, state⟩
  simp only [advance, moveEq]
  rcases outcome with cause | (_ | _ | _ | _) <;> rfl

theorem step_eq_follow {cell : Cell} {rest : Work} (host : Host σ) (width : Int) (store : Store σ)
    (workEq : position.work = cell :: rest) :
    let moved := cell.obligation.move host position.column store.state
    step host width (.walking position store) =
      follow position.column cell.obligation.indent rest store moved.2 moved.1 := by
  rw [step, workEq]
  exact advance_eq_follow host position.column cell rest store

theorem step_of_cons {cell : Cell} {rest : Work} (host : Host σ) (width : Int) (store : Store σ)
    (workEq : position.work = cell :: rest) :
    ∃ state, step host width (.walking position store) =
      follow position.column cell.obligation.indent rest store state
        (cell.obligation.move host position.column store.state).1 :=
  ⟨_, step_eq_follow host width store workEq⟩

theorem stepWith_eq_follow (change : Memory → Memory) (width : Int) (store : Store σ)
    (follows : host.Follows meaning domain) {outcome : Except Error Move}
    (partsEq : position.work.obligations = part :: parts)
    (inside : domain part.value) (move : part.answer meaning position.column = outcome) :
    ∃ rest state, Work.obligations rest = parts ∧
      stepWith change host width (.walking position store) =
        follow position.column part.indent rest { store with memory := change store.memory } state
          outcome := by
  obtain ⟨cell, rest, workEq, rfl, restEq⟩ := List.map_eq_cons_iff.mp partsEq
  obtain ⟨state, stepEq⟩ :=
    step_of_cons host width { store with memory := change store.memory } workEq
  refine ⟨rest, state, restEq, ?_⟩
  rw [stepWith, revise, stepEq, ← move]
  exact congrArg _ (follows.gives inside store.state)

theorem stepWith_of_nil (change : Memory → Memory) (host : Host σ) (width : Int) (store : Store σ)
    (partsEq : position.work.obligations = []) :
    stepWith change host width (.walking position store) =
      .finished { store with memory := change store.memory } := by
  have workEq : position.work = [] := List.map_eq_nil_iff.mp partsEq
  rw [stepWith, revise, step]
  simp only [workEq]

/-- Everything has been laid out. -/
def AtEnd : Walk σ → Prop
  | .walking position _ => position.work = []
  | .probing _ _ _ _ => False

theorem atEnd_iff_exists_finished {walk : Walk σ} :
    walk.AtEnd ↔ ∃ store, walk.step host width = .finished store := by
  cases walk with
  | walking position store =>
      cases workEq : position.work with
      | nil => simp [AtEnd, step, workEq]
      | cons cell rest =>
          obtain ⟨state, stepEq⟩ := step_of_cons host width store workEq
          rw [stepEq]
          rcases cell.obligation.move host position.column store.state with
            ⟨cause | (_ | _ | _ | _), _⟩ <;> simp [AtEnd, workEq, follow]
  | probing column broken rest probe =>
      rw [step]
      rcases probe.step host width with next | (_ | _ | _) <;> simp [AtEnd]

theorem step_of_running {column : Int} {broken : Obligation} {rest : Work} {probe next : Probe σ}
    (running : probe.step host width = .running next) :
    step host width (.probing column broken rest probe) =
      .next [] (.probing column broken rest next) := by
  rw [step, running]

theorem step_of_halted {column : Int} {broken : Obligation} {rest : Work} {probe : Probe σ}
    {verdict : Verdict σ} (halted : probe.step host width = .halted verdict) :
    step host width (.probing column broken rest probe) = conclude column broken rest verdict := by
  rw [step, halted]
  cases verdict <;> rfl

/-- A walk waits for its probe and reports nothing. -/
theorem run_of_reaches {column : Int} {broken : Obligation} {rest : Work} {probe last : Probe σ}
    (reaches : Reaches (Probe.step host width) probe last) :
    Run (stepWith change host width) (.probing column broken rest probe) []
      (.probing column broken rest last) := by
  induction reaches using Relation.ReflTransGen.head_induction_on with
  | refl => exact .refl _
  | @head probe next first _ inductionHypothesis =>
      have waits : stepWith change host width (.probing column broken rest probe) =
          .next [] (.probing column broken rest next) := step_of_running first
      exact .head waits inductionHypothesis

/-- A walk comes to the verdict on a choice that a search with the flat member in front finds. -/
theorem run_choice (follows : host.Follows meaning domain)
    (shrinks : ∀ memory, ∀ known ∈ change memory, known ∈ memory) {flat broken : Value}
    {found : Found} (partsEq : position.work.obligations = part :: parts)
    (inside : ∀ next ∈ part :: parts, domain next.value)
    (move : part.answer meaning position.column = .ok (.choose flat broken))
    (finds : Search meaning width position.column (⟨part.indent, flat⟩ :: parts) found)
    (reliable : store.memory.Reliable meaning width) :
    ∃ waiting rest verdict, Run (stepWith change host width) (.walking position store) [] waiting ∧
      Work.obligations rest = parts ∧
      stepWith change host width waiting =
        conclude position.column ⟨part.indent, broken⟩ rest verdict ∧
      verdict.found = found ∧
      Memory.OnlyAdds meaning width store.memory verdict.store.memory := by
  obtain ⟨partInside, -⟩ := List.forall_mem_cons.mp inside
  obtain ⟨rest, state, restEq, stepEq⟩ :=
    stepWith_eq_follow change width store follows partsEq partInside move
  have onlyForgets : Memory.OnlyAdds meaning width store.memory (change store.memory) :=
    fun known remembered => .inl (shrinks store.memory known remembered)
  have attemptEq : (Work.push store.fresh [⟨part.indent, flat⟩] rest).obligations =
      ⟨part.indent, flat⟩ :: parts := by
    rw [Work.obligations_push_singleton, restEq]
  have attemptFinds : Position.Finds meaning width
      ⟨position.column, Work.push store.fresh [⟨part.indent, flat⟩] rest⟩ found := by
    rw [Position.Finds, attemptEq]
    exact finds
  obtain ⟨verdict, ⟨last, reaches, halted⟩, foundEq, adds⟩ :=
    Probe.start_halts follows _ ⟨change store.memory, store.fresh + 1, state⟩ attemptFinds
      (attemptEq ▸ follows.flat inside move part.indent) (reliable.of_onlyAdds onlyForgets)
  exact ⟨_, rest, verdict, .head stepEq (run_of_reaches reaches), restEq,
    step_of_halted halted, foundEq, onlyForgets.trans adds⟩

/-- A run leads to a column with obligations from a domain, and adds to the memory only. -/
def Arrives (change : Memory → Memory) (host : Host σ) (meaning : Meaning) (width : Int)
    (domain : Value → Prop) (walk : Walk σ) (before : Memory) (events : List Event) (column : Int)
    (parts : List Obligation) : Prop :=
  ∃ position store, Run (stepWith change host width) walk events (.walking position store) ∧
    position.column = column ∧ position.work.obligations = parts ∧
    (∀ part ∈ parts, domain part.value) ∧ Memory.OnlyAdds meaning width before store.memory

/-- What follows after a run comes behind its events, and adds to what was added by then. -/
theorem Arrives.of_run {walk : Walk σ} {position : Position} {store : Store σ} {before : Memory}
    {events later : List Event} {column : Int} {parts : List Obligation}
    (run : Run (stepWith change host width) walk events (.walking position store))
    (adds : Memory.OnlyAdds meaning width before store.memory)
    (arrives : Arrives change host meaning width domain (.walking position store) store.memory
      later column parts) :
    Arrives change host meaning width domain walk before (events ++ later) column parts := by
  obtain ⟨last, kept, rest, columnEq, partsEq, inside, laterAdds⟩ := arrives
  exact ⟨last, kept, run.trans rest, columnEq, partsEq, inside, adds.trans laterAdds⟩

/-- A walk goes along a stretch, also if its memory is changed between probes without adding to it.
What is remembered then overflows, or was remembered at first. -/
theorem arrives_of_stretch (change : Memory → Memory) (follows : host.Follows meaning domain)
    (shrinks : ∀ memory, ∀ known ∈ change memory, known ∈ memory) {column next : Int}
    {events : List Event} {remaining : List Obligation}
    (stretch : Stretch meaning width column parts events next remaining)
    (inside : ∀ part ∈ parts, domain part.value) (columnEq : position.column = column)
    (partsEq : position.work.obligations = parts) (reliable : store.memory.Reliable meaning width) :
    Arrives change host meaning width domain (.walking position store) store.memory events next
      remaining := by
  have onlyForgets (memory : Memory) : Memory.OnlyAdds meaning width memory (change memory) :=
    fun known remembered => .inl (shrinks memory known remembered)
  have changedReliable {store : Store σ} (reliable : store.memory.Reliable meaning width) :
      (change store.memory).Reliable meaning width :=
    reliable.of_onlyAdds (onlyForgets store.memory)
  induction stretch generalizing position store with
  | refl => exact ⟨position, store, .refl _, columnEq, partsEq, inside, .refl store.memory⟩
  | emit move _ inductionHypothesis =>
      subst columnEq
      obtain ⟨partInside, restInside⟩ := List.forall_mem_cons.mp inside
      obtain ⟨work, state, workEq, stepEq⟩ :=
        stepWith_eq_follow change width store follows partsEq partInside move
      exact .of_run (.single stepEq) (onlyForgets store.memory)
        (inductionHypothesis restInside rfl workEq (changedReliable reliable))
  | newline move _ inductionHypothesis =>
      subst columnEq
      obtain ⟨partInside, restInside⟩ := List.forall_mem_cons.mp inside
      obtain ⟨work, state, workEq, stepEq⟩ :=
        stepWith_eq_follow change width store follows partsEq partInside move
      exact .of_run (.single stepEq) (onlyForgets store.memory)
        (inductionHypothesis restInside rfl workEq (changedReliable reliable))
  | @replace column next part rest remaining parts events move _ inductionHypothesis =>
      subst columnEq
      obtain ⟨partInside, -⟩ := List.forall_mem_cons.mp inside
      obtain ⟨work, state, workEq, stepEq⟩ :=
        stepWith_eq_follow change width store follows partsEq partInside move
      have nextEq : (Work.push store.fresh parts work).obligations = parts ++ rest := by
        rw [Work.obligations_push, workEq]
      exact .of_run (.single stepEq) (onlyForgets store.memory)
        (inductionHypothesis (follows.replace inside move) rfl nextEq (changedReliable reliable))
  | flat move fits _ inductionHypothesis =>
      subst columnEq
      obtain ⟨waiting, work, verdict, run, workEq, stepEq, foundEq, adds⟩ :=
        run_choice follows shrinks partsEq inside move fits reliable
      cases verdict with
      | fits found start kept =>
          cases foundEq
          have startInside := fits.inside_of_fits follows rfl (follows.flat inside move _)
          exact .of_run (run.trans (.single stepEq)) adds
            (inductionHypothesis startInside rfl rfl (reliable.of_onlyAdds adds))
      | _ => cases foundEq
  | @broken column next part rest remaining flat broken events move overflows _
      inductionHypothesis =>
      subst columnEq
      obtain ⟨waiting, work, verdict, run, workEq, stepEq, foundEq, adds⟩ :=
        run_choice follows shrinks partsEq inside move overflows reliable
      cases verdict with
      | overflows kept =>
          have brokenEq : (Work.push kept.fresh [⟨part.indent, broken⟩] work).obligations =
              ⟨part.indent, broken⟩ :: rest := by
            rw [Work.obligations_push_singleton, workEq]
          exact .of_run (run.trans (.single stepEq)) adds
            (inductionHypothesis (follows.broken inside move _) rfl brokenEq
              (reliable.of_onlyAdds adds))
      | _ => cases foundEq

/-- Where a course stops, a walk ends without reporting anything. -/
theorem yields_of_stops (change : Memory → Memory) (follows : host.Follows meaning domain)
    (shrinks : ∀ memory, ∀ known ∈ change memory, known ∈ memory) {ending : Option Error}
    (stops : Stops meaning width position.column parts ending)
    (inside : ∀ part ∈ parts, domain part.value) (partsEq : position.work.obligations = parts)
    (reliable : store.memory.Reliable meaning width) :
    ∃ final, Yields (stepWith change host width) (.walking position store) [] ending final ∧
      Memory.OnlyAdds meaning width store.memory final.memory := by
  have onlyForgets : Memory.OnlyAdds meaning width store.memory (change store.memory) :=
    fun known remembered => .inl (shrinks store.memory known remembered)
  cases stops with
  | done =>
      have ends : stepWith change host width (.walking position store) = .ended none _ :=
        stepWith_of_nil change host width store partsEq
      exact ⟨_, .of_step ends, onlyForgets⟩
  | undecided move fails =>
      obtain ⟨waiting, work, verdict, run, workEq, stepEq, foundEq, adds⟩ :=
        run_choice follows shrinks partsEq inside move fails reliable
      cases verdict with
      | fails cause kept =>
          cases foundEq
          exact ⟨kept, .of_run run (.of_step stepEq), adds⟩
      | _ => cases foundEq
  | fails move =>
      obtain ⟨partInside, -⟩ := List.forall_mem_cons.mp inside
      obtain ⟨work, state, workEq, stepEq⟩ :=
        stepWith_eq_follow change width store follows partsEq partInside move
      exact ⟨⟨change store.memory, store.fresh, state⟩, .of_step stepEq, onlyForgets⟩

/-- A walk reports the events of its course, also if its memory is changed between probes without
adding to it.  What is remembered in the end overflows, or was remembered at first. -/
theorem yields_of_course (change : Memory → Memory) (follows : host.Follows meaning domain)
    (shrinks : ∀ memory, ∀ known ∈ change memory, known ∈ memory) {column : Int}
    {events : List Event} {ending : Option Error}
    (course : Course meaning width column parts events ending)
    (inside : ∀ part ∈ parts, domain part.value) (columnEq : position.column = column)
    (partsEq : position.work.obligations = parts) (reliable : store.memory.Reliable meaning width) :
    ∃ final, Yields (stepWith change host width) (.walking position store) events ending final ∧
      Memory.OnlyAdds meaning width store.memory final.memory := by
  obtain ⟨next, remaining, stretch, stops⟩ := course.exists_stretch
  obtain ⟨last, kept, run, lastEq, remainingEq, remainingInside, adds⟩ :=
    arrives_of_stretch change follows shrinks stretch inside columnEq partsEq reliable
  obtain ⟨final, yields, laterAdds⟩ := yields_of_stops change follows shrinks (lastEq ▸ stops)
    remainingInside remainingEq (reliable.of_onlyAdds adds)
  have whole := Yields.of_run run yields
  rw [List.append_nil] at whole
  exact ⟨final, whole, adds.trans laterAdds⟩

/-- A walk whose memory is reliable emits what its course reports. -/
theorem emits_of_course (follows : host.Follows meaning domain) {column : Int}
    {events : List Event} {ending : Option Error}
    (course : Course meaning width column parts events ending)
    (inside : ∀ part ∈ parts, domain part.value) (columnEq : position.column = column)
    (partsEq : position.work.obligations = parts)
    (reliable : store.memory.Reliable meaning width) :
    (walking position store).Emits host width ⟨itemsOf events, ending⟩ := by
  obtain ⟨final, yields, -⟩ := yields_of_course id follows
    (fun _ _ remembered => remembered) course inside columnEq partsEq reliable
  rw [stepWith_id] at yields
  exact ⟨events, final, yields, rfl⟩

end DocLayout.Walk
