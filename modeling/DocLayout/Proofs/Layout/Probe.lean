import DocLayout.Proofs.Layout.Memory
import DocLayout.Proofs.Transition

/-!
# Probes find what a search finds

The machine of a probe keeps a stack of open choices and a trail, and skips remembered positions.
Started anywhere, with any choices open, it still arrives at what the search from its position
finds, provided that its memory is reliable: it ends with that verdict, or it comes to give up the
path with the same choices open.  In the latter case the trail holds positions that overflow only,
so what is then remembered keeps the memory reliable.
-/

namespace DocLayout.Probe

open Progress

variable {σ : Type} {host : Host σ} {meaning : Meaning} {width : Int} {domain : Value → Prop}
  {probe : Probe σ} {cell : Cell} {rest : Work}

/-! ## Single steps -/

theorem step_of_beyond (exceeds : width < probe.position.column) :
    probe.step host width = probe.backtrack := by
  rw [step, if_pos exceeds]

theorem step_of_remembered (remembered : probe.position ∈ probe.store.memory) :
    probe.step host width = probe.backtrack := by
  obtain ⟨cell, rest, workEq, -⟩ := Memory.mem_iff.mp remembered
  have contains : probe.store.memory.contains probe.position = true := remembered
  simp [step, workEq, contains]

theorem step_of_nil (within : probe.position.column ≤ width) (workEq : probe.position.work = []) :
    probe.step host width = .halted (.fits probe.items.reverse probe.position probe.store) := by
  rw [step, if_neg (Int.not_lt.mpr within), workEq]

theorem step_of_new (within : probe.position.column ≤ width)
    (workEq : probe.position.work = cell :: rest) (new : probe.position ∉ probe.store.memory) :
    probe.step host width = probe.advance host cell rest := by
  have contains : ¬ probe.store.memory.contains probe.position = true := new
  rw [step, if_neg (Int.not_lt.mpr within), workEq]
  change (if probe.store.memory.contains probe.position = true then _ else _) = _
  rw [if_neg contains]

/-- What is kept when a path is given up. -/
def abandoned (probe : Probe σ) : Store σ :=
  { probe.store with memory := probe.store.memory.insertAll probe.trail }

theorem backtrack_of_nil (choicesEq : probe.choices = []) :
    probe.backtrack = .halted (.overflows probe.abandoned) := by
  rcases probe with ⟨items, position, trail, choices, store⟩
  cases choicesEq
  rfl

theorem backtrack_of_cons {choice : Choice} {earlier : List Choice}
    (choicesEq : probe.choices = choice :: earlier) :
    probe.backtrack =
      .running ⟨choice.items, choice.alternative, choice.trail, earlier, probe.abandoned⟩ := by
  rcases probe with ⟨items, position, trail, choices, store⟩
  cases choicesEq
  rfl

/-- Where a move of the first obligation leads to. -/
def follow (probe : Probe σ) (indent : Int) (rest : Work) (state : σ) :
    Except Error Move → Progress (Probe σ) (Verdict σ)
  | .error cause => .halted (.fails cause { probe.store with state })
  | .ok (.emit fragment) =>
      .running ⟨.text fragment :: probe.items, ⟨probe.position.column + fragment.width, rest⟩,
        probe.position :: probe.trail, probe.choices, { probe.store with state }⟩
  | .ok .newline =>
      .halted (.fits (.line indent :: probe.items).reverse ⟨max indent 0, rest⟩
        { probe.store with state })
  | .ok (.choose flat broken) =>
      let fresh := probe.store.fresh
      let alternative := ⟨probe.position.column, Work.push fresh [⟨indent, broken⟩] rest⟩
      let attempt := ⟨probe.position.column, Work.push (fresh + 1) [⟨indent, flat⟩] rest⟩
      .running ⟨probe.items, attempt, [],
        ⟨probe.items, probe.position :: probe.trail, alternative⟩ :: probe.choices,
        { probe.store with fresh := fresh + 2, state }⟩
  | .ok (.replace parts) =>
      let fresh := probe.store.fresh
      .running ⟨probe.items, ⟨probe.position.column, Work.push fresh parts rest⟩,
        probe.position :: probe.trail, probe.choices,
        { probe.store with fresh := fresh + parts.length, state }⟩

theorem advance_eq_follow (host : Host σ) (probe : Probe σ) (cell : Cell) (rest : Work) :
    let moved := cell.obligation.move host probe.position.column probe.store.state
    probe.advance host cell rest = probe.follow cell.obligation.indent rest moved.2 moved.1 := by
  rcases probe with ⟨items, position, trail, choices, memory, fresh, before⟩
  rcases moveEq : cell.obligation.move host position.column before with ⟨outcome, state⟩
  simp only [advance, moveEq]
  rcases outcome with cause | (_ | _ | _ | _) <;> rfl

/-- What a probe is about to do: to give up its path, to end at the end of the document, or to make
the move of the first obligation. -/
inductive Turn (host : Host σ) (width : Int) (probe : Probe σ) : Prop where
  | beyond (exceeds : width < probe.position.column)
  | remembered (known : probe.position ∈ probe.store.memory)
  | done (within : probe.position.column ≤ width) (workEq : probe.position.work = [])
  | move (within : probe.position.column ≤ width) (cell : Cell) (rest : Work) (state : σ)
      (workEq : probe.position.work = cell :: rest)
      (stepEq : probe.step host width = probe.follow cell.obligation.indent rest state
        (cell.obligation.move host probe.position.column probe.store.state).1)

theorem turn (host : Host σ) (width : Int) (probe : Probe σ) : probe.Turn host width := by
  by_cases within : probe.position.column ≤ width
  · cases workEq : probe.position.work with
    | nil => exact .done within workEq
    | cons cell rest =>
        by_cases known : probe.position ∈ probe.store.memory
        · exact .remembered known
        · apply Turn.move within cell rest _ workEq
          rw [step_of_new within workEq known]
          exact advance_eq_follow host probe cell rest
  · exact .beyond (Int.not_le.mp within)

/-- A step from a position that is not remembered makes the move of the first obligation. -/
theorem step_eq_follow (follows : host.Follows meaning domain) {part : Obligation}
    {parts : List Obligation} {outcome : Except Error Move}
    (within : probe.position.column ≤ width)
    (partsEq : probe.position.work.obligations = part :: parts) (inside : domain part.value)
    (move : part.answer meaning probe.position.column = outcome)
    (new : probe.position ∉ probe.store.memory) :
    ∃ rest state, Work.obligations rest = parts ∧
      probe.step host width = probe.follow part.indent rest state outcome := by
  obtain ⟨cell, rest, workEq, rfl, restEq⟩ := List.map_eq_cons_iff.mp partsEq
  cases probe.turn host width with
  | beyond exceeds => omega
  | remembered known => exact absurd known new
  | done _ workNil => simp [workEq] at workNil
  | move _ _ _ state sameWork stepEq =>
      cases workEq.symm.trans sameWork
      refine ⟨rest, state, restEq, ?_⟩
      rw [stepEq, ← move]
      exact congrArg _ (follows.gives inside probe.store.state)

/-! ## Searches -/

/-- A probe arrives at what a search finds: at a verdict, or at a point where it gives up the path
that it is on. -/
structure Achieves (host : Host σ) (meaning : Meaning) (width : Int) (probe : Probe σ)
    (found : Found) : Prop where
  halts : found ≠ .overflows → ∃ verdict, Halts (step host width) probe verdict ∧
    verdict.found = found.after probe.items.reverse ∧
    Memory.OnlyAdds meaning width probe.store.memory verdict.store.memory
  gives_up : found = .overflows →
    (∀ position ∈ probe.trail, position.Finds meaning width .overflows) →
    ∃ last, Reaches (step host width) probe last ∧ last.step host width = last.backtrack ∧
      last.choices = probe.choices ∧
      (∀ position ∈ last.trail, position.Finds meaning width .overflows) ∧
      Memory.OnlyAdds meaning width probe.store.memory last.store.memory

variable {found : Found}

theorem achieves_of_backtrack (backtracks : probe.step host width = probe.backtrack) :
    probe.Achieves host meaning width .overflows where
  halts different := absurd rfl different
  gives_up _ overflow :=
    ⟨probe, .refl probe, backtracks, rfl, overflow, .refl probe.store.memory⟩

theorem achieves_of_halted {verdict : Verdict σ}
    (halted : probe.step host width = .halted verdict)
    (foundEq : verdict.found = found.after probe.items.reverse)
    (memoryEq : verdict.store.memory = probe.store.memory) (settled : found ≠ .overflows) :
    probe.Achieves host meaning width found where
  halts _ := ⟨verdict, .of_step halted, foundEq, by rw [memoryEq]; exact .refl _⟩
  gives_up overflows := absurd overflows settled

/-- A step that opens no choice: what is found after it is found before it, behind the items that it
emits. -/
theorem Achieves.of_step {next : Probe σ} {emitted : List Item}
    (running : probe.step host width = .running next)
    (itemsEq : next.items = emitted.reverse ++ probe.items)
    (trailEq : next.trail = probe.position :: probe.trail)
    (choicesEq : next.choices = probe.choices)
    (memoryEq : next.store.memory = probe.store.memory)
    (finds : probe.position.Finds meaning width (found.after emitted))
    (achieves : next.Achieves host meaning width found) :
    probe.Achieves host meaning width (found.after emitted) where
  halts settled := by
    have laterSettled : found ≠ .overflows := fun overflows =>
      settled (Found.after_eq_overflows_iff.mpr overflows)
    obtain ⟨verdict, halts, foundEq, adds⟩ := achieves.halts laterSettled
    refine ⟨verdict, halts.head running, ?_, memoryEq ▸ adds⟩
    rw [foundEq, itemsEq, Found.after_after, List.reverse_append, List.reverse_reverse]
  gives_up overflows overflow := by
    have laterOverflows := Found.after_eq_overflows_iff.mp overflows
    have trailOverflow : ∀ position ∈ next.trail, position.Finds meaning width .overflows := by
      rw [trailEq]
      refine List.forall_mem_cons.mpr ⟨?_, overflow⟩
      rw [← overflows]
      exact finds
    obtain ⟨last, reaches, backtracks, lastChoices, lastOverflow, adds⟩ :=
      achieves.gives_up laterOverflows trailOverflow
    exact ⟨last, .head running reaches, backtracks, lastChoices.trans choicesEq, lastOverflow,
      memoryEq ▸ adds⟩

/-- The flat member of a choice settles the search. -/
theorem Achieves.of_flat {attempt : Probe σ}
    (running : probe.step host width = .running attempt) (itemsEq : attempt.items = probe.items)
    (memoryEq : attempt.store.memory = probe.store.memory)
    (achieves : attempt.Achieves host meaning width found) (settled : found ≠ .overflows) :
    probe.Achieves host meaning width found where
  halts _ := by
    obtain ⟨verdict, halts, foundEq, adds⟩ := achieves.halts settled
    exact ⟨verdict, halts.head running, itemsEq ▸ foundEq, memoryEq ▸ adds⟩
  gives_up overflows := absurd overflows settled

/-- A probe that gives up the path since its last open choice comes back to this choice, for the
broken member.  The positions passed on the way are remembered. -/
theorem Achieves.exists_resumed {choice : Choice} {earlier : List Choice}
    (achieves : probe.Achieves host meaning width .overflows) (trailEq : probe.trail = [])
    (choicesEq : probe.choices = choice :: earlier) :
    ∃ store, Reaches (step host width) probe
        ⟨choice.items, choice.alternative, choice.trail, earlier, store⟩ ∧
      Memory.OnlyAdds meaning width probe.store.memory store.memory := by
  obtain ⟨last, reaches, backtracks, lastChoices, overflow, adds⟩ :=
    achieves.gives_up rfl (by simp [trailEq])
  rw [backtrack_of_cons (lastChoices.trans choicesEq)] at backtracks
  exact ⟨last.abandoned, reaches.trans (.head backtracks (.refl _)),
    adds.trans (Memory.onlyAdds_insertAll overflow)⟩

/-- The flat member of a choice exceeds the width, so the search goes on with the broken member and
the trail from before the choice. -/
theorem Achieves.of_broken {attempt : Probe σ} {alternative : Position}
    (running : probe.step host width = .running attempt) (trailEq : attempt.trail = [])
    (choicesEq : attempt.choices =
      ⟨probe.items, probe.position :: probe.trail, alternative⟩ :: probe.choices)
    (memoryEq : attempt.store.memory = probe.store.memory)
    (finds : probe.position.Finds meaning width found)
    (flatAchieves : attempt.Achieves host meaning width .overflows)
    (brokenAchieves : ∀ store,
      Memory.OnlyAdds meaning width probe.store.memory store.memory →
      Achieves host meaning width
        ⟨probe.items, alternative, probe.position :: probe.trail, probe.choices, store⟩ found) :
    probe.Achieves host meaning width found := by
  obtain ⟨store, reaches, added⟩ := flatAchieves.exists_resumed trailEq choicesEq
  rw [memoryEq] at added
  have resumes := Reaches.head running reaches
  have achieves := brokenAchieves store added
  constructor
  · intro settled
    obtain ⟨verdict, halts, foundEq, laterAdds⟩ := achieves.halts settled
    exact ⟨verdict, halts.of_reaches resumes, foundEq, added.trans laterAdds⟩
  · intro overflows overflow
    have trailOverflow : ∀ position ∈ probe.position :: probe.trail,
        position.Finds meaning width .overflows :=
      List.forall_mem_cons.mpr ⟨overflows ▸ finds, overflow⟩
    obtain ⟨final, finalReaches, finalBacktracks, finalChoices, finalOverflow, laterAdds⟩ :=
      achieves.gives_up overflows trailOverflow
    exact ⟨final, resumes.trans finalReaches, finalBacktracks, finalChoices, finalOverflow,
      added.trans laterAdds⟩

/-- What remains to be looked at where a search does not end at once: a step that makes the move of
the first obligation.  A remembered position is given up instead, and rightly so. -/
theorem achieves_of_follow (follows : host.Follows meaning domain) {part : Obligation}
    {parts : List Obligation} {outcome : Except Error Move}
    (search : Search meaning width probe.position.column (part :: parts) found)
    (within : probe.position.column ≤ width)
    (partsEq : probe.position.work.obligations = part :: parts) (inside : domain part.value)
    (move : part.answer meaning probe.position.column = outcome)
    (reliable : probe.store.memory.Reliable meaning width)
    (achieves : probe.position.Finds meaning width found → ∀ rest state,
      Work.obligations rest = parts →
      probe.step host width = probe.follow part.indent rest state outcome →
      probe.Achieves host meaning width found) :
    probe.Achieves host meaning width found := by
  have finds : probe.position.Finds meaning width found := by
    rw [Position.Finds, partsEq]
    exact search
  by_cases remembered : probe.position ∈ probe.store.memory
  · rw [reliable probe.position remembered found finds]
    exact achieves_of_backtrack (step_of_remembered remembered)
  · obtain ⟨rest, state, restEq, stepEq⟩ :=
      step_eq_follow follows within partsEq inside move remembered
    exact achieves finds rest state restEq stepEq

/-- A probe whose memory is reliable achieves what the search from its position finds. -/
theorem achieves_of_search (follows : host.Follows meaning domain) {column : Int}
    {parts : List Obligation} (search : Search meaning width column parts found)
    (inside : ∀ part ∈ parts, domain part.value) (columnEq : probe.position.column = column)
    (partsEq : probe.position.work.obligations = parts)
    (reliable : probe.store.memory.Reliable meaning width) :
    probe.Achieves host meaning width found := by
  induction search generalizing probe with
  | beyond exceeds => exact achieves_of_backtrack (step_of_beyond (columnEq ▸ exceeds))
  | done within =>
      have workEq : probe.position.work = [] := List.map_eq_nil_iff.mp partsEq
      refine achieves_of_halted (step_of_nil (columnEq ▸ within) workEq) ?_ rfl (by simp)
      simp [Verdict.found, Found.after, workEq, columnEq, Work.obligations]
  | emit within move later inductionHypothesis =>
      subst columnEq
      obtain ⟨partInside, restInside⟩ := List.forall_mem_cons.mp inside
      apply achieves_of_follow follows (.emit within move later) within partsEq partInside move
        reliable
      intro finds rest state restEq stepEq
      exact .of_step stepEq rfl rfl rfl rfl finds
        (inductionHypothesis restInside rfl restEq reliable)
  | newline within move =>
      subst columnEq
      obtain ⟨partInside, -⟩ := List.forall_mem_cons.mp inside
      apply achieves_of_follow follows (.newline within move) within partsEq partInside move
        reliable
      intro _ rest state restEq stepEq
      exact achieves_of_halted stepEq (by simp [Verdict.found, Found.after, restEq]) rfl (by simp)
  | @replace column part rest parts found within move later inductionHypothesis =>
      subst columnEq
      obtain ⟨partInside, -⟩ := List.forall_mem_cons.mp inside
      apply achieves_of_follow follows (.replace within move later) within partsEq partInside move
        reliable
      intro finds work state workEq stepEq
      have nextEq : (Work.push probe.store.fresh parts work).obligations = parts ++ rest := by
        rw [Work.obligations_push, workEq]
      rw [← Found.after_nil found] at finds ⊢
      exact .of_step stepEq rfl rfl rfl rfl finds
        (inductionHypothesis (follows.replace inside move) rfl nextEq reliable)
  | @flat column part rest flat broken found within move flatFound settled inductionHypothesis =>
      subst columnEq
      obtain ⟨partInside, -⟩ := List.forall_mem_cons.mp inside
      apply achieves_of_follow follows (.flat within move flatFound settled) within partsEq
        partInside move reliable
      intro _ work state workEq stepEq
      have flatEq : (Work.push (probe.store.fresh + 1) [⟨part.indent, flat⟩] work).obligations =
          ⟨part.indent, flat⟩ :: rest := by
        rw [Work.obligations_push_singleton, workEq]
      exact .of_flat stepEq rfl rfl
        (inductionHypothesis (follows.flat inside move _) rfl flatEq reliable) settled
  | @broken column part rest flat broken found within move flatFound brokenFound flatHypothesis
      brokenHypothesis =>
      subst columnEq
      obtain ⟨partInside, -⟩ := List.forall_mem_cons.mp inside
      apply achieves_of_follow follows (.broken within move flatFound brokenFound) within partsEq
        partInside move reliable
      intro finds work state workEq stepEq
      have flatEq : (Work.push (probe.store.fresh + 1) [⟨part.indent, flat⟩] work).obligations =
          ⟨part.indent, flat⟩ :: rest := by
        rw [Work.obligations_push_singleton, workEq]
      have brokenEq : (Work.push probe.store.fresh [⟨part.indent, broken⟩] work).obligations =
          ⟨part.indent, broken⟩ :: rest := by
        rw [Work.obligations_push_singleton, workEq]
      apply Achieves.of_broken stepEq rfl rfl rfl finds
      · exact flatHypothesis (follows.flat inside move _) rfl flatEq reliable
      · intro store adds
        exact brokenHypothesis (follows.broken inside move _) rfl brokenEq
          (reliable.of_onlyAdds adds)
  | fails within move =>
      subst columnEq
      obtain ⟨partInside, -⟩ := List.forall_mem_cons.mp inside
      apply achieves_of_follow follows (.fails within move) within partsEq partInside move reliable
      intro _ rest state restEq stepEq
      exact achieves_of_halted stepEq rfl rfl (by simp)

/-- A probe ends with the verdict that a search from its first position finds. -/
theorem start_halts (follows : host.Follows meaning domain) (position : Position) (store : Store σ)
    (finds : position.Finds meaning width found)
    (inside : ∀ part ∈ position.work.obligations, domain part.value)
    (reliable : store.memory.Reliable meaning width) :
    ∃ verdict, Halts (step host width) (start position store) verdict ∧ verdict.found = found ∧
      Memory.OnlyAdds meaning width store.memory verdict.store.memory := by
  have achieves : (start position store).Achieves host meaning width found :=
    achieves_of_search follows finds inside rfl rfl reliable
  by_cases overflows : found = .overflows
  · obtain ⟨last, reaches, backtracks, choicesEq, overflow, adds⟩ :=
      achieves.gives_up overflows (by simp [start])
    rw [backtrack_of_nil choicesEq] at backtracks
    exact ⟨.overflows last.abandoned, .of_reaches reaches (.of_step backtracks), overflows.symm,
      adds.trans (Memory.onlyAdds_insertAll overflow)⟩
  · obtain ⟨verdict, halts, foundEq, adds⟩ := achieves.halts overflows
    exact ⟨verdict, halts, foundEq.trans (Found.after_nil found), adds⟩

/-! ## Memory over time -/

/-- The memory after a step. -/
def memoryAfter : Progress (Probe σ) (Verdict σ) → Memory
  | .running probe => probe.store.memory
  | .halted verdict => verdict.store.memory

theorem memoryAfter_backtrack (probe : Probe σ) :
    memoryAfter probe.backtrack = probe.store.memory.insertAll probe.trail := by
  rcases probe with ⟨items, position, trail, _ | ⟨choice, earlier⟩, store⟩ <;> rfl

/-- Nothing is forgotten by a step. -/
theorem remembered_after_step (host : Host σ) (width : Int) {position : Position}
    (remembered : position ∈ probe.store.memory) :
    position ∈ memoryAfter (probe.step host width) := by
  have backtracked : position ∈ memoryAfter probe.backtrack := by
    rw [memoryAfter_backtrack]
    exact Memory.mem_insertAll_of_mem remembered
  cases probe.turn host width with
  | beyond exceeds => rwa [step_of_beyond exceeds]
  | remembered known => rwa [step_of_remembered known]
  | done within workEq =>
      rw [step_of_nil within workEq]
      exact remembered
  | move _ cell rest state _ stepEq =>
      rw [stepEq]
      rcases (cell.obligation.move host probe.position.column probe.store.state).1
        with cause | (_ | _ | _ | _) <;> exact remembered

/-- Nothing is forgotten until the end. -/
theorem remembered_of_halts {verdict : Verdict σ} {position : Position}
    (halts : Halts (step host width) probe verdict) (remembered : position ∈ probe.store.memory) :
    position ∈ verdict.store.memory := by
  obtain ⟨last, reaches, ends⟩ := halts
  induction reaches using Relation.ReflTransGen.head_induction_on with
  | refl =>
      have after := remembered_after_step host width remembered
      rwa [ends] at after
  | head first _ inductionHypothesis =>
      have after := remembered_after_step host width remembered
      rw [first] at after
      exact inductionHypothesis after

end DocLayout.Probe
