import DocLayout.Proofs.Layout.Walk

/-!
# All that a walk does

With pure callbacks a walk does nothing but take its course.  A probe that ends has found what a
search finds, and a walk has reported the events of a stretch, wherever it is stopped; so a walk
ends exactly if there is a course, and begins with some events exactly if there is a stretch with
them.  Deferral may be endless: then a probe may never end, and a walk may report events for ever.
-/

namespace DocLayout

open Progress

variable {σ : Type} {host : Host σ} {meaning : Meaning} {width : Int}

/-! ## Probes that end -/

namespace Probe

variable {probe : Probe σ} {verdict : Verdict σ}

/-- If a search with the flat member in front ends and, where this overflows, one with the broken
member ends as well, then the search from the choice ends. -/
theorem exists_search_of_choose {column : Int} {part : Obligation} {rest : List Obligation}
    {flat broken : Value} {flatFound : Found} (within : column ≤ width)
    (move : part.answer meaning column = .ok (.choose flat broken))
    (flatSearch : Search meaning width column (⟨part.indent, flat⟩ :: rest) flatFound)
    (brokenSearch : flatFound = .overflows →
      ∃ found, Search meaning width column (⟨part.indent, broken⟩ :: rest) found) :
    ∃ found, Search meaning width column (part :: rest) found := by
  by_cases overflows : flatFound = .overflows
  · obtain ⟨found, search⟩ := brokenSearch overflows
    subst overflows
    exact ⟨found, .broken within move flatSearch search⟩
  · exact ⟨flatFound, .flat within move flatSearch overflows⟩

/-- A probe that ends, with a memory of positions that overflow, has something to find. -/
theorem exists_finds_of_iterate (realizes : host.Realizes meaning) {bound : Nat}
    (halts : iterate (step host width) bound probe = .halted verdict)
    (adds : Memory.OnlyAdds meaning width .empty probe.store.memory) :
    ∃ found, probe.position.Finds meaning width found := by
  induction bound using Nat.strongRecOn generalizing probe with
  | ind bound inductionHypothesis =>
      cases probe.turn host width with
      | beyond exceeds => exact ⟨.overflows, .beyond exceeds⟩
      | remembered known => exact ⟨.overflows, adds.finds_overflows known⟩
      | done within workEq =>
          have partsEq : probe.position.work.obligations = [] := congrArg Work.obligations workEq
          simp only [Position.Finds, partsEq]
          exact ⟨_, .done within⟩
      | move within cell rest state workEq stepEq =>
          have partsEq : probe.position.work.obligations =
              cell.obligation :: Work.obligations rest := congrArg Work.obligations workEq
          simp only [Position.Finds, partsEq]
          rw [realizes.move_eq] at stepEq
          cases answer : cell.obligation.answer meaning probe.position.column with
          | error cause => exact ⟨_, .fails within answer⟩
          | ok move =>
              rw [answer] at stepEq
              cases move with
              | emit fragment =>
                  obtain ⟨fewer, less, later⟩ := exists_iterate_of_running stepEq halts
                  obtain ⟨found, search⟩ := inductionHypothesis fewer less later adds
                  exact ⟨_, .emit within answer search⟩
              | newline => exact ⟨_, .newline within answer⟩
              | replace parts =>
                  obtain ⟨fewer, less, later⟩ := exists_iterate_of_running stepEq halts
                  obtain ⟨found, search⟩ := inductionHypothesis fewer less later adds
                  rw [Position.Finds, Work.obligations_push] at search
                  exact ⟨_, .replace within answer search⟩
              | choose flat broken =>
                  obtain ⟨fewer, less, later⟩ := exists_iterate_of_running stepEq halts
                  obtain ⟨found, finds⟩ := inductionHypothesis fewer less later adds
                  have achieves := achieves_of_search realizes.follows finds
                    (fun _ _ => trivial) rfl rfl (Memory.reliable_empty.of_onlyAdds adds)
                  rw [Position.Finds, Work.obligations_push_singleton] at finds
                  apply exists_search_of_choose within answer finds
                  rintro rfl
                  -- The probe comes back to the choice, and goes on with the broken member.
                  obtain ⟨store, reaches, storeAdds⟩ := achieves.exists_resumed rfl rfl
                  obtain ⟨fewest, le, brokenHalts⟩ := reaches.exists_iterate later
                  obtain ⟨brokenFound, brokenFinds⟩ := inductionHypothesis fewest
                    (Nat.lt_of_le_of_lt le less) brokenHalts (adds.trans storeAdds)
                  rw [Position.Finds, Work.obligations_push_singleton] at brokenFinds
                  exact ⟨brokenFound, brokenFinds⟩

/-- A probe that ends has found what the search from its first position finds. -/
theorem finds_of_halts (realizes : host.Realizes meaning) {position : Position} {store : Store σ}
    (adds : Memory.OnlyAdds meaning width .empty store.memory)
    (halts : Halts (step host width) (start position store) verdict) :
    position.Finds meaning width verdict.found ∧
      Memory.OnlyAdds meaning width .empty verdict.store.memory := by
  obtain ⟨bound, iterates⟩ := halts_iff_exists_iterate.mp halts
  obtain ⟨found, finds⟩ := exists_finds_of_iterate realizes iterates adds
  obtain ⟨other, otherHalts, foundEq, laterAdds⟩ := start_halts realizes.follows position store
    finds (fun _ _ => trivial) (Memory.reliable_empty.of_onlyAdds adds)
  obtain rfl := halts.unique otherHalts
  exact ⟨foundEq ▸ finds, adds.trans laterAdds⟩

end Probe

/-! ## Walks -/

namespace Walk

/-- A walk is at a column with obligations: it is about to make the move of the first one, or it
waits for the probe on this choice.  All that is remembered overflows. -/
inductive Stands (host : Host σ) (meaning : Meaning) (width : Int) :
    Walk σ → Int → List Obligation → Prop where
  | walking {position : Position} {store : Store σ}
      (adds : Memory.OnlyAdds meaning width .empty store.memory) :
      Stands host meaning width (.walking position store) position.column
        position.work.obligations
  | probing (position : Position) (store : Store σ) {part : Obligation} {flat broken : Value}
      {rest : Work} {probe : Probe σ}
      (move : part.answer meaning position.column = .ok (.choose flat broken))
      (partsEq : position.work.obligations = ⟨part.indent, flat⟩ :: rest.obligations)
      (adds : Memory.OnlyAdds meaning width .empty store.memory)
      (reaches : Reaches (Probe.step host width) (Probe.start position store) probe) :
      Stands host meaning width (.probing position.column ⟨part.indent, broken⟩ rest probe)
        position.column (part :: rest.obligations)

variable {walk next last : Walk σ} {column : Int} {parts : List Obligation} {events : List Event}
  {ending : Option Error} {store : Store σ}

theorem Stands.of_walking {position : Position}
    (adds : Memory.OnlyAdds meaning width .empty store.memory) (columnEq : position.column = column)
    (partsEq : position.work.obligations = parts) :
    Stands host meaning width (.walking position store) column parts := by
  subst columnEq
  subst partsEq
  exact .walking adds

/-- A move of the first obligation goes along a stretch. -/
theorem Stands.of_follow {position : Position} {cell : Cell} {rest : Work} {state : σ}
    {outcome : Except Error Move} (adds : Memory.OnlyAdds meaning width .empty store.memory)
    (answer : cell.obligation.answer meaning position.column = outcome)
    (stepEq : follow position.column cell.obligation.indent rest store state outcome =
      .next events next) :
    ∃ later remaining, Stretch meaning width position.column
        (cell.obligation :: rest.obligations) events later remaining ∧
      next.Stands host meaning width later remaining := by
  cases outcome with
  | error cause => cases stepEq
  | ok move =>
      cases move with
      | emit fragment =>
          cases stepEq
          exact ⟨_, _, .emit answer (.refl _ _), .walking adds⟩
      | newline =>
          cases stepEq
          exact ⟨_, _, .newline answer (.refl _ _), .walking adds⟩
      | replace replacement =>
          cases stepEq
          exact ⟨_, _, .replace answer (.refl _ _),
            .of_walking adds rfl (Work.obligations_push ..)⟩
      | choose flat broken =>
          cases stepEq
          let attempt : Position :=
            ⟨position.column, Work.push store.fresh [⟨cell.obligation.indent, flat⟩] rest⟩
          have attemptEq : attempt.work.obligations =
              ⟨cell.obligation.indent, flat⟩ :: rest.obligations :=
            Work.obligations_push_singleton ..
          exact ⟨_, _, .refl _ _,
            .probing attempt { store with fresh := store.fresh + 1, state } answer attemptEq adds
              (.refl _)⟩

/-- A verdict on a choice goes along a stretch. -/
theorem Stands.of_conclude {part : Obligation} {flat broken : Value} {rest : Work}
    {verdict : Verdict σ} (move : part.answer meaning column = .ok (.choose flat broken))
    (search : Search meaning width column (⟨part.indent, flat⟩ :: rest.obligations) verdict.found)
    (adds : Memory.OnlyAdds meaning width .empty verdict.store.memory)
    (stepEq : conclude column ⟨part.indent, broken⟩ rest verdict = .next events next) :
    ∃ later remaining, Stretch meaning width column (part :: rest.obligations) events later
        remaining ∧
      next.Stands host meaning width later remaining := by
  cases verdict with
  | fits items start kept =>
      cases stepEq
      have stretch := Stretch.flat move search (.refl _ _)
      rw [List.append_nil] at stretch
      exact ⟨_, _, stretch, .walking adds⟩
  | overflows kept =>
      cases stepEq
      exact ⟨_, _, .broken move search (.refl _ _),
        .of_walking adds rfl (Work.obligations_push_singleton ..)⟩
  | fails cause kept => cases stepEq

/-- A step goes along a stretch. -/
theorem Stands.of_step (realizes : host.Realizes meaning)
    (stands : walk.Stands host meaning width column parts)
    (stepEq : walk.step host width = .next events next) :
    ∃ later remaining, Stretch meaning width column parts events later remaining ∧
      next.Stands host meaning width later remaining := by
  cases stands with
  | @walking position store adds =>
      cases workEq : position.work with
      | nil => simp [step, workEq] at stepEq
      | cons cell rest =>
          obtain ⟨state, followEq⟩ := step_of_cons host width store workEq
          rw [followEq, realizes.move_eq] at stepEq
          exact of_follow adds rfl stepEq
  | @probing position store part flat broken rest probe move partsEq adds reaches =>
      cases probeStep : probe.step host width with
      | running later =>
          rw [step_of_running probeStep] at stepEq
          cases stepEq
          have laterReaches := reaches.trans (.head probeStep (.refl later))
          exact ⟨_, _, .refl _ _, .probing position store move partsEq adds laterReaches⟩
      | halted verdict =>
          rw [step_of_halted probeStep] at stepEq
          obtain ⟨finds, laterAdds⟩ :=
            Probe.finds_of_halts realizes adds ⟨probe, reaches, probeStep⟩
          rw [Position.Finds, partsEq] at finds
          exact of_conclude move finds laterAdds stepEq

/-- A walk ends where its course stops. -/
theorem Stands.stops (realizes : host.Realizes meaning)
    (stands : walk.Stands host meaning width column parts)
    (ends : walk.step host width = .ended ending store) :
    Stops meaning width column parts ending := by
  cases stands with
  | @walking position kept adds =>
      cases workEq : position.work with
      | nil =>
          have finished : step host width (.walking position kept) = .ended none kept := by
            rw [step, workEq]
            rfl
          obtain ⟨rfl, -⟩ := Outcome.ended_inj (finished.symm.trans ends)
          exact .done
      | cons cell rest =>
          obtain ⟨state, followEq⟩ := step_of_cons host width kept workEq
          change Stops meaning width position.column
            (cell.obligation :: Work.obligations rest) ending
          rw [followEq, realizes.move_eq] at ends
          cases answer : cell.obligation.answer meaning position.column with
          | error cause =>
              rw [answer] at ends
              have failed : follow position.column cell.obligation.indent rest kept state
                  (.error cause) = .ended (some cause) { kept with state } := rfl
              obtain ⟨rfl, -⟩ := Outcome.ended_inj (failed.symm.trans ends)
              exact .fails answer
          | ok move =>
              rw [answer] at ends
              cases move <;> exact absurd ends Outcome.next_ne_ended
  | @probing position kept part flat broken rest probe move partsEq adds reaches =>
      cases probeStep : probe.step host width with
      | running later =>
          rw [step_of_running probeStep] at ends
          exact absurd ends Outcome.next_ne_ended
      | halted verdict =>
          rw [step_of_halted probeStep] at ends
          obtain ⟨finds, -⟩ := Probe.finds_of_halts realizes adds ⟨probe, reaches, probeStep⟩
          rw [Position.Finds, partsEq] at finds
          cases verdict with
          | fits items start kept => exact absurd ends Outcome.next_ne_ended
          | overflows kept => exact absurd ends Outcome.next_ne_ended
          | fails cause final =>
              have failed : conclude position.column ⟨part.indent, broken⟩ rest
                  (.fails cause final) = .ended (some cause) final := rfl
              obtain ⟨rfl, -⟩ := Outcome.ended_inj (failed.symm.trans ends)
              exact .undecided move finds

/-- A run goes along a stretch. -/
theorem Stands.of_run (realizes : host.Realizes meaning)
    (run : Run (Walk.step host width) walk events last)
    (stands : walk.Stands host meaning width column parts) :
    ∃ later remaining, Stretch meaning width column parts events later remaining ∧
      last.Stands host meaning width later remaining := by
  induction run generalizing column parts with
  | refl => exact ⟨column, parts, .refl column parts, stands⟩
  | head first _ inductionHypothesis =>
      obtain ⟨middle, pending, stretch, middleStands⟩ := stands.of_step realizes first
      obtain ⟨later, remaining, rest, lastStands⟩ := inductionHypothesis middleStands
      exact ⟨later, remaining, stretch.trans rest, lastStands⟩

theorem stands_start (host : Host σ) (meaning : Meaning) (width column : Int)
    (parts : List Obligation) (state : σ) :
    (start column parts state).Stands host meaning width column parts :=
  .of_walking (.refl .empty) rfl (Work.obligations_ofList parts)

/-- A walk reports events and then comes to the end, or fails. -/
def Ends (host : Host σ) (width : Int) (walk : Walk σ) (events : List Event)
    (ending : Option Error) : Prop :=
  ∃ store, Yields (Walk.step host width) walk events ending store

/-- Events are the first ones that a walk reports, whether it ever ends or not. -/
def Begins (host : Host σ) (width : Int) (walk : Walk σ) (events : List Event) : Prop :=
  ∃ later last, Run (Walk.step host width) walk (events ++ later) last

/-- A walk goes along the stretches from where it starts. -/
theorem exists_run_of_stretch (realizes : host.Realizes meaning) {next : Int}
    {remaining : List Obligation}
    (stretch : Stretch meaning width column parts events next remaining) (state : σ) :
    ∃ last, Run (Walk.step host width) (start column parts state) events last := by
  let position : Position := ⟨column, Work.ofList parts⟩
  have reliable : (⟨.empty, parts.length, state⟩ : Store σ).memory.Reliable meaning width :=
    Memory.reliable_empty
  obtain ⟨last, store, run, -⟩ := arrives_of_stretch id realizes.follows
    (fun _ _ remembered => remembered) stretch (fun _ _ => trivial)
    (show position.column = column from rfl) (Work.obligations_ofList parts) reliable
  rw [stepWith_id] at run
  exact ⟨_, run⟩

/-- A walk ends exactly if there is a course, and as the course does. -/
theorem ends_iff_course (realizes : host.Realizes meaning) (column : Int)
    (parts : List Obligation) (state : σ) :
    (start column parts state).Ends host width events ending ↔
      Course meaning width column parts events ending := by
  constructor
  · rintro ⟨store, last, run, ends⟩
    have stands := stands_start host meaning width column parts state
    obtain ⟨next, remaining, stretch, lastStands⟩ := stands.of_run realizes run
    exact Course.iff_exists_stretch.mpr
      ⟨next, remaining, stretch, lastStands.stops realizes ends⟩
  · intro course
    let position : Position := ⟨column, Work.ofList parts⟩
    have reliable : (⟨.empty, parts.length, state⟩ : Store σ).memory.Reliable meaning width :=
      Memory.reliable_empty
    obtain ⟨final, yields, -⟩ := yields_of_course id realizes.follows
      (fun _ _ remembered => remembered) course (fun _ _ => trivial)
      (show position.column = column from rfl) (Work.obligations_ofList parts) reliable
    rw [stepWith_id] at yields
    exact ⟨final, yields⟩

/-- A walk begins with events exactly if there is a stretch that does. -/
theorem begins_iff_exists_stretch (realizes : host.Realizes meaning) (column : Int)
    (parts : List Obligation) (state : σ) :
    (start column parts state).Begins host width events ↔
      ∃ later next remaining, Stretch meaning width column parts (events ++ later) next
        remaining := by
  constructor
  · rintro ⟨later, last, run⟩
    have stands := stands_start host meaning width column parts state
    obtain ⟨next, remaining, stretch, -⟩ := stands.of_run realizes run
    exact ⟨later, next, remaining, stretch⟩
  · rintro ⟨later, next, remaining, stretch⟩
    obtain ⟨last, run⟩ := exists_run_of_stretch realizes stretch state
    exact ⟨later, last, run⟩

end Walk

end DocLayout
