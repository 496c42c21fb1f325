import DocLayout.Doc.Build
import DocLayout.Proofs.Layout.Reference
import DocLayout.Proofs.Layout.Substitute

/-!
# What is not looked at

A document that cannot be laid out stops a layout where it is met.  So as long as nothing has
failed, everything behind it has not been looked at, and anything may stand in its place: the run
over a work list with a blocked cell at its end, and the run over the same list with others in its
place, make the same steps.  They report the same events, and the host is called alike, whatever it
does.
-/

namespace DocLayout

open Progress

namespace Substitute

variable {substitute : Substitute} {position otherPosition : Position} {work other : Work}

/-! ## Probes -/

variable (substitute) {σ : Type}

/-- What is kept in two runs. -/
structure OnStore (store other : Store σ) : Prop where
  memory : substitute.OnMemory store.memory other.memory
  later : substitute.label < store.fresh
  fresh : other.fresh = substitute.relabel store.fresh
  state : other.state = store.state

/-- An open choice in two runs. -/
structure OnChoice (choice other : Choice) : Prop where
  items : other.items = choice.items
  trail : List.Forall₂ substitute.OnPassed choice.trail other.trail
  alternative : substitute.OnPosition choice.alternative other.alternative

/-- A probe in two runs. -/
structure OnProbe (probe other : Probe σ) : Prop where
  items : other.items = probe.items
  position : substitute.OnPosition probe.position other.position
  trail : List.Forall₂ substitute.OnPassed probe.trail other.trail
  choices : List.Forall₂ substitute.OnChoice probe.choices other.choices
  store : substitute.OnStore probe.store other.store

/-- A verdict in two runs, unless something failed. -/
inductive OnVerdict : Verdict σ → Verdict σ → Prop where
  | fits (items : List Item) {rest other : Position} {store otherStore : Store σ}
      (restOn : substitute.OnPosition rest other) (storeOn : substitute.OnStore store otherStore) :
      OnVerdict (.fits items rest store) (.fits items other otherStore)
  | overflows {store otherStore : Store σ} (storeOn : substitute.OnStore store otherStore) :
      OnVerdict (.overflows store) (.overflows otherStore)

/-- What a step of a probe leads to in two runs.  Nothing is known about the other run where the
first one fails. -/
inductive OnProgress : Progress (Probe σ) (Verdict σ) → Progress (Probe σ) (Verdict σ) → Prop where
  | running {probe other : Probe σ} (on : substitute.OnProbe probe other) :
      OnProgress (.running probe) (.running other)
  | halted {verdict other : Verdict σ} (on : substitute.OnVerdict verdict other) :
      OnProgress (.halted verdict) (.halted other)
  | fails (cause : Error) (store : Store σ) (other : Progress (Probe σ) (Verdict σ)) :
      OnProgress (.halted (.fails cause store)) other

variable {substitute} {host : Host σ} {width : Int} {probe otherProbe : Probe σ}
  {store otherStore : Store σ}

/-- Cells are made alike. -/
theorem OnStore.make (on : substitute.OnStore store otherStore) (count : Nat) (state : σ) :
    substitute.OnStore { store with fresh := store.fresh + count, state }
      { otherStore with fresh := otherStore.fresh + count, state } where
  memory := on.memory
  later := Nat.lt_of_lt_of_le on.later (Nat.le_add_right ..)
  fresh := by
    change otherStore.fresh + count = substitute.relabel (store.fresh + count)
    rw [on.fresh, relabel_add on.later]
  state := rfl

theorem OnWork.push_store (on : substitute.OnWork work other)
    (storeOn : substitute.OnStore store otherStore) (more : Nat) (parts : List Obligation) :
    substitute.OnWork (work.push (store.fresh + more) parts)
      (other.push (otherStore.fresh + more) parts) := by
  have later : substitute.label < store.fresh + more :=
    Nat.lt_of_lt_of_le storeOn.later (Nat.le_add_right ..)
  rw [storeOn.fresh, ← relabel_add storeOn.later]
  exact on.push_fresh later parts

theorem OnProbe.abandoned (on : substitute.OnProbe probe otherProbe) :
    substitute.OnStore probe.abandoned otherProbe.abandoned where
  memory := on.store.memory.insertAll on.trail
  later := on.store.later
  fresh := on.store.fresh
  state := on.store.state

theorem OnProbe.backtrack (on : substitute.OnProbe probe otherProbe) :
    substitute.OnProgress probe.backtrack otherProbe.backtrack := by
  have choicesOn := on.choices
  cases choicesEq : probe.choices with
  | nil =>
      rw [choicesEq] at choicesOn
      rw [Probe.backtrack_of_nil choicesEq,
        Probe.backtrack_of_nil (List.forall₂_nil_left_iff.mp choicesOn)]
      exact .halted (.overflows on.abandoned)
  | cons choice earlier =>
      rw [choicesEq] at choicesOn
      obtain ⟨otherChoice, otherEarlier, choiceOn, earlierOn, otherEq⟩ :=
        List.forall₂_cons_left_iff.mp choicesOn
      rw [Probe.backtrack_of_cons choicesEq, Probe.backtrack_of_cons otherEq]
      exact .running ⟨choiceOn.items, choiceOn.alternative, choiceOn.trail, earlierOn,
        on.abandoned⟩

/-- The move of a cell in front of the blocked one is made in both runs. -/
theorem OnProbe.follow (on : substitute.OnProbe probe otherProbe)
    (passed : substitute.OnPassed probe.position otherProbe.position)
    (following : substitute.OnWork work other) (indent : Int) (state : σ)
    (outcome : Except Error Move) :
    substitute.OnProgress (probe.follow indent work state outcome)
      (otherProbe.follow indent other state outcome) := by
  have trailOn := List.Forall₂.cons passed on.trail
  cases outcome with
  | error cause => exact .fails ..
  | ok move =>
      cases move with
      | emit fragment =>
          refine .running ⟨?_, ⟨?_, following⟩, trailOn, on.choices, on.store.make 0 state⟩
          · exact congrArg (.text fragment :: ·) on.items
          · exact congrArg (· + (fragment.width : Int)) on.position.column
      | newline =>
          simp only [Probe.follow, on.items]
          exact .halted (.fits _ ⟨rfl, following⟩ (on.store.make 0 state))
      | choose flat broken =>
          refine .running ⟨on.items, ⟨on.position.column, ?_⟩, .nil, .cons ?_ on.choices,
            on.store.make 2 state⟩
          · exact following.push_store on.store 1 _
          · exact ⟨on.items, trailOn, on.position.column, following.push_store on.store 0 _⟩
      | replace parts =>
          exact .running ⟨on.items, ⟨on.position.column, following.push_store on.store 0 parts⟩,
            trailOn, on.choices, on.store.make parts.length state⟩

/-- A position is the blocked one, or another cell is in front of it. -/
theorem OnPosition.blocked_or_passed (on : substitute.OnPosition position otherPosition) :
    position.work = [⟨substitute.label, .blocked⟩] ∨
      ∃ cell work other, position.work = cell :: work ∧
        otherPosition.work = substitute.carry cell :: other ∧ substitute.OnWork work other ∧
        substitute.OnPassed position otherPosition := by
  rcases position with ⟨column, work⟩
  rcases otherPosition with ⟨otherColumn, otherWork⟩
  obtain ⟨rfl, workOn⟩ := on
  cases workOn with
  | blocked => exact .inl rfl
  | cons different following =>
      exact .inr ⟨_, _, _, rfl, rfl, following, .intro _ different following⟩

/-- Two runs make the same steps, unless the first one fails. -/
theorem OnProbe.step (on : substitute.OnProbe probe otherProbe) (host : Host σ) (width : Int) :
    substitute.OnProgress (probe.step host width) (otherProbe.step host width) := by
  by_cases within : probe.position.column ≤ width
  · have otherWithin : otherProbe.position.column ≤ width := by rwa [on.position.column]
    rcases on.position.blocked_or_passed with
      workEq | ⟨cell, work, other, workEq, otherEq, following, passed⟩
    · -- The blocked cell is never remembered, so the first run fails here.
      have new : probe.position ∉ probe.store.memory := by
        intro known
        obtain ⟨cell, rest, knownEq, found⟩ := Memory.mem_iff.mp known
        rw [workEq] at knownEq
        cases knownEq
        rw [on.store.memory.blocked] at found
        cases found
      rw [Probe.step_of_new within workEq new, Probe.advance_eq_follow]
      exact .fails ..
    · by_cases known : probe.position ∈ probe.store.memory
      · have otherKnown := (on.store.memory.mem_iff passed).mp known
        rw [Probe.step_of_remembered known, Probe.step_of_remembered otherKnown]
        exact on.backtrack
      · have otherNew := fun otherKnown => known ((on.store.memory.mem_iff passed).mpr otherKnown)
        rw [Probe.step_of_new within workEq known, Probe.step_of_new otherWithin otherEq otherNew,
          Probe.advance_eq_follow, Probe.advance_eq_follow]
        simp only [carry, on.position.column, on.store.state]
        exact on.follow passed following ..
  · have exceeds : width < probe.position.column := Int.not_le.mp within
    have otherExceeds : width < otherProbe.position.column := by rwa [on.position.column]
    rw [Probe.step_of_beyond exceeds, Probe.step_of_beyond otherExceeds]
    exact on.backtrack

/-- A probe that ends without a failure ends alike in the other run. -/
theorem OnProbe.halts {verdict : Verdict σ} (on : substitute.OnProbe probe otherProbe)
    (halts : Halts (Probe.step host width) probe verdict) :
    (∃ cause store, verdict = .fails cause store) ∨
      ∃ other, Halts (Probe.step host width) otherProbe other ∧
        substitute.OnVerdict verdict other := by
  obtain ⟨last, reaches, ends⟩ := halts
  -- On the steps of the first run: each of them is made in the other run as well.
  induction reaches using Relation.ReflTransGen.head_induction_on generalizing otherProbe with
  | refl =>
      have stepOn := on.step host width
      rw [ends] at stepOn
      generalize otherEq : otherProbe.step host width = otherProgress at stepOn
      cases stepOn with
      | halted verdictOn => exact .inr ⟨_, .of_step otherEq, verdictOn⟩
      | fails cause store => exact .inl ⟨cause, store, rfl⟩
  | head first _ inductionHypothesis =>
      have stepOn := on.step host width
      rw [first] at stepOn
      generalize otherEq : otherProbe.step host width = otherProgress at stepOn
      cases stepOn with
      | running nextOn =>
          rcases inductionHypothesis nextOn with failed | ⟨other, otherHalts, verdictOn⟩
          · exact .inl failed
          · exact .inr ⟨other, .head otherEq otherHalts, verdictOn⟩

/-! ## Walks -/

variable (substitute)

/-- A walk in two runs. -/
inductive OnWalk : Walk σ → Walk σ → Prop where
  | walking {position other : Position} {store otherStore : Store σ}
      (positionOn : substitute.OnPosition position other)
      (storeOn : substitute.OnStore store otherStore) :
      OnWalk (.walking position store) (.walking other otherStore)
  | probing (column : Int) (broken : Obligation) {rest other : Work} {probe otherProbe : Probe σ}
      (restOn : substitute.OnWork rest other) (probeOn : substitute.OnProbe probe otherProbe) :
      OnWalk (.probing column broken rest probe) (.probing column broken other otherProbe)

variable {substitute} {walk next otherWalk : Walk σ} {events : List Event}

theorem OnWalk.state_eq (on : substitute.OnWalk walk otherWalk) : otherWalk.state = walk.state := by
  cases on with
  | walking _ storeOn => exact storeOn.state
  | probing _ _ _ probeOn => exact probeOn.store.state

/-- The move of a cell in front of the blocked one is made in both runs. -/
theorem OnWork.walk_follow (following : substitute.OnWork work other)
    (storeOn : substitute.OnStore store otherStore) {column indent : Int} {state : σ}
    {outcome : Except Error Move}
    (goesOn : Walk.follow column indent work store state outcome = .next events next) :
    ∃ otherNext,
      Walk.follow column indent other otherStore state outcome = .next events otherNext ∧
        substitute.OnWalk next otherNext := by
  cases outcome with
  | error cause => cases goesOn
  | ok move =>
      cases move with
      | emit fragment =>
          cases goesOn
          exact ⟨_, rfl, .walking ⟨rfl, following⟩ (storeOn.make 0 state)⟩
      | newline =>
          cases goesOn
          exact ⟨_, rfl, .walking ⟨rfl, following⟩ (storeOn.make 0 state)⟩
      | choose flat broken =>
          cases goesOn
          refine ⟨_, rfl, .probing column ⟨indent, broken⟩ following ?_⟩
          exact ⟨rfl, ⟨rfl, following.push_store storeOn 0 _⟩, .nil, .nil, storeOn.make 1 state⟩
      | replace parts =>
          cases goesOn
          exact ⟨_, rfl, .walking ⟨rfl, following.push_store storeOn 0 parts⟩
            (storeOn.make parts.length state)⟩

/-- What a walk goes on with, it goes on with in the other run. -/
theorem OnWalk.step (on : substitute.OnWalk walk otherWalk)
    (goesOn : walk.step host width = .next events next) :
    ∃ otherNext, otherWalk.step host width = .next events otherNext ∧
      substitute.OnWalk next otherNext := by
  cases on with
  | @walking position otherPosition store otherStore positionOn storeOn =>
      rcases positionOn.blocked_or_passed with
        workEq | ⟨cell, work, other, workEq, otherEq, following, -⟩
      · obtain ⟨state, stepEq⟩ := Walk.step_of_cons host width store workEq
        rw [stepEq] at goesOn
        cases goesOn
      · rw [Walk.step_eq_follow host width store workEq] at goesOn
        rw [Walk.step_eq_follow host width otherStore otherEq, positionOn.column, storeOn.state]
        exact following.walk_follow storeOn goesOn
  | @probing column broken rest other probe otherProbe restOn probeOn =>
      have stepOn := probeOn.step host width
      generalize progressEq : probe.step host width = progress at stepOn
      generalize otherEq : otherProbe.step host width = otherProgress at stepOn
      cases stepOn with
      | running nextOn =>
          rw [Walk.step_of_running progressEq] at goesOn
          cases goesOn
          exact ⟨_, Walk.step_of_running otherEq, .probing column broken restOn nextOn⟩
      | halted verdictOn =>
          rw [Walk.step_of_halted progressEq] at goesOn
          rw [Walk.step_of_halted otherEq]
          cases verdictOn with
          | fits items positionOn storeOn =>
              cases goesOn
              exact ⟨_, rfl, .walking positionOn storeOn⟩
          | @overflows store _ storeOn =>
              cases goesOn
              have brokenOn := restOn.push_store storeOn 0 [broken]
              rw [Walk.conclude, storeOn.state]
              exact ⟨_, rfl, .walking ⟨rfl, brokenOn⟩ (storeOn.make 1 store.state)⟩
      | fails =>
          rw [Walk.step_of_halted progressEq] at goesOn
          cases goesOn

/-- What a walk comes to, it comes to in the other run, with the same events. -/
theorem OnWalk.run {last : Walk σ} (on : substitute.OnWalk walk otherWalk)
    (run : Walk.Run (Walk.step host width) walk events last) :
    ∃ otherLast, Walk.Run (Walk.step host width) otherWalk events otherLast ∧
      substitute.OnWalk last otherLast := by
  induction run generalizing otherWalk with
  | refl => exact ⟨otherWalk, .refl otherWalk, on⟩
  | head first _ inductionHypothesis =>
      obtain ⟨otherNext, otherFirst, nextOn⟩ := on.step first
      obtain ⟨otherLast, rest, lastOn⟩ := inductionHypothesis nextOn
      exact ⟨otherLast, .head otherFirst rest, lastOn⟩

end Substitute

/-! ## Both runs from the first -/

/-- The probe from a column over obligations, with an empty memory. -/
def Probe.over {σ : Type} (column : Int) (parts : List Obligation) (state : σ) : Probe σ :=
  .start ⟨column, .ofList parts⟩ ⟨.empty, parts.length, state⟩

/-- A probe over obligations ends with what the search finds. -/
theorem Probe.over_halts {σ : Type} {host : Host σ} {meaning : Meaning} {width column : Int}
    {parts : List Obligation} {found : Found} (realizes : host.Realizes meaning)
    (search : Search meaning width column parts found) (state : σ) :
    ∃ verdict, Halts (Probe.step host width) (.over column parts state) verdict ∧
      verdict.found = found := by
  have finds : Position.Finds meaning width ⟨column, .ofList parts⟩ found :=
    Position.finds_of_search search rfl (Work.obligations_ofList parts)
  obtain ⟨verdict, halts, foundEq, -⟩ := Probe.start_halts realizes.follows _
    ⟨.empty, parts.length, state⟩ finds (fun _ _ => trivial) Memory.reliable_empty
  exact ⟨verdict, halts, foundEq⟩

namespace Substitute

/-- Obligations take the place of the blocked one behind others. -/
def behind (before tail : List Obligation) : Substitute :=
  ⟨before.length, Work.push before.length tail []⟩

variable {σ : Type} (before tail : List Obligation)

theorem onWork_behind :
    (behind before tail).OnWork (.ofList (before ++ [.blocked])) (.ofList (before ++ tail)) := by
  rw [Work.ofList, Work.ofList, Work.push_append, Work.push_append, Nat.zero_add]
  refine OnWork.push .blocked fun index less => ?_
  rw [Nat.zero_add]
  exact ⟨Nat.ne_of_lt less, relabel_of_lt less⟩

theorem onStore_behind (state : σ) :
    (behind before tail).OnStore ⟨.empty, (before ++ [Obligation.blocked]).length, state⟩
      ⟨.empty, (before ++ tail).length, state⟩ where
  memory := .empty
  later := by simp [behind]
  fresh := by
    rw [relabel, if_neg (by simp [behind])]
    simp [behind, Work.length_push]
  state := rfl

theorem onProbe_behind (column : Int) (state : σ) :
    (behind before tail).OnProbe (.over column (before ++ [.blocked]) state)
      (.over column (before ++ tail) state) where
  items := rfl
  position := ⟨rfl, onWork_behind before tail⟩
  trail := .nil
  choices := .nil
  store := onStore_behind before tail state

theorem onWalk_behind (column : Int) (state : σ) :
    (behind before tail).OnWalk (.start column (before ++ [.blocked]) state)
      (.start column (before ++ tail) state) :=
  .walking ⟨rfl, onWork_behind before tail⟩ (onStore_behind before tail state)

theorem OnWork.obligations_behind {work other : Work}
    (on : (behind before tail).OnWork work other) :
    ∃ remaining, work.obligations = remaining ++ [.blocked] ∧
      other.obligations = remaining ++ tail := by
  obtain ⟨remaining, workEq, otherEq⟩ := on.obligations_eq
  refine ⟨remaining, workEq, otherEq.trans ?_⟩
  rw [behind, Work.obligations_push]
  exact congrArg _ (List.append_nil tail)

end Substitute

variable {σ : Type}

/-- What cannot be laid out may stand for anything.  If a probe over obligations with a blocked one
behind them ends without a failure, then the probe over the same obligations with anything else
behind them ends in the same way.  All events that a walk reports before it comes to the blocked
obligation are the first ones of a walk with anything else behind.  In both cases the host is left
in the same state, so nothing in the place of the blocked obligation has called it. -/
theorem blocked_stands_for_anything (host : Host σ) (width column : Int)
    (before tail : List Obligation) (state : σ) :
    (∀ store,
      Halts (Probe.step host width) (.over column (before ++ [.blocked]) state)
        (.overflows store) →
      ∃ other,
        Halts (Probe.step host width) (.over column (before ++ tail) state) (.overflows other) ∧
        other.state = store.state) ∧
    (∀ items rest store,
      Halts (Probe.step host width) (.over column (before ++ [.blocked]) state)
        (.fits items rest store) →
      ∃ remaining other otherStore,
        rest.work.obligations = remaining ++ [.blocked] ∧
        Halts (Probe.step host width) (.over column (before ++ tail) state)
          (.fits items other otherStore) ∧
        other.column = rest.column ∧ other.work.obligations = remaining ++ tail ∧
        otherStore.state = store.state) ∧
    ∀ events walk,
      Walk.Run (Walk.step host width) (.start column (before ++ [.blocked]) state) events walk →
      ∃ other,
        Walk.Run (Walk.step host width) (.start column (before ++ tail) state) events other ∧
        other.state = walk.state := by
  have probeOn := Substitute.onProbe_behind before tail column state
  refine ⟨?_, ?_, ?_⟩
  · intro store halts
    rcases probeOn.halts halts with ⟨_, _, impossible⟩ | ⟨other, otherHalts, verdictOn⟩
    · cases impossible
    · cases verdictOn with
      | overflows storeOn => exact ⟨_, otherHalts, storeOn.state⟩
  · intro items rest store halts
    rcases probeOn.halts halts with ⟨_, _, impossible⟩ | ⟨other, otherHalts, verdictOn⟩
    · cases impossible
    · cases verdictOn with
      | fits _ restOn storeOn =>
          obtain ⟨remaining, workEq, otherEq⟩ := restOn.work.obligations_behind
          exact ⟨remaining, _, _, workEq, otherHalts, restOn.column, otherEq, storeOn.state⟩
  · intro events walk run
    obtain ⟨other, otherRun, walkOn⟩ :=
      (Substitute.onWalk_behind before tail column state).run run
    exact ⟨other, otherRun, walkOn.state_eq⟩

/-- Where a space exceeds the width, a probe ends before it comes to what is behind, and a walk
breaks a soft line first.  Neither depends on the column that stands behind. -/
theorem blocked_behind_softline :
    let host := Meaning.steps.countingHost
    let tail : List Obligation := [⟨0, .doc (.column ⟨.shared, .function (.custom 0)⟩)⟩]
    (∃ store other,
      Halts (Probe.step host 0) (.over 0 ([⟨0, .doc (.text .space)⟩] ++ [.blocked]) 0)
        (.overflows store) ∧
      Halts (Probe.step host 0) (.over 0 ([⟨0, .doc (.text .space)⟩] ++ tail) 0)
        (.overflows other)) ∧
    (∃ rest store remaining other otherStore,
      Halts (Probe.step host 0) (.over 0 ([⟨0, .doc .softline⟩] ++ [.blocked]) 0)
        (.fits [.line 0] rest store) ∧
      Halts (Probe.step host 0) (.over 0 ([⟨0, .doc .softline⟩] ++ tail) 0)
        (.fits [.line 0] other otherStore) ∧
      rest.work.obligations = remaining ++ [.blocked] ∧
      other.work.obligations = remaining ++ tail) ∧
    ∃ events walk other,
      Walk.Run (Walk.step host 0) (.start 0 ([⟨0, .doc .softline⟩] ++ [.blocked]) 0) events walk ∧
      Walk.Run (Walk.step host 0) (.start 0 ([⟨0, .doc .softline⟩] ++ tail) 0) events other ∧
      itemsOf events = [.line 0] := by
  intro host tail
  have realizes := Meaning.steps.realizes_countingHost
  have within : (0 : Int) ≤ 0 := Int.le_refl 0
  have exceeds (rest : List Obligation) :
      Search .steps 0 0 (⟨0, .doc (.text .space)⟩ :: rest) .overflows :=
    .emit within (Obligation.answer_text ..) (.beyond (by decide))
  obtain ⟨overflowing, -, -⟩ :=
    blocked_stands_for_anything host 0 0 [⟨0, .doc (.text .space)⟩] tail 0
  obtain ⟨-, fitting, running⟩ :=
    blocked_stands_for_anything host 0 0 [⟨0, .doc .softline⟩] tail 0
  refine ⟨?_, ?_, ?_⟩
  · obtain ⟨verdict, halts, foundEq⟩ := Probe.over_halts realizes (exceeds [.blocked]) 0
    cases verdict with
    | overflows store =>
        obtain ⟨other, otherHalts, -⟩ := overflowing store halts
        exact ⟨store, other, halts, otherHalts⟩
    | _ => cases foundEq
  · have search : Search .steps 0 0 [⟨0, .doc .softline⟩, .blocked]
        (.fits [.line 0] 0 [.blocked]) :=
      .broken within (Obligation.answer_union ..) (exceeds [.blocked])
        (.newline within (Obligation.answer_line ..))
    obtain ⟨verdict, halts, foundEq⟩ := Probe.over_halts realizes search 0
    cases verdict with
    | fits items rest store =>
        obtain ⟨rfl, -, -⟩ := Found.fits.inj foundEq
        obtain ⟨remaining, other, otherStore, restEq, otherHalts, -, otherEq, -⟩ :=
          fitting _ rest store halts
        exact ⟨rest, store, remaining, other, otherStore, halts, otherHalts, restEq, otherEq⟩
    | _ => cases foundEq
  · have prescribed : Prescribed .steps 0 0 [⟨0, .doc .softline⟩, .blocked]
        ⟨[.line 0], some (.notDoc (.doc .unknown))⟩ :=
      .broken (.text .unknown) rfl (.line .unknown)
    obtain ⟨events, _, ⟨walk, run, -⟩, itemsEq⟩ :
        (Walk.start 0 [⟨0, .doc .softline⟩, .blocked] 0).Emits host 0 _ :=
      prescribed.start_emits realizes 0
    obtain ⟨other, otherRun, -⟩ := running events walk run
    exact ⟨events, walk, other, run, otherRun, itemsEq⟩

end DocLayout
