import DocLayout.Proofs.Layout.Straight

/-!
# Layouts come to an end

A probe may lay out the same obligations many times, once for every choice that it goes back to, and
neither its work list nor its open choices get fewer with every step.  Still it ends, and so does
the walk, if every chain of deferred documents is finite.  The induction is on what is to be laid
out, with what comes behind it general: obligations terminate if walks from them end, and if probes
from them end that would end were their path given up.

Nothing is assumed of the width, of the column, of what is remembered, or of the labels of the work
list.
-/

namespace DocLayout

open Progress

variable {σ : Type}

/-- Every chain of deferred documents that a value gives rise to is finite, in whatever states the
host is called. -/
inductive Value.SettlesFor (host : Host σ) : Value → Prop where
  | blank (kept : Bool) : SettlesFor host (.doc (.blank kept))
  | text (fragment : Fragment) : SettlesFor host (.doc (.text fragment))
  | line : SettlesFor host (.doc .line)
  | unknown : SettlesFor host (.doc .unknown)
  | concat {left right : Doc} (leftSettles : SettlesFor host (.doc left))
      (rightSettles : SettlesFor host (.doc right)) : SettlesFor host (.doc (.concat left right))
  | nest (amount : Amount) {inner : Doc} (innerSettles : SettlesFor host (.doc inner)) :
      SettlesFor host (.doc (.nest amount inner))
  | union {flat broken : Object} (flatSettles : SettlesFor host flat.content)
      (brokenSettles : SettlesFor host broken.content) :
      SettlesFor host (.doc (.union flat broken))
  | nesting {callback : Object}
      (resultSettles : ∀ {argument state document},
        (callback.content.resolve host argument state).1 = .ok document →
          SettlesFor host (.doc document)) :
      SettlesFor host (.doc (.nesting callback))
  | column {callback : Object}
      (resultSettles : ∀ {argument state document},
        (callback.content.resolve host argument state).1 = .ok document →
          SettlesFor host (.doc document)) :
      SettlesFor host (.doc (.column callback))
  | other {value : Value} (notDoc : ∀ document, value ≠ .doc document) : SettlesFor host value

/-- A value without deferred documents.  The members of a choice may be any values. -/
inductive Value.Undeferred : Value → Prop where
  | blank (kept : Bool) : Undeferred (.doc (.blank kept))
  | text (fragment : Fragment) : Undeferred (.doc (.text fragment))
  | line : Undeferred (.doc .line)
  | unknown : Undeferred (.doc .unknown)
  | concat {left right : Doc} (leftUndeferred : Undeferred (.doc left))
      (rightUndeferred : Undeferred (.doc right)) : Undeferred (.doc (.concat left right))
  | nest (amount : Amount) {inner : Doc} (innerUndeferred : Undeferred (.doc inner)) :
      Undeferred (.doc (.nest amount inner))
  | union {flat broken : Object} (flatUndeferred : Undeferred flat.content)
      (brokenUndeferred : Undeferred broken.content) : Undeferred (.doc (.union flat broken))
  | other {value : Value} (notDoc : ∀ document, value ≠ .doc document) : Undeferred value

variable {host : Host σ} {width : Int} {value : Value}

theorem Value.Undeferred.settlesFor (undeferred : value.Undeferred) (host : Host σ) :
    value.SettlesFor host := by
  induction undeferred with
  | blank kept => exact .blank kept
  | text fragment => exact .text fragment
  | line => exact .line
  | unknown => exact .unknown
  | concat _ _ leftHypothesis rightHypothesis => exact .concat leftHypothesis rightHypothesis
  | nest amount _ inductionHypothesis => exact .nest amount inductionHypothesis
  | union _ _ flatHypothesis brokenHypothesis => exact .union flatHypothesis brokenHypothesis
  | other notDoc => exact .other notDoc

/-- With pure callbacks it does not matter in which states the host is called. -/
theorem Value.Settles.settlesFor {meaning : Meaning} (settles : value.Settles meaning)
    (realizes : host.Realizes meaning) : value.SettlesFor host := by
  induction settles with
  | blank kept => exact .blank kept
  | text fragment => exact .text fragment
  | line => exact .line
  | unknown => exact .unknown
  | concat _ _ leftHypothesis rightHypothesis => exact .concat leftHypothesis rightHypothesis
  | nest amount _ inductionHypothesis => exact .nest amount inductionHypothesis
  | union _ _ flatHypothesis brokenHypothesis => exact .union flatHypothesis brokenHypothesis
  | nesting _ inductionHypothesis =>
      refine .nesting fun {argument state document} gives => ?_
      rw [Value.resolve_gives realizes] at gives
      exact inductionHypothesis gives
  | column _ inductionHypothesis =>
      refine .column fun {argument state document} gives => ?_
      rw [Value.resolve_gives realizes] at gives
      exact inductionHypothesis gives
  | other notDoc => exact .other notDoc

theorem HostM.exists_of_fst_map {α β : Type} {computation : HostM σ α} {state : σ} {f : α → β}
    {result : β} (gives : ((f <$> computation) state).1 = .ok result) :
    ∃ value, (computation state).1 = .ok value ∧ f value = result := by
  simp only [Functor.map, ExceptT.map, ExceptT.mk, Bind.bind, StateT.bind] at gives
  rcases runEq : computation state with ⟨cause | value, later⟩
  · rw [runEq] at gives
    cases gives
  · rw [runEq] at gives
    exact ⟨value, rfl, Except.ok.inj gives⟩

/-! ## Machines that come to an end -/

/-- A walk comes to an end. -/
def Walk.Terminates (host : Host σ) (width : Int) (walk : Walk σ) : Prop :=
  ∃ events ending store, Yields (Walk.step host width) walk events ending store

/-- A probe comes to a verdict, and if it fits, then the walk from where it ends comes to an end. -/
def Probe.Terminates (host : Host σ) (width : Int) (probe : Probe σ) : Prop :=
  ∃ verdict, Halts (Probe.step host width) probe verdict ∧
    ∀ items rest store, verdict = .fits items rest store →
      (Walk.walking rest store).Terminates host width

/-- If a probe with given open choices gives up its path, then it terminates. -/
def Probe.MayGiveUp (host : Host σ) (width : Int) : List Choice → Prop
  | [] => True
  | choice :: earlier => ∀ store : Store σ,
      Terminates host width ⟨choice.items, choice.alternative, choice.trail, earlier, store⟩

theorem Walk.Terminates.of_run {walk next : Walk σ} {events : List Event}
    (run : Run (Walk.step host width) walk events next) (terminates : next.Terminates host width) :
    walk.Terminates host width := by
  obtain ⟨later, ending, store, yields⟩ := terminates
  exact ⟨events ++ later, ending, store, .of_run run yields⟩

namespace Probe

variable {probe next : Probe σ}

theorem Terminates.of_step (running : probe.step host width = .running next)
    (terminates : next.Terminates host width) : probe.Terminates host width := by
  obtain ⟨verdict, halts, fits⟩ := terminates
  exact ⟨verdict, halts.head running, fits⟩

theorem terminates_of_fits {items : List Item} {rest : Position} {store : Store σ}
    (halted : probe.step host width = .halted (.fits items rest store))
    (terminates : (Walk.walking rest store).Terminates host width) :
    probe.Terminates host width := by
  refine ⟨_, .of_step halted, ?_⟩
  rintro _ _ _ ⟨⟩
  exact terminates

theorem terminates_of_backtrack (backtracks : probe.step host width = probe.backtrack)
    (mayGiveUp : MayGiveUp host width probe.choices) : probe.Terminates host width := by
  cases choicesEq : probe.choices with
  | nil =>
      rw [backtrack_of_nil choicesEq] at backtracks
      exact ⟨_, .of_step backtracks, by simp⟩
  | cons choice earlier =>
      rw [backtrack_of_cons choicesEq] at backtracks
      rw [choicesEq] at mayGiveUp
      exact .of_step backtracks (mayGiveUp _)

end Probe

/-- A walk that waits for a probe comes to an end if it does so with the broken member. -/
theorem Walk.terminates_of_probing {column : Int} {broken : Obligation} {rest : Work}
    {probe : Probe σ} (terminates : probe.Terminates host width)
    (brokenTerminates : ∀ fresh store,
      (Walk.walking ⟨column, Work.push fresh [broken] rest⟩ store).Terminates host width) :
    (Walk.probing column broken rest probe).Terminates host width := by
  obtain ⟨verdict, ⟨last, reaches, halted⟩, fits⟩ := terminates
  have waits : Run (stepWith id host width) (.probing column broken rest probe) []
      (.probing column broken rest last) := run_of_reaches reaches
  rw [stepWith_id] at waits
  have concludes : step host width (.probing column broken rest last) =
      conclude column broken rest verdict := step_of_halted halted
  cases verdict with
  | fits items place store =>
      exact .of_run (waits.trans (.single concludes)) (fits items place store rfl)
  | overflows store =>
      exact .of_run (waits.trans (.single concludes)) (brokenTerminates _ _)
  | fails cause store => exact .of_run waits ⟨[], some cause, store, .of_step concludes⟩

/-! ## Obligations that come to an end -/

namespace Obligation

/-- Walks from obligations come to an end.  So do probes, if they would do so were their path given
up. -/
structure Terminate (host : Host σ) (width : Int) (parts : List Obligation) : Prop where
  walks : ∀ {position store}, position.work.obligations = parts →
    (Walk.walking position store).Terminates host width
  probes : ∀ {probe : Probe σ}, probe.position.work.obligations = parts →
    Probe.MayGiveUp host width probe.choices → probe.Terminates host width

theorem terminate_nil : Terminate host width [] where
  walks {position store} partsEq := by
    have workEq : position.work = [] := List.map_eq_nil_iff.mp partsEq
    refine ⟨[], none, store, .of_step ?_⟩
    rw [Walk.step, workEq]
    rfl
  probes {probe} partsEq mayGiveUp := by
    have workEq : probe.position.work = [] := List.map_eq_nil_iff.mp partsEq
    rcases Int.lt_or_le width probe.position.column with beyond | within
    · exact Probe.terminates_of_backtrack (Probe.step_of_beyond beyond) mayGiveUp
    · refine Probe.terminates_of_fits (Probe.step_of_nil within workEq)
        ⟨[], none, probe.store, .of_step ?_⟩
      rw [Walk.step, workEq]
      rfl

variable {part : Obligation} {parts rest : List Obligation}

/-- Obligations terminate if they do so after every move of the first one, whichever side a choice
is decided for. -/
theorem terminate_cons
    (later : ∀ {column state move}, (part.move host column state).1 = .ok move →
      ∀ side, Terminate host width (move.parts side part.indent ++ rest)) :
    Terminate host width (part :: rest) where
  walks {position store} partsEq := by
    obtain ⟨cell, work, workEq, rfl, rfl⟩ := List.map_eq_cons_iff.mp partsEq
    obtain ⟨state, stepEq⟩ := Walk.step_of_cons host width store workEq
    cases moves : (cell.obligation.move host position.column store.state).1 with
    | error cause =>
        rw [moves] at stepEq
        exact ⟨[], some cause, _, .of_step stepEq⟩
    | ok move =>
        rw [moves] at stepEq
        have terminate := later moves
        cases move with
        | emit fragment => exact .of_run (.single stepEq) ((terminate .flat).walks rfl)
        | newline => exact .of_run (.single stepEq) ((terminate .flat).walks rfl)
        | choose flat broken =>
            refine .of_run (.single stepEq) (Walk.terminates_of_probing ?_ ?_)
            · exact (terminate .flat).probes (Work.obligations_push_singleton ..) trivial
            · intro fresh kept
              exact (terminate .broken).walks (Work.obligations_push_singleton ..)
        | replace parts =>
            exact .of_run (.single stepEq) ((terminate .flat).walks (Work.obligations_push ..))
  probes {probe} partsEq mayGiveUp := by
    obtain ⟨cell, work, workEq, rfl, rfl⟩ := List.map_eq_cons_iff.mp partsEq
    cases probe.turn host width with
    | beyond exceeds =>
        exact Probe.terminates_of_backtrack (Probe.step_of_beyond exceeds) mayGiveUp
    | remembered known =>
        exact Probe.terminates_of_backtrack (Probe.step_of_remembered known) mayGiveUp
    | done _ workNil => simp [workEq] at workNil
    | move _ _ _ state sameWork stepEq =>
        cases workEq.symm.trans sameWork
        cases moves : (cell.obligation.move host probe.position.column probe.store.state).1 with
        | error cause =>
            rw [moves] at stepEq
            exact ⟨_, .of_step stepEq, by simp⟩
        | ok move =>
            rw [moves] at stepEq
            have terminate := later moves
            cases move with
            | emit fragment => exact .of_step stepEq ((terminate .flat).probes rfl mayGiveUp)
            | newline => exact Probe.terminates_of_fits stepEq ((terminate .flat).walks rfl)
            | choose flat broken =>
                -- The attempt with the flat member may give up, since the broken one terminates.
                refine .of_step stepEq
                  ((terminate .flat).probes (Work.obligations_push_singleton ..) fun store => ?_)
                exact (terminate .broken).probes (Work.obligations_push_singleton ..) mayGiveUp
            | replace parts =>
                exact .of_step stepEq
                  ((terminate .flat).probes (Work.obligations_push ..) mayGiveUp)

/-- A value whose deferral is finite may come in front. -/
theorem terminate_cons_of_settles (settles : value.SettlesFor host)
    (restTerminate : Terminate host width rest) (indent : Int) :
    Terminate host width (⟨indent, value⟩ :: rest) := by
  induction settles generalizing rest indent with
  | blank kept =>
      refine terminate_cons fun moves side => ?_
      cases moves
      exact restTerminate
  | text fragment =>
      refine terminate_cons fun moves side => ?_
      cases moves
      exact restTerminate
  | line =>
      refine terminate_cons fun moves side => ?_
      cases moves
      exact restTerminate
  | unknown => exact terminate_cons fun moves => nomatch moves
  | concat _ _ leftHypothesis rightHypothesis =>
      refine terminate_cons fun moves side => ?_
      cases moves
      exact leftHypothesis (rightHypothesis restTerminate indent) indent
  | nest amount _ inductionHypothesis =>
      refine terminate_cons fun moves side => ?_
      cases moves
      exact inductionHypothesis restTerminate _
  | union _ _ flatHypothesis brokenHypothesis =>
      refine terminate_cons fun moves side => ?_
      cases moves
      cases side with
      | flat => exact flatHypothesis restTerminate indent
      | broken => exact brokenHypothesis restTerminate indent
  | nesting _ inductionHypothesis =>
      refine terminate_cons fun moves side => ?_
      rw [move_nesting] at moves
      obtain ⟨document, gives, rfl⟩ := HostM.exists_of_fst_map moves
      exact inductionHypothesis gives restTerminate indent
  | column _ inductionHypothesis =>
      refine terminate_cons fun moves side => ?_
      rw [move_column] at moves
      obtain ⟨document, gives, rfl⟩ := HostM.exists_of_fst_map moves
      exact inductionHypothesis gives restTerminate indent
  | other notDoc =>
      refine terminate_cons fun moves => ?_
      rw [move_of_not_doc _ _ _ notDoc] at moves
      cases moves

theorem terminate_of_settles (settles : ∀ part ∈ parts, part.value.SettlesFor host) (width : Int) :
    Terminate host width parts := by
  induction parts with
  | nil => exact terminate_nil
  | cons part rest inductionHypothesis =>
      obtain ⟨partSettles, restSettle⟩ := List.forall_mem_cons.mp settles
      exact terminate_cons_of_settles partSettles (inductionHypothesis restSettle) part.indent

end Obligation

/-- A value with a choice whose members are no documents. -/
def Value.mismatched : Value :=
  .doc (.concat (.union ⟨.shared, .none⟩ ⟨.shared, .str ""⟩) .line)

theorem Value.mismatched_undeferred : mismatched.Undeferred :=
  .concat (.union (.other nofun) (.other nofun)) .line

/-- Probes and walks come to an end from every position whose values have no deferred documents, and
also from every one where each chain of deferred documents is finite.  This holds for every width,
for everything that may be remembered, and with every host: the probe ends within a bounded number
of steps, and the walk ends after finitely many events. -/
theorem layout_terminates (host : Host σ) (position : Position)
    (finite : (∀ part ∈ position.work.obligations, part.value.Undeferred) ∨
      ∀ part ∈ position.work.obligations, part.value.SettlesFor host)
    (width : Int) (store : Store σ) :
    (∃ bound verdict, (Probe.start position store).run host width bound = .halted verdict) ∧
      ∃ events ending final,
        Walk.Yields (Walk.step host width) (.walking position store) events ending final := by
  have settles : ∀ part ∈ position.work.obligations, part.value.SettlesFor host := by
    rcases finite with undeferred | settles
    · exact fun part member => (undeferred part member).settlesFor host
    · exact settles
  have terminate := Obligation.terminate_of_settles settles width
  constructor
  · have probeTerminates : (Probe.start position store).Terminates host width :=
      terminate.probes rfl trivial
    obtain ⟨verdict, halts, -⟩ := probeTerminates
    obtain ⟨bound, halted⟩ := halts_iff_exists_iterate.mp halts
    exact ⟨bound, verdict, halted⟩
  · exact terminate.walks rfl

/-- A choice between values that are no documents, with a memory that wrongly holds the position,
and deferred documents. -/
theorem mismatched_and_steps_terminate :
    let host := Meaning.steps.countingHost
    let position : Position := ⟨0, .ofList [⟨0, .mismatched⟩]⟩
    let store : Store Nat := ⟨.insert .empty position, 1, 0⟩
    let deferred : Position := ⟨0, .ofList Obligation.steps⟩
    (∀ part ∈ position.work.obligations, part.value.Undeferred) ∧
    (∃ bound verdict, (Probe.start position store).run host 80 bound = .halted verdict) ∧
    (∃ events ending final,
      Walk.Yields (Walk.step host 80) (.walking position store) events ending final) ∧
    (∀ part ∈ deferred.work.obligations, part.value.SettlesFor host) ∧
    (∃ bound verdict, (Probe.start deferred store).run host 80 bound = .halted verdict) ∧
    ∃ events ending final,
      Walk.Yields (Walk.step host 80) (.walking deferred store) events ending final := by
  intro host position store deferred
  have undeferred : ∀ part ∈ position.work.obligations, part.value.Undeferred :=
    List.forall_mem_singleton.mpr Value.mismatched_undeferred
  have settles : ∀ part ∈ deferred.work.obligations, part.value.SettlesFor host :=
    fun part member =>
      (Work.steps_settle part member).settlesFor Meaning.steps.realizes_countingHost
  obtain ⟨probeEnds, walkEnds⟩ := layout_terminates host position (.inl undeferred) 80 store
  obtain ⟨deferredEnds, deferredWalkEnds⟩ :=
    layout_terminates host deferred (.inr settles) 80 store
  exact ⟨undeferred, probeEnds, walkEnds, settles, deferredEnds, deferredWalkEnds⟩

end DocLayout
