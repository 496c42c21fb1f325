import DocLayout.Proofs.Doc.Composed
import DocLayout.Proofs.Layout.Path
import DocLayout.Proofs.Layout.Reading

/-!
# Composed documents can be laid out

A set of values is safe for a host if their moves succeed, in every state, and lead to values of the
set.  Then no step from there fails: neither one of a walk, nor one of a probe, also where the probe
is given up later.  This needs neither that callbacks are pure nor that deferral comes to an end.

What composed documents give rise to is safe for a host that supplies text and composed documents:
these documents, and the alignments that wait for an indentation.
-/

namespace DocLayout

variable {σ : Type} {host : Host σ} {domain : Value → Prop} {column : Int}

/-- The moves of the values of a set succeed, in every state, and lead to values of the set. -/
def Host.Safe (host : Host σ) (domain : Value → Prop) : Prop :=
  ∀ {value : Value}, domain value → ∀ (indent column : Int) (state : σ),
    ∃ move, (Obligation.move host column ⟨indent, value⟩ state).1 = .ok move ∧
      ∀ member ∈ move.members, domain member

namespace Host.Safe

variable {part : Obligation} {move : Move}

theorem inside_of_mayMove (safe : host.Safe domain) (inside : domain part.value)
    (mayMove : part.MayMove host column move) : ∀ member ∈ move.members, domain member := by
  obtain ⟨state, moveEq⟩ := mayMove
  obtain ⟨sameMove, sameEq, membersInside⟩ := safe inside part.indent column state
  cases moveEq.symm.trans sameEq
  exact membersInside

/-- A path from obligations of a safe set leads to obligations of the set. -/
theorem inside_of_path (safe : host.Safe domain) {next : Int} {parts remaining : List Obligation}
    {items : List Item} (path : Path host column parts items next remaining)
    (inside : ∀ part ∈ parts, domain part.value) : ∀ part ∈ remaining, domain part.value := by
  induction path with
  | refl => exact inside
  | emit _ _ inductionHypothesis => exact inductionHypothesis (List.forall_mem_cons.mp inside).2
  | newline _ _ inductionHypothesis => exact inductionHypothesis (List.forall_mem_cons.mp inside).2
  | replace move _ inductionHypothesis =>
      obtain ⟨partInside, restInside⟩ := List.forall_mem_cons.mp inside
      have membersInside := safe.inside_of_mayMove partInside move
      refine inductionHypothesis (List.forall_mem_append.mpr ⟨fun part new => ?_, restInside⟩)
      exact membersInside part.value (List.mem_map_of_mem new)
  | flat move _ inductionHypothesis =>
      obtain ⟨partInside, restInside⟩ := List.forall_mem_cons.mp inside
      have membersInside := safe.inside_of_mayMove partInside move
      exact inductionHypothesis (List.forall_mem_cons.mpr
        ⟨membersInside _ List.mem_cons_self, restInside⟩)
  | broken move _ inductionHypothesis =>
      obtain ⟨partInside, restInside⟩ := List.forall_mem_cons.mp inside
      have membersInside := safe.inside_of_mayMove partInside move
      exact inductionHypothesis (List.forall_mem_cons.mpr
        ⟨membersInside _ (List.mem_cons_of_mem _ List.mem_cons_self), restInside⟩)

end Host.Safe

/-! ## Steps that do not fail -/

namespace Probe

variable {width : Int} {probe : Probe σ} {parts : List Obligation} {earlier : List Item}
  {cause : Error} {store : Store σ}

theorem backtrack_ne_fails : probe.backtrack ≠ .halted (.fails cause store) := by
  cases choicesEq : probe.choices with
  | nil => simp [backtrack_of_nil choicesEq]
  | cons choice others => simp [backtrack_of_cons choicesEq]

theorem follow_ok_ne_fails {indent : Int} {rest : Work} {state : σ} {move : Move} :
    probe.follow indent rest state (.ok move) ≠ .halted (.fails cause store) := by
  cases move <;> simp [follow]

/-- No step of a probe fails on its paths from obligations of a safe set. -/
theorem Explores.step_ne_fails (explores : probe.Explores host column parts earlier)
    (safe : host.Safe domain) (inside : ∀ part ∈ parts, domain part.value) :
    probe.step host width ≠ .halted (.fails cause store) := by
  cases probe.turn host width with
  | beyond exceeds => exact step_of_beyond exceeds ▸ backtrack_ne_fails
  | remembered known => exact step_of_remembered known ▸ backtrack_ne_fails
  | done within workEq => simp [step_of_nil within workEq]
  | move within cell rest state workEq stepEq =>
      have hereInside := safe.inside_of_path explores.here.path inside
      rw [workEq] at hereInside
      obtain ⟨move, moveEq, -⟩ := safe (hereInside cell.obligation List.mem_cons_self)
        cell.obligation.indent probe.position.column probe.store.state
      rw [stepEq, moveEq]
      exact follow_ok_ne_fails

end Probe

namespace Walk

variable {width : Int} {walk : Walk σ} {parts : List Obligation} {items : List Item}
  {cause : Error} {store : Store σ}

theorem follow_ok_ne_failed {indent : Int} {rest : Work} {store kept : Store σ} {state : σ}
    {move : Move} : follow column indent rest store state (.ok move) ≠ .failed cause kept := by
  cases move <;> simp [follow]

/-- No step of a walk fails on its path from obligations of a safe set. -/
theorem OnPath.step_ne_failed (onPath : walk.OnPath host column parts items)
    (safe : host.Safe domain) (inside : ∀ part ∈ parts, domain part.value) :
    walk.step host width ≠ .failed cause store := by
  cases walk with
  | walking position kept =>
      cases workEq : position.work with
      | nil => simp [step, workEq]
      | cons cell rest =>
          have hereInside := safe.inside_of_path onPath inside
          rw [workEq] at hereInside
          obtain ⟨state, stepEq⟩ := step_of_cons host width kept workEq
          obtain ⟨move, moveEq, -⟩ := safe (hereInside cell.obligation List.mem_cons_self)
            cell.obligation.indent position.column kept.state
          rw [stepEq, moveEq]
          exact follow_ok_ne_failed
  | probing here broken rest probe =>
      cases probeStep : probe.step host width with
      | running next => simp [step_of_running probeStep]
      | halted verdict =>
          rw [step_of_halted probeStep]
          cases verdict with
          | fails cause kept => exact absurd probeStep (onPath.2.step_ne_fails safe inside)
          | _ => simp [conclude]

/-- No state of a walk fails with its next step. -/
def NeverFails (host : Host σ) (width : Int) (walk : Walk σ) : Prop :=
  ∀ ⦃events : List Event⦄ ⦃last : Walk σ⦄, Run (Walk.step host width) walk events last →
    ∀ (cause : Error) (store : Store σ), last.step host width ≠ .failed cause store

theorem neverFails_start (safe : host.Safe domain) (inside : ∀ part ∈ parts, domain part.value)
    (width column : Int) (state : σ) : (start column parts state).NeverFails host width :=
  fun _ _ run _ _ => (onPath_of_run run).step_ne_failed safe inside

theorem NeverFails.of_step {events : List Event} {next : Walk σ}
    (neverFails : walk.NeverFails host width) (step : walk.step host width = .next events next) :
    next.NeverFails host width :=
  fun _ _ run => neverFails (.head step run)

/-- A reader that refuses nothing reads a walk that never fails without a failure. -/
theorem NeverFails.failure_read {α : Type} {reader : Reader α}
    (accepts : ∀ taken events, (reader.takeAll taken events).2 = none)
    (neverFails : walk.NeverFails host width) (bound : Nat) (taken : α) :
    (reader.read host width bound taken walk).failure = none := by
  induction bound generalizing taken walk with
  | zero => rfl
  | succ bound inductionHypothesis =>
      rw [Reader.read]
      by_cases wanted : reader.wants taken = true
      · rw [if_pos wanted]
        cases stepEq : walk.step host width with
        | finished store => rfl
        | failed cause store => exact absurd stepEq (neverFails (.refl walk) cause store)
        | next events next =>
            have accepted := accepts taken events
            rcases takesEq : reader.takeAll taken events with ⟨middle, refused⟩
            rw [takesEq] at accepted
            cases accepted
            simp only [takesEq]
            exact inductionHypothesis (neverFails.of_step stepEq) middle
      · rw [if_neg wanted]
        rfl

end Walk

theorem Reader.snd_takeAll_collect (taken : Collected) (events : List Event) :
    (collect.takeAll taken events).2 = none := by
  induction events generalizing taken with
  | nil => rfl
  | cons event events inductionHypothesis =>
      rw [takeAll]
      by_cases wanted : collect.wants taken = true
      · rw [if_pos wanted]
        cases event with
        | item item => exact inductionHypothesis _
        | decision made => exact inductionHypothesis taken
      · rw [if_neg wanted]

/-! ## What composed documents give rise to -/

variable {trusted : Nat → Prop}

/-- The trusted callbacks give text without line breaks, or composed documents, whatever they are
called with and in whatever state. -/
def Host.Supplies (host : Host σ) (trusted : Nat → Prop) : Prop :=
  ∀ ⦃callback : Nat⦄, trusted callback → ∀ (argument : Int) (state : σ),
    (∃ fragment : Fragment, (host callback argument state).1 = .ok (.str fragment.text)) ∨
      ∃ document : Identified Doc, (host callback argument state).1 = .ok (.doc document.content) ∧
        Composed trusted document.object

/-- The values that the layout of a sound document comes to: sound documents, and those that are
aligned to a column and wait for an indentation. -/
inductive Value.Arises (trusted : Nat → Prop) : Value → Prop where
  | sound {document : Doc} (holds : document.Sound trusted) : Arises trusted (.doc document)
  | alignAt (start : Int) {inner : Doc} (innerSound : inner.Sound trusted) :
      Arises trusted (.doc (.nesting ⟨.shared, .function (.alignAt start inner)⟩))

/-- In every state a callback makes a document that the layout of a sound one may come to. -/
def Value.Provides (host : Host σ) (trusted : Nat → Prop) (callback : Value) : Prop :=
  ∀ (argument : Int) (state : σ), ∃ document : Doc,
    (callback.resolve host argument state).1 = .ok document ∧ Arises trusted (.doc document)

/-- What follows on a computation that succeeds starts in some later state. -/
theorem HostM.exists_bind_eq {α β : Type} {computation : HostM σ α} {state : σ} {value : α}
    (gives : (computation state).1 = .ok value) (next : α → HostM σ β) :
    ∃ later, (computation >>= next) state = next value later := by
  simp only [Bind.bind, ExceptT.bind, ExceptT.mk, StateT.bind]
  rcases runEq : computation state with ⟨result, later⟩
  rw [runEq] at gives
  subst gives
  exact ⟨later, rfl⟩

theorem HostM.fst_map {α β : Type} {computation : HostM σ α} {state : σ} {value : α}
    (gives : (computation state).1 = .ok value) (f : α → β) :
    ((f <$> computation) state).1 = .ok (f value) := by
  obtain ⟨later, bindEq⟩ := exists_bind_eq gives fun value => pure (f value)
  exact congrArg Prod.fst bindEq

theorem Value.fst_resolve {callback value : Value} {document : Doc} {argument : Int} {state : σ}
    (called : (callback.call host argument state).1 = .ok value)
    (reads : Doc.ofValue value = .ok document) :
    (callback.resolve host argument state).1 = .ok document := by
  obtain ⟨later, bindEq⟩ := HostM.exists_bind_eq called _
  rw [resolve, bindEq, reads]
  rfl

namespace Value.Provides

theorem custom (supplies : host.Supplies trusted) {callback : Nat} (trusts : trusted callback) :
    Provides host trusted (.function (.custom callback)) := by
  intro argument state
  rcases supplies trusts argument state with ⟨fragment, gives⟩ | ⟨document, gives, composed⟩
  · have reads := fragment.ofValue_str
    exact ⟨fragment.doc, fst_resolve gives reads,
      .sound (Doc.Sound.stable.readsAs_str _ _ reads)⟩
  · exact ⟨document.content, fst_resolve gives rfl,
      .sound (Value.readsAs_doc_iff.mp composed.sound)⟩

theorem widthFrom (supplies : host.Supplies trusted) {callback : Nat} (trusts : trusted callback)
    (start : Int) :
    Provides host trusted (.function (.widthFrom start (.function (.custom callback)))) :=
  fun column => custom supplies trusts (column - start)

theorem align {inner : Doc} (innerSound : inner.Sound trusted) :
    Provides host trusted (.function (.align inner)) :=
  fun column _ => ⟨_, rfl, .alignAt column innerSound⟩

theorem alignAt {inner : Doc} (innerSound : inner.Sound trusted) (start : Int) :
    Provides host trusted (.function (.alignAt start inner)) :=
  fun _ _ => ⟨_, rfl, .sound (.nest _ innerSound)⟩

theorem width {inner : Doc} (innerSound : inner.Sound trusted) {callback : Nat}
    (trusts : trusted callback) :
    Provides host trusted (.function (.width inner (.function (.custom callback)))) :=
  fun start _ =>
    ⟨_, rfl, .sound (Doc.Sound.stable.append innerSound (.widthFrom start trusts))⟩

end Value.Provides

namespace Value.Arises

theorem move_nesting {callback : Object} (provides : callback.content.Provides host trusted)
    (indent column : Int) (state : σ) :
    ∃ move, (Obligation.move host column ⟨indent, .doc (.nesting callback)⟩ state).1 = .ok move ∧
      ∀ member ∈ move.members, Arises trusted member := by
  obtain ⟨document, resolves, arises⟩ := provides indent state
  exact ⟨_, HostM.fst_map resolves _, List.forall_mem_singleton.mpr arises⟩

theorem move_column {callback : Object} (provides : callback.content.Provides host trusted)
    (indent column : Int) (state : σ) :
    ∃ move, (Obligation.move host column ⟨indent, .doc (.column callback)⟩ state).1 = .ok move ∧
      ∀ member ∈ move.members, Arises trusted member := by
  obtain ⟨document, resolves, arises⟩ := provides column state
  exact ⟨_, HostM.fst_map resolves _, List.forall_mem_singleton.mpr arises⟩

/-- What sound documents give rise to is safe for a host that supplies its callbacks. -/
theorem safe (supplies : host.Supplies trusted) : host.Safe (Arises trusted) := by
  intro value arises indent column state
  cases arises with
  | alignAt start innerSound => exact move_nesting (.alignAt innerSound start) indent column state
  | sound holds =>
      cases holds with
      | blank kept => exact ⟨_, rfl, List.forall_mem_nil _⟩
      | text fragment => exact ⟨_, rfl, List.forall_mem_nil _⟩
      | line => exact ⟨_, rfl, List.forall_mem_nil _⟩
      | concat leftSound rightSound =>
          exact ⟨_, rfl, List.forall_mem_cons.mpr
            ⟨.sound leftSound, List.forall_mem_singleton.mpr (.sound rightSound)⟩⟩
      | nest amount innerSound => exact ⟨_, rfl, List.forall_mem_singleton.mpr (.sound innerSound)⟩
      | union _ _ flatSound brokenSound =>
          exact ⟨_, rfl, List.forall_mem_cons.mpr
            ⟨.sound flatSound, List.forall_mem_singleton.mpr (.sound brokenSound)⟩⟩
      | nesting _ trusts => exact move_nesting (.custom supplies trusts) indent column state
      | column _ trusts => exact move_column (.custom supplies trusts) indent column state
      | aligned _ innerSound => exact move_column (.align innerSound) indent column state
      | withWidth _ innerSound trusts =>
          exact move_column (.width innerSound trusts) indent column state
      | widthFrom start trusts =>
          exact move_column (.widthFrom supplies trusts start) indent column state

end Value.Arises

/-- A composed document can be flattened, to a document, and grouped.  Whatever the width, and
whatever state the host starts in, no step of its layout fails, neither one of the walk nor one of a
probe.  So no collection of its items fails, however far it goes and whether or not the layout comes
to an end. -/
theorem composed_never_fails (supplies : host.Supplies trusted) (document : Identified Doc)
    (composed : Composed trusted document.object) :
    (∃ flat : Doc, (Value.doc document.content).flatten = .ok (.doc flat)) ∧
    (∀ label, ∃ grouped, Build.group label document.object = .ok grouped) ∧
    ∀ (width : Int) (state : σ),
      (Walk.start 0 [⟨0, .doc document.content⟩] state).NeverFails host width ∧
      ∀ (bound : Nat) (room : Option Nat), ∃ reading,
        readLayout host bound .collect ⟨room, []⟩ (.doc document.content) (.int width) state =
          .ok reading ∧ reading.failure = none := by
  have sound := Value.readsAs_doc_iff.mp composed.sound
  refine ⟨?_, composed.exists_group, fun width state => ?_⟩
  · obtain ⟨flat, flattens, -⟩ := sound.exists_oneLine
    exact ⟨flat, (Value.flatten_doc document.content).trans flattens⟩
  · have neverFails : (Walk.start 0 [⟨0, .doc document.content⟩] state).NeverFails host width :=
      Walk.neverFails_start (Value.Arises.safe supplies)
        (List.forall_mem_singleton.mpr (.sound sound)) width 0 state
    exact ⟨neverFails, fun bound room =>
      ⟨_, rfl, neverFails.failure_read Reader.snd_takeAll_collect bound _⟩⟩

/-- A space or a line break, with a document behind it that the first callback makes. -/
def Doc.onward : Doc :=
  .concat .softline (.column ⟨.shared, .function (.custom 0)⟩)

/-- The first callback gives the same again and again, so that layouts have no end. -/
def Meaning.onward : Meaning :=
  fun _ _ => .ok (.doc .onward)

theorem Composed.onward : Composed (· = 0) ⟨.made 0, .doc .onward⟩ := by
  have deferred : Composed (· = 0) ⟨.shared, .doc (.column ⟨.shared, .function (.custom 0)⟩)⟩ :=
    .column .shared .shared rfl
  have made : Build.append 0 ⟨.shared, .doc .softline⟩
      ⟨.shared, .doc (.column ⟨.shared, .function (.custom 0)⟩)⟩ = .ok ⟨.made 0, .onward⟩ := rfl
  exact .append (.softline .shared) deferred made

theorem onward_never_fails :
    Meaning.onward.countingHost.Supplies (· = 0) ∧ Composed (· = 0) ⟨.made 0, .doc .onward⟩ ∧
      (∃ grouped, Build.group 1 ⟨.made 0, .doc .onward⟩ = .ok grouped) ∧
      (Walk.start 0 [⟨0, .doc .onward⟩] 0).NeverFails Meaning.onward.countingHost 1 := by
  have supplies : Meaning.onward.countingHost.Supplies (· = 0) :=
    fun _ _ _ _ => .inr ⟨⟨.made 0, .onward⟩, rfl, .onward⟩
  obtain ⟨-, groups, neverFails⟩ :=
    composed_never_fails supplies ⟨.made 0, .onward⟩ Composed.onward
  exact ⟨supplies, .onward, groups 1, (neverFails 1 0).1⟩

end DocLayout
