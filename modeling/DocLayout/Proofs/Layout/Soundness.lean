import DocLayout.Proofs.Layout.Reference

/-!
# Memories do not matter

A memory is sound if a probe from a remembered position, with nothing remembered, exceeds the width.
Documents with pure callbacks whose deferral is finite get the same verdict with every sound memory,
and the memory that a probe leaves behind is sound again.  So a walk reports the same events whether
its probes share one memory or not.
-/

namespace DocLayout

open Progress

variable {σ : Type} {host : Host σ} {meaning : Meaning} {width : Int}

namespace Memory

/-- A probe from a remembered position, with nothing remembered, exceeds the width. -/
def Sound (host : Host σ) (width : Int) (memory : Memory) : Prop :=
  ∀ position ∈ memory, ∀ fresh state, ∃ store,
    Halts (Probe.step host width) (Probe.start position ⟨.empty, fresh, state⟩) (.overflows store)

theorem sound_empty : Sound host width empty :=
  fun position remembered => absurd remembered (not_mem_empty position)

/-- What a search finds overflowing, a probe with nothing remembered finds overflowing. -/
theorem exists_halts_overflows (realizes : host.Realizes meaning) {position : Position}
    (overflows : position.Finds meaning width .overflows) (fresh : Nat) (state : σ) :
    ∃ store, Halts (Probe.step host width) (Probe.start position ⟨.empty, fresh, state⟩)
      (.overflows store) := by
  obtain ⟨verdict, halts, foundEq, -⟩ := Probe.start_halts realizes.follows position
    ⟨.empty, fresh, state⟩ overflows (fun _ _ => trivial) reliable_empty
  cases verdict with
  | overflows store => exact ⟨store, halts⟩
  | _ => cases foundEq

theorem Sound.reliable (realizes : host.Realizes meaning) {memory : Memory}
    (sound : memory.Sound host width) (state : σ) : memory.Reliable meaning width := by
  intro position remembered found finds
  obtain ⟨store, overflows⟩ := sound position remembered 0 state
  obtain ⟨verdict, halts, foundEq, -⟩ := Probe.start_halts realizes.follows position
    ⟨.empty, 0, state⟩ finds (fun _ _ => trivial) reliable_empty
  rw [← foundEq, halts.unique overflows]
  rfl

theorem Sound.of_onlyAdds (realizes : host.Realizes meaning) {before after : Memory}
    (sound : before.Sound host width) (adds : OnlyAdds meaning width before after) :
    after.Sound host width := by
  intro position remembered fresh state
  rcases adds position remembered with earlier | overflows
  · exact sound position earlier fresh state
  · exact exists_halts_overflows realizes overflows fresh state

theorem Sound.of_subset {smaller larger : Memory} (sound : larger.Sound host width)
    (subset : ∀ position ∈ smaller, position ∈ larger) : smaller.Sound host width :=
  fun position remembered => sound position (subset position remembered)

end Memory

variable {position : Position}

/-- What a search finds exists where deferral is finite. -/
theorem Position.exists_finds (width : Int)
    (settles : ∀ part ∈ position.work.obligations, part.value.Settles meaning) :
    ∃ found, position.Finds meaning width found := by
  obtain ⟨layout, prescribed⟩ := Prescribed.exists_of_settles width settles position.column
  obtain ⟨found, finds, -⟩ := prescribed.exists_search
  exact ⟨found, finds⟩

/-- With a sound memory a probe ends as with an empty one, and leaves a sound memory that holds all
that was remembered. -/
theorem Probe.halts_of_sound (realizes : host.Realizes meaning)
    (settles : ∀ part ∈ position.work.obligations, part.value.Settles meaning) {memory : Memory}
    (sound : memory.Sound host width) (fresh other : Nat) (state otherState : σ) :
    ∃ verdict anew,
      Halts (Probe.step host width) (Probe.start position ⟨memory, fresh, state⟩) verdict ∧
      Halts (Probe.step host width) (Probe.start position ⟨.empty, other, otherState⟩) anew ∧
      verdict.found = anew.found ∧ (∀ known ∈ memory, known ∈ verdict.store.memory) ∧
      verdict.store.memory.Sound host width := by
  obtain ⟨found, finds⟩ := Position.exists_finds width settles
  obtain ⟨verdict, halts, foundEq, adds⟩ := Probe.start_halts realizes.follows position
    ⟨memory, fresh, state⟩ finds (fun _ _ => trivial) (sound.reliable realizes state)
  obtain ⟨anew, anewHalts, anewEq, -⟩ := Probe.start_halts realizes.follows position
    ⟨.empty, other, otherState⟩ finds (fun _ _ => trivial) Memory.reliable_empty
  exact ⟨verdict, anew, halts, anewHalts, foundEq.trans anewEq.symm,
    fun _ remembered => Probe.remembered_of_halts halts remembered, sound.of_onlyAdds realizes adds⟩

/-- A walk ends, and it reports the same if every probe is given an empty memory.  What is
remembered in the end is sound. -/
theorem Walk.yields_anew (width : Int) (realizes : host.Realizes meaning)
    (settles : ∀ part ∈ position.work.obligations, part.value.Settles meaning) (fresh : Nat)
    (state : σ) :
    ∃ events ending final anew,
      Yields (Walk.step host width) (.walking position ⟨.empty, fresh, state⟩) events ending final ∧
      Yields (Walk.stepAnew host width) (.walking position ⟨.empty, fresh, state⟩) events ending
        anew ∧
      final.memory.Sound host width := by
  obtain ⟨layout, prescribed⟩ := Prescribed.exists_of_settles width settles position.column
  obtain ⟨events, course, -⟩ := prescribed.exists_course
  have reliable : (⟨.empty, fresh, state⟩ : Store σ).memory.Reliable meaning width :=
    Memory.reliable_empty
  obtain ⟨final, yields, adds⟩ := Walk.yields_of_course id realizes.follows
    (fun _ _ remembered => remembered) course (fun _ _ => trivial) rfl rfl reliable
  obtain ⟨anew, anewYields, -⟩ := Walk.yields_of_course (fun _ => .empty) realizes.follows
    (fun _ known remembered => absurd remembered (Memory.not_mem_empty known)) course
    (fun _ _ => trivial) rfl rfl reliable
  rw [Walk.stepWith_id] at yields
  exact ⟨events, layout.ending, final, anew, yields, anewYields,
    Memory.sound_empty.of_onlyAdds realizes adds⟩

/-- Beyond the width every position may be remembered. -/
theorem Memory.sound_insert_beyond (realizes : host.Realizes meaning) {position : Position}
    (exceeds : width < position.column) : (empty.insert position).Sound host width := by
  intro known remembered fresh state
  rcases mem_insert remembered with rfl | impossible
  · exact exists_halts_overflows realizes (.beyond exceeds) fresh state
  · exact absurd impossible (not_mem_empty known)

/-- Memories never change an answer.  A probe with a sound memory ends with the verdict of a probe
that remembers nothing, and only adds to its memory, which stays sound.  The memory of a walk is
sound at every point, and the walk reports what it reports if every probe is given an empty one. -/
theorem memory_never_matters (realizes : host.Realizes meaning) (position : Position)
    (settles : ∀ part ∈ position.work.obligations, part.value.Settles meaning) (fresh : Nat)
    (state : σ) :
    (∀ memory, memory.Sound host width → ∃ verdict anew,
      Halts (Probe.step host width) (Probe.start position ⟨memory, fresh, state⟩) verdict ∧
      Halts (Probe.step host width) (Probe.start position ⟨.empty, fresh, state⟩) anew ∧
      verdict.found = anew.found ∧ (∀ known ∈ memory, known ∈ verdict.store.memory) ∧
      verdict.store.memory.Sound host width) ∧
    (∀ events walk,
      Walk.Run (Walk.step host width) (.walking position ⟨.empty, fresh, state⟩) events walk →
      walk.memory.Sound host width) ∧
    ∃ events ending final anew,
      Walk.Yields (Walk.step host width) (.walking position ⟨.empty, fresh, state⟩) events ending
        final ∧
      Walk.Yields (Walk.stepAnew host width) (.walking position ⟨.empty, fresh, state⟩) events
        ending anew := by
  obtain ⟨events, ending, final, anew, yields, anewYields, finalSound⟩ :=
    Walk.yields_anew width realizes settles fresh state
  refine ⟨?_, ?_, events, ending, final, anew, yields, anewYields⟩
  · intro memory sound
    exact Probe.halts_of_sound realizes settles sound fresh fresh state state
  · intro earlier walk run
    obtain ⟨rest, -, restYields⟩ := yields.drop_run run
    exact finalSound.of_subset fun _ remembered => Walk.remembered_of_yields restYields remembered

/-- The probe is given a memory that holds a position beyond the width.  It comes to the line break
all the same. -/
theorem steps_memory_never_matters :
    (∀ part ∈ Obligation.steps, part.value.Settles .steps) ∧
      Meaning.steps.countingHost.Realizes .steps ∧
      (Memory.empty.insert ⟨1, Work.ofList Obligation.steps⟩).Sound Meaning.steps.countingHost 0 ∧
      ∃ verdict anew,
        Halts (Probe.step Meaning.steps.countingHost 0)
          (Probe.start ⟨0, Work.ofList Obligation.steps⟩
            ⟨.insert .empty ⟨1, Work.ofList Obligation.steps⟩, 2, 0⟩) verdict ∧
        Halts (Probe.step Meaning.steps.countingHost 0)
          (Probe.start ⟨0, Work.ofList Obligation.steps⟩ ⟨.empty, 2, 0⟩) anew ∧
        verdict.found = anew.found ∧ verdict.store.memory.Sound Meaning.steps.countingHost 0 ∧
        ∃ rest, anew.found = .fits [.line 0] 0 rest := by
  have realizes := Meaning.steps.realizes_countingHost
  have sound : (Memory.empty.insert ⟨1, Work.ofList Obligation.steps⟩).Sound
      Meaning.steps.countingHost 0 := Memory.sound_insert_beyond realizes (by decide)
  obtain ⟨probes, -⟩ := memory_never_matters realizes ⟨0, _⟩ Work.steps_settle 2 0
  obtain ⟨verdict, anew, halts, anewHalts, foundEq, -, soundAfter⟩ := probes _ sound
  obtain ⟨rest, finds⟩ := Position.exists_finds_steps
  obtain ⟨_, sameHalts, restEq, -⟩ := Probe.start_halts realizes.follows _ ⟨.empty, 2, 0⟩ finds
    (fun _ _ => trivial) Memory.reliable_empty
  cases anewHalts.unique sameHalts
  exact ⟨Obligation.steps_settle, realizes, sound, verdict, _, halts, anewHalts, foundEq,
    soundAfter, rest, restEq⟩

end DocLayout
