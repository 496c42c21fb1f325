import DocLayout.Proofs.Layout.Reference

/-!
# Probes foretell walks

A probe decides all choices up to the next line break in one search, and a walk decides each of them
by a probe of its own.  Both come to the same choices.  Where a probe fits, the walk from the same
position emits its items and goes on as from where the probe ended; where it overflows, the first
line of the walk does so too; and where it fails, the walk fails on its first line.
-/

namespace DocLayout

open Progress

variable {σ : Type} {host : Host σ} {meaning : Meaning} {width column next : Int}
  {parts remaining : List Obligation} {layout : Layout}

/-- The layout of a search that fits begins with the items found, and goes on with a course from
where the search ended. -/
theorem Prescribed.exists_course_of_fits {items : List Item}
    (prescribed : Prescribed meaning width column parts layout)
    (search : Search meaning width column parts (.fits items next remaining)) :
    ∃ events, Course meaning width next remaining events layout.ending ∧
      layout = Layout.after items ⟨itemsOf events, layout.ending⟩ := by
  obtain ⟨events, course, itemsEq⟩ := prescribed.exists_course
  obtain ⟨later, laterCourse, laterEq⟩ := course.of_fits search rfl
  rcases layout with ⟨whole, ending⟩
  cases itemsEq
  exact ⟨later, laterCourse, congrArg (Layout.mk · ending) laterEq⟩

/-- A probe ends.  Its verdict says how the layout from its position begins, whatever labels and
whatever state the walk starts with.  If the probe fits, the walk emits its items and then what it
emits from where the probe ended.  If it overflows, the walk first emits text that exceeds the
width, unless the column does so already.  If it fails, the walk fails with the same cause and emits
nothing but text before. -/
theorem probe_foretells_walk (realizes : host.Realizes meaning) (position : Position)
    (settles : ∀ part ∈ position.work.obligations, part.value.Settles meaning) (width : Int)
    (fresh : Nat) (state : σ) :
    (∃ verdict,
      Halts (Probe.step host width) (Probe.start position ⟨.empty, fresh, state⟩) verdict) ∧
    (∀ items rest store,
      Halts (Probe.step host width) (Probe.start position ⟨.empty, fresh, state⟩)
        (.fits items rest store) →
      ∃ layout, ∀ label other,
        (Walk.walking rest ⟨.empty, label, other⟩).Emits host width layout ∧
        (Walk.walking position ⟨.empty, label, other⟩).Emits host width (layout.after items)) ∧
    (∀ store,
      Halts (Probe.step host width) (Probe.start position ⟨.empty, fresh, state⟩)
        (.overflows store) →
      ∃ (texts : List Fragment) (later : Layout),
        width < position.column + Layout.widthOf texts ∧
        ∀ label other, (Walk.walking position ⟨.empty, label, other⟩).Emits host width
          (later.after (texts.map .text))) ∧
    (∀ cause store,
      Halts (Probe.step host width) (Probe.start position ⟨.empty, fresh, state⟩)
        (.fails cause store) →
      ∃ texts : List Fragment, ∀ label other,
        (Walk.walking position ⟨.empty, label, other⟩).Emits host width
          ⟨texts.map .text, some cause⟩) := by
  obtain ⟨layout, prescribed⟩ := Prescribed.exists_of_settles width settles position.column
  obtain ⟨found, finds, fitsEq⟩ := prescribed.exists_search
  obtain ⟨verdict, halts, foundEq, -⟩ := Probe.start_halts realizes.follows position
    ⟨.empty, fresh, state⟩ finds (fun _ _ => trivial) Memory.reliable_empty
  have emits (label : Nat) (other : σ) :
      (Walk.walking position ⟨.empty, label, other⟩).Emits host width layout :=
    prescribed.emits realizes.follows (fun _ _ => trivial) rfl rfl Memory.reliable_empty
  refine ⟨⟨verdict, halts⟩, ?_, ?_, ?_⟩
  · intro items rest store fits
    cases halts.unique fits
    cases foundEq
    obtain ⟨events, course, layoutEq⟩ := prescribed.exists_course_of_fits finds
    rw [layoutEq] at emits
    exact ⟨_, fun label other => ⟨Walk.emits_of_course realizes.follows course (fun _ _ => trivial)
      rfl rfl Memory.reliable_empty, emits label other⟩⟩
  · intro store overflows
    cases halts.unique overflows
    cases foundEq
    obtain ⟨texts, later, rfl, exceeds⟩ := Layout.exists_texts_of_overflows fitsEq
    exact ⟨texts, later, by omega, emits⟩
  · intro cause store fails
    cases halts.unique fails
    cases foundEq
    obtain ⟨texts, rfl⟩ := Layout.exists_texts_of_fails fitsEq
    exact ⟨texts, emits⟩

theorem steps_probe_foretells_walk :
    (∀ part ∈ Obligation.steps, part.value.Settles .steps) ∧
      Meaning.steps.countingHost.Realizes .steps ∧
      ∃ rest store layout,
        Halts (Probe.step Meaning.steps.countingHost 0)
          (Probe.start ⟨0, Work.ofList Obligation.steps⟩ ⟨.empty, 2, 0⟩)
          (.fits [.line 0] rest store) ∧
        (Walk.walking rest ⟨.empty, 2, 0⟩).Emits Meaning.steps.countingHost 0 layout ∧
        (Walk.walking ⟨0, Work.ofList Obligation.steps⟩ ⟨.empty, 2, 0⟩).Emits
          Meaning.steps.countingHost 0 (layout.after [.line 0]) := by
  have realizes := Meaning.steps.realizes_countingHost
  obtain ⟨rest, finds⟩ := Position.exists_finds_steps
  obtain ⟨verdict, halts, foundEq, -⟩ := Probe.start_halts realizes.follows _ ⟨.empty, 2, 0⟩ finds
    (fun _ _ => trivial) Memory.reliable_empty
  obtain ⟨-, fitting, -⟩ := probe_foretells_walk realizes ⟨0, _⟩ Work.steps_settle 0 2 0
  cases verdict with
  | fits items start store =>
      obtain ⟨rfl, -, -⟩ := Found.fits.inj foundEq
      obtain ⟨layout, emits⟩ := fitting _ _ _ halts
      obtain ⟨fromRest, fromStart⟩ := emits 2 0
      exact ⟨Obligation.steps_settle, realizes, start, store, layout, halts, fromRest, fromStart⟩
  | _ => cases foundEq

end DocLayout
