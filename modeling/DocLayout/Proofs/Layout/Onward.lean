import DocLayout.Proofs.Layout.Lockstep
import DocLayout.Proofs.Layout.Path
import DocLayout.Proofs.Layout.Relabelling

/-!
# Obligations that lead to others

Some moves decide nothing and leave the host alone: text is emitted, or other obligations take the
place of one.  Then all that is seen of walks and probes is what is seen of them from the place that
the move leads to, behind the items that it emits.  This holds with every host, whether its
callbacks are pure or not, and of layouts that do not end.
-/

namespace DocLayout

open Progress

variable {σ : Type} {host : Host σ} {width column next last : Int}
  {parts rest remaining others : List Obligation} {part : Obligation} {state final : σ}
  {items later : List Item} {found : Found} {events whole : List Event} {ending : Option Error}
  {move : Move}

/-- A move that decides nothing and begins no line: the items that it emits, and the obligations
that take the place of its own. -/
inductive Move.Onward : Move → List Item → List Obligation → Prop where
  | emit (fragment : Fragment) : Onward (.emit fragment) [.text fragment] []
  | replace (parts : List Obligation) : Onward (.replace parts) [] parts

theorem Move.Onward.le_columnAfter (onward : move.Onward items parts) (column : Int) :
    column ≤ Item.columnAfter column items := by
  cases onward with
  | emit fragment => exact Int.le_add_of_nonneg_right (Int.natCast_nonneg _)
  | replace parts => exact Int.le_refl column

/-- From one place walks and probes do what they do from another one, behind some items. -/
structure LeadsTo (host : Host σ) (width column : Int) (parts : List Obligation)
    (items : List Item) (next : Int) (remaining : List Obligation) : Prop where
  ends {state final : σ} {events : List Event} {ending : Option Error} :
    (Walk.start column parts state).EndsIn host width events ending final ↔
      ∃ later, events = items.map .item ++ later ∧
        (Walk.start next remaining state).EndsIn host width later ending final
  begins {state : σ} {events : List Event} :
    (Walk.start column parts state).Begins host width (items.map .item ++ events) ↔
      (Walk.start next remaining state).Begins host width events
  finds {state final : σ} {found : Found} :
    (Probe.over column parts state).FindsTo host width found final ↔
      ∃ later, (Probe.over next remaining state).FindsTo host width later final ∧
        found = later.after items

namespace LeadsTo

theorem refl (host : Host σ) (width column : Int) (parts : List Obligation) :
    LeadsTo host width column parts [] column parts where
  ends := by simp
  begins := by simp
  finds := by simp

theorem trans (first : LeadsTo host width column parts items next remaining)
    (second : LeadsTo host width next remaining later last others) :
    LeadsTo host width column parts (items ++ later) last others where
  ends {state final events ending} := by
    rw [first.ends]
    simp only [second.ends]
    constructor
    · rintro ⟨_, rfl, more, rfl, ends⟩
      exact ⟨more, by simp, ends⟩
    · rintro ⟨more, rfl, ends⟩
      exact ⟨_, by simp, more, rfl, ends⟩
  begins {state events} := by
    rw [List.map_append, List.append_assoc, first.begins, second.begins]
  finds {state final found} := by
    rw [first.finds]
    simp only [second.finds]
    constructor
    · rintro ⟨_, ⟨more, finds, rfl⟩, rfl⟩
      exact ⟨more, finds, Found.after_after ..⟩
    · rintro ⟨more, finds, rfl⟩
      exact ⟨_, ⟨more, finds, rfl⟩, (Found.after_after ..).symm⟩

theorem symm (leads : LeadsTo host width column parts [] next remaining) :
    LeadsTo host width next remaining [] column parts where
  ends := by simp [leads.ends]
  begins {state events} := leads.begins.symm
  finds := by simp [leads.finds]

end LeadsTo

/-! ## Single steps -/

namespace Walk

variable {walk following : Walk σ}

theorem endsIn_iff_of_step (first : walk.step host width = .next events following) :
    walk.EndsIn host width whole ending final ↔
      ∃ more, whole = events ++ more ∧ following.EndsIn host width more ending final := by
  constructor
  · rintro ⟨store, yields, rfl⟩
    obtain ⟨more, rfl, moreYields⟩ := yields.drop_run (.single first)
    exact ⟨more, rfl, store, moreYields, rfl⟩
  · rintro ⟨more, rfl, ends⟩
    exact ends.of_run (.single first)

theorem begins_iff_of_step (first : walk.step host width = .next events following) :
    walk.Begins host width (events ++ whole) ↔ following.Begins host width whole := by
  constructor
  · rintro ⟨more, final, run⟩
    generalize reportedEq : events ++ whole ++ more = reported at run
    cases run with
    | refl =>
        simp only [List.append_eq_nil_iff] at reportedEq
        obtain ⟨⟨-, rfl⟩, rfl⟩ := reportedEq
        exact ⟨[], following, .refl following⟩
    | head same rest =>
        cases first.symm.trans same
        rw [List.append_assoc, List.append_cancel_left_eq] at reportedEq
        rw [← reportedEq] at rest
        exact ⟨more, final, rest⟩
  · rintro ⟨more, final, run⟩
    have whole := (Run.single first).trans run
    rw [← List.append_assoc] at whole
    exact ⟨more, final, whole⟩

/-- A walk makes the move of the first obligation. -/
theorem StartsAt.exists_step (starts : walk.StartsAt column (part :: rest) state) (width : Int)
    (moves : part.move host column = pure move) (onward : move.Onward items parts) :
    ∃ following, walk.step host width = .next (items.map .item) following ∧
      following.StartsAt (Item.columnAfter column items) (parts ++ rest) state := by
  cases starts with
  | @intro work fresh partsEq labelled =>
      obtain ⟨cell, work, rfl, rfl, rfl⟩ := List.map_eq_cons_iff.mp partsEq
      have stepEq := advance_eq_follow host column cell work ⟨.empty, fresh, state⟩
      rw [moves] at stepEq
      cases onward with
      | emit fragment => exact ⟨_, stepEq, .intro rfl labelled.of_cons⟩
      | replace parts =>
          exact ⟨_, stepEq, .intro (Work.obligations_push ..) (labelled.of_cons.push parts)⟩

end Walk

namespace Probe

variable {probe following : Probe σ}

theorem findsTo_iff_of_running (running : probe.step host width = .running following) :
    probe.FindsTo host width found final ↔ following.FindsTo host width found final := by
  constructor
  · rintro ⟨verdict, halts, rfl, rfl⟩
    obtain ⟨bound, halted⟩ := halts_iff_exists_iterate.mp halts
    obtain ⟨fewer, -, later⟩ := exists_iterate_of_running running halted
    exact ⟨verdict, halts_iff_exists_iterate.mpr ⟨fewer, later⟩, rfl, rfl⟩
  · rintro ⟨verdict, halts, rfl, rfl⟩
    exact ⟨verdict, halts.head running, rfl, rfl⟩

theorem over_findsTo_iff_of_beyond (exceeds : width < column) :
    (Probe.over column parts state).FindsTo host width found final ↔
      found = .overflows ∧ final = state := by
  have halted : (Probe.over column parts state).step host width =
      .halted (.overflows (Probe.over column parts state).abandoned) :=
    (step_of_beyond exceeds).trans (backtrack_of_nil rfl)
  constructor
  · rintro ⟨verdict, halts, rfl, rfl⟩
    cases halts.unique (.of_step halted)
    exact ⟨rfl, rfl⟩
  · rintro ⟨rfl, rfl⟩
    exact ⟨_, .of_step halted, rfl, rfl⟩

/-- A probe that has passed one position since its start finds what a probe finds that starts where
it is, behind the items that it has emitted. -/
theorem findsTo_iff_over {work rest : Work} {fresh : Nat} {cell : Cell} (items : List Item)
    (partsEq : work.obligations = parts) (labelled : work.Labelled fresh)
    (absent : cell.label ∉ work.labels) (used : cell.label < fresh) (start : Int) :
    FindsTo host width ⟨items.reverse, ⟨column, work⟩, [⟨start, cell :: rest⟩], [],
        ⟨.empty, fresh, state⟩⟩ found final ↔
      ∃ later, (Probe.over column parts state).FindsTo host width later final ∧
        found = later.after items := by
  subst partsEq
  let names := Relabelling.between labelled (Work.labelled_ofList work.obligations)
  have on : names.OnProbe items.reverse
      ⟨items.reverse, ⟨column, work⟩, [⟨start, cell :: rest⟩], [], ⟨.empty, fresh, state⟩⟩
      (Probe.over column work.obligations state) := by
    refine ⟨(List.nil_append _).symm, ⟨rfl, ?_⟩, .skip ?_ .nil, .nil, ?_⟩
    · exact Relabelling.onWork_between _ _ (Work.obligations_ofList _).symm
    · exact Relabelling.between_unused _ _ absent used
    · exact Relabelling.onStore_between _ _ state
  rw [on.findsTo_iff, List.reverse_reverse]

/-- Within the width a probe makes the move of the first obligation. -/
theorem over_step_of_onward (within : column ≤ width) (moves : part.move host column = pure move)
    (onward : move.Onward items parts) :
    (Probe.over column (part :: rest) state).step host width =
      .running ⟨items.reverse,
        ⟨Item.columnAfter column items,
          Work.push (part :: rest).length parts (Work.push 1 rest [])⟩,
        [⟨column, ⟨0, part⟩ :: Work.push 1 rest []⟩], [],
        ⟨.empty, (part :: rest).length + parts.length, state⟩⟩ := by
  let start : Probe σ := .over column (part :: rest) state
  have moved : part.move host start.position.column start.store.state = (.ok move, state) :=
    congrFun moves state
  have stepEq := (step_of_new within rfl (Memory.not_mem_empty _)).trans
    (advance_eq_follow host start ⟨0, part⟩ (Work.push 1 rest []))
  rw [moved] at stepEq
  cases onward with
  | emit fragment => exact stepEq
  | replace parts => exact stepEq

/-- A probe finds what a probe finds from where the move of the first obligation leads to. -/
theorem over_findsTo_iff_of_onward (moves : part.move host column = pure move)
    (onward : move.Onward items parts) :
    (Probe.over column (part :: rest) state).FindsTo host width found final ↔
      ∃ later, (Probe.over (Item.columnAfter column items) (parts ++ rest) state).FindsTo host
        width later final ∧ found = later.after items := by
  rcases Int.lt_or_le width column with beyond | within
  · have laterBeyond := Int.lt_of_lt_of_le beyond (onward.le_columnAfter column)
    simp only [over_findsTo_iff_of_beyond beyond, over_findsTo_iff_of_beyond laterBeyond]
    constructor
    · rintro ⟨rfl, rfl⟩
      exact ⟨_, ⟨rfl, rfl⟩, rfl⟩
    · rintro ⟨_, ⟨rfl, rfl⟩, rfl⟩
      exact ⟨rfl, rfl⟩
  · have labelled := Work.labelled_ofList (part :: rest)
    have partsEq : (Work.push (part :: rest).length parts (Work.push 1 rest [])).obligations =
        parts ++ rest := by
      rw [Work.obligations_push, Work.obligations_push]
      exact congrArg _ (List.append_nil rest)
    rw [findsTo_iff_of_running (over_step_of_onward within moves onward)]
    exact findsTo_iff_over items partsEq (labelled.of_cons.push parts) (labelled.not_mem_push parts)
      (Nat.lt_add_right _ (Nat.succ_pos _)) column

end Probe

/-- A move leads to the obligations that take the place of its own, behind the items that it
emits. -/
theorem LeadsTo.of_move (width : Int) (moves : part.move host column = pure move)
    (onward : move.Onward items parts) (rest : List Obligation) :
    LeadsTo host width column (part :: rest) items (Item.columnAfter column items)
      (parts ++ rest) where
  ends {state final events ending} := by
    obtain ⟨following, stepEq, starts⟩ :=
      (Walk.start_startsAt column (part :: rest) state).exists_step width moves onward
    rw [Walk.endsIn_iff_of_step stepEq]
    simp only [starts.endsIn_iff (Walk.start_startsAt ..)]
  begins {state events} := by
    obtain ⟨following, stepEq, starts⟩ :=
      (Walk.start_startsAt column (part :: rest) state).exists_step width moves onward
    rw [← starts.begins_iff (Walk.start_startsAt ..)]
    exact Walk.begins_iff_of_step stepEq
  finds := Probe.over_findsTo_iff_of_onward moves onward

/-- Other obligations take the place of the first one. -/
theorem LeadsTo.replace (width : Int) (moves : part.move host column = pure (.replace parts))
    (rest : List Obligation) : LeadsTo host width column (part :: rest) [] column (parts ++ rest) :=
  of_move width moves (.replace parts) rest

/-- The text of the first obligation is emitted. -/
theorem LeadsTo.emit {fragment : Fragment} (width : Int)
    (moves : part.move host column = pure (.emit fragment)) (rest : List Obligation) :
    LeadsTo host width column (part :: rest) [.text fragment] (column + fragment.width) rest :=
  of_move width moves (.emit fragment) rest

end DocLayout
