import DocLayout.Proofs.Layout.Congruence
import DocLayout.Proofs.Layout.LineBreak
import DocLayout.Proofs.Layout.Safety

/-!
# Documents that stand alone

A document stands alone if it is composed without callbacks of the host.  Then its layout always
comes to an end, and the host is not asked for anything, so walks follow every meaning.
-/

namespace DocLayout

/-- All deferred parts are alignments, and all members of choices are documents. -/
inductive Doc.Standalone : Doc → Prop where
  | blank (kept : Bool) : Standalone (.blank kept)
  | text (fragment : Fragment) : Standalone (.text fragment)
  | line : Standalone .line
  | concat {left right : Doc} (leftAlone : Standalone left) (rightAlone : Standalone right) :
      Standalone (.concat left right)
  | nest (amount : Amount) {inner : Doc} (innerAlone : Standalone inner) :
      Standalone (.nest amount inner)
  | union {flat broken : Doc} (flatIdentity brokenIdentity : Identity)
      (flatAlone : Standalone flat) (brokenAlone : Standalone broken) :
      Standalone (.union ⟨flatIdentity, .doc flat⟩ ⟨brokenIdentity, .doc broken⟩)
  | aligned (label : Nat) {inner : Doc} (innerAlone : Standalone inner) :
      Standalone (inner.aligned label)

/-- A document that stands alone, or what an alignment waits for an indentation with. -/
inductive Value.Standalone : Value → Prop where
  | doc {document : Doc} (alone : document.Standalone) : Standalone (.doc document)
  | alignAt (start : Int) {inner : Doc} (innerAlone : inner.Standalone) :
      Standalone (.doc (.nesting ⟨.shared, .function (.alignAt start inner)⟩))

/-- No callback of the host is trusted. -/
def noCallback : Nat → Prop := fun _ => False

/-- A sound document stands alone if there is no callback to be trusted. -/
theorem Doc.Sound.standalone {document : Doc} (sound : document.Sound noCallback) :
    document.Standalone := by
  induction sound with
  | blank kept => exact .blank kept
  | text fragment => exact .text fragment
  | line => exact .line
  | concat _ _ leftAlone rightAlone => exact .concat leftAlone rightAlone
  | nest amount _ innerAlone => exact .nest amount innerAlone
  | union _ _ _ _ flatAlone brokenAlone => exact .union _ _ flatAlone brokenAlone
  | aligned label _ innerAlone => exact .aligned label innerAlone
  | nesting _ trusts => exact absurd trusts id
  | column _ trusts => exact absurd trusts id
  | withWidth _ _ trusts => exact absurd trusts id
  | widthFrom _ trusts => exact absurd trusts id

variable {σ : Type} {meaning : Meaning} {width column indent : Int} {document : Doc}

/-- Moves lead from what stands alone to what stands alone, and do not fail. -/
theorem Value.Standalone.safe (host : Host σ) : host.Safe Standalone := by
  intro value alone indent column state
  cases alone with
  | alignAt start innerAlone =>
      exact ⟨_, rfl, List.forall_mem_singleton.mpr (.doc (.nest _ innerAlone))⟩
  | doc alone =>
      cases alone with
      | concat leftAlone rightAlone =>
          exact ⟨_, rfl, List.forall_mem_cons.mpr
            ⟨.doc leftAlone, List.forall_mem_singleton.mpr (.doc rightAlone)⟩⟩
      | nest amount innerAlone => exact ⟨_, rfl, List.forall_mem_singleton.mpr (.doc innerAlone)⟩
      | union _ _ flatAlone brokenAlone =>
          exact ⟨_, rfl, List.forall_mem_cons.mpr
            ⟨.doc flatAlone, List.forall_mem_singleton.mpr (.doc brokenAlone)⟩⟩
      | aligned _ innerAlone =>
          exact ⟨_, rfl, List.forall_mem_singleton.mpr (.alignAt column innerAlone)⟩
      | _ => exact ⟨_, rfl, List.forall_mem_nil _⟩

/-- No host is asked for anything by what stands alone, so any meaning will do. -/
theorem Value.Standalone.follows (host : Host σ) (meaning : Meaning) :
    host.Follows meaning Standalone where
  gives alone := by
    cases alone with
    | alignAt => exact fun _ => rfl
    | doc alone => cases alone <;> exact fun _ => rfl
  closed {indent column value move} alone answers := by
    obtain ⟨sameMove, moveEq, inside⟩ := safe meaning.host alone indent column ()
    cases moveEq.symm.trans answers
    exact inside

namespace Doc.Standalone

theorem settles (alone : document.Standalone) (meaning : Meaning) :
    (Value.doc document).Settles meaning := by
  induction alone with
  | blank kept => exact .blank kept
  | text fragment => exact .text fragment
  | line => exact .line
  | concat _ _ leftSettles rightSettles => exact .concat leftSettles rightSettles
  | nest amount _ innerSettles => exact .nest amount innerSettles
  | union _ _ _ _ flatSettles brokenSettles => exact .union flatSettles brokenSettles
  | aligned label _ innerSettles => exact settles_aligned innerSettles label

/-- The course over a document that stands alone comes to the end. -/
theorem exists_course (alone : document.Standalone) (meaning : Meaning)
    (width column indent : Int) :
    ∃ events, Course meaning width column [⟨indent, .doc document⟩] events none := by
  let parts : List Obligation := [⟨indent, .doc document⟩]
  have settles : ∀ part ∈ parts, part.value.Settles meaning :=
    List.forall_mem_singleton.mpr (alone.settles meaning)
  have inside : ∀ part ∈ parts, part.value.Standalone := List.forall_mem_singleton.mpr (.doc alone)
  obtain ⟨⟨items, ending⟩, prescribed⟩ := Prescribed.exists_of_settles width settles column
  obtain ⟨events, course, -⟩ := prescribed.exists_course
  cases ending with
  | none => exact ⟨events, course⟩
  | some cause =>
      obtain ⟨store, last, run, fails⟩ :=
        (Walk.ends_iff_course meaning.realizes_host column parts ()).mpr course
      have neverFails :=
        Walk.neverFails_start (Value.Standalone.safe meaning.host) inside width column ()
      exact absurd fails (neverFails run cause store)

/-- A walk over a document that stands alone emits what its course reports, whatever the host. -/
theorem emits (alone : document.Standalone) (host : Host σ) {events : List Event}
    {ending : Option Error}
    (course : Course meaning width column [⟨indent, .doc document⟩] events ending) (state : σ) :
    (Walk.start column [⟨indent, .doc document⟩] state).Emits host width
      ⟨itemsOf events, ending⟩ :=
  Walk.emits_of_course (Value.Standalone.follows host meaning) course
    (List.forall_mem_singleton.mpr (.doc alone)) rfl (Work.obligations_ofList _)
    Memory.reliable_empty

/-- A walk over a document that stands alone emits what is prescribed, whatever the host. -/
theorem emits_prescribed (alone : document.Standalone) (host : Host σ) {layout : Layout}
    (prescribed : Prescribed meaning width column [⟨indent, .doc document⟩] layout) (state : σ) :
    (Walk.start column [⟨indent, .doc document⟩] state).Emits host width layout := by
  obtain ⟨events, course, itemsEq⟩ := prescribed.exists_course
  have emits := alone.emits host course state
  rwa [itemsEq] at emits

end Doc.Standalone

end DocLayout
