import DocLayout.Proofs.Doc.Built
import Mathlib.Data.List.Forall2

/-!
# Documents in a row

Documents in a row make a chain that leans to the right: each document stands in front of the chain
of those behind it, and one document alone is the chain itself.  Droppable blanks are left out.  The
row is read from its last object to its first, so of several objects that are no documents the last
one is reported.

Joined objects stand at the even places of a row, and the separator at the odd ones.
-/

namespace DocLayout

namespace Identified

/-- Documents one after the other, nested to the right.  Each concatenation is a new object. -/
def chain (label : Nat) : List (Identified Doc) → Identified Doc
  | [] => .empty
  | [document] => document
  | document :: rest => ⟨.made label, .concat document.content (chain label rest).content⟩

variable {label : Nat} {left right document : Identified Doc} {documents : List (Identified Doc)}

theorem append_of_left_empty (empty : left.content = .empty) : left.append label right = right := by
  rw [append, empty]

theorem append_empty_of_ne (notEmpty : left.content ≠ .empty) :
    left.append label .empty = left := by
  unfold append
  split
  · exact absurd ‹_› notEmpty
  · rfl
  · exact absurd rfl ‹_›

theorem append_of_ne_empty (leftNotEmpty : left.content ≠ .empty)
    (rightNotEmpty : right.content ≠ .empty) :
    left.append label right = ⟨.made label, .concat left.content right.content⟩ := by
  unfold append
  split
  · exact absurd ‹_› leftNotEmpty
  · exact absurd ‹_› rightNotEmpty
  · rfl

theorem chain_ne_empty (notEmpty : ∀ other ∈ document :: documents, other.content ≠ .empty) :
    (chain label (document :: documents)).content ≠ .empty := by
  cases documents with
  | nil => exact notEmpty document List.mem_cons_self
  | cons next rest => simp [chain]

/-- A document in front of a chain makes a longer chain. -/
theorem append_chain (notEmpty : ∀ other ∈ document :: documents, other.content ≠ .empty) :
    document.append label (chain label documents) = chain label (document :: documents) := by
  obtain ⟨documentNotEmpty, restNotEmpty⟩ := List.forall_mem_cons.mp notEmpty
  cases documents with
  | nil => exact append_empty_of_ne documentNotEmpty
  | cons next rest => exact append_of_ne_empty documentNotEmpty (chain_ne_empty restNotEmpty)

end Identified

namespace Build

variable {label : Nat} {object separator : Object} {objects : List Object} {place : Nat}
  {cause : Error} {joined : Identified Doc}

theorem concat_cons (label : Nat) (object : Object) (objects : List Object) :
    concat label (object :: objects) = (do
      let rest ← concat label objects
      let first ← cast label object
      return first.append label rest) := rfl

/-- Objects that are read as documents are put together to the chain of those that are kept. -/
theorem concat_of_reads {documents : List (Identified Doc)}
    (reads : List.Forall₂ (fun object document => cast label object = .ok document) objects
      documents) :
    concat label objects = .ok (.chain label (documents.filter (·.content ≠ .empty))) := by
  induction reads with
  | nil => rfl
  | @cons object document objects documents objectReads _ inductionHypothesis =>
      rw [concat_cons, inductionHypothesis, objectReads]
      change Except.ok (document.append label _) = _
      by_cases empty : document.content = .empty
      · rw [Identified.append_of_left_empty empty, List.filter_cons_of_neg (by simpa using empty)]
      · have kept : ∀ other ∈ document :: documents.filter (·.content ≠ .empty),
            other.content ≠ .empty := by
          simp [empty]
        rw [List.filter_cons_of_pos (by simpa using empty), Identified.append_chain kept]

/-- A row is put together exactly if each of its objects is read as a document. -/
theorem exists_concat_iff :
    (∃ joined, concat label objects = .ok joined) ↔
      ∀ object ∈ objects, ∃ document, cast label object = .ok document := by
  induction objects with
  | nil => exact ⟨fun _ => List.forall_mem_nil _, fun _ => ⟨.empty, rfl⟩⟩
  | cons object objects inductionHypothesis =>
      rw [List.forall_mem_cons, ← inductionHypothesis, concat_cons]
      constructor
      · rintro ⟨joined, concatEq⟩
        obtain ⟨rest, restEq, concatEq⟩ := exists_of_bind concatEq
        obtain ⟨first, firstEq, -⟩ := exists_of_bind concatEq
        exact ⟨⟨first, firstEq⟩, ⟨rest, restEq⟩⟩
      · rintro ⟨⟨first, firstEq⟩, ⟨rest, restEq⟩⟩
        rw [firstEq, restEq]
        exact ⟨_, rfl⟩

/-! ## The object that is reported -/

/-- The object at a place of a row is the last one that is no document, and this is why. -/
structure Reports (label : Nat) (objects : List Object) (place : Nat) (cause : Error) : Prop where
  refused : ∃ object, objects[place]? = some object ∧ cast label object = .error cause
  later {other : Nat} {object : Object} (behind : place < other)
    (found : objects[other]? = some object) : ∃ document, cast label object = .ok document

theorem reports_zero_iff :
    Reports label (object :: objects) 0 cause ↔
      cast label object = .error cause ∧
        ∀ other ∈ objects, ∃ document, cast label other = .ok document := by
  constructor
  · rintro ⟨⟨first, found, refused⟩, later⟩
    cases found
    refine ⟨refused, fun other member => ?_⟩
    obtain ⟨place, found⟩ := List.getElem?_of_mem member
    exact later (Nat.succ_pos place) found
  · rintro ⟨refused, reads⟩
    refine ⟨⟨object, rfl, refused⟩, fun {other} {_} behind found => ?_⟩
    cases other with
    | zero => cases behind
    | succ other => exact reads _ (List.mem_of_getElem? found)

theorem reports_succ_iff :
    Reports label (object :: objects) (place + 1) cause ↔ Reports label objects place cause := by
  constructor
  · rintro ⟨refused, later⟩
    exact ⟨refused, fun behind found => later (Nat.succ_lt_succ behind) found⟩
  · rintro ⟨refused, later⟩
    refine ⟨refused, fun {other} {_} behind found => ?_⟩
    cases other with
    | zero => cases behind
    | succ other => exact later (Nat.lt_of_succ_lt_succ behind) found

/-- A row fails for the cause of the last object that is no document. -/
theorem concat_eq_error_iff :
    concat label objects = .error cause ↔ ∃ place, Reports label objects place cause := by
  induction objects with
  | nil =>
      constructor
      · intro failed
        cases failed
      · rintro ⟨place, ⟨object, found, -⟩, -⟩
        cases found
  | cons object objects inductionHypothesis =>
      rw [concat_cons]
      cases restEq : concat label objects with
      | error other =>
          have notRead : ¬ ∀ other ∈ objects, ∃ document, cast label other = .ok document := by
            rw [← exists_concat_iff, restEq]
            rintro ⟨joined, ok⟩
            cases ok
          change Except.error other = Except.error cause ↔ _
          rw [← restEq, inductionHypothesis]
          constructor
          · rintro ⟨place, reports⟩
            exact ⟨place + 1, reports_succ_iff.mpr reports⟩
          · rintro ⟨_ | place, reports⟩
            · exact absurd (reports_zero_iff.mp reports).2 notRead
            · exact ⟨place, reports_succ_iff.mp reports⟩
      | ok rest =>
          have read := exists_concat_iff.mp ⟨rest, restEq⟩
          have noneReported : ¬ ∃ place, Reports label objects place cause := by
            rw [← inductionHypothesis, restEq]
            exact nofun
          constructor
          · intro failed
            refine ⟨0, reports_zero_iff.mpr ⟨?_, read⟩⟩
            cases castEq : cast label object with
            | ok first =>
                rw [castEq] at failed
                cases failed
            | error other =>
                rw [castEq] at failed
                cases failed
                rfl
          · rintro ⟨_ | place, reports⟩
            · rw [(reports_zero_iff.mp reports).1]
              rfl
            · exact absurd ⟨place, reports_succ_iff.mp reports⟩ noneReported

/-! ## Separators -/

/-- A row has objects at its even places, and at each odd one the separator. -/
structure Separated (separator : Object) (objects row : List Object) : Prop where
  length_eq : row.length = 2 * objects.length - 1
  even (place : Nat) : row[2 * place]? = objects[place]?
  odd {place : Nat} (between : place + 1 < objects.length) : row[2 * place + 1]? = some separator

theorem separated_intersperse (separator : Object) (objects : List Object) :
    Separated separator objects (objects.intersperse separator) where
  length_eq := List.length_intersperse
  even _ := List.getElem?_intersperse_two_mul
  odd := List.getElem?_intersperse_two_mul_add_one

/-- A separator that is no document is reported exactly if it stands between objects of which the
last one is a document. -/
theorem Separated.reports_odd_iff {row : List Object} (separated : Separated separator objects row)
    (refused : cast label separator = .error cause) :
    (∃ place, Reports label row (2 * place + 1) cause) ↔
      2 ≤ objects.length ∧
        ∃ last document, objects.getLast? = some last ∧ cast label last = .ok document := by
  have lengthEq := separated.length_eq
  constructor
  · rintro ⟨place, ⟨object, found, -⟩, later⟩
    obtain ⟨inside, -⟩ := List.getElem?_eq_some_iff.mp found
    obtain ⟨last, lastFound⟩ : ∃ last, objects[objects.length - 1]? = some last :=
      ⟨_, List.getElem?_eq_getElem (by omega)⟩
    obtain ⟨document, castEq⟩ :=
      later (by omega) ((separated.even (objects.length - 1)).trans lastFound)
    exact ⟨by omega, last, document, List.getLast?_eq_getElem?.trans lastFound, castEq⟩
  · rintro ⟨several, last, document, lastEq, castEq⟩
    have between : objects.length - 2 + 1 < objects.length := by omega
    refine ⟨objects.length - 2, ⟨separator, separated.odd between, refused⟩, ?_⟩
    intro other object behind found
    obtain ⟨inside, -⟩ := List.getElem?_eq_some_iff.mp found
    have otherEq : other = 2 * (objects.length - 1) := by omega
    rw [otherEq, separated.even, ← List.getLast?_eq_getElem?, lastEq] at found
    cases found
    exact ⟨document, castEq⟩

theorem intersperse_append {front back : List Object} (frontNotEmpty : front ≠ [])
    (backNotEmpty : back ≠ []) :
    (front ++ back).intersperse separator =
      front.intersperse separator ++ separator :: back.intersperse separator := by
  obtain ⟨next, back, rfl⟩ := List.exists_cons_of_ne_nil backNotEmpty
  induction front with
  | nil => exact absurd rfl frontNotEmpty
  | cons first front inductionHypothesis =>
      cases front with
      | nil => exact List.intersperse_cons_cons
      | cons second front =>
          have rest := inductionHypothesis (List.cons_ne_nil second front)
          rw [List.cons_append] at rest
          rw [List.cons_append, List.cons_append, List.intersperse_cons_cons, rest,
            List.intersperse_cons_cons, List.cons_append, List.cons_append]

end Build

end DocLayout
