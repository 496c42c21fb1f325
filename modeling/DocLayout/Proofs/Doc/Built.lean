import DocLayout.Doc.Build
import DocLayout.Proofs.Doc.OneLine

/-!
# Documents that are built

Documents without deferred parts come from texts and line breaks by concatenation, nesting and
grouping.  A property of documents is stable if texts and line breaks have it and those three keep
it.  Then the building functions keep it as well, and everything that is built from strings by them
has it.

The functions take objects and read them as documents, so the property is carried over to values: it
holds of a value if it holds of the document that the value is read as.
-/

namespace DocLayout

/-- Nothing is dropped where neither document is the droppable blank. -/
theorem Doc.append_of_ne_empty {left right : Doc} (leftNotEmpty : left ≠ .empty)
    (rightNotEmpty : right ≠ .empty) : left.append right = .concat left right := by
  unfold append
  split
  · exact absurd rfl leftNotEmpty
  · exact absurd rfl rightNotEmpty
  · rfl

/-- A property of documents that building without deferral keeps. -/
structure Doc.Stable (P : Doc → Prop) : Prop where
  empty : P .empty
  text (fragment : Fragment) : P (.text fragment)
  line : P .line
  concat {left right : Doc} (leftHolds : P left) (rightHolds : P right) : P (.concat left right)
  nest (amount : Amount) {inner : Doc} (innerHolds : P inner) : P (.nest amount inner)
  group {broken : Doc} {flat : Value} (brokenHolds : P broken)
    (flattens : broken.oneLine = .ok flat) (flatIdentity brokenIdentity : Identity) :
    P (.union ⟨flatIdentity, flat⟩ ⟨brokenIdentity, .doc broken⟩)

/-- The document that a value is read as has a property, if there is one. -/
def Value.ReadsAs (P : Doc → Prop) (value : Value) : Prop :=
  ∀ document, Doc.ofValue value = .ok document → P document

theorem Value.readsAs_doc_iff {P : Doc → Prop} {document : Doc} :
    Value.ReadsAs P (.doc document) ↔ P document := by
  constructor
  · intro reads
    exact reads document rfl
  · intro holds read readEq
    cases readEq
    exact holds

/-- A sequence that succeeds does so step by step. -/
theorem Build.exists_of_bind {α β : Type} {first : Except Error α} {next : α → Except Error β}
    {result : β} (made : (first >>= next) = .ok result) :
    ∃ value, first = .ok value ∧ next value = .ok result := by
  cases first with
  | error cause => cases made
  | ok value => exact ⟨value, rfl, made⟩

theorem Build.eq_or_mem_of_mem_intersperse {separator object : Object} :
    ∀ {objects : List Object}, object ∈ objects.intersperse separator →
      object = separator ∨ object ∈ objects
  | [], member => .inr member
  | [_], member => .inr member
  | first :: second :: rest, member => by
      rw [List.intersperse_cons_cons] at member
      rcases List.mem_cons.mp member with rfl | member
      · exact .inr List.mem_cons_self
      · rcases List.mem_cons.mp member with rfl | later
        · exact .inl rfl
        · exact (eq_or_mem_of_mem_intersperse later).imp id (List.mem_cons_of_mem first)

namespace Doc.Stable

variable {P : Doc → Prop} {label : Nat} {document : Identified Doc}

theorem of_ofString (stable : Stable P) {content : String} {made : Doc}
    (reads : Doc.ofString content = .ok made) : P made := by
  cases found : Fragment.ofString? content with
  | none =>
      rw [Doc.ofString, found] at reads
      cases reads
  | some fragment =>
      rw [Doc.ofString, found] at reads
      cases reads
      exact stable.text fragment

theorem readsAs_str (stable : Stable P) (content : String) : Value.ReadsAs P (.str content) := by
  intro read readEq
  by_cases blank : content = ""
  · rw [Doc.ofValue, if_pos blank] at readEq
    cases readEq
    exact stable.empty
  · rw [Doc.ofValue, if_neg blank] at readEq
    exact stable.of_ofString readEq

theorem append (stable : Stable P) {left right : Doc} (leftHolds : P left) (rightHolds : P right) :
    P (left.append right) := by
  unfold Doc.append
  split
  · exact rightHolds
  · exact leftHolds
  · exact stable.concat leftHolds rightHolds

/-! ## Building functions -/

theorem of_cast {object : Object} (reads : object.content.ReadsAs P)
    (made : Build.cast label object = .ok document) : P document.content := by
  have contentEq := Build.content_cast label object
  rw [made] at contentEq
  exact reads document.content contentEq.symm

theorem of_text (stable : Stable P) {value : Value}
    (made : Build.text label value = .ok document) : P document.content := by
  cases value with
  | str content =>
      obtain ⟨read, readEq, made⟩ := Build.exists_of_bind made
      cases made
      exact stable.of_ofString readEq
  | _ => cases made

theorem of_char (stable : Stable P) {value : Value}
    (made : Build.char label value = .ok document) : P document.content := by
  cases value with
  | str content =>
      simp only [Build.char] at made
      by_cases single : content.length = 1
      · rw [if_pos single] at made
        exact stable.of_text made
      · rw [if_neg single] at made
        cases made
  | _ => cases made

theorem of_append (stable : Stable P) {left right : Object}
    (leftReads : left.content.ReadsAs P) (rightReads : right.content.ReadsAs P)
    (made : Build.append label left right = .ok document) : P document.content := by
  obtain ⟨first, firstEq, made⟩ := Build.exists_of_bind made
  obtain ⟨second, secondEq, made⟩ := Build.exists_of_bind made
  cases made
  rw [Identified.content_append]
  exact stable.append (of_cast leftReads firstEq) (of_cast rightReads secondEq)

theorem of_concat (stable : Stable P) {objects : List Object}
    (reads : ∀ object ∈ objects, object.content.ReadsAs P)
    (made : Build.concat label objects = .ok document) : P document.content := by
  induction objects generalizing document with
  | nil =>
      cases made
      exact stable.empty
  | cons object rest inductionHypothesis =>
      obtain ⟨objectReads, restReads⟩ := List.forall_mem_cons.mp reads
      obtain ⟨joined, joinedEq, made⟩ := Build.exists_of_bind made
      obtain ⟨first, firstEq, made⟩ := Build.exists_of_bind made
      cases made
      rw [Identified.content_append]
      exact stable.append (of_cast objectReads firstEq) (inductionHypothesis restReads joinedEq)

theorem of_join (stable : Stable P) {separator : Object} {objects : List Object}
    (separatorReads : separator.content.ReadsAs P)
    (reads : ∀ object ∈ objects, object.content.ReadsAs P)
    (made : Build.join label separator objects = .ok document) : P document.content := by
  have rowReads : ∀ object ∈ objects.intersperse separator, object.content.ReadsAs P := by
    intro object member
    rcases Build.eq_or_mem_of_mem_intersperse member with rfl | old
    · exact separatorReads
    · exact reads object old
  exact stable.of_concat rowReads made

theorem of_nest (stable : Stable P) {amount : Value} {object : Object}
    (reads : object.content.ReadsAs P) (made : Build.nest label amount object = .ok document) :
    P document.content := by
  obtain ⟨inner, innerEq, made⟩ := Build.exists_of_bind made
  obtain ⟨nested, nestedEq, made⟩ := Build.exists_of_bind made
  cases made
  cases amount with
  | num amount =>
      cases nestedEq
      exact stable.nest amount (of_cast reads innerEq)
  | _ => cases nestedEq

theorem of_group (stable : Stable P) {object : Object} (reads : object.content.ReadsAs P)
    (made : Build.group label object = .ok document) : P document.content := by
  obtain ⟨broken, brokenEq, made⟩ := Build.exists_of_bind made
  obtain ⟨flat, flatEq, made⟩ := Build.exists_of_bind made
  cases made
  have flattens := Identified.content_flatten label broken.object
  rw [flatEq] at flattens
  exact stable.group (of_cast reads brokenEq)
    ((Value.flatten_doc broken.content).symm.trans flattens.symm) flat.identity broken.identity

theorem of_surround (stable : Stable P) {left right object : Object}
    (leftReads : left.content.ReadsAs P) (rightReads : right.content.ReadsAs P)
    (reads : object.content.ReadsAs P)
    (made : Build.surround label left right object = .ok document) : P document.content := by
  obtain ⟨opened, openedEq, made⟩ := Build.exists_of_bind made
  have openedReads := Value.readsAs_doc_iff.mpr (stable.of_append leftReads reads openedEq)
  exact stable.of_append openedReads rightReads made

theorem of_hsep (stable : Stable P) {objects : List Object}
    (reads : ∀ object ∈ objects, object.content.ReadsAs P)
    (made : Build.hsep label objects = .ok document) : P document.content := by
  rw [Build.hsep] at made
  exact stable.of_join (stable.readsAs_str " ") reads made

theorem of_vsep (stable : Stable P) {objects : List Object}
    (reads : ∀ object ∈ objects, object.content.ReadsAs P)
    (made : Build.vsep label objects = .ok document) : P document.content := by
  rw [Build.vsep] at made
  exact stable.of_join (Value.readsAs_doc_iff.mpr stable.line) reads made

theorem of_sep (stable : Stable P) {objects : List Object}
    (reads : ∀ object ∈ objects, object.content.ReadsAs P)
    (made : Build.sep label objects = .ok document) : P document.content := by
  obtain ⟨rows, rowsEq, made⟩ := Build.exists_of_bind made
  exact stable.of_group (Value.readsAs_doc_iff.mpr (stable.of_vsep reads rowsEq)) made

end Doc.Stable

/-- What the building functions make of strings, the droppable blank, line breaks and the choice
between a space and a line break. -/
inductive Built : Object → Prop where
  | string (identity : Identity) (content : String) : Built ⟨identity, .str content⟩
  | empty : Built Identified.empty.object
  | line : Built ⟨.shared, .doc .line⟩
  | softline (identity : Identity) : Built ⟨identity, .doc .softline⟩
  | text {label : Nat} {value : Value} {document : Identified Doc}
      (made : Build.text label value = .ok document) : Built document.object
  | char {label : Nat} {value : Value} {document : Identified Doc}
      (made : Build.char label value = .ok document) : Built document.object
  | append {label : Nat} {left right : Object} {document : Identified Doc} (leftBuilt : Built left)
      (rightBuilt : Built right) (made : Build.append label left right = .ok document) :
      Built document.object
  | concat {label : Nat} {objects : List Object} {document : Identified Doc}
      (built : ∀ object ∈ objects, Built object)
      (made : Build.concat label objects = .ok document) : Built document.object
  | join {label : Nat} {separator : Object} {objects : List Object} {document : Identified Doc}
      (separatorBuilt : Built separator) (built : ∀ object ∈ objects, Built object)
      (made : Build.join label separator objects = .ok document) : Built document.object
  | hsep {label : Nat} {objects : List Object} {document : Identified Doc}
      (built : ∀ object ∈ objects, Built object) (made : Build.hsep label objects = .ok document) :
      Built document.object
  | vsep {label : Nat} {objects : List Object} {document : Identified Doc}
      (built : ∀ object ∈ objects, Built object) (made : Build.vsep label objects = .ok document) :
      Built document.object
  | sep {label : Nat} {objects : List Object} {document : Identified Doc}
      (built : ∀ object ∈ objects, Built object) (made : Build.sep label objects = .ok document) :
      Built document.object
  | surround {label : Nat} {left right object : Object} {document : Identified Doc}
      (leftBuilt : Built left) (rightBuilt : Built right) (built : Built object)
      (made : Build.surround label left right object = .ok document) : Built document.object
  | nest {label : Nat} {amount : Value} {object : Object} {document : Identified Doc}
      (built : Built object) (made : Build.nest label amount object = .ok document) :
      Built document.object
  | group {label : Nat} {object : Object} {document : Identified Doc} (built : Built object)
      (made : Build.group label object = .ok document) : Built document.object

/-- Stable properties hold of everything that is built. -/
theorem Built.readsAs {P : Doc → Prop} (stable : Doc.Stable P) {object : Object}
    (built : Built object) : object.content.ReadsAs P := by
  induction built with
  | string identity content => exact stable.readsAs_str content
  | empty => exact Value.readsAs_doc_iff.mpr stable.empty
  | line => exact Value.readsAs_doc_iff.mpr stable.line
  | softline => exact Value.readsAs_doc_iff.mpr (stable.group stable.line rfl .shared .shared)
  | text made => exact Value.readsAs_doc_iff.mpr (stable.of_text made)
  | char made => exact Value.readsAs_doc_iff.mpr (stable.of_char made)
  | append _ _ made leftReads rightReads =>
      exact Value.readsAs_doc_iff.mpr (stable.of_append leftReads rightReads made)
  | concat _ made reads => exact Value.readsAs_doc_iff.mpr (stable.of_concat reads made)
  | join _ _ made separatorReads reads =>
      exact Value.readsAs_doc_iff.mpr (stable.of_join separatorReads reads made)
  | hsep _ made reads => exact Value.readsAs_doc_iff.mpr (stable.of_hsep reads made)
  | vsep _ made reads => exact Value.readsAs_doc_iff.mpr (stable.of_vsep reads made)
  | sep _ made reads => exact Value.readsAs_doc_iff.mpr (stable.of_sep reads made)
  | surround _ _ _ made leftReads rightReads reads =>
      exact Value.readsAs_doc_iff.mpr (stable.of_surround leftReads rightReads reads made)
  | nest _ made reads => exact Value.readsAs_doc_iff.mpr (stable.of_nest reads made)
  | group _ made reads => exact Value.readsAs_doc_iff.mpr (stable.of_group reads made)

end DocLayout
