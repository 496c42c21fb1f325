import DocLayout.Proofs.Doc.Grouped

/-!
# Documents that are composed

Composed documents come from the same building functions as those without deferral, and from those
that defer: alignment, reports of width, and callbacks of the host.  Only some of these callbacks
are trusted, and only trusted ones are used.

A sound document has documents as the members of its choices, and only deferred parts of these
kinds.  All that is composed is sound, and so is the one-line form of a sound document.
-/

namespace DocLayout

/-- What the text of a fragment is read as: the droppable blank if it is empty. -/
def Fragment.doc (fragment : Fragment) : Doc :=
  if fragment.text = "" then .empty else .text fragment

theorem Fragment.ofValue_str (fragment : Fragment) :
    Doc.ofValue (.str fragment.text) = .ok fragment.doc := by
  by_cases blank : fragment.text = ""
  · rw [Doc.ofValue, if_pos blank, doc, if_pos blank]
  · rw [Doc.ofValue, if_neg blank, Doc.ofString, ofString?_eq_some_iff.mpr rfl, doc, if_neg blank]

/-- An object that is read as a document is read with some identity. -/
theorem Build.exists_cast {object : Object} {document : Doc}
    (reads : Doc.ofValue object.content = .ok document) (label : Nat) :
    ∃ identity, Build.cast label object = .ok ⟨identity, document⟩ := by
  have contentEq := content_cast label object
  rw [reads] at contentEq
  cases castEq : cast label object with
  | error cause => simp [castEq, Functor.map, Except.map] at contentEq
  | ok read =>
      rw [castEq] at contentEq
      cases contentEq
      exact ⟨read.identity, rfl⟩

/-- All members of choices are documents, and all deferred parts are alignments, reports of width to
trusted callbacks, or what trusted callbacks make. -/
inductive Doc.Sound (trusted : Nat → Prop) : Doc → Prop where
  | blank (kept : Bool) : Sound trusted (.blank kept)
  | text (fragment : Fragment) : Sound trusted (.text fragment)
  | line : Sound trusted .line
  | concat {left right : Doc} (leftSound : Sound trusted left) (rightSound : Sound trusted right) :
      Sound trusted (.concat left right)
  | nest (amount : Amount) {inner : Doc} (innerSound : Sound trusted inner) :
      Sound trusted (.nest amount inner)
  | union {flat broken : Doc} (flatIdentity brokenIdentity : Identity)
      (flatSound : Sound trusted flat) (brokenSound : Sound trusted broken) :
      Sound trusted (.union ⟨flatIdentity, .doc flat⟩ ⟨brokenIdentity, .doc broken⟩)
  | nesting (identity : Identity) {callback : Nat} (trusts : trusted callback) :
      Sound trusted (.nesting ⟨identity, .function (.custom callback)⟩)
  | column (identity : Identity) {callback : Nat} (trusts : trusted callback) :
      Sound trusted (.column ⟨identity, .function (.custom callback)⟩)
  | aligned (label : Nat) {inner : Doc} (innerSound : Sound trusted inner) :
      Sound trusted (inner.aligned label)
  | withWidth (label : Nat) {inner : Doc} {callback : Nat} (innerSound : Sound trusted inner)
      (trusts : trusted callback) :
      Sound trusted (inner.withWidth label (.function (.custom callback)))
  | widthFrom (start : Int) {callback : Nat} (trusts : trusted callback) :
      Sound trusted (.column ⟨.shared, .function (.widthFrom start (.function (.custom callback)))⟩)

/-- What the building functions make of strings, of the constants, and of what they have made.
Brackets are strings around a document. -/
inductive Composed (trusted : Nat → Prop) : Object → Prop where
  | string (identity : Identity) (content : String) : Composed trusted ⟨identity, .str content⟩
  | empty : Composed trusted Identified.empty.object
  | line : Composed trusted ⟨.shared, .doc .line⟩
  | softline (identity : Identity) : Composed trusted ⟨identity, .doc .softline⟩
  | text {label : Nat} {value : Value} {document : Identified Doc}
      (made : Build.text label value = .ok document) : Composed trusted document.object
  | char {label : Nat} {value : Value} {document : Identified Doc}
      (made : Build.char label value = .ok document) : Composed trusted document.object
  | append {label : Nat} {left right : Object} {document : Identified Doc}
      (leftComposed : Composed trusted left) (rightComposed : Composed trusted right)
      (made : Build.append label left right = .ok document) : Composed trusted document.object
  | concat {label : Nat} {objects : List Object} {document : Identified Doc}
      (composed : ∀ object ∈ objects, Composed trusted object)
      (made : Build.concat label objects = .ok document) : Composed trusted document.object
  | join {label : Nat} {separator : Object} {objects : List Object} {document : Identified Doc}
      (separatorComposed : Composed trusted separator)
      (composed : ∀ object ∈ objects, Composed trusted object)
      (made : Build.join label separator objects = .ok document) :
      Composed trusted document.object
  | hsep {label : Nat} {objects : List Object} {document : Identified Doc}
      (composed : ∀ object ∈ objects, Composed trusted object)
      (made : Build.hsep label objects = .ok document) : Composed trusted document.object
  | vsep {label : Nat} {objects : List Object} {document : Identified Doc}
      (composed : ∀ object ∈ objects, Composed trusted object)
      (made : Build.vsep label objects = .ok document) : Composed trusted document.object
  | sep {label : Nat} {objects : List Object} {document : Identified Doc}
      (composed : ∀ object ∈ objects, Composed trusted object)
      (made : Build.sep label objects = .ok document) : Composed trusted document.object
  | surround {label : Nat} {left right object : Object} {document : Identified Doc}
      (leftComposed : Composed trusted left) (rightComposed : Composed trusted right)
      (composed : Composed trusted object)
      (made : Build.surround label left right object = .ok document) :
      Composed trusted document.object
  | nest {label : Nat} {amount : Value} {object : Object} {document : Identified Doc}
      (composed : Composed trusted object)
      (made : Build.nest label amount object = .ok document) : Composed trusted document.object
  | group {label : Nat} {object : Object} {document : Identified Doc}
      (composed : Composed trusted object) (made : Build.group label object = .ok document) :
      Composed trusted document.object
  | nesting (identity callbackIdentity : Identity) {callback : Nat} (trusts : trusted callback) :
      Composed trusted ⟨identity, .doc (.nesting ⟨callbackIdentity, .function (.custom callback)⟩)⟩
  | column (identity callbackIdentity : Identity) {callback : Nat} (trusts : trusted callback) :
      Composed trusted ⟨identity, .doc (.column ⟨callbackIdentity, .function (.custom callback)⟩)⟩
  | width {label : Nat} {object : Object} {callback : Nat} {document : Identified Doc}
      (composed : Composed trusted object) (trusts : trusted callback)
      (made : Build.width label object (.function (.custom callback)) = .ok document) :
      Composed trusted document.object
  | align {label : Nat} {object : Object} {document : Identified Doc}
      (composed : Composed trusted object) (made : Build.align label object = .ok document) :
      Composed trusted document.object
  | hang {label : Nat} {amount : Value} {object : Object} {document : Identified Doc}
      (composed : Composed trusted object)
      (made : Build.hang label amount object = .ok document) : Composed trusted document.object
  | indent {label : Nat} {amount : Value} {object : Object} {document : Identified Doc}
      (composed : Composed trusted object)
      (made : Build.indent label amount object = .ok document) : Composed trusted document.object

namespace Doc.Sound

variable {trusted : Nat → Prop} {label : Nat} {object : Object} {document : Identified Doc}

/-- A sound document can be flattened, to a sound document. -/
theorem exists_oneLine {document : Doc} (sound : document.Sound trusted) :
    ∃ flat : Doc, document.oneLine = .ok (.doc flat) ∧ flat.Sound trusted := by
  induction sound with
  | line => exact ⟨.space, rfl, .text _⟩
  | concat _ _ leftHypothesis rightHypothesis =>
      obtain ⟨newLeft, leftEq, leftSound⟩ := leftHypothesis
      obtain ⟨newRight, rightEq, rightSound⟩ := rightHypothesis
      exact ⟨.concat newLeft newRight, oneLine_concat leftEq rightEq, .concat leftSound rightSound⟩
  | nest amount _ inductionHypothesis =>
      obtain ⟨newInner, innerEq, innerSound⟩ := inductionHypothesis
      exact ⟨.nest amount newInner, oneLine_nest amount innerEq, .nest amount innerSound⟩
  | union _ _ flatSound => exact ⟨_, rfl, flatSound⟩
  | blank kept => exact ⟨_, rfl, .blank kept⟩
  | text fragment => exact ⟨_, rfl, .text fragment⟩
  | nesting identity trusts => exact ⟨_, rfl, .nesting identity trusts⟩
  | column identity trusts => exact ⟨_, rfl, .column identity trusts⟩
  | aligned label innerSound => exact ⟨_, rfl, .aligned label innerSound⟩
  | withWidth label innerSound trusts => exact ⟨_, rfl, .withWidth label innerSound trusts⟩
  | widthFrom start trusts => exact ⟨_, rfl, .widthFrom start trusts⟩

/-- To be sound is a stable property. -/
theorem stable : Stable (Sound trusted) where
  empty := .blank false
  text := .text
  line := .line
  concat := .concat
  nest := .nest
  group := by
    intro broken flat brokenSound flattens flatIdentity brokenIdentity
    obtain ⟨flatDoc, flatEq, flatSound⟩ := brokenSound.exists_oneLine
    cases flattens.symm.trans flatEq
    exact .union flatIdentity brokenIdentity flatSound brokenSound

theorem of_align (reads : object.content.ReadsAs (Sound trusted))
    (made : Build.align label object = .ok document) : document.content.Sound trusted := by
  obtain ⟨inner, innerEq, made⟩ := Build.exists_of_bind made
  cases made
  exact .aligned label (Stable.of_cast reads innerEq)

theorem of_width {callback : Nat} (reads : object.content.ReadsAs (Sound trusted))
    (trusts : trusted callback)
    (made : Build.width label object (.function (.custom callback)) = .ok document) :
    document.content.Sound trusted := by
  obtain ⟨inner, innerEq, made⟩ := Build.exists_of_bind made
  cases made
  exact .withWidth label (Stable.of_cast reads innerEq) trusts

theorem of_hang {amount : Value} (reads : object.content.ReadsAs (Sound trusted))
    (made : Build.hang label amount object = .ok document) : document.content.Sound trusted := by
  obtain ⟨inner, innerEq, made⟩ := Build.exists_of_bind made
  exact of_align (Value.readsAs_doc_iff.mpr (stable.of_nest reads innerEq)) made

theorem of_indent {amount : Value} (reads : object.content.ReadsAs (Sound trusted))
    (made : Build.indent label amount object = .ok document) : document.content.Sound trusted := by
  obtain ⟨spaces, -, made⟩ := Build.exists_of_bind made
  obtain ⟨inner, innerEq, made⟩ := Build.exists_of_bind made
  have innerSound := stable.of_append (stable.readsAs_str spaces) reads innerEq
  exact of_hang (Value.readsAs_doc_iff.mpr innerSound) made

end Doc.Sound

namespace Composed

variable {trusted : Nat → Prop}

/-- Whatever is composed is read as a sound document. -/
theorem sound {object : Object} (composed : Composed trusted object) :
    object.content.ReadsAs (Doc.Sound trusted) := by
  have stable : Doc.Stable (Doc.Sound trusted) := Doc.Sound.stable
  induction composed with
  | string identity content => exact stable.readsAs_str content
  | empty => exact Value.readsAs_doc_iff.mpr stable.empty
  | line => exact Value.readsAs_doc_iff.mpr stable.line
  | softline => exact Value.readsAs_doc_iff.mpr (stable.group stable.line rfl .shared .shared)
  | text made => exact Value.readsAs_doc_iff.mpr (stable.of_text made)
  | char made => exact Value.readsAs_doc_iff.mpr (stable.of_char made)
  | append _ _ made leftReads rightReads =>
      exact Value.readsAs_doc_iff.mpr (stable.of_append leftReads rightReads made)
  | concat _ made reads => exact Value.readsAs_doc_iff.mpr (stable.of_concat reads made)
  | join _ _ made separatorReads reads =>
      exact Value.readsAs_doc_iff.mpr (stable.of_join separatorReads reads made)
  | hsep _ made reads => exact Value.readsAs_doc_iff.mpr (stable.of_hsep reads made)
  | vsep _ made reads => exact Value.readsAs_doc_iff.mpr (stable.of_vsep reads made)
  | sep _ made reads => exact Value.readsAs_doc_iff.mpr (stable.of_sep reads made)
  | surround _ _ _ made leftReads rightReads reads =>
      exact Value.readsAs_doc_iff.mpr (stable.of_surround leftReads rightReads reads made)
  | nest _ made reads => exact Value.readsAs_doc_iff.mpr (stable.of_nest reads made)
  | group _ made reads => exact Value.readsAs_doc_iff.mpr (stable.of_group reads made)
  | nesting _ callbackIdentity trusts =>
      exact Value.readsAs_doc_iff.mpr (.nesting callbackIdentity trusts)
  | column _ callbackIdentity trusts =>
      exact Value.readsAs_doc_iff.mpr (.column callbackIdentity trusts)
  | width _ trusts made reads => exact Value.readsAs_doc_iff.mpr (.of_width reads trusts made)
  | align _ made reads => exact Value.readsAs_doc_iff.mpr (.of_align reads made)
  | hang _ made reads => exact Value.readsAs_doc_iff.mpr (.of_hang reads made)
  | indent _ made reads => exact Value.readsAs_doc_iff.mpr (.of_indent reads made)

/-- A composed document can be grouped. -/
theorem exists_group {document : Identified Doc} (composed : Composed trusted document.object)
    (label : Nat) : ∃ grouped, Build.group label document.object = .ok grouped := by
  have documentSound := Value.readsAs_doc_iff.mp composed.sound
  obtain ⟨flat, flattens, -⟩ := documentSound.exists_oneLine
  obtain ⟨identity, groupEq⟩ := Build.exists_group_object flattens label
  exact ⟨_, groupEq⟩

end Composed

end DocLayout
