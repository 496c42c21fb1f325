import DocLayout.Proofs.Doc.Equality
import DocLayout.Proofs.Doc.Flattening

/-!
# The one-line form is a normal form

Flattening does not look into the flat member of a choice.  That it leaves no line breaks and no
choices behind is due to grouping, which puts a one-line form there.  So it holds of grouped
documents, and what has neither line breaks nor choices is its own one-line form, as the same
object.

Grouped documents are closed under the building functions and under flattening.
-/

namespace DocLayout

namespace Doc.IsOneLine

variable {document : Doc}

theorem agree_self (single : document.IsOneLine) :
    Value.Agree (.doc document) (.doc document) := by
  induction single with
  | blank kept => exact .blank kept kept
  | text fragment => exact .text fragment
  | concat _ _ leftAgree rightAgree => exact .concat leftAgree rightAgree
  | nest amount _ innerAgree => exact .nest rfl innerAgree
  | nesting callback => exact .nesting callback
  | column callback => exact .column callback
  | unknown => exact .unknown

/-- On one line there is nothing to replace. -/
theorem oneLine?_eq_none (single : document.IsOneLine) : document.oneLine? = .ok none := by
  induction single with
  | concat _ _ leftEq rightEq =>
      rw [oneLine?, leftEq, rightEq]
      rfl
  | nest _ _ innerEq =>
      rw [oneLine?, innerEq]
      rfl
  | _ => rfl

end Doc.IsOneLine

/-- A document on one line is its own one-line form, as the same object. -/
theorem Identified.flatten_eq_self {document : Identified Doc}
    (single : document.content.IsOneLine) (label : Nat) :
    document.object.flatten label = .ok document.object := by
  rcases document with ⟨identity, content⟩
  have unchanged := (Value.oneLine?_doc content).trans single.oneLine?_eq_none
  unfold flatten
  cases single <;> simp only [map, unchanged] <;> rfl

/-- The one-line form of a grouped document is a document on one line, as an object too. -/
theorem Identified.exists_flatten_of_grouped {document : Identified Doc}
    (grouped : document.content.Grouped) (label : Nat) :
    ∃ flat : Identified Doc, document.object.flatten label = .ok flat.object ∧
      flat.content.IsOneLine := by
  obtain ⟨flat, flattens, single⟩ := grouped.exists_oneLine
  obtain ⟨identity, flatEq⟩ := exists_flatten_object flattens label
  exact ⟨⟨identity, flat⟩, flatEq, single⟩

/-- What is made of several objects by one of the building functions, or of one by flattening. -/
inductive Build.Combines : List Object → Object → Prop where
  | append {label : Nat} {left right : Object} {document : Identified Doc}
      (made : Build.append label left right = .ok document) : Combines [left, right] document.object
  | concat {label : Nat} {objects : List Object} {document : Identified Doc}
      (made : Build.concat label objects = .ok document) : Combines objects document.object
  | join {label : Nat} {separator : Object} {objects : List Object} {document : Identified Doc}
      (made : Build.join label separator objects = .ok document) :
      Combines (separator :: objects) document.object
  | nest {label : Nat} {amount : Value} {object : Object} {document : Identified Doc}
      (made : Build.nest label amount object = .ok document) : Combines [object] document.object
  | group {label : Nat} {object : Object} {document : Identified Doc}
      (made : Build.group label object = .ok document) : Combines [object] document.object
  | surround {label : Nat} {left right object : Object} {document : Identified Doc}
      (made : Build.surround label left right object = .ok document) :
      Combines [left, right, object] document.object
  | flatten {label : Nat} {object flat : Object} (made : object.flatten label = .ok flat) :
      Combines [object] flat

/-- The one-line form of an object that reads as a grouped document reads as one too. -/
theorem Value.ReadsAs.of_flatten {object flat : Object} {label : Nat}
    (reads : object.content.ReadsAs Doc.Grouped) (made : object.flatten label = .ok flat) :
    flat.content.ReadsAs Doc.Grouped := by
  rcases object with ⟨identity, value⟩
  rcases flat with ⟨flatIdentity, flat⟩
  have contentEq := Identified.content_flatten label ⟨identity, value⟩
  rw [made] at contentEq
  have flattens : value.flatten = .ok flat := contentEq.symm
  by_cases isDoc : ∃ document, value = .doc document
  · obtain ⟨document, rfl⟩ := isDoc
    obtain ⟨oneLine, oneLineEq, single⟩ := (readsAs_doc_iff.mp reads).exists_oneLine
    cases ((flatten_doc document).trans oneLineEq).symm.trans flattens
    exact readsAs_doc_iff.mpr single.grouped
  · cases (flatten_eq_self (not_exists.mp isDoc)).symm.trans flattens
    exact reads

/-- Whatever is combined from grouped documents is grouped. -/
theorem Build.Combines.readsAs_grouped {parts : List Object} {whole : Object}
    (combines : Build.Combines parts whole)
    (reads : ∀ part ∈ parts, part.content.ReadsAs Doc.Grouped) :
    whole.content.ReadsAs Doc.Grouped := by
  have stable := Doc.Grouped.stable
  cases combines with
  | append made =>
      have leftReads := reads _ (.head _)
      have rightReads := reads _ (.tail _ (.head _))
      exact Value.readsAs_doc_iff.mpr (stable.of_append leftReads rightReads made)
  | concat made => exact Value.readsAs_doc_iff.mpr (stable.of_concat reads made)
  | join made =>
      obtain ⟨separatorReads, objectsRead⟩ := List.forall_mem_cons.mp reads
      exact Value.readsAs_doc_iff.mpr (stable.of_join separatorReads objectsRead made)
  | nest made =>
      have objectReads := List.forall_mem_singleton.mp reads
      exact Value.readsAs_doc_iff.mpr (stable.of_nest objectReads made)
  | group made =>
      have objectReads := List.forall_mem_singleton.mp reads
      exact Value.readsAs_doc_iff.mpr (stable.of_group objectReads made)
  | surround made =>
      have leftReads := reads _ (.head _)
      have rightReads := reads _ (.tail _ (.head _))
      have objectReads := reads _ (.tail _ (.tail _ (.head _)))
      exact Value.readsAs_doc_iff.mpr (stable.of_surround leftReads rightReads objectReads made)
  | flatten made => exact (List.forall_mem_singleton.mp reads).of_flatten made

/-- The one-line form of a grouped document is a document on one line, and its own one-line form,
which is equal to it.  A document on one line is its own one-line form.  Whatever the building
functions combine from grouped documents is grouped, and so is a one-line form. -/
theorem one_line_form_is_normal :
    (∀ (document : Identified Doc) (label again : Nat), document.content.Grouped →
      ∃ flat : Identified Doc, document.object.flatten label = .ok flat.object ∧
        flat.content.IsOneLine ∧ flat.object.flatten again = .ok flat.object ∧
        flat.content.equal flat.content = true) ∧
    (∀ (document : Identified Doc) (label : Nat), document.content.IsOneLine →
      document.object.flatten label = .ok document.object) ∧
    ∀ (parts : List Object) (whole : Object), Build.Combines parts whole →
      (∀ part ∈ parts, part.content.ReadsAs Doc.Grouped) → whole.content.ReadsAs Doc.Grouped := by
  refine ⟨fun document label again grouped => ?_, fun document label single => ?_,
    fun parts whole combines reads => combines.readsAs_grouped reads⟩
  · obtain ⟨flat, flattens, single⟩ := Identified.exists_flatten_of_grouped grouped label
    exact ⟨flat, flattens, single, Identified.flatten_eq_self single again,
      Doc.equal_eq_true_iff.mpr single.agree_self⟩
  · exact Identified.flatten_eq_self single label

/-- A nested group behind a deferred document. -/
def Identified.nestedSoftline : Identified Doc :=
  ⟨.made 0, .concat (.column ⟨.shared, .function (.custom 0)⟩) (.nest (.int 2) .softline)⟩

theorem Identified.nestedSoftline_grouped : nestedSoftline.content.Grouped :=
  .concat (.column _) (.nest (.int 2) (.group .line rfl .shared .shared))

theorem nestedSoftline_one_line_form :
    Identified.nestedSoftline.content.Grouped ∧
      (∃ flat : Identified Doc, Identified.nestedSoftline.object.flatten 1 = .ok flat.object ∧
        flat.content.IsOneLine ∧ flat.object.flatten 2 = .ok flat.object ∧
        flat.content.equal flat.content = true) ∧
      Doc.space.IsOneLine ∧
      Identified.flatten 1 ⟨.shared, .doc .space⟩ = .ok ⟨.shared, .doc .space⟩ ∧
      ∃ group, Build.Combines [Identified.nestedSoftline.object] group ∧
        group.content.ReadsAs Doc.Grouped := by
  have grouped := Identified.nestedSoftline_grouped
  have spaceSingle : Doc.space.IsOneLine := .text _
  obtain ⟨flat, flattens, -⟩ := Identified.exists_flatten_of_grouped grouped 1
  have combines := Build.Combines.group (Build.group_object_eq_ok_iff.mpr ⟨_, flattens, rfl⟩)
  have reads : ∀ part ∈ [Identified.nestedSoftline.object], part.content.ReadsAs Doc.Grouped :=
    List.forall_mem_singleton.mpr (Value.readsAs_doc_iff.mpr grouped)
  obtain ⟨normal, unchanged, closed⟩ := one_line_form_is_normal
  exact ⟨grouped, normal _ 1 2 grouped, spaceSingle, unchanged ⟨.shared, .space⟩ 1 spaceSingle,
    _, combines, closed _ _ combines reads⟩

end DocLayout
