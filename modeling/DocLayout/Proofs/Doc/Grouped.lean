import DocLayout.Proofs.Doc.Built

/-!
# Documents whose choices are groups

Grouping makes a choice of the one-line form of a document and the document itself.  In a grouped
document every choice was made so, apart from those that callbacks make.  Its one-line form is then
a document on one line, which is its own one-line form.
-/

namespace DocLayout

/-- All choices in a document were made by grouping.  What callbacks make is not looked at. -/
inductive Doc.Grouped : Doc → Prop where
  | blank (kept : Bool) : Grouped (.blank kept)
  | text (fragment : Fragment) : Grouped (.text fragment)
  | line : Grouped .line
  | concat {left right : Doc} (leftGrouped : Grouped left) (rightGrouped : Grouped right) :
      Grouped (.concat left right)
  | nest (amount : Amount) {inner : Doc} (innerGrouped : Grouped inner) :
      Grouped (.nest amount inner)
  | group {broken : Doc} {flat : Value} (brokenGrouped : Grouped broken)
      (flattens : broken.oneLine = .ok flat) (flatIdentity brokenIdentity : Identity) :
      Grouped (.union ⟨flatIdentity, flat⟩ ⟨brokenIdentity, .doc broken⟩)
  | nesting (callback : Object) : Grouped (.nesting callback)
  | column (callback : Object) : Grouped (.column callback)
  | unknown : Grouped .unknown

namespace Doc

theorem oneLine_concat_eq_ok_iff {left right : Doc} {value : Value} :
    (Doc.concat left right).oneLine = .ok value ↔
      ∃ newLeft newRight, left.oneLine = .ok (.doc newLeft) ∧ right.oneLine = .ok (.doc newRight) ∧
        value = .doc (.concat newLeft newRight) := by
  rw [oneLine]
  constructor
  · intro made
    obtain ⟨leftValue, leftEq, made⟩ := Build.exists_of_bind made
    obtain ⟨rightValue, rightEq, made⟩ := Build.exists_of_bind made
    obtain ⟨joined, joinedEq, made⟩ := Build.exists_of_bind made
    cases leftValue with
    | doc newLeft =>
        cases rightValue with
        | doc newRight =>
            cases joinedEq
            cases made
            exact ⟨newLeft, newRight, leftEq, rightEq, rfl⟩
        | _ => cases joinedEq
    | _ => cases joinedEq
  · rintro ⟨newLeft, newRight, leftEq, rightEq, rfl⟩
    rw [leftEq, rightEq]
    rfl

theorem oneLine_nest_eq_ok_iff {amount : Amount} {inner : Doc} {value : Value} :
    (Doc.nest amount inner).oneLine = .ok value ↔
      ∃ newInner, inner.oneLine = .ok (.doc newInner) ∧ value = .doc (.nest amount newInner) := by
  rw [oneLine]
  constructor
  · intro made
    obtain ⟨innerValue, innerEq, made⟩ := Build.exists_of_bind made
    obtain ⟨nested, nestedEq, made⟩ := Build.exists_of_bind made
    cases innerValue with
    | doc newInner =>
        cases nestedEq
        cases made
        exact ⟨newInner, innerEq, rfl⟩
    | _ => cases nestedEq
  · rintro ⟨newInner, innerEq, rfl⟩
    rw [innerEq]
    rfl

theorem oneLine_concat {left right flatLeft flatRight : Doc}
    (leftEq : left.oneLine = .ok (.doc flatLeft)) (rightEq : right.oneLine = .ok (.doc flatRight)) :
    (Doc.concat left right).oneLine = .ok (.doc (.concat flatLeft flatRight)) :=
  oneLine_concat_eq_ok_iff.mpr ⟨flatLeft, flatRight, leftEq, rightEq, rfl⟩

theorem oneLine_nest {inner flat : Doc} (amount : Amount)
    (innerEq : inner.oneLine = .ok (.doc flat)) :
    (Doc.nest amount inner).oneLine = .ok (.doc (.nest amount flat)) :=
  oneLine_nest_eq_ok_iff.mpr ⟨flat, innerEq, rfl⟩

/-- A document on one line is its own one-line form. -/
theorem IsOneLine.oneLine_eq {document : Doc} (single : document.IsOneLine) :
    document.oneLine = .ok (.doc document) := by
  induction single with
  | concat _ _ leftEq rightEq => exact oneLine_concat leftEq rightEq
  | nest amount _ innerEq => exact oneLine_nest amount innerEq
  | _ => rfl

/-- What is on one line has no choices, apart from those that callbacks make. -/
theorem IsOneLine.grouped {document : Doc} (single : document.IsOneLine) : document.Grouped := by
  induction single with
  | blank kept => exact .blank kept
  | text fragment => exact .text fragment
  | concat _ _ leftGrouped rightGrouped => exact .concat leftGrouped rightGrouped
  | nest amount _ innerGrouped => exact .nest amount innerGrouped
  | nesting callback => exact .nesting callback
  | column callback => exact .column callback
  | unknown => exact .unknown

/-- The one-line form of a grouped document is a document on one line. -/
theorem Grouped.exists_oneLine {document : Doc} (grouped : document.Grouped) :
    ∃ flat : Doc, document.oneLine = .ok (.doc flat) ∧ flat.IsOneLine := by
  induction grouped with
  | blank kept => exact ⟨.blank kept, rfl, .blank kept⟩
  | text fragment => exact ⟨.text fragment, rfl, .text fragment⟩
  | line => exact ⟨.space, rfl, .text _⟩
  | concat _ _ leftHypothesis rightHypothesis =>
      obtain ⟨newLeft, leftEq, leftOneLine⟩ := leftHypothesis
      obtain ⟨newRight, rightEq, rightOneLine⟩ := rightHypothesis
      exact ⟨.concat newLeft newRight, oneLine_concat leftEq rightEq,
        .concat leftOneLine rightOneLine⟩
  | nest amount _ inductionHypothesis =>
      obtain ⟨newInner, innerEq, innerOneLine⟩ := inductionHypothesis
      exact ⟨.nest amount newInner, oneLine_nest amount innerEq, .nest amount innerOneLine⟩
  | group _ flattens _ _ inductionHypothesis =>
      obtain ⟨flat, flatEq, flatOneLine⟩ := inductionHypothesis
      cases flattens.symm.trans flatEq
      exact ⟨flat, rfl, flatOneLine⟩
  | nesting callback => exact ⟨.nesting callback, rfl, .nesting callback⟩
  | column callback => exact ⟨.column callback, rfl, .column callback⟩
  | unknown => exact ⟨.unknown, rfl, .unknown⟩

/-- To be grouped is a stable property. -/
theorem Grouped.stable : Stable Grouped where
  empty := .blank false
  text := .text
  line := .line
  concat := .concat
  nest := .nest
  group := .group

end Doc

/-- What is built without deferral is grouped. -/
theorem Built.grouped {object : Object} (built : Built object) :
    object.content.ReadsAs Doc.Grouped :=
  built.readsAs Doc.Grouped.stable

/-- The one-line form of a document as an object has the one-line form as its content. -/
theorem Identified.content_flatten_object (label : Nat) (document : Identified Doc) :
    Identified.content <$> document.object.flatten label = document.content.oneLine :=
  (document.object.content_flatten label).trans (Value.flatten_doc document.content)

/-- A group is made of every document that has a one-line form, and of no other one. -/
theorem Build.group_object_eq_ok_iff {label : Nat} {document made : Identified Doc} :
    Build.group label document.object = .ok made ↔
      ∃ flat, document.object.flatten label = .ok flat ∧
        made = ⟨.made label, .union flat document.object⟩ := by
  have groupEq : Build.group label document.object =
      (fun flat => ⟨.made label, .union flat document.object⟩) <$>
        document.object.flatten label := by
    change (document.object.flatten label >>= _) = _
    cases document.object.flatten label <;> rfl
  rw [groupEq]
  cases document.object.flatten label with
  | error cause => simp [Functor.map, Except.map]
  | ok flat => simp [Functor.map, Except.map, eq_comm]

theorem Identified.exists_flatten_object {document : Identified Doc} {flat : Value}
    (flattens : document.content.oneLine = .ok flat) (label : Nat) :
    ∃ identity, document.object.flatten label = .ok ⟨identity, flat⟩ := by
  have contentEq := content_flatten_object label document
  rw [flattens] at contentEq
  cases flatEq : document.object.flatten label with
  | error cause => simp [flatEq, Functor.map, Except.map] at contentEq
  | ok object =>
      rw [flatEq] at contentEq
      cases contentEq
      exact ⟨object.identity, rfl⟩

/-- A group of a document that has a one-line form. -/
theorem Build.exists_group_object {document : Identified Doc} {flat : Value}
    (flattens : document.content.oneLine = .ok flat) (label : Nat) :
    ∃ identity, Build.group label document.object =
      .ok ⟨.made label, .union ⟨identity, flat⟩ document.object⟩ := by
  obtain ⟨identity, flatEq⟩ := Identified.exists_flatten_object flattens label
  exact ⟨identity, group_object_eq_ok_iff.mpr ⟨_, flatEq, rfl⟩⟩

end DocLayout
