import DocLayout.Proofs.Doc.Grouped

/-!
# What equal documents have in common

The comparison of documents works on a list of pairs that still have to agree.  Two values agree if
they have the same shape, where a member of a choice that is no document counts by its kind alone,
and the comparison finds out just that.

In a regular document the members of choices are documents.  So it has a one-line form, and an equal
document has an equal one.
-/

namespace DocLayout

/-- Two values have the same shape: the same nodes with the same texts, with equal amounts as
integers, and with the same callbacks. -/
inductive Value.Agree : Value → Value → Prop where
  | blank (kept otherKept : Bool) : Agree (.doc (.blank kept)) (.doc (.blank otherKept))
  | text (fragment : Fragment) : Agree (.doc (.text fragment)) (.doc (.text fragment))
  | line : Agree (.doc .line) (.doc .line)
  | concat {left right otherLeft otherRight : Doc} (leftAgree : Agree (.doc left) (.doc otherLeft))
      (rightAgree : Agree (.doc right) (.doc otherRight)) :
      Agree (.doc (.concat left right)) (.doc (.concat otherLeft otherRight))
  | nest {amount otherAmount : Amount} (amountEq : amount.toInt = otherAmount.toInt)
      {inner otherInner : Doc} (innerAgree : Agree (.doc inner) (.doc otherInner)) :
      Agree (.doc (.nest amount inner)) (.doc (.nest otherAmount otherInner))
  | union {flat broken otherFlat otherBroken : Object}
      (flatAgree : Agree flat.content otherFlat.content)
      (brokenAgree : Agree broken.content otherBroken.content) :
      Agree (.doc (.union flat broken)) (.doc (.union otherFlat otherBroken))
  | nesting (callback : Object) : Agree (.doc (.nesting callback)) (.doc (.nesting callback))
  | column (callback : Object) : Agree (.doc (.column callback)) (.doc (.column callback))
  | unknown : Agree (.doc .unknown) (.doc .unknown)
  | other {value other : Value} (notDoc : ∀ document, value ≠ .doc document)
      (otherNotDoc : ∀ document, other ≠ .doc document) (kindEq : value.kind = other.kind) :
      Agree value other

namespace Value

theorem exists_doc_of_kind_eq {document : Doc} {other : Value}
    (kindEq : (doc document).kind = other.kind) : ∃ otherDoc, other = .doc otherDoc := by
  cases other with
  | doc otherDoc => exact ⟨otherDoc, rfl⟩
  | num amount => cases amount <;> cases document <;> cases kindEq
  | _ => cases document <;> cases kindEq

theorem kind_eq_of_membersToCompare? {value other : Value} {members : List (Value × Value)}
    (compares : membersToCompare? value other = some members) : value.kind = other.kind := by
  unfold membersToCompare? at compares
  split at compares
  case h_7 => exact (Option.ite_none_right_eq_some.mp compares).1
  all_goals rfl

/-- Two values agree if nothing differs at the root and the members agree that are compared. -/
theorem agree_iff {value other : Value} :
    Agree value other ↔ ∃ members, membersToCompare? value other = some members ∧
      ∀ pair ∈ members, Agree pair.1 pair.2 := by
  constructor
  · intro agree
    cases agree with
    | blank | line | unknown => exact ⟨[], rfl, List.forall_mem_nil _⟩
    | text fragment => exact ⟨[], if_pos rfl, List.forall_mem_nil _⟩
    | concat leftAgree rightAgree =>
        exact ⟨_, rfl,
          List.forall_mem_cons.mpr ⟨leftAgree, List.forall_mem_singleton.mpr rightAgree⟩⟩
    | nest amountEq innerAgree =>
        exact ⟨_, if_pos amountEq, List.forall_mem_singleton.mpr innerAgree⟩
    | union flatAgree brokenAgree =>
        exact ⟨_, rfl,
          List.forall_mem_cons.mpr ⟨flatAgree, List.forall_mem_singleton.mpr brokenAgree⟩⟩
    | nesting callback => exact ⟨[], if_pos rfl, List.forall_mem_nil _⟩
    | column callback => exact ⟨[], if_pos rfl, List.forall_mem_nil _⟩
    | other notDoc otherNotDoc kindEq =>
        refine ⟨[], ?_, List.forall_mem_nil _⟩
        cases value with
        | doc document => exact absurd rfl (notDoc document)
        | _ => exact if_pos kindEq
  · rintro ⟨members, compares, membersAgree⟩
    have kindEq := kind_eq_of_membersToCompare? compares
    by_cases isDoc : ∃ document, value = .doc document
    · obtain ⟨document, rfl⟩ := isDoc
      obtain ⟨otherDoc, rfl⟩ := exists_doc_of_kind_eq kindEq
      cases document <;> cases otherDoc <;> simp only [kind, Doc.kind, reduceCtorEq] at kindEq
      case blank.blank kept otherKept => exact .blank kept otherKept
      case text.text fragment otherFragment =>
        obtain ⟨rfl, -⟩ := Option.ite_none_right_eq_some.mp compares
        exact .text fragment
      case line.line => exact .line
      case concat.concat =>
        cases compares
        obtain ⟨leftAgree, membersAgree⟩ := List.forall_mem_cons.mp membersAgree
        have rightAgree := List.forall_mem_singleton.mp membersAgree
        exact .concat leftAgree rightAgree
      case nest.nest =>
        obtain ⟨amountEq, membersEq⟩ := Option.ite_none_right_eq_some.mp compares
        cases membersEq
        have innerAgree := List.forall_mem_singleton.mp membersAgree
        exact .nest amountEq innerAgree
      case union.union =>
        cases compares
        obtain ⟨flatAgree, membersAgree⟩ := List.forall_mem_cons.mp membersAgree
        have brokenAgree := List.forall_mem_singleton.mp membersAgree
        exact .union flatAgree brokenAgree
      case nesting.nesting callback otherCallback =>
        obtain ⟨rfl, -⟩ := Option.ite_none_right_eq_some.mp compares
        exact .nesting callback
      case column.column callback otherCallback =>
        obtain ⟨rfl, -⟩ := Option.ite_none_right_eq_some.mp compares
        exact .column callback
      case unknown.unknown => exact .unknown
    · refine .other (not_exists.mp isDoc) ?_ kindEq
      rintro otherDoc rfl
      exact isDoc (exists_doc_of_kind_eq kindEq.symm)

theorem agreeAll_cons (value other : Value) (rest : List (Value × Value)) :
    agreeAll ((value, other) :: rest) =
      match membersToCompare? value other with
      | Option.none => false
      | some members => agreeAll (members ++ rest) := by
  rw [agreeAll]
  split <;> rename_i compares <;> rw [compares]

/-- The comparison finds out whether all pending pairs agree. -/
theorem agreeAll_eq_true_iff {pending : List (Value × Value)} :
    agreeAll pending = true ↔ ∀ pair ∈ pending, Agree pair.1 pair.2 := by
  induction pending using agreeAll.induct with
  | case1 => simp [agreeAll]
  | case2 value other rest differs =>
      rw [agreeAll_cons, differs, List.forall_mem_cons, agree_iff, differs]
      simp
  | case3 value other rest members compares inductionHypothesis =>
      rw [agreeAll_cons, compares, List.forall_mem_cons, agree_iff, compares]
      simp only [inductionHypothesis, List.forall_mem_append, Option.some.injEq, exists_eq_left']

end Value

open Value (Agree)

/-- Two documents are equal exactly if they have the same shape. -/
theorem Doc.equal_eq_true_iff {first second : Doc} :
    first.equal second = true ↔ Agree (.doc first) (.doc second) :=
  Value.agreeAll_eq_true_iff.trans List.forall_mem_singleton

/-- All members of choices are documents.  What callbacks make is not looked at. -/
inductive Doc.Regular : Doc → Prop where
  | blank (kept : Bool) : Regular (.blank kept)
  | text (fragment : Fragment) : Regular (.text fragment)
  | line : Regular .line
  | concat {left right : Doc} (leftRegular : Regular left) (rightRegular : Regular right) :
      Regular (.concat left right)
  | nest (amount : Amount) {inner : Doc} (innerRegular : Regular inner) :
      Regular (.nest amount inner)
  | union {flat broken : Doc} (flatIdentity brokenIdentity : Identity) (flatRegular : Regular flat)
      (brokenRegular : Regular broken) :
      Regular (.union ⟨flatIdentity, .doc flat⟩ ⟨brokenIdentity, .doc broken⟩)
  | nesting (callback : Object) : Regular (.nesting callback)
  | column (callback : Object) : Regular (.column callback)
  | unknown : Regular .unknown

namespace Value.Agree

/-- Only a document agrees with a document. -/
theorem exists_doc {document : Doc} {other : Value} (agree : Agree (.doc document) other) :
    ∃ otherDoc, other = .doc otherDoc := by
  obtain ⟨members, compares, -⟩ := agree_iff.mp agree
  exact exists_doc_of_kind_eq (kind_eq_of_membersToCompare? compares)

end Value.Agree

namespace Doc.Regular

variable {first second : Doc}

/-- The one-line forms of equal documents are equal. -/
theorem exists_oneLine_agree (regular : first.Regular) (agree : Agree (.doc first) (.doc second)) :
    ∃ flat otherFlat : Doc, first.oneLine = .ok (.doc flat) ∧
      second.oneLine = .ok (.doc otherFlat) ∧ Agree (.doc flat) (.doc otherFlat) := by
  induction regular generalizing second with
  | line =>
      cases agree with
      | line => exact ⟨.space, .space, rfl, rfl, .text _⟩
      | other notDoc => exact absurd rfl (notDoc _)
  | concat _ _ leftHypothesis rightHypothesis =>
      cases agree with
      | concat leftAgree rightAgree =>
          obtain ⟨left, otherLeft, leftEq, otherLeftEq, leftSame⟩ := leftHypothesis leftAgree
          obtain ⟨right, otherRight, rightEq, otherRightEq, rightSame⟩ := rightHypothesis rightAgree
          exact ⟨_, _, oneLine_concat leftEq rightEq, oneLine_concat otherLeftEq otherRightEq,
            .concat leftSame rightSame⟩
      | other notDoc => exact absurd rfl (notDoc _)
  | nest _ _ inductionHypothesis =>
      cases agree with
      | nest amountEq innerAgree =>
          obtain ⟨flat, otherFlat, flatEq, otherFlatEq, same⟩ := inductionHypothesis innerAgree
          exact ⟨_, _, oneLine_nest _ flatEq, oneLine_nest _ otherFlatEq, .nest amountEq same⟩
      | other notDoc => exact absurd rfl (notDoc _)
  | union =>
      cases agree with
      | @union _ _ otherFlat _ flatAgree =>
          rcases otherFlat with ⟨flatIdentity, otherFlat⟩
          obtain ⟨flat, rfl⟩ := flatAgree.exists_doc
          exact ⟨_, _, rfl, rfl, flatAgree⟩
      | other notDoc => exact absurd rfl (notDoc _)
  | _ =>
      cases agree with
      | other notDoc => exact absurd rfl (notDoc _)
      | _ => exact ⟨_, _, rfl, rfl, by constructor⟩

end Doc.Regular

end DocLayout
