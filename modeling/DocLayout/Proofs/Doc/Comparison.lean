import DocLayout.Proofs.Doc.Equality
import DocLayout.Transition

/-!
# The comparison of documents as a loop

A comparison takes one pair at a time from those that still have to agree.  A pair of one and the
same object is passed over, other pairs are compared at the root, and their members are put in front
of what is pending.  Each round leaves less to compare and keeps what has to agree, so the loop
ends, whatever it takes for the same object, and finds out whether the documents have the same
shape.

To have the same shape is an equivalence that every constructor respects.
-/

namespace DocLayout

/-! ## An equivalence -/

mutual

theorem Doc.agree_self : ∀ document : Doc, Value.Agree (.doc document) (.doc document)
  | .blank kept => .blank kept kept
  | .text fragment => .text fragment
  | .line => .line
  | .concat left right => .concat left.agree_self right.agree_self
  | .nest _ inner => .nest rfl inner.agree_self
  | .union ⟨_, flat⟩ ⟨_, broken⟩ => .union flat.agree_self broken.agree_self
  | .nesting callback => .nesting callback
  | .column callback => .column callback
  | .unknown => .unknown

theorem Value.agree_self : ∀ value : Value, Value.Agree value value
  | .doc document => document.agree_self
  | .none | .num _ | .float _ | .str _ | .list _ | .sequence _ | .function _ | .textItem _
  | .lineItem _ => .other nofun nofun rfl

end

namespace Value

theorem Agree.symm {value other : Value} (agree : Agree value other) : Agree other value := by
  induction agree with
  | blank kept otherKept => exact .blank otherKept kept
  | text fragment => exact .text fragment
  | line => exact .line
  | concat _ _ leftAgree rightAgree => exact .concat leftAgree rightAgree
  | nest amountEq _ innerAgree => exact .nest amountEq.symm innerAgree
  | union _ _ flatAgree brokenAgree => exact .union flatAgree brokenAgree
  | nesting callback => exact .nesting callback
  | column callback => exact .column callback
  | unknown => exact .unknown
  | other notDoc otherNotDoc kindEq => exact .other otherNotDoc notDoc kindEq.symm

theorem Agree.trans {first second third : Value} (agree : Agree first second)
    (later : Agree second third) : Agree first third := by
  induction agree generalizing third with
  | other notDoc otherNotDoc kindEq =>
      cases later with
      | other _ thirdNotDoc laterKindEq =>
          exact .other notDoc thirdNotDoc (kindEq.trans laterKindEq)
      | _ => exact absurd rfl (otherNotDoc _)
  | concat _ _ leftAgree rightAgree =>
      cases later with
      | concat left right => exact .concat (leftAgree left) (rightAgree right)
      | other notDoc => exact absurd rfl (notDoc _)
  | nest amountEq _ innerAgree =>
      cases later with
      | nest laterEq inner => exact .nest (amountEq.trans laterEq) (innerAgree inner)
      | other notDoc => exact absurd rfl (notDoc _)
  | union _ _ flatAgree brokenAgree =>
      cases later with
      | union flat broken => exact .union (flatAgree flat) (brokenAgree broken)
      | other notDoc => exact absurd rfl (notDoc _)
  | blank kept =>
      cases later with
      | blank _ otherKept => exact .blank kept otherKept
      | other notDoc => exact absurd rfl (notDoc _)
  | _ => exact later

/-! ## The loop -/

/-- One round of a comparison.  A pair of one and the same object is passed over; whether the first
of the pending pairs is seen to be one is left open. -/
def compareRound (seenSame : List (Value × Value) → Bool) :
    List (Value × Value) → Progress (List (Value × Value)) Bool
  | [] => .halted true
  | (value, other) :: rest =>
      if seenSame ((value, other) :: rest) then .running rest
      else
        match membersToCompare? value other with
        | Option.none => .halted false
        | some members => .running (members ++ rest)

/-- What is seen to be one and the same object has one content. -/
def SeesOnlySame (seenSame : List (Value × Value) → Bool) : Prop :=
  ∀ value other rest, seenSame ((value, other) :: rest) = true → value = other

variable {seenSame : List (Value × Value) → Bool} {pending next : List (Value × Value)}

/-- A round leaves less to compare, and keeps what has to agree. -/
theorem compareRound_running (sound : SeesOnlySame seenSame)
    (running : compareRound seenSame pending = .running next) :
    pendingSize next < pendingSize pending ∧
      ((∀ pair ∈ pending, Agree pair.1 pair.2) ↔ ∀ pair ∈ next, Agree pair.1 pair.2) := by
  match pending with
  | [] => cases running
  | (value, other) :: rest =>
      rw [compareRound] at running
      by_cases same : seenSame ((value, other) :: rest) = true
      · rw [if_pos same] at running
        cases running
        obtain rfl := sound value other next same
        refine ⟨Nat.lt_add_of_pos_left value.size_pos, ?_⟩
        rw [List.forall_mem_cons, and_iff_right value.agree_self]
      · rw [if_neg same] at running
        cases compares : membersToCompare? value other with
        | none =>
            rw [compares] at running
            cases running
        | some members =>
            rw [compares] at running
            cases running
            constructor
            · rw [pendingSize_append, pendingSize]
              exact Nat.add_lt_add_right (pendingSize_lt_of_membersToCompare? compares) _
            · rw [List.forall_mem_cons, agree_iff, compares, List.forall_mem_append]
              simp only [Option.some.injEq, exists_eq_left']

/-- A round that ends the comparison knows whether all pending pairs agree. -/
theorem compareRound_halted {answer : Bool}
    (halted : compareRound seenSame pending = .halted answer) :
    answer = true ↔ ∀ pair ∈ pending, Agree pair.1 pair.2 := by
  match pending with
  | [] =>
      cases halted
      simp
  | (value, other) :: rest =>
      rw [compareRound] at halted
      by_cases same : seenSame ((value, other) :: rest) = true
      · rw [if_pos same] at halted
        cases halted
      · rw [if_neg same] at halted
        cases compares : membersToCompare? value other with
        | some members =>
            rw [compares] at halted
            cases halted
        | none =>
            rw [compares] at halted
            cases halted
            rw [List.forall_mem_cons, agree_iff, compares]
            simp

/-- The loop ends after as many rounds as there are nodes to compare, and one more. -/
theorem exists_iterate_compareRound (sound : SeesOnlySame seenSame) {bound : Nat}
    (enough : pendingSize pending < bound) :
    ∃ answer, Progress.iterate (compareRound seenSame) bound pending = .halted answer ∧
      (answer = true ↔ ∀ pair ∈ pending, Agree pair.1 pair.2) := by
  induction bound generalizing pending with
  | zero => exact absurd enough (Nat.not_lt_zero _)
  | succ bound inductionHypothesis =>
      rw [Progress.iterate_succ]
      cases round : compareRound seenSame pending with
      | halted answer => exact ⟨answer, rfl, compareRound_halted round⟩
      | running next =>
          obtain ⟨less, sameIff⟩ := compareRound_running sound round
          obtain ⟨answer, halts, answerIff⟩ :=
            inductionHypothesis (Nat.lt_of_lt_of_le less (Nat.le_of_lt_succ enough))
          exact ⟨answer, halts, answerIff.trans sameIff.symm⟩

/-- Whatever is seen to be the same, the loop gives the same answer. -/
theorem iterate_compareRound (sound : SeesOnlySame seenSame) (first second : Doc) :
    Progress.iterate (compareRound seenSame) (first.size + 1) [(.doc first, .doc second)] =
      .halted (first.equal second) := by
  have enough : pendingSize [(.doc first, .doc second)] < first.size + 1 :=
    Nat.lt_succ_self first.size
  obtain ⟨answer, halts, answerIff⟩ := exists_iterate_compareRound sound enough
  have sameAnswer : answer = first.equal second := by
    rw [Bool.eq_iff_iff, answerIff]
    exact agreeAll_eq_true_iff.symm
  rw [halts, sameAnswer]

end Value

/-! ## Documents -/

open Value (Agree)

namespace Doc

theorem equal_equivalence : Equivalence fun first second : Doc => first.equal second = true where
  refl document := equal_eq_true_iff.mpr document.agree_self
  symm equal := equal_eq_true_iff.mpr (equal_eq_true_iff.mp equal).symm
  trans equal later :=
    equal_eq_true_iff.mpr ((equal_eq_true_iff.mp equal).trans (equal_eq_true_iff.mp later))

/-- Equal documents are of one kind. -/
theorem kind_eq_of_equal {first second : Doc} (equal : first.equal second = true) :
    first.kind = second.kind := by
  obtain ⟨members, compares, -⟩ := Value.agree_iff.mp (equal_eq_true_iff.mp equal)
  exact Value.kind_eq_of_membersToCompare? compares

theorem equal_text_iff {fragment otherFragment : Fragment} :
    (text fragment).equal (.text otherFragment) = true ↔ fragment = otherFragment := by
  rw [equal_eq_true_iff]
  constructor
  · intro agree
    cases agree with
    | text => rfl
    | other notDoc => exact absurd rfl (notDoc _)
  · rintro rfl
    exact .text fragment

theorem equal_concat_iff {left right otherLeft otherRight : Doc} :
    (Doc.concat left right).equal (.concat otherLeft otherRight) = true ↔
      left.equal otherLeft = true ∧ right.equal otherRight = true := by
  simp only [equal_eq_true_iff]
  constructor
  · intro agree
    cases agree with
    | concat leftAgree rightAgree => exact ⟨leftAgree, rightAgree⟩
    | other notDoc => exact absurd rfl (notDoc _)
  · rintro ⟨leftAgree, rightAgree⟩
    exact .concat leftAgree rightAgree

theorem equal_nest_iff {amount otherAmount : Amount} {inner otherInner : Doc} :
    (Doc.nest amount inner).equal (.nest otherAmount otherInner) = true ↔
      amount.toInt = otherAmount.toInt ∧ inner.equal otherInner = true := by
  simp only [equal_eq_true_iff]
  constructor
  · intro agree
    cases agree with
    | nest amountEq innerAgree => exact ⟨amountEq, innerAgree⟩
    | other notDoc => exact absurd rfl (notDoc _)
  · rintro ⟨amountEq, innerAgree⟩
    exact .nest amountEq innerAgree

theorem equal_union_iff {flat broken otherFlat otherBroken : Object} :
    (Doc.union flat broken).equal (.union otherFlat otherBroken) = true ↔
      Agree flat.content otherFlat.content ∧ Agree broken.content otherBroken.content := by
  rw [equal_eq_true_iff]
  constructor
  · intro agree
    cases agree with
    | union flatAgree brokenAgree => exact ⟨flatAgree, brokenAgree⟩
    | other notDoc => exact absurd rfl (notDoc _)
  · rintro ⟨flatAgree, brokenAgree⟩
    exact .union flatAgree brokenAgree

end Doc

/-- Equality of documents is structural.  The comparison ends after at most one round more than
there are nodes in the first document, and whichever pairs are seen to be one and the same object,
it answers whether the documents have the same shape.  This is an equivalence, and documents that
are put together the same way are equal exactly if their parts are, where a member of a choice that
is no document counts by its kind. -/
theorem equality_is_structural :
    (∀ seenSame, Value.SeesOnlySame seenSame → ∀ first second : Doc,
      Progress.iterate (Value.compareRound seenSame) (first.size + 1)
        [(.doc first, .doc second)] = .halted (first.equal second)) ∧
    (∀ first second : Doc,
      first.equal second = true ↔ Agree (.doc first) (.doc second)) ∧
    (Equivalence fun first second : Doc => first.equal second = true) ∧
    (∀ left right otherLeft otherRight : Doc,
      (Doc.concat left right).equal (.concat otherLeft otherRight) = true ↔
        left.equal otherLeft = true ∧ right.equal otherRight = true) ∧
    (∀ (amount otherAmount : Amount) (inner otherInner : Doc),
      (Doc.nest amount inner).equal (.nest otherAmount otherInner) = true ↔
        amount.toInt = otherAmount.toInt ∧ inner.equal otherInner = true) ∧
    ∀ flat broken otherFlat otherBroken : Object,
      (Doc.union flat broken).equal (.union otherFlat otherBroken) = true ↔
        Agree flat.content otherFlat.content ∧ Agree broken.content otherBroken.content :=
  ⟨fun _ sound => Value.iterate_compareRound sound, fun _ _ => Doc.equal_eq_true_iff,
    Doc.equal_equivalence, fun _ _ _ _ => Doc.equal_concat_iff, fun _ _ _ _ => Doc.equal_nest_iff,
    fun _ _ _ _ => Doc.equal_union_iff⟩

/-- A choice between a string and a deferred document.  Neither the string counts nor how the amount
is written, but the callback does. -/
theorem raw_choices_are_compared :
    let choice (text : String) (amount : Amount) (label callback : Nat) : Doc :=
      .union ⟨.shared, .str text⟩ ⟨.made label,
        .doc (.nest amount (.column ⟨.shared, .function (.custom callback)⟩))⟩
    let seenSame : List (Value × Value) → Bool
      | [] => false
      | (value, other) :: _ => decide (value = other)
    Value.SeesOnlySame seenSame ∧
      Progress.iterate (Value.compareRound seenSame) 5
        [(.doc (choice "a" (.bool true) 0 7), .doc (choice "b" (.int 1) 1 7))] = .halted true ∧
      Progress.iterate (Value.compareRound seenSame) 5
        [(.doc (choice "a" (.bool true) 0 7), .doc (choice "a" (.bool true) 0 8))] =
          .halted false := by
  intro choice seenSame
  have sound : Value.SeesOnlySame seenSame := fun _ _ _ same => of_decide_eq_true same
  obtain ⟨loop, structural, -, -, nestings, unions⟩ := equality_is_structural
  have kindEq (first second : String) : Agree (.str first) (.str second) := .other nofun nofun rfl
  have amountEq : (Amount.bool true).toInt = (Amount.int 1).toInt := rfl
  have same : (choice "a" (.bool true) 0 7).equal (choice "b" (.int 1) 1 7) = true :=
    (structural _ _).mpr (.union (kindEq "a" "b") (.nest amountEq (.column _)))
  have different : (choice "a" (.bool true) 0 7).equal (choice "a" (.bool true) 0 8) = false := by
    apply Bool.eq_false_iff.mpr
    intro equal
    obtain ⟨-, brokenAgree⟩ := (unions _ _ _ _).mp equal
    obtain ⟨-, innerEqual⟩ := (nestings _ _ _ _).mp ((structural _ _).mpr brokenAgree)
    cases (structural _ _).mp innerEqual with
    | other notDoc => exact notDoc _ rfl
  refine ⟨sound, ?_, ?_⟩
  · exact (loop seenSame sound _ _).trans (congrArg _ same)
  · exact (loop seenSame sound _ _).trans (congrArg _ different)

end DocLayout
