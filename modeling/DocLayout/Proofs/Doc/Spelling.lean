import DocLayout.Proofs.Doc.Context

/-!
# Documents that spell text

Fragments, blanks and concatenations of them spell text, in one piece or in several ones.  Two
documents are spelled alike if they differ only in how such parts of them divide their text.  Then
so are their one-line forms, and so are the documents that a context makes of them.
-/

namespace DocLayout

/-- The characters of several fragments. -/
def Fragment.charsOf (fragments : List Fragment) : List Char :=
  fragments.flatMap fun fragment => fragment.text.toList

@[simp]
theorem Fragment.charsOf_nil : charsOf [] = [] := rfl

@[simp]
theorem Fragment.charsOf_cons (fragment : Fragment) (fragments : List Fragment) :
    charsOf (fragment :: fragments) = fragment.text.toList ++ charsOf fragments := rfl

@[simp]
theorem Fragment.charsOf_append (first second : List Fragment) :
    charsOf (first ++ second) = charsOf first ++ charsOf second :=
  List.flatMap_append

/-- A document consists of fragments one after the other. -/
inductive Doc.Spells : Doc → List Fragment → Prop where
  | blank (kept : Bool) : Spells (.blank kept) []
  | text (fragment : Fragment) : Spells (.text fragment) [fragment]
  | concat {left right : Doc} {fragments later : List Fragment} (leftSpells : Spells left fragments)
      (rightSpells : Spells right later) : Spells (.concat left right) (fragments ++ later)

/-- What spells text is on one line. -/
theorem Doc.Spells.isOneLine {document : Doc} {fragments : List Fragment}
    (spells : document.Spells fragments) : document.IsOneLine := by
  induction spells with
  | blank kept => exact .blank kept
  | text fragment => exact .text fragment
  | concat _ _ leftSingle rightSingle => exact .concat leftSingle rightSingle

/-- Two values are the same up to how text is divided. -/
inductive Value.SpelledAlike : Value → Value → Prop where
  | same (value : Value) : SpelledAlike value value
  | spelled {first second : Doc} {fragments others : List Fragment}
      (spells : first.Spells fragments) (otherSpells : second.Spells others)
      (charsEq : Fragment.charsOf fragments = Fragment.charsOf others) :
      SpelledAlike (.doc first) (.doc second)
  | concat {left right otherLeft otherRight : Doc}
      (leftAlike : SpelledAlike (.doc left) (.doc otherLeft))
      (rightAlike : SpelledAlike (.doc right) (.doc otherRight)) :
      SpelledAlike (.doc (.concat left right)) (.doc (.concat otherLeft otherRight))
  | nest (amount : Amount) {inner otherInner : Doc}
      (innerAlike : SpelledAlike (.doc inner) (.doc otherInner)) :
      SpelledAlike (.doc (.nest amount inner)) (.doc (.nest amount otherInner))
  | union {flat broken otherFlat otherBroken : Object}
      (flatAlike : SpelledAlike flat.content otherFlat.content)
      (brokenAlike : SpelledAlike broken.content otherBroken.content) :
      SpelledAlike (.doc (.union flat broken)) (.doc (.union otherFlat otherBroken))
  | aligned (label : Nat) {inner otherInner : Doc}
      (innerAlike : SpelledAlike (.doc inner) (.doc otherInner)) :
      SpelledAlike (.doc (inner.aligned label)) (.doc (otherInner.aligned label))
  | alignAt (start : Int) {inner otherInner : Doc}
      (innerAlike : SpelledAlike (.doc inner) (.doc otherInner)) :
      SpelledAlike (.doc (.nesting ⟨.shared, .function (.alignAt start inner)⟩))
        (.doc (.nesting ⟨.shared, .function (.alignAt start otherInner)⟩))

namespace Value.SpelledAlike

variable {value other flat : Value}

theorem symm (alike : SpelledAlike value other) : SpelledAlike other value := by
  induction alike with
  | same value => exact .same value
  | spelled spells otherSpells charsEq => exact .spelled otherSpells spells charsEq.symm
  | concat _ _ leftAlike rightAlike => exact .concat leftAlike rightAlike
  | nest amount _ innerAlike => exact .nest amount innerAlike
  | union _ _ flatAlike brokenAlike => exact .union flatAlike brokenAlike
  | aligned label _ innerAlike => exact .aligned label innerAlike
  | alignAt start _ innerAlike => exact .alignAt start innerAlike

/-- Only a document is spelled like a document. -/
theorem exists_doc {document : Doc} (alike : SpelledAlike (.doc document) other) :
    ∃ otherDoc, other = .doc otherDoc := by
  cases alike <;> exact ⟨_, rfl⟩

/-- One-line forms are spelled alike. -/
theorem exists_oneLine {first : Doc} (alike : SpelledAlike value other)
    (valueEq : value = .doc first) (flattens : first.oneLine = .ok flat) :
    ∃ second otherFlat, other = .doc second ∧ second.oneLine = .ok otherFlat ∧
      SpelledAlike flat otherFlat := by
  induction alike generalizing first flat with
  | same value => exact ⟨first, flat, valueEq, flattens, .same flat⟩
  | spelled spells otherSpells charsEq =>
      cases valueEq
      cases spells.isOneLine.oneLine_eq.symm.trans flattens
      exact ⟨_, _, rfl, otherSpells.isOneLine.oneLine_eq, .spelled spells otherSpells charsEq⟩
  | concat _ _ leftHypothesis rightHypothesis =>
      cases valueEq
      obtain ⟨newLeft, newRight, leftEq, rightEq, rfl⟩ := Doc.oneLine_concat_eq_ok_iff.mp flattens
      obtain ⟨_, _, ⟨⟩, otherLeftEq, leftAlike⟩ := leftHypothesis rfl leftEq
      obtain ⟨_, _, ⟨⟩, otherRightEq, rightAlike⟩ := rightHypothesis rfl rightEq
      obtain ⟨otherLeft, rfl⟩ := leftAlike.exists_doc
      obtain ⟨otherRight, rfl⟩ := rightAlike.exists_doc
      exact ⟨_, _, rfl, Doc.oneLine_concat otherLeftEq otherRightEq, .concat leftAlike rightAlike⟩
  | nest amount _ inductionHypothesis =>
      cases valueEq
      obtain ⟨newInner, innerEq, rfl⟩ := Doc.oneLine_nest_eq_ok_iff.mp flattens
      obtain ⟨_, _, ⟨⟩, otherEq, innerAlike⟩ := inductionHypothesis rfl innerEq
      obtain ⟨otherInner, rfl⟩ := innerAlike.exists_doc
      exact ⟨_, _, rfl, Doc.oneLine_nest amount otherEq, .nest amount innerAlike⟩
  | union flatAlike =>
      cases valueEq
      cases flattens
      exact ⟨_, _, rfl, rfl, flatAlike⟩
  | aligned label innerAlike =>
      cases valueEq
      cases flattens
      exact ⟨_, _, rfl, rfl, .aligned label innerAlike⟩
  | alignAt start innerAlike =>
      cases valueEq
      cases flattens
      exact ⟨_, _, rfl, rfl, .alignAt start innerAlike⟩

end Value.SpelledAlike

namespace Context

variable {context : Context} {first second whole : Identified Doc}

/-- A context makes documents that are spelled alike of such documents. -/
theorem exists_fill_spelledAlike
    (alike : Value.SpelledAlike (.doc first.content) (.doc second.content))
    (fills : context.fill first = .ok whole) :
    ∃ other, context.fill second = .ok other ∧
      Value.SpelledAlike (.doc whole.content) (.doc other.content) := by
  induction context generalizing whole with
  | hole =>
      cases fills
      exact ⟨second, rfl, alike⟩
  | first label context right inductionHypothesis =>
      obtain ⟨inner, innerFills, rfl⟩ := fill_first_eq_ok_iff.mp fills
      obtain ⟨other, otherFills, innerAlike⟩ := inductionHypothesis innerFills
      exact ⟨_, fill_first_eq_ok_iff.mpr ⟨other, otherFills, rfl⟩, .concat innerAlike (.same _)⟩
  | second label left context inductionHypothesis =>
      obtain ⟨inner, innerFills, rfl⟩ := fill_second_eq_ok_iff.mp fills
      obtain ⟨other, otherFills, innerAlike⟩ := inductionHypothesis innerFills
      exact ⟨_, fill_second_eq_ok_iff.mpr ⟨other, otherFills, rfl⟩, .concat (.same _) innerAlike⟩
  | nest label amount context inductionHypothesis =>
      obtain ⟨inner, innerFills, rfl⟩ := fill_nest_eq_ok_iff.mp fills
      obtain ⟨other, otherFills, innerAlike⟩ := inductionHypothesis innerFills
      exact ⟨_, fill_nest_eq_ok_iff.mpr ⟨other, otherFills, rfl⟩, .nest amount innerAlike⟩
  | group label context inductionHypothesis =>
      obtain ⟨inner, object, innerFills, objectEq, rfl⟩ := fill_group_eq_ok_iff.mp fills
      obtain ⟨other, otherFills, innerAlike⟩ := inductionHypothesis innerFills
      -- The flat member of a group is a one-line form, so both members are spelled alike.
      have flattens := Identified.content_flatten_object label inner
      rw [objectEq] at flattens
      obtain ⟨_, otherFlat, ⟨⟩, otherEq, flatAlike⟩ := innerAlike.exists_oneLine rfl flattens.symm
      obtain ⟨identity, otherObjectEq⟩ := Identified.exists_flatten_object otherEq label
      exact ⟨_, fill_group_eq_ok_iff.mpr ⟨other, _, otherFills, otherObjectEq, rfl⟩,
        .union flatAlike innerAlike⟩
  | align label context inductionHypothesis =>
      obtain ⟨inner, innerFills, rfl⟩ := fill_align_eq_ok_iff.mp fills
      obtain ⟨other, otherFills, innerAlike⟩ := inductionHypothesis innerFills
      exact ⟨_, fill_align_eq_ok_iff.mpr ⟨other, otherFills, rfl⟩, .aligned label innerAlike⟩

end Context

end DocLayout
