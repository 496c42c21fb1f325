import Mathlib
import DocLayout.Proofs.Doc.Comparison
import DocLayout.Proofs.Text.Quoted
import DocLayout.Value.Written

/-!
# Written forms are unambiguous

A document without callbacks can be read off what is written for it.  The kind of its root shows in
the first characters, quoted text and amounts end themselves, and so do the members that follow.
Therefore two such documents are written alike exactly if they are equal.
-/

namespace DocLayout

/-- A document without callbacks, with integers for amounts and documents for the members of
choices. -/
inductive Doc.Plain : Doc → Prop where
  | blank (kept : Bool) : Plain (.blank kept)
  | text (fragment : Fragment) : Plain (.text fragment)
  | line : Plain .line
  | concat {left right : Doc} (leftPlain : Plain left) (rightPlain : Plain right) :
      Plain (.concat left right)
  | nest (amount : Int) {inner : Doc} (innerPlain : Plain inner) : Plain (.nest (.int amount) inner)
  | union (flatIdentity brokenIdentity : Identity) {flat broken : Doc} (flatPlain : Plain flat)
      (brokenPlain : Plain broken) :
      Plain (.union ⟨flatIdentity, .doc flat⟩ ⟨brokenIdentity, .doc broken⟩)
  | unknown : Plain .unknown

/-! ## Amounts -/

theorem comma_notMem_repr (n : Nat) : ',' ∉ n.repr.toList := by
  rw [Nat.toList_repr]
  intro isDigit
  exact absurd (Nat.isDigit_of_mem_toDigits (by decide) (by decide) isDigit) (by decide)

theorem comma_notMem_written (n : Int) : ',' ∉ (Amount.int n).written.toList := by
  cases n with
  | ofNat n => exact comma_notMem_repr n
  | negSucc n =>
      have negative : (Amount.int (.negSucc n)).written = "-" ++ (n + 1).repr := rfl
      rw [negative, String.toList_append, List.mem_append, not_or]
      exact ⟨by decide, comma_notMem_repr (n + 1)⟩

theorem takeWhile_append_comma {front : List Char} (noComma : ',' ∉ front) (rest : List Char) :
    (front ++ ',' :: rest).takeWhile (· ≠ ',') = front := by
  have kept : ∀ c ∈ front, decide (c ≠ ',') = true := fun c mem =>
    decide_eq_true (ne_of_mem_of_not_mem mem noComma)
  rw [List.takeWhile_append_of_pos kept, List.takeWhile_cons_of_neg (by decide), List.append_nil]

/-- An integer and what stands behind its comma can be told from the characters. -/
theorem written_append_separator_iff {m n : Int} {rest otherRest : List Char} :
    (Amount.int m).written.toList ++ (", ".toList ++ rest) =
        (Amount.int n).written.toList ++ (", ".toList ++ otherRest) ↔ m = n ∧ rest = otherRest := by
  have separator (rest : List Char) : ", ".toList ++ rest = ',' :: ' ' :: rest := rfl
  rw [separator, separator]
  constructor
  · intro same
    have digitsEq : (Amount.int m).written.toList = (Amount.int n).written.toList := by
      rw [← takeWhile_append_comma (comma_notMem_written m) _, same,
        takeWhile_append_comma (comma_notMem_written n)]
    rw [digitsEq] at same
    have amountEq : m = n := Int.repr_inj.mp (String.toList_injective digitsEq)
    have restEq := List.tail_eq_of_cons_eq (List.append_cancel_left same)
    exact ⟨amountEq, List.tail_eq_of_cons_eq restEq⟩
  · rintro ⟨rfl, rfl⟩
    rfl

/-! ## Documents -/

/-- The kind of the document whose written form a text starts with. -/
def readKind : List Char → Option Kind
  | 'N' :: 'I' :: 'L' :: _ => some .blank
  | 'T' :: 'e' :: 'x' :: 't' :: '(' :: _ => some .text
  | 'L' :: 'I' :: 'N' :: 'E' :: _ => some .line
  | 'C' :: 'o' :: 'n' :: 'c' :: 'a' :: 't' :: '(' :: _ => some .concat
  | 'N' :: 'e' :: 's' :: 't' :: '(' :: _ => some .nest
  | 'U' :: 'n' :: 'i' :: 'o' :: 'n' :: '(' :: _ => some .union
  | 'N' :: 'e' :: 's' :: 't' :: 'i' :: 'n' :: 'g' :: '(' :: _ => some .nesting
  | 'C' :: 'o' :: 'l' :: 'u' :: 'm' :: 'n' :: '(' :: _ => some .column
  | 'U' :: 'n' :: 'k' :: 'n' :: 'o' :: 'w' :: 'n' :: _ => some .unknown
  | _ => none

theorem readKind_written_append (document : Doc) (rest : List Char) :
    readKind (document.written.toList ++ rest) = some document.kind := by
  cases document <;> simp only [Doc.written, String.toList_append, List.append_assoc] <;> rfl

namespace Doc

variable {first second : Doc} {rest otherRest : List Char}

theorem kind_eq_of_written_append_eq
    (same : first.written.toList ++ rest = second.written.toList ++ otherRest) :
    first.kind = second.kind := by
  have readBack := readKind_written_append first rest
  rw [same, readKind_written_append] at readBack
  exact (Option.some.inj readBack).symm

/-- Of documents of two kinds neither are the written forms alike nor the documents. -/
theorem written_append_iff_of_kind_ne (kindNe : first.kind ≠ second.kind) :
    first.written.toList ++ rest = second.written.toList ++ otherRest ↔
      first.equal second = true ∧ rest = otherRest :=
  iff_of_false (fun same => kindNe (kind_eq_of_written_append_eq same))
    fun both => kindNe (kind_eq_of_equal both.1)

/-- What is written for a plain document determines it, up to equality, and what follows. -/
theorem Plain.written_append_iff (plain : first.Plain) (otherPlain : second.Plain) :
    first.written.toList ++ rest = second.written.toList ++ otherRest ↔
      first.equal second = true ∧ rest = otherRest := by
  induction plain generalizing second rest otherRest with
  | blank kept =>
      cases otherPlain with
      | blank otherKept =>
          have equal : (Doc.blank kept).equal (.blank otherKept) = true :=
            equal_eq_true_iff.mpr (.blank kept otherKept)
          rw [and_iff_right equal]
          simp [written]
      | _ => exact written_append_iff_of_kind_ne nofun
  | text fragment =>
      cases otherPlain with
      | text otherFragment =>
          rw [equal_text_iff, Fragment.mk.injEq, ← String.toList_inj]
          simp only [written, String.toList_append, List.append_assoc, List.append_cancel_left_eq,
            Text.toList_quoted, Text.quotedChars_append_inj]
      | _ => exact written_append_iff_of_kind_ne nofun
  | line =>
      cases otherPlain with
      | line => simp [equal_equivalence.refl .line]
      | _ => exact written_append_iff_of_kind_ne nofun
  | concat _ _ leftHypothesis rightHypothesis =>
      cases otherPlain with
      | concat leftPlain rightPlain =>
          simp only [written, String.toList_append, List.append_assoc, List.append_cancel_left_eq,
            leftHypothesis leftPlain, rightHypothesis rightPlain, equal_concat_iff, and_assoc]
      | _ => exact written_append_iff_of_kind_ne nofun
  | nest amount _ innerHypothesis =>
      cases otherPlain with
      | nest otherAmount innerPlain =>
          simp only [written, String.toList_append, List.append_assoc, List.append_cancel_left_eq,
            written_append_separator_iff, innerHypothesis innerPlain, equal_nest_iff, Amount.toInt,
            and_assoc]
      | _ => exact written_append_iff_of_kind_ne nofun
  | union _ _ _ _ flatHypothesis brokenHypothesis =>
      cases otherPlain with
      | union _ _ flatPlain brokenPlain =>
          rw [equal_union_iff, ← equal_eq_true_iff, ← equal_eq_true_iff]
          simp only [written, Value.written, String.toList_append, List.append_assoc,
            List.append_cancel_left_eq, flatHypothesis flatPlain, brokenHypothesis brokenPlain,
            and_assoc]
      | _ => exact written_append_iff_of_kind_ne nofun
  | unknown =>
      cases otherPlain with
      | unknown => simp [equal_equivalence.refl .unknown]
      | _ => exact written_append_iff_of_kind_ne nofun

end Doc

/-- The written form of documents without callbacks is unambiguous: two of them are written alike
exactly if they are equal, whatever their texts hold.  Texts are sequences of Unicode scalar values;
nothing is said of lone surrogates, which they do not hold. -/
theorem written_eq_iff_equal {first second : Doc} (plain : first.Plain)
    (otherPlain : second.Plain) : first.written = second.written ↔ first.equal second = true := by
  have unambiguous : first.written.toList ++ [] = second.written.toList ++ [] ↔
      first.equal second = true ∧ ([] : List Char) = [] := plain.written_append_iff otherPlain
  rwa [List.append_nil, List.append_nil, String.toList_inj, and_iff_left rfl] at unambiguous

/-- Neither the identities of members show nor whether a blank is kept.  A text that imitates how
two texts are written does not stand for them. -/
theorem imitated_texts_are_told_apart :
    let a : Doc := .text ⟨"a", by decide⟩
    let b : Doc := .text ⟨"b", by decide⟩
    let imitation : Doc := .text ⟨"a'), Text('b", by decide⟩
    let choice (flat : Doc) (label : Nat) (kept : Bool) : Doc :=
      .union ⟨.made label, .doc flat⟩
        ⟨.made (label + 1), .doc (.nest (.int (-2)) (.concat .line (.blank kept)))⟩
    (∀ flat ∈ [.concat a b, imitation], ∀ label kept, (choice flat label kept).Plain) ∧
      (choice imitation 0 true).written = (choice imitation 5 false).written ∧
      (choice imitation 0 true).written ≠ (choice (.concat a b) 0 true).written := by
  intro a b imitation choice
  have plain : ∀ flat ∈ [.concat a b, imitation], ∀ label kept, (choice flat label kept).Plain := by
    intro flat listed label kept
    have flatPlain : flat.Plain := by
      rcases List.mem_pair.mp listed with rfl | rfl
      · exact .concat (.text _) (.text _)
      · exact .text _
    exact .union _ _ flatPlain (.nest _ (.concat .line (.blank kept)))
  have imitationPlain := plain imitation (by simp)
  have pairPlain := plain (.concat a b) (by simp)
  refine ⟨plain, ?_, ?_⟩
  · apply (written_eq_iff_equal (imitationPlain 0 true) (imitationPlain 5 false)).mpr
    exact Doc.equal_eq_true_iff.mpr
      (.union (.text _) (.nest rfl (.concat .line (.blank true false))))
  · intro same
    have equal := (written_eq_iff_equal (imitationPlain 0 true) (pairPlain 0 true)).mp same
    have flatAgree := (Doc.equal_union_iff.mp equal).1
    exact nomatch Doc.kind_eq_of_equal (Doc.equal_eq_true_iff.mpr flatAgree)

end DocLayout
