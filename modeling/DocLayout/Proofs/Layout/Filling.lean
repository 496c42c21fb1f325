import DocLayout.Proofs.Doc.Row
import DocLayout.Proofs.Layout.Standalone

/-!
# Softlines fill lines with words

Words with softlines between them are wrapped greedily.  A word joins the current line, behind a
space, if the line then stays within the width, and starts a new line otherwise.  This is so because
the text up to the next choice is all that the decision on a softline depends on: whatever follows,
it can be broken at once, at a line break that fits.

The first word always starts the first line, also where it exceeds the width.  An empty word takes
no room and is dropped, but the softlines around it stay.
-/

namespace DocLayout

/-! ## Greedy wrapping -/

/-- The lines of a current line and further words.  A word joins the line if the line, a space and
the word stay within the width. -/
def Text.wrap (width : Int) (line : String) : List String → List String
  | [] => [line]
  | word :: words =>
      if (line.length : Int) + 1 + word.length ≤ width then
        wrap width (line ++ " " ++ word) words
      else line :: wrap width word words

/-- The text of words that are wrapped greedily. -/
def Text.filled (width : Int) : List String → String
  | [] => ""
  | word :: words => "\n".intercalate (wrap width word words)

section Wrap

variable {width : Int} {line word : String}

theorem Text.wrap_of_joins (joins : (line.length : Int) + 1 + word.length ≤ width)
    (words : List String) :
    wrap width line (word :: words) = wrap width (line ++ " " ++ word) words :=
  if_pos joins

theorem Text.wrap_of_breaks (breaks : ¬ (line.length : Int) + 1 + word.length ≤ width)
    (words : List String) : wrap width line (word :: words) = line :: wrap width word words :=
  if_neg breaks

end Wrap

theorem Text.wrap_ne_nil (width : Int) (line : String) (words : List String) :
    wrap width line words ≠ [] := by
  induction words generalizing line with
  | nil => simp [wrap]
  | cons word words inductionHypothesis =>
      rw [wrap]
      split
      · exact inductionHypothesis _
      · simp

/-! ## Layouts -/

/-- The layout of further words behind a column. -/
def Layout.wrap (width : Int) (column : Int) : List Fragment → Layout
  | [] => ⟨[], none⟩
  | word :: words =>
      let joined := column + 1 + word.width
      if joined ≤ width then ((wrap width joined words).after word.items).after [.text .space]
      else ((wrap width word.width words).after word.items).after [.line 0]

/-- The layout of a word at a column and of further words. -/
def Layout.filled (width column : Int) (word : Fragment) (words : List Fragment) : Layout :=
  (wrap width (column + word.width) words).after word.items

namespace Layout

variable {width column : Int}

theorem wrap_of_joins {word : Fragment} (joins : column + 1 + word.width ≤ width)
    (words : List Fragment) :
    wrap width column (word :: words) =
      (filled width (column + 1) word words).after [.text .space] :=
  if_pos joins

theorem wrap_of_breaks {word : Fragment} (breaks : ¬ column + 1 + word.width ≤ width)
    (words : List Fragment) :
    wrap width column (word :: words) = (filled width 0 word words).after [.line 0] := by
  rw [filled, Int.zero_add]
  exact if_neg breaks

/-- The items of a fragment take its width. -/
theorem fits_items (fragment : Fragment) (layout : Layout) {budget : Int} (nonneg : 0 ≤ budget) :
    (layout.after fragment.items).fits budget = layout.fits (budget - fragment.width) := by
  by_cases blank : fragment.text = ""
  · rw [Fragment.items, if_pos blank, Fragment.width_eq_zero_iff.mpr blank]
    simp [after]
  · rw [Fragment.items, if_neg blank, fits_text _ _ nonneg]

theorem fits_space (layout : Layout) (within : column ≤ width) :
    (layout.after [.text .space]).fits (width - column) = layout.fits (width - (column + 1)) := by
  rw [fits_text _ _ (by omega), Int.sub_sub]
  rfl

/-- Further words fit whatever is left of the width, since they can start a new line. -/
theorem fits_wrap (within : column ≤ width) (words : List Fragment) :
    (wrap width column words).fits (width - column) = .ok true := by
  induction words generalizing column with
  | nil => exact fits_empty (by omega)
  | cons word words inductionHypothesis =>
      by_cases joins : column + 1 + word.width ≤ width
      · rw [wrap_of_joins joins, fits_space _ within, filled, fits_items _ _ (by omega),
          Int.sub_sub]
        exact inductionHypothesis joins
      · rw [wrap_of_breaks joins]
        exact fits_line _ _ (by omega)

/-- A word and what follows fit exactly if the word does. -/
theorem fits_filled (width column : Int) (word : Fragment) (words : List Fragment) :
    (filled width column word words).fits (width - column) =
      .ok (decide (column + word.width ≤ width)) := by
  by_cases within : column + word.width ≤ width
  · rw [filled, fits_items _ _ (by omega), Int.sub_sub, fits_wrap within, decide_eq_true within]
  · rw [decide_eq_false within]
    by_cases nonneg : 0 ≤ width - column
    · rw [filled, fits_items _ _ nonneg, fits_of_neg _ (by omega)]
    · exact fits_of_neg _ (by omega)

/-- A space, a word and what follows fit exactly if the space and the word do. -/
theorem fits_space_filled (width column : Int) (word : Fragment) (words : List Fragment) :
    ((filled width (column + 1) word words).after [.text .space]).fits (width - column) =
      .ok (decide (column + 1 + word.width ≤ width)) := by
  by_cases within : column ≤ width
  · rw [fits_space _ within, fits_filled]
  · have exceeds : ¬ column + 1 + word.width ≤ width := by omega
    rw [fits_of_neg _ (by omega), decide_eq_false exceeds]

end Layout

/-- Further words, each behind a softline. -/
def Doc.further : List Fragment → Doc
  | [] => .empty
  | word :: words => softline.append (word.doc.append (further words))

namespace Prescribed

variable {meaning : Meaning} {width column indent : Int} {layout : Layout} {left right : Doc}

theorem summand (prescribed : Prescribed meaning width column [⟨indent, .doc right⟩] layout) :
    Prescribed meaning width column (right.summand indent) layout := by
  by_cases empty : right = .empty
  · subst empty
    cases prescribed with
    | blank later => exact later
    | other notDoc => exact absurd rfl (notDoc _)
  · rwa [Doc.summand_of_ne_empty empty]

theorem append_of_summand (notEmpty : left ≠ .empty)
    (prescribed : Prescribed meaning width column (⟨indent, .doc left⟩ :: right.summand indent)
      layout) :
    Prescribed meaning width column [⟨indent, .doc (left.append right)⟩] layout := by
  by_cases empty : right = .empty
  · subst empty
    rwa [Doc.append_empty]
  · rw [Doc.append_of_ne_empty notEmpty empty]
    rw [Doc.summand_of_ne_empty empty] at prescribed
    exact .concat prescribed

theorem fragment_append (fragment : Fragment)
    (later : Prescribed meaning width (column + fragment.width) [⟨indent, .doc right⟩] layout) :
    Prescribed meaning width column [⟨indent, .doc (fragment.doc.append right)⟩]
      (layout.after fragment.items) := by
  by_cases blank : fragment.text = ""
  · rw [Fragment.width_eq_zero_iff.mpr blank] at later
    rw [Fragment.doc, if_pos blank, Fragment.items, if_pos blank, Doc.empty_append]
    simpa [Layout.after] using later
  · rw [Fragment.doc, if_neg blank, Fragment.items, if_neg blank]
    exact append_of_summand (by simp) (.text later.summand)

/-- Further words are wrapped: each softline is flat exactly if the next word fits. -/
theorem further (words : List Fragment) (column : Int) :
    Prescribed meaning width column [⟨0, .doc (.further words)⟩] (.wrap width column words) := by
  induction words generalizing column with
  | nil => exact .blank .done
  | cons word words inductionHypothesis =>
      have filled (column : Int) : Prescribed meaning width column
          [⟨0, .doc (word.doc.append (.further words))⟩] (.filled width column word words) :=
        fragment_append word (inductionHypothesis _)
      have flat : Prescribed meaning width column
          (⟨0, .doc .space⟩ :: (word.doc.append (.further words)).summand 0)
          ((Layout.filled width (column + 1) word words).after [.text .space]) :=
        .text (filled (column + 1)).summand
      have fitsEq := Layout.fits_space_filled width column word words
      apply append_of_summand (by simp [Doc.softline])
      by_cases joins : column + 1 + word.width ≤ width
      · rw [decide_eq_true joins] at fitsEq
        rw [Layout.wrap_of_joins joins]
        exact .flat flat fitsEq
      · rw [decide_eq_false joins] at fitsEq
        rw [Layout.wrap_of_breaks joins]
        exact .broken flat fitsEq (.line (filled 0).summand)

end Prescribed

/-! ## Text -/

namespace Layout

variable {width column : Int}

theorem ending_wrap (words : List Fragment) : (wrap width column words).ending = none := by
  induction words generalizing column with
  | nil => rfl
  | cons word words inductionHypothesis =>
      rw [wrap]
      split <;> exact inductionHypothesis

theorem ending_filled (word : Fragment) (words : List Fragment) :
    (filled width column word words).ending = none :=
  ending_wrap words

theorem inRange_wrap (words : List Fragment) :
    ∀ item ∈ (wrap width column words).items, item.InRange := by
  induction words generalizing column with
  | nil => exact List.forall_mem_nil _
  | cons word words inductionHypothesis =>
      have lineInRange : (Item.line 0).InRange := by
        change (0 : Int) < Text.repeatLimit
        decide
      have wordInRange {next : Int} :
          ∀ item ∈ word.items ++ (wrap width next words).items, item.InRange :=
        List.forall_mem_append.mpr ⟨word.inRange_items, inductionHypothesis⟩
      rw [wrap]
      split
      · exact List.forall_mem_cons.mpr ⟨trivial, wordInRange⟩
      · exact List.forall_mem_cons.mpr ⟨lineInRange, wordInRange⟩

/-- Behind the current line, the text of further words is that of the wrapped lines. -/
theorem chars_wrap (line : String) (words : List Fragment) :
    line.toList ++ (wrap width line.length words).items.flatMap Item.chars =
      ("\n".intercalate (Text.wrap width line (words.map Fragment.text))).toList := by
  induction words generalizing line with
  | nil => simp [wrap, Text.wrap]
  | cons word words inductionHypothesis =>
      have spaceChars : Item.chars (.text .space) = " ".toList := rfl
      have lineChars : Item.chars (.line 0) = "\n".toList := rfl
      rw [List.map_cons]
      by_cases joins : (line.length : Int) + 1 + word.width ≤ width
      · have lengthEq : ((line ++ " " ++ word.text).length : Int) =
            line.length + 1 + word.width := by
          rw [String.length_append, String.length_append]
          rfl
        have later := inductionHypothesis (line ++ " " ++ word.text)
        rw [lengthEq] at later
        rw [wrap_of_joins joins, Text.wrap_of_joins joins, ← later]
        simp [filled, after, Fragment.chars_items, spaceChars]
      · have later := inductionHypothesis word.text
        rw [wrap_of_breaks joins, Text.wrap_of_breaks joins,
          String.intercalate_cons_of_ne_nil (Text.wrap_ne_nil width word.text _)]
        simp [filled, after, Fragment.chars_items, lineChars, ← later, Fragment.width]

/-- The text of words is that of the words wrapped greedily. -/
theorem renderAll_filled (width : Int) (word : Fragment) (words : List Fragment) :
    Item.renderAll {} (filled width 0 word words).items =
      .ok (Text.filled width ((word :: words).map Fragment.text)) := by
  apply Item.renderAll_eq_ok_iff.mpr
  constructor
  · exact List.forall_mem_append.mpr ⟨word.inRange_items, inRange_wrap words⟩
  · rw [filled, after, Int.zero_add, List.flatMap_append, Fragment.chars_items]
    exact (chars_wrap word.text words).symm

end Layout

/-! ## Building -/

/-- A fragment as a string object. -/
abbrev Identified.string (word : Identified Fragment) : Object :=
  word.map fun fragment => .str fragment.text

theorem Identified.ofValue_string (word : Identified Fragment) :
    Doc.ofValue word.string.content = .ok word.content.doc :=
  word.content.ofValue_str

namespace Build

variable {label : Nat} {object : Object} {objects : List Object} {document : Doc}
  {joined : Identified Doc}

theorem exists_concat_cons (concatEq : concat label objects = .ok joined)
    (reads : Doc.ofValue object.content = .ok document) :
    ∃ whole, concat label (object :: objects) = .ok whole ∧
      whole.content = document.append joined.content := by
  obtain ⟨identity, castEq⟩ := exists_cast reads label
  rw [concat_cons, concatEq, castEq]
  exact ⟨_, rfl, Identified.content_append ..⟩

/-- Words joined by softlines. -/
theorem exists_join_softline (label : Nat) (identity : Identity) (word : Identified Fragment)
    (words : List (Identified Fragment)) :
    ∃ document, join label ⟨identity, .doc .softline⟩
        ((word :: words).map Identified.string) = .ok document ∧
      document.content =
        word.content.doc.append (.further (words.map Identified.content)) := by
  induction words generalizing word with
  | nil =>
      have none : concat label [] = .ok .empty := rfl
      obtain ⟨whole, wholeEq, contentEq⟩ := exists_concat_cons none word.ofValue_string
      exact ⟨whole, wholeEq, contentEq⟩
  | cons next words inductionHypothesis =>
      obtain ⟨rest, restEq, restContent⟩ := inductionHypothesis next
      let softline : Object := ⟨identity, .doc .softline⟩
      have softlineReads : Doc.ofValue softline.content = .ok .softline := rfl
      obtain ⟨joined, joinedEq, joinedContent⟩ := exists_concat_cons restEq softlineReads
      obtain ⟨whole, wholeEq, wholeContent⟩ := exists_concat_cons joinedEq word.ofValue_string
      refine ⟨whole, wholeEq, ?_⟩
      rw [wholeContent, joinedContent, restContent]
      rfl

end Build

/-- Filling with softlines is greedy word wrap.  Words without line breaks, joined by softlines, are
a document for every list of them, and whatever the width it is printed as the words wrapped
greedily. -/
theorem softlines_wrap_words (label : Nat) (identity : Identity)
    (words : List (Identified Fragment)) :
    ∃ document, Build.join label ⟨identity, .doc .softline⟩
        (words.map Identified.string) = .ok document ∧
      ∀ {σ : Type} (host : Host σ) (width : Int) (state : σ),
        Prints host {} width document.content state
          (Text.filled width (words.map fun word => word.content.text)) := by
  have softline : Composed noCallback ⟨identity, .doc .softline⟩ := .softline identity
  have strings : ∀ object ∈ words.map Identified.string, Composed noCallback object := by
    rw [List.forall_mem_map]
    exact fun word _ => .string word.identity word.content.text
  -- No callback is reached, so any meaning will do.
  let meaning : Meaning := fun _ _ => .ok .none
  cases words with
  | nil =>
      refine ⟨.empty, rfl, fun host width state => ?_⟩
      have prescribed : Prescribed meaning width 0 [⟨0, .doc .empty⟩] ⟨[], none⟩ := .blank .done
      have emits := (Doc.Standalone.blank false).emits_prescribed host prescribed state
      exact (prints_iff_of_emits emits rfl).mpr rfl
  | cons word words =>
      obtain ⟨document, made, contentEq⟩ := Build.exists_join_softline label identity word words
      have sound := Value.readsAs_doc_iff.mp (Composed.join softline strings made).sound
      refine ⟨document, made, fun host width state => ?_⟩
      let further := words.map Identified.content
      have prescribed : Prescribed meaning width 0 [⟨0, .doc document.content⟩]
          (.filled width 0 word.content further) := by
        rw [contentEq]
        exact .fragment_append word.content (.further further _)
      have emits := sound.standalone.emits_prescribed host prescribed state
      have ends : (Layout.filled width 0 word.content further).ending = none :=
        Layout.ending_filled word.content further
      have rendered := Layout.renderAll_filled width word.content further
      rw [List.map_cons, List.map_map] at rendered
      exact (prints_iff_of_emits emits ends).mpr rendered

/-- An exact fit, an empty word, and a word that starts a new line. -/
example : Text.filled 5 ["ab", "cd", "", "e", "toolong"] = "ab cd\n e\ntoolong" := by decide

end DocLayout
