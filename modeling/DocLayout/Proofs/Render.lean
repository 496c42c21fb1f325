import DocLayout.Render

/-!
# Rendered items

The text of several items is the text of each of them, one after the other.  In the default style
every item whose indentation is in range has a text: a text item its own, which holds no line feed,
and a line break a line feed with spaces behind it.  So the length of the last line grows with text
items, and starts anew with line breaks.
-/

namespace DocLayout

theorem Text.toList_copies_space (count : Nat) :
    (Text.copies " " count).toList = List.replicate count ' ' := by
  have notEmpty : ¬ " " = "" := by decide
  rw [copies, if_neg notEmpty, String.toList_join]
  induction count with
  | zero => rfl
  | succ count inductionHypothesis =>
      rw [List.replicate_succ, List.flatMap_cons, inductionHypothesis]
      rfl

namespace Fragment

/-- A fragment has no line feed. -/
theorem ne_newline (fragment : Fragment) : ∀ c ∈ fragment.text.toList, c ≠ '\n' := by
  rintro c member rfl
  have unbroken := fragment.unbroken '\n' member
  cases unbroken

theorem length_toList (fragment : Fragment) : fragment.text.toList.length = fragment.width :=
  String.length_toList

end Fragment

/-- The number of characters behind the last line feed. -/
def lastLineLength (text : List Char) : Nat :=
  (text.reverse.takeWhile (· ≠ '\n')).length

section LastLine

variable {more : List Char} (text : List Char)

theorem lastLineLength_append (unbroken : ∀ c ∈ more, c ≠ '\n') :
    lastLineLength (text ++ more) = lastLineLength text + more.length := by
  rw [lastLineLength, List.reverse_append, List.takeWhile_append_of_pos (by simpa using unbroken),
    List.length_append, List.length_reverse, Nat.add_comm]
  rfl

theorem lastLineLength_append_newline (unbroken : ∀ c ∈ more, c ≠ '\n') :
    lastLineLength (text ++ '\n' :: more) = more.length := by
  have broken : lastLineLength (text ++ ['\n']) = 0 := by simp [lastLineLength]
  rw [List.append_cons, lastLineLength_append _ unbroken, broken, Nat.zero_add]

end LastLine

theorem ne_newline_of_mem_replicate {count : Nat} {c : Char}
    (member : c ∈ List.replicate count ' ') : c ≠ '\n' := by
  rw [List.eq_of_mem_replicate member]
  decide

namespace Item

/-- The text of several items. -/
def renderAll (style : Style) : List Item → Except Error String
  | [] => .ok ""
  | item :: items => do
      let chunk ← item.render style
      let rest ← renderAll style items
      return chunk ++ rest

/-- The indentation is small enough to be rendered. -/
def InRange : Item → Prop
  | .text _ => True
  | .line indent => indent < Text.repeatLimit

/-- Whether an item is a line break. -/
def isLine : Item → Bool
  | .text _ => false
  | .line _ => true

/-- The characters of an item in the default style. -/
def chars : Item → List Char
  | .text fragment => fragment.text.toList
  | .line indent => '\n' :: List.replicate indent.toNat ' '

variable {style : Style} {items later : List Item} {text : String}

theorem renderAll_cons_eq_ok_iff {item : Item} :
    renderAll style (item :: items) = .ok text ↔
      ∃ chunk rest, item.render style = .ok chunk ∧ renderAll style items = .ok rest ∧
        text = chunk ++ rest := by
  rw [renderAll]
  cases item.render style with
  | error cause => simp [Bind.bind, Except.bind]
  | ok chunk =>
      cases renderAll style items with
      | error cause => simp [Bind.bind, Except.bind]
      | ok rest => simp [Bind.bind, Except.bind, pure, Except.pure, eq_comm]

theorem renderAll_append {first second : String} (rendered : renderAll style items = .ok first)
    (laterRendered : renderAll style later = .ok second) :
    renderAll style (items ++ later) = .ok (first ++ second) := by
  induction items generalizing first with
  | nil =>
      cases rendered
      simpa using laterRendered
  | cons item items inductionHypothesis =>
      obtain ⟨chunk, rest, chunkEq, restEq, rfl⟩ := renderAll_cons_eq_ok_iff.mp rendered
      exact renderAll_cons_eq_ok_iff.mpr
        ⟨chunk, rest ++ second, chunkEq, inductionHypothesis restEq, String.append_assoc ..⟩

/-- The text of each of several items, up to the first item that has none, and why it has none. -/
def renderEach (style : Style) : List Item → List String × Option Error
  | [] => ([], none)
  | item :: items =>
      match item.render style with
      | .ok chunk => (chunk :: (renderEach style items).1, (renderEach style items).2)
      | .error cause => ([], some cause)

theorem renderEach_cons_of_ok {item : Item} {chunk : String}
    (rendered : item.render style = .ok chunk) (items : List Item) :
    renderEach style (item :: items) =
      (chunk :: (renderEach style items).1, (renderEach style items).2) := by
  rw [renderEach, rendered]

theorem renderEach_cons_of_error {item : Item} {cause : Error}
    (unrendered : item.render style = .error cause) (items : List Item) :
    renderEach style (item :: items) = ([], some cause) := by
  rw [renderEach, unrendered]

/-- Several items have a text if each of them has one, and it is made up of theirs. -/
theorem renderAll_eq_renderEach (style : Style) (items : List Item) :
    renderAll style items =
      (renderEach style items).2.elim (.ok (String.join (renderEach style items).1)) .error := by
  induction items with
  | nil => rfl
  | cons item items inductionHypothesis =>
      rw [renderAll, inductionHypothesis]
      cases rendered : item.render style with
      | error cause => rw [renderEach_cons_of_error rendered]; rfl
      | ok chunk =>
          rw [renderEach_cons_of_ok rendered, String.join_cons]
          cases (renderEach style items).2 with
          | none => rfl
          | some cause => rfl

theorem exists_render {item : Item} (inRange : item.InRange) :
    ∃ chunk, item.render {} = .ok chunk ∧ chunk.toList = item.chars := by
  cases item with
  | text fragment => exact ⟨fragment.text, rfl, rfl⟩
  | line indent =>
      have limit : (0 : Int) < Text.repeatLimit := by decide
      have upper : max indent 0 < Text.repeatLimit := Int.max_lt.mpr ⟨inRange, limit⟩
      refine ⟨"\n" ++ Text.copies " " (max indent 0).toNat, ?_, ?_⟩
      · rw [render, Style.lineBreak, Text.repeated_eq_ok (by omega) upper]
        rfl
      · have sameCount : (max indent 0).toNat = indent.toNat := by omega
        rw [String.toList_append, Text.toList_copies_space, sameCount]
        rfl

/-- Items in range have a text. -/
theorem exists_renderAll (inRange : ∀ item ∈ items, item.InRange) :
    ∃ text, renderAll {} items = .ok text ∧ text.toList = items.flatMap chars := by
  induction items with
  | nil => exact ⟨"", rfl, rfl⟩
  | cons item items inductionHypothesis =>
      obtain ⟨itemInRange, restInRange⟩ := List.forall_mem_cons.mp inRange
      obtain ⟨chunk, chunkEq, chunkChars⟩ := exists_render itemInRange
      obtain ⟨rest, restEq, restChars⟩ := inductionHypothesis restInRange
      refine ⟨chunk ++ rest, renderAll_cons_eq_ok_iff.mpr ⟨chunk, rest, chunkEq, restEq, rfl⟩, ?_⟩
      rw [String.toList_append, chunkChars, restChars, List.flatMap_cons]

theorem inRange_of_render {item : Item} {chunk : String} (rendered : item.render {} = .ok chunk) :
    item.InRange := by
  cases item with
  | text fragment => trivial
  | line indent =>
      by_cases inRange : indent < Text.repeatLimit
      · exact inRange
      · have outOfRange :
            ¬ (-Text.repeatLimit ≤ max indent 0 ∧ max indent 0 < Text.repeatLimit) := by
          omega
        rw [render, Style.lineBreak, Text.repeated, if_neg outOfRange] at rendered
        cases rendered

/-- What an item is written as in the default style. -/
def chunk (item : Item) : String :=
  String.ofList item.chars

theorem eq_chunk_of_render {item : Item} (rendered : item.render {} = .ok text) :
    text = item.chunk := by
  obtain ⟨found, foundEq, charsEq⟩ := exists_render (inRange_of_render rendered)
  rw [rendered] at foundEq
  cases foundEq
  rw [chunk, ← charsEq, String.ofList_toList]

/-- An item has a text in the default style. -/
def Renders (item : Item) : Prop :=
  ∃ text, item.render {} = .ok text

/-- The items that have a text are those in range. -/
theorem renders_iff_inRange {item : Item} : item.Renders ↔ item.InRange := by
  constructor
  · rintro ⟨text, rendered⟩
    exact inRange_of_render rendered
  · intro inRange
    obtain ⟨text, rendered, -⟩ := exists_render inRange
    exact ⟨text, rendered⟩

theorem renderEach_append (renders : ∀ item ∈ items, item.Renders) (later : List Item) :
    renderEach {} (items ++ later) =
      (items.map chunk ++ (renderEach {} later).1, (renderEach {} later).2) := by
  induction items with
  | nil => rfl
  | cons item items inductionHypothesis =>
      obtain ⟨⟨text, rendered⟩, restRender⟩ := List.forall_mem_cons.mp renders
      rw [List.cons_append, renderEach_cons_of_ok rendered, inductionHypothesis restRender,
        List.map_cons, List.cons_append, eq_chunk_of_render rendered]

/-- The items that come before the first one without a text. -/
theorem exists_renderEach (items : List Item) :
    ∃ front later, items = front ++ later ∧ (∀ item ∈ front, item.Renders) ∧
      (renderEach {} items).1 = front.map chunk ∧
      ((later = [] ∧ (renderEach {} items).2 = none) ∨
        ∃ bad rest cause, later = bad :: rest ∧ bad.render {} = .error cause ∧
          (renderEach {} items).2 = some cause) := by
  induction items with
  | nil => exact ⟨[], [], rfl, List.forall_mem_nil _, rfl, .inl ⟨rfl, rfl⟩⟩
  | cons item items inductionHypothesis =>
      cases rendered : item.render {} with
      | error cause =>
          rw [renderEach_cons_of_error rendered]
          exact ⟨[], item :: items, rfl, List.forall_mem_nil _, rfl,
            .inr ⟨item, items, cause, rfl, rendered, rfl⟩⟩
      | ok text =>
          obtain ⟨front, later, rfl, frontRender, chunksEq, endingEq⟩ := inductionHypothesis
          rw [renderEach_cons_of_ok rendered, chunksEq, eq_chunk_of_render rendered]
          exact ⟨item :: front, later, rfl,
            List.forall_mem_cons.mpr ⟨⟨text, rendered⟩, frontRender⟩, rfl, endingEq⟩

/-- Items have a text exactly if they are in range, and it is that of their characters. -/
theorem renderAll_eq_ok_iff :
    renderAll {} items = .ok text ↔
      (∀ item ∈ items, item.InRange) ∧ text.toList = items.flatMap chars := by
  constructor
  · intro rendered
    have inRange : ∀ item ∈ items, item.InRange := by
      induction items generalizing text with
      | nil => exact List.forall_mem_nil _
      | cons item items inductionHypothesis =>
          obtain ⟨chunk, rest, chunkEq, restEq, -⟩ := renderAll_cons_eq_ok_iff.mp rendered
          exact List.forall_mem_cons.mpr ⟨inRange_of_render chunkEq, inductionHypothesis restEq⟩
    obtain ⟨found, foundEq, charsEq⟩ := exists_renderAll inRange
    cases foundEq.symm.trans rendered
    exact ⟨inRange, charsEq⟩
  · rintro ⟨inRange, charsEq⟩
    obtain ⟨found, foundEq, foundChars⟩ := exists_renderAll inRange
    rw [foundEq, String.toList_inj.mp (foundChars.trans charsEq.symm)]

theorem count_newline_chars (item : Item) :
    item.chars.count '\n' = if item.isLine then 1 else 0 := by
  cases item with
  | text fragment =>
      have absent : '\n' ∉ fragment.text.toList := fun member => fragment.ne_newline _ member rfl
      simpa [chars, isLine] using List.count_eq_zero_of_not_mem absent
  | line indent => simp [chars, isLine, List.count_replicate]

/-- There is a line feed for every line break, and no other one. -/
theorem count_newline (items : List Item) :
    (items.flatMap chars).count '\n' = items.countP isLine := by
  induction items with
  | nil => rfl
  | cons item items inductionHypothesis =>
      rw [List.flatMap_cons, List.count_append, inductionHypothesis, count_newline_chars,
        List.countP_cons, Nat.add_comm]

end Item

namespace Fragment

/-- The items of a fragment that is read as a document: none if it is empty. -/
def items (fragment : Fragment) : List Item :=
  if fragment.text = "" then [] else [.text fragment]

theorem width_eq_zero_iff {fragment : Fragment} :
    fragment.width = 0 ↔ fragment.text = "" :=
  String.length_eq_zero_iff

theorem chars_items (fragment : Fragment) :
    fragment.items.flatMap Item.chars = fragment.text.toList := by
  by_cases blank : fragment.text = ""
  · rw [items, if_pos blank, blank]
    rfl
  · rw [items, if_neg blank, List.flatMap_singleton, Item.chars]

theorem inRange_items (fragment : Fragment) :
    ∀ item ∈ fragment.items, item.InRange := by
  unfold items
  split
  · exact List.forall_mem_nil _
  · exact List.forall_mem_singleton.mpr trivial

end Fragment

end DocLayout
