import DocLayout.Proofs.Layout.Reading
import DocLayout.Proofs.Layout.Rows

/-!
# Columns and rendered text

A walk keeps the column that it has reached, and so does every probe.  This is the length of the
last line of the text that the items make so far: the renderer counts columns as the walk does.
The rows of a layout are the lines of its text.

Nothing is assumed of the host.
-/

namespace DocLayout

/-- The column after items is the length of the last line of their text. -/
theorem Item.columnAfter_lastLineLength (before : List Char) (items : List Item) :
    columnAfter (lastLineLength before) items =
      lastLineLength (before ++ items.flatMap Item.chars) := by
  induction items generalizing before with
  | nil => simp
  | cons item items inductionHypothesis =>
      have advances :
          item.advance (lastLineLength before) = lastLineLength (before ++ item.chars) := by
        cases item with
        | text fragment =>
            rw [chars, lastLineLength_append before fragment.ne_newline, advance_text,
              fragment.length_toList]
            rfl
        | line indent =>
            rw [chars, lastLineLength_append_newline before fun _ => ne_newline_of_mem_replicate,
              advance_line, List.length_replicate]
            omega
      rw [columnAfter_cons, advances, inductionHypothesis, List.append_assoc, List.flatMap_cons]

theorem Item.columnAfter_nonneg {column : Int} (nonneg : 0 ≤ column) (items : List Item) :
    0 ≤ columnAfter column items := by
  induction items generalizing column with
  | nil => exact nonneg
  | cons item items inductionHypothesis =>
      apply inductionHypothesis
      cases item with
      | text fragment => exact Int.add_nonneg nonneg (Int.natCast_nonneg _)
      | line indent => exact Int.le_max_right indent 0

namespace Row

/-- The text of a row: the spaces of its indentation and its text items. -/
def chars (row : Row) : List Char :=
  List.replicate row.start.toNat ' ' ++ (itemsOf row.events).flatMap Item.chars

variable (row : Row)

@[simp]
theorem chars_add_decision (made : Decision) : (row.add (.decision made)).chars = row.chars := by
  simp [chars, add]

@[simp]
theorem chars_add_text (fragment : Fragment) :
    (row.add (.item (.text fragment))).chars = row.chars ++ fragment.text.toList := by
  simp [chars, add, Item.chars]

theorem chars_opened (indent : Int) :
    (opened (max indent 0)).chars = List.replicate indent.toNat ' ' := by
  have sameCount : (max indent 0).toNat = indent.toNat := by omega
  rw [chars, opened, sameCount]
  exact List.append_nil _

/-- The text of events, split at its line feeds, is that of their rows. -/
theorem splitOn_chars (events : List Event) (unbroken : ∀ c ∈ row.chars, c ≠ '\n') :
    (row.chars ++ (itemsOf events).flatMap Item.chars).splitOn '\n' =
      (row.all events).map chars := by
  induction events generalizing row with
  | nil =>
      have absent : '\n' ∉ row.chars := fun member => unbroken _ member rfl
      simpa [all, ended, after] using List.splitOn_eq_singleton absent
  | cons event events inductionHypothesis =>
      cases event with
      | decision made =>
          have later := inductionHypothesis (row.add (.decision made)) (by simpa using unbroken)
          rw [chars_add_decision] at later
          exact later
      | item item =>
          cases item with
          | text fragment =>
              have later := inductionHypothesis (row.add (.item (.text fragment))) (by
                rw [chars_add_text]
                exact List.forall_mem_append.mpr ⟨unbroken, fragment.ne_newline⟩)
              rw [chars_add_text, List.append_assoc] at later
              exact later
          | line indent =>
              have later := inductionHypothesis (opened (max indent 0)) (by
                rw [chars_opened]
                exact fun _ => ne_newline_of_mem_replicate)
              rw [chars_opened] at later
              change _ = row.chars :: ((opened (max indent 0)).all events).map chars
              rw [← later]
              exact List.splitOnP_append_cons_of_forall_mem (by simpa using unbroken) '\n' rfl _

end Row

namespace Walk

variable {σ : Type} {host : Host σ} {column here : Int} {parts : List Obligation}
  {earlier items : List Item} {walk : Walk σ}

/-- The columns that a walk keeps, each with the items that are still held back there: the column
that it has reached, or that of the choice that it waits for, and the column that the probe has
reached behind what it has emitted. -/
inductive Tracks : Walk σ → List Item → Int → Prop where
  | walking (position : Position) (store : Store σ) :
      Tracks (.walking position store) [] position.column
  | choice (column : Int) (broken : Obligation) (rest : Work) (probe : Probe σ) :
      Tracks (.probing column broken rest probe) [] column
  | probe (column : Int) (broken : Obligation) (rest : Work) (probe : Probe σ) :
      Tracks (.probing column broken rest probe) probe.items.reverse probe.position.column

theorem Tracks.column_eq (tracks : walk.Tracks items here)
    (onPath : walk.OnPath host column parts earlier) :
    here = Item.columnAfter column (earlier ++ items) := by
  cases tracks with
  | walking =>
      rw [List.append_nil]
      exact Path.column_eq onPath
  | choice =>
      rw [List.append_nil]
      exact onPath.1.column_eq
  | probe => exact onPath.2.here.path.column_eq

theorem Tracks.inRange (tracks : walk.Tracks items here)
    (onPath : walk.OnPath host column parts earlier) : ∀ item ∈ items, item.InRange := by
  cases tracks with
  | walking => exact List.forall_mem_nil _
  | choice => exact List.forall_mem_nil _
  | probe =>
      obtain ⟨texts, itemsEq⟩ := onPath.2.here.texts
      simp [itemsEq, Item.InRange]

end Walk

/-- As far as a walk gets, every column that it or its probe keeps is the length of the last line
of the text so far, what the probe has emitted included, and it is not negative.  The text has a
line feed for each line break, its lines are the rows of the walk, and it is what is printed if the
walk comes to its end.  Only the indentations have to be in range. -/
theorem column_is_rendered {σ : Type} {host : Host σ} {width : Int} {document : Doc} {state : σ}
    {events : List Event} {walk : Walk σ}
    (run : Walk.Run (Walk.step host width) (.start 0 [⟨0, .doc document⟩] state) events walk) :
    (∀ items column, walk.Tracks items column → 0 ≤ column) ∧
    ((∀ item ∈ itemsOf events, item.InRange) →
      (∀ items column, walk.Tracks items column →
        ∃ text, Item.renderAll {} (itemsOf events ++ items) = .ok text ∧
          column = lastLineLength text.toList) ∧
      ∃ text, Item.renderAll {} (itemsOf events) = .ok text ∧
        text.toList.count '\n' = (itemsOf events).countP Item.isLine ∧
        text.toList.splitOn '\n' = ((Row.opened 0).all events).map Row.chars ∧
        ∀ store, walk.step host width = .finished store →
          Prints host {} width document state text) := by
  have onPath := Walk.onPath_of_run run
  constructor
  · intro items column tracks
    rw [tracks.column_eq onPath]
    exact Item.columnAfter_nonneg (Int.le_refl 0) _
  intro inRange
  constructor
  · intro items column tracks
    have allInRange := List.forall_mem_append.mpr ⟨inRange, tracks.inRange onPath⟩
    obtain ⟨text, rendered, charsEq⟩ := Item.exists_renderAll allInRange
    refine ⟨text, rendered, ?_⟩
    rw [tracks.column_eq onPath, charsEq]
    exact Item.columnAfter_lastLineLength [] _
  · obtain ⟨text, rendered, charsEq⟩ := Item.exists_renderAll inRange
    refine ⟨text, rendered, ?_, ?_, ?_⟩
    · rw [charsEq, Item.count_newline]
    · rw [charsEq]
      exact Row.splitOn_chars (Row.opened 0) events (List.forall_mem_nil _)
    · intro store ends
      exact prints_iff.mpr ⟨events, store, ⟨walk, run, ends⟩, rendered⟩

theorem choiceInChoice_column_is_rendered :
    ∃ walk, Walk.Run (Walk.step Meaning.steps.countingHost 1)
        (Walk.start 0 [⟨0, .doc .choiceInChoice⟩] 0)
        [.decision ⟨0, 0, false⟩, .decision ⟨0, 0, true⟩, .item (.text .space), .item (.line 0)]
        walk ∧
      (∀ item ∈ [Item.text .space, Item.line 0], item.InRange) ∧
      (∀ items column, walk.Tracks items column →
        ∃ text, Item.renderAll {} ([.text .space, .line 0] ++ items) = .ok text ∧
          column = lastLineLength text.toList) ∧
      ∃ text, text.toList.count '\n' = 1 ∧ text.toList.splitOn '\n' = [[' '], []] ∧
        Prints Meaning.steps.countingHost {} 1 .choiceInChoice 0 text := by
  obtain ⟨store, walk, run, ends⟩ := Walk.choiceInChoice_ends
  obtain ⟨-, rendered⟩ := column_is_rendered run
  have inRange : ∀ item ∈ [Item.text .space, Item.line 0], item.InRange := by
    have limit : (0 : Int) < Text.repeatLimit := by decide
    simpa [Item.InRange] using limit
  obtain ⟨columns, text, -, count, lines, prints⟩ := rendered inRange
  exact ⟨walk, run, inRange, columns, text, count, lines, prints store ends⟩

end DocLayout
