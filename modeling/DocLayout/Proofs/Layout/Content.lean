import DocLayout.Proofs.Doc.Built
import DocLayout.Proofs.Layout.Reference

/-!
# Content

A document without deferred parts spells the same words at every width: the two members of each of
its choices have the same words, and a line break counts as a space.  So a layout, with spaces in
place of its line breaks, is the layout of the one-line form, which has no line breaks at any width.

Such documents never call the host, so all this holds whatever the host does.
-/

namespace DocLayout

/-- An item with a space in place of a line break. -/
def Item.inline : Item → Item
  | .text fragment => .text fragment
  | .line _ => .text .space

/-- A layout comes to its end and holds just the given words, line breaks being spaces. -/
structure Layout.Spells (layout : Layout) (words : List Fragment) : Prop where
  items : layout.items.map Item.inline = words.map .text
  ending : layout.ending = none

theorem Layout.Spells.text {layout : Layout} {words : List Fragment} (spells : layout.Spells words)
    (fragment : Fragment) : (layout.after [.text fragment]).Spells (fragment :: words) where
  items := congrArg (Item.text fragment :: ·) spells.items
  ending := spells.ending

theorem Layout.Spells.line {layout : Layout} {words : List Fragment} (spells : layout.Spells words)
    (indent : Int) : (layout.after [.line indent]).Spells (.space :: words) where
  items := congrArg (Item.text .space :: ·) spells.items
  ending := spells.ending

namespace Doc

/-- The words of a document.  A choice has some if its members have the same ones and the first of
them is on one line; a deferred document has none. -/
inductive Reads : Doc → List Fragment → Prop where
  | blank (kept : Bool) : Reads (.blank kept) []
  | text (fragment : Fragment) : Reads (.text fragment) [fragment]
  | line : Reads .line [.space]
  | concat {left right : Doc} {first second : List Fragment} (leftReads : Reads left first)
      (rightReads : Reads right second) : Reads (.concat left right) (first ++ second)
  | nest {inner : Doc} {words : List Fragment} (amount : Amount) (innerReads : Reads inner words) :
      Reads (.nest amount inner) words
  | union {flat broken : Doc} {words : List Fragment} (flatIdentity brokenIdentity : Identity)
      (flatReads : Reads flat words) (flatOneLine : flat.IsOneLine)
      (brokenReads : Reads broken words) :
      Reads (.union ⟨flatIdentity, .doc flat⟩ ⟨brokenIdentity, .doc broken⟩) words

namespace Reads

variable {document : Doc} {words : List Fragment}

/-- The one-line form has the same words, and is on one line. -/
theorem exists_oneLine (reads : document.Reads words) :
    ∃ flat : Doc, document.oneLine = .ok (.doc flat) ∧ flat.IsOneLine ∧ flat.Reads words := by
  induction reads with
  | blank kept => exact ⟨.blank kept, rfl, .blank kept, .blank kept⟩
  | text fragment => exact ⟨.text fragment, rfl, .text fragment, .text fragment⟩
  | line => exact ⟨.space, rfl, .text _, .text _⟩
  | concat _ _ leftHypothesis rightHypothesis =>
      obtain ⟨newLeft, leftEq, leftOneLine, leftReads⟩ := leftHypothesis
      obtain ⟨newRight, rightEq, rightOneLine, rightReads⟩ := rightHypothesis
      refine ⟨.concat newLeft newRight, ?_, .concat leftOneLine rightOneLine,
        .concat leftReads rightReads⟩
      rw [oneLine, leftEq, rightEq]
      rfl
  | nest amount _ inductionHypothesis =>
      obtain ⟨newInner, innerEq, innerOneLine, innerReads⟩ := inductionHypothesis
      refine ⟨.nest amount newInner, ?_, .nest amount innerOneLine, .nest amount innerReads⟩
      rw [oneLine, innerEq]
      rfl
  | @union flat _ _ _ _ flatReads flatOneLine _ =>
      exact ⟨flat, rfl, flatOneLine, flatReads⟩

/-- To have words is a stable property. -/
theorem stable : Stable fun document => ∃ words, document.Reads words where
  empty := ⟨[], .blank false⟩
  text fragment := ⟨[fragment], .text fragment⟩
  line := ⟨[.space], .line⟩
  concat := by
    rintro _ _ ⟨first, leftReads⟩ ⟨second, rightReads⟩
    exact ⟨first ++ second, .concat leftReads rightReads⟩
  nest := by
    rintro amount _ ⟨words, innerReads⟩
    exact ⟨words, .nest amount innerReads⟩
  group := by
    rintro _ _ ⟨words, brokenReads⟩ flattens flatIdentity brokenIdentity
    obtain ⟨flat, flatEq, flatOneLine, flatReads⟩ := brokenReads.exists_oneLine
    cases flattens.symm.trans flatEq
    exact ⟨words, .union flatIdentity brokenIdentity flatReads flatOneLine brokenReads⟩

/-! ## Layouts -/

variable {meaning : Meaning} {width : Int} {rest : List Obligation}

/-- A document with words spells them first, whatever is chosen. -/
theorem exists_prescribed (reads : document.Reads words) {later : List Fragment}
    (restSpells : ∀ column, ∃ layout, Prescribed meaning width column rest layout ∧
      layout.Spells later) (column indent : Int) :
    ∃ layout, Prescribed meaning width column (⟨indent, .doc document⟩ :: rest) layout ∧
      layout.Spells (words ++ later) := by
  induction reads generalizing rest later column indent with
  | blank =>
      obtain ⟨layout, prescribed, spells⟩ := restSpells column
      exact ⟨layout, .blank prescribed, spells⟩
  | text fragment =>
      obtain ⟨layout, prescribed, spells⟩ := restSpells (column + fragment.width)
      exact ⟨_, .text prescribed, spells.text fragment⟩
  | line =>
      obtain ⟨layout, prescribed, spells⟩ := restSpells (max indent 0)
      exact ⟨_, .line prescribed, spells.line indent⟩
  | concat _ _ leftHypothesis rightHypothesis =>
      obtain ⟨layout, prescribed, spells⟩ := leftHypothesis
        (fun column => rightHypothesis restSpells column indent) column indent
      rw [List.append_assoc]
      exact ⟨layout, .concat prescribed, spells⟩
  | nest amount _ inductionHypothesis =>
      obtain ⟨layout, prescribed, spells⟩ :=
        inductionHypothesis restSpells column (indent + amount.toInt)
      exact ⟨layout, .nest prescribed, spells⟩
  | union _ _ _ _ _ flatHypothesis brokenHypothesis =>
      obtain ⟨flatLayout, flatPrescribed, flatSpells⟩ := flatHypothesis restSpells column indent
      obtain ⟨layout, prescribed, spells⟩ := brokenHypothesis restSpells column indent
      rcases fitsEq : flatLayout.fits (width - column) with cause | (_ | _)
      · -- Only a layout that fails leaves open whether it fits.
        obtain ⟨_, rfl⟩ := Layout.exists_texts_of_fails fitsEq
        cases flatSpells.ending
      · exact ⟨layout, .broken flatPrescribed fitsEq prescribed, spells⟩
      · exact ⟨flatLayout, .flat flatPrescribed fitsEq, flatSpells⟩

/-- A document on one line is laid out as its words, at every width and column. -/
theorem prescribed_of_isOneLine (reads : document.Reads words) (single : document.IsOneLine)
    {layout : Layout} (restPrescribed : ∀ column, Prescribed meaning width column rest layout)
    (column indent : Int) :
    Prescribed meaning width column (⟨indent, .doc document⟩ :: rest)
      (layout.after (words.map .text)) := by
  induction reads generalizing rest layout column indent with
  | blank => exact .blank (restPrescribed column)
  | text fragment => exact .text (restPrescribed (column + fragment.width))
  | concat _ _ leftHypothesis rightHypothesis =>
      cases single with
      | concat leftSingle rightSingle =>
          have prescribed := leftHypothesis leftSingle
            (fun column => rightHypothesis rightSingle restPrescribed column indent) column indent
          rw [List.map_append, Layout.after, List.append_assoc]
          exact .concat prescribed
  | nest amount _ inductionHypothesis =>
      cases single with
      | nest _ innerSingle =>
          exact .nest (inductionHypothesis innerSingle restPrescribed column _)
  | line => cases single
  | union => cases single

/-- No host is asked for anything by a document with words. -/
theorem follows {σ : Type} (host : Host σ) (meaning : Meaning) :
    host.Follows meaning fun value => ∃ document words, value = .doc document ∧
      document.Reads words where
  gives := by
    rintro indent column _ ⟨document, words, rfl, reads⟩
    cases reads <;> exact fun _ => rfl
  closed := by
    rintro indent column _ move ⟨document, words, rfl, reads⟩ moveEq
    cases reads with
    | concat leftReads rightReads =>
        cases moveEq
        exact List.forall_mem_cons.mpr ⟨⟨_, _, rfl, leftReads⟩,
          List.forall_mem_singleton.mpr ⟨_, _, rfl, rightReads⟩⟩
    | nest _ innerReads =>
        cases moveEq
        exact List.forall_mem_singleton.mpr ⟨_, _, rfl, innerReads⟩
    | union _ _ flatReads _ brokenReads =>
        cases moveEq
        exact List.forall_mem_cons.mpr ⟨⟨_, _, rfl, flatReads⟩,
          List.forall_mem_singleton.mpr ⟨_, _, rfl, brokenReads⟩⟩
    | _ =>
        cases moveEq
        exact List.forall_mem_nil _

/-- A walk over a document with words emits what is prescribed, whatever the host does. -/
theorem emits {σ : Type} (host : Host σ) (reads : document.Reads words) {column : Int}
    {layout : Layout}
    (prescribed : Prescribed meaning width column [⟨0, .doc document⟩] layout) (state : σ) :
    (Walk.start column [⟨0, .doc document⟩] state).Emits host width layout := by
  refine prescribed.emits (follows host meaning) ?_ rfl (Work.obligations_ofList _)
    Memory.reliable_empty
  exact List.forall_mem_singleton.mpr ⟨document, words, rfl, reads⟩

end Reads

end Doc

/-- A line break and a choice of its own, in a group. -/
def Doc.nestedGroups : Doc :=
  .union ⟨.made 0, .doc (.concat .space .space)⟩ ⟨.made 0, .doc (.concat .line .softline)⟩

theorem Built.nestedGroups : Built ⟨.made 0, .doc .nestedGroups⟩ := by
  have made : Build.append 0 ⟨.shared, .doc .line⟩ ⟨.shared, .doc .softline⟩ =
      .ok ⟨.made 0, .concat .line .softline⟩ := rfl
  have flattens : Identified.flatten 0 ⟨.made 0, .doc (.concat .line .softline)⟩ =
      .ok ⟨.made 0, .doc (.concat .space .space)⟩ := by
    simp only [Identified.flatten, Value.oneLine?_doc]
    rfl
  have grouped : Build.group 0 ⟨.made 0, .doc (.concat .line .softline)⟩ =
      .ok ⟨.made 0, .nestedGroups⟩ := by
    change (Identified.flatten 0 ⟨.made 0, .doc (.concat .line .softline)⟩ >>= _) = _
    rw [flattens]
    rfl
  exact .group (.append .line (.softline .shared) made) grouped

/-- Whatever the width, the layout of a document that is built without deferral and the layout of
its one-line form hold the words of the document in their order.  The one-line form has no line
breaks; the document may have line breaks where the one-line form has spaces. -/
theorem Built.same_content {identity : Identity} {document : Doc}
    (built : Built ⟨identity, .doc document⟩) :
    ∃ (flat : Doc) (words : List Fragment), (Value.doc document).flatten = .ok (.doc flat) ∧
      document.Reads words ∧ ∀ {σ : Type} (host : Host σ) (state : σ) (width : Int),
        (Walk.start 0 [⟨0, .doc flat⟩] state).Emits host width ⟨words.map .text, none⟩ ∧
        ∃ items, (Walk.start 0 [⟨0, .doc document⟩] state).Emits host width ⟨items, none⟩ ∧
          items.map Item.inline = words.map .text := by
  obtain ⟨words, reads⟩ := Value.readsAs_doc_iff.mp (built.readsAs Doc.Reads.stable)
  obtain ⟨flat, flatEq, flatOneLine, flatReads⟩ := reads.exists_oneLine
  refine ⟨flat, words, (Value.flatten_doc document).trans flatEq, reads, ?_⟩
  intro σ host state width
  -- No callback is reached, so any meaning will do.
  let meaning : Meaning := fun _ _ => .ok .none
  constructor
  · have prescribed : Prescribed meaning width 0 [⟨0, .doc flat⟩] (.after _ ⟨[], none⟩) :=
      flatReads.prescribed_of_isOneLine flatOneLine (fun _ => .done) 0 0
    rw [Layout.after, List.append_nil] at prescribed
    exact flatReads.emits host prescribed state
  · have nothing (column : Int) :
        ∃ layout, Prescribed meaning width column [] layout ∧ layout.Spells [] :=
      ⟨⟨[], none⟩, .done, rfl, rfl⟩
    obtain ⟨⟨items, ending⟩, prescribed, spells⟩ := reads.exists_prescribed nothing 0 0
    obtain rfl : ending = none := spells.ending
    rw [List.append_nil] at spells
    exact ⟨items, reads.emits host prescribed state, spells.items⟩

/-- Within one column the outer choice is broken, and the inner one is laid out flat. -/
theorem Prescribed.of_nestedGroups :
    Prescribed .steps 1 0 [⟨0, .doc .nestedGroups⟩] ⟨[.line 0, .text .space], none⟩ := by
  have spaces : Prescribed .steps 1 0 [⟨0, .doc (.concat .space .space)⟩]
      (.after [.text .space] (.after [.text .space] ⟨[], none⟩)) :=
    .concat (.text (.text .done))
  have softline : Prescribed .steps 1 0 [⟨0, .doc .softline⟩] (.after [.text .space] ⟨[], none⟩) :=
    .flat (.text .done) rfl
  have broken : Prescribed .steps 1 0 [⟨0, .doc (.concat .line .softline)⟩]
      (.after [.line 0] ⟨[.text .space], none⟩) := .concat (.line softline)
  exact .broken spaces rfl broken

/-- The words are two spaces.  The one-line form has both of them at every width; within one column
the document has a line break for the first one. -/
theorem nestedGroups_same_content :
    Built ⟨.made 0, .doc .nestedGroups⟩ ∧
      ∃ flat : Doc, (Value.doc .nestedGroups).flatten = .ok (.doc flat) ∧
        Doc.nestedGroups.Reads [.space, .space] ∧
        (∀ width, (Walk.start 0 [⟨0, .doc flat⟩] 0).Emits Meaning.steps.countingHost width
          ⟨[.text .space, .text .space], none⟩) ∧
        (Walk.start 0 [⟨0, .doc .nestedGroups⟩] 0).Emits Meaning.steps.countingHost 1
          ⟨[.line 0, .text .space], none⟩ ∧
        ∀ width, ∃ items,
          (Walk.start 0 [⟨0, .doc .nestedGroups⟩] 0).Emits Meaning.steps.countingHost width
              ⟨items, none⟩ ∧
            items.map Item.inline = [.text .space, .text .space] := by
  obtain ⟨flat, words, flattens, reads, layouts⟩ := Built.same_content Built.nestedGroups
  obtain rfl : words = [.space, .space] := by
    rcases reads with _ | _ | _ | _ | _ | ⟨_, _, _ | _ | _ | ⟨first, second⟩, _, _⟩
    cases first
    cases second
    rfl
  have emits := Prescribed.of_nestedGroups.start_emits Meaning.steps.realizes_countingHost 0
  exact ⟨.nestedGroups, flat, flattens, reads, fun width => (layouts _ 0 width).1, emits,
    fun width => (layouts _ 0 width).2⟩

end DocLayout
