import DocLayout.Proofs.Layout.Behavior
import Mathlib.Data.List.Forall2

/-!
# Layouts at a distance

Two lists of obligations can be laid out side by side, the second one further to the right by a
distance: its columns, its indentations and its width are larger by that much.  If related
obligations make corresponding moves, then what searches find corresponds, and so do the events of
walks.

The clamp at column zero is where the two may come apart: after a line break with a negative
indentation both go on from the same column.  So the line breaks of the first layout have to keep
the distance.  They do if they are not indented below zero, and any do where the distance is zero.
-/

namespace DocLayout

/-- An item further to the right. -/
def Item.moved (distance : Int) : Item → Item
  | .text fragment => .text fragment
  | .line indent => .line (indent + distance)

/-- A decision further to the right. -/
def Decision.moved (distance : Int) (decision : Decision) : Decision :=
  ⟨decision.indent + distance, decision.column + distance, decision.flat⟩

/-- An event further to the right. -/
def Event.moved (distance : Int) : Event → Event
  | .decision made => .decision (made.moved distance)
  | .item emitted => .item (emitted.moved distance)

/-- The column behind an item is further to the right if the item is.  This depends on the clamp at
column zero alone. -/
def Item.KeepsDistance (distance : Int) : Item → Prop
  | .text _ => True
  | .line indent => max (indent + distance) 0 = max indent 0 + distance

theorem Item.keepsDistance_zero (item : Item) : item.KeepsDistance 0 := by
  cases item <;> simp [KeepsDistance]

@[simp]
theorem Item.moved_zero (item : Item) : item.moved 0 = item := by
  cases item <;> simp [moved]

@[simp]
theorem Event.moved_zero (event : Event) : event.moved 0 = event := by
  cases event <;> simp [moved, Decision.moved]

@[simp]
theorem Event.map_moved_zero (events : List Event) : events.map (moved 0) = events :=
  List.map_id'' moved_zero events

theorem Event.map_moved_map_item (distance : Int) (items : List Item) :
    (items.map Event.item).map (moved distance) = (items.map (Item.moved distance)).map .item := by
  rw [List.map_map, List.map_map]
  rfl

theorem itemsOf_map_moved (distance : Int) (events : List Event) :
    itemsOf (events.map (Event.moved distance)) = (itemsOf events).map (Item.moved distance) := by
  induction events with
  | nil => rfl
  | cons event events inductionHypothesis =>
      cases event with
      | decision made => exact inductionHypothesis
      | item item => exact congrArg _ inductionHypothesis

/-- Two moves correspond if both emit the same text, both end the line, or both lead to related
obligations.  The members of a choice take the indentations at which it is met. -/
inductive Move.Corresponds (related : Obligation → Obligation → Prop) (indent otherIndent : Int) :
    Move → Move → Prop where
  | emit (fragment : Fragment) :
      Corresponds related indent otherIndent (.emit fragment) (.emit fragment)
  | newline : Corresponds related indent otherIndent .newline .newline
  | choose {flat broken otherFlat otherBroken : Value}
      (flatRelated : related ⟨indent, flat⟩ ⟨otherIndent, otherFlat⟩)
      (brokenRelated : related ⟨indent, broken⟩ ⟨otherIndent, otherBroken⟩) :
      Corresponds related indent otherIndent (.choose flat broken) (.choose otherFlat otherBroken)
  | replace {parts otherParts : List Obligation}
      (partsRelated : List.Forall₂ related parts otherParts) :
      Corresponds related indent otherIndent (.replace parts) (.replace otherParts)

theorem Move.Corresponds.refl {related : Obligation → Obligation → Prop}
    (reflexive : ∀ part, related part part) (indent : Int) (move : Move) :
    move.Corresponds related indent indent move := by
  cases move with
  | emit fragment => exact .emit fragment
  | newline => exact .newline
  | choose flat broken => exact .choose (reflexive _) (reflexive _)
  | replace parts => exact .replace (List.forall₂_same.mpr fun part _ => reflexive part)

/-- Related obligations are indented at a distance, and at columns at this distance they fail alike
or make corresponding moves. -/
structure Meaning.Translates (meaning : Meaning) (distance : Int)
    (related : Obligation → Obligation → Prop) : Prop where
  indent_eq {part other : Obligation} (matched : related part other) :
    other.indent = part.indent + distance
  fails {part other : Obligation} {column : Int} {cause : Error} (matched : related part other)
    (move : part.answer meaning column = .error cause) :
    other.answer meaning (column + distance) = .error cause
  moves {part other : Obligation} {column : Int} {move : Move} (matched : related part other)
    (answers : part.answer meaning column = .ok move) :
    ∃ otherMove, other.answer meaning (column + distance) = .ok otherMove ∧
      move.Corresponds related part.indent other.indent otherMove

variable {meaning : Meaning} {distance width column next : Int}
  {related : Obligation → Obligation → Prop} {parts otherParts remaining : List Obligation}

/-! ## Moves of the first of related obligations -/

namespace Meaning.Translates

variable {part : Obligation} {rest : List Obligation}

theorem emit (translates : meaning.Translates distance related)
    (partsRelated : List.Forall₂ related (part :: rest) otherParts) {fragment : Fragment}
    (move : part.answer meaning column = .ok (.emit fragment)) :
    ∃ other otherRest, otherParts = other :: otherRest ∧
      other.answer meaning (column + distance) = .ok (.emit fragment) ∧
      List.Forall₂ related rest otherRest := by
  obtain _ | ⟨partRelated, restRelated⟩ := partsRelated
  obtain ⟨_, otherMove, corresponds⟩ := translates.moves partRelated move
  cases corresponds
  exact ⟨_, _, rfl, otherMove, restRelated⟩

theorem newline (translates : meaning.Translates distance related)
    (partsRelated : List.Forall₂ related (part :: rest) otherParts)
    (move : part.answer meaning column = .ok .newline) :
    ∃ other otherRest, otherParts = other :: otherRest ∧
      other.indent = part.indent + distance ∧
      other.answer meaning (column + distance) = .ok .newline ∧
      List.Forall₂ related rest otherRest := by
  obtain _ | ⟨partRelated, restRelated⟩ := partsRelated
  obtain ⟨_, otherMove, corresponds⟩ := translates.moves partRelated move
  cases corresponds
  exact ⟨_, _, rfl, translates.indent_eq partRelated, otherMove, restRelated⟩

theorem replace (translates : meaning.Translates distance related)
    (partsRelated : List.Forall₂ related (part :: rest) otherParts) {made : List Obligation}
    (move : part.answer meaning column = .ok (.replace made)) :
    ∃ other otherRest otherMade, otherParts = other :: otherRest ∧
      other.answer meaning (column + distance) = .ok (.replace otherMade) ∧
      List.Forall₂ related (made ++ rest) (otherMade ++ otherRest) := by
  obtain _ | ⟨partRelated, restRelated⟩ := partsRelated
  obtain ⟨_, otherMove, corresponds⟩ := translates.moves partRelated move
  obtain _ | _ | _ | madeRelated := corresponds
  exact ⟨_, _, _, rfl, otherMove, List.rel_append madeRelated restRelated⟩

theorem choose (translates : meaning.Translates distance related)
    (partsRelated : List.Forall₂ related (part :: rest) otherParts) {flat broken : Value}
    (move : part.answer meaning column = .ok (.choose flat broken)) :
    ∃ other otherRest otherFlat otherBroken, otherParts = other :: otherRest ∧
      other.indent = part.indent + distance ∧
      other.answer meaning (column + distance) = .ok (.choose otherFlat otherBroken) ∧
      List.Forall₂ related (⟨part.indent, flat⟩ :: rest)
        (⟨other.indent, otherFlat⟩ :: otherRest) ∧
      List.Forall₂ related (⟨part.indent, broken⟩ :: rest)
        (⟨other.indent, otherBroken⟩ :: otherRest) := by
  obtain _ | ⟨partRelated, restRelated⟩ := partsRelated
  obtain ⟨_, otherMove, corresponds⟩ := translates.moves partRelated move
  obtain _ | _ | ⟨flatRelated, brokenRelated⟩ := corresponds
  exact ⟨_, _, _, _, rfl, translates.indent_eq partRelated, otherMove,
    .cons flatRelated restRelated, .cons brokenRelated restRelated⟩

theorem fail (translates : meaning.Translates distance related)
    (partsRelated : List.Forall₂ related (part :: rest) otherParts) {cause : Error}
    (move : part.answer meaning column = .error cause) :
    ∃ other otherRest, otherParts = other :: otherRest ∧
      other.answer meaning (column + distance) = .error cause := by
  obtain _ | ⟨partRelated, -⟩ := partsRelated
  exact ⟨_, _, rfl, translates.fails partRelated move⟩

end Meaning.Translates

/-! ## What searches find -/

/-- What is found corresponds if it fits with moved items in front of related obligations, or if it
does not fit in the same way. -/
inductive Found.Corresponds (related : Obligation → Obligation → Prop) (distance : Int) :
    Found → Found → Prop where
  | fits (items : List Item) (column : Int) {rest otherRest : List Obligation}
      (restRelated : List.Forall₂ related rest otherRest) :
      Corresponds related distance (.fits items column rest)
        (.fits (items.map (Item.moved distance)) (column + distance) otherRest)
  | overflows : Corresponds related distance .overflows .overflows
  | fails (cause : Error) : Corresponds related distance (.fails cause) (.fails cause)

/-- The line breaks that are found keep the distance. -/
def Found.KeepsDistance (distance : Int) : Found → Prop
  | .fits items _ _ => ∀ item ∈ items, item.KeepsDistance distance
  | .overflows => True
  | .fails _ => True

namespace Found

variable {found other : Found}

theorem Corresponds.overflows_iff (corresponds : found.Corresponds related distance other) :
    other = .overflows ↔ found = .overflows := by
  cases corresponds <;> simp

theorem Corresponds.text_after (corresponds : found.Corresponds related distance other)
    (fragment : Fragment) : (found.after [.text fragment]).Corresponds related distance
      (other.after [.text fragment]) := by
  cases corresponds with
  | fits items column restRelated => exact .fits (.text fragment :: items) column restRelated
  | overflows => exact .overflows
  | fails cause => exact .fails cause

theorem KeepsDistance.of_after {earlier : List Item}
    (keeps : (found.after earlier).KeepsDistance distance) : found.KeepsDistance distance := by
  cases found with
  | fits items column rest => exact (List.forall_mem_append.mp keeps).2
  | overflows => trivial
  | fails cause => trivial

end Found

/-- What a search over related obligations finds corresponds, if the line breaks that are found keep
the distance. -/
theorem Search.exists_corresponding (translates : meaning.Translates distance related)
    {found : Found} (search : Search meaning width column parts found)
    (partsRelated : List.Forall₂ related parts otherParts) (keeps : found.KeepsDistance distance) :
    ∃ other, Search meaning (width + distance) (column + distance) otherParts other ∧
      found.Corresponds related distance other := by
  induction search generalizing otherParts with
  | beyond exceeds => exact ⟨.overflows, .beyond (by omega), .overflows⟩
  | done within =>
      cases partsRelated
      exact ⟨_, .done (by omega), .fits [] _ .nil⟩
  | emit within move _ inductionHypothesis =>
      obtain ⟨_, _, rfl, otherMove, restRelated⟩ := translates.emit partsRelated move
      obtain ⟨other, search, foundRelated⟩ := inductionHypothesis restRelated keeps.of_after
      rw [Int.add_right_comm] at search
      exact ⟨_, .emit (by omega) otherMove search, foundRelated.text_after _⟩
  | newline within move =>
      obtain ⟨_, _, rfl, indentEq, otherMove, restRelated⟩ := translates.newline partsRelated move
      refine ⟨_, .newline (by omega) otherMove, ?_⟩
      rw [indentEq, keeps _ List.mem_cons_self]
      exact .fits [_] _ restRelated
  | replace within move _ inductionHypothesis =>
      obtain ⟨_, _, _, rfl, otherMove, newRelated⟩ := translates.replace partsRelated move
      obtain ⟨other, search, foundRelated⟩ := inductionHypothesis newRelated keeps
      exact ⟨other, .replace (by omega) otherMove search, foundRelated⟩
  | flat within move _ settled inductionHypothesis =>
      obtain ⟨_, _, _, _, rfl, -, otherMove, flatRelated, -⟩ := translates.choose partsRelated move
      obtain ⟨other, search, foundRelated⟩ := inductionHypothesis flatRelated keeps
      exact ⟨other, .flat (by omega) otherMove search (mt foundRelated.overflows_iff.mp settled),
        foundRelated⟩
  | broken within move _ _ flatHypothesis brokenHypothesis =>
      obtain ⟨_, _, _, _, rfl, -, otherMove, flatRelated, brokenRelated⟩ :=
        translates.choose partsRelated move
      obtain ⟨_, flatSearch, flatCorresponds⟩ := flatHypothesis flatRelated trivial
      cases flatCorresponds
      obtain ⟨other, search, foundRelated⟩ := brokenHypothesis brokenRelated keeps
      exact ⟨other, .broken (by omega) otherMove flatSearch search, foundRelated⟩
  | fails within move =>
      obtain ⟨_, _, rfl, otherMove⟩ := translates.fail partsRelated move
      exact ⟨_, .fails (by omega) otherMove, .fails _⟩

/-! ## What walks report -/

/-- A stretch over related obligations reports the moved events and leads to related obligations, if
the line breaks that it reports keep the distance. -/
theorem Stretch.exists_corresponding (translates : meaning.Translates distance related)
    {events : List Event} (stretch : Stretch meaning width column parts events next remaining)
    (partsRelated : List.Forall₂ related parts otherParts)
    (keeps : ∀ item ∈ itemsOf events, item.KeepsDistance distance) :
    ∃ otherRemaining, Stretch meaning (width + distance) (column + distance) otherParts
        (events.map (Event.moved distance)) (next + distance) otherRemaining ∧
      List.Forall₂ related remaining otherRemaining := by
  induction stretch generalizing otherParts with
  | refl => exact ⟨otherParts, .refl _ _, partsRelated⟩
  | emit move _ inductionHypothesis =>
      obtain ⟨_, _, rfl, otherMove, restRelated⟩ := translates.emit partsRelated move
      obtain ⟨otherRemaining, stretch, remainingRelated⟩ :=
        inductionHypothesis restRelated (List.forall_mem_cons.mp keeps).2
      rw [Int.add_right_comm] at stretch
      exact ⟨otherRemaining, .emit otherMove stretch, remainingRelated⟩
  | newline move _ inductionHypothesis =>
      obtain ⟨_, _, rfl, indentEq, otherMove, restRelated⟩ := translates.newline partsRelated move
      obtain ⟨lineKeeps, laterKeep⟩ := List.forall_mem_cons.mp keeps
      obtain ⟨otherRemaining, stretch, remainingRelated⟩ :=
        inductionHypothesis restRelated laterKeep
      rw [← lineKeeps, ← indentEq] at stretch
      refine ⟨otherRemaining, ?_, remainingRelated⟩
      rw [List.map_cons, Event.moved, Item.moved, ← indentEq]
      exact .newline otherMove stretch
  | replace move _ inductionHypothesis =>
      obtain ⟨_, _, _, rfl, otherMove, newRelated⟩ := translates.replace partsRelated move
      obtain ⟨otherRemaining, stretch, remainingRelated⟩ := inductionHypothesis newRelated keeps
      exact ⟨otherRemaining, .replace otherMove stretch, remainingRelated⟩
  | flat move fits _ inductionHypothesis =>
      obtain ⟨_, _, _, _, rfl, indentEq, otherMove, flatRelated, -⟩ :=
        translates.choose partsRelated move
      rw [itemsOf_decision_cons, itemsOf_append, itemsOf_map_item] at keeps
      obtain ⟨itemsKeep, laterKeep⟩ := List.forall_mem_append.mp keeps
      obtain ⟨_, search, foundRelated⟩ :=
        fits.exists_corresponding translates flatRelated itemsKeep
      obtain ⟨_, _, pendingRelated⟩ := foundRelated
      obtain ⟨otherRemaining, stretch, remainingRelated⟩ :=
        inductionHypothesis pendingRelated laterKeep
      refine ⟨otherRemaining, ?_, remainingRelated⟩
      rw [List.map_cons, List.map_append, Event.map_moved_map_item, Event.moved, Decision.moved,
        ← indentEq]
      exact .flat otherMove search stretch
  | broken move overflows _ inductionHypothesis =>
      obtain ⟨_, _, _, _, rfl, indentEq, otherMove, flatRelated, brokenRelated⟩ :=
        translates.choose partsRelated move
      obtain ⟨_, search, foundRelated⟩ :=
        overflows.exists_corresponding translates flatRelated trivial
      cases foundRelated
      obtain ⟨otherRemaining, stretch, remainingRelated⟩ :=
        inductionHypothesis brokenRelated keeps
      refine ⟨otherRemaining, ?_, remainingRelated⟩
      rw [List.map_cons, Event.moved, Decision.moved, ← indentEq]
      exact .broken otherMove search stretch

/-- Related obligations stop in the same way. -/
theorem Stops.of_related (translates : meaning.Translates distance related)
    {ending : Option Error} (stops : Stops meaning width column parts ending)
    (partsRelated : List.Forall₂ related parts otherParts) :
    Stops meaning (width + distance) (column + distance) otherParts ending := by
  cases stops with
  | done =>
      cases partsRelated
      exact .done
  | undecided move fails =>
      obtain ⟨_, _, _, _, rfl, -, otherMove, flatRelated, -⟩ := translates.choose partsRelated move
      obtain ⟨_, search, foundRelated⟩ :=
        fails.exists_corresponding translates flatRelated trivial
      cases foundRelated
      exact .undecided otherMove search
  | fails move =>
      obtain ⟨_, _, rfl, otherMove⟩ := translates.fail partsRelated move
      exact .fails otherMove

/-- The course over related obligations reports the moved events and ends in the same way, if the
line breaks that are reported keep the distance. -/
theorem Course.moved (translates : meaning.Translates distance related) {events : List Event}
    {ending : Option Error} (course : Course meaning width column parts events ending)
    (partsRelated : List.Forall₂ related parts otherParts)
    (keeps : ∀ item ∈ itemsOf events, item.KeepsDistance distance) :
    Course meaning (width + distance) (column + distance) otherParts
      (events.map (Event.moved distance)) ending := by
  obtain ⟨next, remaining, stretch, stops⟩ := course.exists_stretch
  obtain ⟨otherRemaining, otherStretch, remainingRelated⟩ :=
    stretch.exists_corresponding translates partsRelated keeps
  exact Course.iff_exists_stretch.mpr
    ⟨_, otherRemaining, otherStretch, stops.of_related translates remainingRelated⟩

end DocLayout
