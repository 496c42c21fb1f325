import DocLayout.Error
import DocLayout.Value.Identity
import DocLayout.Value.Number

/-!
# Equality of values

Two documents are equal when they have the same shape: the same kinds of nodes, the same texts,
the same amounts as integers, and identical callbacks.  A member of a layout choice that is no
document only counts by its kind.  The comparison keeps a list of pairs that still have to agree,
so its depth does not grow with the documents.

Other values are equal by content: numbers as exact numbers, lists item by item, items of a layout
by what they hold, callbacks and one-shot sequences by identity.  Inside a list an object equals
itself even where its value differs from itself.
-/

namespace DocLayout

mutual

/-- The number of nodes of a document, callbacks aside. -/
def Doc.size : Doc → Nat
  | .concat left right => left.size + right.size + 1
  | .nest _ doc => doc.size + 1
  | .union ⟨_, flat⟩ ⟨_, broken⟩ => flat.size + broken.size + 1
  | _ => 1

/-- The number of nodes of a value as a member of a document. -/
def Value.size : Value → Nat
  | .doc doc => doc.size
  | _ => 1

end

theorem Doc.size_pos (doc : Doc) : 0 < doc.size := by
  cases doc <;> simp [Doc.size]

theorem Value.size_pos (value : Value) : 0 < value.size := by
  cases value <;> simp [Value.size, Doc.size_pos]

namespace Value

/-- Compares two values at the root.  The answer is the pairs of members that still have to agree,
or `none` when the values differ already. -/
def membersToCompare? (a b : Value) : Option (List (Value × Value)) :=
  match a, b with
  | .doc (.text s), .doc (.text t) => if s = t then some [] else Option.none
  | .doc (.concat left right), .doc (.concat left' right') =>
      some [(.doc left, .doc left'), (.doc right, .doc right')]
  | .doc (.nest amount inner), .doc (.nest amount' inner') =>
      if amount.toInt = amount'.toInt then some [(.doc inner, .doc inner')] else Option.none
  | .doc (.union flat broken), .doc (.union flat' broken') =>
      some [(flat.content, flat'.content), (broken.content, broken'.content)]
  | .doc (.nesting callback), .doc (.nesting callback') =>
      if callback = callback' then some [] else Option.none
  | .doc (.column callback), .doc (.column callback') =>
      if callback = callback' then some [] else Option.none
  | a, b => if a.kind = b.kind then some [] else Option.none

/-- The total size of the first members of pending pairs. -/
def pendingSize : List (Value × Value) → Nat
  | [] => 0
  | (first, _) :: rest => first.size + pendingSize rest

theorem pendingSize_append (pending rest : List (Value × Value)) :
    pendingSize (pending ++ rest) = pendingSize pending + pendingSize rest := by
  induction pending with
  | nil => exact (Nat.zero_add _).symm
  | cons pair pending inductionHypothesis =>
      rw [List.cons_append, pendingSize, pendingSize, inductionHypothesis, Nat.add_assoc]

theorem pendingSize_lt_of_membersToCompare? {a b : Value} {members : List (Value × Value)}
    (found : membersToCompare? a b = some members) : pendingSize members < a.size := by
  have positive := a.size_pos
  unfold membersToCompare? at found
  split at found <;> try split at found
  all_goals cases found
  all_goals simp_all [pendingSize, Value.size, Doc.size]

/-- Whether all pending pairs agree. -/
def agreeAll : List (Value × Value) → Bool
  | [] => true
  | (a, b) :: rest =>
      match _found : membersToCompare? a b with
      | Option.none => false
      | some members => agreeAll (members ++ rest)
termination_by pending => pendingSize pending
decreasing_by
  have smaller := pendingSize_lt_of_membersToCompare? _found
  rw [pendingSize_append, pendingSize]
  exact Nat.add_lt_add_right smaller _

end Value

/-- Whether two documents are equal. -/
def Doc.equal (a b : Doc) : Bool :=
  Value.agreeAll [(.doc a, .doc b)]

namespace Value

/-- Whether two values are equal as numbers. -/
def equalNumbers (a b : Value) : Bool :=
  match a.magnitude?, b.magnitude? with
  | some m, some n => m ≠ .undefined && m = n
  | _, _ => false

mutual

/-- Whether two values are equal. -/
def equal : Value → Value → Bool
  | .none, .none => true
  | .str text, .str text' => text = text'
  | .list items, .list items' => equalLists items items'
  | .sequence label, .sequence label' => label = label'
  | .function callback, .function callback' => callback = callback'
  | .doc document, .doc document' => document.equal document'
  | .textItem content, .textItem content' => content.equal content'
  | .lineItem indent, .lineItem indent' => indent.toInt = indent'.toInt
  | a, b => equalNumbers a b

/-- Whether two lists hold equal values or the same object at each place. -/
def equalLists : List Object → List Object → Bool
  | [], [] => true
  | ⟨identity, value⟩ :: rest, object :: rest' =>
      (value.equal object.content || (⟨identity, value⟩ : Object) = object) && equalLists rest rest'
  | _, _ => false

end

/-- Fails for a value without a hash: a document, a list, or a text item that holds one. -/
def requireHash : Value → Except Error Unit
  | .list _ => throw (.unhashable .list)
  | .doc document => throw (.unhashable document.kind)
  | .textItem content => content.requireHash
  | _ => return ()

/-- Adds an object to distinct ones, unless one of them is the same or has an equal value. -/
def insertDistinct (distinct : List Object) (object : Object) : Except Error (List Object) := do
  object.content.requireHash
  return if distinct.any fun known => known.content.equal object.content || known = object
    then distinct
    else object :: distinct

end Value

end DocLayout
