import DocLayout.Doc.Flatten

/-!
# The one-line form by recursion

The one-line form follows the tree.  A line break becomes a space, a choice its flat member, and
concatenations and nestings are put together again from the one-line forms of their parts.  The
stack machine computes just that.
-/

namespace DocLayout

namespace Doc

/-- The one-line form of a document. -/
def oneLine : Doc → Except Error Value
  | .line => .ok (.doc .space)
  | .union flat _ => .ok flat.content
  | .concat left right => do
      let newLeft ← left.oneLine
      let newRight ← right.oneLine
      let joined ← concatOf newLeft newRight
      return .doc joined
  | .nest amount inner => do
      let newInner ← inner.oneLine
      let nested ← nestOf (.num amount) newInner
      return .doc nested
  | document => .ok (.doc document)

/-- A document on one line: it has no line breaks and no choices, apart from what callbacks make. -/
inductive IsOneLine : Doc → Prop where
  | blank (kept : Bool) : IsOneLine (.blank kept)
  | text (fragment : Fragment) : IsOneLine (.text fragment)
  | concat {left right : Doc} (leftOneLine : IsOneLine left) (rightOneLine : IsOneLine right) :
      IsOneLine (.concat left right)
  | nest (amount : Amount) {inner : Doc} (innerOneLine : IsOneLine inner) :
      IsOneLine (.nest amount inner)
  | nesting (callback : Object) : IsOneLine (.nesting callback)
  | column (callback : Object) : IsOneLine (.column callback)
  | unknown : IsOneLine .unknown

/-- A concatenation with its parts replaced, if one of them is replaced. -/
def concatAnew? (left right : Doc) : Option Value → Option Value → Except Error (Option Value)
  | none, none => .ok none
  | newLeft, newRight => do
      let joined ← concatOf (newLeft.getD (.doc left)) (newRight.getD (.doc right))
      return some (.doc joined)

/-- A nesting with its document replaced, if that is replaced. -/
def nestAnew? (amount : Amount) : Option Value → Except Error (Option Value)
  | none => .ok none
  | some newInner => do
      let nested ← nestOf (.num amount) newInner
      return some (.doc nested)

/-- The one-line form of a document, if that is another value. -/
def oneLine? : Doc → Except Error (Option Value)
  | .line => .ok (some (.doc .space))
  | .union flat _ => .ok (some flat.content)
  | .concat left right => do
      let newLeft ← left.oneLine?
      let newRight ← right.oneLine?
      left.concatAnew? right newLeft newRight
  | .nest amount inner => do
      let newInner ← inner.oneLine?
      nestAnew? amount newInner
  | _ => .ok none

theorem getD_concatAnew? (left right : Doc) (newLeft newRight : Option Value) :
    (Option.getD · (.doc (.concat left right))) <$> left.concatAnew? right newLeft newRight =
      .doc <$> concatOf (newLeft.getD (.doc left)) (newRight.getD (.doc right)) := by
  cases newLeft <;> cases newRight
  · rfl
  all_goals
    simp only [concatAnew?]
    cases concatOf _ _ <;> rfl

theorem getD_nestAnew? (amount : Amount) (inner : Doc) (newInner : Option Value) :
    (Option.getD · (.doc (.nest amount inner))) <$> nestAnew? amount newInner =
      .doc <$> nestOf (.num amount) (newInner.getD (.doc inner)) := by
  cases newInner with
  | none => rfl
  | some replacement =>
      simp only [nestAnew?, Option.getD_some]
      cases nestOf (.num amount) replacement <;> rfl

/-- What is not replaced is its own one-line form. -/
theorem getD_oneLine? : ∀ document : Doc,
    (Option.getD · (.doc document)) <$> document.oneLine? = document.oneLine
  | .blank _ | .text _ | .line | .union _ _ | .nesting _ | .column _ | .unknown => rfl
  | .concat left right => by
      rw [oneLine?, oneLine, ← left.getD_oneLine?, ← right.getD_oneLine?]
      cases left.oneLine? with
      | error cause => rfl
      | ok newLeft =>
          cases right.oneLine? with
          | error cause => rfl
          | ok newRight => exact getD_concatAnew? left right newLeft newRight
  | .nest amount inner => by
      rw [oneLine?, oneLine, ← inner.getD_oneLine?]
      cases inner.oneLine? with
      | error cause => rfl
      | ok newInner => exact getD_nestAnew? amount inner newInner

end Doc

namespace FlattenTask

variable (tasks : List FlattenTask) (results : List (Option Value))

theorem run_joinConcat (left right : Doc) (newLeft newRight : Option Value) :
    run (.joinConcat left right :: tasks) (newRight :: newLeft :: results) =
      left.concatAnew? right newLeft newRight >>= fun joined => run tasks (joined :: results) := by
  cases newLeft <;> cases newRight
  · rw [run]
    rfl
  all_goals
    simp only [run, Doc.concatAnew?]
    cases Doc.concatOf _ _ <;> rfl

theorem run_joinNest (amount : Amount) (inner : Doc) (newInner : Option Value) :
    run (.joinNest amount inner :: tasks) (newInner :: results) =
      Doc.nestAnew? amount newInner >>= fun nested => run tasks (nested :: results) := by
  cases newInner with
  | none =>
      rw [run]
      rfl
  | some replacement =>
      simp only [run, Doc.nestAnew?]
      cases Doc.nestOf (.num amount) replacement <;> rfl

/-- To visit a document is to put its one-line form on the results, whatever is left to be done. -/
theorem run_visit : ∀ (document : Doc) (tasks : List FlattenTask) (results : List (Option Value)),
    run (.visit (.doc document) :: tasks) results =
      document.oneLine? >>= fun result => run tasks (result :: results)
  | .blank _, _, _ | .text _, _, _ | .line, _, _ | .union _ _, _, _ | .nesting _, _, _
  | .column _, _, _ | .unknown, _, _ => by
      rw [run]
      · rfl
      all_goals simp
  | .concat left right, tasks, results => by
      rw [run, run_visit left, Doc.oneLine?]
      cases left.oneLine? with
      | error cause => rfl
      | ok newLeft =>
          change run (.visit (.doc right) :: _) _ = _
          rw [run_visit right]
          cases right.oneLine? with
          | error cause => rfl
          | ok newRight => exact run_joinConcat tasks results left right newLeft newRight
  | .nest amount inner, tasks, results => by
      rw [run, run_visit inner, Doc.oneLine?]
      cases inner.oneLine? with
      | error cause => rfl
      | ok newInner => exact run_joinNest tasks results amount inner newInner

end FlattenTask

theorem Value.oneLine?_doc (document : Doc) :
    (Value.doc document).oneLine? = document.oneLine? := by
  rw [oneLine?, FlattenTask.run_visit]
  cases document.oneLine? with
  | error cause => rfl
  | ok result => simp only [bind, Except.bind, FlattenTask.run]

/-- Flattening a document makes its one-line form. -/
theorem Value.flatten_doc (document : Doc) : (Value.doc document).flatten = document.oneLine := by
  rw [flatten, oneLine?_doc, ← document.getD_oneLine?]
  rfl

end DocLayout
