import DocLayout.Value.Basic

/-!
# Identity of values

Two values are identical when they are the same tree, identities included.  This is finer than the
equality of values: truth values differ from integers and kept blanks from dropped ones.  The test
looks at addresses first, so it costs nothing on one and the same object.

Most objects that are made are new ones.  There is one object only for each of the contents that
`Value.isUnique` names.
-/

namespace DocLayout

mutual

/-- Whether two documents are the same tree. -/
def Doc.same : Doc → Doc → Bool
  | .blank kept, .blank kept' => kept == kept'
  | .text fragment, .text fragment' => fragment == fragment'
  | .line, .line => true
  | .concat left right, .concat left' right' => left.same left' && right.same right'
  | .nest amount doc, .nest amount' doc' => amount == amount' && doc.same doc'
  | .union flat broken, .union flat' broken' =>
      Value.sameObject flat flat' && Value.sameObject broken broken'
  | .nesting callback, .nesting callback' => Value.sameObject callback callback'
  | .column callback, .column callback' => Value.sameObject callback callback'
  | .unknown, .unknown => true
  | _, _ => false

/-- Whether two values are the same tree. -/
def Value.same : Value → Value → Bool
  | .none, .none => true
  | .num amount, .num amount' => amount == amount'
  | .float number, .float number' => number == number'
  | .str text, .str text' => text == text'
  | .list items, .list items' => Value.sameAll items items'
  | .sequence label, .sequence label' => label == label'
  | .function callback, .function callback' => callback.same callback'
  | .doc doc, .doc doc' => doc.same doc'
  | .textItem content, .textItem content' => content.same content'
  | .lineItem indent, .lineItem indent' => indent == indent'
  | _, _ => false

/-- Whether two objects are the same. -/
def Value.sameObject : Object → Object → Bool
  | ⟨identity, value⟩, ⟨identity', value'⟩ => identity == identity' && value.same value'

/-- Whether two lists hold the same objects. -/
def Value.sameAll : List Object → List Object → Bool
  | [], [] => true
  | object :: rest, object' :: rest' =>
      Value.sameObject object object' && Value.sameAll rest rest'
  | _, _ => false

/-- Whether two callbacks are the same tree. -/
def Callback.same : Callback → Callback → Bool
  | .custom label, .custom label' => label == label'
  | .align doc, .align doc' => doc.same doc'
  | .alignAt column doc, .alignAt column' doc' => column == column' && doc.same doc'
  | .width doc report, .width doc' report' => doc.same doc' && report.same report'
  | .widthFrom start report, .widthFrom start' report' => start == start' && report.same report'
  | _, _ => false

end

mutual

private theorem Doc.eq_of_same : ∀ {a b : Doc}, a.same b = true → a = b
  | .blank _, b, same => by cases b <;> simp_all [Doc.same]
  | .text _, b, same => by cases b <;> simp_all [Doc.same]
  | .line, b, same => by cases b <;> simp_all [Doc.same]
  | .concat _ _, b, same => by
      cases b <;> simp_all only [Doc.same, Bool.and_eq_true, Bool.false_eq_true]
      rw [Doc.eq_of_same same.1, Doc.eq_of_same same.2]
  | .nest _ _, b, same => by
      cases b <;> simp_all only [Doc.same, Bool.and_eq_true, beq_iff_eq, Bool.false_eq_true]
      rw [Doc.eq_of_same same.2]
  | .union _ _, b, same => by
      cases b <;> simp_all only [Doc.same, Bool.and_eq_true, Bool.false_eq_true]
      rw [Value.eq_of_sameObject same.1, Value.eq_of_sameObject same.2]
  | .nesting _, b, same => by
      cases b <;> simp_all only [Doc.same, Bool.false_eq_true]
      rw [Value.eq_of_sameObject same]
  | .column _, b, same => by
      cases b <;> simp_all only [Doc.same, Bool.false_eq_true]
      rw [Value.eq_of_sameObject same]
  | .unknown, b, same => by cases b <;> simp_all [Doc.same]

private theorem Value.eq_of_same : ∀ {a b : Value}, a.same b = true → a = b
  | .none, b, same => by cases b <;> simp_all [Value.same]
  | .num _, b, same => by cases b <;> simp_all [Value.same]
  | .float _, b, same => by cases b <;> simp_all [Value.same]
  | .str _, b, same => by cases b <;> simp_all [Value.same]
  | .list _, b, same => by
      cases b <;> simp_all only [Value.same, Bool.false_eq_true]
      rw [Value.eq_of_sameAll same]
  | .sequence _, b, same => by cases b <;> simp_all [Value.same]
  | .function _, b, same => by
      cases b <;> simp_all only [Value.same, Bool.false_eq_true]
      rw [Callback.eq_of_same same]
  | .doc _, b, same => by
      cases b <;> simp_all only [Value.same, Bool.false_eq_true]
      rw [Doc.eq_of_same same]
  | .textItem _, b, same => by
      cases b <;> simp_all only [Value.same, Bool.false_eq_true]
      rw [Value.eq_of_same same]
  | .lineItem _, b, same => by cases b <;> simp_all [Value.same]

private theorem Value.eq_of_sameObject :
    ∀ {a b : Object}, Value.sameObject a b = true → a = b
  | ⟨_, _⟩, ⟨_, _⟩, same => by
      simp only [Value.sameObject, Bool.and_eq_true, beq_iff_eq] at same
      rw [same.1, Value.eq_of_same same.2]

private theorem Value.eq_of_sameAll : ∀ {a b : List Object}, Value.sameAll a b = true → a = b
  | [], b, same => by cases b <;> simp_all [Value.sameAll]
  | _ :: _, b, same => by
      cases b <;> simp_all only [Value.sameAll, Bool.and_eq_true, Bool.false_eq_true]
      rw [Value.eq_of_sameObject same.1, Value.eq_of_sameAll same.2]

private theorem Callback.eq_of_same : ∀ {a b : Callback}, a.same b = true → a = b
  | .custom _, b, same => by cases b <;> simp_all [Callback.same]
  | .align _, b, same => by
      cases b <;> simp_all only [Callback.same, Bool.false_eq_true]
      rw [Doc.eq_of_same same]
  | .alignAt _ _, b, same => by
      cases b <;> simp_all only [Callback.same, Bool.and_eq_true, beq_iff_eq, Bool.false_eq_true]
      rw [Doc.eq_of_same same.2]
  | .width _ _, b, same => by
      cases b <;> simp_all only [Callback.same, Bool.and_eq_true, Bool.false_eq_true]
      rw [Doc.eq_of_same same.1, Value.eq_of_same same.2]
  | .widthFrom _ _, b, same => by
      cases b <;> simp_all only [Callback.same, Bool.and_eq_true, beq_iff_eq, Bool.false_eq_true]
      rw [Value.eq_of_same same.2]

end

mutual

private theorem Doc.same_self : ∀ a : Doc, a.same a = true
  | .blank _ | .text _ | .line | .unknown => by simp [Doc.same]
  | .concat left right => by simp [Doc.same, left.same_self, right.same_self]
  | .nest _ doc => by simp [Doc.same, doc.same_self]
  | .union flat broken => by
      simp [Doc.same, Value.sameObject_self flat, Value.sameObject_self broken]
  | .nesting callback => by simp [Doc.same, Value.sameObject_self callback]
  | .column callback => by simp [Doc.same, Value.sameObject_self callback]

private theorem Value.same_self : ∀ a : Value, a.same a = true
  | .none | .num _ | .float _ | .str _ | .sequence _ | .lineItem _ => by simp [Value.same]
  | .list items => by simp [Value.same, Value.sameAll_self items]
  | .function callback => by simp [Value.same, callback.same_self]
  | .doc doc => by simp [Value.same, doc.same_self]
  | .textItem content => by simp [Value.same, content.same_self]

private theorem Value.sameObject_self : ∀ a : Object, Value.sameObject a a = true
  | ⟨_, value⟩ => by simp [Value.sameObject, value.same_self]

private theorem Value.sameAll_self : ∀ a : List Object, Value.sameAll a a = true
  | [] => by simp [Value.sameAll]
  | object :: rest => by
      simp [Value.sameAll, Value.sameObject_self object, Value.sameAll_self rest]

private theorem Callback.same_self : ∀ a : Callback, a.same a = true
  | .custom _ => by simp [Callback.same]
  | .align doc => by simp [Callback.same, doc.same_self]
  | .alignAt _ doc => by simp [Callback.same, doc.same_self]
  | .width doc report => by simp [Callback.same, doc.same_self, report.same_self]
  | .widthFrom _ report => by simp [Callback.same, report.same_self]

end

theorem Doc.same_iff {a b : Doc} : a.same b = true ↔ a = b :=
  ⟨Doc.eq_of_same, fun equal => equal ▸ a.same_self⟩

theorem Value.same_iff {a b : Value} : a.same b = true ↔ a = b :=
  ⟨Value.eq_of_same, fun equal => equal ▸ a.same_self⟩

theorem Value.sameObject_iff {a b : Object} : Value.sameObject a b = true ↔ a = b :=
  ⟨Value.eq_of_sameObject, fun equal => equal ▸ Value.sameObject_self a⟩

theorem Callback.same_iff {a b : Callback} : a.same b = true ↔ a = b :=
  ⟨Callback.eq_of_same, fun equal => equal ▸ a.same_self⟩

instance : DecidableEq Doc := fun a b =>
  withPtrEqDecEq a b fun _ => decidable_of_iff _ Doc.same_iff

instance : DecidableEq Value := fun a b =>
  withPtrEqDecEq a b fun _ => decidable_of_iff _ Value.same_iff

instance : DecidableEq Object := fun a b =>
  withPtrEqDecEq a b fun _ => decidable_of_iff _ Value.sameObject_iff

instance : DecidableEq Callback := fun a b =>
  withPtrEqDecEq a b fun _ => decidable_of_iff _ Callback.same_iff

/-- Whether there is only one object with this content.  So it is for the absent value, truth
values, integers from -5 to 256, strings of at most one character up to U+00FF, the droppable
blank, and what is told apart by a label of its own. -/
def Value.isUnique : Value → Bool
  | .none => true
  | .bool _ => true
  | .int n => -5 ≤ n && n ≤ 256
  | .str text => text.length ≤ 1 && text.toList.all (·.toNat ≤ 0xff)
  | .sequence _ => true
  | .function (.custom _) => true
  | .doc (.blank false) => true
  | _ => false

/-- The object that has a content, with an identity of its own only if it needs one. -/
def Value.object (value : Value) (identity : Identity) : Object :=
  if value.isUnique then ⟨.shared, value⟩ else ⟨identity, value⟩

@[simp]
theorem Value.content_object (value : Value) (identity : Identity) :
    (value.object identity).content = value := by
  unfold Value.object
  split <;> rfl

end DocLayout
