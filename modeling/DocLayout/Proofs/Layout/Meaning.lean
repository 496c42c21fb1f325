import DocLayout.Layout.Work

/-!
# Pure callbacks

A host may keep a state, but what a pure callback gives is decided by its argument alone.  A meaning
says what the custom callbacks give, and a host realizes it if it gives just that in every state.
What happens to the state does not matter, so a layout may call a callback more than once, or in
another order, without a difference.

Moves can then be made without a host.  A host follows a meaning on a set of values that is closed
under moves if it makes the same moves there; a host that realizes a meaning does so on all values.

A value settles if every chain of deferred documents that it gives rise to comes to an end.
-/

namespace DocLayout

namespace HostM

variable {σ α β : Type}

/-- A computation gives the same result in every state. -/
def Gives (computation : HostM σ α) (result : Except Error α) : Prop :=
  ∀ state, (computation state).1 = result

theorem gives_pure (value : α) : Gives (pure value : HostM σ α) (.ok value) :=
  fun _ => rfl

theorem gives_throw (cause : Error) : Gives (throw cause : HostM σ α) (.error cause) :=
  fun _ => rfl

theorem Gives.bind {computation : HostM σ α} {result : Except Error α} {next : α → HostM σ β}
    {after : α → Except Error β} (gives : Gives computation result)
    (nextGives : ∀ value, Gives (next value) (after value)) :
    Gives (computation >>= next) (result >>= after) := by
  intro state
  have first := gives state
  simp only [Bind.bind, ExceptT.bind, ExceptT.mk, StateT.bind, ExceptT.bindCont]
  rcases runEq : computation state with ⟨_ | value, later⟩
  · rw [runEq] at first
    subst first
    rfl
  · rw [runEq] at first
    subst first
    exact nextGives value later

theorem Gives.map {computation : HostM σ α} {result : Except Error α} (f : α → β)
    (gives : Gives computation result) : Gives (f <$> computation) (result.map f) := by
  have bound := gives.bind fun value => gives_pure (σ := σ) (f value)
  cases result <;> exact bound

end HostM

/-- What the custom callbacks give, by label and argument. -/
abbrev Meaning := (label : Nat) → (argument : Int) → Except Error Value

/-- The host that gives what a meaning says. -/
def Meaning.host (meaning : Meaning) : Host Unit :=
  fun label argument state => (meaning label argument, state)

/-- The document that a callback makes of an argument, by a meaning. -/
def Value.resolved (meaning : Meaning) (callback : Value) (argument : Int) : Except Error Doc :=
  (callback.resolve meaning.host argument ()).1

/-- The move of an obligation at a column, by a meaning. -/
def Obligation.answer (meaning : Meaning) (column : Int) (obligation : Obligation) :
    Except Error Move :=
  (obligation.move meaning.host column ()).1

/-- The values that are left to be laid out after a move, apart from those that were next anyway. -/
def Move.members : Move → List Value
  | .emit _ => []
  | .newline => []
  | .choose flat broken => [flat, broken]
  | .replace parts => parts.map Obligation.value

/-- A host does what a meaning says, in every state. -/
def Host.Realizes {σ : Type} (host : Host σ) (meaning : Meaning) : Prop :=
  ∀ label argument, (host label argument).Gives (meaning label argument)

/-- On a set of values that moves do not lead out of, a host does what a meaning says. -/
structure Host.Follows {σ : Type} (host : Host σ) (meaning : Meaning) (domain : Value → Prop) :
    Prop where
  /-- The moves are those of the meaning. -/
  gives : ∀ {indent column : Int} {value : Value}, domain value →
    (Obligation.move host column ⟨indent, value⟩).Gives
      (Obligation.answer meaning column ⟨indent, value⟩)
  /-- Moves stay in the set. -/
  closed : ∀ {indent column : Int} {value : Value} {move : Move}, domain value →
    Obligation.answer meaning column ⟨indent, value⟩ = .ok move →
    ∀ member ∈ move.members, domain member

namespace Host.Follows

variable {σ : Type} {host : Host σ} {meaning : Meaning} {domain : Value → Prop} {column : Int}
  {part : Obligation} {rest : List Obligation}

theorem replace (follows : host.Follows meaning domain) {parts : List Obligation}
    (inside : ∀ next ∈ part :: rest, domain next.value)
    (move : part.answer meaning column = .ok (.replace parts)) :
    ∀ next ∈ parts ++ rest, domain next.value := by
  obtain ⟨partInside, restInside⟩ := List.forall_mem_cons.mp inside
  intro next nextMem
  rcases List.mem_append.mp nextMem with new | old
  · exact follows.closed partInside move next.value (List.mem_map_of_mem new)
  · exact restInside next old

theorem flat (follows : host.Follows meaning domain) {flat broken : Value}
    (inside : ∀ next ∈ part :: rest, domain next.value)
    (move : part.answer meaning column = .ok (.choose flat broken)) (indent : Int) :
    ∀ next ∈ (⟨indent, flat⟩ : Obligation) :: rest, domain next.value := by
  obtain ⟨partInside, restInside⟩ := List.forall_mem_cons.mp inside
  exact List.forall_mem_cons.mpr
    ⟨follows.closed partInside move flat (List.mem_cons_self ..), restInside⟩

theorem broken (follows : host.Follows meaning domain) {flat broken : Value}
    (inside : ∀ next ∈ part :: rest, domain next.value)
    (move : part.answer meaning column = .ok (.choose flat broken)) (indent : Int) :
    ∀ next ∈ (⟨indent, broken⟩ : Obligation) :: rest, domain next.value := by
  obtain ⟨partInside, restInside⟩ := List.forall_mem_cons.mp inside
  exact List.forall_mem_cons.mpr
    ⟨follows.closed partInside move broken (by simp [Move.members]), restInside⟩

end Host.Follows

theorem Meaning.realizes_host (meaning : Meaning) : meaning.host.Realizes meaning :=
  fun _ _ _ => rfl

/-- A host that gives what a meaning says, and counts how often it is called. -/
def Meaning.countingHost (meaning : Meaning) : Host Nat :=
  fun label argument calls => (meaning label argument, calls + 1)

theorem Meaning.realizes_countingHost (meaning : Meaning) :
    meaning.countingHost.Realizes meaning :=
  fun _ _ _ => rfl

variable {σ : Type} {host : Host σ} {meaning : Meaning}

mutual

theorem Value.call_gives (realizes : host.Realizes meaning) :
    ∀ (value : Value) (argument : Int),
      (value.call host argument).Gives (value.call meaning.host argument ()).1
  | .function callback, argument => Callback.call_gives realizes callback argument
  | .none, _ => fun _ => rfl
  | .num _, _ => fun _ => rfl
  | .float _, _ => fun _ => rfl
  | .str _, _ => fun _ => rfl
  | .list _, _ => fun _ => rfl
  | .sequence _, _ => fun _ => rfl
  | .doc _, _ => fun _ => rfl
  | .textItem _, _ => fun _ => rfl
  | .lineItem _, _ => fun _ => rfl

theorem Callback.call_gives (realizes : host.Realizes meaning) :
    ∀ (callback : Callback) (argument : Int),
      (callback.call host argument).Gives (callback.call meaning.host argument ()).1
  | .custom label, argument => realizes label argument
  | .align _, _ => fun _ => rfl
  | .alignAt _ _, _ => fun _ => rfl
  | .width _ _, _ => fun _ => rfl
  | .widthFrom start report, column => Value.call_gives realizes report (column - start)

end

/-- Reading the result of a callback as a document needs no host. -/
theorem Value.resolve_gives (realizes : host.Realizes meaning) (callback : Value) (argument : Int) :
    (callback.resolve host argument).Gives (callback.resolved meaning argument) := by
  have reads {τ : Type} {other : Host τ} (otherRealizes : other.Realizes meaning) :
      (callback.resolve other argument).Gives
        ((callback.call meaning.host argument ()).1 >>= Doc.ofValue) := by
    refine (Value.call_gives otherRealizes callback argument).bind fun result => ?_
    cases Doc.ofValue result with
    | ok document => exact HostM.gives_pure document
    | error cause => exact HostM.gives_throw cause
  rw [Value.resolved, reads meaning.realizes_host ()]
  exact reads realizes

namespace Obligation

variable (meaning : Meaning) (column indent : Int)

@[simp]
theorem answer_blank (kept : Bool) :
    answer meaning column ⟨indent, .doc (.blank kept)⟩ = .ok (.replace []) := rfl

@[simp]
theorem answer_text (fragment : Fragment) :
    answer meaning column ⟨indent, .doc (.text fragment)⟩ = .ok (.emit fragment) := rfl

@[simp]
theorem answer_line : answer meaning column ⟨indent, .doc .line⟩ = .ok .newline := rfl

@[simp]
theorem answer_concat (left right : Doc) :
    answer meaning column ⟨indent, .doc (.concat left right)⟩ =
      .ok (.replace [⟨indent, .doc left⟩, ⟨indent, .doc right⟩]) := rfl

@[simp]
theorem answer_nest (amount : Amount) (inner : Doc) :
    answer meaning column ⟨indent, .doc (.nest amount inner)⟩ =
      .ok (.replace [⟨indent + amount.toInt, .doc inner⟩]) := rfl

@[simp]
theorem answer_union (flat broken : Object) :
    answer meaning column ⟨indent, .doc (.union flat broken)⟩ =
      .ok (.choose flat.content broken.content) := rfl

@[simp]
theorem answer_nesting (callback : Object) :
    answer meaning column ⟨indent, .doc (.nesting callback)⟩ =
      (callback.content.resolved meaning indent).map fun doc => .replace [⟨indent, .doc doc⟩] := by
  rw [answer, move_nesting]
  exact (Value.resolve_gives meaning.realizes_host callback.content indent).map _ ()

@[simp]
theorem answer_column (callback : Object) :
    answer meaning column ⟨indent, .doc (.column callback)⟩ =
      (callback.content.resolved meaning column).map fun doc => .replace [⟨indent, .doc doc⟩] := by
  rw [answer, move_column]
  exact (Value.resolve_gives meaning.realizes_host callback.content column).map _ ()

@[simp]
theorem answer_unknown :
    answer meaning column ⟨indent, .doc .unknown⟩ = .error (.notDoc (.doc .unknown)) := rfl

theorem answer_of_not_doc {value : Value} (notDoc : ∀ document, value ≠ .doc document) :
    answer meaning column ⟨indent, value⟩ = .error (.notDoc value) := by
  rw [answer, move_of_not_doc meaning.host column indent notDoc]
  rfl

end Obligation

/-- A host that realizes a meaning makes its moves everywhere. -/
theorem Host.Realizes.follows (realizes : host.Realizes meaning) :
    host.Follows meaning fun _ => True where
  gives {indent column value} _ := by
    cases value with
    | doc document =>
        cases document with
        | nesting callback =>
            rw [Obligation.answer_nesting, Obligation.move_nesting]
            exact (Value.resolve_gives realizes callback.content indent).map _
        | column callback =>
            rw [Obligation.answer_column, Obligation.move_column]
            exact (Value.resolve_gives realizes callback.content column).map _
        | _ => exact fun _ => rfl
    | _ => exact fun _ => rfl
  closed _ _ _ _ := trivial

theorem Host.Realizes.move_eq (realizes : host.Realizes meaning) (column : Int)
    (part : Obligation) (state : σ) :
    (part.move host column state).1 = part.answer meaning column :=
  realizes.follows.gives trivial state

/-- Every chain of deferred documents that a value gives rise to is finite. -/
inductive Value.Settles (meaning : Meaning) : Value → Prop where
  | blank (kept : Bool) : Settles meaning (.doc (.blank kept))
  | text (fragment : Fragment) : Settles meaning (.doc (.text fragment))
  | line : Settles meaning (.doc .line)
  | unknown : Settles meaning (.doc .unknown)
  | concat {left right : Doc} (leftSettles : Settles meaning (.doc left))
      (rightSettles : Settles meaning (.doc right)) : Settles meaning (.doc (.concat left right))
  | nest (amount : Amount) {inner : Doc} (innerSettles : Settles meaning (.doc inner)) :
      Settles meaning (.doc (.nest amount inner))
  | union {flat broken : Object} (flatSettles : Settles meaning flat.content)
      (brokenSettles : Settles meaning broken.content) :
      Settles meaning (.doc (.union flat broken))
  | nesting {callback : Object}
      (resultSettles : ∀ {argument document},
        callback.content.resolved meaning argument = .ok document →
          Settles meaning (.doc document)) :
      Settles meaning (.doc (.nesting callback))
  | column {callback : Object}
      (resultSettles : ∀ {argument document},
        callback.content.resolved meaning argument = .ok document →
          Settles meaning (.doc document)) :
      Settles meaning (.doc (.column callback))
  | other {value : Value} (notDoc : ∀ document, value ≠ .doc document) : Settles meaning value

/-! ## An example of deferral -/

/-- Callbacks that give a line break up to the second column, and a space further on. -/
def Meaning.steps : Meaning :=
  fun _ argument => .ok (.doc (if argument < 2 then .line else .text .space))

/-- A space or a line break in front of a deferred document, and a space behind. -/
def Obligation.steps : List Obligation :=
  let deferred := Doc.column ⟨.shared, .function (.custom 0)⟩
  [⟨0, .doc (.union ⟨.shared, .doc (.concat (.text .space) deferred)⟩
      ⟨.shared, .doc (.concat .line deferred)⟩)⟩,
    ⟨0, .doc (.text .space)⟩]

theorem Value.Settles.deferred_steps :
    Settles .steps (.doc (.column ⟨.shared, .function (.custom 0)⟩)) := by
  refine .column fun {argument document} gives => ?_
  cases gives
  by_cases early : argument < 2
  · rw [if_pos early]
    exact .line
  · rw [if_neg early]
    exact .text .space

theorem Obligation.steps_settle : ∀ part ∈ steps, part.value.Settles Meaning.steps := by
  have deferred := Value.Settles.deferred_steps
  exact List.forall_mem_cons.mpr ⟨.union (.concat (.text _) deferred) (.concat .line deferred),
    List.forall_mem_singleton.mpr (.text _)⟩

theorem Work.steps_settle :
    ∀ part ∈ Work.obligations (.ofList Obligation.steps), part.value.Settles Meaning.steps := by
  rw [Work.obligations_ofList]
  exact Obligation.steps_settle

end DocLayout
