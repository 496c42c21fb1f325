import DocLayout.Value.Basic

/-!
# Values as numbers and as conditions
-/

namespace DocLayout.Value

/-- The integer that an integer or a truth value stands for. -/
def toInt? : Value → Option Int
  | .num amount => some amount.toInt
  | _ => Option.none

/-- What a number stands for. -/
def magnitude? : Value → Option Numeric.Magnitude
  | .num amount => some (.exact amount.toInt)
  | .float number => some number.magnitude
  | _ => Option.none

/-- Whether a value counts as true: all do but the absent value, zero, and what holds no items. -/
def isTrue : Value → Bool
  | .none => false
  | .num amount => amount.toInt ≠ 0
  | .float number => number.magnitude ≠ .exact 0
  | .str text => text ≠ ""
  | .list items => !items.isEmpty
  | _ => true

end DocLayout.Value
