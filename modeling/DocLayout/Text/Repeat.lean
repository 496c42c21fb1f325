import DocLayout.Error

/-!
# Repeated text

A number of repetitions has to fit a signed 64-bit index, even where there is nothing to repeat.
Below zero there are no repetitions.
-/

namespace DocLayout.Text

/-- The first number of repetitions that is out of range. -/
def repeatLimit : Int := Nat.pow 2 63

/-- A text written `count` times in a row. -/
def copies (text : String) (count : Nat) : String :=
  if text = "" then "" else String.join (List.replicate count text)

/-- A text repeated an integer number of times. -/
def repeated (text : String) (count : Int) : Except Error String :=
  if -repeatLimit ≤ count ∧ count < repeatLimit then .ok (copies text count.toNat)
  else .error .tooManyCopies

/-- A text repeated as often as a value says. -/
def repeatedBy (text : String) (count : Value) : Except Error String :=
  match count with
  | .num amount => repeated text amount.toInt
  | _ => .error (.notRepeatable count.kind)

theorem repeated_eq_ok {text : String} {count : Int}
    (lower : -repeatLimit ≤ count) (upper : count < repeatLimit) :
    repeated text count = .ok (copies text count.toNat) :=
  if_pos ⟨lower, upper⟩

end DocLayout.Text
