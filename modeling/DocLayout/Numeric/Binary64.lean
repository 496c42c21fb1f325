/-!
# Binary floating-point numbers by their text

A `Binary64` keeps the decimal text that denotes a double-precision number.  What it stands for is
the point of the binary grid that is nearest to the decimal, of two nearest points the one with
the even significand, as an exact rational; so comparisons with integers lose nothing.
-/

namespace DocLayout.Numeric

/-- The integer nearest to `numerator / denominator`, of two nearest ones the even one. -/
def roundHalfEven (numerator denominator : Nat) : Nat :=
  let quotient := numerator / denominator
  let twice := 2 * (numerator % denominator)
  if denominator < twice ∨ (twice = denominator ∧ quotient % 2 = 1) then quotient + 1 else quotient

/-- The greatest `e` with `2 ^ e ≤ numerator / denominator`, for a positive fraction. -/
def floorLog2 (numerator denominator : Nat) : Int :=
  let guess : Int := (numerator.log2 : Int) - denominator.log2
  let reached := denominator * Nat.pow 2 guess.toNat ≤ numerator * Nat.pow 2 (-guess).toNat
  if reached then guess else guess - 1

/-- The double-precision number nearest to a fraction.  Significands have 53 bits, and the finest
step is `2 ^ (-1074)`. -/
def nearestDouble (numerator denominator : Nat) : Rat :=
  let step := max (-1074) (floorLog2 numerator denominator - 52)
  let above := Nat.pow 2 step.toNat
  let below := Nat.pow 2 (-step).toNat
  let significand := roundHalfEven (numerator * below) (denominator * above)
  mkRat (significand * above) below

/-- What a floating-point number stands for. -/
inductive Magnitude where
  /-- Not a number. -/
  | undefined
  /-- Beyond every number, on one side. -/
  | infinite (negative : Bool)
  /-- A number. -/
  | exact (value : Rat)
deriving DecidableEq

/-- A floating-point number, as the text that denotes it. -/
structure Binary64 where
  /-- The decimal text, such as `-0.0` or `1e+16`, or one of `inf`, `-inf` and `nan`. -/
  text : String
deriving DecidableEq

namespace Binary64

/-- The number that a run of decimal digits denotes. -/
def digitsValue (digits : List Char) : Nat :=
  digits.foldl (fun value digit => 10 * value + (digit.toNat - '0'.toNat)) 0

/-- The number that digits with an optional sign denote. -/
def signedValue : List Char → Int
  | '-' :: digits => -digitsValue digits
  | '+' :: digits => digitsValue digits
  | digits => digitsValue digits

/-- The double-precision number nearest to an unsigned decimal with an optional fraction and an
optional exponent. -/
def decimalValue (text : List Char) : Rat :=
  let mantissa := text.takeWhile (· ≠ 'e')
  let exponent := signedValue (text.dropWhile (· ≠ 'e')).tail
  let fraction := (mantissa.dropWhile (· ≠ '.')).tail
  let digits := digitsValue (mantissa.takeWhile (· ≠ '.') ++ fraction)
  let scale := exponent - fraction.length
  if digits = 0 then 0
  else nearestDouble (digits * Nat.pow 10 scale.toNat) (Nat.pow 10 (-scale).toNat)

/-- What a floating-point number stands for. -/
def magnitude (number : Binary64) : Magnitude :=
  match number.text.toList with
  | ['n', 'a', 'n'] => .undefined
  | ['i', 'n', 'f'] => .infinite false
  | ['-', 'i', 'n', 'f'] => .infinite true
  | '-' :: digits => .exact (-decimalValue digits)
  | digits => .exact (decimalValue digits)

end Binary64

end DocLayout.Numeric
