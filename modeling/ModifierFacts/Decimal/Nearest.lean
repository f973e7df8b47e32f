/-!
# Binary fractions: taking a double apart, and the double nearest to a ratio

A finite double is `m · 2^q` with a whole significand below `2^53` and `q ≥ -1074`.

* `Decimal.significand` and `Decimal.exponent` read the two off its bits.
* `Decimal.nearest` is the double nearest to a ratio of whole numbers; a ratio half way between two
  doubles goes to the one whose significand is even, and one beyond the largest double to infinity.
* `Decimal.powerOfTen` is the double nearest to a power of ten.
-/

namespace ModifierFacts.Decimal

/-! ## 1. Parts of a double -/

/-- The field of the bits that holds the exponent. -/
def exponentField (x : Float) : Nat := (x.toBits.toNat / Nat.pow 2 52) % 2048

/-- The whole significand of a finite double. -/
def significand (x : Float) : Nat :=
  let fraction := x.toBits.toNat % Nat.pow 2 52
  if exponentField x = 0 then fraction else Nat.pow 2 52 + fraction

/-- The power of two that the significand is multiplied by. -/
def exponent (x : Float) : Int :=
  if exponentField x = 0 then -1074 else (exponentField x : Int) - 1075

/-- Is the sign bit set? -/
def isNegative (x : Float) : Bool := x.toBits.toNat / Nat.pow 2 63 == 1

/-! ## 2. The nearest double -/

/-- The quotient of two whole numbers, to the nearest; a half goes to the even neighbour. -/
def roundDiv (num den : Nat) : Nat :=
  let q := num / den
  let r := num % den
  if 2 * r < den then q else if den < 2 * r then q + 1 else q + q % 2

/-- The ratio in units of `2^q`, as numerator and denominator. -/
def inUnits (num den : Nat) (q : Int) : Nat × Nat :=
  (num * Nat.pow 2 (-q).toNat, den * Nat.pow 2 q.toNat)

/-- The unit in which a ratio has a significand of 53 bits, but no smaller than the least double. -/
def unitExponent (num den : Nat) : Int :=
  let estimate : Int := (num.log2 : Int) - den.log2 - 52
  let scaled := inUnits num den estimate
  let exact := if scaled.1 / scaled.2 < Nat.pow 2 52 then estimate - 1 else estimate
  max exact (-1074)

/-- The double nearest to `num / den`, for a denominator that is not zero. A carry out of the
significand runs into the exponent field, which is then the right one. -/
def nearest (num den : Nat) : Float :=
  if num = 0 then 0
  else
    let q := unitExponent num den
    let scaled := inUnits num den q
    let bits := roundDiv scaled.1 scaled.2 + (q + 1074).toNat * Nat.pow 2 52
    Float.ofBits (UInt64.ofNat (min bits (2047 * Nat.pow 2 52)))

/-- The double nearest to `10^k`. -/
def powerOfTen (k : Nat) : Float := nearest (Nat.pow 10 k) 1

end ModifierFacts.Decimal
