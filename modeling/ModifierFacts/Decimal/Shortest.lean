import ModifierFacts.Decimal.Nearest

/-!
# The fewest digits that read back

A double stands for every real number that rounds to it, an interval around its value. The digits
written for it are the fewest whose number lies in that interval and, of several with so few digits,
those of the number nearest to the value.

* `Decimal.Digits` is a whole number of digits with a power of ten.
* `Decimal.Tie` says which of two numbers is taken that are equally near to the value.
* `Decimal.shortest` finds the digits: on the grid of numbers with 1, 2, … 17 digits it looks at the
  two neighbours of the value, and the first grid with a neighbour in the interval gives the answer.
-/

namespace ModifierFacts.Decimal

/-- The number `digits · 10^exponent`. -/
structure Digits where
  digits : Nat
  exponent : Int
  deriving DecidableEq, Repr

/-- Which of two neighbouring whole numbers is taken for a value half way between them. -/
inductive Tie where
  /-- The even one. -/
  | even
  /-- The larger one. -/
  | up
  deriving DecidableEq, Repr

/-- The choice between a number and its successor. -/
def Tie.choose (below : Nat) : Tie → Nat
  | even => below + below % 2
  | up => below + 1

/-- The number of decimal digits of a whole number. -/
def digitCount (n : Nat) : Nat := (Nat.toDigits 10 n).length

/-- The `E` with `10^(E-1) ≤ num / den < 10^E`, for a ratio above zero. -/
def magnitude (num den : Nat) : Int :=
  if den ≤ num then digitCount (num / den)
  else 1 - (digitCount ((den + num - 1) / num - 1) : Int)

/-- A positive double in quarters of its unit: its value and the ends of its interval are whole
multiples of `2^unit`. -/
structure Interval where
  low : Nat
  value : Nat
  high : Nat
  unit : Int
  /-- Do the ends themselves round to the double? -/
  closed : Bool

/-- The interval of a positive finite double. Below a power of two the gap to the next double is
half as wide. -/
def interval (x : Float) : Interval :=
  let m := significand x
  let narrow := m == Nat.pow 2 52 && decide (-1074 < exponent x)
  { low := if narrow then 4 * m - 1 else 4 * m - 2
    value := 4 * m
    high := 4 * m + 2
    unit := exponent x - 2
    closed := m % 2 == 0 }

/-- Comparison of `c · 10^k` with `w · 2^unit`. -/
def compareScaled (c : Nat) (k : Int) (w : Nat) (unit : Int) : Ordering :=
  compare (c * Nat.pow 10 k.toNat * Nat.pow 2 (-unit).toNat)
    (w * Nat.pow 2 unit.toNat * Nat.pow 10 (-k).toNat)

/-- Does `c · 10^k` round to the double? -/
def Interval.holds (i : Interval) (c : Nat) (k : Int) : Bool :=
  let low := compareScaled c k i.low i.unit
  let high := compareScaled c k i.high i.unit
  (low == .gt || (low == .eq && i.closed)) && (high == .lt || (high == .eq && i.closed))

/-- The answer of the grid of multiples of `10^k`, if a neighbour of the value is in the
interval. Only the first grid can answer with a number that ends in zero, and only with ten: on a
later grid that number would have been a neighbour one grid before. -/
def Interval.onGrid (i : Interval) (tie : Tie) (k : Int) : Option Digits :=
  let below := i.value * Nat.pow 2 i.unit.toNat * Nat.pow 10 (-k).toNat /
    (Nat.pow 10 k.toNat * Nat.pow 2 (-i.unit).toNat)
  let pick (c : Nat) : Option Digits := some (if c = 10 then ⟨1, k + 1⟩ else ⟨c, k⟩)
  match i.holds below k, i.holds (below + 1) k with
  | true, false => pick below
  | false, true => pick (below + 1)
  | false, false => none
  | true, true =>
    match compareScaled (2 * below + 1) k (2 * i.value) i.unit with
    | .gt => pick below
    | .lt => pick (below + 1)
    | .eq => pick (tie.choose below)

/-- The digits of a positive finite double. Seventeen always suffice. -/
def shortest (tie : Tie) (x : Float) : Digits :=
  let i := interval x
  let e := magnitude (i.value * Nat.pow 2 i.unit.toNat) (Nat.pow 2 (-i.unit).toNat)
  ((List.range 17).findSome? fun (n : Nat) => i.onGrid tie (e - (n + 1 : Nat))).getD ⟨0, 0⟩

end ModifierFacts.Decimal
