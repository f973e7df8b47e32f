import ModifierFacts.Decimal.Nearest
import ModifierFacts.Toml.Text

/-!
# Numbers and dates of a configuration text

Whole numbers of 64 bits with a sign, in base ten or after `0x`, `0o` or `0b`; decimal fractions and
powers; `inf` and `nan`; dates and times. An underscore may stand between two digits.
-/

namespace ModifierFacts.Toml

/-! ## 1. Digits -/

/-- The digits after a first one, with single underscores between digits. -/
def moreDigits (isDigit : Char → Bool) : Scan (List Char)
  | [] => some ([], [])
  | '_' :: c :: rest => if isDigit c then consScan c (moreDigits isDigit rest) else none
  | ['_'] => none
  | c :: rest =>
    if isDigit c then consScan c (moreDigits isDigit rest) else some ([], c :: rest)

/-- Digits, of which there must be one. -/
def digits? (isDigit : Char → Bool) : Scan (List Char)
  | c :: rest => if isDigit c then consScan c (moreDigits isDigit rest) else none
  | [] => none

/-- A sign, if one stands here: is it a minus? -/
def sign : List Char → Bool × List Char
  | '+' :: cs => (false, cs)
  | '-' :: cs => (true, cs)
  | cs => (false, cs)

/-- The digits of a whole number in base ten: a zero stands alone. -/
def wholeDigits? : Scan (List Char)
  | '0' :: cs => some (['0'], cs)
  | cs => digits? Char.isDigit cs

/-! ## 2. Whole numbers -/

/-- A whole number, if it has 64 bits with a sign. -/
def integerOf? (negative : Bool) (n : Nat) : Option Int :=
  if negative then if n ≤ Nat.pow 2 63 then some (-(n : Int)) else none
  else if n < Nat.pow 2 63 then some (n : Int) else none

/-- The value of a digit below thirty-six. -/
def digitValue (c : Char) : Nat :=
  if c.isDigit then c.toNat - '0'.toNat
  else if c.isLower then c.toNat - 'a'.toNat + 10
  else c.toNat - 'A'.toNat + 10

/-- A whole number after the mark of its base. -/
def basedInteger? (base : Nat) (cs : List Char) : Option (Int × List Char) := do
  let (ds, cs) ← digits? (fun c => c.isAlphanum && digitValue c < base) cs
  return (← integerOf? false (ds.foldl (fun n d => base * n + digitValue d) 0), cs)

/-- A whole number. -/
def integer? : Scan Int
  | '0' :: 'x' :: cs => basedInteger? 16 cs
  | '0' :: 'o' :: cs => basedInteger? 8 cs
  | '0' :: 'b' :: cs => basedInteger? 2 cs
  | cs => do
    let (negative, cs) := sign cs
    let (ds, cs) ← wholeDigits? cs
    return (← integerOf? negative (Nat.ofDigitChars 10 ds 0), cs)

/-! ## 3. Fractions -/

/-- The double nearest to `m · 10^e`, where `m` has `count` digits. -/
def nearestDecimal (m : Nat) (count : Nat) (e : Int) : Float :=
  if 400 < e then if m = 0 then 0 else Decimal.nearest (Nat.pow 2 1100) 1
  else if e + count < -400 then 0
  else Decimal.nearest (m * Nat.pow 10 e.toNat) (Nat.pow 10 (-e).toNat)

/-- The power of ten of a decimal fraction. -/
def power? : Scan Int
  | c :: cs => do
    if c = 'e' ∨ c = 'E' then
      let (negative, cs) := sign cs
      let (ds, cs) ← digits? Char.isDigit cs
      let e : Int := Nat.ofDigitChars 10 ds 0
      return (if negative then -e else e, cs)
    else none
  | [] => none

/-- The double of a decimal fraction; one beyond the largest double is refused, except below
zero. -/
def fraction? (negative : Bool) (whole places : List Char) (power : Int) : Option Float :=
  let ds := whole ++ places
  let x := nearestDecimal (Nat.ofDigitChars 10 ds 0) ds.length (power - places.length)
  if negative then some (-x) else if x.isInf then none else some x

/-- How the reading of a number ended: with a failure, with the finding that it is none of this
form, or with its value. -/
inductive Outcome (α : Type) where
  | refused
  | otherForm
  | read (value : α) (rest : List Char)

/-- The outcome of a scan that can only fail from here on. -/
def Outcome.ofScan {α : Type} : Option (α × List Char) → Outcome α
  | some (a, rest) => read a rest
  | none => refused

/-- A number with a point, a power or both. -/
def decimal (cs : List Char) : Outcome Float :=
  let (negative, cs) := sign cs
  match wholeDigits? cs with
  | none => .otherForm
  | some (whole, '.' :: cs) => .ofScan do
    let (places, cs) ← digits? Char.isDigit cs
    match cs with
    | 'e' :: _ | 'E' :: _ => do
      let (power, cs) ← power? cs
      return (← fraction? negative whole places power, cs)
    | cs => return (← fraction? negative whole places 0, cs)
  | some (whole, cs) =>
    match cs with
    | 'e' :: _ | 'E' :: _ => .ofScan do
      let (power, cs) ← power? cs
      return (← fraction? negative whole [] power, cs)
    | _ => .otherForm

/-- Infinity, or what is no number, with a sign or without. -/
def specialFloat? (cs : List Char) : Option (Float × List Char) :=
  let (negative, cs) := sign cs
  let signed (x : Float) := if negative then -x else x
  match cs with
  | 'i' :: 'n' :: 'f' :: rest => some (signed (Decimal.nearest (Nat.pow 2 1100) 1), rest)
  | 'n' :: 'a' :: 'n' :: rest => some (signed (Float.ofBits 0x7ff8000000000000), rest)
  | _ => none

/-! ## 4. Dates and times -/

/-- A number of two digits in a range. -/
def twoDigits? (low high : Nat) : Scan Nat
  | a :: b :: rest =>
    if a.isDigit && b.isDigit then
      let n := Nat.ofDigitChars 10 [a, b] 0
      if low ≤ n ∧ n ≤ high then some (n, rest) else none
    else none
  | _ => none

/-- The input after a given character. -/
def expect? (c : Char) : List Char → Option (List Char)
  | d :: rest => if d = c then some rest else none
  | [] => none

/-- The number of days of a month. -/
def daysOf (year month : Nat) : Nat :=
  if month = 2 then
    if year % 4 = 0 ∧ (year % 100 ≠ 0 ∨ year % 400 = 0) then 29 else 28
  else if month = 4 ∨ month = 6 ∨ month = 9 ∨ month = 11 then 30
  else 31

/-- Month and day after a year. -/
def monthDay? (year : Nat) (cs : List Char) : Option (List Char) := do
  let (month, cs) ← twoDigits? 1 12 cs
  let cs ← expect? '-' cs
  let (_, cs) ← twoDigits? 1 (daysOf year month) cs
  return cs

/-- Minutes, seconds and parts of a second after an hour. -/
def minutes? (cs : List Char) : Option (List Char) := do
  let (_, cs) ← twoDigits? 0 59 cs
  let cs ← expect? ':' cs
  let (_, cs) ← twoDigits? 0 60 cs
  match cs with
  | '.' :: d :: rest => if d.isDigit then some (rest.dropWhile Char.isDigit) else some cs
  | cs => some cs

/-- Does an hour with its colon stand here? -/
def beginsTime : List Char → Bool
  | cs =>
    match twoDigits? 0 23 cs with
    | some (_, ':' :: _) => true
    | _ => false

/-- The offset after a time, if there is one. -/
def offset? : List Char → Option (List Char)
  | 'Z' :: rest | 'z' :: rest => some rest
  | '+' :: rest | '-' :: rest => do
    let (_, cs) ← twoDigits? 0 23 rest
    let cs ← expect? ':' cs
    let (_, cs) ← twoDigits? 0 59 cs
    return cs
  | cs => some cs

/-- A time and its offset after a date, if they are there. -/
def timeAfterDate? (cs : List Char) : Option (List Char) :=
  match cs with
  | c :: rest =>
    if (c = 'T' ∨ c = 't' ∨ c = ' ') ∧ beginsTime rest then do
      offset? (← minutes? (rest.drop 3))
    else some cs
  | [] => some []

/-- A date, a time, or both. -/
def datetime (cs : List Char) : Outcome Unit :=
  match cs with
  | a :: b :: c :: d :: '-' :: rest =>
    if [a, b, c, d].all Char.isDigit then
      .ofScan do
        let cs ← monthDay? (Nat.ofDigitChars 10 [a, b, c, d] 0) rest
        return ((), ← timeAfterDate? cs)
    else .otherForm
  | cs =>
    if beginsTime cs then .ofScan do return ((), ← minutes? (cs.drop 3))
    else .otherForm

end ModifierFacts.Toml
