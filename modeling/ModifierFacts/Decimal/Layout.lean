import ModifierFacts.Decimal.Shortest

/-!
# The text of a double

`Decimal.Layout` holds the decisions of a number format, `Decimal.Layout.text` writes a double by
it. The digits are always the fewest that read back; a whole number keeps one place after the point.
-/

namespace ModifierFacts.Decimal

/-- The decisions of a number format. -/
structure Layout where
  /-- Is a number with the point after its first `p` digits written without an exponent? The
  argument is `p`; zero or less means that zeros follow the point. -/
  positional : Int → Bool
  /-- The choice between digits that are equally near to the value. -/
  tie : Tie

/-- The format of a document: without an exponent from `0.00001` to below `10^16`; a tie goes to the
even digits. -/
def Layout.document : Layout := ⟨fun p => -5 < p && p ≤ 16, .even⟩

/-- The format that never writes an exponent; a tie goes to the larger digits. -/
def Layout.plain : Layout := ⟨fun _ => true, .up⟩

/-- The digits of a whole number. -/
def digitChars (n : Nat) : List Char := Nat.toDigits 10 n

/-- Digits with the point after the first `p` of them. -/
def positionalChars (ds : List Char) (p : Int) : List Char :=
  if p ≤ 0 then '0' :: '.' :: List.replicate (-p).toNat '0' ++ ds
  else
    let whole := ds.take p.toNat ++ List.replicate (p.toNat - ds.length) '0'
    let rest := ds.drop p.toNat
    whole ++ '.' :: if rest.isEmpty then ['0'] else rest

/-- Digits in scientific form; the exponent always has a sign. -/
def scientificChars (ds : List Char) (p : Int) : List Char :=
  let mantissa := match ds with
    | d :: e :: rest => d :: '.' :: e :: rest
    | _ => ds
  let e := p - 1
  mantissa ++ 'e' :: (if e < 0 then '-' else '+') :: digitChars e.natAbs

/-- The text of the absolute value of a finite double. -/
def Layout.magnitudeChars (l : Layout) (x : Float) : List Char :=
  if significand x = 0 then ['0', '.', '0']
  else
    let d := shortest l.tie x
    let ds := digitChars d.digits
    let p := d.exponent + ds.length
    if l.positional p then positionalChars ds p else scientificChars ds p

/-- The text of a double. -/
def Layout.text (l : Layout) (x : Float) : String :=
  if exponentField x = 2047 then
    if significand x ≠ Nat.pow 2 52 then "NaN" else if isNegative x then "-inf" else "inf"
  else String.ofList ((if isNegative x then ['-'] else []) ++ l.magnitudeChars x)

end ModifierFacts.Decimal
