import ModifierFacts.Decimal.Nearest

/-!
# Numbers in documents

* `Json.Numeral` is the written form: a sign, digits before and after the point, an exponent.
  `Numeral.scan` reads the longest one that the input begins with.
* `Json.Number` is what it stands for: a whole number of at most 64 bits, or a double.
* `Numeral.value?` takes one to the other. A numeral with a point or an exponent is a double, and so
  are a whole number beyond 64 bits and `-0`. Its double is made of the digits that fit into 64
  bits, scaled by one power of ten; there is none if that exceeds the largest double.
-/

namespace ModifierFacts.Json

/-! ## 1. Numerals -/

/-- The written form of a number. -/
structure Numeral where
  negative : Bool := false
  /-- The digits before the point, at least one. -/
  whole : List Char
  /-- The digits after the point, if there is one. -/
  fraction : Option (List Char) := none
  /-- The exponent with its sign, if there is one. -/
  exponent : Option (Bool × List Char) := none
  deriving DecidableEq, Repr

namespace Numeral

/-- Splits the input into its longest beginning of digits and the rest. -/
def digits (cs : List Char) : List Char × List Char :=
  (cs.takeWhile Char.isDigit, cs.dropWhile Char.isDigit)

/-- Reads a minus sign, if the input begins with one. -/
def scanSign : List Char → Bool × List Char
  | '-' :: cs => (true, cs)
  | cs => (false, cs)

/-- Reads the digits before the point. A zero is not followed by another digit. -/
def scanWhole (cs : List Char) : Option (List Char × List Char) :=
  match digits cs with
  | ([], _) => none
  | ('0' :: _ :: _, _) => none
  | (ds, rest) => some (ds, rest)

/-- Reads a point and the digits after it, of which there must be one. -/
def scanFraction : List Char → Option (Option (List Char) × List Char)
  | '.' :: cs =>
    match digits cs with
    | ([], _) => none
    | (ds, rest) => some (some ds, rest)
  | cs => some (none, cs)

/-- Reads the digits of an exponent, of which there must be one. -/
def scanExponentDigits (negative : Bool) (cs : List Char) :
    Option (Option (Bool × List Char) × List Char) :=
  match digits cs with
  | ([], _) => none
  | (ds, rest) => some (some (negative, ds), rest)

/-- Reads an exponent, if the input begins with one. -/
def scanExponent : List Char → Option (Option (Bool × List Char) × List Char)
  | c :: cs =>
    if c = 'e' ∨ c = 'E' then
      match cs with
      | '+' :: cs => scanExponentDigits false cs
      | '-' :: cs => scanExponentDigits true cs
      | cs => scanExponentDigits false cs
    else some (none, c :: cs)
  | [] => some (none, [])

/-- Reads the longest numeral that the input begins with; `none` if what begins there cannot be
completed. -/
def scan (cs : List Char) : Option (Numeral × List Char) := do
  let (negative, cs) := scanSign cs
  let (whole, cs) ← scanWhole cs
  let (fraction, cs) ← scanFraction cs
  let (exponent, cs) ← scanExponent cs
  return (⟨negative, whole, fraction, exponent⟩, cs)

/-! ## 2. What a scan leaves -/

theorem length_digits_snd (cs : List Char) : (digits cs).2.length ≤ cs.length := by
  simpa [digits] using (List.dropWhile_suffix (l := cs) Char.isDigit).length_le

theorem length_scanSign (cs : List Char) : (scanSign cs).2.length ≤ cs.length := by
  unfold scanSign
  split <;> simp

theorem length_scanWhole {cs ds rest : List Char} (h : scanWhole cs = some (ds, rest)) :
    rest.length < cs.length := by
  have happ : (digits cs).1.length + (digits cs).2.length = cs.length := by
    rw [← List.length_append]
    simp [digits, List.takeWhile_append_dropWhile]
  unfold scanWhole at h
  split at h
  · simp at h
  · simp at h
  · rename_i a b hne _ hd
    simp only [Option.some.injEq, Prod.mk.injEq] at h
    obtain ⟨rfl, rfl⟩ := h
    rw [hd] at happ
    cases a with
    | nil => exact absurd rfl hne
    | cons _ _ => simp only [List.length_cons] at happ; omega

theorem length_scanFraction {cs rest : List Char} {f : Option (List Char)}
    (h : scanFraction cs = some (f, rest)) : rest.length ≤ cs.length := by
  unfold scanFraction at h
  split at h
  · rename_i cs'
    have := length_digits_snd cs'
    split at h
    · simp at h
    · rename_i hd
      simp only [Option.some.injEq, Prod.mk.injEq] at h
      obtain ⟨_, rfl⟩ := h
      rw [hd] at this
      simp only [List.length_cons] at this ⊢
      omega
  · simp only [Option.some.injEq, Prod.mk.injEq] at h
    simp [h.2]

theorem length_scanExponentDigits {neg : Bool} {cs rest : List Char} {e : Option (Bool × List Char)}
    (h : scanExponentDigits neg cs = some (e, rest)) : rest.length ≤ cs.length := by
  have := length_digits_snd cs
  unfold scanExponentDigits at h
  split at h
  · simp at h
  · rename_i hd
    simp only [Option.some.injEq, Prod.mk.injEq] at h
    obtain ⟨_, rfl⟩ := h
    rw [hd] at this
    exact this

theorem length_scanExponent {cs rest : List Char} {e : Option (Bool × List Char)}
    (h : scanExponent cs = some (e, rest)) : rest.length ≤ cs.length := by
  unfold scanExponent at h
  split at h
  · split at h
    · split at h
      all_goals
        have := length_scanExponentDigits h
        simp_all; try omega
    · simp only [Option.some.injEq, Prod.mk.injEq] at h
      simp [← h.2]
  · simp only [Option.some.injEq, Prod.mk.injEq] at h
    simp [← h.2]

/-- A scan takes at least one character. -/
theorem length_scan {cs rest : List Char} {n : Numeral} (h : scan cs = some (n, rest)) :
    rest.length < cs.length := by
  simp only [scan, bind, Option.bind_eq_some_iff, pure, Option.some.injEq, Prod.mk.injEq] at h
  obtain ⟨⟨_, _⟩, hw, ⟨_, _⟩, hf, ⟨_, _⟩, he, _, rfl⟩ := h
  have h1 := length_scanSign cs
  have h2 := length_scanWhole hw
  have h3 := length_scanFraction hf
  have h4 := length_scanExponent he
  exact Nat.lt_of_le_of_lt h4 (Nat.lt_of_le_of_lt h3 (Nat.lt_of_lt_of_le h2 h1))

end Numeral

/-! ## 3. Values -/

/-- What a numeral stands for. -/
inductive Number where
  | integer (value : Int)
  | float (value : Float)

/-- One more than the largest word of 64 bits. -/
def wordLimit : Nat := Nat.pow 2 64

/-- Appends digits to a number as long as it stays below `wordLimit`; the digits that do not fit are
returned. -/
def takeDigits (n : Nat) : List Char → Nat × List Char
  | [] => (n, [])
  | d :: ds =>
    let next := 10 * n + (d.toNat - '0'.toNat)
    if next < wordLimit then takeDigits next ds else (n, d :: ds)

/-- A double times a power of ten. A large negative power is applied in two steps; beyond the second
nothing is left. -/
def scale (x : Float) (power : Int) : Option Float :=
  let k := power.natAbs
  if 0 ≤ power then
    if k ≤ 308 then
      let y := x * Decimal.powerOfTen k
      if y.isInf then none else some y
    else if x == 0 then some x else none
  else if k ≤ 308 then some (x / Decimal.powerOfTen k)
  else if k ≤ 616 then some (x / Decimal.powerOfTen 308 / Decimal.powerOfTen (k - 308))
  else some 0

namespace Numeral

/-- The exponent that is written, zero if none is. -/
def writtenExponent (n : Numeral) : Int :=
  match n.exponent with
  | none => 0
  | some (negative, ds) =>
    let e : Int := Nat.ofDigitChars 10 ds 0
    if negative then -e else e

/-- The double of a numeral. -/
def float? (n : Numeral) : Option Float :=
  let fraction := n.fraction.getD []
  let (m, droppedWhole) := takeDigits 0 n.whole
  let (m, droppedFraction) := takeDigits m fraction
  let power : Int := droppedWhole.length + droppedFraction.length - fraction.length
  (scale (UInt64.ofNat m).toFloat (power + n.writtenExponent)).map fun x =>
    if n.negative then -x else x

/-- The whole number that a numeral without point and exponent stands for, if it has 64 bits. -/
def integer? (n : Numeral) : Option Int :=
  match n.fraction, n.exponent with
  | none, none =>
    let m := Nat.ofDigitChars 10 n.whole 0
    if n.negative then if 0 < m ∧ m ≤ Nat.pow 2 63 then some (-(m : Int)) else none
    else if m < wordLimit then some (m : Int) else none
  | _, _ => none

/-- The value of a numeral, unless it exceeds the largest double. -/
def value? (n : Numeral) : Option Number :=
  match n.integer? with
  | some i => some (.integer i)
  | none => n.float?.map .float

end Numeral

end ModifierFacts.Json
