import Mathlib.Data.List.TakeWhile
import ModifierFacts.Json.Token
import ModifierFacts.Json.Value

/-!
# Literals that were written are read back

A text literal is written with as few escapes as possible, a whole number as its decimal digits. The
scanners of tokens recognise both, whatever follows, as long as what follows does not go on with the
number.

* `pieces_quoted`: a written text literal is taken apart into its characters;
* `EndsNumeral`: what follows cannot belong to a number;
* `Numeral.scan_toDigits`: written digits are one numeral, and `Numeral.value?_toDigits` its value;
* **`nextToken_quote`, `nextToken_toDigits`**: each written literal is one token.
-/

namespace ModifierFacts.Json

/-! ## 1. Text literals -/

/-- The escape of a control character reads as its code. -/
theorem hexUnit?_hexChar : ∀ n < 0x20,
    hexUnit? '0' '0' (hexChar (n / 16)) (hexChar (n % 16)) = some n := by
  decide

theorem ofUnit_toNat {c : Char} (h : c.toNat < 0x20) : Piece.ofUnit c.toNat = .char c := by
  have hhigh : isHigh c.toNat = false := by simp [isHigh]; omega
  have hlow : isLow c.toNat = false := by simp [isLow]; omega
  rw [Piece.ofUnit, hhigh, hlow, Char.ofNat_toNat]
  rfl

/-- A character that is not escaped stands for itself. -/
theorem pieces_plain {c : Char} (hquote : c ≠ '"') (hslash : c ≠ '\\') (hc : ¬ c.toNat < 0x20)
    (cs : List Char) : pieces (c :: cs) = (pieces cs).map fun p => (.char c :: p.1, p.2) := by
  rw [pieces.eq_def]
  split
  case h_5 =>
    rename_i heq
    obtain ⟨rfl, rfl⟩ := List.cons.inj heq
    rw [if_neg (by simp [hc, hslash]), Option.map_eq_bind]
    rfl
  all_goals
    rename_i heq
    cases heq <;> contradiction

/-- An escape of two characters is one piece. -/
theorem pieces_simpleEscape {e c : Char} (he : simpleEscape? e = some c) (cs : List Char) :
    pieces ('\\' :: e :: cs) = (pieces cs).map fun p => (.char c :: p.1, p.2) := by
  rw [pieces, he, Option.map_eq_bind]
  · rfl
  · -- `u` is not the letter of an escape of two characters
    rintro _ _ _ _ _ rfl
    cases he

/-- An escape of six characters is one piece. -/
theorem pieces_unitEscape {n : Nat} {a b c d : Char} (hn : hexUnit? a b c d = some n)
    (cs : List Char) : pieces ('\\' :: 'u' :: a :: b :: c :: d :: cs) =
      (pieces cs).map fun p => (.ofUnit n :: p.1, p.2) := by
  rw [pieces, hn, Option.map_eq_bind]
  rfl

/-- One written character is one piece. -/
theorem pieces_escapeChar (c : Char) (cs : List Char) :
    pieces (escapeChar c ++ cs) = (pieces cs).map fun p => (.char c :: p.1, p.2) := by
  unfold escapeChar
  split
  case h_8 =>
    split
    · rename_i hc
      rw [← ofUnit_toNat hc]
      exact pieces_unitEscape (hexUnit?_hexChar c.toNat hc) cs
    · rename_i hquote hslash _ _ _ _ _ hc
      exact pieces_plain hquote hslash hc cs
  all_goals exact pieces_simpleEscape rfl cs

/-- **A written text literal is taken apart into its characters.** -/
theorem pieces_quoted (cs rest : List Char) :
    pieces (cs.flatMap escapeChar ++ '"' :: rest) = some (cs.map .char, rest) := by
  induction cs with
  | nil => rfl
  | cons c cs ih =>
    rw [List.flatMap_cons, List.append_assoc, pieces_escapeChar, ih]
    rfl

theorem joinPieces_map_char (cs : List Char) : joinPieces (cs.map .char) = some cs := by
  induction cs with
  | nil => rfl
  | cons c cs ih =>
    rw [List.map_cons, joinPieces, ih]
    rfl

/-- **A written text is one token.** -/
theorem nextToken_quote (s : String) (rest : List Char) :
    nextToken (quote s ++ rest) = some (.text (some s), rest) := by
  have hquote : quote s ++ rest = '"' :: (s.toList.flatMap escapeChar ++ '"' :: rest) := by
    simp [quote]
  rw [hquote]
  show (pieces _).map _ = _
  rw [pieces_quoted, Option.map_some]
  dsimp only
  rw [Token.ofPieces, joinPieces_map_char, Option.map_some, String.ofList_toList]

/-! ## 2. Numerals -/

/-- What follows does not go on with a number. -/
def EndsNumeral (rest : List Char) : Prop :=
  ∀ c ∈ rest.head?, c.isDigit = false ∧ c ≠ '.' ∧ c ≠ 'e' ∧ c ≠ 'E'

theorem endsNumeral_nil : EndsNumeral [] := fun _ h => nomatch h

theorem endsNumeral_cons {c : Char} (rest : List Char)
    (h : c.isDigit = false ∧ c ≠ '.' ∧ c ≠ 'e' ∧ c ≠ 'E') : EndsNumeral (c :: rest) := by
  intro d hd
  cases hd
  exact h

/-- The written digits of a number are one digit and more. -/
theorem exists_toDigits_eq_cons (n : Nat) :
    ∃ d ds, Nat.toDigits 10 n = d :: ds ∧ d.isDigit = true := by
  obtain ⟨d, ds, hds⟩ := List.exists_cons_of_ne_nil (Nat.toDigits_ne_nil (n := n) (b := 10))
  have hd : d ∈ Nat.toDigits 10 n := by
    rw [hds]
    exact List.mem_cons_self
  exact ⟨d, ds, hds, Nat.isDigit_of_mem_toDigits (by decide) (by decide) hd⟩

/-- Written digits begin with a zero only if they are nothing else. -/
theorem toDigits_eq_zero_cons {n : Nat} {ds : List Char} (h : Nat.toDigits 10 n = '0' :: ds) :
    ds = [] := by
  induction n using Nat.strongRecOn generalizing ds with
  | ind n ih =>
    by_cases hn : n < 10
    · rw [Nat.toDigits_of_lt_base hn] at h
      exact (List.cons.inj h).2.symm
    · -- the digits in front of the last one are those of a smaller number, which is not zero
      have hn : 10 ≤ n := Nat.le_of_not_lt hn
      rw [Nat.toDigits_of_base_le (by decide) hn] at h
      cases hfront : Nat.toDigits 10 (n / 10) with
      | nil => exact absurd hfront Nat.toDigits_ne_nil
      | cons d front =>
        rw [hfront, List.cons_append] at h
        obtain ⟨rfl, -⟩ := List.cons.inj h
        have hsingle : front = [] := ih (n / 10) (by omega) hfront
        rw [hsingle] at hfront
        have hzero : n / 10 = 0 := by
          rw [← Nat.ofDigitChars_ten_toDigits (n := n / 10), hfront]
          rfl
        omega

namespace Numeral

theorem digits_append {ds rest : List Char} (hds : ∀ c ∈ ds, c.isDigit = true)
    (hrest : EndsNumeral rest) : digits (ds ++ rest) = (ds, rest) := by
  have hstop : rest.takeWhile Char.isDigit = [] ∧ rest.dropWhile Char.isDigit = rest := by
    cases rest with
    | nil => exact ⟨rfl, rfl⟩
    | cons c cs =>
      have hc : ¬ c.isDigit = true := by rw [(hrest c rfl).1]; exact Bool.false_ne_true
      exact ⟨List.takeWhile_cons_of_neg hc, List.dropWhile_cons_of_neg hc⟩
  rw [digits, List.takeWhile_append_of_pos hds, List.dropWhile_append_of_pos hds, hstop.1, hstop.2,
    List.append_nil]

theorem scanSign_of_digit {c : Char} (h : c.isDigit = true) (cs : List Char) :
    scanSign (c :: cs) = (false, c :: cs) := by
  unfold scanSign
  split
  · rename_i hc
    cases hc
    cases h
  · rfl

theorem scanWhole_toDigits (n : Nat) {rest : List Char} (hrest : EndsNumeral rest) :
    scanWhole (Nat.toDigits 10 n ++ rest) = some (Nat.toDigits 10 n, rest) := by
  have hdigits : ∀ c ∈ Nat.toDigits 10 n, c.isDigit = true :=
    fun c hc => Nat.isDigit_of_mem_toDigits (by decide) (by decide) hc
  unfold scanWhole
  rw [digits_append hdigits hrest]
  split
  · rename_i h
    exact absurd (Prod.mk.inj h).1 Nat.toDigits_ne_nil
  · rename_i h
    exact absurd (toDigits_eq_zero_cons (Prod.mk.inj h).1) (List.cons_ne_nil _ _)
  · rename_i h
    obtain ⟨rfl, rfl⟩ := Prod.mk.inj h
    rfl

theorem scanFraction_of_ends {rest : List Char} (h : EndsNumeral rest) :
    scanFraction rest = some (none, rest) := by
  unfold scanFraction
  split
  · exact absurd rfl (h '.' rfl).2.1
  · rfl

theorem scanExponent_of_ends {rest : List Char} (h : EndsNumeral rest) :
    scanExponent rest = some (none, rest) := by
  cases rest with
  | nil => rfl
  | cons c cs =>
    obtain ⟨-, -, he, hE⟩ := h c rfl
    have hno : ¬ (c = 'e' ∨ c = 'E') := not_or.mpr ⟨he, hE⟩
    unfold scanExponent
    exact if_neg hno

/-- **Written digits are one numeral**, without sign, point and exponent. -/
theorem scan_toDigits (n : Nat) {rest : List Char} (hrest : EndsNumeral rest) :
    scan (Nat.toDigits 10 n ++ rest) = some ({ whole := Nat.toDigits 10 n }, rest) := by
  have hsign : scanSign (Nat.toDigits 10 n ++ rest) = (false, Nat.toDigits 10 n ++ rest) := by
    obtain ⟨d, ds, hds, hd⟩ := exists_toDigits_eq_cons n
    rw [hds]
    exact scanSign_of_digit hd (ds ++ rest)
  simp only [scan, hsign, scanWhole_toDigits n hrest, scanFraction_of_ends hrest,
    scanExponent_of_ends hrest, bind, Option.bind_some]
  rfl

/-- Written digits stand for the number that was written. -/
theorem value?_toDigits {n : Nat} (h : n < wordLimit) :
    value? { whole := Nat.toDigits 10 n } = some (.integer n) := by
  have hinteger : integer? { whole := Nat.toDigits 10 n } = some (n : Int) := by
    simp only [integer?, Nat.ofDigitChars_ten_toDigits]
    exact if_pos h
  rw [value?, hinteger]

end Numeral

/-- Where a digit stands, a numeral begins. -/
theorem nextToken_of_digit {c : Char} (h : c.isDigit = true) (cs : List Char) :
    nextToken (c :: cs) = (Numeral.scan (c :: cs)).map fun (n, rest) => (.ofNumeral n, rest) := by
  unfold nextToken
  split
  case h_11 => rfl
  all_goals
    rename_i heq
    cases heq
    cases h

/-- **A written number is one token.** -/
theorem nextToken_toDigits {n : Nat} (hn : n < wordLimit) {rest : List Char}
    (hrest : EndsNumeral rest) :
    nextToken (Nat.toDigits 10 n ++ rest) = some (.number (some (.integer n)), rest) := by
  have hscan := Numeral.scan_toDigits n hrest
  obtain ⟨d, ds, hds, hd⟩ := exists_toDigits_eq_cons n
  rw [hds, List.cons_append] at hscan
  rw [hds, List.cons_append, nextToken_of_digit hd, hscan, Option.map_some]
  dsimp only
  rw [Token.ofNumeral, ← hds, Numeral.value?_toDigits hn]

end ModifierFacts.Json
