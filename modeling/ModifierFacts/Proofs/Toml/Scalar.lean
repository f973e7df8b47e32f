import ModifierFacts.Proofs.Json.Literal
import ModifierFacts.Toml.Document

/-!
# Plain values of a configuration text

A text between quotes without escapes, and a whole number of 64 bits in decimal digits. Either is
read back as it was written, up to where its line goes on.

* `Toml.Plain`: such a value, with its characters and what it stands for;
* `GoesOn`: what can stand behind a value on its line;
* `text?_quoted`, `numeric?_numeral`: texts and numbers are read back;
* **`scalar?_plain`**: so is every plain value.
-/

namespace ModifierFacts.Toml

/-! ## 1. Values -/

/-- A value that is written in the simplest way. -/
inductive Plain where
  /-- A text between quotes, none of whose characters has to be escaped. -/
  | text (cs : List Char) (h : ∀ c ∈ cs, isPlain c = true ∧ c ≠ '"' ∧ c ≠ '\\')
  /-- A whole number of 64 bits with a sign, as its decimal digits. -/
  | integer (negative : Bool) (n : Nat)
      (h : if negative then n ≤ Nat.pow 2 63 else n < Nat.pow 2 63)

/-- The characters of a whole number. -/
def numeral (negative : Bool) (n : Nat) : List Char :=
  (if negative then ['-'] else []) ++ Nat.toDigits 10 n

namespace Plain

/-- The value that is written. -/
def scalar : Plain → Scalar
  | text cs _ => .text (String.ofList cs)
  | integer negative n _ => .integer (if negative then -(n : Int) else n)

/-- The characters of the value. -/
def chars : Plain → List Char
  | text cs _ => '"' :: cs ++ ['"']
  | integer negative n _ => numeral negative n

end Plain

/-- The line goes on behind a value: with a blank, a comment or its end. -/
def GoesOn (rest : List Char) : Prop :=
  ∃ c cs, rest = c :: cs ∧ c ∈ [' ', '\t', '#', '\n']

/-- The rest of a line goes on with none of the characters that a number goes on with. -/
theorem GoesOn.head {c : Char} {cs : List Char} (h : GoesOn (c :: cs)) :
    c ∈ [' ', '\t', '#', '\n'] := by
  obtain ⟨d, ds, heq, hd⟩ := h
  cases heq
  exact hd

/-! ## 2. Texts -/

theorem basicBody_cons {c : Char} (hplain : isPlain c = true) (hquote : c ≠ '"')
    (hslash : c ≠ '\\') (cs : List Char) : basicBody (c :: cs) = consScan c (basicBody cs) := by
  rw [basicBody.eq_def]
  split
  case h_6 =>
    rename_i heq
    obtain ⟨rfl, rfl⟩ := List.cons.inj heq
    rw [if_pos (by simp [hplain, hslash])]
  all_goals
    rename_i heq
    cases heq <;> contradiction

theorem basicBody_quoted {cs : List Char}
    (h : ∀ c ∈ cs, isPlain c = true ∧ c ≠ '"' ∧ c ≠ '\\') (rest : List Char) :
    basicBody (cs ++ '"' :: rest) = some (cs, rest) := by
  induction cs with
  | nil => rw [List.nil_append, basicBody]
  | cons c cs ih =>
    rw [List.forall_mem_cons] at h
    obtain ⟨⟨hplain, hquote, hslash⟩, hcs⟩ := h
    rw [List.cons_append, basicBody_cons hplain hquote hslash, ih hcs]
    rfl

/-- **A quoted text is read back**, if it is not followed by another quote. -/
theorem text?_quoted {cs : List Char} (h : ∀ c ∈ cs, isPlain c = true ∧ c ≠ '"' ∧ c ≠ '\\')
    {rest : List Char} (hrest : GoesOn rest) :
    text? ('"' :: (cs ++ '"' :: rest)) = some (String.ofList cs, rest) := by
  have hbody := basicBody_quoted h rest
  have hline : lineText? ('"' :: (cs ++ '"' :: rest)) = some (String.ofList cs, rest) := by
    show asText (basicBody _) = _
    rw [hbody]
    rfl
  rw [← hline, text?.eq_def]
  split
  · -- three quotes in a row would be an empty text and a third quote behind it
    rename_i heq
    obtain ⟨c, tail, rfl, hc⟩ := hrest
    cases cs with
    | nil =>
      cases heq
      exact absurd hc (by decide)
    | cons d ds => exact absurd (List.cons.inj (List.cons.inj heq).2).1 (h d List.mem_cons_self).2.1
  · rename_i heq
    cases heq
  · rfl

/-! ## 3. Numbers -/

theorem moreDigits_cons {c : Char} (hc : c ≠ '_') (p : Char → Bool) (cs : List Char) :
    moreDigits p (c :: cs) = if p c then consScan c (moreDigits p cs) else some ([], c :: cs) := by
  rw [moreDigits.eq_def]
  split
  case h_4 =>
    rename_i heq
    obtain ⟨rfl, rfl⟩ := List.cons.inj heq
    rfl
  all_goals
    rename_i heq
    cases heq <;> contradiction

theorem moreDigits_append {ds rest : List Char} (hds : ∀ c ∈ ds, c.isDigit = true)
    (hrest : GoesOn rest) : moreDigits Char.isDigit (ds ++ rest) = some (ds, rest) := by
  induction ds with
  | nil =>
    obtain ⟨c, cs, rfl, hc⟩ := hrest
    have hscore : ∀ c ∈ [' ', '\t', '#', '\n'], c ≠ '_' ∧ c.isDigit = false := by
      simp [Char.isDigit]
    obtain ⟨hunder, hdigit⟩ := hscore c hc
    rw [List.nil_append, moreDigits_cons hunder, hdigit, if_neg Bool.false_ne_true]
  | cons d ds ih =>
    rw [List.forall_mem_cons] at hds
    have hunder : d ≠ '_' := by
      rintro rfl
      exact absurd hds.1 (by decide)
    rw [List.cons_append, moreDigits_cons hunder, if_pos hds.1, ih hds.2]
    rfl

theorem isDigit_of_mem_toDigits (n : Nat) : ∀ c ∈ Nat.toDigits 10 n, c.isDigit = true :=
  fun _ hc => Nat.isDigit_of_mem_toDigits (by decide) (by decide) hc

theorem wholeDigits?_toDigits (n : Nat) {rest : List Char} (hrest : GoesOn rest) :
    wholeDigits? (Nat.toDigits 10 n ++ rest) = some (Nat.toDigits 10 n, rest) := by
  have hall := isDigit_of_mem_toDigits n
  obtain ⟨d, ds, hds, hd⟩ := Json.exists_toDigits_eq_cons n
  rw [hds] at hall ⊢
  rw [List.forall_mem_cons] at hall
  unfold wholeDigits?
  split
  · rename_i heq
    obtain ⟨rfl, rfl⟩ := List.cons.inj heq
    rw [Json.toDigits_eq_zero_cons hds]
    rfl
  · rw [List.cons_append, digits?, if_pos hd, moreDigits_append hall.2 hrest]
    rfl

theorem sign_numeral (negative : Bool) (n : Nat) (rest : List Char) :
    sign (numeral negative n ++ rest) = (negative, Nat.toDigits 10 n ++ rest) := by
  cases negative with
  | true => rfl
  | false =>
    obtain ⟨d, ds, hds, hd⟩ := Json.exists_toDigits_eq_cons n
    show sign (Nat.toDigits 10 n ++ rest) = _
    rw [hds, List.cons_append]
    unfold sign
    split
    · rename_i heq
      cases heq
      cases hd
    · rename_i heq
      cases heq
      cases hd
    · rfl

/-- A numeral begins with its sign or with a digit. -/
theorem numeral_eq_cons (negative : Bool) (n : Nat) :
    ∃ c cs, numeral negative n = c :: cs ∧ (c = '-' ∨ c.isDigit = true) := by
  cases negative with
  | true => exact ⟨'-', _, rfl, .inl rfl⟩
  | false =>
    obtain ⟨d, ds, hds, hd⟩ := Json.exists_toDigits_eq_cons n
    exact ⟨d, ds, hds, .inr hd⟩

/-- Where digits of a numeral end, the numeral ends: what comes next is the rest of the line. -/
theorem eq_cons_of_numeral_append {negative : Bool} {n : Nat} {rest tail : List Char} {c : Char}
    (hrest : GoesOn rest) (ds : List Char) (hds : ∀ d ∈ ds, d.isDigit = true) (hne : ds ≠ [])
    (hc : c.isDigit = false) (h : numeral negative n ++ rest = ds ++ c :: tail) :
    rest = c :: tail := by
  cases negative with
  | true =>
    obtain ⟨d, ds', rfl⟩ := List.exists_cons_of_ne_nil hne
    obtain ⟨rfl, -⟩ := List.cons.inj h
    exact absurd (hds '-' List.mem_cons_self) (by decide)
  | false =>
    have hdrop := congrArg (List.dropWhile Char.isDigit) h
    have hnumeral : (numeral false n ++ rest).dropWhile Char.isDigit = rest := by
      obtain ⟨b, cs, rfl, hb⟩ := hrest
      have hdigit : ∀ c ∈ [' ', '\t', '#', '\n'], ¬ c.isDigit = true := by simp [Char.isDigit]
      show (Nat.toDigits 10 n ++ b :: cs).dropWhile Char.isDigit = b :: cs
      rw [List.dropWhile_append_of_pos (isDigit_of_mem_toDigits n),
        List.dropWhile_cons_of_neg (hdigit b hb)]
    rw [hnumeral, List.dropWhile_append_of_pos hds,
      List.dropWhile_cons_of_neg (by rw [hc]; exact Bool.false_ne_true)] at hdrop
    exact hdrop

theorem beginsTime_numeral (negative : Bool) (n : Nat) {rest : List Char} (hrest : GoesOn rest) :
    beginsTime (numeral negative n ++ rest) = false := by
  unfold beginsTime
  dsimp only
  split
  · rename_i tail htwo
    -- two digits and a colon would leave the colon to the rest of the line
    unfold twoDigits? at htwo
    split at htwo
    · rename_i a b cs heq
      split at htwo
      · rename_i hdigits
        rw [Bool.and_eq_true] at hdigits
        have htail : cs = ':' :: tail := by
          dsimp only at htwo
          split at htwo
          · exact (Prod.mk.inj (Option.some.inj htwo)).2
          · cases htwo
        rw [htail] at heq
        have hcolon := eq_cons_of_numeral_append hrest [a, b]
          (by simp [hdigits]) (List.cons_ne_nil a [b]) (by decide) heq
        rw [hcolon] at hrest
        exact absurd hrest.head (by decide)
      · cases htwo
    · cases htwo
  · rfl

theorem datetime_numeral (negative : Bool) (n : Nat) {rest : List Char} (hrest : GoesOn rest) :
    datetime (numeral negative n ++ rest) = .otherForm := by
  unfold datetime
  split
  · rename_i a b c d tail heq
    split
    · -- four digits and a dash would leave the dash to the rest of the line
      rename_i hdigits
      have hdash := eq_cons_of_numeral_append hrest [a, b, c, d]
        (List.all_eq_true.mp hdigits) (List.cons_ne_nil a _) (by decide) heq
      rw [hdash] at hrest
      exact absurd hrest.head (by decide)
    · rfl
  · rw [beginsTime_numeral negative n hrest]
    rfl

theorem decimal_numeral (negative : Bool) (n : Nat) {rest : List Char} (hrest : GoesOn rest) :
    decimal (numeral negative n ++ rest) = .otherForm := by
  have hwhole := wholeDigits?_toDigits n hrest
  obtain ⟨c, cs, rfl, hc⟩ := hrest
  simp only [decimal, sign_numeral, hwhole]
  simp only [List.mem_cons, List.not_mem_nil, or_false] at hc
  rcases hc with rfl | rfl | rfl | rfl <;> rfl

theorem specialFloat?_numeral (negative : Bool) (n : Nat) (rest : List Char) :
    specialFloat? (numeral negative n ++ rest) = none := by
  obtain ⟨d, ds, hds, hd⟩ := Json.exists_toDigits_eq_cons n
  rw [specialFloat?, sign_numeral, hds, List.cons_append]
  dsimp only
  split
  · rename_i heq
    obtain ⟨rfl, -⟩ := List.cons.inj heq
    cases hd
  · rename_i heq
    obtain ⟨rfl, -⟩ := List.cons.inj heq
    cases hd
  · rfl

/-- A numeral does not begin with the mark of another base. -/
theorem numeral_append_ne_base (negative : Bool) (n : Nat) {rest : List Char}
    (hrest : GoesOn rest) {c : Char} (hc : c = 'x' ∨ c = 'o' ∨ c = 'b') (tail : List Char) :
    numeral negative n ++ rest ≠ '0' :: c :: tail := by
  intro h
  have hcons : rest = c :: tail := by
    refine eq_cons_of_numeral_append hrest ['0'] (by simp) (by decide) ?_ h
    rcases hc with rfl | rfl | rfl <;> decide
  rw [hcons] at hrest
  have hhead := hrest.head
  rcases hc with rfl | rfl | rfl <;> exact absurd hhead (by decide)

theorem integer?_numeral {negative : Bool} {n : Nat}
    (h : if negative then n ≤ Nat.pow 2 63 else n < Nat.pow 2 63) {rest : List Char}
    (hrest : GoesOn rest) :
    integer? (numeral negative n ++ rest) =
      some (if negative then -(n : Int) else n, rest) := by
  have hvalue : integerOf? negative n = some (if negative then -(n : Int) else n) := by
    cases negative with
    | true => exact if_pos h
    | false => exact if_pos h
  unfold integer?
  split
  · rename_i heq
    exact absurd heq (numeral_append_ne_base negative n hrest (.inl rfl) _)
  · rename_i heq
    exact absurd heq (numeral_append_ne_base negative n hrest (.inr (.inl rfl)) _)
  · rename_i heq
    exact absurd heq (numeral_append_ne_base negative n hrest (.inr (.inr rfl)) _)
  · simp only [sign_numeral, wholeDigits?_toDigits n hrest, bind, Option.bind_some,
      Nat.ofDigitChars_ten_toDigits, hvalue]
    rfl

/-- **A written number is read back.** -/
theorem numeric?_numeral {negative : Bool} {n : Nat}
    (h : if negative then n ≤ Nat.pow 2 63 else n < Nat.pow 2 63) {rest : List Char}
    (hrest : GoesOn rest) :
    numeric? (numeral negative n ++ rest) =
      some (.integer (if negative then -(n : Int) else n), rest) := by
  rw [numeric?, datetime_numeral negative n hrest]
  dsimp only
  rw [decimal_numeral negative n hrest]
  dsimp only
  rw [specialFloat?_numeral, integer?_numeral h hrest]
  rfl

/-! ## 4. Values -/

/-- Where a numeral begins, nothing else does. -/
theorem scalar?_numeral {negative : Bool} {n : Nat} {rest : List Char} {x : Scalar}
    (h : numeric? (numeral negative n ++ rest) = some (x, rest)) :
    scalar? (numeral negative n ++ rest) = some (x, rest) := by
  obtain ⟨c, cs, hcs, hc⟩ := numeral_eq_cons negative n
  rw [hcs, List.cons_append] at h ⊢
  have hstart : (c.isDigit || c = '+' || c = '-') = true := by
    rcases hc with rfl | hc
    · rfl
    · rw [hc]
      rfl
  unfold scalar?
  split
  case h_7 =>
    rename_i heq
    obtain ⟨rfl, rfl⟩ := List.cons.inj heq
    rw [if_pos hstart, h]
  case h_8 =>
    rename_i heq
    cases heq
  all_goals
    rename_i heq
    obtain ⟨rfl, -⟩ := List.cons.inj heq
    rcases hc with hc | hc <;> cases hc

/-- **A written value is read back**, up to where the line goes on. -/
theorem scalar?_plain (value : Plain) {rest : List Char} (hrest : GoesOn rest) :
    scalar? (value.chars ++ rest) = some (value.scalar, rest) := by
  cases value with
  | text cs h =>
    have htext := text?_quoted h hrest
    have hchars : (Plain.text cs h).chars ++ rest = '"' :: (cs ++ '"' :: rest) := by
      simp [Plain.chars]
    rw [hchars]
    show (text? _).map _ = _
    rw [htext]
    rfl
  | integer negative n h => exact scalar?_numeral (numeric?_numeral h hrest)

/-- A written value begins with a quote, a sign or a digit. -/
theorem Plain.chars_eq_cons (value : Plain) :
    ∃ c cs, value.chars = c :: cs ∧ isBlank c = false ∧ c ≠ '[' ∧ c ≠ '\x7b' := by
  cases value with
  | text cs h => exact ⟨'"', _, rfl, by decide, by decide, by decide⟩
  | integer negative n h =>
    obtain ⟨c, cs, hcs, hc⟩ := numeral_eq_cons negative n
    refine ⟨c, cs, hcs, ?_⟩
    by_cases hminus : c = '-'
    · rw [hminus]
      decide
    · have hdigit : c.isDigit = true := hc.resolve_left hminus
      refine ⟨?_, ?_, ?_⟩
      · rw [← Bool.not_eq_true]
        intro hblank
        simp only [isBlank, Bool.or_eq_true, decide_eq_true_eq] at hblank
        rcases hblank with rfl | rfl <;> cases hdigit
      · rintro rfl
        cases hdigit
      · rintro rfl
        cases hdigit

/-- Where no bracket stands, a value is a scalar. -/
theorem value?_of_scalar? {c : Char} {cs rest : List Char} {x : Scalar} (hbracket : c ≠ '[')
    (hbrace : c ≠ '\x7b') (h : scalar? (c :: cs) = some (x, rest)) (fuel room : Nat) :
    value? (fuel + 1) room (c :: cs) = some (.scalar x, rest) := by
  unfold value?
  split
  · rename_i heq
    exact absurd (List.cons.inj heq).1 hbracket
  · rename_i heq
    exact absurd (List.cons.inj heq).1 hbrace
  · rw [h]
    rfl

end ModifierFacts.Toml
