import ModifierFacts.Json.Number

/-!
# Tokens of documents

`Json.tokens` cuts a text into brackets, separators and literals and leaves the blanks out. Where no
token begins it ends with `Token.stray`. A literal may be of the right form and yet stand for
nothing: a number beyond the largest double, or a text with half a surrogate pair. Its token has no
value, so it can be passed over but not read.
-/

namespace ModifierFacts.Json

/-! ## 1. Text literals -/

/-- One piece of a text literal: a character, or a code unit that is half of a pair. -/
inductive Piece where
  | char (c : Char)
  | unit (value : Nat)
  deriving DecidableEq, Repr

/-- The value of a hexadecimal digit. -/
def hexValue? (c : Char) : Option Nat :=
  if c.isDigit then some (c.toNat - '0'.toNat)
  else if 'a' ≤ c ∧ c ≤ 'f' then some (c.toNat - 'a'.toNat + 10)
  else if 'A' ≤ c ∧ c ≤ 'F' then some (c.toNat - 'A'.toNat + 10)
  else none

/-- The value of four hexadecimal digits. -/
def hexUnit? (a b c d : Char) : Option Nat := do
  return (((← hexValue? a) * 16 + (← hexValue? b)) * 16 + (← hexValue? c)) * 16 + (← hexValue? d)

/-- Is the code unit the first half of a pair? -/
def isHigh (u : Nat) : Bool := 0xd800 ≤ u && u < 0xdc00

/-- Is the code unit the second half of a pair? -/
def isLow (u : Nat) : Bool := 0xdc00 ≤ u && u < 0xe000

/-- The piece that a code unit stands for. -/
def Piece.ofUnit (u : Nat) : Piece := if isHigh u || isLow u then .unit u else .char (Char.ofNat u)

/-- The character after a backslash, for the escapes of one character. -/
def simpleEscape? : Char → Option Char
  | '"' => some '"'
  | '\\' => some '\\'
  | '/' => some '/'
  | 'b' => some '\x08'
  | 'f' => some '\x0c'
  | 'n' => some '\n'
  | 'r' => some '\r'
  | 't' => some '\t'
  | _ => none

/-- The pieces of a text literal after its opening quote, and what follows the closing one. A
control character is not allowed, nor is the end of the input. -/
def pieces : List Char → Option (List Piece × List Char)
  | [] => none
  | '"' :: rest => some ([], rest)
  | '\\' :: 'u' :: a :: b :: c :: d :: rest => do
    let u ← hexUnit? a b c d
    let (ps, rest) ← pieces rest
    return (.ofUnit u :: ps, rest)
  | '\\' :: e :: rest => do
    let c ← simpleEscape? e
    let (ps, rest) ← pieces rest
    return (.char c :: ps, rest)
  | c :: rest =>
    if c.toNat < 0x20 ∨ c = '\\' then none
    else do
      let (ps, rest) ← pieces rest
      return (.char c :: ps, rest)

/-- The characters of a text literal; `none` if half a pair stands alone. -/
def joinPieces : List Piece → Option (List Char)
  | [] => some []
  | .char c :: ps => (joinPieces ps).map (c :: ·)
  | .unit u :: .unit v :: ps =>
    if isHigh u && isLow v then
      (joinPieces ps).map (Char.ofNat (0x10000 + (u - 0xd800) * 0x400 + (v - 0xdc00)) :: ·)
    else none
  | .unit _ :: _ => none

/-! ## 2. Tokens -/

/-- The tokens of a document. -/
inductive Token where
  | openObject
  | closeObject
  | openArray
  | closeArray
  | comma
  | colon
  | null
  | boolean (b : Bool)
  /-- A number, unless it exceeds the largest double. -/
  | number (value : Option Number)
  /-- A text, unless half a pair stands alone in it. -/
  | text (value : Option String)
  /-- No token begins here. -/
  | stray

/-- The token of a text literal. -/
def Token.ofPieces (ps : List Piece) : Token := .text ((joinPieces ps).map String.ofList)

/-- The token of a numeral. -/
def Token.ofNumeral (n : Numeral) : Token := .number n.value?

/-- The token at the beginning of the input, and the rest. -/
def nextToken : List Char → Option (Token × List Char)
  | '\x7b' :: rest => some (.openObject, rest)
  | '\x7d' :: rest => some (.closeObject, rest)
  | '[' :: rest => some (.openArray, rest)
  | ']' :: rest => some (.closeArray, rest)
  | ',' :: rest => some (.comma, rest)
  | ':' :: rest => some (.colon, rest)
  | 'n' :: 'u' :: 'l' :: 'l' :: rest => some (.null, rest)
  | 't' :: 'r' :: 'u' :: 'e' :: rest => some (.boolean true, rest)
  | 'f' :: 'a' :: 'l' :: 's' :: 'e' :: rest => some (.boolean false, rest)
  | '"' :: rest => (pieces rest).map fun (ps, rest) => (.ofPieces ps, rest)
  | cs => (Numeral.scan cs).map fun (n, rest) => (.ofNumeral n, rest)

theorem length_pieces {cs rest : List Char} {ps : List Piece} (h : pieces cs = some (ps, rest)) :
    rest.length < cs.length := by
  fun_induction pieces cs generalizing ps with
  | case1 => simp at h
  | case2 r => simp at h; simp [← h.2]
  | case3 a b c d r ih =>
    simp only [bind, Option.bind_eq_some_iff, pure, Option.some.injEq, Prod.mk.injEq] at h
    obtain ⟨_, _, ⟨qs, r'⟩, hq, _, rfl⟩ := h
    have : r'.length < r.length := ih hq
    simp only [List.length_cons]; omega
  | case4 e r _ ih =>
    simp only [bind, Option.bind_eq_some_iff, pure, Option.some.injEq, Prod.mk.injEq] at h
    obtain ⟨_, _, ⟨qs, r'⟩, hq, _, rfl⟩ := h
    have : r'.length < r.length := ih hq
    simp only [List.length_cons]; omega
  | case5 => simp at h
  | case6 c r _ _ _ _ ih =>
    simp only [bind, Option.bind_eq_some_iff, pure, Option.some.injEq, Prod.mk.injEq] at h
    obtain ⟨⟨qs, r'⟩, hq, _, rfl⟩ := h
    have : r'.length < r.length := ih hq
    simp only [List.length_cons]; omega

/-- A token takes at least one character. -/
theorem length_nextToken {cs rest : List Char} {t : Token} (h : nextToken cs = some (t, rest)) :
    rest.length < cs.length := by
  unfold nextToken at h
  split at h
  case h_10 =>
    simp only [Option.map_eq_some_iff, Prod.exists, Prod.mk.injEq] at h
    obtain ⟨_, _, hp, _, rfl⟩ := h
    have := length_pieces hp
    simp only [List.length_cons]; omega
  case h_11 =>
    simp only [Option.map_eq_some_iff, Prod.exists, Prod.mk.injEq] at h
    obtain ⟨_, _, hn, _, rfl⟩ := h
    exact Numeral.length_scan hn
  all_goals
    simp only [Option.some.injEq, Prod.mk.injEq] at h
    simp only [← h.2, List.length_cons]
    omega

/-- The blanks between tokens. -/
def isBlank (c : Char) : Bool := c = ' ' || c = '\t' || c = '\n' || c = '\r'

/-- The tokens of a text, up to the first place where none begins. -/
def tokens (cs : List Char) : List Token :=
  match cs with
  | [] => []
  | c :: rest =>
    if isBlank c then tokens rest
    else
      match h : nextToken (c :: rest) with
      | none => [.stray]
      | some (t, after) =>
        have := length_nextToken h
        t :: tokens after
termination_by cs.length
decreasing_by
  · exact Nat.lt_succ_self _
  · exact this

end ModifierFacts.Json
