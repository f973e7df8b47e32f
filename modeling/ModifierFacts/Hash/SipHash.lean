/-!
# SipHash with one compression and three finalisation rounds

A 64-bit hash of a byte string under the key zero. Entity identifiers are made with it, so it fixes
a number that is written to the output; it is not meant to keep anything secret.

* `SipHash.State` is the four-word state, `round` its mixing step.
* `SipHash.absorb` takes in the input eight bytes at a time, lowest byte first; what is left over is
  closed by `lastWord`, which carries the length of the input in its top byte.
* `SipHash.hash` is the digest.
-/

namespace ModifierFacts.SipHash

/-! ## 1. The state and its mixing step -/

/-- The four words of the hash state. -/
structure State where
  v0 : UInt64
  v1 : UInt64
  v2 : UInt64
  v3 : UInt64
  deriving DecidableEq, Repr

/-- Rotation of a word to the left, for an amount between 1 and 63. -/
def rotateLeft (x : UInt64) (amount : UInt64) : UInt64 :=
  (x <<< amount) ||| (x >>> (64 - amount))

/-- One round: additions, rotations and exclusive ors across the four words. -/
def round (s : State) : State :=
  let v0 := s.v0 + s.v1
  let v1 := rotateLeft s.v1 13 ^^^ v0
  let v0 := rotateLeft v0 32
  let v2 := s.v2 + s.v3
  let v3 := rotateLeft s.v3 16 ^^^ v2
  let v0 := v0 + v3
  let v3 := rotateLeft v3 21 ^^^ v0
  let v2 := v2 + v1
  let v1 := rotateLeft v1 17 ^^^ v2
  let v2 := rotateLeft v2 32
  ⟨v0, v1, v2, v3⟩

/-- The state before any input, under the key zero. -/
def initial : State :=
  ⟨0x736f6d6570736575, 0x646f72616e646f6d, 0x6c7967656e657261, 0x7465646279746573⟩

/-- Takes one word in: it is mixed into the last state word before the round, and into the first
one after it. -/
def compress (s : State) (word : UInt64) : State :=
  let s := round { s with v3 := s.v3 ^^^ word }
  { s with v0 := s.v0 ^^^ word }

/-- Three rounds after the end mark, then the exclusive or of all words. -/
def finish (s : State) : UInt64 :=
  let s := round (round (round { s with v2 := s.v2 ^^^ 0xff }))
  s.v0 ^^^ s.v1 ^^^ s.v2 ^^^ s.v3

/-! ## 2. The input -/

/-- A word out of at most eight bytes, lowest byte first. -/
def littleEndian (bytes : List UInt8) : UInt64 :=
  bytes.foldr (fun b word => (word <<< 8) ||| b.toUInt64) 0

/-- The closing word: the bytes left over (fewer than eight), with the length of the whole input,
modulo 256, in the top byte. -/
def lastWord (rest : List UInt8) (length : Nat) : UInt64 :=
  littleEndian rest ||| (UInt64.ofNat (length % 256) <<< 56)

/-- Takes the input in, word by word, and closes it. -/
def absorb (length : Nat) : List UInt8 → State → State
  | b0 :: b1 :: b2 :: b3 :: b4 :: b5 :: b6 :: b7 :: rest, s =>
    absorb length rest (compress s (littleEndian [b0, b1, b2, b3, b4, b5, b6, b7]))
  | rest, s => compress s (lastWord rest length)

/-- The digest of a byte string. -/
def hash (bytes : List UInt8) : UInt64 :=
  finish (absorb bytes.length bytes initial)

end ModifierFacts.SipHash
