import ModifierFacts.Sink.Basic

/-!
# Byte writers

The destination of written bytes. It may be full: it then takes as much of a write as still fits and
fails, or crashes. Its flush may fail.
-/

namespace ModifierFacts

/-- What happens when bytes do not fit. -/
inductive Overflow where
  | fails
  | crashes
  deriving DecidableEq, Repr

/-- A destination of bytes. -/
structure ByteWriter where
  /-- How many more bytes it takes; `none` is without limit. -/
  room : Option Nat := none
  overflow : Overflow := .fails
  flushFails : Bool := false
  written : Array UInt8 := #[]
  /-- The number of flushes that succeeded. -/
  flushes : Nat := 0
  deriving DecidableEq, Repr

namespace ByteWriter

/-- The reply to a write that does not fit. -/
def overflowReply (w : ByteWriter) : Reply :=
  match w.overflow with
  | .fails => .refused (.io "disk full")
  | .crashes => .crashed

/-- Writes bytes. What does not fit is returned. -/
def write (w : ByteWriter) (bytes : List UInt8) : Reply × List UInt8 × ByteWriter :=
  match w.room with
  | none => (.accepted, [], { w with written := w.written ++ bytes })
  | some room =>
    let rest := bytes.drop room
    let w' := { w with
      room := some (room - bytes.length)
      written := w.written ++ bytes.take room }
    (if rest.isEmpty then .accepted else w.overflowReply, rest, w')

/-- Flushes the destination. -/
def flush (w : ByteWriter) : Reply × ByteWriter :=
  if w.flushFails then (.refused (.io "flush failed"), w)
  else (.accepted, { w with flushes := w.flushes + 1 })

end ByteWriter

end ModifierFacts
