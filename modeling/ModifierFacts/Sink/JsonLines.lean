import ModifierFacts.Fact.Json
import ModifierFacts.Sink.ByteWriter
import ModifierFacts.Text.ByteOrder

/-!
# Facts as lines of a file

Each fact is one line, a document without blanks and a line feed. A buffer may hold the lines back
until the sink is flushed. If the writer crashes in the middle of a call, the sink is poisoned: what
was written of that line cannot be trusted, so every later call is refused.
-/

namespace ModifierFacts

/-- The bytes of a fact's line. -/
def Fact.line (fact : Fact) : List UInt8 := Text.bytes (fact.toJson.toText ++ "\n")

/-- The state of a sink that writes lines. -/
structure JsonLines where
  writer : ByteWriter := {}
  /-- The lines held back, the last one first, if the sink holds any back. -/
  pending : Option (List (List UInt8)) := none
  poisoned : Bool := false
  deriving DecidableEq, Repr

namespace JsonLines

/-- The bytes held back. -/
def held (s : JsonLines) : List UInt8 := (s.pending.getD []).reverse.flatten

/-- A reply of the writer; a crash poisons the sink. -/
def settle (s : JsonLines) (reply : Reply) : Reply × JsonLines :=
  (reply, { s with poisoned := s.poisoned || reply == .crashed })

/-- Takes a fact. -/
def record (s : JsonLines) (fact : Fact) : Reply × JsonLines :=
  match s.pending with
  | some lines => (.accepted, { s with pending := some (fact.line :: lines) })
  | none =>
    let (reply, _, writer) := s.writer.write fact.line
    settle { s with writer } reply

/-- Writes what was held back, then flushes the writer. What could not be written stays. -/
def flush (s : JsonLines) : Reply × JsonLines :=
  let (reply, rest, writer) := s.writer.write s.held
  let s := { s with writer, pending := s.pending.map fun _ => [rest] }
  match reply with
  | .accepted =>
    let (reply, writer) := s.writer.flush
    settle { s with writer } reply
  | reply => settle s reply

/-- The writer at the end, unless the sink was poisoned. -/
def intoWriter (s : JsonLines) : Except FactError ByteWriter :=
  if s.poisoned then .error .poisoned else .ok s.writer

end JsonLines

/-- The sink that writes lines. -/
def FactSink.jsonLines : FactSink JsonLines where
  reply s call :=
    if s.poisoned then (.refused .poisoned, s)
    else
      match call with
      | .record fact => s.record fact
      | .flush => s.flush

end ModifierFacts
