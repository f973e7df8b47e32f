import ModifierFacts.CommandLine.Execute
import ModifierFacts.Proofs.Fact.Line
import ModifierFacts.Proofs.Sink.Alike

/-!
# The sink of lines keeps what the memory keeps

Over a writer that never fails the sink of lines accepts every call, as the memory does, and the
lines it wrote and those it holds back are the lines of the facts in the memory.

* `JsonLines.Unfailing`: neither the writer nor the sink stands in the way of a call;
* `JsonLines.Lists`: such a sink has the lines of these facts, in this order;
* `FactSink.jsonLines_alike_memory`: it behaves like the memory that holds them;
* **`FactSink.feed_jsonLines`**: after any calls its text is cut into lines that are read back as
  the facts in the memory after the same calls.
-/

namespace ModifierFacts

open CommandLine (contentOf)

namespace JsonLines

/-- The writer takes everything, and nothing has gone wrong so far. -/
structure Unfailing (s : JsonLines) : Prop where
  room : s.writer.room = none
  flushing : s.writer.flushFails = false
  sound : s.poisoned = false

/-- The sink has taken these facts: their lines were written or are held back. -/
structure Lists (s : JsonLines) (facts : List Fact) : Prop extends Unfailing s where
  content : contentOf s = facts.flatMap Fact.line

namespace Unfailing

variable {s : JsonLines}

theorem write (h : s.Unfailing) (bytes : List UInt8) :
    s.writer.write bytes =
      (.accepted, [], { s.writer with written := s.writer.written ++ bytes }) := by
  simp only [ByteWriter.write, h.room]

/-- A sink that holds nothing back writes the line. -/
theorem record_none (h : s.Unfailing) (hs : s.pending = none) (f : Fact) :
    s.record f = (.accepted,
      { s with writer := { s.writer with written := s.writer.written ++ f.line } }) := by
  simp only [record, hs, h.write, settle, h.sound]
  rfl

/-- A flush writes what was held back. -/
theorem flush (h : s.Unfailing) :
    s.flush = (.accepted,
      { s with
        writer := { s.writer with
          written := s.writer.written ++ s.held
          flushes := s.writer.flushes + 1 }
        pending := s.pending.map fun _ => [[]] }) := by
  simp only [JsonLines.flush, h.write, ByteWriter.flush, h.flushing, settle, h.sound]
  rfl

end Unfailing

namespace Lists

variable {s : JsonLines} {facts : List Fact}

theorem record (h : s.Lists facts) (f : Fact) :
    (s.record f).1 = .accepted ∧ (s.record f).2.Lists (facts ++ [f]) := by
  have hfacts : (facts ++ [f]).flatMap Fact.line = contentOf s ++ f.line := by
    rw [List.flatMap_append, List.flatMap_singleton, h.content]
  cases hs : s.pending with
  | some lines =>
    have hrecord : s.record f = (.accepted, { s with pending := some (f.line :: lines) }) := by
      rw [JsonLines.record, hs]
    rw [hrecord]
    refine ⟨rfl, ⟨h.room, h.flushing, h.sound⟩, ?_⟩
    rw [hfacts]
    simp [contentOf, held, hs]
  | none =>
    rw [h.record_none hs]
    refine ⟨rfl, ⟨h.room, h.flushing, h.sound⟩, ?_⟩
    rw [hfacts]
    simp [contentOf, held, hs]

theorem flush (h : s.Lists facts) : s.flush.1 = .accepted ∧ s.flush.2.Lists facts := by
  rw [h.toUnfailing.flush]
  refine ⟨rfl, ⟨h.room, h.flushing, h.sound⟩, ?_⟩
  rw [← h.content]
  cases hs : s.pending <;> simp [contentOf, held, hs]

end Lists

end JsonLines

namespace FactSink

/-- **The sink of lines behaves like the memory.** -/
theorem jsonLines_alike_memory : jsonLines.Alike memory JsonLines.Lists := by
  intro s facts h call
  have hsound : ¬ s.poisoned = true := by simp [h.sound]
  cases call with
  | record fact =>
    have hreply : jsonLines.reply s (.record fact) = s.record fact := if_neg hsound
    rw [hreply]
    exact h.record fact
  | flush =>
    have hreply : jsonLines.reply s .flush = s.flush := if_neg hsound
    rw [hreply]
    exact h.flush

/-- **The text of the lines is read back as what the memory keeps.** -/
theorem feed_jsonLines {s : JsonLines} (hs : s.Unfailing) (hempty : contentOf s = [])
    (calls : List SinkCall) :
    let facts := (memory.feed [] calls).2
    let ending := jsonLines.feed s calls
    ending.1 = (calls.map fun _ => .accepted) ∧
      ∃ text, (File.bytes (contentOf ending.2)).text = .ok text ∧
        text = String.join (facts.map fun f => f.toJson.toText ++ "\n") ∧
        text.toList.count '\n' = facts.length ∧
        (Text.lines text).map (Json.decode Fact.reader) = facts.map .ok := by
  have hlists : s.Lists [] := ⟨hs, hempty⟩
  obtain ⟨hreplies, hend⟩ := jsonLines_alike_memory.feed hlists calls
  refine ⟨hreplies.trans (memory_accepting.feed [] calls), Fact.sheet _, ?_, rfl, ?_, ?_⟩
  · rw [hend.content, Fact.text_flatMap_line]
  · exact Fact.count_newline_sheet _
  · exact Fact.decode_lines_sheet _

/-- A name of nothing but characters that could break a line or a text literal, under the greatest
identifier. -/
theorem feed_jsonLines_escapes :
    let fact : Fact := .modifiers ⟨18446744073709551615⟩ "\"\\\n\r\x00"
    let edge : Fact := .hasModifiers ⟨0⟩ ⟨18446744073709551615⟩
    let ending := jsonLines.feed {} [.record fact, .record edge]
    ∃ text, (File.bytes (contentOf ending.2)).text = .ok text ∧ text.toList.count '\n' = 2 ∧
      (Text.lines text).map (Json.decode Fact.reader) = [.ok fact, .ok edge] := by
  intro fact edge ending
  obtain ⟨-, text, hread, -, hcount, hlines⟩ :=
    feed_jsonLines (s := {}) ⟨rfl, rfl, rfl⟩ rfl [.record fact, .record edge]
  exact ⟨text, hread, hcount, hlines⟩

end FactSink

end ModifierFacts
