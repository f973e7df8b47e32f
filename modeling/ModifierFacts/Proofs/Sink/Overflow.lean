import ModifierFacts.Proofs.Sink.Alike
import ModifierFacts.Proofs.Text.Bytes
import ModifierFacts.Sink.JsonLines

/-!
# Lines into a destination that fills up

A destination with room for some bytes takes the first ones that come and no more, however they are
cut into pieces. The line at which it is full is written in part, and the calls after it leave no
trace: a destination that fails refuses each of them, and one that crashed poisons the sink.

* `ByteWriter.takes`, `ByteWriter.HasRoom`: what a destination takes of some bytes, and whether that
  is all of them;
* `ByteWriter.write_append`: pieces written one after the other are written as one;
* `JsonLines.Received`: the sink has handed these bytes to its destination, and is poisoned if that
  crashed; `Received.record`: a call hands on the line of its fact;
* **`FactSink.feed_fillsUp`**: the bytes that are written, the calls that are accepted, and what
  follows the first one that does not fit.
-/

namespace ModifierFacts

/-! ## 1. The destination -/

namespace ByteWriter

/-- What a destination takes of some bytes. -/
def takes (w : ByteWriter) (bytes : List UInt8) : List UInt8 :=
  match w.room with
  | none => bytes
  | some room => bytes.take room

/-- Does it take all of them? -/
def HasRoom (w : ByteWriter) (bytes : List UInt8) : Prop :=
  ∀ room, w.room = some room → bytes.length ≤ room

variable (w : ByteWriter)

theorem hasRoom_nil : w.HasRoom [] := fun _ _ => Nat.zero_le _

theorem HasRoom.of_append {w : ByteWriter} {as bs : List UInt8} (h : w.HasRoom (as ++ bs)) :
    w.HasRoom as := by
  intro room hroom
  have hall := h room hroom
  rw [List.length_append] at hall
  omega

theorem exists_room_of_not_hasRoom {w : ByteWriter} {bytes : List UInt8} (h : ¬ w.HasRoom bytes) :
    ∃ room, w.room = some room ∧ room < bytes.length := by
  simp only [HasRoom, Classical.not_forall, Nat.not_le] at h
  obtain ⟨room, hroom, hlong⟩ := h
  exact ⟨room, hroom, hlong⟩

/-- The destination after a write. -/
theorem write_writer (bytes : List UInt8) :
    (w.write bytes).2.2 =
      { w with
        room := w.room.map (· - bytes.length)
        written := w.written ++ w.takes bytes } := by
  cases hroom : w.room with
  | none => simp only [write, takes, hroom, Option.map_none]
  | some room => simp only [write, takes, hroom, Option.map_some]

theorem write_reply_of_hasRoom {w : ByteWriter} {bytes : List UInt8} (h : w.HasRoom bytes) :
    (w.write bytes).1 = .accepted := by
  cases hroom : w.room with
  | none => simp only [write, hroom]
  | some room =>
    have hdrop : bytes.drop room = [] := List.drop_eq_nil_of_le (h room hroom)
    simp only [write, hroom, hdrop]
    rfl

theorem write_reply_of_not_hasRoom {w : ByteWriter} {bytes : List UInt8} (h : ¬ w.HasRoom bytes) :
    (w.write bytes).1 = w.overflowReply := by
  obtain ⟨room, hroom, hlong⟩ := exists_room_of_not_hasRoom h
  have hdrop : (bytes.drop room).isEmpty = false := by
    rw [List.isEmpty_eq_false_iff, ne_eq, List.drop_eq_nil_iff]
    omega
  simp only [write, hroom, hdrop]
  rfl

/-- **Pieces written one after the other are written as one**, so it does not matter whether a line
and its line feed are handed over together. -/
theorem write_append (as bs : List UInt8) :
    ((w.write as).2.2.write bs).2.2 = (w.write (as ++ bs)).2.2 := by
  have happend (xs ys : List UInt8) : w.written ++ xs ++ ys = w.written ++ (xs ++ ys) := by
    simp [← Array.toList_inj]
  rw [write_writer, write_writer, write_writer]
  cases hroom : w.room with
  | none => simp [takes, hroom, happend]
  | some room => simp [takes, hroom, happend, List.take_append, Nat.sub_sub]

/-- What is left of the room decides about a second piece as all of it does about both. -/
theorem hasRoom_write (as : List UInt8) {bs : List UInt8} (hbs : bs ≠ []) :
    (w.write as).2.2.HasRoom bs ↔ w.HasRoom (as ++ bs) := by
  have hpos : 0 < bs.length := List.length_pos_iff.mpr hbs
  rw [write_writer]
  unfold HasRoom
  cases hroom : w.room with
  | none => simp
  | some room =>
    simp only [Option.map_some, Option.some.injEq, forall_eq', List.length_append]
    omega

/-- A full destination takes nothing more. -/
theorem write_append_of_not_hasRoom {w : ByteWriter} {as : List UInt8} (h : ¬ w.HasRoom as)
    (bs : List UInt8) : (w.write (as ++ bs)).2.2 = (w.write as).2.2 := by
  obtain ⟨room, hroom, hlong⟩ := exists_room_of_not_hasRoom h
  have htake : (as ++ bs).take room = as.take room :=
    List.take_append_of_le_length (Nat.le_of_lt hlong)
  have hleft : room - (as ++ bs).length = room - as.length := by
    rw [List.length_append]
    omega
  rw [write_writer, write_writer]
  simp only [takes, hroom, htake, hleft, Option.map_some]

end ByteWriter

/-! ## 2. The sink of lines -/

theorem Fact.line_ne_nil (f : Fact) : f.line ≠ [] := by
  have hfeed : Text.bytes "\n" = [10] := by
    rw [Text.bytes_eq_data]
    rfl
  unfold Fact.line
  rw [Text.bytes_append, hfeed]
  exact List.append_ne_nil_of_right_ne_nil _ (List.cons_ne_nil _ _)

namespace JsonLines

/-- The sink, which holds nothing back, has handed these bytes to the destination `w`. It is poisoned
if the destination crashed over them. -/
structure Received (w : ByteWriter) (bytes : List UInt8) (s : JsonLines) : Prop where
  direct : s.pending = none
  writer : s.writer = (w.write bytes).2.2
  poisoned : s.poisoned = true ↔ w.overflow = .crashes ∧ ¬ w.HasRoom bytes

variable {w : ByteWriter} {bytes : List UInt8} {s : JsonLines}

theorem received_nil (w : ByteWriter) : Received w [] { writer := w } := by
  refine ⟨rfl, ?_, ?_⟩
  · rw [ByteWriter.write_writer]
    cases w with
    | mk room overflow flushFails written flushes =>
      cases room <;> simp [ByteWriter.takes]
  · simp [ByteWriter.hasRoom_nil]

/-- A poisoned sink refuses every call and stays as it is. -/
theorem reply_of_poisoned (h : s.poisoned = true) (call : SinkCall) :
    FactSink.jsonLines.reply s call = (.refused .poisoned, s) :=
  if_pos h

/-- A sink that is not poisoned takes the call. -/
theorem reply_of_sound (h : s.poisoned = false) (call : SinkCall) :
    FactSink.jsonLines.reply s call =
      match call with
      | .record f => s.record f
      | .flush => s.flush :=
  if_neg (by rw [h]; exact Bool.false_ne_true)

/-- A sink that holds nothing back and is not poisoned hands a line to its destination. -/
theorem reply_record (hdirect : s.pending = none) (hsound : s.poisoned = false) (f : Fact) :
    FactSink.jsonLines.reply s (.record f) =
      ((s.writer.write f.line).1,
        { s with
          writer := (s.writer.write f.line).2.2
          poisoned := (s.writer.write f.line).1 == .crashed }) := by
  rw [reply_of_sound hsound]
  simp only [record, hdirect, settle, hsound, Bool.false_or]

namespace Received

theorem not_poisoned (h : s.Received w bytes) (hok : w.overflow = .fails ∨ w.HasRoom bytes) :
    s.poisoned = false := by
  rw [← Bool.not_eq_true, h.poisoned]
  rintro ⟨hcrashes, hfull⟩
  rcases hok with hfails | hroom
  · rw [hfails] at hcrashes
    cases hcrashes
  · exact hfull hroom

theorem hasRoom_line (h : s.Received w bytes) (f : Fact) :
    s.writer.HasRoom f.line ↔ w.HasRoom (bytes ++ f.line) := by
  rw [h.writer]
  exact w.hasRoom_write bytes f.line_ne_nil

theorem overflowReply_eq (h : s.Received w bytes) : s.writer.overflowReply = w.overflowReply := by
  rw [h.writer, ByteWriter.write_writer]
  rfl

/-- A line for which there is room is accepted. -/
theorem reply_of_hasRoom (h : s.Received w bytes) {f : Fact} (hroom : w.HasRoom (bytes ++ f.line)) :
    (FactSink.jsonLines.reply s (.record f)).1 = .accepted := by
  rw [reply_record h.direct (h.not_poisoned (.inr hroom.of_append))]
  exact ByteWriter.write_reply_of_hasRoom ((h.hasRoom_line f).mpr hroom)

/-- A line for which there is no room gets the reply of the destination. -/
theorem reply_of_not_hasRoom (h : s.Received w bytes) (hsound : s.poisoned = false) {f : Fact}
    (hfull : ¬ w.HasRoom (bytes ++ f.line)) :
    (FactSink.jsonLines.reply s (.record f)).1 = w.overflowReply := by
  have hline : ¬ s.writer.HasRoom f.line := fun hroom => hfull ((h.hasRoom_line f).mp hroom)
  rw [reply_record h.direct hsound, ← h.overflowReply_eq]
  exact ByteWriter.write_reply_of_not_hasRoom hline

/-- **A call is accepted exactly if there is room for its whole line.** -/
theorem reply_accepted_iff (h : s.Received w bytes) (f : Fact) :
    (FactSink.jsonLines.reply s (.record f)).1 = .accepted ↔ w.HasRoom (bytes ++ f.line) := by
  refine ⟨fun haccepted => ?_, h.reply_of_hasRoom⟩
  by_cases hroom : w.HasRoom (bytes ++ f.line)
  · exact hroom
  · cases hpoisoned : s.poisoned with
    | true =>
      rw [reply_of_poisoned hpoisoned] at haccepted
      cases haccepted
    | false =>
      rw [h.reply_of_not_hasRoom hpoisoned hroom, ByteWriter.overflowReply] at haccepted
      cases hoverflow : w.overflow <;> rw [hoverflow] at haccepted <;> cases haccepted

/-- **A call hands on the line of its fact.** -/
theorem record (h : s.Received w bytes) (f : Fact) :
    (FactSink.jsonLines.reply s (.record f)).2.Received w (bytes ++ f.line) := by
  cases hpoisoned : s.poisoned with
  | true =>
    -- the crash is over: what the line would add, the full destination would not have taken
    obtain ⟨hcrashes, hfull⟩ := h.poisoned.mp hpoisoned
    have hmore : ¬ w.HasRoom (bytes ++ f.line) := fun hroom => hfull hroom.of_append
    rw [reply_of_poisoned hpoisoned]
    refine ⟨h.direct, ?_, ?_⟩
    · rw [ByteWriter.write_append_of_not_hasRoom hfull]
      exact h.writer
    · exact iff_of_true hpoisoned ⟨hcrashes, hmore⟩
  | false =>
    have hreply := reply_record h.direct hpoisoned f
    have hcrashed : (FactSink.jsonLines.reply s (.record f)).1 = .crashed ↔
        w.overflow = .crashes ∧ ¬ w.HasRoom (bytes ++ f.line) := by
      by_cases hroom : w.HasRoom (bytes ++ f.line)
      · rw [h.reply_of_hasRoom hroom]
        exact iff_of_false Reply.noConfusion fun hc => hc.2 hroom
      · rw [h.reply_of_not_hasRoom hpoisoned hroom, ByteWriter.overflowReply]
        cases w.overflow <;> simp [hroom]
    rw [hreply] at hcrashed ⊢
    refine ⟨h.direct, ?_, ?_⟩
    · show (s.writer.write f.line).2.2 = _
      rw [h.writer, ByteWriter.write_append]
    · rw [← hcrashed]
      exact beq_iff_eq

/-- **Calls hand on the lines of their facts.** -/
theorem feed (h : s.Received w bytes) (facts : List Fact) :
    (FactSink.jsonLines.feed s (facts.map .record)).2.Received w
      (bytes ++ facts.flatMap Fact.line) := by
  induction facts generalizing bytes s with
  | nil =>
    rw [List.flatMap_nil, List.append_nil]
    exact h
  | cons f facts ih =>
    rw [List.flatMap_cons, ← List.append_assoc]
    exact ih (h.record f)

/-- A sink over a full destination that fails refuses each line and stays as it is. -/
theorem reply_of_full (h : s.Received w bytes) (hfails : w.overflow = .fails)
    (hfull : ¬ w.HasRoom bytes) (f : Fact) :
    FactSink.jsonLines.reply s (.record f) = (.refused (.io "disk full"), s) := by
  have hsound : s.poisoned = false := h.not_poisoned (.inl hfails)
  have hmore : ¬ w.HasRoom (bytes ++ f.line) := fun hroom => hfull hroom.of_append
  have hreply : (FactSink.jsonLines.reply s (.record f)).1 = .refused (.io "disk full") := by
    rw [h.reply_of_not_hasRoom hsound hmore, ByteWriter.overflowReply, hfails]
  have hwriter : (s.writer.write f.line).2.2 = s.writer := by
    rw [h.writer, ByteWriter.write_append, ByteWriter.write_append_of_not_hasRoom hfull]
  rw [reply_record h.direct hsound] at hreply ⊢
  have hstate : ({ s with poisoned := false } : JsonLines) = s := by rw [← hsound]
  rw [hreply, hwriter]
  exact congrArg (Prod.mk _) hstate

/-- A sink over a destination that fails gives it back. -/
theorem intoWriter_of_fails (h : s.Received w bytes) (hfails : w.overflow = .fails) :
    s.intoWriter = .ok s.writer := by
  have hsound : s.poisoned = false := h.not_poisoned (.inl hfails)
  exact if_neg (by rw [hsound]; exact Bool.false_ne_true)

/-- The destination is full and fails: this line and all later ones are refused. -/
theorem cut_of_fails (h : s.Received w bytes) (hfails : w.overflow = .fails) {f : Fact}
    (hfull : ¬ w.HasRoom (bytes ++ f.line)) :
    let cut := FactSink.jsonLines.reply s (.record f)
    cut.1 = .refused (.io "disk full") ∧ cut.2.intoWriter = .ok cut.2.writer ∧
      ∀ later : List Fact,
        FactSink.jsonLines.feed cut.2 (later.map .record) =
          (later.map fun _ => .refused (.io "disk full"), cut.2) := by
  intro cut
  have hcut : cut.2.Received w (bytes ++ f.line) := h.record f
  refine ⟨?_, hcut.intoWriter_of_fails hfails, fun later => ?_⟩
  · rw [h.reply_of_not_hasRoom (h.not_poisoned (.inl hfails)) hfull, ByteWriter.overflowReply, hfails]
  · have hstays : ∀ call ∈ later.map SinkCall.record,
        FactSink.jsonLines.reply cut.2 call = (.refused (.io "disk full"), cut.2) := by
      intro call hcall
      obtain ⟨g, -, hg⟩ := List.mem_map.mp hcall
      rw [← hg]
      exact hcut.reply_of_full hfails hfull g
    rw [FactSink.feed_of_stays hstays, List.map_map]
    rfl

/-- The destination crashes over this line: all later calls are refused by the poisoned sink. -/
theorem cut_of_crashes (h : s.Received w bytes) (hcrashes : w.overflow = .crashes)
    (hfits : w.HasRoom bytes) {f : Fact} (hfull : ¬ w.HasRoom (bytes ++ f.line)) :
    let cut := FactSink.jsonLines.reply s (.record f)
    cut.1 = .crashed ∧ cut.2.intoWriter = .error .poisoned ∧
      ∀ later : List SinkCall,
        FactSink.jsonLines.feed cut.2 later = (later.map fun _ => .refused .poisoned, cut.2) := by
  intro cut
  have hpoisoned : cut.2.poisoned = true := (h.record f).poisoned.mpr ⟨hcrashes, hfull⟩
  refine ⟨?_, if_pos hpoisoned, fun later => ?_⟩
  · rw [h.reply_of_not_hasRoom (h.not_poisoned (.inr hfits)) hfull, ByteWriter.overflowReply,
      hcrashes]
  · exact FactSink.feed_of_stays fun call _ => reply_of_poisoned hpoisoned call

end Received

theorem settle_of_refused {s : JsonLines} {r : Reply} {e : FactError} (hsound : s.poisoned = false)
    (h : (s.settle r).1 = .refused e) : (s.settle r).2.poisoned = false := by
  have hr : r = .refused e := h
  rw [hr, settle, hsound]
  rfl

/-- **An error of the destination poisons no sink**, at a record or at a flush. -/
theorem not_poisoned_of_io {s : JsonLines} {call : SinkCall} {reason : String}
    (h : (FactSink.jsonLines.reply s call).1 = .refused (.io reason)) :
    (FactSink.jsonLines.reply s call).2.poisoned = false := by
  cases hsound : s.poisoned with
  | true =>
    rw [reply_of_poisoned hsound] at h
    cases h
  | false =>
    rw [reply_of_sound hsound] at h ⊢
    cases call with
    | record f =>
      cases hpending : s.pending with
      | some lines =>
        simp only [JsonLines.record, hpending] at h
        cases h
      | none =>
        simp only [JsonLines.record, hpending] at h ⊢
        exact settle_of_refused hsound h
    | flush =>
      cases hwrite : (s.writer.write s.held).1 <;> simp only [JsonLines.flush, hwrite] at h ⊢ <;>
        exact settle_of_refused hsound h

end JsonLines

/-! ## 3. The destination fills up -/

namespace FactSink

open JsonLines

/-- **What reaches a destination that fills up, and what the sink says.** The destination has room
for `n` more bytes. After any facts:
* it holds the first `n` bytes of what a destination without limit gets;
* the next call is accepted exactly if its whole line, with the line feed, lies within these;
* if the destination fails, a line that does not fit is refused with the error of the destination,
  and so is every later one, which changes nothing any more; the sink gives its destination back;
* if the destination crashes, the first line that does not fit crashes the call; afterwards every
  record and every flush is refused by the poisoned sink and changes nothing, and the destination is
  not given back;
* no call that ends with an error of its destination poisons a sink, whatever the sink's state. -/
theorem feed_fillsUp (w : ByteWriter) (n : Nat) (facts : List Fact) :
    let limited : JsonLines := { writer := { w with room := some n } }
    let unlimited : JsonLines := { writer := { w with room := none } }
    let s := (jsonLines.feed limited (facts.map .record)).2
    let output := facts.flatMap Fact.line
    (jsonLines.feed unlimited (facts.map .record)).2.writer.written = w.written ++ output ∧
      s.writer.written = w.written ++ output.take n ∧
      (∀ f, (jsonLines.reply s (.record f)).1 = .accepted ↔ (output ++ f.line).length ≤ n) ∧
      (w.overflow = .fails →
        s.intoWriter = .ok s.writer ∧
          ∀ f, n < (output ++ f.line).length →
            let cut := jsonLines.reply s (.record f)
            cut.1 = .refused (.io "disk full") ∧ cut.2.intoWriter = .ok cut.2.writer ∧
              ∀ later : List Fact,
                jsonLines.feed cut.2 (later.map .record) =
                  (later.map fun _ => .refused (.io "disk full"), cut.2)) ∧
      (w.overflow = .crashes → output.length ≤ n →
        ∀ f, n < (output ++ f.line).length →
          let cut := jsonLines.reply s (.record f)
          cut.1 = .crashed ∧ cut.2.intoWriter = .error .poisoned ∧
            ∀ later : List SinkCall,
              jsonLines.feed cut.2 later = (later.map fun _ => .refused .poisoned, cut.2)) ∧
      ∀ (t : JsonLines) call reason, (jsonLines.reply t call).1 = .refused (.io reason) →
        (jsonLines.reply t call).2.poisoned = false := by
  intro limited unlimited s output
  have hfree := (received_nil { w with room := none }).feed facts
  have hs := (received_nil { w with room := some n }).feed facts
  have hroom (bytes : List UInt8) :
      ({ w with room := some n } : ByteWriter).HasRoom bytes ↔ bytes.length ≤ n := by
    simp [ByteWriter.HasRoom]
  have hcut {f : Fact} (h : n < (output ++ f.line).length) :
      ¬ ({ w with room := some n } : ByteWriter).HasRoom (output ++ f.line) := by
    rw [hroom]
    omega
  refine ⟨?_, ?_, fun f => ?_, fun hfails => ⟨hs.intoWriter_of_fails hfails, fun f h => ?_⟩,
    fun hcrashes hfits f h => ?_, fun t call reason => not_poisoned_of_io⟩
  · rw [hfree.writer, ByteWriter.write_writer]
    rfl
  · rw [hs.writer, ByteWriter.write_writer]
    rfl
  · exact (hs.reply_accepted_iff f).trans (hroom _)
  · exact hs.cut_of_fails hfails (hcut h)
  · exact hs.cut_of_crashes hcrashes ((hroom output).mpr hfits) (hcut h)

/-- A destination that crashes has room for one line and for all of the next but its line feed: the
second call crashes, and a flush after it finds the sink poisoned. -/
theorem feed_fillsUp_lineFeed :
    let f : Fact := .modifiers ⟨18446744073709551615⟩ "\"\n"
    let n := f.line.length + f.line.length - 1
    let limited : JsonLines := { writer := { room := some n, overflow := .crashes } }
    let s := (jsonLines.feed limited [.record f]).2
    let cut := jsonLines.reply s (.record f)
    f.line.length ≤ n ∧ n < (f.line ++ f.line).length ∧
      s.writer.written = (#[] : Array UInt8) ++ f.line.take n ∧ cut.1 = .crashed ∧
      jsonLines.feed cut.2 [.flush, .record f] =
        ([.refused .poisoned, .refused .poisoned], cut.2) := by
  intro f n limited s cut
  have hpos : 0 < f.line.length := List.length_pos_iff.mpr f.line_ne_nil
  have hfits : ([f].flatMap Fact.line).length ≤ n := by
    rw [List.flatMap_singleton]
    omega
  have hcut : n < ([f].flatMap Fact.line ++ f.line).length := by
    rw [List.flatMap_singleton, List.length_append]
    omega
  obtain ⟨-, hwritten, -, -, hcrashes, -⟩ := feed_fillsUp { overflow := .crashes } n [f]
  obtain ⟨hcrashed, -, hlater⟩ := hcrashes rfl hfits f hcut
  rw [List.flatMap_singleton] at hfits hcut hwritten
  exact ⟨hfits, hcut, hwritten, hcrashed, hlater [.flush, .record f]⟩

end FactSink

end ModifierFacts
