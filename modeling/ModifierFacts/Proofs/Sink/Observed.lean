import ModifierFacts.Sink.Basic

/-!
# Sinks under observation

`FactSink.observed` keeps, beside the state of a sink, the log of the calls that reached it and of
its replies, and replies as the sink does. A statement about the log of an observed sink, made for
every sink, speaks of every way to accept and refuse calls, also one that depends on all earlier
calls.

* `FactSink.Accepting`: the sink accepts every call; `FactSink.Returns`: no call crashes it.
* `SinkLog.AllAccepted`: no call was refused; `SinkLog.ofFacts`: the log of facts that were all
  accepted.
* `SinkLog.taken`: the facts that were accepted, which are those the sink holds; `SinkLog.offered`:
  all facts that calls brought, accepted or not.
-/

namespace ModifierFacts

/-- A call and the reply to it, one after the other. -/
abbrev SinkLog := List (SinkCall × Reply)

/-- The state of a sink, and what reached it so far. -/
structure Observed (σ : Type) where
  state : σ
  log : SinkLog := []

namespace FactSink

variable {σ : Type}

/-- The sink with a log of its calls and replies. -/
def observed (sink : FactSink σ) : FactSink (Observed σ) where
  reply s call :=
    let (reply, state) := sink.reply s.state call
    (reply, ⟨state, s.log ++ [(call, reply)]⟩)

/-- Every call is accepted. -/
def Accepting (sink : FactSink σ) : Prop := ∀ s call, (sink.reply s call).1 = .accepted

/-- Every call returns: it is accepted or refused. -/
def Returns (sink : FactSink σ) : Prop := ∀ s call, (sink.reply s call).1 ≠ .crashed

theorem log_observed_reply (sink : FactSink σ) (s : Observed σ) (call : SinkCall) :
    (sink.observed.reply s call).2.log = s.log ++ [(call, (sink.observed.reply s call).1)] := rfl

theorem Accepting.observed {sink : FactSink σ} (h : sink.Accepting) : sink.observed.Accepting :=
  fun s call => h s.state call

theorem Returns.observed {sink : FactSink σ} (h : sink.Returns) : sink.observed.Returns :=
  fun s call => h s.state call

theorem Accepting.returns {sink : FactSink σ} (h : sink.Accepting) : sink.Returns := by
  intro s call hc
  rw [h s call] at hc
  cases hc

theorem memory_accepting : memory.Accepting := by
  intro s call
  cases call <;> rfl

theorem Returns.guarded {sink : FactSink σ} (h : sink.Returns)
    (refusal : SinkCall → Option FactError) : (guarded refusal sink).Returns := by
  intro s call hc
  unfold FactSink.guarded at hc
  cases hr : refusal call with
  | some e =>
    simp only [hr] at hc
    cases hc
  | none =>
    simp only [hr] at hc
    exact h s call hc

end FactSink

namespace SinkLog

/-- No call was refused. -/
def AllAccepted (log : SinkLog) : Prop := ∀ entry ∈ log, entry.2 = .accepted

theorem allAccepted_nil : AllAccepted [] := fun _ h => nomatch h

theorem allAccepted_concat (log : SinkLog) (c : SinkCall) (r : Reply) :
    AllAccepted (log ++ [(c, r)]) ↔ AllAccepted log ∧ r = .accepted := by
  unfold AllAccepted
  rw [List.forall_mem_append, List.forall_mem_singleton]

/-- The log of facts that were all accepted. -/
def ofFacts (facts : List Fact) : SinkLog := facts.map fun f => (.record f, .accepted)

theorem ofFacts_append (fs gs : List Fact) : ofFacts (fs ++ gs) = ofFacts fs ++ ofFacts gs :=
  List.map_append

theorem ofFacts_append_eq_self_iff (fs gs : List Fact) : ofFacts (fs ++ gs) = ofFacts fs ↔ gs = [] := by
  rw [ofFacts_append, List.append_right_eq_self, ofFacts, List.map_eq_nil_iff]

/-- The fact that an entry of a log brought into the sink. -/
def takenFact? : SinkCall × Reply → Option Fact
  | (.record f, .accepted) => some f
  | _ => none

/-- The facts that the sink accepted, in order of arrival. -/
def taken (log : SinkLog) : List Fact := log.filterMap takenFact?

theorem taken_append (l m : SinkLog) : taken (l ++ m) = taken l ++ taken m :=
  List.filterMap_append

theorem taken_ofFacts (fs : List Fact) : taken (ofFacts fs) = fs := by
  unfold taken ofFacts
  rw [List.filterMap_map]
  exact List.filterMap_some

theorem mem_taken {log : SinkLog} {f : Fact} : f ∈ log.taken ↔ (.record f, .accepted) ∈ log := by
  unfold taken
  rw [List.mem_filterMap]
  constructor
  · rintro ⟨⟨_ | _, _ | _ | _⟩, hmem, hf⟩ <;> cases hf
    exact hmem
  · exact fun h => ⟨_, h, rfl⟩

/-- The fact that a call brought, whatever became of it. -/
def offeredFact? : SinkCall × Reply → Option Fact
  | (.record f, _) => some f
  | (.flush, _) => none

/-- The facts that were offered to the sink, accepted or not, in order. -/
def offered (log : SinkLog) : List Fact := log.filterMap offeredFact?

theorem offered_append (l m : SinkLog) : offered (l ++ m) = offered l ++ offered m :=
  List.filterMap_append

theorem offered_ofFacts (fs : List Fact) : offered (ofFacts fs) = fs := by
  unfold offered ofFacts
  rw [List.filterMap_map]
  exact List.filterMap_some

theorem mem_offered {log : SinkLog} {f : Fact} : f ∈ log.offered ↔ ∃ r, (.record f, r) ∈ log := by
  unfold offered
  rw [List.mem_filterMap]
  constructor
  · rintro ⟨⟨_ | _, r⟩, hmem, hf⟩ <;> cases hf
    exact ⟨r, hmem⟩
  · exact fun ⟨r, h⟩ => ⟨_, h, rfl⟩

end SinkLog

end ModifierFacts
