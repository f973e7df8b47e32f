import ModifierFacts.Proofs.Sink.Observed

/-!
# Sinks that behave alike

Two sinks with states of different types can be indistinguishable from outside: as long as their
states are related, they give the same reply to the same call.

* `FactSink.Alike`: the sinks behave alike along a relation of their states;
* `FactSink.feed`: a sequence of calls, with the replies; `Alike.feed`: it keeps the relation;
* `alike_observed`: a sink behaves like the observed one.
-/

namespace ModifierFacts.FactSink

variable {σ τ : Type}

/-- In related states the two sinks give the same reply to a call and go on to related states. -/
def Alike (sink : FactSink σ) (sink' : FactSink τ) (R : σ → τ → Prop) : Prop :=
  ∀ s t, R s t → ∀ call,
    (sink.reply s call).1 = (sink'.reply t call).1 ∧
      R (sink.reply s call).2 (sink'.reply t call).2

/-- Calls a sink many times. The replies come in order, with the state at the end. -/
def feed (sink : FactSink σ) (s : σ) : List SinkCall → List Reply × σ
  | [] => ([], s)
  | call :: calls =>
    let (reply, s) := sink.reply s call
    let (replies, s) := sink.feed s calls
    (reply :: replies, s)

variable {sink : FactSink σ} {sink' : FactSink τ} {R : σ → τ → Prop}

/-- **Sinks that behave alike do so under every sequence of calls.** -/
theorem Alike.feed (h : sink.Alike sink' R) {s : σ} {t : τ} (hst : R s t) (calls : List SinkCall) :
    (sink.feed s calls).1 = (sink'.feed t calls).1 ∧
      R (sink.feed s calls).2 (sink'.feed t calls).2 := by
  induction calls generalizing s t with
  | nil => exact ⟨rfl, hst⟩
  | cons call calls ih =>
    obtain ⟨hreply, hnext⟩ := h s t hst call
    obtain ⟨hreplies, hend⟩ := ih hnext
    refine ⟨?_, hend⟩
    show _ :: _ = _ :: _
    rw [hreply, hreplies]

theorem Accepting.feed (h : sink.Accepting) (s : σ) (calls : List SinkCall) :
    (sink.feed s calls).1 = calls.map fun _ => .accepted := by
  induction calls generalizing s with
  | nil => rfl
  | cons call calls ih =>
    show _ :: _ = _ :: _
    rw [h s call, ih]

/-- A sink that gives the same reply to each of these calls, and stays as it is. -/
theorem feed_of_stays {s : σ} {r : Reply} {calls : List SinkCall}
    (h : ∀ call ∈ calls, sink.reply s call = (r, s)) :
    sink.feed s calls = (calls.map fun _ => r, s) := by
  induction calls with
  | nil => rfl
  | cons call calls ih =>
    have hcall := h call List.mem_cons_self
    have hcalls := ih fun c hc => h c (List.mem_cons_of_mem _ hc)
    simp only [FactSink.feed, hcall, hcalls]
    rfl

/-- A sink behaves like the observed one. -/
theorem alike_observed (sink : FactSink σ) : sink.observed.Alike sink fun o s => o.state = s := by
  rintro o s rfl call
  exact ⟨rfl, rfl⟩

end ModifierFacts.FactSink
