import ModifierFacts.Proofs.Extraction.Alike

/-!
# Watching changes nothing

An operation over an observed sink does what it does over the sink itself, and keeps a log beside.
So what is said about logs, for observed sinks, is said about the operations as they run.

* `Context.watched`, `Context.unwatched`: from a context to the observed one, and back;
* **`Context.run_watched`**: a run over the observed sink does what the run does;
* **`Context.performAll_watched`**: so does every sequence of requests.
-/

namespace ModifierFacts.Context

variable {σ : Type}

/-- The context over the observed sink, with an empty log. -/
def watched (cx : Context σ) : Context (Observed σ) :=
  { cx with sinkState := ⟨cx.sinkState, []⟩ }

/-- The context without the log. -/
def unwatched (cx : Context (Observed σ)) : Context σ :=
  { cx with sinkState := cx.sinkState.state }

theorem alike_watched (cx : Context σ) : cx.watched.Alike (fun o s => o.state = s) cx :=
  ⟨rfl, rfl, rfl, rfl, rfl⟩

theorem Alike.eq_unwatched {cx : Context (Observed σ)} {cy : Context σ}
    (h : cx.Alike (fun o s => o.state = s) cy) : cy = cx.unwatched := by
  obtain ⟨registry, state, entities, edges, classified⟩ := cy
  obtain ⟨rfl, rfl, rfl, rfl, rfl⟩ := h
  rfl

variable (sink : FactSink σ)

/-- **A run over the observed sink ends as the run over the sink does, in the same context.** -/
theorem run_watched (policy : FailurePolicy) (units : List CompilationUnit) (cx : Context σ) :
    run sink policy units cx =
      ((run sink.observed policy units cx.watched).1,
        (run sink.observed policy units cx.watched).2.unwatched) := by
  obtain ⟨hresult, hstate⟩ := run_alike sink.alike_observed policy units cx.alike_watched
  exact Prod.ext hresult.symm hstate.eq_unwatched

/-- **Requests over the observed sink leave the context that they leave over the sink.** -/
theorem performAll_watched (ops : List Operation) (cx : Context σ) :
    performAll sink cx ops = (performAll sink.observed cx.watched ops).unwatched :=
  (performAll_alike sink.alike_observed ops cx.alike_watched).eq_unwatched

end ModifierFacts.Context
