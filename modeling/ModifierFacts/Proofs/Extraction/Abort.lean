import ModifierFacts.Proofs.Extraction.Walk

/-!
# Runs that a rejected unit ends

Under the policy that ends the run, the first rejected unit decides the outcome. But all units are
extracted before any result is looked at, so what stands behind the rejected unit is written as if
nothing had happened.

* **`Context.run_abortRun_writes`**: how such a run ends, and all that it writes. Nothing is written
  from behind the rejected unit only if there is nothing to write;
* **`Context.run_abortRun_overruns`**: a run that is ended by its second unit and writes the third.
-/

namespace ModifierFacts.Context

variable {σ : Type} {sink : FactSink σ}

/-- **How a run ends that the policy ends.** The run fails with the first rejection of the first
rejected unit. Everything of the units in front of it has been written, nothing of the unit itself,
and everything of the classified units behind it; so nothing was written from behind it exactly if
these carry no modifier. -/
theorem run_abortRun_writes (haccept : sink.Accepting) (s : σ) (ops : List Operation)
    (units : List CompilationUnit) (hrejected : ∃ u ∈ units, ¬ u.Classifies) :
    let cx := performAll sink (start s) ops
    let known := cx.registry.contains
    ∃ before u after e cx', units = before ++ u :: after ∧ (∀ v ∈ before, v.Classifies) ∧
      u.firstRejection? = some e ∧
      run sink.observed .abortRun units cx.watched = (.error (.failed (.extracting u.name e)), cx') ∧
      cx'.sinkState.log = .ofFacts (walk known [] (pairsOf before) ++
        walk known ((pairsOf before).map (·.2)) (pairsOf after)) ∧
      (cx'.sinkState.log = .ofFacts (walk known [] (pairsOf before)) ↔ pairsOf after = []) := by
  intro cx known
  obtain ⟨before, u, after, e, rfl, hbefore, he⟩ := CompilationUnit.exists_first_rejected hrejected
  have hu : ¬ u.Classifies := by
    rw [← u.firstRejection?_eq_none_iff, he]
    exact Option.some_ne_none e
  have hf : cx.registry.Faithful := faithful_performAll sink s ops
  obtain ⟨cx', hwork, hwrites⟩ := workOff_writes haccept (before ++ u :: after) cx.watched hf
  have hrun : run sink.observed .abortRun (before ++ u :: after) cx.watched =
      (.error (.failed (.extracting u.name e)), cx') := by
    rw [run_apply, extractAll_of_workOff _ hwork]
    exact conclude_of_error _ (RunSummary.settle_results_abortRun hbefore he) cx'
  have hlog : cx'.sinkState.log = .ofFacts (walk known [] (pairsOf before) ++
      walk known ((pairsOf before).map (·.2)) (pairsOf after)) := by
    rw [hwrites.log, pairsOf_around hu, walk_append]
    rfl
  refine ⟨before, u, after, e, cx', rfl, hbefore, he, hrun, hlog, ?_⟩
  rw [hlog, SinkLog.ofFacts_append_eq_self_iff, walk_eq_nil_iff]

/-- The second of the three units is rejected. -/
theorem run_abortRun_writes_threeUnits :
    (∃ u ∈ threeUnits, ¬ u.Classifies) ∧
    ∃ before u after e cx', threeUnits = before ++ u :: after ∧ (∀ v ∈ before, v.Classifies) ∧
      u.firstRejection? = some e ∧
      run FactSink.memory.observed .abortRun threeUnits (start []).watched =
        (.error (.failed (.extracting u.name e)), cx') ∧
      (cx'.sinkState.log = .ofFacts (walk (fun _ => false) [] (pairsOf before)) ↔
        pairsOf after = []) := by
  have hrejected : ∃ u ∈ threeUnits, ¬ u.Classifies := by decide +kernel
  obtain ⟨before, u, after, e, cx', hunits, hbefore, he, hrun, -, hlog⟩ :=
    run_abortRun_writes FactSink.memory_accepting [] [] threeUnits hrejected
  exact ⟨hrejected, before, u, after, e, cx', hunits, hbefore, he, hrun, hlog⟩

/-- **A run that its second unit ends writes the third one all the same.** -/
theorem run_abortRun_overruns :
    let ending := run FactSink.memory.observed .abortRun threeUnits (start []).watched
    ending.1 = .error (.failed (.extracting "b.cs" ⟨"C", .shapeMismatch .method .bare .method⟩)) ∧
      ending.2.sinkState.log.taken = [.declaring "public", .carrying (⟨1⟩, "public"),
        .declaring "static", .carrying (⟨1⟩, "static"), .carrying (⟨4⟩, "public")] ∧
      pairsOf (threeUnits.take 1) = [(⟨1⟩, "public"), (⟨1⟩, "static")] := by
  refine ⟨?_, ?_, ?_⟩ <;> decide +kernel

end ModifierFacts.Context
