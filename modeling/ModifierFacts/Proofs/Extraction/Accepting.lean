import ModifierFacts.Proofs.Extraction.Account
import ModifierFacts.Proofs.Workers.Ledger

/-!
# How a run over an accepting sink ends

If no call is refused, the outcome of a run depends on its units and its policy alone: either a
rejected unit ends it, or its summary has every unit, and its counters count what was written.

* `RunSummary.findSome?_blocks_result_eq_none_iff`: which policy lets which units pass;
* `RunStats.ofRun`: the counters of a run, read off its units and its facts;
* **`Context.run_accepting`**: the result of a run, and the facts that it has written.
-/

namespace ModifierFacts

/-! ## 1. Blocking units -/

namespace RunSummary

/-- Only a rejected unit blocks a run, and only if the policy says so. -/
theorem blocks_result_eq_none_iff (policy : FailurePolicy) (u : CompilationUnit) :
    blocks policy (u, u.result) = none ↔ (policy = .abortRun → u.Classifies) := by
  by_cases hu : u.Classifies
  · simp [blocks_result_of_classifies policy hu, hu]
  · obtain ⟨e, he⟩ := CompilationUnit.exists_firstRejection hu
    simp [blocks_result_of_rejection policy he, hu]

theorem findSome?_blocks_result_eq_none_iff (policy : FailurePolicy)
    (units : List CompilationUnit) :
    (units.findSome? fun u => blocks policy (u, u.result)) = none ↔
      (policy = .abortRun → ∀ u ∈ units, u.Classifies) := by
  rw [List.findSome?_eq_none_iff]
  constructor
  · exact fun h hpolicy u hu => (blocks_result_eq_none_iff policy u).mp (h u hu) hpolicy
  · exact fun h u hu => (blocks_result_eq_none_iff policy u).mpr fun hpolicy => h hpolicy u hu

/-- A unit is dropped if it is rejected. -/
theorem length_failures (units : List CompilationUnit) :
    (ofUnits units).failures.length = units.countP fun u => ¬ u.Classifies := by
  induction units with
  | nil => rfl
  | cons u units ih =>
    by_cases hu : u.Classifies
    · rw [ofUnits_cons_classified hu, List.countP_cons_of_neg (by simpa using hu)]
      exact ih
    · obtain ⟨e, he⟩ := CompilationUnit.exists_firstRejection hu
      rw [ofUnits_cons_rejected he, List.countP_cons_of_pos (by simpa using hu), ← ih]
      rfl

end RunSummary

/-! ## 2. The run -/

/-- The counters of a run over these units that wrote these facts. -/
def RunStats.ofRun (units : List CompilationUnit) (facts : List Fact) : RunStats where
  entitiesCreated := (Fact.declaredNames facts).length
  edgesAttached := (Fact.edges facts).length
  declarationsClassified := Machine.recordCount units
  unitsAborted := units.countP fun u => ¬ u.Classifies

namespace Context

variable {σ : Type} {sink : FactSink σ}

/-- What has been written and counted when all units are worked off. -/
theorem workOff_counts (haccept : sink.Accepting) (s : σ) (units : List CompilationUnit) :
    let facts := walk (fun _ => false) [] (pairsOf units)
    ∃ cx, workOff sink.observed units (start s).watched = (.ok (units.map (·.result)), cx) ∧
      cx.sinkState.log.taken = facts ∧
      { cx.stats with unitsAborted := (RunSummary.ofUnits units).failures.length } =
        RunStats.ofRun units facts := by
  intro facts
  obtain ⟨cx, hwork, hwrites⟩ :=
    workOff_writes haccept units (start s).watched Registry.faithful_empty
  have htaken : cx.sinkState.log.taken = facts := by
    rw [hwrites.log]
    exact SinkLog.taken_ofFacts facts
  have hbalanced : Balanced cx := by
    have hkept := ((kept_balanced sink).workOff units).state (.start s)
    rw [hwork] at hkept
    exact hkept
  have hclassified : cx.declarationsClassified = Machine.recordCount units := by
    -- working off the units is one of the schedules of the machine
    obtain ⟨schedule, hcontext, hend⟩ :=
      Machine.exists_schedule_workOff sink.observed units (start s).watched
    have hledger := Machine.ledger_run haccept s units schedule
    rw [hwork] at hcontext hend
    have hsum := hledger.classified
    rw [Machine.owed, (Machine.finished_iff _).mp hend.1, hcontext] at hsum
    exact hsum
  refine ⟨cx, hwork, htaken, ?_⟩
  rw [stats, RunStats.ofRun, hbalanced.entities, hbalanced.edges, hclassified, htaken,
    RunSummary.length_failures]

/-- **How a run over an accepting sink ends**, and what it has written then. -/
theorem run_accepting (haccept : sink.Accepting) (policy : FailurePolicy) (s : σ)
    (units : List CompilationUnit) :
    let facts := walk (fun _ => false) [] (pairsOf units)
    let ending := run sink.observed policy units (start s).watched
    ending.2.sinkState.log.taken = facts ∧
      ending.1 = match units.findSome? fun u => RunSummary.blocks policy (u, u.result) with
        | some e => .error (.failed e)
        | none => .ok { RunSummary.ofUnits units with stats := .ofRun units facts } := by
  intro facts ending
  obtain ⟨cx, hwork, htaken, hstats⟩ := workOff_counts haccept s units
  have hending : ending = conclude sink.observed policy units (units.map (·.result)) cx := by
    show run _ _ _ _ = _
    rw [run_apply, extractAll_of_workOff _ hwork]
  rw [hending]
  refine ⟨(taken_conclude policy units _ cx).trans htaken, ?_⟩
  have hsettle := RunSummary.settle_results_eq policy units
  cases hblocks : units.findSome? fun u => RunSummary.blocks policy (u, u.result) with
  | some e =>
    rw [hblocks] at hsettle
    rw [conclude_of_error _ hsettle]
  | none =>
    rw [hblocks] at hsettle
    rw [conclude_of_ok _ hsettle, finalFlush_apply, haccept.observed]
    dsimp only
    rw [hstats]

end Context

end ModifierFacts
