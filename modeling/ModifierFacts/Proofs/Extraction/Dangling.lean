import ModifierFacts.Proofs.Extraction.Account
import ModifierFacts.Proofs.Workers.Outcome

/-!
# Edges to entities that the sink does not hold

An entity is registered before its declaration is written, and a refused declaration leaves it
registered. The unit that was refused stops there, so it attaches nothing more; but the units after
it find the entity registered and attach it, although the sink does not hold its declaration.

* `SinkLog.Grounded`: every edge that the sink took leads to a declaration that it took;
* `SinkLog.Declared`: every declaration that was offered was accepted. A unit keeps this until it
  stops, and then only its last call is in the way (`Context.kept_declared`);
* **`Context.run_grounded`**: a run that succeeds leaves no edge dangling, and neither does one whose
  declarations are refused in the last unit only;
* **`Context.run_leaves_dangling`**: a refusal in an earlier unit does.
-/

namespace ModifierFacts

/-! ## 1. Grounded logs -/

namespace SinkLog

/-- Every edge that the sink took leads to an entity whose declaration it took. -/
def Grounded (log : SinkLog) : Prop :=
  ∀ d m, .hasModifiers d m ∈ log.taken → ∃ n, .modifiers m n ∈ log.taken

/-- Every declaration that was offered was accepted. -/
def Declared (log : SinkLog) : Prop := ∀ id n r, (.record (.modifiers id n), r) ∈ log → r = .accepted

/-- Every declaration that was offered before the last call was accepted. -/
def DeclaredBeforeLast (log : SinkLog) : Prop := Declared (List.dropLast log)

theorem AllAccepted.declared {log : SinkLog} (h : log.AllAccepted) : log.Declared :=
  fun _ _ _ hmem => h _ hmem

theorem Declared.beforeLast {log : SinkLog} (h : log.Declared) : log.DeclaredBeforeLast :=
  fun id n r hmem => h id n r (List.dropLast_subset log hmem)

theorem Declared.concat_accepted {log : SinkLog} (h : log.Declared) (c : SinkCall) :
    Declared (log ++ [(c, .accepted)]) := by
  intro id n r hmem
  rcases List.mem_append.mp hmem with hold | hnew
  · exact h id n r hold
  · exact (Prod.mk.inj (List.mem_singleton.mp hnew)).2

theorem Declared.concat {log : SinkLog} (h : log.Declared) (c : SinkCall) (r : Reply) :
    DeclaredBeforeLast (log ++ [(c, r)]) := by
  unfold DeclaredBeforeLast
  rw [List.dropLast_concat]
  exact h

/-- The declaration that stands before an edge is not the last call, so the edge is grounded even if
the last call was refused. -/
theorem Anchored.grounded {log : SinkLog} (h : log.Anchored) (hdeclared : log.DeclaredBeforeLast) :
    log.Grounded := by
  intro d m hedge
  obtain ⟨before, after, hlog⟩ := List.append_of_mem (mem_taken.mp hedge)
  obtain ⟨n, hm, hoffered⟩ := h before d m .accepted after hlog
  obtain ⟨r, hbefore⟩ := mem_offered.mp hoffered
  have hdrop : before ⊆ List.dropLast log := by
    rw [hlog, List.dropLast_append_of_ne_nil (List.cons_ne_nil _ _)]
    exact List.subset_append_left _ _
  have haccepted : r = .accepted := hdeclared _ n r (hdrop hbefore)
  rw [haccepted] at hbefore
  rw [hm]
  exact ⟨n, mem_taken.mpr (List.dropLast_subset log (hdrop hbefore))⟩

end SinkLog

namespace Context

variable {σ : Type} (sink : FactSink σ)

/-! ## 2. Where a unit stops -/

/-- **An operation stops at the first declaration that is not accepted.** -/
theorem kept_declared :
    Kept sink.observed (fun cx => cx.sinkState.log.Declared)
      fun _ cx => cx.sinkState.log.DeclaredBeforeLast where
  register n cx h := by
    rw [register_apply]
    cases cx.registry.get? n <;> exact h
  call c cx h := by
    have hlog := sink.log_observed_reply cx.sinkState c
    have hstopped : (sink.observed.reply cx.sinkState c).2.log.DeclaredBeforeLast := by
      rw [hlog]
      exact h.concat c _
    rw [call_apply]
    cases hreply : (sink.observed.reply cx.sinkState c).1 with
    | accepted =>
      rw [hreply] at hlog
      show (sink.observed.reply cx.sinkState c).2.log.Declared
      rw [hlog]
      exact h.concat_accepted c
    | refused e => exact hstopped
    | crashed => exact hstopped
  countEntity _ h := h
  countEdge _ h := h
  countClassified _ h := h
  rejected _ _ h := h.beforeLast

/-- A unit that finds every declaration accepted leaves at most its last call unaccepted. -/
theorem extractUnit_declaredBeforeLast (u : CompilationUnit) {cx : Context (Observed σ)}
    (h : cx.sinkState.log.Declared) :
    (extractUnit sink.observed u cx).2.sinkState.log.DeclaredBeforeLast := by
  have hunit := (kept_declared sink).byName.extractUnit u cx h
  rcases hu : extractUnit sink.observed u cx with ⟨stop | report, cx'⟩
  · rw [hu] at hunit
    exact hunit
  · rw [hu] at hunit
    exact hunit.beforeLast

/-! ## 3. Runs -/

variable {sink} (hreturns : sink.Returns)

include hreturns

/-- In a run that succeeds every call was accepted. -/
theorem allAccepted_of_run_ok {policy : FailurePolicy} {units : List CompilationUnit} {s : σ}
    (hok : ∃ summary, (run sink.observed policy units (start s).watched).1 = .ok summary) :
    (run sink.observed policy units (start s).watched).2.sinkState.log.AllAccepted := by
  obtain ⟨schedule, -, hrun⟩ := Machine.exists_schedule_run hreturns policy (start s) units
  have h := Machine.accounted_run hreturns (start s) units schedule
  obtain ⟨results, hresults, -, hyields, haccepted⟩ := h.exists_results
  have hending := Machine.conclude_ending hreturns policy h.units hresults hyields
  have hclear := RunSummary.findSome?_blocks_eq_none_iff policy hyields
  rw [← haccepted] at hclear
  rw [hrun] at hending
  exact ((hending.ok_iff hclear).mp hok).1

/-- The unit whose declaration was refused leaves no edge dangling, and neither do those before. -/
theorem run_concat_grounded (policy : FailurePolicy) (units : List CompilationUnit)
    (u : CompilationUnit) (s : σ)
    (hdeclared : (workOff sink.observed units (start s).watched).2.sinkState.log.Declared) :
    (run sink.observed policy (units ++ [u]) (start s).watched).2.sinkState.log.Grounded := by
  have hkept := kept_balanced sink
  have hunits : Balanced (workOff sink.observed units (start s).watched).2 :=
    (hkept.workOff units).state (.start s)
  have hunit := (hkept.extractUnit u).state hunits
  have hgrounded := hunit.anchored.grounded (extractUnit_declaredBeforeLast sink u hdeclared)
  obtain ⟨results, hall⟩ := extractAll_concat hreturns.observed units u (start s).watched
  rw [run_apply, hall]
  unfold SinkLog.Grounded
  dsimp only
  rw [taken_conclude]
  exact hgrounded

/-- **Which edges of a run lead to entities that the sink holds.** Every edge leads to the entity of
a name whose declaration was offered in the same run. No edge dangles after a run that succeeds, nor
after one in which declarations were refused in its last unit only. -/
theorem run_grounded (policy : FailurePolicy) (units : List CompilationUnit) (s : σ) :
    let ending := run sink.observed policy units (start s).watched
    let log := ending.2.sinkState.log
    (∀ d m, .hasModifiers d m ∈ log.taken →
      ∃ n, m = .ofTrapKey (n ++ ";modifier") ∧ .declaring n ∈ log.offered) ∧
    ((∃ summary, ending.1 = .ok summary) → log.Grounded) ∧
    (∀ before u, units = before ++ [u] →
      (workOff sink.observed before (start s).watched).2.sinkState.log.Declared → log.Grounded) := by
  intro ending log
  have hbalanced : Balanced ending.2 := (kept_balanced sink).run policy units _ (.start s)
  refine ⟨?_, ?_, ?_⟩
  · intro d m hedge
    obtain ⟨before, after, hlog⟩ := List.append_of_mem (SinkLog.mem_taken.mp hedge)
    obtain ⟨n, hm, hoffered⟩ := hbalanced.anchored before d m .accepted after hlog
    refine ⟨n, hm, ?_⟩
    rw [show log = _ from hlog, SinkLog.offered_append]
    exact List.mem_append_left _ hoffered
  · intro ⟨summary, hok⟩
    have hall : log.AllAccepted := allAccepted_of_run_ok hreturns ⟨summary, hok⟩
    exact hbalanced.anchored.grounded hall.declared.beforeLast
  · intro before u hunits hdeclared
    have hgrounded := run_concat_grounded hreturns policy before u s hdeclared
    rw [← hunits] at hgrounded
    exact hgrounded

omit hreturns

/-- The second unit carries a modifier that is refused after another one was taken. -/
theorem run_grounded_lastUnit :
    let units : List CompilationUnit :=
      [⟨"a.cs", [⟨⟨1⟩, .plain "A" .event .publicAccess⟩]⟩,
        ⟨"b.cs", [⟨⟨2⟩, .plain "B" .event .protectedOrInternal⟩]⟩]
    let ending := run (refusing "internal").observed .abortRun units (start []).watched
    ending.1 = .error (.failed (.writing "b.cs" (.io "rejected"))) ∧
      ending.2.sinkState.log.taken = [.declaring "public", .carrying (⟨1⟩, "public"),
        .declaring "protected", .carrying (⟨2⟩, "protected")] ∧
      ending.2.sinkState.log.Grounded := by
  intro units ending
  have hreturns : (refusing "internal").Returns := FactSink.memory_accepting.returns.guarded _
  have hall : SinkLog.AllAccepted (workOff (refusing "internal").observed (units.take 1)
      (start []).watched).2.sinkState.log := by
    unfold SinkLog.AllAccepted
    decide +kernel
  have hgrounded := (run_grounded hreturns .abortRun units []).2.2 (units.take 1) _ rfl hall.declared
  exact ⟨by decide +kernel, by decide +kernel, hgrounded⟩

/-- **A refused declaration leaves an edge of a later unit dangling.** Both units carry `public`. Its
declaration is refused, the run fails for it, and the second unit is attached to it all the same. -/
theorem run_leaves_dangling :
    let ending := run (refusing "public").observed .abortUnit Machine.twoUnits (start []).watched
    let log := ending.2.sinkState.log
    ending.1 = .error (.failed (.writing "a.cs" (.io "rejected"))) ∧
      log = [(.record (.declaring "public"), .refused (.io "rejected")),
        (.record (.carrying (⟨2⟩, "public")), .accepted)] ∧
      ¬ log.Grounded := by
  intro ending log
  have hlog : log = [(.record (.declaring "public"), .refused (.io "rejected")),
      (.record (.carrying (⟨2⟩, "public")), .accepted)] := rfl
  refine ⟨rfl, hlog, fun h => ?_⟩
  have hedge : .carrying (⟨2⟩, "public") ∈ log.taken := by
    rw [hlog]
    exact List.mem_singleton_self _
  obtain ⟨n, hn⟩ := h _ _ hedge
  rw [hlog] at hn
  exact nomatch List.mem_singleton.mp hn

end Context

end ModifierFacts
