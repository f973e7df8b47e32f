import ModifierFacts.Proofs.Workers.Sequential

/-!
# How a run ends, in every order of work

Over a sink that accepts and refuses calls as it likes, but does not crash, the end of a run depends
on the order of the work only through the calls that happen to be refused.

* `Job.Consistent`: a job either has all its facts written so far, or failed and has nothing to do;
* `Machine.Accounted`: all jobs are consistent, and a call was refused exactly if a job failed for
  it. Every turn keeps this (`Accounted.moves`);
* `Machine.unflushed_run`: the workers record facts and leave the flush to the end;
* `Accounted.exists_results`: then every unit has a result;
* `Machine.Ending`: the three ways in which a run with given results ends;
* **`Machine.conclude_decides`**: when the run succeeds, which error it fails with, when it flushes
  and what its summary says;
* **`Machine.exists_schedule_run`**: a run with one worker is the end of a schedule, so all this
  holds for it.
-/

namespace ModifierFacts

/-! ## 1. Jobs -/

/-- A job that did not fail has the outcome of the whole unit, and one that failed has nothing left
to do. -/
inductive Job.Consistent : Job → Prop where
  | running {u : CompilationUnit} (h : u.Classifies) (pending : List Action) :
      Consistent ⟨u, .ok u.fullReport, pending⟩
  | failed {u : CompilationUnit} {e : ExtractError} (h : u.Yields (.error e)) :
      Consistent ⟨u, .error (.failed e), []⟩

/-- The job failed because the sink refused a fact of it. -/
def Job.Refused (job : Job) : Prop := ∃ e, job.outcome = .error (.failed (.fact e))

namespace Job

theorem begin_consistent (u : CompilationUnit) : (begin u).Consistent := by
  by_cases hu : u.Classifies
  · rw [begin_of_ok (CompilationUnit.classify_of_classifies hu), u.report_classified]
    exact .running hu _
  · obtain ⟨e, he⟩ := CompilationUnit.exists_firstRejection hu
    rw [begin_of_error (CompilationUnit.classify_of_rejection he)]
    exact .failed (.rejected he)

theorem begin_not_refused (u : CompilationUnit) : ¬ (begin u).Refused := by
  intro ⟨e, he⟩
  unfold begin at he
  cases hc : u.classify <;> rw [hc] at he <;> cases he

namespace Consistent

/-- A job that has something to do did not fail. -/
theorem of_pending {job : Job} (h : job.Consistent) {a : Action} {rest : List Action}
    (hnext : job.pending = a :: rest) :
    job.unit.Classifies ∧ job.outcome = .ok job.unit.fullReport := by
  cases h with
  | running hu pending => exact ⟨hu, rfl⟩
  | failed h => cases hnext

theorem result {job : Job} (h : job.Consistent) :
    ∃ r, UnitResult.ofOutcome job.outcome = .ok r ∧ job.unit.Yields r ∧
      (job.Refused ↔ ∃ e, r = .error (.fact e)) := by
  cases h with
  | running hu pending =>
    refine ⟨_, rfl, .written hu, ?_⟩
    constructor
    · intro ⟨e, he⟩
      cases he
    · intro ⟨e, he⟩
      cases he
  | @failed u e h =>
    refine ⟨_, rfl, h, ?_⟩
    constructor
    · intro ⟨e', he⟩
      cases he
      exact ⟨e', rfl⟩
    · intro ⟨e', he⟩
      cases he
      exact ⟨e', rfl⟩

end Consistent

end Job

/-! ## 2. What every turn keeps -/

namespace Machine

variable {σ : Type} {sink : FactSink σ}

/-- An action succeeds and its call was accepted, or it fails and its call was refused. -/
theorem log_perform (hreturns : sink.Returns) {a : Action} {cx cx' : Context (Observed σ)}
    {r : Except Stop (List Action)} (h : a.perform sink.observed cx = (r, cx')) :
    (∃ more, r = .ok more) ∧ (cx'.sinkState.log.AllAccepted ↔ cx.sinkState.log.AllAccepted) ∨
      (∃ e, r = .error (.failed (.fact e))) ∧ ¬ cx'.sinkState.log.AllAccepted := by
  cases hcall : a.call? with
  | none =>
    obtain ⟨more, cx'', hperform, hsame⟩ := Action.perform_of_no_call sink.observed hcall cx
    rw [hperform] at h
    cases h
    exact .inl ⟨⟨more, rfl⟩, by rw [hsame]⟩
  | some c =>
    rw [Action.perform_of_call sink.observed hcall] at h
    cases h
    have hlog := sink.log_observed_reply cx.sinkState c
    cases hreply : (sink.observed.reply cx.sinkState c).1 with
    | accepted =>
      refine .inl ⟨⟨[], rfl⟩, ?_⟩
      rw [hlog, hreply, SinkLog.allAccepted_concat]
      exact and_iff_left rfl
    | refused e =>
      refine .inr ⟨⟨e, rfl⟩, ?_⟩
      rw [hlog, hreply, SinkLog.allAccepted_concat]
      intro h
      obtain ⟨-, h⟩ := h
      cases h
    | crashed => exact absurd hreply (hreturns.observed _ _)

/-- Every job is consistent, and so far no call was refused unless a job failed for it. -/
structure Accounted (units : List CompilationUnit) (m : Machine (Observed σ)) : Prop where
  units : m.jobs.map (·.unit) = units
  jobs : ∀ job ∈ m.jobs, job.Consistent
  refusals : m.context.sinkState.log.AllAccepted ↔ ∀ job ∈ m.jobs, ¬ job.Refused

namespace Accounted

theorem launch (cx : Context σ) (units : List CompilationUnit) :
    Accounted units (launch cx.watched units) where
  units := by
    show (units.map Job.begin).map (·.unit) = units
    rw [List.map_map]
    exact List.map_id'' Job.unit_begin units
  jobs := by
    show ∀ job ∈ units.map Job.begin, _
    rw [List.forall_mem_map]
    exact fun u _ => Job.begin_consistent u
  refusals := by
    show SinkLog.AllAccepted [] ↔ ∀ job ∈ units.map Job.begin, _
    rw [List.forall_mem_map]
    exact ⟨fun _ u _ => Job.begin_not_refused u, fun _ => SinkLog.allAccepted_nil⟩

variable {units : List CompilationUnit} {m m' : Machine (Observed σ)}

theorem consistent_of_mem (h : Accounted units m) {before after : List Job} {job : Job}
    (hjobs : m.jobs = before ++ job :: after) : job.Consistent := by
  refine h.jobs job ?_
  rw [hjobs]
  exact List.mem_append_right before List.mem_cons_self

/-- Replacing a job by one of the same unit. -/
theorem replace (h : Accounted units m) {before after : List Job} {job job' : Job}
    {cx : Context (Observed σ)} {received : List (Nat × String)}
    (hjobs : m.jobs = before ++ job :: after) (hunit : job'.unit = job.unit)
    (hjob : job'.Consistent)
    (hlog : cx.sinkState.log.AllAccepted ↔ m.context.sinkState.log.AllAccepted ∧ ¬ job'.Refused)
    (hrefused : ¬ job.Refused) : Accounted units ⟨cx, before ++ job' :: after, received⟩ where
  units := by
    rw [← h.units, hjobs, List.map_append, List.map_append, List.map_cons, List.map_cons, hunit]
  jobs := by
    have hall := h.jobs
    rw [hjobs, List.forall_mem_append, List.forall_mem_cons] at hall
    show ∀ j ∈ before ++ job' :: after, j.Consistent
    rw [List.forall_mem_append, List.forall_mem_cons]
    exact ⟨hall.1, hjob, hall.2.2⟩
  refusals := by
    rw [hlog, h.refusals, hjobs]
    show _ ↔ ∀ j ∈ before ++ job' :: after, ¬ j.Refused
    rw [List.forall_mem_append, List.forall_mem_cons, List.forall_mem_append, List.forall_mem_cons]
    constructor
    · intro ⟨⟨hbefore, _, hafter⟩, hjob'⟩
      exact ⟨hbefore, hjob', hafter⟩
    · intro ⟨hbefore, hjob', hafter⟩
      exact ⟨⟨hbefore, hrefused, hafter⟩, hjob'⟩

theorem moves (hreturns : sink.Returns) (worker : Nat) (m m' : Machine (Observed σ))
    (hmove : Moves sink.observed worker m m') (h : Accounted units m) : Accounted units m' := by
  cases hmove with
  | idle => exact h
  | @acted before after job a rest more cx hjobs hnext hperform =>
    obtain ⟨hu, houtcome⟩ := (h.consistent_of_mem hjobs).of_pending hnext
    have hnot (pending : List Action) : ¬ Job.Refused ⟨job.unit, job.outcome, pending⟩ := by
      intro ⟨e, he⟩
      rw [houtcome] at he
      cases he
    refine h.replace hjobs rfl ?_ ?_ (hnot job.pending)
    · rw [houtcome]
      exact .running hu _
    · rcases log_perform hreturns hperform with ⟨-, hlog⟩ | ⟨⟨e, he⟩, -⟩
      · rw [hlog]
        exact (and_iff_left (hnot _)).symm
      · cases he
  | @stopped before after job a rest stop cx hjobs hnext hperform =>
    obtain ⟨hu, houtcome⟩ := (h.consistent_of_mem hjobs).of_pending hnext
    rcases log_perform hreturns hperform with ⟨⟨more, he⟩, -⟩ | ⟨⟨e, he⟩, hlog⟩
    · cases he
    · cases he
      refine h.replace hjobs rfl (.failed (.refused hu e)) ?_ ?_
      · exact ⟨fun hall => absurd hall hlog, fun hall => absurd ⟨e, rfl⟩ hall.2⟩
      · intro ⟨e', he'⟩
        rw [houtcome] at he'
        cases he'

end Accounted

/-- No flush has been asked for. -/
def Unflushed (log : SinkLog) : Prop := ∀ entry ∈ log, entry.1 ≠ .flush

/-- Actions record facts; they do not flush. -/
theorem Unflushed.perform {a : Action} {cx cx' : Context (Observed σ)}
    {r : Except Stop (List Action)} (hcx : Unflushed cx.sinkState.log)
    (h : a.perform sink.observed cx = (r, cx')) : Unflushed cx'.sinkState.log := by
  cases hcall : a.call? with
  | none =>
    obtain ⟨more, cx'', hperform, hsame⟩ := Action.perform_of_no_call sink.observed hcall cx
    rw [hperform] at h
    cases h
    rw [hsame]
    exact hcx
  | some c =>
    have hc : c ≠ .flush := by
      rintro rfl
      cases a <;> cases hcall
    rw [Action.perform_of_call sink.observed hcall] at h
    cases h
    intro entry hentry
    rw [sink.log_observed_reply, List.mem_append, List.mem_singleton] at hentry
    rcases hentry with hentry | rfl
    · exact hcx entry hentry
    · exact hc

theorem Unflushed.moves (worker : Nat) (m m' : Machine (Observed σ))
    (hmove : Moves sink.observed worker m m') (h : Unflushed m.context.sinkState.log) :
    Unflushed m'.context.sinkState.log := by
  cases hmove with
  | idle => exact h
  | acted _ _ hperform => exact h.perform hperform
  | stopped _ _ hperform => exact h.perform hperform

/-- **However the workers take turns, none of them flushes.** -/
theorem unflushed_run (cx : Context σ) (units : List CompilationUnit) (schedule : List Turn) :
    Unflushed (run sink.observed (launch cx.watched units) schedule).context.sinkState.log :=
  run_induction sink.observed Unflushed.moves schedule (List.forall_mem_nil _)

/-! ## 3. Results -/

/-- Consistent jobs have results, among them a refused fact exactly if one of the jobs has it. -/
theorem exists_results_of_consistent {jobs : List Job} (h : ∀ job ∈ jobs, job.Consistent) :
    ∃ results, (jobs.mapM fun job => UnitResult.ofOutcome job.outcome) = .ok results ∧
      jobs.length = results.length ∧
      (∀ p ∈ (jobs.map (·.unit)).zip results, p.1.Yields p.2) ∧
      ((∀ job ∈ jobs, ¬ job.Refused) ↔
        ∀ p ∈ (jobs.map (·.unit)).zip results, ¬ ∃ e, p.2 = .error (.fact e)) := by
  induction jobs with
  | nil => exact ⟨[], rfl, rfl, List.forall_mem_nil _, by simp⟩
  | cons job jobs ih =>
    rw [List.forall_mem_cons] at h
    obtain ⟨r, hr, hyields, hrefused⟩ := h.1.result
    obtain ⟨results, hresults, hlength, hall, hnone⟩ := ih h.2
    refine ⟨r :: results, ?_, ?_, ?_, ?_⟩
    · rw [List.mapM_cons, hr, hresults]
      rfl
    · rw [List.length_cons, List.length_cons, hlength]
    · rw [List.map_cons, List.zip_cons_cons, List.forall_mem_cons]
      exact ⟨hyields, hall⟩
    · rw [List.map_cons, List.zip_cons_cons, List.forall_mem_cons, List.forall_mem_cons, hrefused,
        hnone]

theorem Accounted.exists_results {units : List CompilationUnit} {m : Machine (Observed σ)}
    (h : Accounted units m) :
    ∃ results, m.results = .ok results ∧ units.length = results.length ∧
      (∀ p ∈ units.zip results, p.1.Yields p.2) ∧
      (m.context.sinkState.log.AllAccepted ↔
        ∀ p ∈ units.zip results, ¬ ∃ e, p.2 = .error (.fact e)) := by
  obtain ⟨results, hresults, hlength, hall, hnone⟩ := exists_results_of_consistent h.jobs
  rw [h.units] at hall hnone
  refine ⟨results, hresults, ?_, hall, h.refusals.trans hnone⟩
  rw [← h.units, List.length_map, hlength]

theorem forall_mem_zip_fst {α β : Type} {P : α → Prop} {l : List α} {l' : List β}
    (h : l.length = l'.length) : (∀ p ∈ l.zip l', P p.1) ↔ ∀ a ∈ l, P a := by
  rw [← List.forall_mem_map, List.map_fst_zip (Nat.le_of_eq h)]

/-! ## 4. The end of the run -/

/-- The ends of a run with these results: at the first result that blocks it, before the flush; or
at the flush, which is accepted or refused. -/
inductive Ending (policy : FailurePolicy) (results : List (CompilationUnit × UnitResult))
    (m : Machine (Observed σ)) : Except RunStop RunSummary × Context (Observed σ) → Prop where
  | blocked {e : RunError} (h : results.findSome? (RunSummary.blocks policy) = some e) :
      Ending policy results m (.error (.failed e), m.context)
  | flushed {summary : RunSummary} {stats : RunStats} {cx : Context (Observed σ)}
      (h : results.findSome? (RunSummary.blocks policy) = none)
      (hsummary : summary = .ofUnits (results.map (·.1)))
      (hlog : cx.sinkState.log = m.context.sinkState.log ++ [(.flush, .accepted)]) :
      Ending policy results m
        (.ok { summary with stats := { stats with unitsAborted := summary.failures.length } }, cx)
  | unflushed {e : FactError} {cx : Context (Observed σ)}
      (h : results.findSome? (RunSummary.blocks policy) = none)
      (hlog : cx.sinkState.log = m.context.sinkState.log ++ [(.flush, .refused e)]) :
      Ending policy results m (.error (.failed (.flushing e)), cx)

namespace Ending

variable {policy : FailurePolicy} {results : List (CompilationUnit × UnitResult)}
variable {m : Machine (Observed σ)} {ending : Except RunStop RunSummary × Context (Observed σ)}

/-- A run succeeds if no result blocks it and the flush is accepted. -/
theorem ok_iff (h : Ending policy results m ending) {P : Prop}
    (hclear : results.findSome? (RunSummary.blocks policy) = none ↔
      m.context.sinkState.log.AllAccepted ∧ P) :
    (∃ summary, ending.1 = .ok summary) ↔ ending.2.sinkState.log.AllAccepted ∧ P := by
  cases h with
  | blocked h =>
    rw [← hclear, h]
    constructor
    · intro ⟨summary, hok⟩
      cases hok
    · intro hnone
      cases hnone
  | flushed h _ hlog =>
    obtain ⟨hall, hP⟩ := hclear.mp h
    rw [hlog, SinkLog.allAccepted_concat]
    exact ⟨fun _ => ⟨⟨hall, rfl⟩, hP⟩, fun _ => ⟨_, rfl⟩⟩
  | unflushed h hlog =>
    rw [hlog, SinkLog.allAccepted_concat]
    constructor
    · intro ⟨summary, hok⟩
      cases hok
    · intro ⟨⟨_, hrefused⟩, _⟩
      cases hrefused

/-- A run that fails without a flush fails with the first result that blocks it. -/
theorem error_before_flush (h : Ending policy results m ending) {stop : RunStop}
    (hstop : ending.1 = .error stop)
    (hquiet : ∀ entry ∈ ending.2.sinkState.log, entry.1 ≠ .flush) :
    ∃ e, stop = .failed e ∧ results.findSome? (RunSummary.blocks policy) = some e := by
  cases h with
  | blocked h =>
    cases hstop
    exact ⟨_, rfl, h⟩
  | flushed h _ hlog => cases hstop
  | unflushed h hlog =>
    rw [hlog] at hquiet
    exact absurd rfl (hquiet _ (List.mem_append_right _ List.mem_cons_self))

/-- A run that a result blocks fails with it and does not flush. -/
theorem of_blocked (h : Ending policy results m ending) {e : RunError}
    (hblocked : results.findSome? (RunSummary.blocks policy) = some e) :
    ending.1 = .error (.failed e) ∧ ending.2.sinkState.log = m.context.sinkState.log := by
  cases h with
  | blocked h =>
    rw [h] at hblocked
    cases hblocked
    exact ⟨rfl, rfl⟩
  | flushed h => simp [h] at hblocked
  | unflushed h => simp [h] at hblocked

/-- A run that no result blocks flushes once more, and the reply decides. -/
theorem of_clear (h : Ending policy results m ending)
    (hclear : results.findSome? (RunSummary.blocks policy) = none) :
    (∃ summary, ending.1 = .ok summary) ∧
        ending.2.sinkState.log = m.context.sinkState.log ++ [(.flush, .accepted)] ∨
      ∃ e, ending.1 = .error (.failed (.flushing e)) ∧
        ending.2.sinkState.log = m.context.sinkState.log ++ [(.flush, .refused e)] := by
  cases h with
  | blocked h => simp [h] at hclear
  | flushed _ _ hlog => exact .inl ⟨⟨_, rfl⟩, hlog⟩
  | unflushed _ hlog => exact .inr ⟨_, rfl, hlog⟩

/-- A run that succeeds has made its flush, and the flush was accepted. -/
theorem log_of_ok (h : Ending policy results m ending) {summary : RunSummary}
    (hok : ending.1 = .ok summary) :
    ending.2.sinkState.log = m.context.sinkState.log ++ [(.flush, .accepted)] := by
  cases h with
  | blocked h => cases hok
  | flushed _ _ hlog => exact hlog
  | unflushed _ hlog => cases hok

/-- The summary of a run does not depend on what the sink did. -/
theorem summary (h : Ending policy results m ending) {summary : RunSummary}
    (hok : ending.1 = .ok summary) :
    summary.units = (RunSummary.ofUnits (results.map (·.1))).units ∧
      summary.failures = (RunSummary.ofUnits (results.map (·.1))).failures ∧
      summary.stats.unitsAborted = summary.failures.length := by
  cases h with
  | blocked h => cases hok
  | flushed h hsummary hlog =>
    cases hok
    rw [← hsummary]
    exact ⟨rfl, rfl, rfl⟩
  | unflushed h hlog => cases hok

end Ending

variable (hreturns : sink.Returns)

include hreturns

theorem accounted_run (cx : Context σ) (units : List CompilationUnit) (schedule : List Turn) :
    Accounted units (run sink.observed (launch cx.watched units) schedule) :=
  run_induction sink.observed (Accounted.moves hreturns) schedule (.launch cx units)

theorem conclude_ending (policy : FailurePolicy) {m : Machine (Observed σ)}
    {units : List CompilationUnit} {results : List UnitResult} (hunits : m.jobs.map (·.unit) = units)
    (hresults : m.results = .ok results) (hyields : ∀ p ∈ units.zip results, p.1.Yields p.2) :
    Ending policy (units.zip results) m (m.conclude sink.observed policy) := by
  have hsettle := RunSummary.settle_eq policy hyields
  rw [conclude, hresults, hunits]
  cases hblocks : (units.zip results).findSome? (RunSummary.blocks policy) with
  | some e =>
    rw [hblocks] at hsettle
    simp only [Context.conclude_of_error sink.observed hsettle]
    exact .blocked hblocks
  | none =>
    rw [hblocks] at hsettle
    have hlog := sink.log_observed_reply m.context.sinkState .flush
    simp only [Context.conclude_of_ok sink.observed hsettle, Context.finalFlush_apply]
    cases hreply : (sink.observed.reply m.context.sinkState .flush).1 with
    | accepted =>
      rw [hreply] at hlog
      exact .flushed hblocks rfl hlog
    | refused e =>
      rw [hreply] at hlog
      exact .unflushed hblocks hlog
    | crashed => exact absurd hreply (hreturns.observed _ _)

/-- **How a run ends.** Whatever the sink accepts and refuses, and in whatever order the workers do
their work, none of them flushes; what follows is one of three things.

* A result blocks the run under its policy. Then the run fails with the error of the first unit, in
  input order, whose own result does, and there is no flush.
* No result does, and the sink refuses the flush. Then the run fails with the error of the flush.
* No result does, and the sink accepts the flush. Then the run succeeds.

So it succeeds exactly if every call was accepted and the policy lets every unit pass, and a run
that succeeds has made the last flush and had it accepted. Its summary has every classified unit
with its full report, and every other unit with the message of its first rejection. -/
theorem conclude_decides (policy : FailurePolicy) (cx : Context σ) (units : List CompilationUnit)
    (schedule : List Turn) :
    let m := run sink.observed (launch cx.watched units) schedule
    let ending := m.conclude sink.observed policy
    let worked := m.context.sinkState.log
    let log := ending.2.sinkState.log
    m.Finished → ∃ results, m.results = .ok results ∧
      ((∃ summary, ending.1 = .ok summary) ↔
        log.AllAccepted ∧ (policy = .abortRun → ∀ u ∈ units, u.Classifies)) ∧
      (∀ stop, ending.1 = .error stop → (∀ entry ∈ log, entry.1 ≠ .flush) →
        ∃ e, stop = .failed e ∧
          (units.zip results).findSome? (RunSummary.blocks policy) = some e) ∧
      (∀ summary, ending.1 = .ok summary →
        summary.units = (units.filter fun u => u.Classifies).map (·.fullReport) ∧
        summary.failures =
          units.filterMap (fun u => u.firstRejection?.map fun e => ⟨u.name, e.message⟩) ∧
        summary.stats.unitsAborted = summary.failures.length) ∧
      (∀ entry ∈ worked, entry.1 ≠ .flush) ∧
      (∀ summary, ending.1 = .ok summary → log = worked ++ [(.flush, .accepted)]) ∧
      (∀ e, (units.zip results).findSome? (RunSummary.blocks policy) = some e →
        ending.1 = .error (.failed e) ∧ log = worked) ∧
      ((units.zip results).findSome? (RunSummary.blocks policy) = none →
        (∃ summary, ending.1 = .ok summary) ∧ log = worked ++ [(.flush, .accepted)] ∨
          ∃ e, ending.1 = .error (.failed (.flushing e)) ∧
            log = worked ++ [(.flush, .refused e)]) := by
  intro m ending worked log _
  have h : Accounted units m := accounted_run hreturns cx units schedule
  obtain ⟨results, hresults, hlength, hyields, haccepted⟩ := h.exists_results
  have hending : Ending policy (units.zip results) m ending :=
    conclude_ending hreturns policy h.units hresults hyields
  have hclear := RunSummary.findSome?_blocks_eq_none_iff policy hyields
  rw [← haccepted, forall_mem_zip_fst hlength] at hclear
  have hsummary (summary : RunSummary) (hok : ending.1 = .ok summary) :
      summary.units = (units.filter fun u => u.Classifies).map (·.fullReport) ∧
        summary.failures =
          units.filterMap (fun u => u.firstRejection?.map fun e => ⟨u.name, e.message⟩) ∧
        summary.stats.unitsAborted = summary.failures.length := by
    obtain ⟨hunits, hfailures, hstats⟩ := hending.summary hok
    rw [List.map_fst_zip (Nat.le_of_eq hlength)] at hunits hfailures
    exact ⟨hunits, hfailures, hstats⟩
  exact ⟨results, hresults, hending.ok_iff hclear, fun stop => hending.error_before_flush, hsummary,
    unflushed_run cx units schedule, fun summary => hending.log_of_ok,
    fun e => hending.of_blocked, hending.of_clear⟩

omit hreturns

/-- Two units that both carry `public`. -/
def twoUnits : List CompilationUnit :=
  [⟨"a.cs", [⟨⟨1⟩, .plain "A" .event .publicAccess⟩]⟩,
   ⟨"b.cs", [⟨⟨2⟩, .plain "B" .event .publicAccess⟩]⟩]

/-- A sink that takes declarations and refuses every edge. -/
def edgeless : FactSink (List Fact) :=
  .guarded (fun
    | .record (.hasModifiers _ _) => some (.io "full")
    | _ => none) .memory

/-- A sink that takes every fact and refuses to flush. -/
def unflushable : FactSink (List Fact) :=
  .guarded (fun
    | .flush => some (.io "full")
    | .record _ => none) .memory

/-- Over a sink without room for edges the second unit fails first, and the first unit is to blame.
Over one that refuses its flush every unit is written, and the flush is to blame. -/
theorem conclude_decides_twoSinks :
    let schedule : List Turn :=
      [⟨0, 0⟩, ⟨0, 0⟩, ⟨1, 1⟩, ⟨1, 1⟩, ⟨1, 1⟩, ⟨0, 0⟩, ⟨0, 0⟩, ⟨0, 0⟩, ⟨0, 0⟩, ⟨1, 1⟩]
    let m := run edgeless.observed (launch (Context.start []).watched twoUnits) schedule
    let m' := run unflushable.observed (launch (Context.start []).watched twoUnits) schedule
    let ending' := m'.conclude unflushable.observed .abortRun
    (m.Finished ∧ ∃ results, m.results = .ok results ∧
      (twoUnits.zip results).findSome? (RunSummary.blocks .abortUnit) =
        some (.writing "a.cs" (.io "full"))) ∧
      m'.Finished ∧ (∀ entry ∈ m'.context.sinkState.log, entry.1 ≠ .flush) ∧
      ending'.1 = .error (.failed (.flushing (.io "full"))) ∧
      ending'.2.sinkState.log =
        m'.context.sinkState.log ++ [(.flush, .refused (.io "full"))] := by
  intro schedule m m' ending'
  have hfinished : m.Finished := by decide +kernel
  have hfinished' : m'.Finished := by decide +kernel
  have hedgeless : edgeless.Returns := FactSink.memory_accepting.returns.guarded _
  have hunflushable : unflushable.Returns := FactSink.memory_accepting.returns.guarded _
  obtain ⟨results, hresults, -, hfirst, -⟩ :=
    conclude_decides hedgeless .abortUnit (Context.start []) twoUnits schedule hfinished
  obtain ⟨e, he, hblocks⟩ :=
    hfirst (.failed (.writing "a.cs" (.io "full"))) (by rfl) (by decide +kernel)
  cases he
  obtain ⟨results', hresults', -, -, -, hquiet, -, -, hflush⟩ :=
    conclude_decides hunflushable .abortRun (Context.start []) twoUnits schedule hfinished'
  have hvalue : m'.results = .ok [.ok ⟨"a.cs", 1, 1⟩, .ok ⟨"b.cs", 1, 1⟩] := by rfl
  cases hvalue.symm.trans hresults'
  refine ⟨⟨hfinished, results, hresults, hblocks⟩, hfinished', hquiet, ?_⟩
  rcases hflush rfl with ⟨-, hlog⟩ | ⟨e, hstop, hlog⟩
  · exact absurd hlog (by decide +kernel)
  · have hlast : ending'.2.sinkState.log.getLast? = some (.flush, .refused (.io "full")) := by rfl
    rw [hlog, List.getLast?_concat] at hlast
    cases hlast
    exact ⟨hstop, hlog⟩

include hreturns

/-- The run of a single worker, unit after unit, is the end of a schedule. -/
theorem exists_schedule_run (policy : FailurePolicy) (cx : Context σ)
    (units : List CompilationUnit) :
    ∃ schedule, (run sink.observed (launch cx.watched units) schedule).Finished ∧
      (run sink.observed (launch cx.watched units) schedule).conclude sink.observed policy =
        Context.run sink.observed policy units cx.watched := by
  obtain ⟨schedule, hcontext, hwork⟩ := exists_schedule_workOff sink.observed units cx.watched
  have h : Accounted units (run sink.observed (launch cx.watched units) schedule) :=
    accounted_run hreturns cx units schedule
  obtain ⟨results, hw⟩ := Context.workOff_of_returns hreturns.observed units cx.watched
  rw [hw] at hwork
  refine ⟨schedule, hwork.1, ?_⟩
  rw [conclude, hwork.2, h.units, hcontext, Context.run_apply,
    Context.extractAll_of_workOff sink.observed hw]

end Machine

end ModifierFacts
