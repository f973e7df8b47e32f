import Mathlib.Algebra.Ring.Nat
import ModifierFacts.Proofs.Extraction.Watched
import ModifierFacts.Proofs.Workers.Machine

/-!
# One worker, unit after unit

The extraction of a unit, as the context does it, is what becomes of its job when nobody else gets a
turn. So a run that works off its units one after the other is a schedule of the machine, and what
holds after every schedule holds after that run.

* `Machine.Reaches`: one state of context and jobs leads to another, by some turns;
* `Machine.Carries`: a list of actions, carried out alone, is this operation;
* **`Machine.exists_schedule_workOff`**: working off units one after the other is a schedule;
* **`Machine.exists_finished`**: whatever was done so far, some turns finish all units.
-/

namespace ModifierFacts

namespace Machine

variable {σ : Type} (sink : FactSink σ)

/-! ## 1. Turns of one worker -/

/-- Some turns lead from one context and list of jobs to another. -/
def Reaches (cx : Context σ) (jobs : List Job) (cx' : Context σ) (jobs' : List Job) : Prop :=
  ∀ received, ∃ schedule received', run sink ⟨cx, jobs, received⟩ schedule = ⟨cx', jobs', received'⟩

namespace Reaches

variable {sink} {cx cx' cx'' : Context σ} {jobs jobs' jobs'' : List Job}

theorem refl : Reaches sink cx jobs cx jobs := fun received => ⟨[], received, rfl⟩

theorem trans (h : Reaches sink cx jobs cx' jobs') (h' : Reaches sink cx' jobs' cx'' jobs'') :
    Reaches sink cx jobs cx'' jobs'' := by
  intro received
  obtain ⟨first, received₁, h₁⟩ := h received
  obtain ⟨second, received₂, h₂⟩ := h' received₁
  exact ⟨first ++ second, received₂, by rw [run_append, h₁, h₂]⟩

variable (sink) in
/-- A turn for a unit somewhere in the list. -/
theorem turn (before after : List Job) (job : Job) (cx : Context σ) :
    Reaches sink cx (before ++ job :: after) (job.step sink cx).2
      (before ++ (job.step sink cx).1 :: after) := by
  intro received
  refine ⟨[⟨0, before.length⟩], received ++ (job.created? cx).toList.map fun n => (0, n), ?_⟩
  show step sink _ _ = _
  unfold step
  simp only [List.getElem?_append_right (Nat.le_refl _), Nat.sub_self, List.getElem?_cons_zero,
    List.set_append_right _ _ (Nat.le_refl _), List.set_cons_zero]

end Reaches

/-! ## 2. Actions as operations -/

/-- What becomes of a job when an operation of its own ended like this. -/
def resume (job : Job) (rest : List Action) : Except Stop Unit → Job
  | .ok () => { job with pending := rest }
  | .error stop => { job with outcome := .error stop, pending := [] }

/-- Carried out without interruption, the actions do what the operation does. -/
def Carries (actions : List Action) (p : Extraction σ Unit) : Prop :=
  ∀ before after job rest cx,
    Reaches sink cx (before ++ { job with pending := actions ++ rest } :: after) (p cx).2
      (before ++ resume job rest (p cx).1 :: after)

namespace Carries

variable {sink}

theorem nil : Carries sink [] (pure ()) := fun _ _ _ _ _ => .refl

theorem append {as bs : List Action} {p q : Extraction σ Unit} (hp : Carries sink as p)
    (hq : Carries sink bs q) : Carries sink (as ++ bs) (p >>= fun _ => q) := by
  intro before after job rest cx
  have hfirst := hp before after job (bs ++ rest) cx
  rw [← List.append_assoc] at hfirst
  rw [bind_apply]
  rcases hpc : p cx with ⟨stop | _, cx'⟩
  · rw [hpc] at hfirst
    exact hfirst
  · rw [hpc] at hfirst
    exact hfirst.trans (hq before after job rest cx')

/-- A turn for an action, and then what follows from it. -/
theorem turn {a : Action} {more : List Action} {p : Extraction σ Unit} {cx cx' : Context σ}
    (h : a.perform sink cx = (.ok more, cx')) (hmore : Carries sink more p) (before after : List Job)
    (job : Job) (rest : List Action) :
    Reaches sink cx (before ++ { job with pending := a :: rest } :: after) (p cx').2
      (before ++ resume job rest (p cx').1 :: after) := by
  have hturn := Reaches.turn sink before after { job with pending := a :: rest } cx
  rw [Job.step_of_ok rfl h] at hturn
  exact hturn.trans (hmore before after job rest cx')

/-- An action that nothing follows is a turn. -/
theorem single {a : Action} {p : Extraction σ Unit}
    (h : a.perform sink = p >>= fun _ => pure []) : Carries sink [a] p := by
  intro before after job rest cx
  have hperform : a.perform sink cx = (p >>= fun _ => pure []) cx := by rw [h]
  rcases hpc : p cx with ⟨stop | _, cx'⟩
  · rw [bind_error hpc] at hperform
    have hturn := Reaches.turn sink before after { job with pending := a :: rest } cx
    rw [Job.step_of_error rfl hperform] at hturn
    exact hturn
  · rw [bind_ok hpc] at hperform
    exact turn hperform nil before after job rest

theorem attach (d : DeclarationId) (m : EntityId) :
    Carries sink [.attach d m, .countEdge] (Context.attach sink d m) :=
  append (single rfl) (single rfl)

/-- A request, with all that follows from it, attaches the modifier. -/
theorem request (d : DeclarationId) (n : String) :
    Carries sink [.request d n] (Context.hasModifier sink d n) := by
  intro before after job rest cx
  cases hn : cx.registry.get? n with
  | some e =>
    rw [Context.hasModifier_of_some sink hn]
    exact turn (Action.perform_request_of_some sink hn d) (attach d e.id) before after job rest
  | none =>
    rw [Context.hasModifier_of_none sink hn]
    exact turn (Action.perform_request_of_none sink hn d)
      (append (single rfl) (append (single rfl) (attach d _))) before after job rest

theorem flatMap {α : Type} {actions : α → List Action} {f : α → Extraction σ Unit}
    (h : ∀ a, Carries sink (actions a) (f a)) (l : List α) :
    Carries sink (l.flatMap actions) (l.forM f) := by
  induction l with
  | nil => exact nil
  | cons a l ih =>
    rw [List.flatMap_cons]
    exact append (h a) ih

end Carries

/-! ## 3. Units in order -/

/-- The job of a unit, worked off alone, is its extraction. -/
theorem reaches_extractUnit (u : CompilationUnit) (before after : List Job) (cx : Context σ) :
    Reaches sink cx (before ++ .begin u :: after) (Context.extractUnit sink u cx).2
      (before ++ ⟨u, (Context.extractUnit sink u cx).1, []⟩ :: after) := by
  cases hc : u.classify with
  | error e =>
    rw [Job.begin_of_error hc, Context.extractUnit_of_error sink hc]
    exact .refl
  | ok classified =>
    have hdeclaration (d : ClassifiedDeclaration) :
        Carries sink d.actions (Context.writeDeclaration sink d) := by
      show Carries sink ([.countClassified] ++ d.modifiers.names.map (.request d.id)) _
      rw [List.map_eq_flatMap]
      exact .append (.single rfl) (.flatMap (.request d.id) _)
    have hunit := Carries.flatMap hdeclaration classified before after
      ⟨u, .ok (u.report classified), []⟩ [] cx
    rw [List.append_nil] at hunit
    rw [Job.begin_of_ok hc, Context.extractUnit_of_ok sink hc, bind_apply]
    rcases hwrite : classified.forM (Context.writeDeclaration sink) cx with ⟨stop | _, cx'⟩
    · rw [hwrite] at hunit
      exact hunit
    · rw [hwrite] at hunit
      exact hunit

/-- The units one after the other, up to a crash if there is one. -/
theorem reaches_workOff (units : List CompilationUnit) (before : List Job) (cx : Context σ) :
    ∃ jobs, Reaches sink cx (before ++ units.map .begin) (Context.workOff sink units cx).2
        (before ++ jobs) ∧
      match (Context.workOff sink units cx).1 with
      | .ok results => (∀ job ∈ jobs, job.pending = []) ∧
          (jobs.mapM fun job => UnitResult.ofOutcome job.outcome) = .ok results
      | .error .crash => ∃ job ∈ jobs, job.outcome = .error .crashed := by
  induction units generalizing before cx with
  | nil => exact ⟨[], .refl, List.forall_mem_nil _, rfl⟩
  | cons u units ih =>
    have hunit := reaches_extractUnit sink u before (units.map .begin) cx
    have hattempt := Context.attempt_apply sink u cx
    rcases hu : Context.extractUnit sink u cx with ⟨outcome, cx₁⟩
    rw [hu] at hunit hattempt
    rw [List.map_cons, Context.workOff_cons]
    cases hr : UnitResult.ofOutcome outcome with
    | error c =>
      have hcrashed : outcome = .error .crashed := by
        rcases outcome with (_ | _) | _ <;> cases hr
        rfl
      rw [hr] at hattempt
      rw [bind_error hattempt]
      exact ⟨_, hunit, ⟨u, outcome, []⟩, List.mem_cons_self, hcrashed⟩
    | ok r =>
      rw [hr] at hattempt
      rw [bind_ok hattempt]
      obtain ⟨jobs, hreach, hjobs⟩ := ih (before ++ [⟨u, outcome, []⟩]) cx₁
      rw [List.append_assoc, List.append_assoc] at hreach
      rcases hrest : Context.workOff sink units cx₁ with ⟨c | results, cx₂⟩
      · rw [hrest] at hreach hjobs
        rw [bind_error hrest]
        obtain ⟨job, hmem, hcrashed⟩ := hjobs
        exact ⟨_, hunit.trans hreach, job, List.mem_cons_of_mem _ hmem, hcrashed⟩
      · rw [hrest] at hreach hjobs
        rw [bind_ok hrest]
        refine ⟨⟨u, outcome, []⟩ :: jobs, hunit.trans hreach, ?_, ?_⟩
        · rw [List.forall_mem_cons]
          exact ⟨rfl, hjobs.1⟩
        · rw [List.mapM_cons, hr, hjobs.2]
          rfl

/-- Working off the units in order is a schedule; if the sink crashes, it crashes there as well. -/
theorem exists_schedule_workOff (units : List CompilationUnit) (cx : Context σ) :
    ∃ schedule, (run sink (launch cx units) schedule).context = (Context.workOff sink units cx).2 ∧
      match (Context.workOff sink units cx).1 with
      | .ok results => (run sink (launch cx units) schedule).Finished ∧
          (run sink (launch cx units) schedule).results = .ok results
      | .error .crash =>
          ∃ job ∈ (run sink (launch cx units) schedule).jobs, job.outcome = .error .crashed := by
  obtain ⟨jobs, hreach, hjobs⟩ := reaches_workOff sink units [] cx
  obtain ⟨schedule, received, hrun⟩ := hreach []
  have hlaunch : run sink (launch cx units) schedule =
      ⟨(Context.workOff sink units cx).2, jobs, received⟩ := hrun
  refine ⟨schedule, ?_⟩
  rw [hlaunch]
  exact ⟨rfl, hjobs⟩

/-! ## 4. Every schedule can be finished -/

end Machine

/-- The number of steps that an action can take, with all that may follow it. -/
def Action.weight : Action → Nat
  | request _ _ => 5
  | _ => 1

/-- The number of steps that a job can still take. -/
def Job.weight (job : Job) : Nat := (job.pending.map (·.weight)).sum

variable {σ : Type} (sink : FactSink σ)

theorem Action.weight_pos (a : Action) : 0 < a.weight := by
  cases a <;> exact Nat.succ_pos _

theorem Action.weight_perform_lt {a : Action} {more : List Action} {cx cx' : Context σ}
    (h : a.perform sink cx = (.ok more, cx')) : (more.map (·.weight)).sum < a.weight := by
  cases hcall : a.call? with
  | some c =>
    -- nothing follows a call
    rw [perform_of_call sink hcall] at h
    cases hreply : (sink.reply cx.sinkState c).1 <;> rw [hreply] at h <;> cases h
    exact a.weight_pos
  | none =>
    cases a with
    | declare e => cases hcall
    | attach d m => cases hcall
    | countClassified => cases h; exact Nat.one_pos
    | countEntity => cases h; exact Nat.one_pos
    | countEdge => cases h; exact Nat.one_pos
    | request d n =>
      cases hn : cx.registry.get? n with
      | some e =>
        rw [perform_request_of_some sink hn] at h
        cases h
        show 2 < 5
        omega
      | none =>
        rw [perform_request_of_none sink hn] at h
        cases h
        show 4 < 5
        omega

theorem Job.weight_step_lt {job : Job} (h : job.pending ≠ []) (cx : Context σ) :
    (job.step sink cx).1.weight < job.weight := by
  obtain ⟨a, rest, hnext⟩ := List.exists_cons_of_ne_nil h
  have hweight : job.weight = a.weight + (rest.map (·.weight)).sum := by
    rw [weight, hnext, List.map_cons, List.sum_cons]
  have hpos := a.weight_pos
  rcases hperform : a.perform sink cx with ⟨stop | more, cx'⟩
  · rw [Job.step_of_error hnext hperform, hweight]
    show 0 < _
    omega
  · have hmore := Action.weight_perform_lt sink hperform
    rw [Job.step_of_ok hnext hperform, hweight, weight, List.map_append, List.sum_append]
    omega

namespace Machine

/-- **From every state there are turns that finish all units.** -/
theorem exists_finished (m : Machine σ) : ∃ schedule, (run sink m schedule).Finished := by
  induction hn : (m.jobs.map (·.weight)).sum using Nat.strongRecOn generalizing m with
  | ind n ih =>
    by_cases hm : m.Finished
    · exact ⟨[], hm⟩
    · obtain ⟨job, hmem, hpending⟩ : ∃ job ∈ m.jobs, job.pending ≠ [] := by
        simpa [Finished] using hm
      obtain ⟨before, after, hjobs⟩ := List.append_of_mem hmem
      obtain ⟨first, received, hfirst⟩ := Reaches.turn sink before after job m.context m.received
      rw [← hjobs] at hfirst
      have hless := Job.weight_step_lt sink hpending m.context
      have hlt : ((before ++ (job.step sink m.context).1 :: after).map (·.weight)).sum < n := by
        rw [← hn, hjobs, List.map_append, List.map_append, List.map_cons, List.map_cons,
          List.sum_append, List.sum_append, List.sum_cons, List.sum_cons]
        omega
      obtain ⟨rest, hrest⟩ := ih _ hlt ⟨_, _, received⟩ rfl
      refine ⟨first ++ rest, ?_⟩
      rw [run_append, hfirst]
      exact hrest

end Machine

end ModifierFacts
