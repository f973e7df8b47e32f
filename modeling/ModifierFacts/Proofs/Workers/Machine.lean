import ModifierFacts.Proofs.Extraction.Primitive
import ModifierFacts.Proofs.Extraction.Unit

/-!
# Workers that share a context

Several workers may extract the units of a run at the same time, over one context. What each of
them does comes in actions that are atomic on the context; between two actions of one worker any
number of actions of the others may happen.

* `Action`: a request for an entity, a call of the sink, or a count. A request is answered before
  its declaration is written, so another worker may get an entity that is not declared yet.
* `Job`: a unit with its actions still to come, and its outcome if none of them fails.
* `Machine`: the shared context, the jobs, and who was told that it created an entity.
* `Machine.run`: the machine under a schedule, which is any list of turns. A turn lets one worker
  carry out the next action of one unit, so every assignment of the units to workers and every order
  of their actions is a schedule.
* `Machine.Moves`: what a turn can do; what holds along all turns is proved from it
  (`Machine.run_induction`).
-/

namespace ModifierFacts

/-! ## 1. Actions -/

/-- What is done in one atomic step. -/
inductive Action where
  | countClassified
  /-- Requests the entity of a name, in order to attach it to a declaration. -/
  | request (declaration : DeclarationId) (name : String)
  | declare (entity : ModifierEntity)
  | countEntity
  | attach (declaration : DeclarationId) (modifier : EntityId)
  | countEdge
  deriving DecidableEq, Repr

namespace Action

variable {σ : Type}

/-- Carries out an action. The answer is what has to follow it: after a request, the declaration of
the entity if it is new, and the edge. -/
def perform (sink : FactSink σ) : Action → Extraction σ (List Action)
  | countClassified => do
    Context.countClassified
    return []
  | request d n => do
    let obtained ← Context.register n
    let first := if obtained.created then [declare obtained.entity, countEntity] else []
    return first ++ [attach d obtained.entity.id, countEdge]
  | declare e => do
    Context.call sink (.record (.modifiers e.id e.name))
    return []
  | countEntity => do
    Context.countEntity
    return []
  | attach d m => do
    Context.call sink (.record (.hasModifiers d m))
    return []
  | countEdge => do
    Context.countEdge
    return []

/-- The name whose entity this action is told to have created. -/
def created? (cx : Context σ) : Action → Option String
  | request _ n =>
    match (Context.register n cx).1 with
    | .ok obtained => if obtained.created then some n else none
    | .error _ => none
  | _ => none

theorem perform_request_of_some (sink : FactSink σ) {n : String} {e : ModifierEntity}
    {cx : Context σ} (h : cx.registry.get? n = some e) (d : DeclarationId) :
    (request d n).perform sink cx = (.ok [attach d e.id, countEdge], cx) := by
  have hreg : Context.register n cx = (.ok ⟨e, false⟩, cx) := by rw [Context.register_apply, h]
  exact bind_ok hreg _

theorem perform_request_of_none (sink : FactSink σ) {n : String} {cx : Context σ}
    (h : cx.registry.get? n = none) (d : DeclarationId) :
    (request d n).perform sink cx =
      (.ok [declare (.ofName n), countEntity, attach d (ModifierEntity.ofName n).id, countEdge],
        { cx with registry := cx.registry.register n (.ofName n) }) := by
  have hreg : Context.register n cx = (.ok ⟨.ofName n, true⟩,
      { cx with registry := cx.registry.register n (.ofName n) }) := by
    rw [Context.register_apply, h]
  exact bind_ok hreg _

theorem created?_request_of_some {n : String} {e : ModifierEntity} {cx : Context σ}
    (h : cx.registry.get? n = some e) (d : DeclarationId) : (request d n).created? cx = none := by
  rw [created?, Context.register_apply, h]
  rfl

theorem created?_request_of_none {n : String} {cx : Context σ} (h : cx.registry.get? n = none)
    (d : DeclarationId) : (request d n).created? cx = some n := by
  rw [created?, Context.register_apply, h]
  rfl

/-- The call of the sink that an action consists of, if it is one. -/
def call? : Action → Option SinkCall
  | declare e => some (.record (.modifiers e.id e.name))
  | attach d m => some (.record (.hasModifiers d m))
  | _ => none

theorem perform_of_call (sink : FactSink σ) {a : Action} {c : SinkCall} (h : a.call? = some c)
    (cx : Context σ) :
    a.perform sink cx = ((sink.reply cx.sinkState c).1.outcome.map fun _ => [],
      { cx with sinkState := (sink.reply cx.sinkState c).2 }) := by
  have hcall : a.perform sink = (Context.call sink c >>= fun _ => pure []) := by
    cases a <;> cases h <;> rfl
  rw [hcall, bind_apply, Context.call_apply]
  cases (sink.reply cx.sinkState c).1 <;> rfl

/-- Only calls of the sink fail. -/
theorem perform_of_no_call (sink : FactSink σ) {a : Action} (h : a.call? = none) (cx : Context σ) :
    ∃ more cx', a.perform sink cx = (.ok more, cx') ∧ cx'.sinkState = cx.sinkState := by
  cases a with
  | declare e => cases h
  | attach d m => cases h
  | countClassified => exact ⟨_, _, rfl, rfl⟩
  | countEntity => exact ⟨_, _, rfl, rfl⟩
  | countEdge => exact ⟨_, _, rfl, rfl⟩
  | request d n =>
    cases hn : cx.registry.get? n with
    | some e => exact ⟨_, _, perform_request_of_some sink hn d, rfl⟩
    | none => exact ⟨_, _, perform_request_of_none sink hn d, rfl⟩

end Action

/-- The actions that write a declaration. -/
def ClassifiedDeclaration.actions (d : ClassifiedDeclaration) : List Action :=
  .countClassified :: d.modifiers.names.map (.request d.id)

/-! ## 2. Jobs -/

/-- The extraction of a unit: what it still has to do, and how it ends if no call is refused. -/
structure Job where
  unit : CompilationUnit
  outcome : Except Stop UnitReport
  pending : List Action

namespace Job

variable {σ : Type}

/-- The extraction of a unit before its first action. A unit that is rejected has nothing to do. -/
def begin (u : CompilationUnit) : Job :=
  match u.classify with
  | .error e => ⟨u, .error (.failed (.modifier e)), []⟩
  | .ok classified => ⟨u, .ok (u.report classified), classified.flatMap (·.actions)⟩

theorem begin_of_error {u : CompilationUnit} {e : Unsupported} (h : u.classify = .error e) :
    begin u = ⟨u, .error (.failed (.modifier e)), []⟩ := by
  rw [begin, h]

theorem begin_of_ok {u : CompilationUnit} {classified : List ClassifiedDeclaration}
    (h : u.classify = .ok classified) :
    begin u = ⟨u, .ok (u.report classified), classified.flatMap (·.actions)⟩ := by
  rw [begin, h]

theorem unit_begin (u : CompilationUnit) : (begin u).unit = u := by
  unfold begin
  cases u.classify <;> rfl

/-- Carries out the next action. The first one that fails ends the job. -/
def step (sink : FactSink σ) (job : Job) (cx : Context σ) : Job × Context σ :=
  match job.pending with
  | [] => (job, cx)
  | a :: rest =>
    match a.perform sink cx with
    | (.ok more, cx') => ({ job with pending := more ++ rest }, cx')
    | (.error stop, cx') => ({ job with outcome := .error stop, pending := [] }, cx')

theorem step_of_nil {sink : FactSink σ} {job : Job} (h : job.pending = []) (cx : Context σ) :
    job.step sink cx = (job, cx) := by
  rw [step, h]

theorem step_of_ok {sink : FactSink σ} {job : Job} {a : Action} {rest more : List Action}
    {cx cx' : Context σ} (h : job.pending = a :: rest) (hp : a.perform sink cx = (.ok more, cx')) :
    job.step sink cx = ({ job with pending := more ++ rest }, cx') := by
  rw [step, h]
  simp only [hp]

theorem step_of_error {sink : FactSink σ} {job : Job} {a : Action} {rest : List Action} {stop : Stop}
    {cx cx' : Context σ} (h : job.pending = a :: rest)
    (hp : a.perform sink cx = (.error stop, cx')) :
    job.step sink cx = ({ job with outcome := .error stop, pending := [] }, cx') := by
  rw [step, h]
  simp only [hp]

/-- The name whose entity the next action is told to have created. -/
def created? (job : Job) (cx : Context σ) : Option String :=
  job.pending.head?.bind (·.created? cx)

end Job

/-! ## 3. The machine -/

/-- One worker carries out the next action of one unit. -/
structure Turn where
  worker : Nat
  unit : Nat
  deriving DecidableEq, Repr

/-- The shared context and the jobs, in the order of the units. `received` says which worker was
told that it created the entity of which name. -/
structure Machine (σ : Type) where
  context : Context σ
  jobs : List Job
  received : List (Nat × String) := []

namespace Machine

variable {σ : Type} (sink : FactSink σ)

/-- The machine before the first turn. -/
def launch (cx : Context σ) (units : List CompilationUnit) : Machine σ :=
  { context := cx, jobs := units.map .begin }

/-- The machine after a turn. -/
def step (m : Machine σ) (t : Turn) : Machine σ :=
  match m.jobs[t.unit]? with
  | none => m
  | some job =>
    { context := (job.step sink m.context).2
      jobs := m.jobs.set t.unit (job.step sink m.context).1
      received := m.received ++ (job.created? m.context).toList.map fun n => (t.worker, n) }

/-- The machine after a list of turns. -/
def run (m : Machine σ) (schedule : List Turn) : Machine σ := schedule.foldl (step sink) m

/-- Nothing is left to do. -/
def Finished (m : Machine σ) : Prop := ∀ job ∈ m.jobs, job.pending = []

instance (m : Machine σ) : Decidable m.Finished :=
  inferInstanceAs (Decidable (∀ job ∈ m.jobs, job.pending = []))

/-- The actions that are still to come. -/
def pending (m : Machine σ) : List Action := m.jobs.flatMap (·.pending)

/-- The results of the units, in their order; none if the sink crashed. -/
def results (m : Machine σ) : Except Crash (List UnitResult) :=
  m.jobs.mapM fun job => UnitResult.ofOutcome job.outcome

/-- Ends the run once all workers are done. -/
def conclude (policy : FailurePolicy) (m : Machine σ) : Except RunStop RunSummary × Context σ :=
  match m.results with
  | .error .crash => (.error .crashed, m.context)
  | .ok results => Context.conclude sink policy (m.jobs.map (·.unit)) results m.context

theorem finished_iff (m : Machine σ) : m.Finished ↔ m.pending = [] := by
  unfold Finished pending
  rw [List.flatMap_eq_nil_iff]

/-! ## 4. What a turn does -/

/-- The outcomes of a turn of this worker: nothing, when the unit is done; or the next action of a
unit, which is followed by others, or fails. -/
inductive Moves (worker : Nat) (m : Machine σ) : Machine σ → Prop where
  | idle : Moves worker m m
  | acted {before after : List Job} {job : Job} {a : Action} {rest more : List Action}
      {cx : Context σ} (jobs : m.jobs = before ++ job :: after) (next : job.pending = a :: rest)
      (performed : a.perform sink m.context = (.ok more, cx)) :
      Moves worker m
        { context := cx
          jobs := before ++ { job with pending := more ++ rest } :: after
          received := m.received ++ (a.created? m.context).toList.map fun n => (worker, n) }
  | stopped {before after : List Job} {job : Job} {a : Action} {rest : List Action} {stop : Stop}
      {cx : Context σ} (jobs : m.jobs = before ++ job :: after) (next : job.pending = a :: rest)
      (performed : a.perform sink m.context = (.error stop, cx)) :
      Moves worker m
        { context := cx
          jobs := before ++ { job with outcome := .error stop, pending := [] } :: after
          received := m.received ++ (a.created? m.context).toList.map fun n => (worker, n) }

theorem step_moves (m : Machine σ) (t : Turn) : Moves sink t.worker m (step sink m t) := by
  unfold step
  cases hjob : m.jobs[t.unit]? with
  | none => exact .idle
  | some job =>
    obtain ⟨hlt, hget⟩ := List.getElem?_eq_some_iff.mp hjob
    have hjobs : m.jobs = m.jobs.take t.unit ++ job :: m.jobs.drop (t.unit + 1) := by
      rw [← hget, List.getElem_cons_drop, List.take_append_drop]
    have hset (job' : Job) : m.jobs.set t.unit job' =
        m.jobs.take t.unit ++ job' :: m.jobs.drop (t.unit + 1) := by
      rw [List.set_eq_take_append_cons_drop, if_pos hlt]
    simp only [hset]
    cases hnext : job.pending with
    | nil =>
      have hcreated : job.created? m.context = none := by rw [Job.created?, hnext]; rfl
      rw [Job.step_of_nil hnext, hcreated, Option.toList_none, List.map_nil, List.append_nil, ← hjobs]
      exact .idle
    | cons a rest =>
      have hcreated : job.created? m.context = a.created? m.context := by
        rw [Job.created?, hnext]
        rfl
      rcases hperform : a.perform sink m.context with ⟨stop | more, cx⟩
      · rw [Job.step_of_error hnext hperform, hcreated]
        exact .stopped hjobs hnext hperform
      · rw [Job.step_of_ok hnext hperform, hcreated]
        exact .acted hjobs hnext hperform

/-- **What every turn keeps holds after every schedule.** -/
theorem run_induction {I : Machine σ → Prop}
    (hturn : ∀ worker m m', Moves sink worker m m' → I m → I m') (schedule : List Turn)
    {m : Machine σ} (h : I m) : I (run sink m schedule) := by
  induction schedule generalizing m with
  | nil => exact h
  | cons t schedule ih => exact ih (hturn t.worker m _ (step_moves sink m t) h)

theorem run_append (m : Machine σ) (first second : List Turn) :
    run sink m (first ++ second) = run sink (run sink m first) second :=
  List.foldl_append

end Machine

end ModifierFacts
