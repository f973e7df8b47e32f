import Mathlib.Algebra.Ring.Nat
import Mathlib.Data.List.Nodup
import ModifierFacts.Proofs.Extraction.Walk
import ModifierFacts.Proofs.Workers.Outcome

/-!
# What many workers write together

Over a sink that accepts every call, the order of the work makes no difference to what is written.
The proof keeps a ledger: what the sink holds and what is still to come add up, for every fact and
every counter, to something that no turn changes.

* `Acts`: what an action does over such a sink, one case for each kind of action;
* `Action.owes`: how often an action will still write a fact, or count;
* `Machine.Ledger`: the sums, with `Ledger.launch` and `Ledger.moves`;
* `Ledger.agree`: two machines that finished the same units hold the same;
* **`Machine.run_decides_facts`**: in every state no name was declared twice and none was handed out
  as new twice; and in the end the sink holds, up to order, what a single worker would have written,
  with the same counters.
-/

namespace ModifierFacts

/-! ## 1. Accepted actions -/

variable {σ : Type}

/-- What an action does to the context, and what has to follow it, if no call is refused. -/
inductive Acts (cx : Context (Observed σ)) :
    Action → List Action → Context (Observed σ) → Prop where
  | known {d : DeclarationId} {n : String} {e : ModifierEntity} (h : cx.registry.get? n = some e) :
      Acts cx (.request d n) [.attach d e.id, .countEdge] cx
  | fresh {d : DeclarationId} {n : String} (h : cx.registry.get? n = none) :
      Acts cx (.request d n)
        [.declare (.ofName n), .countEntity, .attach d (ModifierEntity.ofName n).id, .countEdge]
        { cx with registry := cx.registry.register n (.ofName n) }
  | declare {e : ModifierEntity} {s : Observed σ}
      (h : s.log = cx.sinkState.log ++ .ofFacts [.modifiers e.id e.name]) :
      Acts cx (.declare e) [] { cx with sinkState := s }
  | attach {d : DeclarationId} {m : EntityId} {s : Observed σ}
      (h : s.log = cx.sinkState.log ++ .ofFacts [.hasModifiers d m]) :
      Acts cx (.attach d m) [] { cx with sinkState := s }
  | countClassified :
      Acts cx .countClassified [] { cx with declarationsClassified := cx.declarationsClassified + 1 }
  | countEntity : Acts cx .countEntity [] { cx with entitiesCreated := cx.entitiesCreated + 1 }
  | countEdge : Acts cx .countEdge [] { cx with edgesAttached := cx.edgesAttached + 1 }

theorem acts_of_perform {sink : FactSink σ} (haccept : sink.Accepting) {a : Action}
    {more : List Action} {cx cx' : Context (Observed σ)}
    (h : a.perform sink.observed cx = (.ok more, cx')) : Acts cx a more cx' := by
  cases a with
  | request d n =>
    cases hn : cx.registry.get? n with
    | some e =>
      rw [Action.perform_request_of_some sink.observed hn] at h
      cases h
      exact .known hn
    | none =>
      rw [Action.perform_request_of_none sink.observed hn] at h
      cases h
      exact .fresh hn
  | declare e =>
    rw [Action.perform_of_call sink.observed rfl, haccept.observed] at h
    cases h
    refine .declare ?_
    rw [FactSink.log_observed_reply, haccept.observed]
    rfl
  | attach d m =>
    rw [Action.perform_of_call sink.observed rfl, haccept.observed] at h
    cases h
    refine .attach ?_
    rw [FactSink.log_observed_reply, haccept.observed]
    rfl
  | countClassified => cases h; exact .countClassified
  | countEntity => cases h; exact .countEntity
  | countEdge => cases h; exact .countEdge

/-- No action fails over an accepting sink. -/
theorem perform_ne_error {sink : FactSink σ} (haccept : sink.Accepting) (a : Action)
    (cx : Context (Observed σ)) (stop : Stop) (cx' : Context (Observed σ)) :
    a.perform sink.observed cx ≠ (.error stop, cx') := by
  intro h
  cases hcall : a.call? with
  | none =>
    obtain ⟨more, cx'', hperform, -⟩ := Action.perform_of_no_call sink.observed hcall cx
    rw [hperform] at h
    cases h
  | some c =>
    rw [Action.perform_of_call sink.observed hcall, haccept.observed] at h
    cases h

/-! ## 2. What is still to come -/

namespace Action

/-- The fact that an action writes, at once or by what follows from it whatever the registry says. -/
def fact? : Action → Option Fact
  | request d n => some (.carrying (d, n))
  | declare e => some (.modifiers e.id e.name)
  | attach d m => some (.hasModifiers d m)
  | _ => none

/-- How often the action writes a fact. -/
def owes (f : Fact) (a : Action) : Nat := if a.fact? = some f then 1 else 0

theorem owes_of_none {a : Action} (h : a.fact? = none) (f : Fact) : a.owes f = 0 := by
  rw [owes, h]
  exact if_neg fun hsome => nomatch hsome

theorem owes_of_some {a : Action} {g : Fact} (h : a.fact? = some g) (f : Fact) :
    a.owes f = [g].count f := by
  rw [owes, h, List.count_singleton]
  simp

/-- The edge that follows a request is the one that the request owes. -/
theorem owes_attach (f : Fact) (d : DeclarationId) (n : String) :
    (attach d (ModifierEntity.ofName n).id).owes f = (request d n).owes f := rfl

/-- How many entities the action counts. -/
def entities : Action → Nat
  | countEntity => 1
  | _ => 0

/-- How many edges the action counts. -/
def edges : Action → Nat
  | request _ _ => 1
  | countEdge => 1
  | _ => 0

/-- How many declarations the action counts. -/
def classified : Action → Nat
  | countClassified => 1
  | _ => 0

end Action

namespace Acts

variable {a : Action} {more : List Action} {cx cx' : Context (Observed σ)}

theorem keys (h : Acts cx a more cx') :
    cx'.registry.keys = cx.registry.keys ++ (a.created? cx).toList := by
  cases h with
  | known h =>
    rw [Action.created?_request_of_some h, Option.toList_none, List.append_nil]
  | fresh h =>
    rw [Action.created?_request_of_none h, Registry.keys_register, Option.toList_some]
  | _ => exact (List.append_nil _).symm

theorem created_not_mem (h : Acts cx a more cx') {n : String} (hn : a.created? cx = some n) :
    n ∉ cx.registry.keys := by
  cases h with
  | known h =>
    rw [Action.created?_request_of_some h] at hn
    cases hn
  | fresh h =>
    rw [Action.created?_request_of_none h] at hn
    cases hn
    exact (cx.registry.get?_eq_none_iff _).mp h
  | _ => cases hn

theorem faithful (h : Acts cx a more cx') (hf : cx.registry.Faithful) : cx'.registry.Faithful := by
  cases h with
  | fresh h => exact hf.register h
  | _ => exact hf

theorem log (h : Acts cx a more cx') :
    ∃ fs, cx'.sinkState.log = cx.sinkState.log ++ .ofFacts fs := by
  cases h with
  | declare h => exact ⟨_, h⟩
  | attach h => exact ⟨_, h⟩
  | _ => exact ⟨[], (List.append_nil _).symm⟩

/-- A request registers its name, unless it is registered. -/
theorem mem_keys_iff (h : Acts cx a more cx') (n : String) :
    n ∈ cx'.registry.keys ↔ n ∈ cx.registry.keys ∨ ∃ d, a = .request d n := by
  rw [h.keys, List.mem_append]
  cases h with
  | @known d m e hm =>
    rw [Action.created?_request_of_some hm]
    have hkey := Registry.mem_keys_of_get? hm
    constructor
    · intro h
      rcases h with h | h
      · exact .inl h
      · cases h
    · intro h
      rcases h with h | ⟨d', h⟩
      · exact .inl h
      · cases h
        exact .inl hkey
  | @fresh d m hm =>
    rw [Action.created?_request_of_none hm, Option.toList_some, List.mem_singleton]
    constructor
    · intro h
      rcases h with h | rfl
      · exact .inl h
      · exact .inr ⟨d, rfl⟩
    · intro h
      rcases h with h | ⟨d', h⟩
      · exact .inl h
      · cases h
        exact .inr rfl
  | _ => simp [Action.created?]

/-- Nothing that follows an action is a request. -/
theorem not_mem_request (h : Acts cx a more cx') (d : DeclarationId) (n : String) :
    .request d n ∉ more := by
  cases h <;> simp

/-- **The facts that are there and those to come grow by a declaration for every new key.** -/
theorem facts (h : Acts cx a more cx') (hf : cx.registry.Faithful) (f : Fact) :
    cx'.sinkState.log.taken.count f + (more.map (·.owes f)).sum +
        (cx.registry.keys.map Fact.declaring).count f =
      cx.sinkState.log.taken.count f + a.owes f +
        (cx'.registry.keys.map Fact.declaring).count f := by
  have hedge : Action.countEdge.owes f = 0 := Action.owes_of_none rfl f
  have hentity : Action.countEntity.owes f = 0 := Action.owes_of_none rfl f
  rw [h.keys, List.map_append, List.count_append]
  cases h with
  | @known d n e h =>
    have hattach : (Action.attach d e.id).owes f = (Action.request d n).owes f := by
      rw [hf n e h]
      exact Action.owes_attach f d n
    rw [Action.created?_request_of_some h, Option.toList_none]
    simp only [List.map_cons, List.map_nil, List.sum_cons, List.sum_nil, List.count_nil]
    omega
  | @fresh d n h =>
    have hattach := Action.owes_attach f d n
    have hdeclare : (Action.declare (.ofName n)).owes f = [Fact.declaring n].count f :=
      Action.owes_of_some rfl f
    rw [Action.created?_request_of_none h, Option.toList_some]
    simp only [List.map_cons, List.map_nil, List.sum_cons, List.sum_nil]
    omega
  | @declare e s h =>
    have hdeclare : (Action.declare e).owes f = [Fact.modifiers e.id e.name].count f :=
      Action.owes_of_some rfl f
    rw [h, SinkLog.taken_append, SinkLog.taken_ofFacts, List.count_append, hdeclare]
    rfl
  | @attach d m s h =>
    have hattach : (Action.attach d m).owes f = [Fact.hasModifiers d m].count f :=
      Action.owes_of_some rfl f
    rw [h, SinkLog.taken_append, SinkLog.taken_ofFacts, List.count_append, hattach]
    rfl
  | countClassified => rfl
  | countEntity => rfl
  | countEdge => rfl

theorem entities (h : Acts cx a more cx') :
    cx'.entitiesCreated + (more.map (·.entities)).sum + cx.registry.keys.length =
      cx.entitiesCreated + a.entities + cx'.registry.keys.length := by
  rw [h.keys, List.length_append]
  cases h with
  | known h =>
    rw [Action.created?_request_of_some h]
    rfl
  | fresh h =>
    rw [Action.created?_request_of_none h]
    show cx.entitiesCreated + 1 + _ = cx.entitiesCreated + 0 + (_ + 1)
    omega
  | _ => rfl

theorem edges (h : Acts cx a more cx') :
    cx'.edgesAttached + (more.map (·.edges)).sum = cx.edgesAttached + a.edges := by
  cases h <;> rfl

theorem classified (h : Acts cx a more cx') :
    cx'.declarationsClassified + (more.map (·.classified)).sum =
      cx.declarationsClassified + a.classified := by
  cases h <;> rfl

end Acts

/-! ## 3. The ledger -/

namespace Machine

/-- What the pending actions come to. -/
def owed (w : Action → Nat) (m : Machine σ) : Nat := (m.pending.map w).sum

/-- The number of declarations in the units that are not rejected. -/
def recordCount (units : List CompilationUnit) : Nat :=
  ((units.filter fun u => u.Classifies).map (·.declarations.length)).sum

/-- **The ledger of the extraction of these units.** In each sum the left side is what was done
and what is still to come. -/
structure Ledger (units : List CompilationUnit) (m : Machine (Observed σ)) : Prop where
  faithful : m.context.registry.Faithful
  nodup : m.context.registry.keys.Nodup
  /-- Every key was handed out as new, once and in the order of the keys. -/
  received : m.received.map (·.2) = m.context.registry.keys
  /-- No call was refused. -/
  log : m.context.sinkState.log = .ofFacts m.context.sinkState.log.taken
  /-- A name of the units is registered, or some action will request it. -/
  names : ∀ n, (n ∈ m.context.registry.keys ∨ ∃ d, .request d n ∈ m.pending) ↔
    n ∈ (pairsOf units).map (·.2)
  facts : ∀ f, m.context.sinkState.log.taken.count f + m.owed (·.owes f) =
    (m.context.registry.keys.map Fact.declaring).count f + ((pairsOf units).map .carrying).count f
  entities : m.context.entitiesCreated + m.owed (·.entities) = m.context.registry.keys.length
  edges : m.context.edgesAttached + m.owed (·.edges) = (pairsOf units).length
  classified : m.context.declarationsClassified + m.owed (·.classified) = recordCount units

theorem pending_of_jobs {m : Machine σ} (before after : List Job) (job : Job)
    (h : m.jobs = before ++ job :: after) :
    m.pending = before.flatMap (·.pending) ++ (job.pending ++ after.flatMap (·.pending)) := by
  rw [pending, h, List.flatMap_append, List.flatMap_cons]

theorem owed_of_pending {m : Machine σ} {first middle last : List Action}
    (h : m.pending = first ++ (middle ++ last)) (w : Action → Nat) :
    m.owed w = (first.map w).sum + ((middle.map w).sum + (last.map w).sum) := by
  rw [owed, h, List.map_append, List.map_append, List.sum_append, List.sum_append]

/-- At first the units are to be counted and their pairs to be requested. -/
theorem pending_launch (cx : Context σ) (units : List CompilationUnit) :
    (launch cx units).pending =
      (units.filter fun u => u.Classifies).flatMap fun u => u.classified.flatMap (·.actions) := by
  show (units.map Job.begin).flatMap (·.pending) = _
  induction units with
  | nil => rfl
  | cons u units ih =>
    rw [List.map_cons, List.flatMap_cons, ih]
    by_cases hu : u.Classifies
    · rw [Job.begin_of_ok (CompilationUnit.classify_of_classifies hu),
        List.filter_cons_of_pos (by simpa using hu), List.flatMap_cons]
    · obtain ⟨e, he⟩ := CompilationUnit.exists_firstRejection hu
      rw [Job.begin_of_error (CompilationUnit.classify_of_rejection he),
        List.filter_cons_of_neg (by simpa using hu), List.nil_append]

theorem mem_pending_launch {cx : Context σ} {units : List CompilationUnit} {d : DeclarationId}
    {n : String} : .request d n ∈ (launch cx units).pending ↔ (d, n) ∈ pairsOf units := by
  rw [pending_launch, pairsOf, List.mem_flatMap, List.mem_flatMap]
  refine exists_congr fun u => and_congr_right fun _ => ?_
  unfold CompilationUnit.classified CompilationUnit.pairs ClassifiedDeclaration.actions
  rw [List.flatMap_map, List.mem_flatMap, List.mem_flatMap]
  refine exists_congr fun r => and_congr_right fun _ => ?_
  simp

/-- A declaration is counted, and each of its pairs is requested. -/
theorem sum_actions (w : Action → Nat) (records : List DeclarationRecord) :
    (((records.map fun d => ClassifiedDeclaration.mk d.id d.symbol.modifierSet).flatMap
        (·.actions)).map w).sum =
      records.length * w .countClassified +
        ((records.flatMap fun d => d.symbol.modifierSet.names.map fun n => (d.id, n)).map
          fun p => w (.request p.1 p.2)).sum := by
  induction records with
  | nil => simp
  | cons d records ih =>
    rw [List.map_cons, List.flatMap_cons, List.flatMap_cons, List.map_append, List.map_append,
      List.sum_append, List.sum_append, ih, ClassifiedDeclaration.actions, List.map_cons,
      List.sum_cons, List.map_map, List.map_map, List.length_cons, Nat.succ_mul]
    show _ + (d.symbol.modifierSet.names.map fun n => w (.request d.id n)).sum + _ =
      _ + ((d.symbol.modifierSet.names.map fun n => w (.request d.id n)).sum + _)
    omega

theorem sum_map_const {α : Type} (l : List α) (k : Nat) : (l.map fun _ => k).sum = l.length * k := by
  rw [List.map_const', List.sum_replicate_nat]

theorem sum_owes (f : Fact) (actions : List Action) :
    (actions.map (·.owes f)).sum = (actions.filterMap (·.fact?)).count f := by
  induction actions with
  | nil => rfl
  | cons a actions ih =>
    rw [List.map_cons, List.sum_cons, ih]
    cases ha : a.fact? with
    | none => rw [List.filterMap_cons_none ha, Action.owes_of_none ha, Nat.zero_add]
    | some g =>
      rw [List.filterMap_cons_some ha, Action.owes_of_some ha, ← List.count_append]
      rfl

theorem owed_launch (w : Action → Nat) (cx : Context σ) (units : List CompilationUnit) :
    (launch cx units).owed w = recordCount units * w .countClassified +
      ((pairsOf units).map fun p => w (.request p.1 p.2)).sum := by
  rw [owed, pending_launch, pairsOf, recordCount]
  induction units.filter fun u => u.Classifies with
  | nil => simp
  | cons u us ih =>
    have hunit := sum_actions w u.declarations
    rw [List.flatMap_cons, List.flatMap_cons, List.map_append, List.map_append, List.sum_append,
      List.sum_append, ih, List.map_cons, List.sum_cons, Nat.add_mul]
    unfold CompilationUnit.classified CompilationUnit.pairs
    omega

namespace Ledger

variable {units : List CompilationUnit} {m m' : Machine (Observed σ)}

/-- An action and its successors change both sides of every sum alike. -/
theorem acts (h : Ledger units m) {a : Action} {first more last : List Action}
    (hacts : Acts m.context a more m'.context) (hold : m.pending = first ++ ([a] ++ last))
    (hnew : m'.pending = first ++ (more ++ last))
    (hreceived : m'.received.map (·.2) = m.received.map (·.2) ++ (a.created? m.context).toList) :
    Ledger units m' := by
  have howed (w : Action → Nat) : m'.owed w + w a = m.owed w + (more.map w).sum := by
    rw [owed_of_pending hold, owed_of_pending hnew, List.map_singleton, List.sum_singleton]
    omega
  refine { faithful := hacts.faithful h.faithful, nodup := ?_, received := ?_, log := ?_,
           names := ?_, facts := ?_, entities := ?_, edges := ?_, classified := ?_ }
  · rw [hacts.keys]
    cases hcreated : a.created? m.context with
    | none => simpa using h.nodup
    | some n =>
      rw [Option.toList_some, ← List.concat_eq_append]
      exact List.Nodup.concat (hacts.created_not_mem hcreated) h.nodup
  · rw [hreceived, h.received, hacts.keys]
  · obtain ⟨fs, hfs⟩ := hacts.log
    rw [hfs, SinkLog.taken_append, SinkLog.taken_ofFacts, SinkLog.ofFacts_append, ← h.log]
  · intro n
    rw [← h.names, hacts.mem_keys_iff, hold, hnew]
    simp only [List.mem_append, List.mem_singleton, hacts.not_mem_request, false_or, exists_or,
      eq_comm]
    exact or_assoc.trans (or_congr_right or_left_comm)
  · intro f
    have hkeep := hacts.facts h.faithful f
    have hsum := h.facts f
    have hstep := howed (·.owes f)
    omega
  · have hkeep := hacts.entities
    have hsum := h.entities
    have hstep := howed (·.entities)
    omega
  · have hkeep := hacts.edges
    have hsum := h.edges
    have hstep := howed (·.edges)
    omega
  · have hkeep := hacts.classified
    have hsum := h.classified
    have hstep := howed (·.classified)
    omega

theorem launch (s : σ) (units : List CompilationUnit) :
    Ledger units (launch (Context.start s).watched units) where
  faithful := Registry.faithful_empty
  nodup := List.nodup_nil
  received := rfl
  log := rfl
  names n := by
    rw [List.mem_map]
    constructor
    · intro h
      rcases h with h | ⟨d, h⟩
      · cases h
      · exact ⟨(d, n), mem_pending_launch.mp h, rfl⟩
    · intro h
      obtain ⟨⟨d, n⟩, h, rfl⟩ := h
      exact .inr ⟨d, mem_pending_launch.mpr h⟩
  facts f := by
    have howes : (pairsOf units).map (fun p => (Action.request p.1 p.2).owes f) =
        ((pairsOf units).map fun p => Action.request p.1 p.2).map (·.owes f) := by
      rw [List.map_map]
      rfl
    rw [owed_launch, howes, sum_owes, List.filterMap_map]
    show 0 + (recordCount units * 0 + ((pairsOf units).filterMap fun p => some (.carrying p)).count f)
      = 0 + _
    rw [List.filterMap_eq_map']
    omega
  entities := by
    rw [owed_launch]
    show 0 + (recordCount units * 0 + ((pairsOf units).map fun _ => 0).sum) = 0
    rw [sum_map_const]
    omega
  edges := by
    rw [owed_launch]
    show 0 + (recordCount units * 0 + ((pairsOf units).map fun _ => 1).sum) = _
    rw [sum_map_const]
    omega
  classified := by
    rw [owed_launch]
    show 0 + (recordCount units * 1 + ((pairsOf units).map fun _ => 0).sum) = _
    rw [sum_map_const]
    omega

theorem moves {sink : FactSink σ} (haccept : sink.Accepting) (worker : Nat)
    (m m' : Machine (Observed σ)) (hmove : Moves sink.observed worker m m') (h : Ledger units m) :
    Ledger units m' := by
  cases hmove with
  | idle => exact h
  | stopped hjobs hnext hperform => exact absurd hperform (perform_ne_error haccept _ _ _ _)
  | @acted before after job a rest more cx hjobs hnext hperform =>
    have hold := pending_of_jobs before after job hjobs
    rw [hnext, ← List.singleton_append, List.append_assoc] at hold
    refine h.acts (acts_of_perform haccept hperform) hold ?_ ?_
    · rw [← List.append_assoc more]
      exact pending_of_jobs before after { job with pending := more ++ rest } rfl
    · rw [List.map_append, List.map_map]
      exact congrArg _ (List.map_id _)

/-- What the sink holds and what it will get are a declaration for every key and the edges. -/
theorem facts_perm (h : Ledger units m) :
    (m.context.sinkState.log.taken ++ m.pending.filterMap (·.fact?)).Perm
      (m.context.registry.keys.map Fact.declaring ++ (pairsOf units).map .carrying) := by
  rw [List.perm_iff_count]
  intro f
  have hsum := h.facts f
  rw [owed, sum_owes] at hsum
  rw [List.count_append, List.count_append]
  exact hsum

theorem declaredNames_nodup (h : Ledger units m) :
    (Fact.declaredNames m.context.sinkState.log.taken).Nodup := by
  have hdeclaring (keys : List String) :
      (keys.map Fact.declaring).filterMap (·.declaredName?) = keys := by
    rw [List.filterMap_map]
    exact List.filterMap_some
  have hcarrying (ps : List (DeclarationId × String)) :
      (ps.map Fact.carrying).filterMap (·.declaredName?) = [] := by
    rw [List.filterMap_map]
    exact List.filterMap_eq_nil_iff.mpr fun _ _ => rfl
  have hperm := h.facts_perm.filterMap (·.declaredName?)
  rw [List.filterMap_append, List.filterMap_append, hdeclaring, hcarrying, List.append_nil] at hperm
  exact (List.nodup_append.mp (hperm.nodup_iff.mpr h.nodup)).1

/-- **Two machines that finished the same units hold the same.** -/
theorem agree (h : Ledger units m) (hm : m.Finished) (h' : Ledger units m') (hm' : m'.Finished) :
    m.context.sinkState.log.taken.Perm m'.context.sinkState.log.taken ∧
      m.context.stats = m'.context.stats := by
  rw [finished_iff] at hm hm'
  have hkeys : m.context.registry.keys.Perm m'.context.registry.keys := by
    rw [List.perm_ext_iff_of_nodup h.nodup h'.nodup]
    intro n
    have hn := h.names n
    have hn' := h'.names n
    rw [hm] at hn
    rw [hm'] at hn'
    simp only [List.not_mem_nil, exists_false, or_false] at hn hn'
    rw [hn, hn']
  have hfacts := h.facts_perm
  have hfacts' := h'.facts_perm
  rw [hm, List.filterMap_nil, List.append_nil] at hfacts
  rw [hm', List.filterMap_nil, List.append_nil] at hfacts'
  have hzero (w : Action → Nat) : m.owed w = 0 := by rw [owed, hm]; rfl
  have hzero' (w : Action → Nat) : m'.owed w = 0 := by rw [owed, hm']; rfl
  have hentities := h.entities.trans (hkeys.length_eq.trans h'.entities.symm)
  have hedges := h.edges.trans h'.edges.symm
  have hclassified := h.classified.trans h'.classified.symm
  rw [hzero, hzero'] at hentities hedges hclassified
  refine ⟨hfacts.trans (((hkeys.map _).append_right _).trans hfacts'.symm), ?_⟩
  rw [Context.stats, Context.stats]
  congr 1

end Ledger

/-! ## 4. The order of the work makes no difference -/

variable {sink : FactSink σ} (haccept : sink.Accepting)

include haccept

theorem ledger_run (s : σ) (units : List CompilationUnit) (schedule : List Turn) :
    Ledger units (run sink.observed (launch (Context.start s).watched units) schedule) :=
  run_induction sink.observed (Ledger.moves haccept) schedule (.launch s units)

/-- **The order of the work makes no difference.** Over an accepting sink, in every state that a
schedule leads to, every call was accepted, no name was declared twice, and no name was handed out
as new twice. Once all units are finished, the sink holds what it holds after the units were worked
off one after the other, up to order, and the counters are the same. -/
theorem run_decides_facts (s : σ) (units : List CompilationUnit) (schedule : List Turn) :
    let m := run sink.observed (launch (Context.start s).watched units) schedule
    let sequential := (Context.workOff sink.observed units (Context.start s).watched).2
    m.context.sinkState.log = .ofFacts m.context.sinkState.log.taken ∧
    (Fact.declaredNames m.context.sinkState.log.taken).Nodup ∧
    (m.received.map (·.2)).Nodup ∧
    (m.Finished →
      m.context.sinkState.log.taken.Perm sequential.sinkState.log.taken ∧
      m.context.stats = sequential.stats) := by
  intro m sequential
  have h : Ledger units m := ledger_run haccept s units schedule
  refine ⟨h.log, h.declaredNames_nodup, ?_, ?_⟩
  · rw [h.received]
    exact h.nodup
  · intro hm
    obtain ⟨inOrder, hcontext, hwork⟩ :=
      exists_schedule_workOff sink.observed units (Context.start s).watched
    have h' := ledger_run haccept s units inOrder
    obtain ⟨cx', hseq, -⟩ :=
      Context.workOff_writes haccept units (Context.start s).watched Registry.faithful_empty
    rw [hseq] at hwork
    have hagree := h.agree hm h' hwork.1
    rw [hcontext] at hagree
    exact hagree

omit haccept

/-- The second worker is handed the entity before the first one has declared it. -/
theorem run_decides_facts_overtaken :
    let m := run FactSink.memory.observed (launch (Context.start []).watched twoUnits)
      [⟨0, 0⟩, ⟨0, 0⟩, ⟨1, 1⟩, ⟨1, 1⟩, ⟨1, 1⟩, ⟨1, 1⟩, ⟨0, 0⟩, ⟨0, 0⟩, ⟨0, 0⟩, ⟨0, 0⟩]
    let sequential := (Context.workOff FactSink.memory.observed twoUnits (Context.start []).watched).2
    m.Finished ∧ m.context.sinkState.log.taken =
      [.carrying (⟨2⟩, "public"), .declaring "public", .carrying (⟨1⟩, "public")] ∧
      m.context.sinkState.log.taken.Perm sequential.sinkState.log.taken ∧
      m.context.stats = sequential.stats := by
  intro m sequential
  have hfinished : m.Finished := by decide +kernel
  have hfacts := run_decides_facts FactSink.memory_accepting [] twoUnits
    [⟨0, 0⟩, ⟨0, 0⟩, ⟨1, 1⟩, ⟨1, 1⟩, ⟨1, 1⟩, ⟨1, 1⟩, ⟨0, 0⟩, ⟨0, 0⟩, ⟨0, 0⟩, ⟨0, 0⟩]
  exact ⟨hfinished, rfl, hfacts.2.2.2 hfinished⟩

end Machine

end ModifierFacts
