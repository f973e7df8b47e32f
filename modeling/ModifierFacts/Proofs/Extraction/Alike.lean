import ModifierFacts.Proofs.Extraction.Operation
import ModifierFacts.Proofs.Sink.Alike

/-!
# Operations over sinks that behave alike

What an operation does depends on its sink only through the replies. Over two sinks that behave
alike it does the same: it ends in the same way and leaves contexts that differ in nothing but the
states of the sinks, and these are related.

* `Context.Alike`: two contexts are the same up to related states of their sinks;
* `Mirrors`: in such contexts two operations end alike, with `Mirrors.bind`, `Mirrors.forM` and
  `Mirrors.mapM`;
* **`Context.run_alike`**: a run does the same over sinks that behave alike;
* **`Context.performAll_alike`**: so does every sequence of requests.
-/

namespace ModifierFacts

variable {σ τ : Type} {R : σ → τ → Prop}

/-! ## 1. Contexts and operations -/

/-- The contexts are the same but for the states of their sinks, which are related. -/
structure Context.Alike (R : σ → τ → Prop) (cx : Context σ) (cy : Context τ) : Prop where
  registry : cx.registry = cy.registry
  sinkState : R cx.sinkState cy.sinkState
  entitiesCreated : cx.entitiesCreated = cy.entitiesCreated
  edgesAttached : cx.edgesAttached = cy.edgesAttached
  declarationsClassified : cx.declarationsClassified = cy.declarationsClassified

/-- Two ends of an operation, each a result with a context: the results are the same and the
contexts are alike. -/
def EndAlike {α : Type} (R : σ → τ → Prop) (x : α × Context σ) (y : α × Context τ) : Prop :=
  x.1 = y.1 ∧ x.2.Alike R y.2

theorem EndAlike.exists_eq {α : Type} {x : α × Context σ} {y : α × Context τ} (h : EndAlike R x y) :
    ∃ a cx cy, x = (a, cx) ∧ y = (a, cy) ∧ cx.Alike R cy :=
  ⟨x.1, x.2, y.2, rfl, Prod.ext h.1.symm rfl, h.2⟩

/-- In contexts that are alike the operations end alike. -/
def Mirrors {ε α : Type} (R : σ → τ → Prop) (p : ExceptT ε (StateM (Context σ)) α)
    (q : ExceptT ε (StateM (Context τ)) α) : Prop :=
  ∀ cx cy, cx.Alike R cy → EndAlike R (p cx) (q cy)

namespace Mirrors

variable {ε α β : Type}

theorem pure (a : α) :
    Mirrors R (Pure.pure a : ExceptT ε (StateM (Context σ)) α)
      (Pure.pure a : ExceptT ε (StateM (Context τ)) α) :=
  fun _ _ h => ⟨rfl, h⟩

theorem throw (e : ε) :
    Mirrors R (MonadExcept.throw e : ExceptT ε (StateM (Context σ)) α)
      (MonadExcept.throw e : ExceptT ε (StateM (Context τ)) α) :=
  fun _ _ h => ⟨rfl, h⟩

theorem bind {p : ExceptT ε (StateM (Context σ)) α} {q : ExceptT ε (StateM (Context τ)) α}
    {f : α → ExceptT ε (StateM (Context σ)) β} {g : α → ExceptT ε (StateM (Context τ)) β}
    (hpq : Mirrors R p q) (hfg : ∀ a, Mirrors R (f a) (g a)) : Mirrors R (p >>= f) (q >>= g) := by
  intro cx cy h
  obtain ⟨r, cx', cy', hp, hq, hstate⟩ := (hpq cx cy h).exists_eq
  rw [bind_apply, bind_apply, hp, hq]
  cases r with
  | error e => exact ⟨rfl, hstate⟩
  | ok a => exact hfg a cx' cy' hstate

theorem forM {f : α → ExceptT ε (StateM (Context σ)) Unit}
    {g : α → ExceptT ε (StateM (Context τ)) Unit} (hfg : ∀ a, Mirrors R (f a) (g a)) (l : List α) :
    Mirrors R (l.forM f) (l.forM g) := by
  induction l with
  | nil => exact .pure ()
  | cons a l ih => exact .bind (hfg a) fun _ => ih

theorem mapM {f : α → ExceptT ε (StateM (Context σ)) β}
    {g : α → ExceptT ε (StateM (Context τ)) β} (hfg : ∀ a, Mirrors R (f a) (g a)) (l : List α) :
    Mirrors R (l.mapM f) (l.mapM g) := by
  induction l with
  | nil => exact .pure []
  | cons a l ih =>
    rw [List.mapM_cons, List.mapM_cons]
    exact .bind (hfg a) fun b => .bind ih fun bs => .pure (b :: bs)

end Mirrors

/-! ## 2. From the steps to a run -/

namespace Context

theorem register_mirrors (n : String) :
    Mirrors R (register n : Extraction σ _) (register n : Extraction τ _) := by
  intro cx cy h
  rw [register_apply, register_apply, h.registry]
  cases cy.registry.get? n with
  | some e => exact ⟨rfl, h⟩
  | none => exact ⟨rfl, { h with registry := rfl }⟩

theorem countEntity_mirrors :
    Mirrors R (countEntity : Extraction σ Unit) (countEntity : Extraction τ Unit) :=
  fun _ _ h => ⟨rfl, { h with entitiesCreated := congrArg (· + 1) h.entitiesCreated }⟩

theorem countEdge_mirrors :
    Mirrors R (countEdge : Extraction σ Unit) (countEdge : Extraction τ Unit) :=
  fun _ _ h => ⟨rfl, { h with edgesAttached := congrArg (· + 1) h.edgesAttached }⟩

theorem countClassified_mirrors :
    Mirrors R (countClassified : Extraction σ Unit)
      (countClassified : Extraction τ Unit) :=
  fun _ _ h =>
    ⟨rfl, { h with declarationsClassified := congrArg (· + 1) h.declarationsClassified }⟩

variable {sink : FactSink σ} {sink' : FactSink τ} (hsinks : sink.Alike sink' R)

include hsinks

theorem call_mirrors (c : SinkCall) : Mirrors R (call sink c) (call sink' c) := by
  intro cx cy h
  obtain ⟨hreply, hstate⟩ := hsinks cx.sinkState cy.sinkState h.sinkState c
  rw [call_apply, call_apply, hreply]
  exact ⟨rfl, { h with sinkState := hstate }⟩

theorem modifier_mirrors (n : String) : Mirrors R (modifier sink n) (modifier sink' n) := by
  refine .bind (register_mirrors n) fun obtained => ?_
  cases obtained.created
  · exact .pure _
  · exact .bind (call_mirrors hsinks _) fun _ => .bind countEntity_mirrors fun _ => .pure _

theorem attach_mirrors (d : DeclarationId) (m : EntityId) :
    Mirrors R (attach sink d m) (attach sink' d m) :=
  .bind (call_mirrors hsinks _) fun _ => countEdge_mirrors

theorem hasModifier_mirrors (d : DeclarationId) (n : String) :
    Mirrors R (hasModifier sink d n) (hasModifier sink' d n) :=
  .bind (modifier_mirrors hsinks n) fun e => attach_mirrors hsinks d e.id

theorem attachAll_mirrors (d : DeclarationId) (names : List String) :
    Mirrors R (attachAll sink d names) (attachAll sink' d names) :=
  .forM (hasModifier_mirrors hsinks d) names

theorem modifierOfAccessibility_mirrors (a : Accessibility) :
    Mirrors R (modifierOfAccessibility sink a) (modifierOfAccessibility sink' a) := by
  unfold modifierOfAccessibility
  cases a.modifier? with
  | none => exact .throw _
  | some n => exact modifier_mirrors hsinks n

omit hsinks in
theorem classify_mirrors (symbol : Symbol) :
    Mirrors R (classify symbol : Extraction σ _) (classify symbol : Extraction τ _) := by
  unfold classify
  cases symbol.classify with
  | ok set => exact .pure set
  | error e => exact .throw _

theorem extractModifiers_mirrors (d : DeclarationId) (symbol : Symbol) :
    Mirrors R (extractModifiers sink d symbol) (extractModifiers sink' d symbol) :=
  .bind (classify_mirrors symbol) fun set => .bind countClassified_mirrors fun _ =>
    .bind (attachAll_mirrors hsinks d set.names) fun _ => .pure set

theorem extractUnit_mirrors (u : CompilationUnit) :
    Mirrors R (extractUnit sink u) (extractUnit sink' u) := by
  unfold extractUnit
  cases u.classify with
  | error e => exact .throw _
  | ok classified =>
    refine .bind (.forM (fun d => ?_) classified) fun _ => .pure _
    exact .bind countClassified_mirrors fun _ => attachAll_mirrors hsinks d.id _

theorem workOff_mirrors (units : List CompilationUnit) :
    Mirrors R (workOff sink units) (workOff sink' units) := by
  refine .mapM (fun u cx cy h => ?_) units
  obtain ⟨hresult, hstate⟩ := extractUnit_mirrors hsinks u cx cy h
  rw [attempt_apply, attempt_apply, hresult]
  exact ⟨rfl, hstate⟩

theorem extractAll_alike (units : List CompilationUnit) {cx : Context σ} {cy : Context τ}
    (h : cx.Alike R cy) : EndAlike R (extractAll sink units cx) (extractAll sink' units cy) := by
  obtain ⟨first, cx', cy', hp, hq, hmiddle⟩ :=
    (workOff_mirrors hsinks (units.take (units.length / 2)) cx cy h).exists_eq
  obtain ⟨second, cx'', cy'', hp', hq', hend⟩ :=
    (workOff_mirrors hsinks (units.drop (units.length / 2)) cx' cy' hmiddle).exists_eq
  unfold extractAll
  rw [state_bind_apply, state_bind_apply, state_bind_apply, state_bind_apply, ExceptT.run,
    ExceptT.run, ExceptT.run, ExceptT.run, hp, hq, hp', hq']
  exact ⟨rfl, hend⟩

theorem finalFlush_alike (summary : RunSummary) {cx : Context σ} {cy : Context τ}
    (h : cx.Alike R cy) :
    EndAlike R (finalFlush sink summary cx) (finalFlush sink' summary cy) := by
  obtain ⟨hreply, hstate⟩ := hsinks cx.sinkState cy.sinkState h.sinkState .flush
  have hstats : cx.stats = cy.stats := by
    rw [stats, stats, h.entitiesCreated, h.edgesAttached, h.declarationsClassified]
  rw [finalFlush_apply, finalFlush_apply, hreply, hstats]
  exact ⟨rfl, { h with sinkState := hstate }⟩

theorem conclude_alike (policy : FailurePolicy) (units : List CompilationUnit)
    (results : List UnitResult) {cx : Context σ} {cy : Context τ} (h : cx.Alike R cy) :
    EndAlike R (conclude sink policy units results cx)
      (conclude sink' policy units results cy) := by
  cases hsettle : RunSummary.settle policy (units.zip results) with
  | error e =>
    rw [conclude_of_error sink hsettle, conclude_of_error sink' hsettle]
    exact ⟨rfl, h⟩
  | ok summary =>
    rw [conclude_of_ok sink hsettle, conclude_of_ok sink' hsettle]
    exact finalFlush_alike hsinks summary h

/-- **A run does the same over sinks that behave alike.** -/
theorem run_alike (policy : FailurePolicy) (units : List CompilationUnit) {cx : Context σ}
    {cy : Context τ} (h : cx.Alike R cy) :
    EndAlike R (run sink policy units cx) (run sink' policy units cy) := by
  obtain ⟨results, cx', cy', hp, hq, hstate⟩ := (extractAll_alike hsinks units h).exists_eq
  rw [run_apply, run_apply, hp, hq]
  cases results with
  | error e => exact ⟨rfl, hstate⟩
  | ok results => exact conclude_alike hsinks policy units results hstate

/-! ## 3. Sequences of requests -/

theorem perform_alike (op : Operation) {cx : Context σ} {cy : Context τ} (h : cx.Alike R cy) :
    (perform sink cx op).Alike R (perform sink' cy op) := by
  cases op with
  | modifier n => exact (modifier_mirrors hsinks n cx cy h).2
  | modifierOfAccessibility a => exact (modifierOfAccessibility_mirrors hsinks a cx cy h).2
  | attach d m => exact (attach_mirrors hsinks d m cx cy h).2
  | hasModifier d n => exact (hasModifier_mirrors hsinks d n cx cy h).2
  | hasAccessibility d a => exact (attachAll_mirrors hsinks d a.modifiers cx cy h).2
  | attachAll d set => exact (attachAll_mirrors hsinks d set.names cx cy h).2
  | extractModifiers d symbol => exact (extractModifiers_mirrors hsinks d symbol cx cy h).2
  | extractUnit u => exact (extractUnit_mirrors hsinks u cx cy h).2
  | run policy units => exact (run_alike hsinks policy units h).2
  | call c => exact (call_mirrors hsinks c cx cy h).2
  | register n => exact (register_mirrors n cx cy h).2
  | countEntity => exact (countEntity_mirrors cx cy h).2
  | countEdge => exact (countEdge_mirrors cx cy h).2
  | countClassified => exact (countClassified_mirrors cx cy h).2

/-- **A sequence of requests does the same over sinks that behave alike.** -/
theorem performAll_alike (ops : List Operation) {cx : Context σ} {cy : Context τ}
    (h : cx.Alike R cy) : (performAll sink cx ops).Alike R (performAll sink' cy ops) := by
  induction ops generalizing cx cy with
  | nil => exact h
  | cons op ops ih => exact ih (perform_alike hsinks op h)

end Context

end ModifierFacts
