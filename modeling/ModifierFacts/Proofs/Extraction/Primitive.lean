import ModifierFacts.Extraction.Run
import ModifierFacts.Proofs.Registry
import ModifierFacts.Proofs.Sink.Observed

/-!
# The primitive steps of an extraction

Everything that extracts is put together from five steps: registering a name, a call of the sink,
and the three counters. This file says what each step does to a context and what follows for all
that is put together from them.

* `bind_ok`, `bind_error`: a composed operation, once the first part is known.
* `register_apply`, `call_apply`: the two steps that do not only count.
* `Keeps`: an operation keeps one property of states as long as it succeeds, and leaves another where
  it fails;
* `Kept`: the five steps do so; then every operation does, and a property that is left everywhere is
  there after whole runs (`KeptByName.run`).
-/

namespace ModifierFacts

/-! ## 1. Composition -/

section Monad

variable {ε τ α β : Type}

theorem bind_apply (p : ExceptT ε (StateM τ) α) (f : α → ExceptT ε (StateM τ) β) (s : τ) :
    (p >>= f) s = match p s with
      | (.ok a, s') => f a s'
      | (.error e, s') => (.error e, s') := by
  show (match p s with | (r, s') => ExceptT.bindCont f r s') = _
  rcases p s with ⟨_ | _, _⟩ <;> rfl

theorem bind_ok {p : ExceptT ε (StateM τ) α} {s s' : τ} {a : α} (h : p s = (.ok a, s'))
    (f : α → ExceptT ε (StateM τ) β) : (p >>= f) s = f a s' := by
  rw [bind_apply, h]

theorem bind_error {p : ExceptT ε (StateM τ) α} {s s' : τ} {e : ε} (h : p s = (.error e, s'))
    (f : α → ExceptT ε (StateM τ) β) : (p >>= f) s = (.error e, s') := by
  rw [bind_apply, h]

theorem state_bind_apply (p : StateM τ α) (f : α → StateM τ β) (s : τ) :
    (p >>= f) s = f (p s).1 (p s).2 := rfl

end Monad

/-! ## 2. The steps -/

/-- What a reply makes of the operation that called. -/
def Reply.outcome : Reply → Except Stop Unit
  | accepted => .ok ()
  | refused error => .error (.failed (.fact error))
  | crashed => .error .crashed

/-- A call that is not accepted ends the operation. -/
theorem Reply.exists_outcome_eq_error {r : Reply} (h : r ≠ .accepted) :
    ∃ stop, r.outcome = .error stop := by
  cases r with
  | accepted => exact absurd rfl h
  | refused e => exact ⟨_, rfl⟩
  | crashed => exact ⟨_, rfl⟩

namespace Context

variable {σ : Type} (sink : FactSink σ)

theorem call_apply (c : SinkCall) (cx : Context σ) :
    call sink c cx = ((sink.reply cx.sinkState c).1.outcome,
      { cx with sinkState := (sink.reply cx.sinkState c).2 }) := by
  simp only [call, bind_apply]
  show ((match (sink.reply cx.sinkState c).1 with
    | .accepted => _ | .refused _ => _ | .crashed => _) : Extraction σ Unit) _ = _
  cases (sink.reply cx.sinkState c).1 <;> rfl

theorem register_apply (n : String) (cx : Context σ) :
    register n cx = match cx.registry.get? n with
      | some e => (.ok ⟨e, false⟩, cx)
      | none => (.ok ⟨.ofName n, true⟩,
          { cx with registry := cx.registry.register n (.ofName n) }) := by
  let made := Id.run (cx.registry.create n fun n => pure (ModifierEntity.ofName n))
  show ((.ok made.1, { cx with registry := made.2 }) : Except Stop _ × Context σ) = _
  unfold made Registry.create
  cases cx.registry.get? n <;> rfl

/-- The entity of a name that is registered is handed out. -/
theorem modifier_of_some {n : String} {e : ModifierEntity} {cx : Context σ}
    (h : cx.registry.get? n = some e) : modifier sink n cx = (.ok e, cx) := by
  have hreg : register n cx = (.ok ⟨e, false⟩, cx) := by rw [register_apply, h]
  unfold modifier
  rw [bind_ok hreg]
  rfl

/-- A new name is registered, declared and counted. -/
theorem modifier_of_none {n : String} {cx : Context σ} (h : cx.registry.get? n = none) :
    modifier sink n cx =
      (do
        call sink (.record (.modifiers (ModifierEntity.ofName n).id n))
        countEntity
        return .ofName n : Extraction σ ModifierEntity)
      { cx with registry := cx.registry.register n (.ofName n) } := by
  have hreg : register n cx = (.ok ⟨.ofName n, true⟩,
      { cx with registry := cx.registry.register n (.ofName n) }) := by rw [register_apply, h]
  unfold modifier
  rw [bind_ok hreg]
  rfl

/-- A name that is registered is only attached. -/
theorem hasModifier_of_some {n : String} {e : ModifierEntity} {cx : Context σ}
    (h : cx.registry.get? n = some e) (d : DeclarationId) :
    hasModifier sink d n cx = attach sink d e.id cx :=
  bind_ok (modifier_of_some sink h) _

/-- A new name is registered, declared and counted before it is attached. -/
theorem hasModifier_of_none {n : String} {cx : Context σ} (h : cx.registry.get? n = none)
    (d : DeclarationId) :
    hasModifier sink d n cx =
      (do
        call sink (.record (.modifiers (ModifierEntity.ofName n).id n))
        countEntity
        attach sink d (ModifierEntity.ofName n).id : Extraction σ Unit)
      { cx with registry := cx.registry.register n (.ofName n) } := by
  unfold hasModifier
  rw [bind_apply, modifier_of_none sink h, ← bind_apply]
  simp only [bind_assoc, pure_bind]

theorem countEntity_apply (cx : Context σ) :
    countEntity cx = (.ok (), { cx with entitiesCreated := cx.entitiesCreated + 1 }) := rfl

theorem countClassified_apply (cx : Context σ) :
    countClassified cx = (.ok (), { cx with declarationsClassified := cx.declarationsClassified + 1 }) :=
  rfl

theorem finalFlush_apply (summary : RunSummary) (cx : Context σ) :
    finalFlush sink summary cx =
      (match (sink.reply cx.sinkState .flush).1 with
        | .accepted =>
          .ok { summary with stats := { cx.stats with unitsAborted := summary.failures.length } }
        | .refused e => .error (.failed (.flushing e))
        | .crashed => .error .crashed,
        { cx with sinkState := (sink.reply cx.sinkState .flush).2 }) := by
  show ((match (sink.reply cx.sinkState .flush).1 with
    | .accepted => _ | .refused _ => _ | .crashed => _) : StateM (Context σ) _) _ = _
  cases (sink.reply cx.sinkState .flush).1 <;> rfl

theorem extractUnit_of_error {u : CompilationUnit} {e : Unsupported} (h : u.classify = .error e) :
    extractUnit sink u = throw (.failed (.modifier e)) := by
  rw [extractUnit, h]

theorem extractUnit_of_ok {u : CompilationUnit} {classified : List ClassifiedDeclaration}
    (h : u.classify = .ok classified) :
    extractUnit sink u =
      classified.forM (writeDeclaration sink) >>= fun _ => pure (u.report classified) := by
  rw [extractUnit, h]

theorem attempt_apply (u : CompilationUnit) (cx : Context σ) :
    attempt sink u cx = (UnitResult.ofOutcome (extractUnit sink u cx).1, (extractUnit sink u cx).2) :=
  rfl

theorem workOff_cons (u : CompilationUnit) (units : List CompilationUnit) :
    workOff sink (u :: units) = (do
      let r ← attempt sink u
      let results ← workOff sink units
      return r :: results) :=
  List.mapM_cons

/-- Work that is cut in two and does not crash is the whole work. -/
theorem extractAll_of_workOff {units : List CompilationUnit} {results : List UnitResult}
    {cx cx' : Context σ} (h : workOff sink units cx = (.ok results, cx')) :
    extractAll sink units cx = (.ok results, cx') := by
  have hcut : workOff sink units = (do
      let first ← workOff sink (units.take (units.length / 2))
      let second ← workOff sink (units.drop (units.length / 2))
      return first ++ second) := by
    unfold workOff
    rw [← List.mapM_append, List.take_append_drop]
  unfold extractAll
  rw [state_bind_apply, state_bind_apply, ExceptT.run, ExceptT.run]
  rw [hcut] at h
  rcases hfirst : workOff sink (units.take (units.length / 2)) cx with ⟨_ | first, cx₁⟩
  · rw [bind_error hfirst] at h
    cases h
  · rw [bind_ok hfirst] at h
    rcases hsecond : workOff sink (units.drop (units.length / 2)) cx₁ with ⟨_ | second, cx₂⟩
    · rw [bind_error hsecond] at h
      cases h
    · rw [bind_ok hsecond] at h
      cases h
      rfl

theorem conclude_of_error {policy : FailurePolicy} {units : List CompilationUnit}
    {results : List UnitResult} {e : RunError}
    (h : RunSummary.settle policy (units.zip results) = .error e) (cx : Context σ) :
    conclude sink policy units results cx = (.error (.failed e), cx) := by
  rw [conclude, h]
  rfl

theorem conclude_of_ok {policy : FailurePolicy} {units : List CompilationUnit}
    {results : List UnitResult} {summary : RunSummary}
    (h : RunSummary.settle policy (units.zip results) = .ok summary) (cx : Context σ) :
    conclude sink policy units results cx = finalFlush sink summary cx := by
  rw [conclude, h]

theorem run_apply (policy : FailurePolicy) (units : List CompilationUnit) (cx : Context σ) :
    run sink policy units cx = match extractAll sink units cx with
      | (.error .crash, cx') => (.error .crashed, cx')
      | (.ok results, cx') => conclude sink policy units results cx' := by
  unfold run
  rw [state_bind_apply]
  rcases extractAll sink units cx with ⟨_ | _, _⟩ <;> rfl

end Context

/-! ## 3. What every step keeps -/

/-- An operation keeps `I` as long as it succeeds, and leaves `J` where it fails. -/
def Keeps {ε τ α : Type} (I : τ → Prop) (J : ε → τ → Prop) (p : ExceptT ε (StateM τ) α) : Prop :=
  ∀ s, I s → match p s with
    | (.ok _, s') => I s'
    | (.error e, s') => J e s'

namespace Keeps

variable {ε τ α β : Type} {I : τ → Prop} {J : ε → τ → Prop}

theorem pure (a : α) : Keeps I J (pure a : ExceptT ε (StateM τ) α) := fun _ h => h

theorem throw {e : ε} (h : ∀ s, I s → J e s) : Keeps I J (throw e : ExceptT ε (StateM τ) α) := h

theorem bind {p : ExceptT ε (StateM τ) α} {f : α → ExceptT ε (StateM τ) β} (hp : Keeps I J p)
    (hf : ∀ a, Keeps I J (f a)) : Keeps I J (p >>= f) := by
  intro s hs
  have h := hp s hs
  rw [bind_apply]
  rcases hps : p s with ⟨e | a, s'⟩
  · rw [hps] at h
    exact h
  · rw [hps] at h
    exact hf a s' h

theorem forM {f : α → ExceptT ε (StateM τ) Unit} (hf : ∀ a, Keeps I J (f a)) (l : List α) :
    Keeps I J (l.forM f) := by
  induction l with
  | nil => exact pure ()
  | cons a l ih => exact bind (hf a) fun _ => ih

theorem mapM {f : α → ExceptT ε (StateM τ) β} (hf : ∀ a, Keeps I J (f a)) (l : List α) :
    Keeps I J (l.mapM f) := by
  induction l with
  | nil => exact pure []
  | cons a l ih =>
    rw [List.mapM_cons]
    exact bind (hf a) fun b => bind ih fun bs => pure (b :: bs)

/-- What is left in success and in failure is there whatever the outcome was. -/
theorem state {p : ExceptT ε (StateM τ) α} (h : Keeps I (fun _ => I) p) {s : τ} (hs : I s) :
    I (p s).2 := by
  have hps := h s hs
  revert hps
  rcases p s with ⟨_ | _, _⟩ <;> exact id

theorem of_state {p : ExceptT ε (StateM τ) α} (h : ∀ s, I s → I (p s).2) :
    Keeps I (fun _ => I) p := by
  intro s hs
  have hps := h s hs
  revert hps
  rcases p s with ⟨_ | _, _⟩ <;> exact id

end Keeps

namespace Context

variable {σ : Type} {sink : FactSink σ} {I : Context σ → Prop} {J : Stop → Context σ → Prop}

/-- **A property that each of the five steps keeps.** A rejection, which is no step, leaves `J` as
well. -/
structure Kept (sink : FactSink σ) (I : Context σ → Prop) (J : Stop → Context σ → Prop) : Prop where
  register : ∀ n, Keeps I J (register n)
  call : ∀ c, Keeps I J (call sink c)
  countEntity : Keeps I J countEntity
  countEdge : Keeps I J countEdge
  countClassified : Keeps I J countClassified
  rejected : ∀ e cx, I cx → J (.failed (.modifier e)) cx

/-- **A property that is kept from name to name**, though not by every step: a name is registered
first and declared later. -/
structure KeptByName (sink : FactSink σ) (I : Context σ → Prop) (J : Stop → Context σ → Prop) :
    Prop where
  modifier : ∀ n, Keeps I J (modifier sink n)
  hasModifier : ∀ d n, Keeps I J (hasModifier sink d n)
  countClassified : Keeps I J countClassified
  flush : Keeps I J (call sink .flush)
  rejected : ∀ e cx, I cx → J (.failed (.modifier e)) cx

namespace Kept

variable (hI : Kept sink I J)

include hI

theorem modifier (n : String) : Keeps I J (modifier sink n) := by
  refine .bind (hI.register n) fun obtained => ?_
  cases obtained.created
  · exact .pure _
  · exact .bind (hI.call _) fun _ => .bind hI.countEntity fun _ => .pure _

theorem attach (d : DeclarationId) (m : EntityId) : Keeps I J (attach sink d m) :=
  .bind (hI.call _) fun _ => hI.countEdge

/-- What every step keeps is kept from name to name. -/
theorem byName : KeptByName sink I J where
  modifier := hI.modifier
  hasModifier d n := .bind (hI.modifier n) fun e => hI.attach d e.id
  countClassified := hI.countClassified
  flush := hI.call .flush
  rejected := hI.rejected

end Kept

namespace KeptByName

section Unit

variable (hI : KeptByName sink I J)

include hI

theorem attachAll (d : DeclarationId) (names : List String) : Keeps I J (attachAll sink d names) :=
  .forM (hI.hasModifier d) names

theorem modifierOfAccessibility (a : Accessibility) :
    Keeps I J (modifierOfAccessibility sink a) := by
  unfold Context.modifierOfAccessibility
  cases a.modifier? with
  | none => exact .throw (hI.rejected _)
  | some n => exact hI.modifier n

theorem extractModifiers (d : DeclarationId) (s : Symbol) :
    Keeps I J (extractModifiers sink d s) := by
  refine .bind ?_ fun set => .bind hI.countClassified fun _ =>
    .bind (hI.attachAll d set.names) fun _ => .pure set
  unfold classify
  cases s.classify with
  | ok set => exact .pure set
  | error e => exact .throw (hI.rejected e)

theorem writeDeclaration (d : ClassifiedDeclaration) : Keeps I J (writeDeclaration sink d) :=
  .bind hI.countClassified fun _ => hI.attachAll d.id d.modifiers.names

theorem extractUnit (u : CompilationUnit) : Keeps I J (extractUnit sink u) := by
  cases h : u.classify with
  | error e =>
    rw [extractUnit_of_error sink h]
    exact .throw (hI.rejected e)
  | ok classified =>
    rw [extractUnit_of_ok sink h]
    exact .bind (.forM hI.writeDeclaration classified) fun _ => .pure _

end Unit

section Run

-- a run goes on after a unit that failed, so failure has to leave what it found
variable (hI : KeptByName sink I fun _ => I)

include hI

theorem attempt (u : CompilationUnit) : Keeps I (fun _ => I) (attempt sink u) :=
  .of_state fun _ h => (hI.extractUnit u).state h

theorem workOff (units : List CompilationUnit) : Keeps I (fun _ => I) (workOff sink units) :=
  .mapM hI.attempt units

theorem extractAll (units : List CompilationUnit) (cx : Context σ) (h : I cx) :
    I (extractAll sink units cx).2 :=
  (hI.workOff _).state ((hI.workOff _).state h)

theorem finalFlush (summary : RunSummary) (cx : Context σ) (h : I cx) :
    I (finalFlush sink summary cx).2 := by
  have hcall := hI.flush.state h
  rw [call_apply] at hcall
  rw [finalFlush_apply]
  exact hcall

theorem conclude (policy : FailurePolicy) (units : List CompilationUnit)
    (results : List UnitResult) (cx : Context σ) (h : I cx) :
    I (conclude sink policy units results cx).2 := by
  cases hsettle : RunSummary.settle policy (units.zip results) with
  | error e =>
    rw [conclude_of_error sink hsettle]
    exact h
  | ok summary =>
    rw [conclude_of_ok sink hsettle]
    exact hI.finalFlush summary cx h

theorem run (policy : FailurePolicy) (units : List CompilationUnit) (cx : Context σ) (h : I cx) :
    I (run sink policy units cx).2 := by
  have hall := hI.extractAll units cx h
  revert hall
  rw [run_apply]
  rcases Context.extractAll sink units cx with ⟨_ | results, cx'⟩
  · exact id
  · exact hI.conclude policy units results cx'

end Run

end KeptByName

/-! ## 4. Runs that no crash cuts short -/

theorem kept_not_crashed (hreturns : sink.Returns) :
    Kept sink (fun _ => True) fun stop _ => stop ≠ .crashed where
  register n cx _ := by
    rw [register_apply]
    cases cx.registry.get? n <;> trivial
  call c cx _ := by
    rw [call_apply]
    cases hreply : (sink.reply cx.sinkState c).1 with
    | accepted => trivial
    | refused e => exact fun h => nomatch h
    | crashed => exact absurd hreply (hreturns _ _)
  countEntity _ _ := trivial
  countEdge _ _ := trivial
  countClassified _ _ := trivial
  rejected _ _ _ h := nomatch h

/-- A unit has a result, unless the sink crashes. -/
theorem attempt_of_returns (hreturns : sink.Returns) (u : CompilationUnit) (cx : Context σ) :
    ∃ r, attempt sink u cx = (.ok r, (extractUnit sink u cx).2) := by
  have hunit := (kept_not_crashed hreturns).byName.extractUnit u cx trivial
  rw [attempt_apply]
  rcases hu : extractUnit sink u cx with ⟨(e | _) | report, cx'⟩
  · exact ⟨.error e, rfl⟩
  · rw [hu] at hunit
    exact absurd rfl hunit
  · exact ⟨.ok report, rfl⟩

theorem workOff_of_returns (hreturns : sink.Returns) (units : List CompilationUnit)
    (cx : Context σ) : ∃ results, workOff sink units cx = (.ok results, (workOff sink units cx).2) := by
  induction units generalizing cx with
  | nil => exact ⟨[], rfl⟩
  | cons u units ih =>
    obtain ⟨r, hr⟩ := attempt_of_returns hreturns u cx
    obtain ⟨results, hresults⟩ := ih (extractUnit sink u cx).2
    rw [workOff_cons, bind_ok hr, bind_ok hresults]
    exact ⟨r :: results, rfl⟩

/-- The last unit of a run finds the context that the units before it left. -/
theorem extractAll_concat (hreturns : sink.Returns) (units : List CompilationUnit)
    (u : CompilationUnit) (cx : Context σ) :
    ∃ results, extractAll sink (units ++ [u]) cx =
      (.ok results, (extractUnit sink u (workOff sink units cx).2).2) := by
  obtain ⟨first, hfirst⟩ := workOff_of_returns hreturns units cx
  obtain ⟨r, hr⟩ := attempt_of_returns hreturns u (workOff sink units cx).2
  have hall : workOff sink (units ++ [u]) cx =
      (.ok (first ++ [r]), (extractUnit sink u (workOff sink units cx).2).2) := by
    unfold workOff at *
    rw [List.mapM_append, bind_ok hfirst, List.mapM_cons, List.mapM_nil, bind_assoc, bind_ok hr]
    rfl
  exact ⟨_, extractAll_of_workOff sink hall⟩

end Context

end ModifierFacts
