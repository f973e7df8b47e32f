import ModifierFacts.Proofs.Extraction.Operation
import ModifierFacts.Proofs.Extraction.Unit
import ModifierFacts.Proofs.Extraction.Watched

/-!
# What a run over an accepting sink writes

A run that meets no refusal writes what a walk through its input meets: for each name of each
declaration an edge, and in front of it the declaration of the name, where the name is new.

* `pairsOf`: the pairs of a declaration and a name, in the order of the input, without the units
  that are rejected;
* `walk`: the facts of a list of pairs, given the names that are known before;
* `Writes`: a step from one context to another that wrote the walk of a list of pairs, with
  `Writes.nil` and `Writes.append`;
* **`run_writes_walk`**: a whole run writes the walk of its pairs, then flushes.
-/

namespace ModifierFacts

/-! ## 1. The walk -/

/-- The declaration of a modifier name. -/
def Fact.declaring (n : String) : Fact := .modifiers (.ofTrapKey (n ++ ";modifier")) n

/-- The edge from a declaration to the modifier of a name. -/
def Fact.carrying (p : DeclarationId × String) : Fact :=
  .hasModifiers p.1 (.ofTrapKey (p.2 ++ ";modifier"))

/-- The declarations of a unit with each of their modifier names, in order. -/
def CompilationUnit.pairs (u : CompilationUnit) : List (DeclarationId × String) :=
  u.declarations.flatMap fun d => d.symbol.modifierSet.names.map fun n => (d.id, n)

/-- The pairs of all units that are not rejected. -/
def pairsOf (units : List CompilationUnit) : List (DeclarationId × String) :=
  (units.filter fun u => u.Classifies).flatMap (·.pairs)

theorem pairsOf_append (units units' : List CompilationUnit) :
    pairsOf (units ++ units') = pairsOf units ++ pairsOf units' := by
  rw [pairsOf, List.filter_append, List.flatMap_append]
  rfl

theorem pairsOf_cons (u : CompilationUnit) (units : List CompilationUnit) :
    pairsOf (u :: units) = pairsOf [u] ++ pairsOf units :=
  pairsOf_append [u] units

theorem pairsOf_singleton (u : CompilationUnit) :
    pairsOf [u] = if u.Classifies then u.pairs else [] := by
  unfold pairsOf
  by_cases hu : u.Classifies <;> simp [hu]

/-- A rejected unit adds nothing to the pairs around it. -/
theorem pairsOf_around {u : CompilationUnit} (hu : ¬ u.Classifies)
    (before after : List CompilationUnit) :
    pairsOf (before ++ u :: after) = pairsOf before ++ pairsOf after := by
  rw [pairsOf_append, pairsOf_cons, pairsOf_singleton, if_neg hu, List.nil_append]

/-- The facts of a list of pairs. A name is declared in front of its first edge, unless it is known
from before. -/
def walk (known : String → Bool) (earlier : List String) :
    List (DeclarationId × String) → List Fact
  | [] => []
  | (d, n) :: rest =>
    (if known n || earlier.contains n then [] else [.declaring n]) ++
      .carrying (d, n) :: walk known (earlier ++ [n]) rest

/-- The walk looks at the names known and the names met together. -/
theorem walk_congr {known known' : String → Bool} {earlier earlier' : List String}
    (h : ∀ n, (known n || earlier.contains n) = (known' n || earlier'.contains n))
    (ps : List (DeclarationId × String)) : walk known earlier ps = walk known' earlier' ps := by
  induction ps generalizing earlier earlier' with
  | nil => rfl
  | cons p ps ih =>
    obtain ⟨d, n⟩ := p
    have hnext : ∀ m, (known m || (earlier ++ [n]).contains m) =
        (known' m || (earlier' ++ [n]).contains m) := by
      intro m
      rw [List.contains_append, List.contains_append, ← Bool.or_assoc, ← Bool.or_assoc, h m]
    unfold walk
    rw [h n, ih hnext]

theorem walk_append (known : String → Bool) (earlier : List String)
    (ps qs : List (DeclarationId × String)) :
    walk known earlier (ps ++ qs) =
      walk known earlier ps ++ walk known (earlier ++ ps.map (·.2)) qs := by
  induction ps generalizing earlier with
  | nil => rw [List.map_nil, List.append_nil]; rfl
  | cons p ps ih =>
    obtain ⟨d, n⟩ := p
    rw [List.cons_append, walk, walk, ih, List.map_cons, List.append_assoc, List.append_assoc]
    rfl

theorem walk_eq_nil_iff {known : String → Bool} {earlier : List String}
    {ps : List (DeclarationId × String)} : walk known earlier ps = [] ↔ ps = [] := by
  cases ps with
  | nil => exact ⟨fun _ => rfl, fun _ => rfl⟩
  | cons p ps => simp [walk]

/-- The names that a walk declares are those that it meets and that were not known before. -/
theorem mem_declaredNames_walk {known : String → Bool} {earlier : List String}
    {ps : List (DeclarationId × String)} {n : String} :
    n ∈ Fact.declaredNames (walk known earlier ps) ↔
      n ∈ ps.map (·.2) ∧ known n = false ∧ n ∉ earlier := by
  induction ps generalizing earlier with
  | nil => simp [walk, Fact.declaredNames]
  | cons p ps ih =>
    obtain ⟨d, m⟩ := p
    have hwalk : Fact.declaredNames (walk known earlier ((d, m) :: ps)) =
        (if known m || earlier.contains m then [] else [m]) ++
          Fact.declaredNames (walk known (earlier ++ [m]) ps) := by
      rw [walk]
      split <;> rfl
    rw [hwalk, List.mem_append, ih, List.map_cons, List.mem_cons, List.mem_append,
      List.mem_singleton]
    by_cases hn : n = m
    · subst hn
      by_cases hknown : (known n || earlier.contains n) = true
      · have hold : known n = true ∨ n ∈ earlier := by simpa using hknown
        rw [if_pos hknown]
        rcases hold with hold | hold <;> simp [hold]
      · have hnew : known n = false ∧ n ∉ earlier := by simpa using hknown
        rw [if_neg hknown]
        simp [hnew]
    · split <;> simp [hn]

/-! ## 2. What a step writes -/

/-- **From one context to the next, the walk of these pairs was written**, and nothing else reached
the sink. -/
structure Writes {σ : Type} (cx cx' : Context (Observed σ)) (ps : List (DeclarationId × String)) :
    Prop where
  log : cx'.sinkState.log = cx.sinkState.log ++ .ofFacts (walk cx.registry.contains [] ps)
  contains : ∀ n, cx'.registry.contains n = (cx.registry.contains n || (ps.map (·.2)).contains n)
  faithful : cx'.registry.Faithful

namespace Writes

variable {σ : Type} {cx cx' cx'' : Context (Observed σ)} {ps qs : List (DeclarationId × String)}

theorem nil (h : cx.registry.Faithful) : Writes cx cx [] where
  log := (List.append_nil _).symm
  contains _ := (Bool.or_false _).symm
  faithful := h

theorem append (h : Writes cx cx' ps) (h' : Writes cx' cx'' qs) : Writes cx cx'' (ps ++ qs) where
  log := by
    -- what is known after the first part are the names known before and those of the first part
    have hwalk : walk cx'.registry.contains [] qs =
        walk cx.registry.contains ([] ++ ps.map (·.2)) qs :=
      walk_congr (fun n => by rw [h.contains n, List.contains_nil, Bool.or_false, List.nil_append]) qs
    rw [h'.log, h.log, hwalk, walk_append, SinkLog.ofFacts_append, List.append_assoc]
  contains n := by
    rw [h'.contains, h.contains, List.map_append, List.contains_append, Bool.or_assoc]
  faithful := h'.faithful

end Writes

namespace Context

variable {σ : Type} {sink : FactSink σ}

theorem call_accepted (h : sink.Accepting) (c : SinkCall) (cx : Context σ) :
    call sink c cx = (.ok (), { cx with sinkState := (sink.reply cx.sinkState c).2 }) := by
  rw [call_apply, h]
  rfl

theorem attach_accepted (haccept : sink.Accepting) (d : DeclarationId) (m : EntityId)
    (cx : Context σ) :
    attach sink d m cx = (.ok (),
      { cx with
        sinkState := (sink.reply cx.sinkState (.record (.hasModifiers d m))).2
        edgesAttached := cx.edgesAttached + 1 }) := by
  unfold attach
  rw [bind_ok (call_accepted haccept _ _)]
  rfl

/-- A list of steps, each of which writes its pairs, writes all of them. -/
theorem forM_writes {α : Type} {f : α → Extraction (Observed σ) Unit}
    {pairs : α → List (DeclarationId × String)}
    (hstep : ∀ (a : α) (cx : Context (Observed σ)), cx.registry.Faithful →
      ∃ cx', f a cx = (.ok (), cx') ∧ Writes cx cx' (pairs a))
    (l : List α) (cx : Context (Observed σ)) (hf : cx.registry.Faithful) :
    ∃ cx', l.forM f cx = (.ok (), cx') ∧ Writes cx cx' (l.flatMap pairs) := by
  induction l generalizing cx with
  | nil => exact ⟨cx, rfl, .nil hf⟩
  | cons a l ih =>
    obtain ⟨cx₁, h₁, hw₁⟩ := hstep a cx hf
    obtain ⟨cx₂, h₂, hw₂⟩ := ih cx₁ hw₁.faithful
    exact ⟨cx₂, (bind_ok h₁ _).trans h₂, hw₁.append hw₂⟩

variable (haccept : sink.Accepting)

include haccept

theorem hasModifier_writes (d : DeclarationId) (n : String) (cx : Context (Observed σ))
    (hf : cx.registry.Faithful) :
    ∃ cx', hasModifier sink.observed d n cx = (.ok (), cx') ∧ Writes cx cx' [(d, n)] := by
  cases hn : cx.registry.get? n with
  | some e =>
    have hc : cx.registry.contains n = true := by rw [Registry.contains, hn]; rfl
    rw [hasModifier_of_some _ hn, attach_accepted haccept.observed]
    refine ⟨_, rfl, ?_, ?_, hf⟩
    · rw [hf n e hn, FactSink.log_observed_reply, haccept.observed]
      simp only [walk, hc, Bool.true_or, if_true]
      rfl
    · intro m
      show cx.registry.contains m = (cx.registry.contains m || [n].contains m)
      by_cases hm : m = n
      · rw [hm, hc, Bool.true_or]
      · simp [hm]
  | none =>
    have hc : cx.registry.contains n = false := by rw [Registry.contains, hn]; rfl
    rw [hasModifier_of_none _ hn, bind_ok (call_accepted haccept.observed _ _),
      bind_ok (countEntity_apply _), attach_accepted haccept.observed]
    refine ⟨_, rfl, ?_, ?_, hf.register hn⟩
    · rw [FactSink.log_observed_reply, FactSink.log_observed_reply, haccept.observed,
        haccept.observed, List.append_assoc]
      simp only [walk, hc, List.contains_nil, Bool.or_false]
      rfl
    · intro m
      show (cx.registry.register n _).contains m = (cx.registry.contains m || [n].contains m)
      rw [Registry.contains_register, List.contains_cons, List.contains_nil, Bool.or_false]

theorem attachAll_writes (d : DeclarationId) (names : List String) (cx : Context (Observed σ))
    (hf : cx.registry.Faithful) :
    ∃ cx', attachAll sink.observed d names cx = (.ok (), cx') ∧
      Writes cx cx' (names.map fun n => (d, n)) := by
  have h := forM_writes (hasModifier_writes haccept d) names cx hf
  rw [← List.map_eq_flatMap] at h
  exact h

theorem writeDeclaration_writes (d : ClassifiedDeclaration) (cx : Context (Observed σ))
    (hf : cx.registry.Faithful) :
    ∃ cx', writeDeclaration sink.observed d cx = (.ok (), cx') ∧
      Writes cx cx' (d.modifiers.names.map fun n => (d.id, n)) := by
  unfold writeDeclaration
  rw [bind_ok (countClassified_apply cx)]
  -- counting leaves the sink and the registry alone
  obtain ⟨cx', h, hw⟩ := attachAll_writes haccept d.id d.modifiers.names
    { cx with declarationsClassified := cx.declarationsClassified + 1 } hf
  exact ⟨cx', h, hw.log, hw.contains, hw.faithful⟩

/-- A unit that is classified writes its pairs. -/
theorem extractUnit_writes {u : CompilationUnit} (hu : u.Classifies) (cx : Context (Observed σ))
    (hf : cx.registry.Faithful) :
    ∃ cx', extractUnit sink.observed u cx = (.ok (u.report u.classified), cx') ∧
      Writes cx cx' u.pairs := by
  obtain ⟨cx', h, hw⟩ := forM_writes (writeDeclaration_writes haccept) u.classified cx hf
  refine ⟨cx', ?_, ?_⟩
  · rw [extractUnit_of_ok _ (CompilationUnit.classify_of_classifies hu)]
    exact bind_ok h _
  · unfold CompilationUnit.classified at hw
    rw [List.flatMap_map] at hw
    exact hw

omit haccept in
/-- A unit that is rejected leaves the context alone. -/
theorem extractUnit_of_rejection {u : CompilationUnit} {e : Unsupported}
    (h : u.firstRejection? = some e) (cx : Context σ) :
    extractUnit sink u cx = (.error (.failed (.modifier e)), cx) := by
  rw [extractUnit_of_error sink (CompilationUnit.classify_of_rejection h)]
  rfl

/-! ## 3. What a run writes -/

omit haccept in
/-- The end of a run writes no fact. -/
theorem taken_conclude (policy : FailurePolicy) (units : List CompilationUnit)
    (results : List UnitResult) (cx : Context (Observed σ)) :
    (conclude sink.observed policy units results cx).2.sinkState.log.taken =
      cx.sinkState.log.taken := by
  cases hsettle : RunSummary.settle policy (units.zip results) with
  | error e => rw [conclude_of_error _ hsettle]
  | ok summary =>
    have hflush (r : Reply) : SinkLog.taken [(.flush, r)] = [] := rfl
    rw [conclude_of_ok _ hsettle, finalFlush_apply]
    dsimp only
    rw [FactSink.log_observed_reply, SinkLog.taken_append, hflush, List.append_nil]

theorem attempt_writes (u : CompilationUnit) (cx : Context (Observed σ))
    (hf : cx.registry.Faithful) :
    ∃ cx', attempt sink.observed u cx = (.ok u.result, cx') ∧ Writes cx cx' (pairsOf [u]) := by
  rw [attempt_apply]
  by_cases hu : u.Classifies
  · obtain ⟨cx', h, hw⟩ := extractUnit_writes haccept hu cx hf
    rw [h, CompilationUnit.result_of_classifies hu, u.report_classified]
    refine ⟨cx', rfl, ?_⟩
    rw [pairsOf_singleton, if_pos hu]
    exact hw
  · obtain ⟨e, he⟩ := CompilationUnit.exists_firstRejection hu
    rw [extractUnit_of_rejection he, CompilationUnit.result_of_rejection he]
    refine ⟨cx, rfl, ?_⟩
    rw [pairsOf_singleton, if_neg hu]
    exact .nil hf

theorem workOff_writes (units : List CompilationUnit) (cx : Context (Observed σ))
    (hf : cx.registry.Faithful) :
    ∃ cx', workOff sink.observed units cx = (.ok (units.map (·.result)), cx') ∧
      Writes cx cx' (pairsOf units) := by
  induction units generalizing cx with
  | nil => exact ⟨cx, rfl, .nil hf⟩
  | cons u units ih =>
    obtain ⟨cx₁, h₁, hw₁⟩ := attempt_writes haccept u cx hf
    obtain ⟨cx₂, h₂, hw₂⟩ := ih cx₁ hw₁.faithful
    refine ⟨cx₂, ?_, ?_⟩
    · rw [workOff_cons, bind_ok h₁, bind_ok h₂]
      rfl
    · rw [pairsOf_cons]
      exact hw₁.append hw₂

/-- **A run over an accepting sink writes the walk of its units and flushes.** This holds in every
context that can be reached before, whatever is registered there. -/
theorem run_writes_walk (s : σ) (ops : List Operation) (units : List CompilationUnit) :
    let cx := performAll sink (start s) ops
    ∃ summary cx', run sink.observed .abortUnit units cx.watched = (.ok summary, cx') ∧
      cx'.sinkState.log =
        SinkLog.ofFacts (walk cx.registry.contains [] (pairsOf units)) ++ [(.flush, .accepted)] := by
  intro cx
  have hf : cx.registry.Faithful := faithful_performAll sink s ops
  obtain ⟨cx₁, h₁, hw₁⟩ := workOff_writes haccept units cx.watched hf
  rw [run_apply, extractAll_of_workOff _ h₁]
  show ∃ summary cx', conclude _ _ _ _ _ = _ ∧ _
  rw [conclude_of_ok _ (RunSummary.settle_results units), finalFlush_apply, haccept.observed]
  refine ⟨_, _, rfl, ?_⟩
  rw [FactSink.log_observed_reply, haccept.observed, hw₁.log]
  rfl

omit haccept

/-- Three units. The second is rejected, for its method comes without the shape of one. -/
def threeUnits : List CompilationUnit :=
  [⟨"a.cs", [⟨⟨1⟩, (Symbol.plain "A" .property .publicAccess).withFlags { isStatic := true }⟩]⟩,
   ⟨"b.cs", [⟨⟨2⟩, .plain "B" .event .internalAccess⟩, ⟨⟨3⟩, .plain "C" .method .publicAccess⟩]⟩,
   ⟨"c.cs", [⟨⟨4⟩, .plain "D" .event .publicAccess⟩]⟩]

/-- `static` is known before the run, `public` is met twice. -/
theorem run_writes_walk_threeUnits :
    let cx := performAll FactSink.memory (start []) [.modifier "static"]
    ∃ summary cx',
      run FactSink.memory.observed .abortUnit threeUnits cx.watched = (.ok summary, cx') ∧
      cx'.sinkState.log =
        SinkLog.ofFacts [.declaring "public", .carrying (⟨1⟩, "public"), .carrying (⟨1⟩, "static"),
          .carrying (⟨4⟩, "public")] ++ [(.flush, .accepted)] :=
  run_writes_walk FactSink.memory_accepting [] [.modifier "static"] threeUnits

end Context

end ModifierFacts
