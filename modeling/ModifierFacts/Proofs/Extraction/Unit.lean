import Mathlib.Algebra.Ring.Nat
import ModifierFacts.Extraction.Run

/-!
# Which units are classified

A unit is classified as a whole. `CompilationUnit.classify_eq` says how: the first declaration that
is rejected rejects the unit, and a unit without one is the list of its classified declarations.

* `CompilationUnit.Yields`: the results that a unit can have over a sink that does not crash;
* `RunSummary.blocks`: the error that a single result stands for, under a policy;
* **`RunSummary.settle_eq`**: a run fails with the first of these errors, and otherwise has the
  summary `RunSummary.ofUnits`, which does not depend on what the sink did.
-/

namespace ModifierFacts

/-- The symbol has modifier names: it is not rejected. -/
def Symbol.Classifies (s : Symbol) : Prop := ∃ set, s.classify = .ok set

/-- The modifier names of a symbol; none if it is rejected. -/
def Symbol.modifierSet (s : Symbol) : ModifierSet :=
  match s.classify with
  | .ok set => set
  | .error _ => .empty

/-- The rejection of a symbol, if it is rejected. -/
def Symbol.rejection? (s : Symbol) : Option Unsupported :=
  match s.classify with
  | .ok _ => none
  | .error e => some e

theorem Symbol.rejection?_eq_none_iff (s : Symbol) : s.rejection? = none ↔ s.Classifies := by
  unfold Symbol.rejection? Symbol.Classifies
  cases s.classify <;> simp

theorem Symbol.rejection?_eq_some_iff (s : Symbol) (e : Unsupported) :
    s.rejection? = some e ↔ s.classify = .error e := by
  unfold Symbol.rejection?
  cases s.classify <;> simp

theorem Symbol.classify_of_classifies {s : Symbol} (h : s.Classifies) :
    s.classify = .ok s.modifierSet := by
  obtain ⟨set, hset⟩ := h
  rw [modifierSet, hset]

theorem DeclarationRecord.classify_eq (d : DeclarationRecord) :
    d.classify = match d.symbol.rejection? with
      | some e => .error e
      | none => .ok ⟨d.id, d.symbol.modifierSet⟩ := by
  unfold DeclarationRecord.classify Symbol.rejection? Symbol.modifierSet
  cases d.symbol.classify <;> rfl

namespace CompilationUnit

/-- Every declaration of the unit is classified. -/
def Classifies (u : CompilationUnit) : Prop := ∀ d ∈ u.declarations, d.symbol.Classifies

/-- The first rejection among the declarations of a unit. -/
def firstRejection? (u : CompilationUnit) : Option Unsupported :=
  u.declarations.findSome? (·.symbol.rejection?)

/-- The declarations of a unit with their modifier names. -/
def classified (u : CompilationUnit) : List ClassifiedDeclaration :=
  u.declarations.map fun d => ⟨d.id, d.symbol.modifierSet⟩

theorem firstRejection?_eq_none_iff (u : CompilationUnit) :
    u.firstRejection? = none ↔ u.Classifies := by
  unfold firstRejection? Classifies
  rw [List.findSome?_eq_none_iff]
  exact forall_congr' fun d => imp_congr_right fun _ => d.symbol.rejection?_eq_none_iff

/-- The first rejection is that of a declaration behind classified ones only. -/
theorem firstRejection?_eq_some_iff (u : CompilationUnit) (e : Unsupported) :
    u.firstRejection? = some e ↔ ∃ before d after, u.declarations = before ++ d :: after ∧
      (∀ c ∈ before, c.symbol.Classifies) ∧ d.symbol.classify = .error e := by
  unfold firstRejection?
  rw [List.findSome?_eq_some_iff]
  constructor
  · rintro ⟨before, d, after, hsplit, hd, hbefore⟩
    exact ⟨before, d, after, hsplit,
      fun c hc => c.symbol.rejection?_eq_none_iff.mp (hbefore c hc),
      (d.symbol.rejection?_eq_some_iff e).mp hd⟩
  · rintro ⟨before, d, after, hsplit, hbefore, hd⟩
    exact ⟨before, d, after, hsplit, (d.symbol.rejection?_eq_some_iff e).mpr hd,
      fun c hc => c.symbol.rejection?_eq_none_iff.mpr (hbefore c hc)⟩

instance (u : CompilationUnit) : Decidable u.Classifies :=
  decidable_of_iff (u.firstRejection? = none) u.firstRejection?_eq_none_iff

/-- **A unit is rejected by its first rejected declaration, or classified as a whole.** -/
theorem classify_eq (u : CompilationUnit) :
    u.classify = match u.firstRejection? with
      | some e => .error e
      | none => .ok u.classified := by
  unfold classify firstRejection? classified
  induction u.declarations with
  | nil => rfl
  | cons d ds ih =>
    rw [List.mapM_cons, ih, d.classify_eq, List.findSome?_cons, List.map_cons]
    cases d.symbol.rejection? with
    | some e => rfl
    | none => cases ds.findSome? (·.symbol.rejection?) <;> rfl

theorem classify_of_classifies {u : CompilationUnit} (h : u.Classifies) :
    u.classify = .ok u.classified := by
  rw [classify_eq, u.firstRejection?_eq_none_iff.mpr h]

theorem classify_of_rejection {u : CompilationUnit} {e : Unsupported}
    (h : u.firstRejection? = some e) : u.classify = .error e := by
  rw [classify_eq, h]

theorem exists_firstRejection {u : CompilationUnit} (h : ¬ u.Classifies) :
    ∃ e, u.firstRejection? = some e := by
  rw [← firstRejection?_eq_none_iff, ← ne_eq, Option.ne_none_iff_exists'] at h
  exact h

/-- The report on the unit as a whole. -/
def fullReport (u : CompilationUnit) : UnitReport :=
  ⟨u.name, u.declarations.length, (u.declarations.map fun d => d.symbol.modifierSet.size).sum⟩

theorem report_classified (u : CompilationUnit) : u.report u.classified = u.fullReport := by
  unfold report classified fullReport
  rw [List.length_map, List.foldl_map, List.sum_eq_foldl, List.foldl_map]

/-- A list with a rejected unit has a first one. -/
theorem exists_first_rejected {units : List CompilationUnit} (h : ∃ u ∈ units, ¬ u.Classifies) :
    ∃ before u after e, units = before ++ u :: after ∧ (∀ v ∈ before, v.Classifies) ∧
      u.firstRejection? = some e := by
  obtain ⟨v, hv, hrejected⟩ := h
  obtain ⟨e, he⟩ : ∃ e, units.findSome? (·.firstRejection?) = some e := by
    rw [← Option.ne_none_iff_exists', ne_eq, List.findSome?_eq_none_iff]
    exact fun hnone => hrejected (v.firstRejection?_eq_none_iff.mp (hnone v hv))
  obtain ⟨before, u, after, hunits, hfirst, hbefore⟩ := List.findSome?_eq_some_iff.mp he
  exact ⟨before, u, after, e, hunits,
    fun w hw => w.firstRejection?_eq_none_iff.mp (hbefore w hw), hfirst⟩

/-- A unit is rejected, or written as a whole, or one of its facts is refused. -/
inductive Yields (u : CompilationUnit) : UnitResult → Prop where
  | rejected {e : Unsupported} (h : u.firstRejection? = some e) : Yields u (.error (.modifier e))
  | written (h : u.Classifies) : Yields u (.ok u.fullReport)
  | refused (h : u.Classifies) (e : FactError) : Yields u (.error (.fact e))

/-- The result of the unit, unless the sink refuses one of its facts. -/
def result (u : CompilationUnit) : UnitResult :=
  match u.firstRejection? with
  | some e => .error (.modifier e)
  | none => .ok u.fullReport

theorem result_of_classifies {u : CompilationUnit} (h : u.Classifies) :
    u.result = .ok u.fullReport := by
  rw [result, u.firstRejection?_eq_none_iff.mpr h]

theorem result_of_rejection {u : CompilationUnit} {e : Unsupported}
    (h : u.firstRejection? = some e) : u.result = .error (.modifier e) := by
  rw [result, h]

theorem yields_result (u : CompilationUnit) : u.Yields u.result := by
  by_cases hu : u.Classifies
  · rw [result_of_classifies hu]
    exact .written hu
  · obtain ⟨e, he⟩ := exists_firstRejection hu
    rw [result_of_rejection he]
    exact .rejected he

end CompilationUnit

namespace RunSummary

/-- The error that a result is for the run, if it is one under this policy. -/
def blocks (policy : FailurePolicy) : CompilationUnit × UnitResult → Option RunError
  | (_, .ok _) => none
  | (u, .error (.fact e)) => some (.writing u.name e)
  | (u, .error (.modifier e)) => if policy = .abortRun then some (.extracting u.name e) else none

/-- Every unit in the list that fits it: the classified ones with their reports, the others with the
message of their first rejection. -/
def ofUnits (units : List CompilationUnit) : RunSummary where
  units := (units.filter fun u => u.Classifies).map (·.fullReport)
  failures := units.filterMap fun u => u.firstRejection?.map fun e => ⟨u.name, e.message⟩

theorem ofUnits_cons_classified {u : CompilationUnit} (h : u.Classifies)
    (units : List CompilationUnit) :
    ofUnits (u :: units) = (ofUnits units).addReport u.fullReport := by
  have hnone := u.firstRejection?_eq_none_iff.mpr h
  simp [ofUnits, addReport, h, hnone]

theorem ofUnits_cons_rejected {u : CompilationUnit} {e : Unsupported}
    (h : u.firstRejection? = some e) (units : List CompilationUnit) :
    ofUnits (u :: units) = (ofUnits units).addFailure ⟨u.name, e.message⟩ := by
  have hnot : ¬ u.Classifies := by
    rw [← u.firstRejection?_eq_none_iff, h]
    exact Option.some_ne_none e
  simp [ofUnits, addFailure, h, hnot]

/-- **The first result that blocks the run decides it.** If none does, every unit is in the summary. -/
theorem settle_eq (policy : FailurePolicy) {results : List (CompilationUnit × UnitResult)}
    (h : ∀ p ∈ results, p.1.Yields p.2) :
    settle policy results = match results.findSome? (blocks policy) with
      | some e => .error e
      | none => .ok (ofUnits (results.map (·.1))) := by
  induction results with
  | nil => rfl
  | cons p results ih =>
    obtain ⟨u, r⟩ := p
    rw [List.forall_mem_cons] at h
    have hu : u.Yields r := h.1
    have hrest := h.2
    rw [List.findSome?_cons, List.map_cons]
    cases hu with
    | written hu =>
      rw [settle, ih hrest, blocks, ofUnits_cons_classified hu]
      cases results.findSome? (blocks policy) <;> rfl
    | refused hu e => rfl
    | rejected he =>
      cases policy with
      | abortRun => rfl
      | abortUnit =>
        rw [settle, ih hrest, blocks, ofUnits_cons_rejected he, if_neg (by decide)]
        cases results.findSome? (blocks .abortUnit) <;> rfl

theorem blocks_eq_none_iff (policy : FailurePolicy) {u : CompilationUnit} {r : UnitResult}
    (h : u.Yields r) :
    blocks policy (u, r) = none ↔
      (¬ ∃ e, r = .error (.fact e)) ∧ (policy = .abortRun → u.Classifies) := by
  cases h with
  | written hu => simp [blocks, hu]
  | refused hu e => simp [blocks]
  | rejected he =>
    have hnot : ¬ u.Classifies := by
      rw [← u.firstRejection?_eq_none_iff, he]
      exact Option.some_ne_none _
    simp [blocks, hnot]

/-- No result blocks the run if no fact was refused and the policy lets every unit pass. -/
theorem findSome?_blocks_eq_none_iff (policy : FailurePolicy)
    {results : List (CompilationUnit × UnitResult)} (h : ∀ p ∈ results, p.1.Yields p.2) :
    results.findSome? (blocks policy) = none ↔
      (∀ p ∈ results, ¬ ∃ e, p.2 = .error (.fact e)) ∧
        (policy = .abortRun → ∀ p ∈ results, p.1.Classifies) := by
  rw [List.findSome?_eq_none_iff]
  constructor
  · intro hnone
    refine ⟨fun p hp => ?_, fun hpolicy p hp => ?_⟩
    · exact ((blocks_eq_none_iff policy (h p hp)).mp (hnone p hp)).1
    · exact ((blocks_eq_none_iff policy (h p hp)).mp (hnone p hp)).2 hpolicy
  · intro ⟨hfacts, hclassifies⟩ p hp
    rw [blocks_eq_none_iff policy (h p hp)]
    exact ⟨hfacts p hp, fun hpolicy => hclassifies hpolicy p hp⟩

/-- The results that units have if no fact is refused. -/
theorem settle_results_eq (policy : FailurePolicy) (units : List CompilationUnit) :
    settle policy (units.zip (units.map (·.result))) =
      match units.findSome? fun u => blocks policy (u, u.result) with
      | some e => .error e
      | none => .ok (ofUnits units) := by
  have hzip : units.zip (units.map (·.result)) = units.map fun u => (u, u.result) := by
    rw [List.zip, List.zipWith_map_right, List.zipWith_self]
  have hyields : ∀ p ∈ units.map (fun u => (u, u.result)), p.1.Yields p.2 := by
    rw [List.forall_mem_map]
    exact fun u _ => u.yields_result
  have hunits : (units.map fun u => (u, u.result)).map (·.1) = units := by
    rw [List.map_map]
    exact List.map_id' units
  rw [hzip, settle_eq _ hyields, List.findSome?_map, hunits]
  rfl

theorem blocks_result_of_classifies (policy : FailurePolicy) {u : CompilationUnit}
    (h : u.Classifies) : blocks policy (u, u.result) = none := by
  rw [CompilationUnit.result_of_classifies h, blocks]

theorem blocks_result_of_rejection (policy : FailurePolicy) {u : CompilationUnit} {e : Unsupported}
    (h : u.firstRejection? = some e) :
    blocks policy (u, u.result) =
      if policy = .abortRun then some (.extracting u.name e) else none := by
  rw [CompilationUnit.result_of_rejection h, blocks]

/-- If no fact is refused, rejected units do not end the run, unless the policy says so. -/
theorem settle_results (units : List CompilationUnit) :
    settle .abortUnit (units.zip (units.map (·.result))) = .ok (ofUnits units) := by
  have hnone : (units.findSome? fun u => blocks .abortUnit (u, u.result)) = none := by
    rw [List.findSome?_eq_none_iff]
    intro u _
    by_cases hu : u.Classifies
    · exact blocks_result_of_classifies _ hu
    · obtain ⟨e, he⟩ := CompilationUnit.exists_firstRejection hu
      rw [blocks_result_of_rejection _ he, if_neg (by decide)]
  rw [settle_results_eq, hnone]

/-- If the policy says so, the first rejected unit ends the run. -/
theorem settle_results_abortRun {before after : List CompilationUnit} {u : CompilationUnit}
    {e : Unsupported} (hbefore : ∀ v ∈ before, v.Classifies) (he : u.firstRejection? = some e) :
    settle .abortRun ((before ++ u :: after).zip ((before ++ u :: after).map (·.result))) =
      .error (.extracting u.name e) := by
  have hnone : (before.findSome? fun v => blocks .abortRun (v, v.result)) = none :=
    List.findSome?_eq_none_iff.mpr fun v hv => blocks_result_of_classifies _ (hbefore v hv)
  rw [settle_results_eq, List.findSome?_append, hnone, Option.none_or, List.findSome?_cons,
    blocks_result_of_rejection _ he, if_pos rfl]

end RunSummary

end ModifierFacts
