import ModifierFacts.Proofs.Extraction.Accepting
import ModifierFacts.Proofs.Text.Bytes
import ModifierFacts.Proofs.Workers.Edges

/-!
# What an identifier identifies

Entities are kept apart by their names, but an edge knows its entity by the identifier alone, which
is a digest of the name. Nothing compares the identifiers of different names, and there are names
with the same one.

* `Resolved`: what is declared and what is attached, by name and identifier, with two ways to say
  that identifiers identify (`declared_injective_iff`, `existsUnique_declared_iff`);
* `Machine.Ledger.resolved`: the facts once all units are finished;
* **`Machine.conclude_identifies`**: every edge leads to the declaration of its name, and to that
  one alone exactly if no two names of the units have one identifier;
* **`Machine.run_confuses_names`**: two names of one declaration under one identifier.
-/

namespace ModifierFacts

/-! ## 1. Declarations and edges -/

theorem map_snd_pairsOf (units : List CompilationUnit) :
    (pairsOf units).map (·.2) = namesOf units := by
  unfold pairsOf namesOf recordsOf CompilationUnit.pairs
  simp [List.map_flatMap, List.flatMap_assoc, Function.comp_def]

/-- The modifier names of all records are those that some declaration carries. -/
theorem mem_namesOf_iff {units : List CompilationUnit} {n : String} :
    n ∈ namesOf units ↔ ∃ d, (d, n) ∈ pairsOf units := by
  rw [← map_snd_pairsOf, List.mem_map]
  constructor
  · rintro ⟨⟨d, _⟩, h, rfl⟩
    exact ⟨d, h⟩
  · rintro ⟨d, h⟩
    exact ⟨(d, n), h, rfl⟩

/-- A list of facts in which every name of the units, and no other, is declared under its own
identifier, and in which every edge leads to a name that its declaration carries. -/
structure Resolved (units : List CompilationUnit) (facts : List Fact) : Prop where
  modifiers : ∀ {id n}, .modifiers id n ∈ facts ↔
    n ∈ namesOf units ∧ id = .ofTrapKey (n ++ ";modifier")
  hasModifiers : ∀ {d id}, .hasModifiers d id ∈ facts ↔
    ∃ n, (d, n) ∈ pairsOf units ∧ id = .ofTrapKey (n ++ ";modifier")

namespace Resolved

variable {units : List CompilationUnit} {facts : List Fact} (h : Resolved units facts)

include h

/-- Every edge leads to the declaration of a name that its source carries. -/
theorem exists_declared {d : DeclarationId} {id : EntityId} (hedge : .hasModifiers d id ∈ facts) :
    ∃ n, (d, n) ∈ pairsOf units ∧ .modifiers id n ∈ facts := by
  obtain ⟨n, hn, hid⟩ := h.hasModifiers.mp hedge
  exact ⟨n, hn, h.modifiers.mpr ⟨mem_namesOf_iff.mpr ⟨d, hn⟩, hid⟩⟩

theorem declared_injective_iff :
    (∀ id n n', .modifiers id n ∈ facts → .modifiers id n' ∈ facts → n = n') ↔
      IdsTellApart (namesOf units) := by
  constructor
  · intro hinj n hn n' hn' hid
    exact hinj _ n n' (h.modifiers.mpr ⟨hn, rfl⟩) (h.modifiers.mpr ⟨hn', hid⟩)
  · intro hids id n n' hn hn'
    obtain ⟨hmem, hid⟩ := h.modifiers.mp hn
    obtain ⟨hmem', hid'⟩ := h.modifiers.mp hn'
    exact hids n hmem n' hmem' (hid.symm.trans hid')

theorem existsUnique_declared_iff :
    (∀ d id, .hasModifiers d id ∈ facts → ∃! n, .modifiers id n ∈ facts) ↔
      IdsTellApart (namesOf units) := by
  rw [← h.declared_injective_iff]
  constructor
  · intro hunique id n n' hn hn'
    -- a name is declared only for an edge, so an identifier without an edge has no name at all
    obtain ⟨hmem, hid⟩ := h.modifiers.mp hn
    obtain ⟨d, hd⟩ := mem_namesOf_iff.mp hmem
    exact (hunique d id (h.hasModifiers.mpr ⟨n, hd, hid⟩)).unique hn hn'
  · intro hinj d id hedge
    obtain ⟨n, -, hn⟩ := h.exists_declared hedge
    exact ⟨n, hn, fun n' hn' => hinj id n' n hn' hn⟩

end Resolved

/-! ## 2. The names of a run -/

namespace Machine

variable {σ : Type} {sink : FactSink σ}

/-- Once all units are finished, exactly their names are registered. -/
theorem Ledger.mem_keys_iff {units : List CompilationUnit} {m : Machine (Observed σ)}
    (h : Ledger units m) (hm : m.Finished) {n : String} :
    n ∈ m.context.registry.keys ↔ n ∈ namesOf units := by
  have hn := h.names n
  rw [(finished_iff m).mp hm] at hn
  simp only [List.not_mem_nil, exists_false, or_false] at hn
  rw [hn, map_snd_pairsOf]

theorem Ledger.resolved {units : List CompilationUnit} {m : Machine (Observed σ)}
    (h : Ledger units m) (hm : m.Finished) : Resolved units m.context.sinkState.log.taken := by
  have hperm := h.facts_perm
  rw [(finished_iff m).mp hm, List.filterMap_nil, List.append_nil] at hperm
  refine ⟨fun {id n} => ?_, fun {d id} => ?_⟩
  · rw [hperm.mem_iff, ← h.mem_keys_iff hm]
    simp [Fact.declaring, Fact.carrying, eq_comm]
  · rw [hperm.mem_iff]
    simp [Fact.declaring, Fact.carrying, eq_comm]

/-- **What identifiers identify.** Whatever the policy and the order of the work, a run over an
accepting sink declares every modifier name of the classified units once, under the identifier that
is derived from it, and nothing else. Every edge leads to the declaration of a name that its source
carries. But an identifier stands for one name, and an edge leads to one name, exactly if no two
names of these units have the same identifier. -/
theorem conclude_identifies (haccept : sink.Accepting) (policy : FailurePolicy) (s : σ)
    (units : List CompilationUnit) (schedule : List Turn) :
    let m := run sink.observed (launch (Context.start s).watched units) schedule
    let facts := (m.conclude sink.observed policy).2.sinkState.log.taken
    m.Finished →
      (∀ id n, .modifiers id n ∈ facts ↔
        n ∈ namesOf units ∧ id = .ofTrapKey (n ++ ";modifier")) ∧
      (Fact.declaredNames facts).Nodup ∧
      (∀ d id, .hasModifiers d id ∈ facts →
        ∃ n, (d, n) ∈ pairsOf units ∧ .modifiers id n ∈ facts) ∧
      ((∀ id n n', .modifiers id n ∈ facts → .modifiers id n' ∈ facts → n = n') ↔
        IdsTellApart (namesOf units)) ∧
      ((∀ d id, .hasModifiers d id ∈ facts → ∃! n, .modifiers id n ∈ facts) ↔
        IdsTellApart (namesOf units)) := by
  intro m facts hm
  have hledger : Ledger units m := ledger_run haccept s units schedule
  have htaken : facts = m.context.sinkState.log.taken := taken_conclude sink policy m
  have h : Resolved units facts := by
    rw [htaken]
    exact hledger.resolved hm
  have honce : (Fact.declaredNames facts).Nodup := by
    rw [htaken]
    exact hledger.declaredNames_nodup
  exact ⟨fun _ _ => h.modifiers, honce, fun _ _ => h.exists_declared, h.declared_injective_iff,
    h.existsUnique_declared_iff⟩

/-- The two units share the name `public`, and every edge leads to it alone. -/
theorem conclude_identifies_overtaken :
    let m := run FactSink.memory.observed (launch (Context.start []).watched twoUnits)
      [⟨0, 0⟩, ⟨0, 0⟩, ⟨1, 1⟩, ⟨1, 1⟩, ⟨1, 1⟩, ⟨1, 1⟩, ⟨0, 0⟩, ⟨0, 0⟩, ⟨0, 0⟩, ⟨0, 0⟩]
    let facts := (m.conclude FactSink.memory.observed .abortUnit).2.sinkState.log.taken
    m.Finished ∧ IdsTellApart (namesOf twoUnits) ∧
      (∀ n, .modifiers (.ofTrapKey "public;modifier") n ∈ facts ↔ n = "public") ∧
      ∀ d id, .hasModifiers d id ∈ facts → ∃! n, .modifiers id n ∈ facts := by
  intro m facts
  have hfinished : m.Finished := by decide +kernel
  have hids : IdsTellApart (namesOf twoUnits) := by
    unfold IdsTellApart
    decide +kernel
  have hnames : namesOf twoUnits = ["public", "public"] := by decide +kernel
  obtain ⟨hdeclared, -, -, -, hunique⟩ := conclude_identifies FactSink.memory_accepting .abortUnit
    [] twoUnits
    [⟨0, 0⟩, ⟨0, 0⟩, ⟨1, 1⟩, ⟨1, 1⟩, ⟨1, 1⟩, ⟨1, 1⟩, ⟨0, 0⟩, ⟨0, 0⟩, ⟨0, 0⟩, ⟨0, 0⟩] hfinished
  refine ⟨hfinished, hids, fun n => ?_, hunique.mpr hids⟩
  rw [hdeclared, hnames]
  constructor
  · intro ⟨hn, _⟩
    simpa using hn
  · intro hn
    rw [hn]
    exact ⟨List.mem_cons_self, rfl⟩

/-- A declaration with two modifiers that a digest confuses. -/
def confusedUnits : List CompilationUnit :=
  [⟨"a.cs", [⟨⟨1⟩, (Symbol.plain "A" .event .notApplicable).withSourceModifiers
    ["iikfofjngankljbp", "jlkhmfmacacegkak"]⟩]⟩]

/-- Two names of one declaration are declared under one identifier, so neither of its two edges
tells which of them it leads to. -/
theorem run_confuses_names :
    let ending := Context.run FactSink.memory.observed .abortUnit confusedUnits
      (Context.start []).watched
    let facts := ending.2.sinkState.log.taken
    let id : EntityId := ⟨12666913522326884639⟩
    (∃ summary, ending.1 = .ok summary) ∧
      facts = [.modifiers id "iikfofjngankljbp", .hasModifiers ⟨1⟩ id,
        .modifiers id "jlkhmfmacacegkak", .hasModifiers ⟨1⟩ id] ∧
      (¬ ∀ id n n', .modifiers id n ∈ facts → .modifiers id n' ∈ facts → n = n') ∧
      ¬ ∃! n, .modifiers id n ∈ facts := by
  intro ending facts id
  have hfirst : EntityId.ofTrapKey ("iikfofjngankljbp" ++ ";modifier") = id := by
    rw [EntityId.ofTrapKey, Text.bytes_eq_data]
    decide +kernel
  have hsecond : EntityId.ofTrapKey ("jlkhmfmacacegkak" ++ ";modifier") = id := by
    rw [EntityId.ofTrapKey, Text.bytes_eq_data]
    decide +kernel
  have hpairs : pairsOf confusedUnits =
      [(⟨1⟩, "iikfofjngankljbp"), (⟨1⟩, "jlkhmfmacacegkak")] := by decide +kernel
  obtain ⟨htaken, hending⟩ :=
    Context.run_accepting FactSink.memory_accepting .abortUnit [] confusedUnits
  have hfacts : facts = [.modifiers id "iikfofjngankljbp", .hasModifiers ⟨1⟩ id,
      .modifiers id "jlkhmfmacacegkak", .hasModifiers ⟨1⟩ id] := by
    have hwalk : facts = [.declaring "iikfofjngankljbp", .carrying (⟨1⟩, "iikfofjngankljbp"),
        .declaring "jlkhmfmacacegkak", .carrying (⟨1⟩, "jlkhmfmacacegkak")] := by
      refine htaken.trans ?_
      rw [hpairs]
      rfl
    rw [hwalk]
    simp only [Fact.declaring, Fact.carrying, hfirst, hsecond]
  have hn : .modifiers id "iikfofjngankljbp" ∈ facts := by simp [hfacts]
  have hn' : .modifiers id "jlkhmfmacacegkak" ∈ facts := by simp [hfacts]
  have hne : "iikfofjngankljbp" ≠ "jlkhmfmacacegkak" := by decide
  exact ⟨⟨_, hending⟩, hfacts, fun hall => hne (hall id _ _ hn hn'),
    fun hunique => hne (hunique.unique hn hn')⟩

end Machine

end ModifierFacts
