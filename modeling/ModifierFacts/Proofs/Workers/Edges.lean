import ModifierFacts.Proofs.ModifierSet
import ModifierFacts.Proofs.Workers.Ledger

/-!
# How often an edge is written

A set of modifier names has each name once, so one record of a declaration attaches each of its
modifiers once. But nothing keeps a declaration from being recorded again, in the same unit or in
another one, and every record attaches its modifiers anew.

* `recordsOf`: the records of all units that are not rejected;
* `DeclarationRecord.edges`: the edges that one record asks for;
* **`Machine.conclude_counts_edges`**: in every order of work an edge is written as often as records
  ask for it, so no edge is repeated exactly if no two records of one declaration share a name;
* **`Machine.run_repeats_edge`**: a declaration that is recorded twice gets its edge twice.
-/

namespace ModifierFacts

/-! ## 1. The edges of a record -/

/-- Whether a symbol is rejected or not, no name occurs twice among its modifier names. -/
theorem Symbol.nodup_modifierSet (s : Symbol) : s.modifierSet.names.Nodup := by
  unfold modifierSet classify
  cases s.accessibility with
  | unrecognized word => exact List.nodup_nil
  | known access =>
    cases s.views with
    | error e => exact List.nodup_nil
    | ok v => exact ModifierSet.nodup_ofList _

/-- The edges that a record asks for: one for each name of its symbol. -/
def DeclarationRecord.edges (r : DeclarationRecord) : List ModifierEdge :=
  r.symbol.modifierSet.names.map fun n => ⟨r.id, .ofTrapKey (n ++ ";modifier")⟩

/-- The records of all units that are not rejected. -/
def recordsOf (units : List CompilationUnit) : List DeclarationRecord :=
  (units.filter fun u => u.Classifies).flatMap (·.declarations)

/-- The modifier names of all records. -/
def namesOf (units : List CompilationUnit) : List String :=
  (recordsOf units).flatMap (·.symbol.modifierSet.names)

/-- No two of these names have one identifier. -/
def IdsTellApart (names : List String) : Prop :=
  ∀ n ∈ names, ∀ n' ∈ names,
    EntityId.ofTrapKey (n ++ ";modifier") = .ofTrapKey (n' ++ ";modifier") → n = n'

theorem edges_declaring (names : List String) : Fact.edges (names.map .declaring) = [] := by
  unfold Fact.edges
  rw [List.filterMap_map]
  exact List.filterMap_eq_nil_iff.mpr fun _ _ => rfl

/-- The pairs of the units, as edges, are the edges of their records. -/
theorem edges_carrying (units : List CompilationUnit) :
    Fact.edges ((pairsOf units).map .carrying) = (recordsOf units).flatMap (·.edges) := by
  have hedge (ps : List (DeclarationId × String)) : Fact.edges (ps.map .carrying) =
      ps.map fun p => ⟨p.1, .ofTrapKey (p.2 ++ ";modifier")⟩ := by
    unfold Fact.edges
    rw [List.filterMap_map]
    show (ps.filterMap fun p => some (ModifierEdge.mk p.1 (.ofTrapKey (p.2 ++ ";modifier")))) = _
    rw [List.filterMap_eq_map']
  have hpairs : pairsOf units =
      (recordsOf units).flatMap fun r => r.symbol.modifierSet.names.map fun n => (r.id, n) :=
    List.flatMap_assoc.symm
  rw [hedge, hpairs, List.map_flatMap]
  congr 1
  funext r
  rw [List.map_map]
  rfl

/-- If the identifiers tell names apart, records share an edge only if they are of one declaration and
share a name. -/
theorem disjoint_edges_iff {units : List CompilationUnit} (hids : IdsTellApart (namesOf units))
    {r r' : DeclarationRecord} (hr : r ∈ recordsOf units) (hr' : r' ∈ recordsOf units) :
    r.edges.Disjoint r'.edges ↔
      (r.id = r'.id → r.symbol.modifierSet.names.Disjoint r'.symbol.modifierSet.names) := by
  unfold DeclarationRecord.edges
  constructor
  · intro h hid n hn hn'
    refine h (List.mem_map_of_mem hn) ?_
    rw [hid]
    exact List.mem_map_of_mem hn'
  · intro h e he he'
    obtain ⟨n, hn, rfl⟩ := List.mem_map.mp he
    obtain ⟨n', hn', heq⟩ := List.mem_map.mp he'
    obtain ⟨hid, hname⟩ := ModifierEdge.mk.inj heq
    have hsame : n' = n := hids n' (List.mem_flatMap_of_mem hr' hn') n
      (List.mem_flatMap_of_mem hr hn) hname
    rw [hsame] at hn'
    exact h hid.symm hn hn'

theorem nodup_edges {units : List CompilationUnit} (hids : IdsTellApart (namesOf units))
    {r : DeclarationRecord} (hr : r ∈ recordsOf units) : r.edges.Nodup := by
  refine r.symbol.nodup_modifierSet.map_on fun n hn n' hn' heq => ?_
  exact hids n (List.mem_flatMap_of_mem hr hn) n' (List.mem_flatMap_of_mem hr hn')
    (ModifierEdge.mk.inj heq).2

theorem nodup_flatMap_edges_iff {units : List CompilationUnit}
    (hids : IdsTellApart (namesOf units)) :
    ((recordsOf units).flatMap (·.edges)).Nodup ↔ (recordsOf units).Pairwise fun r r' =>
      r.id = r'.id → r.symbol.modifierSet.names.Disjoint r'.symbol.modifierSet.names := by
  rw [List.nodup_flatMap, and_iff_right fun r hr => nodup_edges hids hr]
  exact List.Pairwise.iff_of_mem fun hr hr' => disjoint_edges_iff hids hr hr'

/-! ## 2. The edges of a run -/

namespace Machine

variable {σ : Type} {sink : FactSink σ}

variable (sink) in
theorem taken_conclude (policy : FailurePolicy) (m : Machine (Observed σ)) :
    (m.conclude sink.observed policy).2.sinkState.log.taken = m.context.sinkState.log.taken := by
  unfold conclude
  rcases m.results with ⟨_⟩ | results
  · rfl
  · exact Context.taken_conclude policy _ results m.context

/-- Once all units are finished, the sink holds the edges of their records, in some order. -/
theorem Ledger.edges_perm {units : List CompilationUnit} {m : Machine (Observed σ)}
    (h : Ledger units m) (hm : m.Finished) :
    (Fact.edges m.context.sinkState.log.taken).Perm ((recordsOf units).flatMap (·.edges)) := by
  have hfacts := h.facts_perm
  rw [(finished_iff m).mp hm, List.filterMap_nil, List.append_nil] at hfacts
  have hedges := hfacts.filterMap (·.edge?)
  rw [List.filterMap_append] at hedges
  change (Fact.edges _).Perm (Fact.edges _ ++ Fact.edges _) at hedges
  rw [edges_declaring, edges_carrying, List.nil_append] at hedges
  exact hedges

/-- **How often a run writes an edge.** Whatever the policy and the order of the work, an edge is
written as often as records of the classified units ask for it. If the identifiers tell the names
apart, no edge is written twice exactly if no two records of one declaration share a name. -/
theorem conclude_counts_edges (haccept : sink.Accepting) (policy : FailurePolicy) (s : σ)
    (units : List CompilationUnit) (schedule : List Turn) :
    let m := run sink.observed (launch (Context.start s).watched units) schedule
    let edges := Fact.edges (m.conclude sink.observed policy).2.sinkState.log.taken
    m.Finished →
      (∀ e, edges.count e = ((recordsOf units).map (·.edges.count e)).sum) ∧
      (IdsTellApart (namesOf units) →
        (edges.Nodup ↔ (recordsOf units).Pairwise fun r r' =>
          r.id = r'.id → r.symbol.modifierSet.names.Disjoint r'.symbol.modifierSet.names)) := by
  intro m edges hm
  have hperm : edges.Perm ((recordsOf units).flatMap (·.edges)) := by
    have h := (ledger_run haccept s units schedule).edges_perm hm
    have htaken := taken_conclude sink policy m
    rw [← htaken] at h
    exact h
  constructor
  · intro e
    rw [hperm.count_eq, List.count_flatMap]
    rfl
  · intro hids
    rw [hperm.nodup_iff, nodup_flatMap_edges_iff hids]

/-- The two units of different declarations, with the second one's work in between. -/
theorem conclude_counts_edges_overtaken :
    let m := run FactSink.memory.observed (launch (Context.start []).watched twoUnits)
      [⟨0, 0⟩, ⟨0, 0⟩, ⟨1, 1⟩, ⟨1, 1⟩, ⟨1, 1⟩, ⟨1, 1⟩, ⟨0, 0⟩, ⟨0, 0⟩, ⟨0, 0⟩, ⟨0, 0⟩]
    let edges := Fact.edges (m.conclude FactSink.memory.observed .abortUnit).2.sinkState.log.taken
    m.Finished ∧ IdsTellApart (namesOf twoUnits) ∧
      edges.count ⟨⟨2⟩, .ofTrapKey ("public" ++ ";modifier")⟩ = 1 ∧ edges.Nodup := by
  intro m edges
  have hfinished : m.Finished := by decide +kernel
  have hids : IdsTellApart (namesOf twoUnits) := by
    unfold IdsTellApart
    decide +kernel
  obtain ⟨hcount, hnodup⟩ := conclude_counts_edges FactSink.memory_accepting .abortUnit [] twoUnits
    [⟨0, 0⟩, ⟨0, 0⟩, ⟨1, 1⟩, ⟨1, 1⟩, ⟨1, 1⟩, ⟨1, 1⟩, ⟨0, 0⟩, ⟨0, 0⟩, ⟨0, 0⟩, ⟨0, 0⟩] hfinished
  refine ⟨hfinished, hids, ?_, ?_⟩
  · exact (hcount _).trans (by decide +kernel)
  · refine (hnodup hids).mpr ?_
    have hrecords : (recordsOf twoUnits).Pairwise fun r r' => r.id ≠ r'.id := by decide +kernel
    exact hrecords.imp fun hne heq => absurd heq hne

/-- One declaration, recorded in each of two units. -/
def recordedTwice : List CompilationUnit :=
  [⟨"a.cs", [⟨⟨1⟩, .plain "A" .event .publicAccess⟩]⟩,
   ⟨"b.cs", [⟨⟨1⟩, .plain "A" .event .publicAccess⟩]⟩]

/-- **A declaration that is recorded twice gets its edge twice.** -/
theorem run_repeats_edge :
    let ending := Context.run FactSink.memory.observed .abortUnit recordedTwice
      (Context.start []).watched
    let edge : ModifierEdge := ⟨⟨1⟩, .ofTrapKey ("public" ++ ";modifier")⟩
    Fact.edges ending.2.sinkState.log.taken = [edge, edge] ∧
      ¬ (Fact.edges ending.2.sinkState.log.taken).Nodup := by
  intro ending edge
  have hedges : Fact.edges ending.2.sinkState.log.taken = [edge, edge] := by decide +kernel
  refine ⟨hedges, ?_⟩
  rw [hedges]
  exact fun h => (List.nodup_cons.mp h).1 (List.mem_singleton_self edge)

end Machine

end ModifierFacts
