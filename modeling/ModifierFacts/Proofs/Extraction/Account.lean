import Mathlib.Data.List.Nodup
import ModifierFacts.Proofs.Extraction.Walk

/-!
# What the books of a context say about its sink

A request by name stops at the first call that the sink does not accept, and leaves the context as
far as it got. The registry, the counters and the log of the sink agree all the same, after every
request and whatever became of it.

* `SinkLog.Anchored`: no edge was offered before the declaration of its entity;
* `Context.Balanced`: the books agree with the log. A name is registered first and declared later, so
  the single steps do not keep this, but `modifier_balanced` and `hasModifier_balanced` do;
* **`Context.performAll_balances`**: what the registry and the counters count, after every sequence
  of requests by name.
-/

namespace ModifierFacts

/-! ## 1. Declarations before edges -/

/-- The declarations in a list of facts. -/
def Fact.declarations (facts : List Fact) : List Fact := facts.filter (·.declaredName?.isSome)

theorem Fact.declaredNames_declarations (facts : List Fact) :
    declaredNames (declarations facts) = declaredNames facts := by
  unfold declaredNames declarations
  rw [List.filterMap_filter]
  congr 1
  funext f
  cases f <;> rfl

theorem Fact.declaredNames_map_declaring (names : List String) :
    declaredNames (names.map declaring) = names := by
  unfold declaredNames
  rw [List.filterMap_map]
  exact List.filterMap_some

namespace SinkLog

/-- Every edge that was offered, accepted or not, leads to the entity of a name whose declaration
was offered before. -/
def Anchored (log : SinkLog) : Prop :=
  ∀ before d m r after, log = before ++ (.record (.hasModifiers d m), r) :: after →
    ∃ n, m = .ofTrapKey (n ++ ";modifier") ∧ .declaring n ∈ offered before

theorem anchored_nil : Anchored [] := by
  intro before d m r after h
  cases before <;> cases h

/-- One more call leaves a log anchored if it is no edge, or one to a declared name. -/
theorem Anchored.concat {log : SinkLog} (h : log.Anchored) {c : SinkCall} (r : Reply)
    (hc : ∀ d m, c = .record (.hasModifiers d m) →
      ∃ n, m = .ofTrapKey (n ++ ";modifier") ∧ .declaring n ∈ log.offered) :
    Anchored (log ++ [(c, r)]) := by
  intro before d m r' after heq
  rcases List.eq_nil_or_concat after with rfl | ⟨after, last, rfl⟩
  · obtain ⟨hbefore, hlast⟩ := List.append_inj' heq rfl
    cases hlast
    rw [← hbefore]
    exact hc d m rfl
  · rw [List.concat_eq_append, ← List.cons_append, ← List.append_assoc] at heq
    exact h before d m r' after (List.append_inj' heq rfl).1

end SinkLog

/-! ## 2. Balanced books -/

namespace Context

variable {σ : Type} {sink : FactSink σ}

/-- **The books of a context agree with the log of its sink.** -/
structure Balanced (cx : Context (Observed σ)) : Prop where
  faithful : cx.registry.Faithful
  nodup : cx.registry.keys.Nodup
  /-- The declarations that were offered are those of the registered names, in their order. -/
  declared : Fact.declarations cx.sinkState.log.offered = cx.registry.keys.map .declaring
  anchored : cx.sinkState.log.Anchored
  entities : cx.entitiesCreated = (Fact.declaredNames cx.sinkState.log.taken).length
  edges : cx.edgesAttached = (Fact.edges cx.sinkState.log.taken).length

namespace Balanced

variable {cx : Context (Observed σ)}

theorem start (s : σ) : Balanced (start s).watched where
  faithful := Registry.faithful_empty
  nodup := List.nodup_nil
  declared := rfl
  anchored := SinkLog.anchored_nil
  entities := rfl
  edges := rfl

theorem names (h : Balanced cx) : Fact.declaredNames cx.sinkState.log.offered = cx.registry.keys := by
  rw [← Fact.declaredNames_declarations, h.declared, Fact.declaredNames_map_declaring]

theorem mem_offered_iff (h : Balanced cx) (n : String) :
    .declaring n ∈ cx.sinkState.log.offered ↔ n ∈ cx.registry.keys := by
  have hmem : .declaring n ∈ cx.sinkState.log.offered ↔
      .declaring n ∈ Fact.declarations cx.sinkState.log.offered := by
    unfold Fact.declarations
    rw [List.mem_filter]
    exact (and_iff_left rfl).symm
  rw [hmem, h.declared, List.mem_map]
  constructor
  · rintro ⟨m, hm, heq⟩
    rw [← (Fact.modifiers.inj heq).2]
    exact hm
  · exact fun hn => ⟨n, hn, rfl⟩

/-- Every declaration that was offered gives the name its own identifier. -/
theorem eq_declaring (h : Balanced cx) {id : EntityId} {n : String}
    (hmem : .modifiers id n ∈ cx.sinkState.log.offered) : .modifiers id n = Fact.declaring n := by
  have hdeclaration : .modifiers id n ∈ Fact.declarations cx.sinkState.log.offered :=
    List.mem_filter.mpr ⟨hmem, rfl⟩
  rw [h.declared, List.mem_map] at hdeclaration
  obtain ⟨m, -, heq⟩ := hdeclaration
  rw [← heq, (Fact.modifiers.inj heq).2]

/-- One more call keeps the books balanced if the registry and the counters grow by what the call
brings into the log. -/
theorem grow (h : Balanced cx) {cx' : Context (Observed σ)} {c : SinkCall} {r : Reply}
    (new : List String) (hlog : cx'.sinkState.log = cx.sinkState.log ++ [(c, r)])
    (hfaithful : cx'.registry.Faithful) (hnodup : cx'.registry.keys.Nodup)
    (hkeys : cx'.registry.keys = cx.registry.keys ++ new)
    (hdeclared : Fact.declarations (SinkLog.offered [(c, r)]) = new.map .declaring)
    (hedge : ∀ d m, c = .record (.hasModifiers d m) →
      ∃ n ∈ cx.registry.keys, m = (ModifierEntity.ofName n).id)
    (hentities : cx'.entitiesCreated =
      cx.entitiesCreated + (Fact.declaredNames (SinkLog.taken [(c, r)])).length)
    (hedges : cx'.edgesAttached =
      cx.edgesAttached + (Fact.edges (SinkLog.taken [(c, r)])).length) : Balanced cx' where
  faithful := hfaithful
  nodup := hnodup
  declared := by
    have hconcat : Fact.declarations cx'.sinkState.log.offered =
        Fact.declarations cx.sinkState.log.offered ++
          Fact.declarations (SinkLog.offered [(c, r)]) := by
      rw [hlog, SinkLog.offered_append]
      exact List.filter_append _ _
    rw [hconcat, h.declared, hdeclared, hkeys, List.map_append]
  anchored := by
    rw [hlog]
    refine h.anchored.concat r fun d m hc => ?_
    obtain ⟨n, hn, hm⟩ := hedge d m hc
    exact ⟨n, hm, (h.mem_offered_iff n).mpr hn⟩
  entities := by
    rw [hentities, h.entities, hlog, SinkLog.taken_append, ← List.length_append]
    exact congrArg List.length List.filterMap_append.symm
  edges := by
    rw [hedges, h.edges, hlog, SinkLog.taken_append, ← List.length_append]
    exact congrArg List.length List.filterMap_append.symm

/-- A new name is registered and its declaration is offered. An accepted declaration is counted. -/
theorem declare (h : Balanced cx) {n : String} (hn : cx.registry.get? n = none) {s : Observed σ}
    {r : Reply} (hlog : s.log = cx.sinkState.log ++ [(.record (.declaring n), r)]) {k : Nat}
    (hk : k = cx.entitiesCreated +
      (Fact.declaredNames (SinkLog.taken [(.record (.declaring n), r)])).length) :
    Balanced { cx with
      registry := cx.registry.register n (.ofName n), sinkState := s, entitiesCreated := k } := by
  have hkeys := cx.registry.keys_register n (.ofName n)
  have hnodup : (cx.registry.register n (.ofName n)).keys.Nodup := by
    rw [hkeys, ← List.concat_eq_append]
    exact List.Nodup.concat ((cx.registry.get?_eq_none_iff n).mp hn) h.nodup
  refine h.grow [n] hlog (h.faithful.register hn) hnodup hkeys rfl ?_ hk ?_
  · exact fun d m hc => nomatch hc
  · cases r <;> rfl

/-- An edge to a registered name is offered. An accepted edge is counted. -/
theorem attach (h : Balanced cx) {n : String} (hn : n ∈ cx.registry.keys) {d : DeclarationId}
    {s : Observed σ} {r : Reply} (hlog : s.log = cx.sinkState.log ++ [(.record (.carrying (d, n)), r)])
    {k : Nat} (hk : k = cx.edgesAttached +
      (Fact.edges (SinkLog.taken [(.record (.carrying (d, n)), r)])).length) :
    Balanced { cx with sinkState := s, edgesAttached := k } := by
  refine h.grow [] hlog h.faithful h.nodup (List.append_nil _).symm rfl ?_ ?_ hk
  · intro d' m hc
    exact ⟨n, hn, (Fact.hasModifiers.inj (SinkCall.record.inj hc)).2.symm⟩
  · cases r <;> rfl

theorem flush (h : Balanced cx) {s : Observed σ} {r : Reply}
    (hlog : s.log = cx.sinkState.log ++ [(.flush, r)]) : Balanced { cx with sinkState := s } := by
  refine h.grow [] hlog h.faithful h.nodup (List.append_nil _).symm rfl ?_ rfl rfl
  exact fun d m hc => nomatch hc

end Balanced

/-! ## 3. What requests by name keep -/

variable (sink)

/-- The entity of a name is its own, and registered once it is handed out. -/
theorem modifier_balanced (n : String) {cx : Context (Observed σ)} (h : Balanced cx) :
    match modifier sink.observed n cx with
    | (.ok e, cx') => Balanced cx' ∧ e = .ofName n ∧ n ∈ cx'.registry.keys
    | (.error _, cx') => Balanced cx' := by
  cases hn : cx.registry.get? n with
  | some e =>
    rw [modifier_of_some _ hn]
    exact ⟨h, h.faithful n e hn, Registry.mem_keys_of_get? hn⟩
  | none =>
    have hlog := sink.log_observed_reply cx.sinkState
      (.record (.modifiers (ModifierEntity.ofName n).id n))
    rw [modifier_of_none _ hn, bind_apply, call_apply]
    dsimp only
    cases hreply : (sink.observed.reply cx.sinkState
        (.record (.modifiers (ModifierEntity.ofName n).id n))).1 with
    | accepted =>
      rw [hreply] at hlog
      have hkey : n ∈ (cx.registry.register n (.ofName n)).keys := by
        rw [Registry.keys_register]
        exact List.mem_append_right _ (List.mem_singleton_self n)
      exact ⟨h.declare hn hlog rfl, rfl, hkey⟩
    | refused e =>
      rw [hreply] at hlog
      exact h.declare hn hlog rfl
    | crashed =>
      rw [hreply] at hlog
      exact h.declare hn hlog rfl

theorem attach_balanced {n : String} {cx : Context (Observed σ)} (h : Balanced cx)
    (hn : n ∈ cx.registry.keys) (d : DeclarationId) :
    Balanced (Context.attach sink.observed d (ModifierEntity.ofName n).id cx).2 := by
  have hlog := sink.log_observed_reply cx.sinkState
    (.record (.hasModifiers d (ModifierEntity.ofName n).id))
  unfold Context.attach
  rw [bind_apply, call_apply]
  cases hreply : (sink.observed.reply cx.sinkState
      (.record (.hasModifiers d (ModifierEntity.ofName n).id))).1 with
  | accepted =>
    rw [hreply] at hlog
    exact h.attach hn hlog rfl
  | refused e =>
    rw [hreply] at hlog
    exact h.attach hn hlog rfl
  | crashed =>
    rw [hreply] at hlog
    exact h.attach hn hlog rfl

theorem hasModifier_balanced (d : DeclarationId) (n : String) {cx : Context (Observed σ)}
    (h : Balanced cx) : Balanced (hasModifier sink.observed d n cx).2 := by
  have hmodifier := modifier_balanced sink n h
  unfold hasModifier
  rw [bind_apply]
  rcases hm : modifier sink.observed n cx with ⟨stop | e, cx'⟩
  · rw [hm] at hmodifier
    exact hmodifier
  · rw [hm] at hmodifier
    obtain ⟨hbalanced, rfl, hkey⟩ := hmodifier
    exact attach_balanced sink hbalanced hkey d

/-- **Balanced books are kept from name to name.** -/
theorem kept_balanced : KeptByName sink.observed Balanced fun _ => Balanced where
  modifier n cx h := by
    have hmodifier := modifier_balanced sink n h
    rcases hm : modifier sink.observed n cx with ⟨stop | e, cx'⟩
    · rw [hm] at hmodifier
      exact hmodifier
    · rw [hm] at hmodifier
      exact hmodifier.1
  hasModifier d n := .of_state fun _ h => hasModifier_balanced sink d n h
  countClassified := .of_state fun _ h => { h with }
  flush := .of_state fun cx h => by
    rw [call_apply]
    exact h.flush (sink.log_observed_reply cx.sinkState .flush)
  rejected _ _ h := h

theorem balanced_performAll (s : σ) (ops : List Operation) (hops : ∀ op ∈ ops, op.ByName) :
    Balanced (performAll sink.observed (start s).watched ops) :=
  (kept_balanced sink).performAll ops hops (.start s)

/-- **What the books of a context count.** After every sequence of requests by name, whatever was
accepted, every declaration that was offered gave a name its own identifier, and no name was offered
twice, not even after a refusal. The registry counts the declarations that were offered, the counters
those that were accepted and the edges that were accepted, and every edge was offered after the
declaration of its entity. -/
theorem performAll_balances (s : σ) (ops : List Operation) (hops : ∀ op ∈ ops, op.ByName) :
    let cx := performAll sink (start s) ops
    let log := (performAll sink.observed (start s).watched ops).sinkState.log
    (∀ id n, .modifiers id n ∈ log.offered → id = .ofTrapKey (n ++ ";modifier")) ∧
    (Fact.declaredNames log.offered).Nodup ∧
    cx.modifierCount = (Fact.declaredNames log.offered).length ∧
    cx.stats.entitiesCreated = (Fact.declaredNames log.taken).length ∧
    cx.stats.edgesAttached = (Fact.edges log.taken).length ∧
    log.Anchored := by
  intro cx log
  have h := balanced_performAll sink s ops hops
  have hcx : cx = (performAll sink.observed (start s).watched ops).unwatched :=
    performAll_watched sink ops (start s)
  have hnames := h.names
  refine ⟨?_, ?_, ?_, ?_, ?_, h.anchored⟩
  · intro id n hmem
    exact (Fact.modifiers.inj (h.eq_declaring hmem)).1
  · rw [hnames]
    exact h.nodup
  · rw [hcx, hnames]
    exact (List.length_map _).symm
  · rw [hcx]
    exact h.entities
  · rw [hcx]
    exact h.edges

/-- A sink that refuses the declaration of one name and takes everything else. -/
def refusing (name : String) : FactSink (List Fact) :=
  .guarded (fun
    | .record (.modifiers _ n) => if n = name then some (.io "rejected") else none
    | _ => none) .memory

/-- The declaration of `public` is refused. The name stays registered, and its next edge is taken. -/
theorem performAll_balances_refusing :
    let ops := [.hasModifier ⟨1⟩ "public", .attachAll ⟨2⟩ (.ofList ["public", "static"])]
    let cx := performAll (refusing "public") (start []) ops
    let log := (performAll (refusing "public").observed (start []).watched ops).sinkState.log
    log = [(.record (.declaring "public"), .refused (.io "rejected")),
      (.record (.carrying (⟨2⟩, "public")), .accepted),
      (.record (.declaring "static"), .accepted),
      (.record (.carrying (⟨2⟩, "static")), .accepted)] ∧
    cx.modifierCount = 2 ∧ cx.stats.entitiesCreated = 1 ∧ cx.stats.edgesAttached = 2 ∧
    log.Anchored := by
  intro ops cx log
  have hops : ∀ op ∈ ops, op.ByName := by simp [ops, Operation.ByName]
  obtain ⟨-, -, hcount, hentities, hedges, hanchored⟩ :=
    performAll_balances (refusing "public") [] ops hops
  exact ⟨rfl, hcount, hentities, hedges, hanchored⟩

end Context

end ModifierFacts
