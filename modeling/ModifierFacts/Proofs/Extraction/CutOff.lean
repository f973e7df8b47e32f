import ModifierFacts.Proofs.Extraction.Account

/-!
# A unit that its sink cuts off

A sink may refuse any call, and the unit that makes the call ends with it. What is left is known all
the same: the calls of the unit up to the refused one, and books that went with these calls.

* `SinkLog.CutOff`: calls that offer a list of facts up to the first refusal;
* `Context.Follows`: from one context to another these calls were made, and the books follow them;
* `Context.Offers`: an operation offers these facts, up to the first refusal;
* `SinkLog.Reaches`: the number of declarations that were reached;
* **`Context.extractUnit_cutsOff`**: calls, result, registry and counters of a unit over any sink.
-/

namespace ModifierFacts

/-! ## 1. Calls up to the first refusal -/

namespace SinkLog

/-- **These calls offer the facts in order, up to the first that is not accepted.** The reply is the
last one, or acceptance if there was no call. -/
inductive CutOff : List Fact → SinkLog → Reply → Prop where
  | whole (facts : List Fact) : CutOff facts (ofFacts facts) .accepted
  | cut (taken : List Fact) (f : Fact) (rest : List Fact) {r : Reply} (refused : r ≠ .accepted) :
    CutOff (taken ++ f :: rest) (ofFacts taken ++ [(.record f, r)]) r

namespace CutOff

variable {fs gs : List Fact} {made made' : SinkLog} {r : Reply}

/-- One fact is offered, whatever comes of it. -/
theorem single (f : Fact) (r : Reply) : CutOff [f] [(.record f, r)] r := by
  by_cases hr : r = .accepted
  · rw [hr]
    exact .whole [f]
  · exact .cut [] f [] hr

/-- If the last call was accepted, all were. -/
theorem eq_ofFacts (h : CutOff fs made .accepted) : made = ofFacts fs := by
  cases h with
  | whole => rfl
  | cut _ _ _ refused => exact absurd rfl refused

/-- Facts that were all taken can be followed by others. -/
theorem append (h : CutOff fs made .accepted) (h' : CutOff gs made' r) :
    CutOff (fs ++ gs) (made ++ made') r := by
  rw [h.eq_ofFacts]
  cases h' with
  | whole =>
    rw [← ofFacts_append]
    exact .whole _
  | cut taken f rest refused =>
    rw [← List.append_assoc, ← List.append_assoc, ← ofFacts_append]
    exact .cut _ f rest refused

/-- Behind a refusal, further facts make no difference. -/
theorem before (h : CutOff fs made r) (hr : r ≠ .accepted) (gs : List Fact) :
    CutOff (fs ++ gs) made r := by
  cases h with
  | whole => exact absurd rfl hr
  | cut taken f rest refused =>
    rw [List.append_assoc, List.cons_append]
    exact .cut taken f (rest ++ gs) refused

theorem allAccepted_iff (h : CutOff fs made r) : made.AllAccepted ↔ r = .accepted := by
  cases h with
  | whole =>
    have hall : AllAccepted (ofFacts fs) := by
      unfold AllAccepted ofFacts
      rw [List.forall_mem_map]
      exact fun _ _ => rfl
    exact iff_of_true hall rfl
  | cut taken f rest refused =>
    rw [allAccepted_concat]
    exact and_iff_right_of_imp fun hr => absurd hr refused

/-- After a refusal not all of the facts were taken. -/
theorem not_prefix (h : CutOff fs made r) (hr : r ≠ .accepted) (gs : List Fact) :
    ¬ ofFacts (fs ++ gs) <+: made := by
  cases h with
  | whole => exact absurd rfl hr
  | cut taken f rest refused =>
    intro hprefix
    have hlog : ofFacts (taken ++ f :: rest ++ gs) =
        ofFacts taken ++ (.record f, .accepted) :: ofFacts (rest ++ gs) := by
      rw [List.append_assoc, ofFacts_append]
      rfl
    rw [hlog, List.prefix_append_right_inj, List.cons_prefix_cons] at hprefix
    exact refused (Prod.mk.inj hprefix.1).2.symm

end CutOff

theorem taken_of_refused {f : Fact} {r : Reply} (hr : r ≠ .accepted) :
    taken [(.record f, r)] = [] := by
  cases r with
  | accepted => exact absurd rfl hr
  | refused e => rfl
  | crashed => rfl

end SinkLog

/-! ## 2. Books that follow the calls -/

namespace Context

variable {σ : Type}

/-- **From one context to the other these calls were made**, and the books went with them. -/
structure Follows (cx cx' : Context (Observed σ)) (made : SinkLog) : Prop where
  log : cx'.sinkState.log = cx.sinkState.log ++ made
  /-- A name is registered when its declaration is offered. -/
  keys : cx'.registry.keys = cx.registry.keys ++ Fact.declaredNames made.offered
  faithful : cx'.registry.Faithful
  entities : cx'.entitiesCreated = cx.entitiesCreated + (Fact.declaredNames made.taken).length
  edges : cx'.edgesAttached = cx.edgesAttached + (Fact.edges made.taken).length
  classified : cx'.declarationsClassified = cx.declarationsClassified

namespace Follows

variable {cx cx' cx'' : Context (Observed σ)} {made made' : SinkLog}

theorem refl (h : cx.registry.Faithful) : Follows cx cx [] where
  log := (List.append_nil _).symm
  keys := (List.append_nil _).symm
  faithful := h
  entities := rfl
  edges := rfl
  classified := rfl

theorem trans (h : Follows cx cx' made) (h' : Follows cx' cx'' made') :
    Follows cx cx'' (made ++ made') where
  log := by rw [h'.log, h.log, List.append_assoc]
  keys := by
    unfold Fact.declaredNames
    rw [h'.keys, h.keys, SinkLog.offered_append, List.filterMap_append, List.append_assoc]
    rfl
  faithful := h'.faithful
  entities := by
    unfold Fact.declaredNames
    rw [h'.entities, h.entities, SinkLog.taken_append, List.filterMap_append, List.length_append,
      Nat.add_assoc]
    rfl
  edges := by
    unfold Fact.edges
    rw [h'.edges, h.edges, SinkLog.taken_append, List.filterMap_append, List.length_append,
      Nat.add_assoc]
    rfl
  classified := h'.classified.trans h.classified

/-- Declarations that are counted in both contexts make no difference. -/
theorem count (h : Follows cx cx' made) (k : Nat) :
    Follows { cx with declarationsClassified := cx.declarationsClassified + k }
      { cx' with declarationsClassified := cx'.declarationsClassified + k } made :=
  { h with classified := congrArg (· + k) h.classified }

/-- What is known after a walk are the names known before and those of the walk. -/
theorem walk_eq {ps : List (DeclarationId × String)}
    (h : Follows cx cx' (.ofFacts (walk cx.registry.contains [] ps)))
    (qs : List (DeclarationId × String)) :
    walk cx'.registry.contains [] qs = walk cx.registry.contains (ps.map (·.2)) qs := by
  refine walk_congr (fun n => ?_) qs
  have hkeys : n ∈ cx'.registry.keys ↔ n ∈ cx.registry.keys ∨
      n ∈ ps.map (·.2) ∧ cx.registry.contains n = false := by
    rw [h.keys, SinkLog.offered_ofFacts, List.mem_append, mem_declaredNames_walk]
    simp
  rw [List.contains_nil, Bool.or_false, Bool.eq_iff_iff, Bool.or_eq_true, List.contains_iff_mem,
    Registry.contains_iff_mem_keys, Registry.contains_iff_mem_keys, hkeys]
  by_cases hn : n ∈ cx.registry.keys
  · simp [hn]
  · have hc : cx.registry.contains n = false := by
      rw [← Bool.not_eq_true, Registry.contains_iff_mem_keys]
      exact hn
    simp [hn, hc]

/-- A walk in two parts, the second one seen from where the first one ends. -/
theorem walk_append {ps : List (DeclarationId × String)}
    (h : Follows cx cx' (.ofFacts (walk cx.registry.contains [] ps)))
    (qs : List (DeclarationId × String)) :
    walk cx.registry.contains [] (ps ++ qs) =
      walk cx.registry.contains [] ps ++ walk cx'.registry.contains [] qs := by
  rw [ModifierFacts.walk_append, List.nil_append, h.walk_eq]

end Follows

/-! ## 3. Operations that offer facts -/

/-- **The facts were offered from this context on**, up to the first that was not accepted, and the
operation ended as the last reply says. -/
def Offers (cx : Context (Observed σ)) (fs : List Fact)
    (ending : Except Stop Unit × Context (Observed σ)) : Prop :=
  ∃ made reply, SinkLog.CutOff fs made reply ∧ Follows cx ending.2 made ∧ ending.1 = reply.outcome

namespace Offers

variable {cx cx₀ : Context (Observed σ)} {fs gs : List Fact}

theorem nil (h : cx.registry.Faithful) :
    Offers cx [] ((pure () : Extraction (Observed σ) Unit) cx) :=
  ⟨[], .accepted, .whole [], .refl h, rfl⟩

/-- One operation after the other offers one list after the other. -/
theorem bind {p q : Extraction (Observed σ) Unit} (hp : Offers cx fs (p cx₀))
    (hq : ∀ cx', Follows cx cx' (.ofFacts fs) → Offers cx' gs (q cx')) :
    Offers cx (fs ++ gs) ((p >>= fun _ => q) cx₀) := by
  obtain ⟨made, r, hcut, hfollows, houtcome⟩ := hp
  by_cases hr : r = .accepted
  · subst hr
    have hok : p cx₀ = (.ok (), (p cx₀).2) := Prod.ext houtcome rfl
    rw [hcut.eq_ofFacts] at hfollows
    obtain ⟨made', r', hcut', hfollows', houtcome'⟩ := hq _ hfollows
    rw [bind_ok hok]
    rw [← hcut.eq_ofFacts] at hfollows
    exact ⟨made ++ made', r', hcut.append hcut', hfollows.trans hfollows', houtcome'⟩
  · obtain ⟨stop, hstop⟩ := Reply.exists_outcome_eq_error hr
    have herror : p cx₀ = (.error stop, (p cx₀).2) := Prod.ext (houtcome.trans hstop) rfl
    rw [bind_error herror]
    exact ⟨made, r, hcut.before hr gs, hfollows, hstop.symm⟩

/-- Two walks, one after the other: the second starts from the names that the first leaves. -/
theorem bind_walk {ps qs : List (DeclarationId × String)} {p q : Extraction (Observed σ) Unit}
    (hp : Offers cx (walk cx.registry.contains [] ps) (p cx₀))
    (hq : ∀ cx' : Context (Observed σ), cx'.registry.Faithful →
      Offers cx' (walk cx'.registry.contains [] qs) (q cx')) :
    Offers cx (walk cx.registry.contains [] (ps ++ qs)) ((p >>= fun _ => q) cx₀) := by
  rw [walk_append, List.nil_append]
  refine hp.bind fun cx' hfollows => ?_
  rw [← hfollows.walk_eq]
  exact hq cx' hfollows.faithful

end Offers

variable (sink : FactSink σ)

/-- A fact is offered, and counted if it was accepted. `cx₀` is where the call is made, `cx` where
the books are compared from. -/
theorem record_offers (f : Fact) {count : Extraction (Observed σ) Unit}
    {cx cx₀ : Context (Observed σ)}
    (hstate : cx₀.sinkState = cx.sinkState)
    (hrefused : ∀ s r, r ≠ .accepted → s.log = cx.sinkState.log ++ [(.record f, r)] →
      Follows cx { cx₀ with sinkState := s } [(.record f, r)])
    (haccepted : ∀ s, s.log = cx.sinkState.log ++ [(.record f, .accepted)] →
      ∃ cx', count { cx₀ with sinkState := s } = (.ok (), cx') ∧
        Follows cx cx' [(.record f, .accepted)]) :
    Offers cx [f] ((call sink.observed (.record f) >>= fun _ => count) cx₀) := by
  have hlog := sink.log_observed_reply cx₀.sinkState (.record f)
  have hcall := call_apply sink.observed (.record f) cx₀
  rw [hstate] at hlog hcall
  by_cases hr : (sink.observed.reply cx.sinkState (.record f)).1 = .accepted
  · rw [hr] at hlog hcall
    obtain ⟨cx', hcount, hfollows⟩ := haccepted _ hlog
    rw [bind_ok hcall, hcount]
    exact ⟨_, .accepted, .single f .accepted, hfollows, rfl⟩
  · obtain ⟨stop, hstop⟩ := Reply.exists_outcome_eq_error hr
    rw [hstop] at hcall
    rw [bind_error hcall]
    exact ⟨_, _, .single f _, hrefused _ _ hr hlog, hstop.symm⟩

/-- A new name is registered before its declaration is offered. -/
theorem declare_offers {n : String} {cx : Context (Observed σ)} (hf : cx.registry.Faithful)
    (hn : cx.registry.get? n = none) :
    Offers cx [.declaring n]
      ((call sink.observed (.record (.declaring n)) >>= fun _ => countEntity)
        { cx with registry := cx.registry.register n (.ofName n) }) := by
  have hkeys := cx.registry.keys_register n (.ofName n)
  refine record_offers sink (.declaring n) rfl (fun s r hr hlog => ?_) fun s hlog => ?_
  · have htaken := SinkLog.taken_of_refused (f := .declaring n) hr
    refine ⟨hlog, hkeys, hf.register hn, ?_, ?_, rfl⟩ <;> rw [htaken] <;> rfl
  · exact ⟨_, rfl, hlog, hkeys, hf.register hn, rfl, rfl, rfl⟩

/-- A declaration is attached to the entity of a name. -/
theorem attach_offers (d : DeclarationId) (n : String) {cx : Context (Observed σ)}
    (hf : cx.registry.Faithful) :
    Offers cx [.carrying (d, n)] (attach sink.observed d (ModifierEntity.ofName n).id cx) := by
  refine record_offers sink (.carrying (d, n)) rfl (fun s r hr hlog => ?_) fun s hlog => ?_
  · have htaken := SinkLog.taken_of_refused (f := .carrying (d, n)) hr
    refine ⟨hlog, (List.append_nil _).symm, hf, ?_, ?_, rfl⟩ <;> rw [htaken] <;> rfl
  · exact ⟨_, rfl, hlog, (List.append_nil _).symm, hf, rfl, rfl, rfl⟩

/-- A name is declared if it is new, and then attached. -/
theorem hasModifier_offers (d : DeclarationId) (n : String) {cx : Context (Observed σ)}
    (hf : cx.registry.Faithful) :
    Offers cx (walk cx.registry.contains [] [(d, n)]) (hasModifier sink.observed d n cx) := by
  cases hn : cx.registry.get? n with
  | some e =>
    have hc : cx.registry.contains n = true := by rw [Registry.contains, hn]; rfl
    have hwalk : walk cx.registry.contains [] [(d, n)] = [.carrying (d, n)] := by simp [walk, hc]
    rw [hwalk, hasModifier_of_some _ hn, hf n e hn]
    exact attach_offers sink d n hf
  | none =>
    have hc : cx.registry.contains n = false := by rw [Registry.contains, hn]; rfl
    have hwalk : walk cx.registry.contains [] [(d, n)] =
        [.declaring n] ++ [.carrying (d, n)] := by simp [walk, hc]
    rw [hwalk, hasModifier_of_none _ hn]
    have hattach : ∀ cx' : Context (Observed σ), Follows cx cx' (.ofFacts [.declaring n]) →
        Offers cx' [.carrying (d, n)] (attach sink.observed d (ModifierEntity.ofName n).id cx') :=
      fun _ hfollows => attach_offers sink d n hfollows.faithful
    have hboth := (declare_offers sink hf hn).bind hattach
    rw [bind_assoc] at hboth
    exact hboth

/-- The names of a declaration are requested one by one, up to the first refusal. -/
theorem attachAll_offers (d : DeclarationId) (names : List String) {cx : Context (Observed σ)}
    (hf : cx.registry.Faithful) :
    Offers cx (walk cx.registry.contains [] (names.map fun n => (d, n)))
      (attachAll sink.observed d names cx) := by
  induction names generalizing cx with
  | nil => exact .nil hf
  | cons n names ih =>
    have hfirst := hasModifier_offers sink d n hf
    exact hfirst.bind_walk fun cx' hf' => ih hf'

end Context

/-! ## 4. The declarations that were reached -/

/-- A declaration with each of its modifier names, in order. -/
def DeclarationRecord.pairs (d : DeclarationRecord) : List (DeclarationId × String) :=
  d.symbol.modifierSet.names.map fun n => (d.id, n)

/-- How many of these declarations were reached: each of them once all calls of those in front of it
were accepted. -/
def SinkLog.Reaches (made : SinkLog) (known : String → Bool) (ds : List DeclarationRecord)
    (count : Nat) : Prop :=
  count ≤ ds.length ∧ ∀ i < ds.length,
    (i < count ↔ ofFacts (walk known [] ((ds.take i).flatMap (·.pairs))) <+: made)

namespace SinkLog.Reaches

variable {known known' : String → Bool} {made : SinkLog} {d : DeclarationRecord}
  {ds : List DeclarationRecord} {count : Nat}

/-- The first declaration is reached without any call. -/
theorem first (made : SinkLog) (known : String → Bool) (ds : List DeclarationRecord) :
    ofFacts (walk known [] ((ds.take 0).flatMap (·.pairs))) <+: made :=
  List.nil_prefix

/-- Past a declaration whose calls were all accepted, the count goes on. -/
theorem cons (h : made.Reaches known' ds count)
    (hwalk : ∀ qs, walk known [] (d.pairs ++ qs) = walk known [] d.pairs ++ walk known' [] qs) :
    Reaches (ofFacts (walk known [] d.pairs) ++ made) known (d :: ds) (1 + count) := by
  obtain ⟨hle, hreach⟩ := h
  refine ⟨by rw [List.length_cons]; omega, fun i hi => ?_⟩
  cases i with
  | zero => exact iff_of_true (by omega) (first _ known (d :: ds))
  | succ i =>
    have hi : i < ds.length := Nat.lt_of_succ_lt_succ hi
    rw [List.take_succ_cons, List.flatMap_cons, hwalk, ofFacts_append,
      List.prefix_append_right_inj, ← hreach i hi]
    omega

/-- No declaration is reached behind one that was cut off. -/
theorem of_refused {r : Reply} (hcut : CutOff (walk known [] d.pairs) made r) (hr : r ≠ .accepted)
    (ds : List DeclarationRecord) : made.Reaches known (d :: ds) 1 := by
  refine ⟨by rw [List.length_cons]; omega, fun i hi => ?_⟩
  cases i with
  | zero => exact iff_of_true Nat.one_pos (first made known (d :: ds))
  | succ i =>
    rw [List.take_succ_cons, List.flatMap_cons, walk_append]
    exact iff_of_false (by omega) (hcut.not_prefix hr _)

end SinkLog.Reaches

/-! ## 5. A unit -/

namespace Context

variable {σ : Type} (sink : FactSink σ)

/-- A declaration is counted first, and its names are attached up to the first refusal. -/
theorem writeDeclaration_offers (d : DeclarationRecord) {cx : Context (Observed σ)}
    (hf : cx.registry.Faithful) :
    Offers { cx with declarationsClassified := cx.declarationsClassified + 1 }
      (walk cx.registry.contains [] d.pairs)
      (writeDeclaration sink.observed ⟨d.id, d.symbol.modifierSet⟩ cx) := by
  unfold writeDeclaration
  rw [bind_ok (countClassified_apply cx)]
  exact attachAll_offers sink d.id d.symbol.modifierSet.names hf

/-- Declarations offer the facts of one walk, and those are counted that the calls reach. -/
theorem forM_writeDeclaration_offers (ds : List DeclarationRecord) {cx : Context (Observed σ)}
    (hf : cx.registry.Faithful) :
    let write :=
      (ds.map fun d => ⟨d.id, d.symbol.modifierSet⟩).forM (writeDeclaration sink.observed)
    ∃ made reply reached,
      SinkLog.CutOff (walk cx.registry.contains [] (ds.flatMap (·.pairs))) made reply ∧
      made.Reaches cx.registry.contains ds reached ∧
      Follows { cx with declarationsClassified := cx.declarationsClassified + reached }
        (write cx).2 made ∧
      (write cx).1 = reply.outcome := by
  induction ds generalizing cx with
  | nil =>
    refine ⟨[], .accepted, 0, .whole [], ⟨Nat.le_refl 0, fun i hi => ?_⟩, .refl hf, rfl⟩
    exact absurd hi (Nat.not_lt_zero i)
  | cons d ds ih =>
    obtain ⟨made, r, hcut, hfollows, houtcome⟩ := writeDeclaration_offers sink d hf
    rw [List.map_cons, List.flatMap_cons]
    show ∃ _ _ _, _ ∧ _ ∧ Follows _ ((writeDeclaration _ _ >>= fun _ => List.forM _ _) cx).2 _ ∧
      ((writeDeclaration _ _ >>= fun _ => List.forM _ _) cx).1 = _
    by_cases hr : r = .accepted
    · subst hr
      have hmade := hcut.eq_ofFacts
      subst hmade
      obtain ⟨made, r, reached, hcut', hreaches, hfollows', houtcome'⟩ := ih hfollows.faithful
      rw [bind_ok (Prod.ext houtcome rfl), hfollows.walk_append]
      refine ⟨_, r, 1 + reached, hcut.append hcut', hreaches.cons hfollows.walk_append, ?_,
        houtcome'⟩
      rw [← Nat.add_assoc]
      exact (hfollows.count reached).trans hfollows'
    · obtain ⟨stop, hstop⟩ := Reply.exists_outcome_eq_error hr
      rw [bind_error (Prod.ext (houtcome.trans hstop) rfl), walk_append]
      exact ⟨made, r, 1, hcut.before hr _, .of_refused hcut hr ds, hfollows, hstop.symm⟩

theorem extractUnit_apply (sink : FactSink σ) {u : CompilationUnit} (hu : u.Classifies)
    (cx : Context σ) :
    extractUnit sink u cx =
      (((u.classified.forM (writeDeclaration sink)) cx).1.map fun _ => u.fullReport,
        ((u.classified.forM (writeDeclaration sink)) cx).2) := by
  rw [extractUnit_of_ok sink (CompilationUnit.classify_of_classifies hu), u.report_classified,
    bind_apply]
  rcases u.classified.forM (writeDeclaration sink) cx with ⟨_ | _, _⟩ <;> rfl

/-- A unit that is classified offers the facts of its walk. -/
theorem extractUnit_offers {u : CompilationUnit} (hu : u.Classifies) {cx : Context (Observed σ)}
    (hf : cx.registry.Faithful) :
    ∃ made reply reached,
      SinkLog.CutOff (walk cx.registry.contains [] u.pairs) made reply ∧
      made.Reaches cx.registry.contains u.declarations reached ∧
      Follows { cx with declarationsClassified := cx.declarationsClassified + reached }
        (extractUnit sink.observed u cx).2 made ∧
      (extractUnit sink.observed u cx).1 = reply.outcome.map fun _ => u.fullReport := by
  obtain ⟨made, r, reached, hcut, hreaches, hfollows, houtcome⟩ :=
    forM_writeDeclaration_offers sink u.declarations hf
  rw [extractUnit_apply sink.observed hu]
  exact ⟨made, r, reached, hcut, hreaches, hfollows, congrArg (Except.map _) houtcome⟩

/-- **What a unit leaves if its sink may refuse any call.** The calls are those of its walk up to
the first that is not accepted, and the last reply decides how the unit ends; the names that were
offered are registered, each declaration is counted that was reached, and the other counters go by
what the sink took. -/
theorem extractUnit_cutsOff (s : σ) (ops : List Operation) {u : CompilationUnit}
    (hu : u.Classifies) :
    let cx := performAll sink.observed (start s).watched ops
    let known := cx.registry.contains
    let ending := extractUnit sink.observed u cx
    ∃ made reply reached,
      SinkLog.CutOff (walk known [] u.pairs) made reply ∧
      ending.2.sinkState.log = cx.sinkState.log ++ made ∧
      ending.1 = reply.outcome.map (fun _ => u.fullReport) ∧
      ((∃ report, ending.1 = .ok report) ↔ made.AllAccepted) ∧
      ending.2.registry.keys = cx.registry.keys ++ Fact.declaredNames made.offered ∧
      made.Reaches known u.declarations reached ∧
      ending.2.stats = { cx.stats with
        entitiesCreated := cx.entitiesCreated + (Fact.declaredNames made.taken).length
        edgesAttached := cx.edgesAttached + (Fact.edges made.taken).length
        declarationsClassified := cx.declarationsClassified + reached } := by
  intro cx known ending
  have hf : cx.registry.Faithful := faithful_performAll sink.observed _ ops
  obtain ⟨made, r, reached, hcut, hreaches, hfollows, hresult⟩ := extractUnit_offers sink hu hf
  refine ⟨made, r, reached, hcut, hfollows.log, hresult, ?_, hfollows.keys, hreaches, ?_⟩
  · rw [hcut.allAccepted_iff]
    show (∃ report, (extractUnit _ _ _).1 = .ok report) ↔ _
    rw [hresult]
    cases r <;> simp [Reply.outcome, Except.map]
  · show stats (extractUnit _ _ _).2 = _
    rw [stats, hfollows.entities, hfollows.edges, hfollows.classified]
    rfl

/-- The second declaration is cut off: `protected` is registered before, `internal` is refused. -/
theorem extractUnit_cutsOff_second :
    let sink := refusing "internal"
    let u : CompilationUnit := ⟨"a.cs", [⟨⟨1⟩, .plain "A" .event .publicAccess⟩,
      ⟨⟨2⟩, .plain "B" .event .protectedOrInternal⟩, ⟨⟨3⟩, .plain "C" .event .privateAccess⟩]⟩
    let cx := performAll sink.observed (start []).watched [.hasModifier ⟨7⟩ "protected"]
    let ending := extractUnit sink.observed u cx
    u.Classifies ∧ ∃ made : SinkLog, ending.1 = .error (.failed (.fact (.io "rejected"))) ∧
      made = [(.record (.declaring "public"), .accepted),
        (.record (.carrying (⟨1⟩, "public")), .accepted),
        (.record (.carrying (⟨2⟩, "protected")), .accepted),
        (.record (.declaring "internal"), .refused (.io "rejected"))] ∧
      SinkLog.CutOff (walk cx.registry.contains [] u.pairs) made (.refused (.io "rejected")) ∧
      ending.2.registry.keys = ["protected", "public", "internal"] ∧
      made.Reaches cx.registry.contains u.declarations 2 := by
  intro sink u cx ending
  have hu : u.Classifies := by decide +kernel
  obtain ⟨made, r, reached, hcut, hlog, hresult, -, hkeys, hreaches, hstats⟩ :=
    extractUnit_cutsOff sink [] [.hasModifier ⟨7⟩ "protected"] hu
  refine ⟨hu, made, rfl, ?_, ?_, rfl, ?_⟩
  · have hmade : cx.sinkState.log ++ made = ending.2.sinkState.log := hlog.symm
    exact List.append_cancel_left hmade
  · cases r with
    | accepted => cases hresult
    | refused e =>
      cases hresult
      exact hcut
    | crashed => cases hresult
  · have hreached : reached = 2 := Nat.add_left_cancel (n := 0) (RunStats.mk.inj hstats).2.2.1.symm
    rw [hreached] at hreaches
    exact hreaches

end Context

end ModifierFacts
