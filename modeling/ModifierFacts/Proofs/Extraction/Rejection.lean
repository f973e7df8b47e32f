import ModifierFacts.Proofs.Extraction.Walk

/-!
# A rejected unit leaves no trace

A unit is classified as a whole before anything of it is counted or written. What is written after
that can be ended by the sink, but not by a rejection, so a rejection is always one of the first
part and finds the context as it was.

* `Stop.BySink`: an operation was ended by its sink; `Context.writeDeclaration_endsBySink`: writing
  is ended in no other way;
* `Context.extractUnit_rejected_iff`: a unit ends in a rejection if it has one, and in its first;
* **`Context.extractUnit_rejects`**: which units are rejected, for what, and what that changes.
-/

namespace ModifierFacts

/-- The operation was ended by its sink, not by a rejection. -/
def Stop.BySink : Stop → Prop
  | failed (.modifier _) => False
  | failed (.fact _) | crashed => True

namespace Context

variable {σ : Type} (sink : FactSink σ)

/-- Where the operation fails, it is by the sink. -/
def EndsBySink {α : Type} (p : Extraction σ α) : Prop :=
  Keeps (fun _ => True) (fun stop _ => stop.BySink) p

theorem call_endsBySink (c : SinkCall) : EndsBySink (call sink c) := by
  intro cx _
  rw [call_apply]
  cases (sink.reply cx.sinkState c).1 <;> trivial

theorem modifier_endsBySink (n : String) : EndsBySink (modifier sink n) := by
  refine .bind (fun cx _ => ?_) fun obtained => ?_
  · rw [register_apply]
    cases cx.registry.get? n <;> trivial
  · cases obtained.created
    · exact .pure _
    · exact .bind (call_endsBySink sink _) fun _ => .bind (fun _ _ => trivial) fun _ => .pure _

theorem writeDeclaration_endsBySink (d : ClassifiedDeclaration) :
    EndsBySink (writeDeclaration sink d) := by
  refine .bind (fun _ _ => trivial) fun _ => .forM (fun n => ?_) d.modifiers.names
  refine .bind (modifier_endsBySink sink n) fun e => ?_
  exact .bind (call_endsBySink sink _) fun _ _ _ => trivial

/-- **A unit ends in a rejection if it has one, and in its first.** -/
theorem extractUnit_rejected_iff (u : CompilationUnit) (cx : Context σ) (e : Unsupported) :
    (extractUnit sink u cx).1 = .error (.failed (.modifier e)) ↔ u.firstRejection? = some e := by
  constructor
  · intro hending
    cases hfirst : u.firstRejection? with
    | some e' =>
      rw [extractUnit_of_rejection hfirst] at hending
      cases hending
      rfl
    | none =>
      have hu : u.Classifies := u.firstRejection?_eq_none_iff.mp hfirst
      have hkeeps : EndsBySink (extractUnit sink u) := by
        rw [extractUnit_of_ok sink (CompilationUnit.classify_of_classifies hu)]
        exact .bind (.forM (writeDeclaration_endsBySink sink) _) fun _ => .pure _
      have hstop := hkeeps cx trivial
      rcases hresult : extractUnit sink u cx with ⟨stop | report, cx'⟩
      · rw [hresult] at hstop hending
        cases hending
        exact hstop.elim
      · rw [hresult] at hending
        cases hending
  · intro hfirst
    rw [extractUnit_of_rejection hfirst]

/-- **A unit is rejected exactly if one of its declarations is, for the first of them, and leaves
the context as it was**: the registry, the counters, and the sink with all calls that ever reached
it. -/
theorem extractUnit_rejects (u : CompilationUnit) (cx : Context (Observed σ)) :
    let ending := extractUnit sink.observed u cx
    ((∃ e, ending.1 = .error (.failed (.modifier e))) ↔
      ∃ d ∈ u.declarations, ¬ d.symbol.Classifies) ∧
    ∀ e, (ending.1 = .error (.failed (.modifier e)) ↔
        ∃ before d after, u.declarations = before ++ d :: after ∧
          (∀ c ∈ before, c.symbol.Classifies) ∧ d.symbol.classify = .error e) ∧
      (ending.1 = .error (.failed (.modifier e)) → ending.2 = cx) := by
  intro ending
  refine ⟨?_, fun e => ⟨?_, fun hending => ?_⟩⟩
  · have hexists : (∃ e, ending.1 = .error (.failed (.modifier e))) ↔ ¬ u.Classifies := by
      rw [← u.firstRejection?_eq_none_iff, ← ne_eq, Option.ne_none_iff_exists']
      exact exists_congr fun e => extractUnit_rejected_iff sink.observed u cx e
    rw [hexists]
    unfold CompilationUnit.Classifies
    simp
  · rw [← u.firstRejection?_eq_some_iff]
    exact extractUnit_rejected_iff sink.observed u cx e
  · have hfirst := (extractUnit_rejected_iff sink.observed u cx e).mp hending
    show (extractUnit sink.observed u cx).2 = cx
    rw [extractUnit_of_rejection hfirst]

/-- Two declarations are classified, two are rejected behind them, and the context is not empty. -/
theorem extractUnit_rejects_third :
    let cx := performAll FactSink.memory.observed (start []).watched [.hasModifier ⟨7⟩ "public"]
    let u : CompilationUnit := ⟨"a.cs", [⟨⟨1⟩, .plain "A" .event .publicAccess⟩,
      ⟨⟨2⟩, .plain "B" .event .internalAccess⟩, ⟨⟨3⟩, .plain "C" .method .publicAccess⟩,
      ⟨⟨4⟩, .plain "D" .field .publicAccess⟩]⟩
    let ending := extractUnit FactSink.memory.observed u cx
    ending.1 = .error (.failed (.modifier ⟨"C", .shapeMismatch .method .bare .method⟩)) ∧
      ending.2 = cx := by
  intro cx u ending
  have hending : ending.1 =
      .error (.failed (.modifier ⟨"C", .shapeMismatch .method .bare .method⟩)) := by
    decide +kernel
  exact ⟨hending, ((extractUnit_rejects FactSink.memory u cx).2 _).2 hending⟩

end Context

end ModifierFacts
