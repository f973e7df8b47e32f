import ModifierFacts.Proofs.Extraction.Account

/-!
# Classifying first and classifying on the way

A unit is classified as a whole and written afterwards. Its declarations can also be taken one by
one, each classified, counted and attached before the next one is looked at. If no declaration is
rejected there is no way to tell the two apart, wherever the sink refuses a call.

* `Context.extractEach`: the declarations one by one, up to the first failure;
* `Context.extractEach_eq`: this writes what is written once all are classified;
* **`Context.extractUnit_agrees`**: both ways end alike and leave the same context.
-/

namespace ModifierFacts.Context

variable {σ : Type} (sink : FactSink σ)

/-- Classifies and attaches declarations one by one, up to the first failure. -/
def extractEach (ds : List DeclarationRecord) : Extraction σ (List ModifierSet) :=
  ds.mapM fun d => extractModifiers sink d.id d.symbol

/-- A declaration that is classified is counted and attached, as it is in a unit. -/
theorem extractModifiers_of_classifies {d : DeclarationRecord} (h : d.symbol.Classifies) :
    extractModifiers sink d.id d.symbol = (do
      writeDeclaration sink ⟨d.id, d.symbol.modifierSet⟩
      return d.symbol.modifierSet) := by
  have hclassify : (classify d.symbol : Extraction σ ModifierSet) = pure d.symbol.modifierSet := by
    unfold classify
    rw [Symbol.classify_of_classifies h]
  unfold extractModifiers writeDeclaration
  rw [hclassify, pure_bind, bind_assoc]

/-- What is classified on the way can be classified first. -/
theorem extractEach_eq {ds : List DeclarationRecord} (h : ∀ d ∈ ds, d.symbol.Classifies) :
    extractEach sink ds = (do
      (ds.map fun d => ⟨d.id, d.symbol.modifierSet⟩).forM (writeDeclaration sink)
      return ds.map (·.symbol.modifierSet)) := by
  unfold extractEach
  induction ds with
  | nil => rfl
  | cons d ds ih =>
    rw [List.forall_mem_cons] at h
    rw [List.mapM_cons, extractModifiers_of_classifies sink h.1, ih h.2, List.map_cons,
      List.map_cons]
    show _ = (writeDeclaration _ _ >>= fun _ => List.forM _ _) >>= _
    simp only [bind_assoc, pure_bind]

/-- The report on a unit counts the sets that its declarations give one by one. -/
theorem extractUnit_eq_extractEach {u : CompilationUnit} (h : u.Classifies) :
    extractUnit sink u = (do
      let sets ← extractEach sink u.declarations
      return ⟨u.name, sets.length, (sets.map (·.size)).sum⟩) := by
  have hreport : u.fullReport =
      ⟨u.name, (u.declarations.map (·.symbol.modifierSet)).length,
        ((u.declarations.map (·.symbol.modifierSet)).map (·.size)).sum⟩ := by
    rw [List.length_map, List.map_map]
    rfl
  rw [extractUnit_of_ok sink (CompilationUnit.classify_of_classifies h), u.report_classified,
    extractEach_eq sink h, bind_assoc, hreport]
  simp only [pure_bind]
  rfl

/-- **Extracting a unit and extracting its declarations one by one agree**, if none is rejected.
Both succeed, or both fail with the same error; the registry and the counters are the same, and the
sink has got the same calls. The report then counts the sets and their names. -/
theorem extractUnit_agrees {u : CompilationUnit} (hu : u.Classifies) (cx : Context (Observed σ)) :
    let buffered := extractUnit sink.observed u cx
    let direct := extractEach sink.observed u.declarations cx
    buffered.2 = direct.2 ∧
      buffered.1 = direct.1.map fun sets => ⟨u.name, sets.length, (sets.map (·.size)).sum⟩ := by
  intro buffered direct
  have hbuffered : buffered = (do
      let sets ← extractEach sink.observed u.declarations
      return ⟨u.name, sets.length, (sets.map (·.size)).sum⟩ :
        Extraction (Observed σ) UnitReport) cx := by
    rw [← extractUnit_eq_extractEach sink.observed hu]
  rw [hbuffered, bind_apply]
  show _ = (extractEach _ _ cx).2 ∧ _ = (extractEach _ _ cx).1.map _
  rcases extractEach sink.observed u.declarations cx with ⟨_ | _, _⟩ <;> exact ⟨rfl, rfl⟩

/-- The second declaration is attached to `protected` and then refused `internal`, on both ways. -/
theorem extractUnit_agrees_refusing :
    let sink := refusing "internal"
    let u : CompilationUnit := ⟨"a.cs", [⟨⟨1⟩, .plain "A" .event .publicAccess⟩,
      ⟨⟨2⟩, .plain "B" .event .protectedOrInternal⟩, ⟨⟨3⟩, .plain "C" .event .privateAccess⟩]⟩
    let buffered := extractUnit sink.observed u (start []).watched
    let direct := extractEach sink.observed u.declarations (start []).watched
    u.Classifies ∧ direct.1 = .error (.failed (.fact (.io "rejected"))) ∧
      direct.2.sinkState.log.length = 5 ∧ buffered.2 = direct.2 ∧
      buffered.1 = .error (.failed (.fact (.io "rejected"))) := by
  intro sink u buffered direct
  have hu : u.Classifies := by decide +kernel
  obtain ⟨hstate, hresult⟩ := extractUnit_agrees sink hu (start []).watched
  exact ⟨hu, rfl, rfl, hstate, hresult⟩

end ModifierFacts.Context
