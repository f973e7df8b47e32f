import ModifierFacts.Extraction.Json
import ModifierFacts.Proofs.Fact.Line
import ModifierFacts.Proofs.Symbol.ReadBack

/-!
# Inputs are read back

An input whose accessibilities are canonical is read back from what is written of it. Whatever was
accepted as an input has canonical accessibilities, however it was spelled, so it is unchanged by
writing and reading it once more.

* `ExtractionInput.Canonical`: all accessibilities of an input are canonical;
* `DeclarationRecord.stands`, `CompilationUnit.stands`, `ExtractionInput.stands`: what is written
  stands for the value;
* `DeclarationRecord.yields`, `CompilationUnit.yields`, `ExtractionInput.yields`: what is read is
  canonical;
* **`ExtractionInput.reads_back`**: both together.
-/

namespace ModifierFacts

open Json (Stands Value stands_text stands_list)

/-! ## 1. Canonical input -/

/-- The accessibility of the symbol is canonical. -/
def DeclarationRecord.Canonical (d : DeclarationRecord) : Prop := d.symbol.accessibility.Canonical

/-- All accessibilities of the unit are canonical. -/
def CompilationUnit.Canonical (u : CompilationUnit) : Prop := ∀ d ∈ u.declarations, d.Canonical

/-- All accessibilities of the input are canonical. -/
def ExtractionInput.Canonical (i : ExtractionInput) : Prop := ∀ u ∈ i.units, u.Canonical

/-! ## 2. What is written is read -/

theorem DeclarationRecord.stands {d : DeclarationRecord} (h : d.Canonical) :
    Stands reader 3 d.toJson d :=
  record.stands (by decide) (.field rfl d.id.stands <| .field rfl (Symbol.stands h) <| .nil _) rfl

theorem CompilationUnit.stands {u : CompilationUnit} (h : u.Canonical) :
    Stands reader 5 u.toJson u :=
  record.stands (by decide)
    (.field rfl (stands_text u.name) <|
      .field rfl (stands_list fun d hd => DeclarationRecord.stands (h d hd)) <| .nil _) rfl

theorem ExtractionInput.stands {i : ExtractionInput} (h : i.Canonical) :
    Stands reader 7 i.toJson i :=
  record.stands (by decide)
    (.field rfl (stands_list fun u hu => CompilationUnit.stands (h u hu)) <| .nil _) rfl

/-! ## 3. What is read is canonical -/

theorem DeclarationRecord.yields : reader.Yields Canonical := by
  refine Json.Record.yields (I := fun d => ∀ s ∈ d.symbol, s.accessibility.Canonical) ?_ ?_ ?_
  · simp only [record, List.forall_mem_cons, List.not_mem_nil, false_implies, implies_true,
      and_true]
    refine ⟨.of_put fun _ _ hd => hd, .of_reader Symbol.yields fun s d hs _ t ht => ?_⟩
    cases ht
    exact hs
  · intro s hs
    cases hs
  · intro draft d hdraft hd
    obtain ⟨id, -, hd⟩ := Json.except_bind_eq_ok hd
    obtain ⟨symbol, hsymbol, hd⟩ := Json.except_bind_eq_ok hd
    cases hd
    exact hdraft symbol (Json.eq_some_of_required hsymbol)

theorem CompilationUnit.yields : reader.Yields Canonical := by
  refine Json.Record.yields (I := fun d => ∀ ds ∈ d.declarations, ∀ d ∈ ds, d.Canonical) ?_ ?_ ?_
  · simp only [record, List.forall_mem_cons, List.not_mem_nil, false_implies, implies_true,
      and_true]
    refine ⟨.of_put fun _ _ hd => hd,
      .of_reader (Json.yields_listOf DeclarationRecord.yields) fun ds d hds _ es hes => ?_⟩
    cases hes
    exact hds
  · intro ds hds
    cases hds
  · intro draft u hdraft hu
    obtain ⟨name, -, hu⟩ := Json.except_bind_eq_ok hu
    cases hu
    intro d hd
    cases hdeclarations : draft.declarations with
    | none =>
      rw [hdeclarations] at hd
      cases hd
    | some ds =>
      rw [hdeclarations] at hd
      exact hdraft ds hdeclarations d hd

theorem ExtractionInput.yields : reader.Yields Canonical := by
  refine Json.Record.yields (I := fun d => ∀ us ∈ d.units, ∀ u ∈ us, u.Canonical) ?_ ?_ ?_
  · simp only [record, List.forall_mem_cons, List.not_mem_nil, false_implies, implies_true,
      and_true]
    refine .of_reader (Json.yields_listOf CompilationUnit.yields) fun us d hus _ vs hvs => ?_
    cases hvs
    exact hus
  · intro us hus
    cases hus
  · intro draft i hdraft hi
    obtain ⟨units, hunits, hi⟩ := Json.except_bind_eq_ok hi
    cases hi
    exact hdraft units (Json.eq_some_of_required hunits)

/-! ## 4. There and back -/

/-- **A canonical input is read back, and whatever was read is canonical.** -/
theorem ExtractionInput.reads_back :
    (∀ i : ExtractionInput, i.Canonical → Json.decode reader i.toJson.toText = .ok i) ∧
      ∀ (text : String) (i : ExtractionInput), Json.decode reader text = .ok i →
        i.Canonical ∧ Json.decode reader i.toJson.toText = .ok i := by
  have hwritten {i : ExtractionInput} (h : i.Canonical) :
      Json.decode reader i.toJson.toText = .ok i := (stands h).decode (by decide)
  refine ⟨fun i h => hwritten h, fun text i hi => ?_⟩
  have hcanonical : i.Canonical := yields.decode hi
  exact ⟨hcanonical, hwritten hcanonical⟩

/-- A unit and a declaration written as arrays, a level by its label, a kind that is not listed, and
no field that has a default. -/
theorem ExtractionInput.reads_back_spellings :
    let document : Value := .object [("units", .array [.array [.text "a.cs", .array [.array
      [.natural 18446744073709551615, .object [("name", .text "A\n"), ("kind", .text "record"),
        ("accessibility", .text "ProtectedOrInternal")]]]]])]
    let input : ExtractionInput :=
      ⟨[⟨"a.cs", [⟨⟨18446744073709551615⟩, .plain "A\n" .other .protectedOrInternal⟩]⟩]⟩
    Json.decode reader document.toText = .ok input ∧ input.Canonical ∧
      Json.decode reader input.toJson.toText = .ok input := by
  intro document input
  have hread : Json.decode reader document.toText = .ok input := by
    refine Json.decode_toText ?_ rfl
    simp [document, Value.FitsWords, Json.ItemsFitWords, Json.MembersFitWords, Json.wordLimit]
  have hcanonical : input.Canonical := by simp [input, Canonical, CompilationUnit.Canonical,
    DeclarationRecord.Canonical, Symbol.plain, DeclaredAccessibility.Canonical]
  exact ⟨hread, (reads_back.2 document.toText input hread).1, reads_back.1 input hcanonical⟩

end ModifierFacts
