import ModifierFacts.Extraction.Run
import ModifierFacts.Fact.Json
import ModifierFacts.Symbol.Json

/-!
# Input and reports as documents

Readers and writers of the input of a run, and writers of its reports.
-/

namespace ModifierFacts

open Json (Reader Record Value)

/-! ## 1. Input -/

namespace DeclarationRecord

/-- A declaration on the way in. -/
structure Draft where
  id : Option DeclarationId := none
  symbol : Option Symbol := none

/-- A declaration as a record. -/
def record : Record Draft DeclarationRecord where
  title := "struct DeclarationRecord"
  fields := [
    .of "id" false (·.id) (fun x d => { d with id := some x }) DeclarationId.reader,
    .of "symbol" false (·.symbol) (fun x d => { d with symbol := some x }) Symbol.reader]
  blank := {}
  finish d := do
    let id ← Json.required "id" d.id
    let symbol ← Json.required "symbol" d.symbol
    return { id, symbol }

/-- Reads a declaration. -/
def reader : Reader DeclarationRecord := record.reader

/-- Writes a declaration. -/
def toJson (d : DeclarationRecord) : Value :=
  .object [("id", d.id.toJson), ("symbol", d.symbol.toJson)]

end DeclarationRecord

namespace CompilationUnit

/-- A unit on the way in. -/
structure Draft where
  name : Option String := none
  declarations : Option (List DeclarationRecord) := none

/-- A unit as a record. -/
def record : Record Draft CompilationUnit where
  title := "struct CompilationUnit"
  fields := [
    .of "name" false (·.name) (fun x d => { d with name := some x }) Json.text,
    .of "declarations" true (·.declarations) (fun x d => { d with declarations := some x })
      (Json.listOf DeclarationRecord.reader)]
  blank := {}
  finish d := do
    let name ← Json.required "name" d.name
    return { name, declarations := d.declarations.getD [] }

/-- Reads a unit. -/
def reader : Reader CompilationUnit := record.reader

/-- Writes a unit. -/
def toJson (u : CompilationUnit) : Value :=
  .object [("name", .text u.name), ("declarations", .array (u.declarations.map (·.toJson)))]

end CompilationUnit

namespace ExtractionInput

/-- The input on the way in. -/
structure Draft where
  units : Option (List CompilationUnit) := none

/-- The input as a record. -/
def record : Record Draft ExtractionInput where
  title := "struct ExtractionInput"
  fields := [
    .of "units" false (·.units) (fun x d => { d with units := some x })
      (Json.listOf CompilationUnit.reader)]
  blank := {}
  finish d := do
    let units ← Json.required "units" d.units
    return { units }

/-- Reads the input. -/
def reader : Reader ExtractionInput := record.reader

/-- Writes the input. -/
def toJson (i : ExtractionInput) : Value := .object [("units", .array (i.units.map (·.toJson)))]

end ExtractionInput

/-! ## 2. Reports -/

/-- Writes a unit's report. -/
def UnitReport.toJson (r : UnitReport) : Value :=
  .object [("unit", .text r.unit), ("declarations", .natural r.declarations),
    ("edges", .natural r.edges)]

/-- Writes a unit's failure. -/
def UnitFailure.toJson (f : UnitFailure) : Value :=
  .object [("unit", .text f.unit), ("error", .text f.error)]

/-- Writes the counters of a run. -/
def RunStats.toJson (s : RunStats) : Value :=
  .object [("entities_created", .natural s.entitiesCreated),
    ("edges_attached", .natural s.edgesAttached),
    ("declarations_classified", .natural s.declarationsClassified),
    ("units_aborted", .natural s.unitsAborted)]

/-- Writes the summary of a run. -/
def RunSummary.toJson (s : RunSummary) : Value :=
  .object [("units", .array (s.units.map (·.toJson))),
    ("failures", .array (s.failures.map (·.toJson))), ("stats", s.stats.toJson)]

end ModifierFacts
