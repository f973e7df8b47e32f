import ModifierFacts.Extraction.Context

/-!
# Compilation units

A unit is a list of declarations. It is classified as a whole before anything of it is written, so a
unit with a declaration that cannot be classified leaves no trace in the sink.
-/

namespace ModifierFacts

/-! ## 1. Input -/

/-- A declaration and its symbol. -/
structure DeclarationRecord where
  id : DeclarationId
  symbol : Symbol
  deriving DecidableEq, Repr

/-- The declarations of one compilation unit. -/
structure CompilationUnit where
  name : String
  declarations : List DeclarationRecord := []
  deriving DecidableEq, Repr

/-- The input of a run. -/
structure ExtractionInput where
  units : List CompilationUnit := []
  deriving DecidableEq, Repr

/-! ## 2. Extraction of a unit -/

/-- What one unit contributed. -/
structure UnitReport where
  unit : String
  declarations : Nat
  edges : Nat
  deriving DecidableEq, Repr

/-- A declaration with its modifier names. -/
structure ClassifiedDeclaration where
  id : DeclarationId
  modifiers : ModifierSet
  deriving DecidableEq, Repr

/-- Classifies a declaration. -/
def DeclarationRecord.classify (d : DeclarationRecord) : Except Unsupported ClassifiedDeclaration :=
  d.symbol.classify.map (.mk d.id)

namespace CompilationUnit

/-- Classifies all declarations of a unit, or rejects the first that cannot be classified. -/
def classify (u : CompilationUnit) : Except Unsupported (List ClassifiedDeclaration) :=
  u.declarations.mapM (·.classify)

/-- The report on a unit with these classified declarations. -/
def report (u : CompilationUnit) (classified : List ClassifiedDeclaration) : UnitReport :=
  ⟨u.name, classified.length, classified.foldl (fun edges d => edges + d.modifiers.size) 0⟩

end CompilationUnit

namespace Context

variable {σ : Type} (sink : FactSink σ)

/-- Counts a classified declaration and attaches its modifiers. -/
def writeDeclaration (d : ClassifiedDeclaration) : Extraction σ Unit := do
  countClassified
  attachAll sink d.id d.modifiers.names

/-- Classifies a unit and then writes it, declaration by declaration. -/
def extractUnit (u : CompilationUnit) : Extraction σ UnitReport :=
  match u.classify with
  | .error e => throw (.failed (.modifier e))
  | .ok classified => do
    classified.forM (writeDeclaration sink)
    return u.report classified

end Context

end ModifierFacts
