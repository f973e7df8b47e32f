import ModifierFacts.Classify
import ModifierFacts.Registry
import ModifierFacts.Sink.Basic

/-!
# The context of an extraction

One context lives for one run. It holds the registry of modifier entities, the state of the fact
sink and the counters; everything that extracts goes through it.

* `Extraction σ α` is an operation over a sink with states `σ`: it may fail and then leaves the
  context as far as it got.
* `Context.modifier` obtains the entity of a name. The first request registers it and then declares
  it to the sink, so a refused declaration leaves a registered entity that was never declared; the
  run has to end on such an error.
* `Context.attach` and `Context.attachAll` record edges, `Context.extractModifiers` does so for a
  classified symbol.
-/

namespace ModifierFacts

/-! ## 1. The context -/

/-- The counters of a run. -/
structure RunStats where
  entitiesCreated : Nat := 0
  edgesAttached : Nat := 0
  declarationsClassified : Nat := 0
  unitsAborted : Nat := 0
  deriving DecidableEq, Repr

/-- The state of a run over a sink with states `σ`. -/
structure Context (σ : Type) where
  registry : Registry String ModifierEntity := .empty
  sinkState : σ
  entitiesCreated : Nat := 0
  edgesAttached : Nat := 0
  declarationsClassified : Nat := 0

namespace Context

variable {σ : Type}

/-- The context at the start of a run. -/
def start (sinkState : σ) : Context σ := { sinkState }

/-- The number of modifier entities registered. -/
def modifierCount (cx : Context σ) : Nat := cx.registry.size

/-- The counters. Aborted units are counted by the run, not by the context. -/
def stats (cx : Context σ) : RunStats :=
  { entitiesCreated := cx.entitiesCreated
    edgesAttached := cx.edgesAttached
    declarationsClassified := cx.declarationsClassified }

/-- The text by which a message quotes counters. -/
def statsText (s : RunStats) : String :=
  recordText "RunStats"
    [("entities_created", toString s.entitiesCreated),
      ("edges_attached", toString s.edgesAttached),
      ("declarations_classified", toString s.declarationsClassified),
      ("units_aborted", toString s.unitsAborted)]

/-- The text by which a message quotes a context. -/
def text (cx : Context σ) : String :=
  recordText "ExtractionContext"
    [("modifiers", toString cx.modifierCount), ("stats", statsText cx.stats)]

end Context

/-! ## 2. Operations -/

/-- Why extraction of a declaration fails. -/
inductive ExtractError where
  | modifier (error : Unsupported)
  | fact (error : FactError)
  deriving DecidableEq, Repr

/-- The text of an extraction error is that of its cause. -/
def ExtractError.message : ExtractError → String
  | modifier e => e.message
  | fact e => e.message

/-- How an operation ends early. -/
inductive Stop where
  | failed (error : ExtractError)
  /-- The sink crashed. -/
  | crashed
  deriving DecidableEq, Repr

/-- An operation on a context. -/
abbrev Extraction (σ : Type) (α : Type) := ExceptT Stop (StateM (Context σ)) α

namespace Context

variable {σ : Type} (sink : FactSink σ)

/-- Calls the sink. -/
def call (c : SinkCall) : Extraction σ Unit := do
  let cx ← get
  let (reply, sinkState) := sink.reply cx.sinkState c
  set { cx with sinkState }
  match reply with
  | .accepted => pure ()
  | .refused error => throw (.failed (.fact error))
  | .crashed => throw .crashed

/-- Registers the entity of a name, unless it is registered. -/
def register (name : String) : Extraction σ (Obtained ModifierEntity) :=
  modifyGet fun cx =>
    let (obtained, registry) := Id.run (cx.registry.create name fun n => pure (.ofName n))
    (obtained, { cx with registry })

/-- Counts a declared entity. -/
def countEntity : Extraction σ Unit :=
  modify fun cx => { cx with entitiesCreated := cx.entitiesCreated + 1 }

/-- Counts an attached edge. -/
def countEdge : Extraction σ Unit :=
  modify fun cx => { cx with edgesAttached := cx.edgesAttached + 1 }

/-- Counts a classified declaration. -/
def countClassified : Extraction σ Unit :=
  modify fun cx => { cx with declarationsClassified := cx.declarationsClassified + 1 }

/-- The entity of a modifier name. The first request registers it, declares it and counts it. -/
def modifier (name : String) : Extraction σ ModifierEntity := do
  let obtained ← register name
  if obtained.created then
    call sink (.record (.modifiers obtained.entity.id obtained.entity.name))
    countEntity
  return obtained.entity

/-- Records that a declaration carries a modifier. -/
def attach (declaration : DeclarationId) (modifier : EntityId) : Extraction σ Unit := do
  call sink (.record (.hasModifiers declaration modifier))
  countEdge

/-- Attaches the modifier of a name. -/
def hasModifier (declaration : DeclarationId) (name : String) : Extraction σ Unit := do
  let entity ← modifier sink name
  attach sink declaration entity.id

/-- Attaches the modifiers of many names, in order. -/
def attachAll (declaration : DeclarationId) (names : List String) : Extraction σ Unit :=
  names.forM (hasModifier sink declaration)

/-- Attaches every modifier that an accessibility stands for. -/
def hasAccessibility (declaration : DeclarationId) (access : Accessibility) : Extraction σ Unit :=
  attachAll sink declaration access.modifiers

/-- The symbol that a rejection names where an accessibility is resolved without one. -/
def accessibilityLabel : String := "<accessibility>"

/-- The entity of the one modifier that an accessibility stands for. -/
def modifierOfAccessibility (access : Accessibility) : Extraction σ ModifierEntity :=
  match access.modifier? with
  | some name => modifier sink name
  | none => throw (.failed (.modifier ⟨accessibilityLabel, .noSingleModifier access⟩))

/-- The names of a symbol, or a failure that leaves the context alone. -/
def classify (symbol : Symbol) : Extraction σ ModifierSet :=
  match symbol.classify with
  | .ok names => pure names
  | .error e => throw (.failed (.modifier e))

/-- Classifies a symbol and attaches its modifiers to a declaration. -/
def extractModifiers (declaration : DeclarationId) (symbol : Symbol) :
    Extraction σ ModifierSet := do
  let set ← classify symbol
  countClassified
  attachAll sink declaration set.names
  return set

end Context

end ModifierFacts
