import ModifierFacts.Fact.Basic
import ModifierFacts.Json.Record
import ModifierFacts.Json.Value

/-!
# Entities, edges and facts as documents

Identifiers are plain numbers. A fact is an object whose one key says which sort of fact it is and
whose value is a record of its parts.
-/

namespace ModifierFacts

open Json (Reader Record Value)

/-! ## 1. Identifiers -/

namespace EntityId

/-- Reads an entity identifier. -/
def reader : Reader EntityId := fun room v => (Json.word "u64" room v).map .mk

/-- Writes an entity identifier. -/
def toJson (id : EntityId) : Value := .natural id.value.toNat

end EntityId

namespace DeclarationId

/-- Reads a declaration identifier. -/
def reader : Reader DeclarationId := fun room v => (Json.word "u64" room v).map .mk

/-- Writes a declaration identifier. -/
def toJson (id : DeclarationId) : Value := .natural id.value.toNat

end DeclarationId

/-! ## 2. Entities and edges -/

namespace ModifierEntity

/-- An entity on the way in. -/
structure Draft where
  id : Option EntityId := none
  name : Option String := none

/-- An identifier with a name as a record, under a title. -/
def record {α : Type} (title : String) (make : EntityId → String → α) : Record Draft α where
  title
  fields := [
    .of "id" false (·.id) (fun x d => { d with id := some x }) EntityId.reader,
    .of "name" false (·.name) (fun x d => { d with name := some x }) Json.text]
  blank := {}
  finish d := do
    let id ← Json.required "id" d.id
    let name ← Json.required "name" d.name
    return make id name

/-- Reads an entity. -/
def reader : Reader ModifierEntity := (record "struct ModifierEntity" .mk).reader

/-- Writes an entity. -/
def toJson (e : ModifierEntity) : Value := .object [("id", e.id.toJson), ("name", .text e.name)]

end ModifierEntity

namespace ModifierEdge

/-- An edge on the way in. -/
structure Draft where
  declaration : Option DeclarationId := none
  modifier : Option EntityId := none

/-- A declaration with a modifier as a record, under a title. -/
def record {α : Type} (title : String) (make : DeclarationId → EntityId → α) : Record Draft α where
  title
  fields := [
    .of "declaration" false (·.declaration) (fun x d => { d with declaration := some x })
      DeclarationId.reader,
    .of "modifier" false (·.modifier) (fun x d => { d with modifier := some x }) EntityId.reader]
  blank := {}
  finish d := do
    let declaration ← Json.required "declaration" d.declaration
    let modifier ← Json.required "modifier" d.modifier
    return make declaration modifier

/-- Reads an edge. -/
def reader : Reader ModifierEdge := (record "struct ModifierEdge" .mk).reader

/-- Writes an edge. -/
def toJson (e : ModifierEdge) : Value :=
  .object [("declaration", e.declaration.toJson), ("modifier", e.modifier.toJson)]

end ModifierEdge

/-! ## 3. Facts -/

namespace Fact

/-- The sorts of fact under their names, with the reader of their parts. -/
def sorts : List (String × Reader Fact) :=
  [("modifiers", (ModifierEntity.record "struct variant Fact::Modifiers" .modifiers).reader),
    ("has_modifiers",
      (ModifierEdge.record "struct variant Fact::HasModifiers" .hasModifiers).reader)]

/-- The failure of a fact that is nothing but a name. -/
def bareName (name : String) : Except DecodeError Fact := do
  let _ ← Json.named sorts none name
  throw (.misfit (.invalidType .bareName "struct variant"))

/-- Reads a fact. -/
def reader : Reader Fact := Json.chosen bareName (Json.named sorts none)

/-- Writes a fact. -/
def toJson : Fact → Value
  | modifiers id name => .object [("modifiers", (ModifierEntity.mk id name).toJson)]
  | hasModifiers declaration modifier =>
    .object [("has_modifiers", (ModifierEdge.mk declaration modifier).toJson)]

end Fact

end ModifierFacts
