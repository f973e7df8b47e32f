import ModifierFacts.Hash.SipHash
import ModifierFacts.Text.ByteOrder

/-!
# Modifier entities and the edges to them

Each modifier name stands for one entity in the output. Its identifier is made from the name: the
name is extended to a trap key, `<name>;modifier`, and the key is hashed. Declarations have
identifiers of their own, which come with the input and are not looked into.
-/

namespace ModifierFacts

/-! ## 1. Identifiers -/

/-- The identifier of an entity. -/
structure EntityId where
  value : UInt64
  deriving DecidableEq, Repr

/-- The identifier of a declaration. -/
structure DeclarationId where
  value : UInt64
  deriving DecidableEq, Repr

/-- The sixteen hexadecimal digits of a word, highest first. -/
def hexDigits (word : UInt64) : List Char :=
  let digits := Nat.toDigits 16 word.toNat
  List.replicate (16 - digits.length) '0' ++ digits

namespace EntityId

/-- The identifier that a trap key stands for: the digest of its UTF-8 bytes and one closing byte,
which no UTF-8 text contains. -/
def ofTrapKey (key : String) : EntityId := ⟨SipHash.hash (Text.bytes key ++ [0xff])⟩

/-- An entity identifier as it is displayed. -/
def display (id : EntityId) : String := "#" ++ String.ofList (hexDigits id.value)

end EntityId

/-- A declaration identifier as it is displayed. -/
def DeclarationId.display (id : DeclarationId) : String := s!"decl#{id.value.toNat}"

/-! ## 2. Entities -/

/-- The entity of one modifier name. -/
structure ModifierEntity where
  id : EntityId
  name : String
  deriving DecidableEq, Repr

namespace ModifierEntity

/-- The key under which a modifier name is hashed. The category after the semicolon keeps modifiers
apart from entities of other sorts. -/
def trapKey (name : String) : String := name ++ ";modifier"

/-- The entity of a modifier name. -/
def ofName (name : String) : ModifierEntity := ⟨.ofTrapKey (trapKey name), name⟩

end ModifierEntity

/-! ## 3. Edges -/

/-- A declaration carries a modifier. -/
structure ModifierEdge where
  declaration : DeclarationId
  modifier : EntityId
  deriving DecidableEq, Repr

namespace ModifierEdge

/-- The order of edges: by declaration, then by modifier. -/
def atMost (a b : ModifierEdge) : Bool :=
  if a.declaration.value == b.declaration.value then a.modifier.value ≤ b.modifier.value
  else a.declaration.value ≤ b.declaration.value

/-- An edge as it is displayed: its two ends with a blank between them. -/
def display (e : ModifierEdge) : String := e.declaration.display ++ " " ++ e.modifier.display

/-- The edges of a list in order, each once. -/
def sortDistinct (edges : List ModifierEdge) : List ModifierEdge :=
  (edges.mergeSort atMost).eraseDups

end ModifierEdge

end ModifierFacts
