/-!
# Registries: one entity per key

A registry hands out the entity of a key. The first request for a key makes the entity, by whatever
means the caller supplies; later requests get that same entity back.

* `Registry.create` is the request. It is written over an arbitrary monad `m`, so that making an
  entity may have effects of its own; they happen once per key.
* `Registry.get?` and `Registry.contains` look a key up and change nothing.
* `Registry.size` counts the keys.
-/

namespace ModifierFacts

/-- Entities under their keys, in the order in which they were made. -/
structure Registry (κ ε : Type) where
  entries : List (κ × ε) := []

/-- The answer to a request: the entity, and whether this request made it. -/
structure Obtained (ε : Type) where
  entity : ε
  created : Bool
  deriving DecidableEq, Repr

namespace Registry

variable {κ ε : Type} [DecidableEq κ]

/-- The registry without a key. -/
def empty : Registry κ ε := ⟨[]⟩

/-- The entity of a key, if it was made. -/
def get? (r : Registry κ ε) (key : κ) : Option ε := r.entries.lookup key

/-- Was the entity of this key made? -/
def contains (r : Registry κ ε) (key : κ) : Bool := (r.get? key).isSome

/-- The number of keys. -/
def size (r : Registry κ ε) : Nat := r.entries.length

/-- Has no entity been made? -/
def isEmpty (r : Registry κ ε) : Bool := r.entries.isEmpty

/-- The registry with one more key. -/
def register (r : Registry κ ε) (key : κ) (entity : ε) : Registry κ ε :=
  ⟨r.entries ++ [(key, entity)]⟩

/-- Requests the entity of a key; `make` is run exactly if the key is new. -/
def create {m : Type → Type} [Monad m] (r : Registry κ ε) (key : κ) (make : κ → m ε) :
    m (Obtained ε × Registry κ ε) :=
  match r.get? key with
  | some entity => pure (⟨entity, false⟩, r)
  | none => do
    let entity ← make key
    pure (⟨entity, true⟩, r.register key entity)

end Registry

end ModifierFacts
