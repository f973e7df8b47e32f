import ModifierFacts.Text.ByteOrder

/-!
# Sets of modifier names

The names that one declaration carries, each once, in the order in which the rules supplied them.

* `ModifierSet.insert` adds a name unless it is there and says whether it did.
* `ModifierSet.extend` adds many; `ModifierSet.ofList` starts from none.
* `ModifierSet.sorted` is the list to compare by when order does not matter.
-/

namespace ModifierFacts

/-- Modifier names in the order of their first supply. -/
structure ModifierSet where
  names : List String := []
  deriving DecidableEq, Repr

namespace ModifierSet

/-- The set without a name. -/
def empty : ModifierSet := ⟨[]⟩

/-- Is the name in the set? -/
def contains (s : ModifierSet) (name : String) : Bool := s.names.contains name

/-- The set with the name, at the end if it is new. -/
def add (s : ModifierSet) (name : String) : ModifierSet :=
  if s.contains name then s else ⟨s.names ++ [name]⟩

/-- Adds a name. The truth value says whether the set grew. -/
def insert (s : ModifierSet) (name : String) : ModifierSet × Bool :=
  (s.add name, !s.contains name)

/-- Adds many names, in order. -/
def extend (s : ModifierSet) (names : List String) : ModifierSet := names.foldl add s

/-- The set of the names of a list. -/
def ofList (names : List String) : ModifierSet := empty.extend names

/-- The number of names. -/
def size (s : ModifierSet) : Nat := s.names.length

/-- Has the set no name? -/
def isEmpty (s : ModifierSet) : Bool := s.names.isEmpty

/-- The names in byte order. -/
def sorted (s : ModifierSet) : List String := Text.sortBytes s.names

end ModifierSet

end ModifierFacts
