import ModifierFacts.Entity.Basic

/-!
# Facts

What the extraction writes: that an identifier names a modifier, and that a declaration carries one.
-/

namespace ModifierFacts

/-- One fact of the output. -/
inductive Fact where
  /-- The entity `id` is the modifier `name`. -/
  | modifiers (id : EntityId) (name : String)
  /-- The declaration carries the modifier. -/
  | hasModifiers (declaration : DeclarationId) (modifier : EntityId)
  deriving DecidableEq, Repr

namespace Fact

/-- The name that a fact declares, if it declares one. -/
def declaredName? : Fact → Option String
  | modifiers _ name => some name
  | hasModifiers _ _ => none

/-- The edge that a fact records, if it records one. -/
def edge? : Fact → Option ModifierEdge
  | modifiers _ _ => none
  | hasModifiers declaration modifier => some ⟨declaration, modifier⟩

/-- The names that a list of facts declares, in order. -/
def declaredNames (facts : List Fact) : List String := facts.filterMap declaredName?

/-- The edges that a list of facts records, in order. -/
def edges (facts : List Fact) : List ModifierEdge := facts.filterMap edge?

end Fact

end ModifierFacts
