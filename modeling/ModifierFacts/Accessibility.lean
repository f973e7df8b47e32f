/-!
# Declared accessibility

How far a declaration can be seen. `Accessibility` lists the levels with a rule of their own, each
under two spellings that are accepted when it is read: its tag (`protected_or_internal`), which is
also the one written, and its label (`ProtectedOrInternal`). `DeclaredAccessibility` is what a
symbol reports: a known level, or a word that names none.
-/

namespace ModifierFacts

/-! ## 1. The levels -/

/-- The accessibility levels. -/
inductive Accessibility where
  | notApplicable
  | privateAccess
  /-- Visible to derived types in the same assembly (`private protected`). -/
  | protectedAndInternal
  | protectedAccess
  | internalAccess
  /-- Visible to derived types and in the same assembly (`protected internal`). -/
  | protectedOrInternal
  | publicAccess
  deriving DecidableEq, Repr

namespace Accessibility

/-- Every level, in declaration order. -/
def all : List Accessibility :=
  [.notApplicable, .privateAccess, .protectedAndInternal, .protectedAccess, .internalAccess,
    .protectedOrInternal, .publicAccess]

/-- The written form of a level. -/
def tag : Accessibility → String
  | notApplicable => "not_applicable"
  | privateAccess => "private"
  | protectedAndInternal => "protected_and_internal"
  | protectedAccess => "protected"
  | internalAccess => "internal"
  | protectedOrInternal => "protected_or_internal"
  | publicAccess => "public"

/-- The capitalised name of a level, accepted in place of its tag. -/
def label : Accessibility → String
  | notApplicable => "NotApplicable"
  | privateAccess => "Private"
  | protectedAndInternal => "ProtectedAndInternal"
  | protectedAccess => "Protected"
  | internalAccess => "Internal"
  | protectedOrInternal => "ProtectedOrInternal"
  | publicAccess => "Public"

/-- The level that a word names, by its tag or by its label. -/
def ofTag? (word : String) : Option Accessibility :=
  all.find? fun a => word == a.tag || word == a.label

end Accessibility

/-! ## 2. What a symbol reports -/

/-- The accessibility of a symbol as it was reported. A word that names no level is kept, so that a
rejection can quote it. -/
inductive DeclaredAccessibility where
  | known (access : Accessibility)
  | unrecognized (word : String)
  deriving DecidableEq, Repr

namespace DeclaredAccessibility

/-- Reads a reported word. -/
def ofText (word : String) : DeclaredAccessibility :=
  match Accessibility.ofTag? word with
  | some access => known access
  | none => unrecognized word

/-- Writes the accessibility: the tag of a known level, an unrecognized word as it came. -/
def text : DeclaredAccessibility → String
  | known access => access.tag
  | unrecognized word => word

end DeclaredAccessibility

end ModifierFacts
