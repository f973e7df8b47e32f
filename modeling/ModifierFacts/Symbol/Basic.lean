import ModifierFacts.Accessibility
import ModifierFacts.Symbol.Kind

/-!
# Symbols

The semantic metadata of one declared program element, as a tree walker hands it over.

* `SymbolFlags` are the truth values that every symbol carries.
* `SymbolDetail` is the part that depends on the kind: a named type, a field and a method have
  one of their own, every other symbol is `bare`. Nothing forces the detail to match the kind;
  `ModifierFacts.Symbol.Shape` says when it does.
* `ContainingType` is the type around the symbol, if any.
* `Symbol` puts these together; `Symbol.plain` is the symbol about which only name, kind and
  accessibility are known, and the functions after it fill in one part each.
-/

namespace ModifierFacts

/-! ## 1. Parts of a symbol -/

/-- The flags of a symbol, whatever its kind. -/
structure SymbolFlags where
  isAbstract : Bool := false
  isSealed : Bool := false
  isStatic : Bool := false
  isVirtual : Bool := false
  isOverride : Bool := false
  isExtern : Bool := false
  deriving DecidableEq, Repr

/-- What is known of a named type alone. -/
structure NamedTypeDetail where
  typeKind : TypeKind
  isReadOnly : Bool := false
  isRefLike : Bool := false
  deriving DecidableEq, Repr

/-- What is known of a field alone. -/
structure FieldDetail where
  isConst : Bool := false
  isReadOnly : Bool := false
  deriving DecidableEq, Repr

/-- What is known of a method alone. -/
structure MethodDetail where
  isAsync : Bool := false
  deriving DecidableEq, Repr

/-- The part of a symbol that depends on its kind. -/
inductive SymbolDetail where
  | namedType (detail : NamedTypeDetail)
  | field (detail : FieldDetail)
  | method (detail : MethodDetail)
  /-- A symbol of which nothing but the common parts is known. -/
  | bare
  deriving DecidableEq, Repr

/-- The type that a symbol is declared in. -/
structure ContainingType where
  kind : SymbolKind
  typeKind : Option TypeKind := none
  deriving DecidableEq, Repr

namespace ContainingType

/-- A named type of a given sort. -/
def named (typeKind : TypeKind) : ContainingType := ⟨.namedType, some typeKind⟩

/-- Is this the body of an interface? Only a named type can be one. -/
def isInterface (t : ContainingType) : Bool :=
  t.kind == .namedType && t.typeKind == some .interfaceType

end ContainingType

/-! ## 2. Symbols -/

/-- The metadata of one symbol. -/
structure Symbol where
  name : String
  kind : SymbolKind
  accessibility : DeclaredAccessibility
  flags : SymbolFlags := {}
  containingType : Option ContainingType := none
  detail : SymbolDetail := .bare
  /-- The symbol has at least one declaration in the source text. -/
  declaredInSource : Bool := false
  /-- Modifier keywords in the source text that no flag stands for. -/
  sourceModifiers : List String := []
  deriving DecidableEq, Repr

namespace Symbol

/-- A symbol of which only name, kind and accessibility are known. -/
def plain (name : String) (kind : SymbolKind) (access : Accessibility) : Symbol :=
  { name, kind, accessibility := .known access }

/-- The symbol with other flags. -/
def withFlags (s : Symbol) (flags : SymbolFlags) : Symbol := { s with flags }

/-- The symbol with another detail. -/
def withDetail (s : Symbol) (detail : SymbolDetail) : Symbol := { s with detail }

/-- The symbol as a member of a type. -/
def declaredIn (s : Symbol) (t : ContainingType) : Symbol := { s with containingType := some t }

/-- The symbol as one that the source text declares. -/
def fromSource (s : Symbol) : Symbol := { s with declaredInSource := true }

/-- The symbol with other source-level modifiers. -/
def withSourceModifiers (s : Symbol) (sourceModifiers : List String) : Symbol :=
  { s with sourceModifiers }

/-- Is the symbol a member of an interface? -/
def inInterface (s : Symbol) : Bool :=
  match s.containingType with
  | some t => t.isInterface
  | none => false

end Symbol

end ModifierFacts
