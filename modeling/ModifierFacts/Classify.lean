import ModifierFacts.ModifierSet
import ModifierFacts.Symbol.Shape

/-!
# Classification: from a symbol to its modifier names

Every rule looks at the symbol on its own and contributes names or none; the names of all rules are
taken together, first supply first. Two flags are not reported under their own name:

* `static` of a constant field that the source declares, which the language implies;
* `abstract` of a member of an interface, which is reported as `virtual`.

`Symbol.ruleNames` lists the names that the rules supply, `Symbol.classify` is their set, or the
rejection of a symbol whose accessibility is unknown or whose detail does not match its kind.
-/

namespace ModifierFacts

/-! ## 1. Accessibility -/

namespace Accessibility

/-- The modifier that a level stands for, if it is exactly one. -/
def modifier? : Accessibility → Option String
  | privateAccess => some "private"
  | protectedAccess => some "protected"
  | publicAccess => some "public"
  | internalAccess => some "internal"
  | notApplicable | protectedOrInternal | protectedAndInternal => none

/-- All modifiers that a level stands for. -/
def modifiers : Accessibility → List String
  | privateAccess => ["private"]
  | publicAccess => ["public"]
  | protectedAccess => ["protected"]
  | internalAccess => ["internal"]
  | notApplicable => []
  | protectedOrInternal => ["protected", "internal"]
  | protectedAndInternal => ["protected", "private"]

end Accessibility

/-! ## 2. Rules -/

/-- The views that a symbol's kind calls for; the others stay empty. -/
structure Views where
  namedType : Option NamedTypeDetail := none
  field : Option FieldDetail := none
  method : Option MethodDetail := none
  deriving DecidableEq, Repr

/-- One rule: a name that is supplied under a condition. -/
def supplyIf (condition : Bool) (name : String) : List String := if condition then [name] else []

namespace Symbol

/-- The views of a symbol, or the rejection of the view that its kind calls for. -/
def views (s : Symbol) : Except Unsupported Views :=
  match s.kind with
  | .namedType => s.namedType?.map fun d => { namedType := some d }
  | .field => s.field?.map fun d => { field := some d }
  | .method => s.method?.map fun d => { method := some d }
  | _ => .ok {}

/-- The names that the rules supply, in rule order and with repetitions. -/
def ruleNames (s : Symbol) (access : Accessibility) (v : Views) : List String :=
  let isInterface := v.namedType.any (·.typeKind == .interfaceType)
  let isStruct := v.namedType.any (·.typeKind == .structType)
  let impliedStatic := v.field.any (·.isConst) && s.declaredInSource
  access.modifiers ++
    supplyIf (s.kind == .errorType) "public" ++
    supplyIf (s.flags.isAbstract && !isInterface && !s.inInterface) "abstract" ++
    supplyIf (s.flags.isAbstract && s.inInterface) "virtual" ++
    supplyIf s.flags.isSealed "sealed" ++
    supplyIf (s.flags.isStatic && !impliedStatic) "static" ++
    supplyIf s.flags.isVirtual "virtual" ++
    supplyIf (v.field.any (·.isReadOnly)) "readonly" ++
    supplyIf s.flags.isOverride "override" ++
    supplyIf (v.method.any (·.isAsync)) "async" ++
    supplyIf s.flags.isExtern "extern" ++
    s.sourceModifiers ++
    supplyIf (isStruct && v.namedType.any (·.isReadOnly)) "readonly" ++
    supplyIf (isStruct && v.namedType.any (·.isRefLike)) "ref"

/-- The modifier names of a symbol. An unknown accessibility is rejected before the shape is looked
at. -/
def classify (s : Symbol) : Except Unsupported ModifierSet :=
  match s.accessibility with
  | .unrecognized word => .error ⟨s.name, .unknownAccessibility word⟩
  | .known access => s.views.map fun v => .ofList (s.ruleNames access v)

end Symbol

end ModifierFacts
