import ModifierFacts.Symbol.Basic

/-!
# The shape of a symbol, and rejections

A symbol can be viewed as a named type, a field or a method only if its kind and its detail both say
so. `Symbol.namedType?`, `Symbol.field?` and `Symbol.method?` are these views; where they refuse,
the refusal is an `Unsupported`, the one sort of error that classification raises. It names the
symbol and the reason; `Unsupported.message` is its text.
-/

namespace ModifierFacts

/-! ## 1. Details in messages -/

/-- A truth value in a message. -/
def boolText (b : Bool) : String := if b then "true" else "false"

/-- A record in a message: its name, and its fields with their values. -/
def recordText (name : String) (fields : List (String × String)) : String :=
  name ++ " \x7b " ++ ", ".intercalate (fields.map fun f => f.1 ++ ": " ++ f.2) ++ " \x7d"

namespace SymbolDetail

/-- The text by which a message quotes a detail. -/
def text : SymbolDetail → String
  | namedType d => "NamedType(" ++ recordText "NamedTypeDetail"
      [("type_kind", d.typeKind.label), ("is_read_only", boolText d.isReadOnly),
        ("is_ref_like", boolText d.isRefLike)] ++ ")"
  | field d => "Field(" ++ recordText "FieldDetail"
      [("is_const", boolText d.isConst), ("is_read_only", boolText d.isReadOnly)] ++ ")"
  | method d => "Method(" ++ recordText "MethodDetail" [("is_async", boolText d.isAsync)] ++ ")"
  | bare => "Opaque"

end SymbolDetail

/-! ## 2. Rejections -/

/-- The views of a symbol that depend on its kind. -/
inductive View where
  | namedType
  | field
  | method
  deriving DecidableEq, Repr

/-- The name of a view in messages. -/
def View.label : View → String
  | namedType => "named type"
  | field => "field"
  | method => "method"

/-- Why no modifiers can be given. -/
inductive Unsupported.Reason where
  /-- The reported accessibility is no known level. -/
  | unknownAccessibility (word : String)
  /-- A view was asked for that kind and detail do not both allow. -/
  | shapeMismatch (kind : SymbolKind) (detail : SymbolDetail) (expected : View)
  /-- The accessibility stands for no modifier, or for two. -/
  | noSingleModifier (access : Accessibility)
  /-- A reason in the words of whoever rejects. -/
  | stated (reason : String)
  deriving DecidableEq, Repr

/-- The text of a reason. -/
def Unsupported.Reason.message : Unsupported.Reason → String
  | unknownAccessibility word => s!"unhandled accessibility value `{word}`"
  | shapeMismatch kind detail expected =>
    "symbol kind " ++ kind.label ++ " is inconsistent with its shape " ++ detail.text ++
      " (expected a " ++ expected.label ++ " view)"
  | noSingleModifier access =>
    "accessibility `" ++ access.tag ++ "` does not map to a single modifier"
  | stated reason => reason

/-- A rejection: the symbol that it was raised for, and the reason. -/
structure Unsupported where
  symbol : String
  reason : Unsupported.Reason
  deriving DecidableEq, Repr

namespace Unsupported

/-- The text of the reason. -/
def detail (e : Unsupported) : String := e.reason.message

/-- The text of a rejection. -/
def message (e : Unsupported) : String :=
  "unsupported modifier combination on `" ++ e.symbol ++ "`: " ++ e.detail

end Unsupported

/-! ## 3. Views -/

namespace Symbol

/-- The rejection of a view. -/
def mismatch (s : Symbol) (expected : View) : Unsupported :=
  ⟨s.name, .shapeMismatch s.kind s.detail expected⟩

/-- The symbol as a named type. -/
def namedType? (s : Symbol) : Except Unsupported NamedTypeDetail :=
  match s.kind, s.detail with
  | .namedType, .namedType d => .ok d
  | _, _ => .error (s.mismatch .namedType)

/-- The symbol as a field. -/
def field? (s : Symbol) : Except Unsupported FieldDetail :=
  match s.kind, s.detail with
  | .field, .field d => .ok d
  | _, _ => .error (s.mismatch .field)

/-- The symbol as a method. -/
def method? (s : Symbol) : Except Unsupported MethodDetail :=
  match s.kind, s.detail with
  | .method, .method d => .ok d
  | _, _ => .error (s.mismatch .method)

end Symbol

end ModifierFacts
