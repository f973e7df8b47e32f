import ModifierFacts.Json.Record
import ModifierFacts.Json.Value
import ModifierFacts.Symbol.Basic

/-!
# Symbols as documents

Readers and writers of a symbol and its parts. Every part but the detail is a name or a record read
as it comes. A detail carries its tag, `shape`, among its own members or as first item, so the whole
value is looked through for soundness and for the tag before a field is read; a field is then read
out of a value that is known to be sound, which changes what is accepted for `type_kind`
(`soundVariant`) and how a wrong number of items is reported.
-/

namespace ModifierFacts

open Json (Reader Record Field Node Value)

/-! ## 1. Names -/

namespace Accessibility

/-- Reads an accessibility level by its tag. -/
def reader : Reader Accessibility := Json.variant (all.map fun a => (a.tag, a)) none

/-- Writes a level. -/
def toJson (a : Accessibility) : Value := .text a.tag

end Accessibility

namespace DeclaredAccessibility

/-- Reads a reported accessibility, which may be any text. -/
def reader : Reader DeclaredAccessibility := fun room v => (Json.text room v).map ofText

/-- Writes a reported accessibility. -/
def toJson (a : DeclaredAccessibility) : Value := .text a.text

end DeclaredAccessibility

namespace SymbolKind

/-- Reads a kind of symbol; a name that is not listed is `other`. -/
def reader : Reader SymbolKind := Json.variant (all.map fun k => (k.tag, k)) (some .other)

/-- Writes a kind of symbol. -/
def toJson (k : SymbolKind) : Value := .text k.tag

end SymbolKind

namespace TypeKind

/-- The kinds of type under their tags. -/
def tagged : List (String × TypeKind) := all.map fun k => (k.tag, k)

/-- Reads a kind of type. -/
def reader : Reader TypeKind := Json.variant tagged none

/-- Writes a kind of type. -/
def toJson (k : TypeKind) : Value := .text k.tag

end TypeKind

/-! ## 2. Flags -/

namespace SymbolFlags

/-- Flags on the way in. -/
structure Draft where
  isAbstract : Option Bool := none
  isSealed : Option Bool := none
  isStatic : Option Bool := none
  isVirtual : Option Bool := none
  isOverride : Option Bool := none
  isExtern : Option Bool := none

/-- Flags as a record. All have a default. -/
def record : Record Draft SymbolFlags where
  title := "struct SymbolFlags"
  fields := [
    .of "is_abstract" true (·.isAbstract) (fun b d => { d with isAbstract := some b }) Json.boolean,
    .of "is_sealed" true (·.isSealed) (fun b d => { d with isSealed := some b }) Json.boolean,
    .of "is_static" true (·.isStatic) (fun b d => { d with isStatic := some b }) Json.boolean,
    .of "is_virtual" true (·.isVirtual) (fun b d => { d with isVirtual := some b }) Json.boolean,
    .of "is_override" true (·.isOverride) (fun b d => { d with isOverride := some b }) Json.boolean,
    .of "is_extern" true (·.isExtern) (fun b d => { d with isExtern := some b }) Json.boolean]
  blank := {}
  finish d := .ok {
    isAbstract := d.isAbstract.getD false
    isSealed := d.isSealed.getD false
    isStatic := d.isStatic.getD false
    isVirtual := d.isVirtual.getD false
    isOverride := d.isOverride.getD false
    isExtern := d.isExtern.getD false }

/-- Reads flags. -/
def reader : Reader SymbolFlags := record.reader

/-- Writes flags. -/
def toJson (f : SymbolFlags) : Value :=
  .object [("is_abstract", .boolean f.isAbstract), ("is_sealed", .boolean f.isSealed),
    ("is_static", .boolean f.isStatic), ("is_virtual", .boolean f.isVirtual),
    ("is_override", .boolean f.isOverride), ("is_extern", .boolean f.isExtern)]

end SymbolFlags

/-! ## 3. Details of one shape -/

namespace NamedTypeDetail

/-- A named type's detail on the way in. -/
structure Draft where
  typeKind : Option TypeKind := none
  isReadOnly : Option Bool := none
  isRefLike : Option Bool := none

/-- A named type's detail as a record, for a way to read its kind. -/
def record (typeKind : Reader TypeKind) : Record Draft NamedTypeDetail where
  title := "struct NamedTypeDetail"
  fields := [
    .of "type_kind" false (·.typeKind) (fun k d => { d with typeKind := some k }) typeKind,
    .of "is_read_only" true (·.isReadOnly) (fun b d => { d with isReadOnly := some b })
      Json.boolean,
    .of "is_ref_like" true (·.isRefLike) (fun b d => { d with isRefLike := some b }) Json.boolean]
  blank := {}
  finish d := do
    let typeKind ← Json.required "type_kind" d.typeKind
    return { typeKind, isReadOnly := d.isReadOnly.getD false, isRefLike := d.isRefLike.getD false }

/-- Reads a named type's detail. -/
def reader : Reader NamedTypeDetail := (record TypeKind.reader).reader

/-- The members of a named type's detail. -/
def members (d : NamedTypeDetail) : List (String × Value) :=
  [("type_kind", d.typeKind.toJson), ("is_read_only", .boolean d.isReadOnly),
    ("is_ref_like", .boolean d.isRefLike)]

/-- Writes a named type's detail. -/
def toJson (d : NamedTypeDetail) : Value := .object d.members

end NamedTypeDetail

namespace FieldDetail

/-- A field's detail on the way in. -/
structure Draft where
  isConst : Option Bool := none
  isReadOnly : Option Bool := none

/-- A field's detail as a record. -/
def record : Record Draft FieldDetail where
  title := "struct FieldDetail"
  fields := [
    .of "is_const" true (·.isConst) (fun b d => { d with isConst := some b }) Json.boolean,
    .of "is_read_only" true (·.isReadOnly) (fun b d => { d with isReadOnly := some b })
      Json.boolean]
  blank := {}
  finish d := .ok { isConst := d.isConst.getD false, isReadOnly := d.isReadOnly.getD false }

/-- Reads a field's detail. -/
def reader : Reader FieldDetail := record.reader

/-- The members of a field's detail. -/
def members (d : FieldDetail) : List (String × Value) :=
  [("is_const", .boolean d.isConst), ("is_read_only", .boolean d.isReadOnly)]

/-- Writes a field's detail. -/
def toJson (d : FieldDetail) : Value := .object d.members

end FieldDetail

namespace MethodDetail

/-- A method's detail on the way in. -/
structure Draft where
  isAsync : Option Bool := none

/-- A method's detail as a record. -/
def record : Record Draft MethodDetail where
  title := "struct MethodDetail"
  fields := [
    .of "is_async" true (·.isAsync) (fun b d => { d with isAsync := some b }) Json.boolean]
  blank := {}
  finish d := .ok { isAsync := d.isAsync.getD false }

/-- Reads a method's detail. -/
def reader : Reader MethodDetail := record.reader

/-- The members of a method's detail. -/
def members (d : MethodDetail) : List (String × Value) := [("is_async", .boolean d.isAsync)]

/-- Writes a method's detail. -/
def toJson (d : MethodDetail) : Value := .object d.members

end MethodDetail

/-! ## 4. Details of any shape -/

namespace SymbolDetail

/-- The shapes of a detail. -/
inductive Shape where
  | namedType
  | field
  | method
  | bare
  deriving DecidableEq, Repr

/-- The shapes under their tags. -/
def shapes : List (String × Shape) :=
  [("named_type", .namedType), ("field", .field), ("method", .method), ("opaque", .bare)]

/-- Reads the tag of a detail. -/
def shapeOf : Node → Except DecodeError Shape
  | .text s => Json.named shapes none s
  | v => Json.unexpected v "variant identifier"

/-- A name out of a list, read out of a sound value: an object has one member, whose value is `null`
or an empty object. -/
def soundVariant {α : Type} (known : List (String × α)) : Reader α
  | _, .text s => Json.named known none s
  | _, .object [(some name, v)] _ => do
    let a ← Json.named known none name
    match v with
    | .null | .object [] _ => return a
    | v => Json.unexpected v "unit"
  | _, .object _ _ => .error (.misfit (.invalidValue .map "map with a single key"))
  | _, v => Json.unexpected v "string or map"

/-- A named type's detail inside a sound value. -/
def namedTypeRecord : Record NamedTypeDetail.Draft NamedTypeDetail :=
  NamedTypeDetail.record (soundVariant TypeKind.tagged)

/-- Reads a record out of sound members. -/
def fromMembers {δ α : Type} (r : Record δ α) (room : Nat)
    (members : List (Option String × Node)) : Except DecodeError α := do
  r.finish (← r.ofMembers room members)

/-- The failure of a sequence that is longer than the record. -/
def overlong (length expected : Nat) : DecodeError :=
  .misfit (.invalidLength length (elements expected ++ " in sequence"))

/-- Reads a record out of sound items. -/
def fromItems {δ α : Type} (r : Record δ α) (room : Nat) (items : List Node) :
    Except DecodeError α := do
  r.finish (← r.addItems room (overlong items.length r.fields.length) true r.fields 0 items
    r.blank)

/-- The tag among the members of an object, in document order: every other value must be sound. -/
def findShape (room : Nat) (shape : Option Shape) :
    List (Option String × Node) → Except DecodeError (Option Shape)
  | [] => .ok shape
  | (none, _) :: _ => .error .malformed
  | (some key, v) :: members =>
    if key = "shape" then
      match shape with
      | some _ => .error (.misfit (.duplicateField "shape"))
      | none => do findShape room (some (← shapeOf v)) members
    else if v.isSound room then findShape room shape members
    else .error .malformed

/-- Reads a detail of a given shape out of sound members. -/
def ofMembers (room : Nat) (members : List (Option String × Node)) :
    Shape → Except DecodeError SymbolDetail
  | .namedType => (fromMembers namedTypeRecord room members).map .namedType
  | .field => (fromMembers FieldDetail.record room members).map .field
  | .method => (fromMembers MethodDetail.record room members).map .method
  | .bare => .ok .bare

/-- Reads a detail of a given shape out of sound items. -/
def ofItems (room : Nat) (items : List Node) : Shape → Except DecodeError SymbolDetail
  | .namedType => (fromItems namedTypeRecord room items).map .namedType
  | .field => (fromItems FieldDetail.record room items).map .field
  | .method => (fromItems MethodDetail.record room items).map .method
  | .bare => if items.isEmpty then .ok .bare else .error (overlong items.length 0)

/-- The failure of a detail without a tag. -/
def missingShape : DecodeError := .misfit (.missingField "shape")

/-- Reads a detail. -/
def reader : Reader SymbolDetail
  | room + 1, .object members closed => do
    let shape ← findShape room none members
    if closed then
      match shape with
      | some shape => ofMembers room (members.filter (·.1 != some "shape")) shape
      | none => throw missingShape
    else throw .malformed
  | _ + 1, .array [] closed => .error (if closed then missingShape else .malformed)
  | room + 1, .array (tag :: items) closed => do
    let shape ← shapeOf tag
    if Json.areSound room items && closed then ofItems room items shape
    else throw .malformed
  | 0, .object _ _ | 0, .array _ _ => .error .malformed
  | _, v => Json.unexpected v "internally tagged enum SymbolDetail"

/-- Writes a detail, its tag first. -/
def toJson : SymbolDetail → Value
  | namedType d => .object (("shape", .text "named_type") :: d.members)
  | field d => .object (("shape", .text "field") :: d.members)
  | method d => .object (("shape", .text "method") :: d.members)
  | bare => .object [("shape", .text "opaque")]

end SymbolDetail

/-! ## 5. Containing types -/

namespace ContainingType

/-- A containing type on the way in. -/
structure Draft where
  kind : Option SymbolKind := none
  typeKind : Option (Option TypeKind) := none

/-- A containing type as a record. -/
def record : Record Draft ContainingType where
  title := "struct ContainingType"
  fields := [
    .of "kind" false (·.kind) (fun k d => { d with kind := some k }) SymbolKind.reader,
    .of "type_kind" true (·.typeKind) (fun k d => { d with typeKind := some k })
      (Json.nullable TypeKind.reader)]
  blank := {}
  finish d := do
    let kind ← Json.required "kind" d.kind
    return { kind, typeKind := d.typeKind.getD none }

/-- Reads a containing type. -/
def reader : Reader ContainingType := record.reader

/-- Writes a containing type. -/
def toJson (t : ContainingType) : Value :=
  .object [("kind", t.kind.toJson), ("type_kind", .ofOption TypeKind.toJson t.typeKind)]

end ContainingType

/-! ## 6. Symbols -/

namespace Symbol

/-- A symbol on the way in. -/
structure Draft where
  name : Option String := none
  kind : Option SymbolKind := none
  accessibility : Option DeclaredAccessibility := none
  flags : Option SymbolFlags := none
  containingType : Option (Option ContainingType) := none
  detail : Option SymbolDetail := none
  declaredInSource : Option Bool := none
  sourceModifiers : Option (List String) := none

/-- A symbol as a record. -/
def record : Record Draft Symbol where
  title := "struct Symbol"
  fields := [
    .of "name" false (·.name) (fun x d => { d with name := some x }) Json.text,
    .of "kind" false (·.kind) (fun x d => { d with kind := some x }) SymbolKind.reader,
    .of "accessibility" false (·.accessibility) (fun x d => { d with accessibility := some x })
      DeclaredAccessibility.reader,
    .of "flags" true (·.flags) (fun x d => { d with flags := some x }) SymbolFlags.reader,
    .of "containing_type" true (·.containingType) (fun x d => { d with containingType := some x })
      (Json.nullable ContainingType.reader),
    .of "detail" true (·.detail) (fun x d => { d with detail := some x }) SymbolDetail.reader,
    .of "declared_in_source" true (·.declaredInSource)
      (fun x d => { d with declaredInSource := some x }) Json.boolean,
    .of "source_modifiers" true (·.sourceModifiers)
      (fun x d => { d with sourceModifiers := some x }) (Json.listOf Json.text)]
  blank := {}
  finish d := do
    let name ← Json.required "name" d.name
    let kind ← Json.required "kind" d.kind
    let accessibility ← Json.required "accessibility" d.accessibility
    return {
      name, kind, accessibility
      flags := d.flags.getD {}
      containingType := d.containingType.getD none
      detail := d.detail.getD .bare
      declaredInSource := d.declaredInSource.getD false
      sourceModifiers := d.sourceModifiers.getD [] }

/-- Reads a symbol. -/
def reader : Reader Symbol := record.reader

/-- Writes a symbol. -/
def toJson (s : Symbol) : Value :=
  .object [("name", .text s.name), ("kind", s.kind.toJson),
    ("accessibility", s.accessibility.toJson), ("flags", s.flags.toJson),
    ("containing_type", .ofOption ContainingType.toJson s.containingType),
    ("detail", s.detail.toJson), ("declared_in_source", .boolean s.declaredInSource),
    ("source_modifiers", .array (s.sourceModifiers.map .text))]

end Symbol

end ModifierFacts
