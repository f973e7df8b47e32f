import ModifierFacts.Proofs.Json.Layout
import ModifierFacts.Proofs.Symbol.ReadBack

/-!
# The documents that describe the parts of a symbol

For each part of a symbol that is a name or a record, the trees that describe it, and that its
reader accepts exactly these.

* `SymbolKind.Describes`, `TypeKind.Describes`, `DeclaredAccessibility.Describes`: names;
* `SymbolFlags.schema`, `NamedTypeDetail.schema`, `FieldDetail.schema`, `MethodDetail.schema`,
  `ContainingType.schema`: the fields of each record, with their defaults;
* `SymbolKind.reads` and so on: each is read from exactly the trees that describe it, and the `laid`
  lemmas say so of the details.
-/

namespace ModifierFacts

open Json (Reader Record Node Place Schema Entry)

/-! ## 1. Names -/

namespace SymbolKind

/-- A kind is named by its tag, and `other` also by every name that is no tag. -/
def Describes (v : Node) (k : SymbolKind) : Prop :=
  ∃ name, v.Names name ∧ (k.tag = name ∨ k = .other ∧ ∀ k' : SymbolKind, k'.tag ≠ name)

theorem reads : reader.Reads Describes := by
  have hvariant : reader.Reads _ :=
    Json.reads_variant (all.map fun k : SymbolKind => (k.tag, k)) (some .other)
  refine hvariant.congr fun v k => exists_congr fun name => ?_
  rw [Json.named_other_eq_ok_iff nodup_tags mem_all]

theorem not_describes_null (k : SymbolKind) : ¬ Describes .null k := by
  rintro ⟨name, hnames, -⟩
  cases hnames

end SymbolKind

namespace TypeKind

/-- A kind of type is named by its tag. -/
def Describes (v : Node) (k : TypeKind) : Prop := v.Names k.tag

theorem named_iff {name : String} {k : TypeKind} :
    Json.named tagged none name = .ok k ↔ k.tag = name :=
  Json.named_eq_ok_iff nodup_tags mem_all

theorem reads : reader.Reads Describes := by
  have hvariant : reader.Reads _ := Json.reads_variant tagged none
  refine hvariant.congr fun v k => ?_
  constructor
  · rintro ⟨name, hnames, hnamed⟩
    rw [← named_iff.mp hnamed] at hnames
    exact hnames
  · intro hnames
    exact ⟨k.tag, hnames, named_iff.mpr rfl⟩

theorem not_describes_null (k : TypeKind) : ¬ Describes .null k := by
  intro hnames
  cases hnames

end TypeKind

namespace DeclaredAccessibility

/-- An accessibility is what a text stands for, be it a level or not. -/
def Describes (v : Node) (a : DeclaredAccessibility) : Prop :=
  ∃ word, v.IsText word ∧ ofText word = a

theorem reads : reader.Reads Describes := Json.reads_text.map ofText

theorem not_describes_null (a : DeclaredAccessibility) : ¬ Describes .null a := by
  rintro ⟨word, hword, -⟩
  cases hword

end DeclaredAccessibility

/-! ## 2. Flags -/

namespace SymbolFlags

/-- The fields of flags. -/
def places : List (Place Draft SymbolFlags) := [
  ⟨.optional "is_abstract" false (·.isAbstract) Node.IsBoolean, (·.isAbstract)⟩,
  ⟨.optional "is_sealed" false (·.isSealed) Node.IsBoolean, (·.isSealed)⟩,
  ⟨.optional "is_static" false (·.isStatic) Node.IsBoolean, (·.isStatic)⟩,
  ⟨.optional "is_virtual" false (·.isVirtual) Node.IsBoolean, (·.isVirtual)⟩,
  ⟨.optional "is_override" false (·.isOverride) Node.IsBoolean, (·.isOverride)⟩,
  ⟨.optional "is_extern" false (·.isExtern) Node.IsBoolean, (·.isExtern)⟩]

/-- Flags, as documents have them. -/
def schema : Schema SymbolFlags := .ofPlaces places

theorem laid : record.Laid places where
  nodup := by decide
  fields := by
    refine .cons (.of Json.reads_boolean ?_ ?_) <| .cons (.of Json.reads_boolean ?_ ?_) <|
      .cons (.of Json.reads_boolean ?_ ?_) <| .cons (.of Json.reads_boolean ?_ ?_) <|
      .cons (.of Json.reads_boolean ?_ ?_) <| .cons (.of Json.reads_boolean ?_ ?_) .nil <;>
    simp [places, Entry.optional]
  blank := by simp [places, record, Entry.optional]
  finish d f := by
    obtain ⟨_, _, _, _, _, _⟩ := f
    simp [places, record, Entry.optional, Option.getD_eq_iff]
  total _ _ := ⟨_, rfl⟩

theorem reads : reader.Reads schema.Describes := laid.reads

theorem complete : schema.Complete := laid.complete

theorem takesNull : schema.TakesNull [] := by
  simp [Schema.TakesNull, schema, Schema.ofPlaces, places, Entry.optional, Node.IsBoolean]

end SymbolFlags

/-! ## 3. Details of one shape -/

namespace NamedTypeDetail

/-- A kind of type inside a detail is named by its tag; under a name, an empty object stands for
`null`. -/
inductive KindDescribed : Node → TypeKind → Prop where
  | named {v : Node} {k : TypeKind} (names : k.Describes v) : KindDescribed v k
  | empty (k : TypeKind) : KindDescribed (.object [(some k.tag, .object [] true)] true) k

/-- The fields of a named type's detail. -/
def places : List (Place Draft NamedTypeDetail) := [
  ⟨.required "type_kind" (·.typeKind) KindDescribed, (·.typeKind)⟩,
  ⟨.optional "is_read_only" false (·.isReadOnly) Node.IsBoolean, (·.isReadOnly)⟩,
  ⟨.optional "is_ref_like" false (·.isRefLike) Node.IsBoolean, (·.isRefLike)⟩]

/-- A named type's detail, as documents have it. -/
def schema : Schema NamedTypeDetail := .ofPlaces places

theorem reads_kind : (SymbolDetail.soundVariant TypeKind.tagged).Reads KindDescribed := by
  intro room v k hv
  constructor
  · intro hread
    unfold SymbolDetail.soundVariant at hread
    split at hread
    · rw [← TypeKind.named_iff.mp hread]
      exact .named .bare
    · rename_i name payload closed
      obtain ⟨k', hnamed, hread⟩ := Json.except_bind_eq_ok hread
      rw [← TypeKind.named_iff.mp hnamed] at hv ⊢
      cases room with
      | zero => cases hv
      | succ room =>
        rw [Node.isSound_object_iff, List.forall_mem_singleton] at hv
        obtain ⟨⟨-, hpayload⟩, rfl⟩ := hv
        split at hread
        · cases hread
          exact .named .keyed
        · cases hread
          cases room with
          | zero => cases hpayload
          | succ room =>
            obtain ⟨-, rfl⟩ := Node.isSound_object_iff.mp hpayload
            exact .empty k
        · exact absurd hread Json.unexpected_ne_ok
    · cases hread
    · exact absurd hread Json.unexpected_ne_ok
  · have hnamed := TypeKind.named_iff.mpr (rfl : k.tag = k.tag)
    intro hform
    unfold SymbolDetail.soundVariant
    cases hform with
    | named names =>
      cases names with
      | bare => exact hnamed
      | keyed => simp [hnamed]
    | empty => simp [hnamed]

theorem not_kindDescribed_null (k : TypeKind) : ¬ KindDescribed .null k := by
  intro hform
  cases hform with
  | named names => exact k.not_describes_null names

theorem laid : SymbolDetail.namedTypeRecord.Laid places where
  nodup := by decide
  fields := by
    refine .cons (.of reads_kind ?_ ?_) <| .cons (.of Json.reads_boolean ?_ ?_) <|
      .cons (.of Json.reads_boolean ?_ ?_) .nil <;>
    simp [places, Entry.required, Entry.optional]
  blank := by
    simp [places, SymbolDetail.namedTypeRecord, record, Entry.required, Entry.optional]
  finish d a := by
    obtain ⟨_, _, _⟩ := a
    simp [places, SymbolDetail.namedTypeRecord, record, Entry.required, Entry.optional,
      -bind_pure_comp, Json.except_bind_eq_ok_iff, Json.except_pure_eq_ok_iff,
      Json.required_eq_ok_iff, Option.getD_eq_iff]
  total d h := by
    obtain ⟨_ | k, _, _⟩ := d
    · simp [places, Entry.required, Entry.optional] at h
    · exact ⟨_, rfl⟩

theorem complete : schema.Complete := laid.complete

theorem takesNull : schema.TakesNull [] := by
  simp [Schema.TakesNull, schema, Schema.ofPlaces, places, Entry.required, Entry.optional,
    Node.IsBoolean, not_kindDescribed_null]

end NamedTypeDetail

namespace FieldDetail

/-- The fields of a field's detail. -/
def places : List (Place Draft FieldDetail) := [
  ⟨.optional "is_const" false (·.isConst) Node.IsBoolean, (·.isConst)⟩,
  ⟨.optional "is_read_only" false (·.isReadOnly) Node.IsBoolean, (·.isReadOnly)⟩]

/-- A field's detail, as documents have it. -/
def schema : Schema FieldDetail := .ofPlaces places

theorem laid : record.Laid places where
  nodup := by decide
  fields := by
    refine .cons (.of Json.reads_boolean ?_ ?_) <| .cons (.of Json.reads_boolean ?_ ?_) .nil <;>
    simp [places, Entry.optional]
  blank := by simp [places, record, Entry.optional]
  finish d a := by
    obtain ⟨_, _⟩ := a
    simp [places, record, Entry.optional, Option.getD_eq_iff]
  total _ _ := ⟨_, rfl⟩

theorem complete : schema.Complete := laid.complete

theorem takesNull : schema.TakesNull [] := by
  simp [Schema.TakesNull, schema, Schema.ofPlaces, places, Entry.optional, Node.IsBoolean]

end FieldDetail

namespace MethodDetail

/-- The fields of a method's detail. -/
def places : List (Place Draft MethodDetail) := [
  ⟨.optional "is_async" false (·.isAsync) Node.IsBoolean, (·.isAsync)⟩]

/-- A method's detail, as documents have it. -/
def schema : Schema MethodDetail := .ofPlaces places

theorem laid : record.Laid places where
  nodup := by decide
  fields := by
    refine .cons (.of Json.reads_boolean ?_ ?_) .nil <;> simp [places, Entry.optional]
  blank := by simp [places, record, Entry.optional]
  finish d a := by
    obtain ⟨_⟩ := a
    simp [places, record, Entry.optional, Option.getD_eq_iff]
  total _ _ := ⟨_, rfl⟩

theorem complete : schema.Complete := laid.complete

theorem takesNull : schema.TakesNull [] := by
  simp [Schema.TakesNull, schema, Schema.ofPlaces, places, Entry.optional, Node.IsBoolean]

end MethodDetail

/-! ## 4. Containing types -/

namespace ContainingType

/-- The fields of a containing type. -/
def places : List (Place Draft ContainingType) := [
  ⟨.required "kind" (·.kind) SymbolKind.Describes, (·.kind)⟩,
  ⟨.optional "type_kind" none (·.typeKind) (Node.Nullable TypeKind.Describes), (·.typeKind)⟩]

/-- A containing type, as documents have it. -/
def schema : Schema ContainingType := .ofPlaces places

theorem laid : record.Laid places where
  nodup := by decide
  fields := by
    have htypeKind := Json.reads_nullable TypeKind.reads TypeKind.not_describes_null
    refine .cons (.of SymbolKind.reads ?_ ?_) <| .cons (.of htypeKind ?_ ?_) .nil <;>
    simp [places, Entry.required, Entry.optional]
  blank := by simp [places, record, Entry.required, Entry.optional]
  finish d t := by
    obtain ⟨_, _⟩ := t
    simp [places, record, Entry.required, Entry.optional, -bind_pure_comp,
      Json.except_bind_eq_ok_iff, Json.except_pure_eq_ok_iff, Json.required_eq_ok_iff,
      Option.getD_eq_iff]
  total d h := by
    obtain ⟨_ | k, _⟩ := d
    · simp [places, Entry.required, Entry.optional] at h
    · exact ⟨_, rfl⟩

theorem reads : reader.Reads schema.Describes := laid.reads

theorem complete : schema.Complete := laid.complete

theorem takesNull : schema.TakesNull ["type_kind"] := by
  simp [Schema.TakesNull, schema, Schema.ofPlaces, places, Entry.required, Entry.optional,
    SymbolKind.not_describes_null, Node.exists_nullable_null]

end ContainingType

end ModifierFacts
