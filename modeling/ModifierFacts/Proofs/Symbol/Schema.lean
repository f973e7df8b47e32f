import ModifierFacts.Proofs.Json.Spaced
import ModifierFacts.Proofs.Symbol.Detail

/-!
# The documents that describe a symbol

Which JSON objects are read as a symbol, and as which one. Three fields must be there, all others
have a default, and no field may be there twice; how the members are ordered and what unknown
members there are makes no difference, neither for the symbol nor for its parts.

* `Symbol.schema`: the fields of a symbol, with their defaults; `Symbol.reads`: a sound tree is read
  as a symbol exactly if it describes the symbol;
* `Symbol.SameMembers`: members that are the same to a symbol, whatever their order and whatever
  unknown members there are, at every level;
* **`Symbol.decode_accepts`**: which documents are accepted, and what comes out.
-/

namespace ModifierFacts

open Json (Reader Record Node Members Place Schema Entry valuesOf)

namespace Symbol

/-! ## 1. Fields -/

/-- The fields of a symbol. -/
def places : List (Place Draft Symbol) := [
  ⟨.required "name" (·.name) Node.IsText, (·.name)⟩,
  ⟨.required "kind" (·.kind) SymbolKind.Describes, (·.kind)⟩,
  ⟨.required "accessibility" (·.accessibility) DeclaredAccessibility.Describes, (·.accessibility)⟩,
  ⟨.optional "flags" {} (·.flags) SymbolFlags.schema.Describes, (·.flags)⟩,
  ⟨.optional "containing_type" none (·.containingType)
    (Node.Nullable ContainingType.schema.Describes), (·.containingType)⟩,
  ⟨.optional "detail" .bare (·.detail) SymbolDetail.Describes, (·.detail)⟩,
  ⟨.optional "declared_in_source" false (·.declaredInSource) Node.IsBoolean, (·.declaredInSource)⟩,
  ⟨.optional "source_modifiers" [] (·.sourceModifiers) (Node.ListOf Node.IsText),
    (·.sourceModifiers)⟩]

/-- A symbol, as documents have it. -/
def schema : Schema Symbol := .ofPlaces places

theorem laid : record.Laid places where
  nodup := by decide
  fields := by
    have hcontaining :=
      Json.reads_nullable ContainingType.reads ContainingType.schema.not_describes_null
    refine .cons (.of Json.reads_text ?_ ?_) <| .cons (.of SymbolKind.reads ?_ ?_) <|
      .cons (.of DeclaredAccessibility.reads ?_ ?_) <| .cons (.of SymbolFlags.reads ?_ ?_) <|
      .cons (.of hcontaining ?_ ?_) <| .cons (.of SymbolDetail.reads ?_ ?_) <|
      .cons (.of Json.reads_boolean ?_ ?_) <|
      .cons (.of (Json.reads_listOf Json.reads_text) ?_ ?_) .nil <;>
    simp [places, Entry.required, Entry.optional]
  blank := by simp [places, record, Entry.required, Entry.optional]
  finish d s := by
    obtain ⟨_, _, _, _, _, _, _, _⟩ := s
    simp [places, record, Entry.required, Entry.optional, -bind_pure_comp,
      Json.except_bind_eq_ok_iff, Json.except_pure_eq_ok_iff, Json.required_eq_ok_iff,
      Option.getD_eq_iff]
  total d h := by
    obtain ⟨_ | name, _ | kind, _ | accessibility, _, _, _, _, _⟩ := d
    case some.some.some => exact ⟨_, rfl⟩
    all_goals simp [places, Entry.required, Entry.optional] at h

/-- **A symbol is read from exactly the trees that describe it.** -/
theorem reads : reader.Reads schema.Describes := laid.reads

theorem complete : schema.Complete := laid.complete

theorem takesNull : schema.TakesNull ["containing_type"] := by
  simp [Schema.TakesNull, schema, Schema.ofPlaces, places, Entry.required, Entry.optional,
    Node.IsText, Node.IsBoolean, SymbolKind.not_describes_null,
    DeclaredAccessibility.not_describes_null, Schema.not_describes_null,
    SymbolDetail.not_describes_null, Node.exists_nullable_null, Node.not_listOf_null]

/-! ## 2. Documents that differ in order or in unknown members -/

/-- Two values under a name that are the same to a symbol: within its flags, its containing type and
its detail, members may be in another order, and members with unknown names may differ. -/
inductive ValueAlike (key : String) : Node → Node → Prop where
  | same (v : Node) : ValueAlike key v v
  | flags {ms ms' : Members} (under : key = "flags")
    (inner : Json.AlikeMembers (fun _ => Eq) SymbolFlags.schema.names ms ms') :
    ValueAlike key (.object ms true) (.object ms' true)
  | containingType {ms ms' : Members} (under : key = "containing_type")
    (inner : Json.AlikeMembers (fun _ => Eq) ContainingType.schema.names ms ms') :
    ValueAlike key (.object ms true) (.object ms' true)
  | detail {ms ms' : Members} (under : key = "detail") (s : SymbolDetail.Shape)
    (tag : valuesOf "shape" ms = [.text s.tag])
    (inner : Json.AlikeMembers (fun _ => Eq) s.names ms ms') :
    ValueAlike key (.object ms true) (.object ms' true)

/-- **The members are the same to a symbol**, up to the order of members and up to members with
unknown names, at every level. -/
def SameMembers (ms ms' : Members) : Prop := Json.AlikeMembers ValueAlike schema.names ms ms'

section Parts

variable {ms ms' : Members} {e : Entry Symbol}

theorem describes_flags_congr (h : Json.AlikeMembers (fun _ => Eq) SymbolFlags.schema.names ms ms')
    (he : e ∈ schema) (hname : e.name = "flags") (b : e.β) :
    e.describes (.object ms true) b ↔ e.describes (.object ms' true) b := by
  have hflags := fun f => Schema.describes_object_congr h (a := f)
  have hall : ∀ e ∈ schema, e.name = "flags" → ∀ b,
      (e.describes (.object ms true) b ↔ e.describes (.object ms' true) b) := by
    simpa [schema, Schema.ofPlaces, places, Entry.required, Entry.optional] using hflags
  exact hall e he hname b

theorem describes_containingType_congr
    (h : Json.AlikeMembers (fun _ => Eq) ContainingType.schema.names ms ms') (he : e ∈ schema)
    (hname : e.name = "containing_type") (b : e.β) :
    e.describes (.object ms true) b ↔ e.describes (.object ms' true) b := by
  have htype := Node.nullable_congr Node.noConfusion Node.noConfusion fun t =>
    Schema.describes_object_congr h (a := t)
  have hall : ∀ e ∈ schema, e.name = "containing_type" → ∀ b,
      (e.describes (.object ms true) b ↔ e.describes (.object ms' true) b) := by
    simpa [schema, Schema.ofPlaces, places, Entry.required, Entry.optional] using htype
  exact hall e he hname b

theorem describes_detail_congr {s : SymbolDetail.Shape} (htag : valuesOf "shape" ms = [.text s.tag])
    (h : Json.AlikeMembers (fun _ => Eq) s.names ms ms') (he : e ∈ schema)
    (hname : e.name = "detail") (b : e.β) :
    e.describes (.object ms true) b ↔ e.describes (.object ms' true) b := by
  have hdetail : ∀ d, SymbolDetail.Describes (.object ms true) d ↔
      SymbolDetail.Describes (.object ms' true) d := by
    intro d
    rw [SymbolDetail.describes_object_iff, SymbolDetail.describes_object_iff]
    exact SymbolDetail.describedBy_congr_of_alike htag h d
  have hall : ∀ e ∈ schema, e.name = "detail" → ∀ b,
      (e.describes (.object ms true) b ↔ e.describes (.object ms' true) b) := by
    simpa [schema, Schema.ofPlaces, places, Entry.required, Entry.optional] using hdetail
  exact hall e he hname b

end Parts

/-- **Members that are the same to a symbol describe the same symbols.** -/
theorem describedBy_congr_of_same {ms ms' : Members} (h : SameMembers ms ms') (s : Symbol) :
    schema.DescribedBy ms s ↔ schema.DescribedBy ms' s := by
  refine Schema.describedBy_congr_of_alike (fun e he v v' b hv => ?_) h
  cases hv with
  | same => exact Iff.rfl
  | flags under inner => exact describes_flags_congr inner he under b
  | containingType under inner => exact describes_containingType_congr inner he under b
  | detail under s tag inner => exact describes_detail_congr tag inner he under b

/-! ## 3. Decoding -/

theorem accepts_iff {ms : Members} : schema.Accepts ms ↔
    (∀ n ∈ ["name", "kind", "accessibility"], (valuesOf n ms).length = 1) ∧
    (∀ n ∈ ["flags", "containing_type", "detail", "declared_in_source", "source_modifiers"],
      (valuesOf n ms).length ≤ 1) ∧
    ∀ e ∈ schema, ∀ v ∈ valuesOf e.name ms, ∃ b, e.describes v b := by
  have hcounts : (∀ e ∈ schema, (e.default? = none → (valuesOf e.name ms).length = 1) ∧
        (valuesOf e.name ms).length ≤ 1) ↔
      (∀ n ∈ ["name", "kind", "accessibility"], (valuesOf n ms).length = 1) ∧
      ∀ n ∈ ["flags", "containing_type", "detail", "declared_in_source", "source_modifiers"],
        (valuesOf n ms).length ≤ 1 := by
    simp [schema, Schema.ofPlaces, places, Entry.required, Entry.optional]
    omega
  rw [← and_assoc, ← hcounts]
  unfold Schema.Accepts
  simp only [← and_assoc, forall_and]

/-- **Which documents are decoded as a symbol, and as which one.** For an object document within the
limits:

* it is accepted exactly if name, kind and accessibility occur once and the other fields at most
  once, each with a value of its type, where flags, containing types and details go by the same
  rule;
* the symbol takes each field from its member, or its default;
* among the values of fields, `null` is accepted for `containing_type` and for the `type_kind` of a
  containing type only;
* the order of members and members with unknown names make no difference, at any level. -/
theorem decode_accepts {text : String} {members : Members}
    (hread : Json.Document.read text = ⟨.object members true, true⟩)
    (hsound : (Node.object members true).isSound Json.nesting = true) :
    ((∃ s, Json.decode reader text = .ok s) ↔
      (∀ n ∈ ["name", "kind", "accessibility"], (valuesOf n members).length = 1) ∧
      (∀ n ∈ ["flags", "containing_type", "detail", "declared_in_source", "source_modifiers"],
        (valuesOf n members).length ≤ 1) ∧
      ∀ e ∈ schema, ∀ v ∈ valuesOf e.name members, ∃ b, e.describes v b) ∧
    ((∀ v, (∃ f, SymbolFlags.schema.Describes v f) ↔
        ∃ ms, v.Gives SymbolFlags.schema.names ms ∧ SymbolFlags.schema.Accepts ms) ∧
      (∀ v, (∃ t, ContainingType.schema.Describes v t) ↔
        ∃ ms, v.Gives ContainingType.schema.names ms ∧ ContainingType.schema.Accepts ms) ∧
      ∀ v, (∃ d, SymbolDetail.Describes v d) ↔ ∃ s : SymbolDetail.Shape, ∃ ms,
        v.Gives s.names ms ∧ valuesOf "shape" ms = [.text s.tag] ∧ s.Accepts ms) ∧
    (∀ s, Json.decode reader text = .ok s ↔ schema.DescribedBy members s) ∧
    (schema.TakesNull ["containing_type"] ∧ ContainingType.schema.TakesNull ["type_kind"] ∧
      SymbolFlags.schema.TakesNull [] ∧ NamedTypeDetail.schema.TakesNull [] ∧
      FieldDetail.schema.TakesNull [] ∧ MethodDetail.schema.TakesNull []) ∧
    ∀ (text' : String) (members' : Members),
      Json.Document.read text' = ⟨.object members' true, true⟩ →
      (Node.object members' true).isSound Json.nesting = true → SameMembers members members' →
      ∀ s, Json.decode reader text = .ok s ↔ Json.decode reader text' = .ok s := by
  have hdecode {text : String} {members : Members}
      (hread : Json.Document.read text = ⟨.object members true, true⟩)
      (hsound : (Node.object members true).isSound Json.nesting = true) (s : Symbol) :
      Json.decode reader text = .ok s ↔ schema.DescribedBy members s := by
    rw [reads.decode hread hsound, Schema.describes_object_iff]
  refine ⟨?accepted, ⟨fun v => SymbolFlags.complete.exists_describes_iff,
    fun v => ContainingType.complete.exists_describes_iff,
    fun v => SymbolDetail.exists_describes_iff⟩, hdecode hread hsound,
    ⟨takesNull, ContainingType.takesNull, SymbolFlags.takesNull, NamedTypeDetail.takesNull,
      FieldDetail.takesNull, MethodDetail.takesNull⟩, ?rearranged⟩
  case accepted =>
    rw [← accepts_iff, ← complete.exists_describedBy_iff]
    exact exists_congr (hdecode hread hsound)
  case rearranged =>
    intro text' members' hread' hsound' hsame s
    rw [hdecode hread hsound, hdecode hread' hsound', describedBy_congr_of_same hsame]

/-- A document over several lines with its members in an odd order, and one without blanks and
without the unknown members. The detail has its tag last, the flags are an array, and `null` stands
for no containing type. -/
theorem decode_accepts_rearranged :
    let inner : List (String × Json.Value) := [("is_ref_like", .boolean true),
      ("extra", .array [.natural 1]), ("type_kind", .object [("struct", .null)]),
      ("shape", .text "named_type")]
    let inner' : List (String × Json.Value) := [("shape", .text "named_type"),
      ("type_kind", .object [("struct", .null)]), ("is_ref_like", .boolean true)]
    let members : List (String × Json.Value) := [("detail", .object inner), ("note", .null),
      ("accessibility", .text "public"), ("flags", .array [.boolean true]),
      ("kind", .text "gadget"), ("containing_type", .null), ("name", .text "S")]
    let members' : List (String × Json.Value) := [("name", .text "S"), ("containing_type", .null),
      ("kind", .text "gadget"), ("flags", .array [.boolean true]),
      ("accessibility", .text "public"), ("detail", .object inner')]
    let s : Symbol := ⟨"S", .other, .known .publicAccess, { isAbstract := true }, none,
      .namedType ⟨.structType, false, true⟩, false, []⟩
    SameMembers (Json.memberNodes members) (Json.memberNodes members') ∧
      Json.decode reader ((Json.Value.object members).pretty ++ "\t\r\n ") = .ok s ∧
      Json.decode reader (Json.Value.object members').toText = .ok s := by
  intro inner inner' members members' s
  have hinner : Json.AlikeMembers (fun _ => Eq) SymbolDetail.Shape.namedType.names
      (Json.memberNodes inner) (Json.memberNodes inner') := by
    refine ⟨_, (List.reverse_perm _).symm, ?_⟩
    have hreverse :
        (Json.known SymbolDetail.Shape.namedType.names (Json.memberNodes inner)).reverse =
          Json.known SymbolDetail.Shape.namedType.names (Json.memberNodes inner') := by rfl
    rw [hreverse, List.forall₂_same]
    exact fun _ _ => ⟨rfl, fun _ _ => rfl⟩
  have hsame : SameMembers (Json.memberNodes members) (Json.memberNodes members') := by
    refine ⟨_, (List.reverse_perm _).symm, ?_⟩
    have hsame (m : Option String × Node) :
        m.1 = m.1 ∧ ∀ key, m.1 = some key → ValueAlike key m.2 m.2 :=
      ⟨rfl, fun key _ => .same m.2⟩
    refine .cons (hsame _) <| .cons (hsame _) <| .cons (hsame _) <| .cons (hsame _) <|
      .cons (hsame _) <| .cons ⟨rfl, fun key hkey => ?_⟩ .nil
    exact .detail (Option.some.inj hkey).symm .namedType rfl hinner
  have hfits : (Json.Value.object members).FitsWords := by
    simp [members, inner, Json.MembersFitWords, Json.ItemsFitWords, Json.Value.FitsWords,
      Json.wordLimit]
  have hfits' : (Json.Value.object members').FitsWords := by
    simp [members', inner', Json.MembersFitWords, Json.ItemsFitWords, Json.Value.FitsWords]
  have hread : Json.Document.read ((Json.Value.object members).pretty ++ "\t\r\n ") =
      ⟨.object (Json.memberNodes members) true, true⟩ :=
    Json.Value.read_pretty hfits ['\t', '\r', '\n', ' '] (by simp [Json.isBlank])
  have hdecode' : Json.decode reader (Json.Value.object members').toText = .ok s :=
    Json.decode_toText hfits' (by rfl)
  have hrearranged := (decode_accepts hread (by rfl)).2.2.2.2
  exact ⟨hsame,
    (hrearranged _ _ (Json.Value.read_toText hfits') (by rfl) hsame s).mpr hdecode', hdecode'⟩

end Symbol

end ModifierFacts
