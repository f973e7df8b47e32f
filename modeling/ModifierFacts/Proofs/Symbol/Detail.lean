import ModifierFacts.Proofs.Symbol.Parts

/-!
# The documents that describe a detail

A detail carries the name of its shape among its own members, and which fields the other members are
read into depends on it. The tag may stand anywhere, so a reader has to look for it first.

* `SymbolDetail.Shape.tag`, `SymbolDetail.Shape.names`: what a shape is called, and the names that
  it knows;
* `SymbolDetail.DescribedBy`, `SymbolDetail.Describes`: members, or trees, that describe a detail;
* `findShape_none_iff`: the shape is what the only member under `shape` says;
* `ofMembers_iff`, `ofItems_iff`: the fields are read as those of the shape;
* **`SymbolDetail.reads`**: a detail is read from exactly the trees that describe it.
-/

namespace ModifierFacts

open Json (Reader Record Node Members Place Schema valuesOf)

namespace SymbolDetail

/-! ## 1. Shapes and what describes them -/

/-- What a shape is called. -/
def Shape.tag : Shape → String
  | namedType => "named_type"
  | field => "field"
  | method => "method"
  | bare => "opaque"

/-- The names of the fields of a shape. -/
def Shape.fieldNames : Shape → List String
  | namedType => NamedTypeDetail.schema.names
  | field => FieldDetail.schema.names
  | method => MethodDetail.schema.names
  | bare => []

/-- The names that a detail of a shape knows, its tag first. -/
def Shape.names (s : Shape) : List String := "shape" :: s.fieldNames

/-- The shape of a detail. -/
def shape : SymbolDetail → Shape
  | namedType _ => .namedType
  | field _ => .field
  | method _ => .method
  | bare => .bare

/-- The members describe the fields of the detail, whatever they say of its shape. -/
def FieldsDescribedBy (ms : Members) : SymbolDetail → Prop
  | namedType d => NamedTypeDetail.schema.DescribedBy ms d
  | field d => FieldDetail.schema.DescribedBy ms d
  | method d => MethodDetail.schema.DescribedBy ms d
  | bare => True

/-- **The members describe the detail**: one text says its shape, and the other members are read by
that. -/
structure DescribedBy (ms : Members) (d : SymbolDetail) : Prop where
  tag : valuesOf "shape" ms = [.text d.shape.tag]
  fields : d.FieldsDescribedBy ms

/-- **The tree describes the detail**, by the members that it gives for the tag and the fields. -/
def Describes (v : Node) (d : SymbolDetail) : Prop :=
  ∃ ms, v.Gives d.shape.names ms ∧ DescribedBy ms d

theorem describes_object_iff {ms : Members} {d : SymbolDetail} :
    Describes (.object ms true) d ↔ DescribedBy ms d := by
  simp [Describes, Node.gives_object_iff]

theorem describes_array_iff {items : List Node} {d : SymbolDetail} :
    Describes (.array items true) d ↔ items.length ≤ d.shape.names.length ∧
      DescribedBy ((d.shape.names.map some).zip items) d := by
  simp [Describes, Node.gives_array_iff, and_assoc]

/-! ## 2. The tag -/

namespace Shape

/-- All shapes. -/
def all : List Shape := [namedType, field, method, bare]

theorem nodup_tags : (all.map tag).Nodup := by decide

theorem tag_injective {s s' : Shape} (h : s.tag = s'.tag) : s = s' := by
  cases s <;> cases s' <;> first | rfl | exact absurd h (by decide)

theorem mem_all (s : Shape) : s ∈ all := by cases s <;> decide

theorem shape_notMem_fieldNames (s : Shape) : "shape" ∉ s.fieldNames := by cases s <;> decide

end Shape

theorem shapeOf_eq_ok_iff {v : Node} {s : Shape} : shapeOf v = .ok s ↔ v = .text s.tag := by
  cases v with
  | text word =>
    have hnamed : shapeOf (.text word) = .ok s ↔ s.tag = word :=
      Json.named_eq_ok_iff Shape.nodup_tags Shape.mem_all
    rw [hnamed, Node.text.injEq, eq_comm]
  | _ =>
    constructor
    · intro hread
      exact absurd hread Json.unexpected_ne_ok
    · intro hform
      cases hform

/-- Among sound members, a tag that was found stays the only one. -/
theorem findShape_some_iff {room : Nat} {ms : Members}
    (hms : ∀ m ∈ ms, m.1.isSome = true ∧ m.2.isSound room = true) {s : Shape} {o : Option Shape} :
    findShape room (some s) ms = .ok o ↔ valuesOf "shape" ms = [] ∧ o = some s := by
  induction ms with
  | nil =>
    constructor
    · intro h
      exact ⟨rfl, (Except.ok.inj h).symm⟩
    · rintro ⟨-, rfl⟩
      rfl
  | cons m ms ih =>
    rw [List.forall_mem_cons] at hms
    obtain ⟨⟨hkey, hv⟩, hms⟩ := hms
    obtain ⟨⟨⟩ | key, v⟩ := m
    · cases hkey
    by_cases hshape : key = "shape"
    · subst hshape
      rw [findShape, if_pos rfl, Json.valuesOf_cons_self]
      simp
    · have hne : some key ≠ some "shape" := by simpa using hshape
      rw [findShape, if_neg hshape, if_pos hv, Json.valuesOf_cons_of_ne hne, ih hms]

/-- Among sound members, a shape is found exactly if it is what the only tag says. -/
theorem findShape_none_iff {room : Nat} {ms : Members}
    (hms : ∀ m ∈ ms, m.1.isSome = true ∧ m.2.isSound room = true) {s : Shape} :
    findShape room none ms = .ok (some s) ↔ valuesOf "shape" ms = [.text s.tag] := by
  induction ms with
  | nil =>
    constructor
    · intro h
      cases h
    · intro h
      cases h
  | cons m ms ih =>
    rw [List.forall_mem_cons] at hms
    obtain ⟨⟨hkey, hv⟩, hms⟩ := hms
    obtain ⟨⟨⟩ | key, v⟩ := m
    · cases hkey
    by_cases hshape : key = "shape"
    · subst hshape
      have hfind : findShape room none ((some "shape", v) :: ms) =
          (shapeOf v >>= fun s' => findShape room (some s') ms) := by
        rw [findShape, if_pos rfl]
      rw [hfind, Json.except_bind_eq_ok_iff, Json.valuesOf_cons_self, List.cons.injEq]
      constructor
      · rintro ⟨s', hs', hrest⟩
        obtain ⟨hnone, hsame⟩ := (findShape_some_iff hms).mp hrest
        cases hsame
        exact ⟨shapeOf_eq_ok_iff.mp hs', hnone⟩
      · rintro ⟨hv, hnone⟩
        exact ⟨s, shapeOf_eq_ok_iff.mpr hv, (findShape_some_iff hms).mpr ⟨hnone, rfl⟩⟩
    · have hne : some key ≠ some "shape" := by simpa using hshape
      rw [findShape, if_neg hshape, if_pos hv, Json.valuesOf_cons_of_ne hne, ih hms]

/-! ## 3. The fields -/

theorem fieldsDescribedBy_congr {ms ms' : Members} {d : SymbolDetail}
    (h : ∀ n ∈ d.shape.fieldNames, (valuesOf n ms).Perm (valuesOf n ms')) :
    d.FieldsDescribedBy ms ↔ d.FieldsDescribedBy ms' := by
  cases d with
  | namedType d => exact Schema.describedBy_congr_of_values h
  | field d => exact Schema.describedBy_congr_of_values h
  | method d => exact Schema.describedBy_congr_of_values h
  | bare => exact Iff.rfl

theorem fromMembers_iff {δ α : Type} {r : Record δ α} {ps : List (Place δ α)} (h : r.Laid ps)
    {room : Nat} {ms : Members} (hms : ∀ m ∈ ms, m.1.isSome = true ∧ m.2.isSound room = true)
    {a : α} : fromMembers r room ms = .ok a ↔ (Schema.ofPlaces ps).DescribedBy ms a := by
  rw [← h.ofMembers_iff hms]
  exact Json.except_bind_eq_ok_iff

theorem fromItems_iff {δ α : Type} {r : Record δ α} {ps : List (Place δ α)} (h : r.Laid ps)
    {room : Nat} {items : List Node} (hitems : ∀ v ∈ items, v.isSound room = true) {a : α} :
    fromItems r room items = .ok a ↔ items.length ≤ (Schema.ofPlaces ps).names.length ∧
      (Schema.ofPlaces ps).DescribedBy (((Schema.ofPlaces ps).names.map some).zip items) a := by
  rw [← h.ofItems_iff hitems]
  exact Json.except_bind_eq_ok_iff

/-- A detail of a given shape is read out of the members that describe its fields. -/
theorem ofMembers_iff {room : Nat} {ms : Members}
    (hms : ∀ m ∈ ms, m.1.isSome = true ∧ m.2.isSound room = true) {s : Shape} {d : SymbolDetail} :
    ofMembers room ms s = .ok d ↔ d.shape = s ∧ d.FieldsDescribedBy ms := by
  cases s with
  | namedType =>
    rw [ofMembers, Json.except_map_eq_ok_iff]
    simp only [fromMembers_iff NamedTypeDetail.laid hms]
    cases d <;> simp [shape, FieldsDescribedBy, NamedTypeDetail.schema]
  | field =>
    rw [ofMembers, Json.except_map_eq_ok_iff]
    simp only [fromMembers_iff FieldDetail.laid hms]
    cases d <;> simp [shape, FieldsDescribedBy, FieldDetail.schema]
  | method =>
    rw [ofMembers, Json.except_map_eq_ok_iff]
    simp only [fromMembers_iff MethodDetail.laid hms]
    cases d <;> simp [shape, FieldsDescribedBy, MethodDetail.schema]
  | bare =>
    rw [ofMembers]
    cases d <;> simp [shape, FieldsDescribedBy]

/-- A detail of a given shape is read out of the items that, under the names of its fields, describe
them. -/
theorem ofItems_iff {room : Nat} {items : List Node}
    (hitems : ∀ v ∈ items, v.isSound room = true) {s : Shape} {d : SymbolDetail} :
    ofItems room items s = .ok d ↔ d.shape = s ∧ items.length ≤ s.fieldNames.length ∧
      d.FieldsDescribedBy ((s.fieldNames.map some).zip items) := by
  cases s with
  | namedType =>
    rw [ofItems, Json.except_map_eq_ok_iff]
    simp only [fromItems_iff NamedTypeDetail.laid hitems]
    cases d <;> simp [shape, FieldsDescribedBy, Shape.fieldNames, NamedTypeDetail.schema]
  | field =>
    rw [ofItems, Json.except_map_eq_ok_iff]
    simp only [fromItems_iff FieldDetail.laid hitems]
    cases d <;> simp [shape, FieldsDescribedBy, Shape.fieldNames, FieldDetail.schema]
  | method =>
    rw [ofItems, Json.except_map_eq_ok_iff]
    simp only [fromItems_iff MethodDetail.laid hitems]
    cases d <;> simp [shape, FieldsDescribedBy, Shape.fieldNames, MethodDetail.schema]
  | bare =>
    rw [ofItems]
    cases items <;> cases d <;> simp [shape, FieldsDescribedBy, Shape.fieldNames]

/-! ## 4. Details -/

/-- The members after the tag are those of the fields. -/
theorem valuesOf_untagged {n : String} (hn : n ≠ "shape") (ms : Members) :
    valuesOf n (ms.filter (·.1 != some "shape")) = valuesOf n ms := by
  unfold valuesOf
  rw [List.filter_filter]
  congr 2
  funext m
  by_cases hm : m.1 = some n
  · simp [hm, hn]
  · simp [hm]

/-- Items describe a detail if the first one is its tag and the others describe its fields. -/
theorem describedBy_cons_iff (tag : Node) (items : List Node) (d : SymbolDetail) :
    DescribedBy ((some "shape", tag) :: (d.shape.fieldNames.map some).zip items) d ↔
      tag = .text d.shape.tag ∧ d.FieldsDescribedBy ((d.shape.fieldNames.map some).zip items) := by
  have hnotMem := d.shape.shape_notMem_fieldNames
  have hfields :
      d.FieldsDescribedBy ((some "shape", tag) :: (d.shape.fieldNames.map some).zip items) ↔
        d.FieldsDescribedBy ((d.shape.fieldNames.map some).zip items) := by
    refine fieldsDescribedBy_congr fun n hn => ?_
    have hne : some "shape" ≠ some n := fun h => hnotMem (Option.some.inj h ▸ hn)
    rw [Json.valuesOf_cons_of_ne hne]
  rw [← hfields]
  constructor
  · rintro ⟨htag, hdescribed⟩
    rw [Json.valuesOf_cons_self, List.cons.injEq] at htag
    exact ⟨htag.1, hdescribed⟩
  · rintro ⟨rfl, hdescribed⟩
    refine ⟨?_, hdescribed⟩
    rw [Json.valuesOf_cons_self, Json.valuesOf_zip_of_notMem hnotMem]

/-- **A detail is read from exactly the trees that describe it**, wherever its tag stands. -/
theorem reads : reader.Reads Describes := by
  intro room v d hv
  cases v with
  | object ms closed =>
    cases room with
    | zero => cases hv
    | succ room =>
      rw [Node.isSound_object_iff] at hv
      obtain ⟨hms, rfl⟩ := hv
      have hfields : (d.FieldsDescribedBy (ms.filter (·.1 != some "shape"))) ↔
          d.FieldsDescribedBy ms := by
        refine fieldsDescribedBy_congr fun n hn => ?_
        have hne : n ≠ "shape" := fun h => d.shape.shape_notMem_fieldNames (h ▸ hn)
        rw [valuesOf_untagged hne]
      have hrest : ∀ m ∈ ms.filter (·.1 != some "shape"),
          m.1.isSome = true ∧ m.2.isSound room = true :=
        fun m hm => hms m (List.mem_of_mem_filter hm)
      rw [describes_object_iff]
      constructor
      · intro hread
        obtain ⟨o, hfind, hread⟩ := Json.except_bind_eq_ok hread
        cases o with
        | none => cases hread
        | some s =>
          obtain ⟨rfl, hdescribed⟩ := (ofMembers_iff hrest).mp hread
          exact ⟨(findShape_none_iff hms).mp hfind, hfields.mp hdescribed⟩
      · rintro ⟨htag, hdescribed⟩
        have hread := (ofMembers_iff hrest).mpr ⟨rfl, hfields.mpr hdescribed⟩
        rw [reader, (findShape_none_iff hms).mpr htag]
        exact hread
  | array items closed =>
    cases room with
    | zero => cases hv
    | succ room =>
      rw [Node.isSound_array_iff] at hv
      obtain ⟨hitems, rfl⟩ := hv
      rw [describes_array_iff]
      cases items with
      | nil =>
        constructor
        · intro hread
          cases hread
        · rintro ⟨-, htag, -⟩
          cases htag
      | cons tag items =>
        rw [List.forall_mem_cons] at hitems
        have hread : reader (room + 1) (.array (tag :: items) true) =
            (shapeOf tag >>= fun s => ofItems room items s) := by
          rw [reader, Json.areSound_iff.mpr hitems.2]
          rfl
        rw [hread, Json.except_bind_eq_ok_iff]
        constructor
        · rintro ⟨s, htag, hread⟩
          obtain ⟨rfl, hlength, hdescribed⟩ := (ofItems_iff hitems.2).mp hread
          rw [shapeOf_eq_ok_iff] at htag
          subst htag
          have hall := (describedBy_cons_iff _ items d).mpr ⟨rfl, hdescribed⟩
          exact ⟨Nat.succ_le_succ hlength, hall⟩
        · rintro ⟨hlength, hall⟩
          obtain ⟨htag, hdescribed⟩ := (describedBy_cons_iff tag items d).mp hall
          have hfits : items.length ≤ d.shape.fieldNames.length := Nat.le_of_succ_le_succ hlength
          exact ⟨d.shape, shapeOf_eq_ok_iff.mpr htag,
            (ofItems_iff hitems.2).mpr ⟨rfl, hfits, hdescribed⟩⟩
  | _ =>
    constructor
    · intro hread
      exact absurd hread (by cases room <;> exact Json.unexpected_ne_ok)
    · rintro ⟨_, hgives, -⟩
      cases hgives

theorem not_describes_null (d : SymbolDetail) : ¬ Describes .null d := by
  rintro ⟨ms, hgives, -⟩
  cases hgives

/-! ## 5. Acceptance and order -/

/-- The members are accepted for the fields of the shape. -/
def Shape.Accepts (ms : Members) : Shape → Prop
  | namedType => NamedTypeDetail.schema.Accepts ms
  | field => FieldDetail.schema.Accepts ms
  | method => MethodDetail.schema.Accepts ms
  | bare => True

theorem exists_detail_iff {P : SymbolDetail → Prop} : (∃ d, P d) ↔
    (∃ d, P (.namedType d)) ∨ (∃ d, P (.field d)) ∨ (∃ d, P (.method d)) ∨ P .bare := by
  constructor
  · rintro ⟨d, hd⟩
    cases d with
    | namedType d => exact .inl ⟨d, hd⟩
    | field d => exact .inr (.inl ⟨d, hd⟩)
    | method d => exact .inr (.inr (.inl ⟨d, hd⟩))
    | bare => exact .inr (.inr (.inr hd))
  · rintro (⟨d, hd⟩ | ⟨d, hd⟩ | ⟨d, hd⟩ | hd) <;> exact ⟨_, hd⟩

theorem exists_fieldsDescribedBy_iff {ms : Members} {s : Shape} :
    (∃ d : SymbolDetail, d.shape = s ∧ d.FieldsDescribedBy ms) ↔ s.Accepts ms := by
  rw [exists_detail_iff]
  cases s <;>
  simp [shape, FieldsDescribedBy, Shape.Accepts, NamedTypeDetail.complete.exists_describedBy_iff,
    FieldDetail.complete.exists_describedBy_iff, MethodDetail.complete.exists_describedBy_iff]

/-- **A tree describes a detail exactly if one text says a shape and the members are accepted for
the fields of that.** -/
theorem exists_describes_iff {v : Node} : (∃ d, Describes v d) ↔ ∃ s : Shape, ∃ ms,
    v.Gives s.names ms ∧ valuesOf "shape" ms = [.text s.tag] ∧ s.Accepts ms := by
  simp only [← exists_fieldsDescribedBy_iff]
  constructor
  · rintro ⟨d, ms, hgives, htag, hfields⟩
    exact ⟨d.shape, ms, hgives, htag, d, rfl, hfields⟩
  · rintro ⟨_, ms, hgives, htag, d, rfl, hfields⟩
    exact ⟨d, ms, hgives, htag, hfields⟩

/-- Neither the order of the members matters nor a member that the shape does not know. -/
theorem describedBy_congr_of_alike {s : Shape} {ms ms' : Members}
    (htag : valuesOf "shape" ms = [.text s.tag])
    (h : Json.AlikeMembers (fun _ => Eq) s.names ms ms') (d : SymbolDetail) :
    DescribedBy ms d ↔ DescribedBy ms' d := by
  have htag' : valuesOf "shape" ms' = [.text s.tag] := by
    have hperm := h.valuesOf_perm (List.mem_cons_self : "shape" ∈ s.names)
    rw [htag, List.singleton_perm] at hperm
    exact hperm.symm
  have hshape {ms : Members} (htag : valuesOf "shape" ms = [.text s.tag]) (hd : DescribedBy ms d) :
      d.shape = s := by
    have hsame : Node.text d.shape.tag = .text s.tag := by
      have htags := hd.tag
      rw [htag, List.cons.injEq] at htags
      exact htags.1.symm
    exact Shape.tag_injective (Node.text.inj hsame)
  have hfields (hd : d.shape = s) : d.FieldsDescribedBy ms ↔ d.FieldsDescribedBy ms' := by
    subst hd
    exact fieldsDescribedBy_congr fun n hn => h.valuesOf_perm (List.mem_cons_of_mem _ hn)
  constructor
  · intro hd
    have hd' := hshape htag hd
    exact ⟨hd' ▸ htag', (hfields hd').mp hd.fields⟩
  · intro hd
    have hd' := hshape htag' hd
    exact ⟨hd' ▸ htag, (hfields hd').mpr hd.fields⟩

end SymbolDetail

end ModifierFacts
