import ModifierFacts.Proofs.Json.ReadBack
import ModifierFacts.Proofs.Json.Yields
import ModifierFacts.Symbol.Json

/-!
# Symbols are read back

What is written of a symbol stands for it, part by part. The one part that can get lost is an
accessibility that is kept as a word although the word names a level: it is read as the level. No
reader returns such a symbol.

* `DeclaredAccessibility.Canonical`: an accessibility is a word only if that names no level;
* `SymbolDetail.stands`: a detail finds its tag among its own members and is read by it;
* **`Symbol.stands`**: a symbol with a canonical accessibility is read back;
* **`Symbol.yields`**: every symbol that was read has one.
-/

namespace ModifierFacts

open Json (Stands Fills Value stands_text stands_boolean stands_list stands_ofOption stands_variant)

/-! ## 1. Names -/

/-- The tag of a level names it. -/
theorem Accessibility.ofTag?_tag (a : Accessibility) : ofTag? a.tag = some a := by
  cases a <;> decide

namespace DeclaredAccessibility

/-- A word is kept only if it names no level. -/
def Canonical : DeclaredAccessibility → Prop
  | known _ => True
  | unrecognized word => Accessibility.ofTag? word = none

theorem canonical_ofText (word : String) : (ofText word).Canonical := by
  cases h : Accessibility.ofTag? word with
  | none =>
    rw [ofText, h]
    exact h
  | some access =>
    rw [ofText, h]
    trivial

theorem ofText_text {a : DeclaredAccessibility} (h : a.Canonical) : ofText a.text = a := by
  cases a with
  | known access => rw [text, ofText, Accessibility.ofTag?_tag]
  | unrecognized word =>
    have hword : Accessibility.ofTag? word = none := h
    rw [text, ofText, hword]

theorem stands {a : DeclaredAccessibility} (h : a.Canonical) : Stands reader 0 a.toJson a := by
  have hread := (stands_text a.text).map ofText
  rw [ofText_text h] at hread
  exact hread

theorem yields : reader.Yields Canonical := .map canonical_ofText

end DeclaredAccessibility

namespace SymbolKind

theorem nodup_tags : (all.map tag).Nodup := by decide

theorem mem_all (k : SymbolKind) : k ∈ all := by cases k <;> decide

theorem stands (k : SymbolKind) : Stands reader 0 k.toJson k :=
  stands_variant nodup_tags (some SymbolKind.other) k.mem_all

end SymbolKind

namespace TypeKind

theorem nodup_tags : (all.map tag).Nodup := by decide

theorem mem_all (k : TypeKind) : k ∈ all := by cases k <;> decide

theorem stands (k : TypeKind) : Stands reader 0 k.toJson k :=
  stands_variant nodup_tags none k.mem_all

end TypeKind

/-! ## 2. Flags -/

theorem SymbolFlags.stands (f : SymbolFlags) : Stands reader 1 f.toJson f :=
  record.stands (by decide)
    (.field rfl (stands_boolean _) <| .field rfl (stands_boolean _) <|
      .field rfl (stands_boolean _) <| .field rfl (stands_boolean _) <|
      .field rfl (stands_boolean _) <| .field rfl (stands_boolean _) <| .nil _) rfl

/-! ## 3. Details -/

namespace SymbolDetail

/-- The kind of a named type, read out of a sound value. -/
theorem stands_typeKind (k : TypeKind) : Stands (soundVariant TypeKind.tagged) 0 k.toJson k where
  fits := trivial
  read _ _ := Json.named_tag TypeKind.nodup_tags none k.mem_all

theorem fills_namedType (d : NamedTypeDetail) :
    Fills 0 namedTypeRecord.fields d.members namedTypeRecord.blank
      ⟨some d.typeKind, some d.isReadOnly, some d.isRefLike⟩ :=
  .field rfl (stands_typeKind _) <| .field rfl (stands_boolean _) <|
    .field rfl (stands_boolean _) <| .nil _

theorem fills_field (d : FieldDetail) :
    Fills 0 FieldDetail.record.fields d.members FieldDetail.record.blank
      ⟨some d.isConst, some d.isReadOnly⟩ :=
  .field rfl (stands_boolean _) <| .field rfl (stands_boolean _) <| .nil _

theorem fills_method (d : MethodDetail) :
    Fills 0 MethodDetail.record.fields d.members MethodDetail.record.blank ⟨some d.isAsync⟩ :=
  .field rfl (stands_boolean _) <| .nil _

/-- Members that fill a record are read as it, also where they are known to be sound. -/
theorem fromMembers_of_fills {δ α : Type} {r : Json.Record δ α}
    (hnodup : (r.fields.map (·.name)).Nodup) {ms : List (String × Value)} {d : δ} {a : α}
    (h : Fills 0 r.fields ms r.blank d) (hfinish : r.finish d = .ok a) (room : Nat) :
    fromMembers r room (Json.memberNodes ms) = .ok a := by
  rw [fromMembers, r.ofMembers_of_fills hnodup h (Nat.zero_le room)]
  exact hfinish

/-- **A detail is read by its tag.** None of the members after the tag is another one. -/
theorem stands_tagged (shape : Shape) {tag : String} {ms : List (String × Value)}
    {d : SymbolDetail} (htag : Json.named shapes none tag = .ok shape)
    (hfits : Json.MembersFitWords ms)
    (hsound : ∀ room, findShape room (some shape) (Json.memberNodes ms) = .ok (some shape))
    (hrest : (Json.memberNodes ms).filter (·.1 != some "shape") = Json.memberNodes ms)
    (hread : ∀ room, ofMembers room (Json.memberNodes ms) shape = .ok d) :
    Stands reader 1 (.object (("shape", .text tag) :: ms)) d where
  fits := ⟨trivial, hfits⟩
  read room hroom := by
    cases room with
    | zero => exact absurd hroom (Nat.not_succ_le_zero 0)
    | succ room =>
      have hshape : findShape room none ((some "shape", .text tag) :: Json.memberNodes ms) =
          .ok (some shape) := by
        rw [findShape, if_pos rfl]
        show (Json.named shapes none tag >>= fun shape => _) = _
        rw [htag]
        exact hsound room
      have hfilter : ((some "shape", .text tag) :: Json.memberNodes ms).filter
          (·.1 != some "shape") = Json.memberNodes ms := hrest
      rw [Value.toNode, Json.memberNodes, reader, Value.toNode, hshape]
      show ofMembers room _ shape = _
      rw [hfilter]
      exact hread room

theorem stands (d : SymbolDetail) : Stands reader 1 d.toJson d := by
  cases d with
  | namedType d =>
    refine stands_tagged .namedType rfl (fills_namedType d).fits (fun _ => rfl) rfl ?_
    intro room
    rw [ofMembers, fromMembers_of_fills (by decide) (fills_namedType d) rfl]
    rfl
  | field d =>
    refine stands_tagged .field rfl (fills_field d).fits (fun _ => rfl) rfl ?_
    intro room
    rw [ofMembers, fromMembers_of_fills (by decide) (fills_field d) rfl]
    rfl
  | method d =>
    refine stands_tagged .method rfl (fills_method d).fits (fun _ => rfl) rfl ?_
    intro room
    rw [ofMembers, fromMembers_of_fills (by decide) (fills_method d) rfl]
    rfl
  | bare => exact stands_tagged .bare rfl trivial (fun _ => rfl) rfl fun _ => rfl

end SymbolDetail

/-! ## 4. Symbols -/

theorem ContainingType.stands (t : ContainingType) : Stands reader 1 t.toJson t := by
  have htypeKind : Stands (Json.nullable TypeKind.reader) 0 (.ofOption TypeKind.toJson t.typeKind)
      t.typeKind :=
    stands_ofOption fun k _ => ⟨k.stands, Json.Node.noConfusion⟩
  exact record.stands (by decide) (.field rfl t.kind.stands <| .field rfl htypeKind <| .nil _) rfl

namespace Symbol

/-- **What is written of a symbol stands for it**, if its accessibility is canonical. -/
theorem stands {s : Symbol} (h : s.accessibility.Canonical) : Stands reader 2 s.toJson s := by
  have hcontaining : Stands (Json.nullable ContainingType.reader) 1
      (.ofOption ContainingType.toJson s.containingType) s.containingType :=
    stands_ofOption fun t _ => ⟨t.stands, Json.Node.noConfusion⟩
  have hmodifiers : Stands (Json.listOf Json.text) 1 (.array (s.sourceModifiers.map .text))
      s.sourceModifiers := stands_list fun name _ => stands_text name
  exact record.stands (by decide)
    (.field rfl (stands_text s.name) <| .field rfl s.kind.stands <|
      .field rfl (DeclaredAccessibility.stands h) <| .field rfl s.flags.stands <|
      .field rfl hcontaining <| .field rfl s.detail.stands <|
      .field rfl (stands_boolean s.declaredInSource) <| .field rfl hmodifiers <| .nil _) rfl

/-- **Every symbol that was read has a canonical accessibility.** -/
theorem yields : reader.Yields fun s => s.accessibility.Canonical := by
  refine Json.Record.yields (I := fun d => ∀ a ∈ d.accessibility, a.Canonical) ?_ ?_ ?_
  · -- only one field touches the accessibility
    simp only [record, List.forall_mem_cons, List.not_mem_nil, false_implies, implies_true,
      and_true]
    refine ⟨.of_put fun _ _ hd => hd, .of_put fun _ _ hd => hd, ?accessibility,
      .of_put fun _ _ hd => hd, .of_put fun _ _ hd => hd,
      .of_put fun _ _ hd => hd, .of_put fun _ _ hd => hd,
      .of_put fun _ _ hd => hd⟩
    case accessibility =>
      refine .of_reader DeclaredAccessibility.yields fun a d ha _ b hb => ?_
      cases hb
      exact ha
  · intro a ha
    cases ha
  · intro d s hd hs
    obtain ⟨name, -, hs⟩ := Json.except_bind_eq_ok hs
    obtain ⟨kind, -, hs⟩ := Json.except_bind_eq_ok hs
    obtain ⟨accessibility, haccessibility, hs⟩ := Json.except_bind_eq_ok hs
    cases hs
    exact hd accessibility (Json.eq_some_of_required haccessibility)

end Symbol

end ModifierFacts
