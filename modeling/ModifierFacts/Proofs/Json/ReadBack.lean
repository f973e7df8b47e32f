import ModifierFacts.Json.Record
import ModifierFacts.Proofs.Json.Written

/-!
# Values that were written are read back

`Stands reader depth v a` says that the written value `v` stands for `a`: it is read as `a` wherever
`depth` arrays and objects may still be entered. It is carried from the parts of a value to the
whole.

* simple values: `stands_text`, `stands_boolean`, `stands_word`, `stands_variant`;
* lists, values that may be missing and values under a name: `stands_list`, `stands_ofOption`,
  `stands_chosen`;
* `Fills`: members that fill the fields of a record one after the other;
* **`Record.stands`**: an object of such members stands for the record.
-/

namespace ModifierFacts.Json

/-! ## 1. Simple values -/

/-- A written value that is read as `a`, where `depth` arrays and objects may be entered. -/
structure Stands {α : Type} (reader : Reader α) (depth : Nat) (v : Value) (a : α) : Prop where
  fits : v.FitsWords
  read : ∀ room, depth ≤ room → reader room v.toNode = .ok a

variable {α β : Type}

/-- What stands for a value is decoded to it, if it does not nest too deep. -/
theorem Stands.decode {reader : Reader α} {depth : Nat} {v : Value} {a : α}
    (h : Stands reader depth v a) (hdepth : depth ≤ nesting) : decode reader v.toText = .ok a :=
  decode_toText h.fits (h.read nesting hdepth)

/-- A reader that turns the value of another one into something else. -/
theorem Stands.map {reader : Reader α} {depth : Nat} {v : Value} {a : α}
    (h : Stands reader depth v a) (f : α → β) :
    Stands (fun room v => (reader room v).map f) depth v (f a) where
  fits := h.fits
  read room hroom := by rw [h.read room hroom]; rfl

theorem stands_text (s : String) : Stands text 0 (.text s) s := ⟨trivial, fun _ _ => rfl⟩

theorem stands_boolean (b : Bool) : Stands boolean 0 (.boolean b) b := ⟨trivial, fun _ _ => rfl⟩

theorem stands_word (expected : String) (n : UInt64) :
    Stands (word expected) 0 (.natural n.toNat) n where
  fits := n.toNat_lt
  read room _ := by
    have hpos : (0 : Int) ≤ n.toNat := Int.natCast_nonneg _
    rw [Value.toNode, word, if_pos hpos, Int.toNat_natCast, UInt64.ofNat_toNat]

/-- The first of several names that are all different is found with its value. -/
theorem lookup_map_of_nodup {tag : α → String} {all : List α} (hnodup : (all.map tag).Nodup) {a : α}
    (ha : a ∈ all) : (all.map fun b => (tag b, b)).lookup (tag a) = some a := by
  induction all with
  | nil => cases ha
  | cons b all ih =>
    rw [List.map_cons, List.nodup_cons] at hnodup
    rw [List.map_cons, List.lookup_cons]
    rcases List.mem_cons.mp ha with rfl | hrest
    · rw [beq_self_eq_true]
    · have hne : tag a ≠ tag b := by
        intro h
        rw [← h] at hnodup
        exact hnodup.1 (List.mem_map_of_mem hrest)
      rw [beq_eq_false_iff_ne.mpr hne]
      exact ih hnodup.2 hrest

/-- A name that is written as the tag of a value is that value again. -/
theorem named_tag {tag : α → String} {all : List α} (hnodup : (all.map tag).Nodup)
    (fallback : Option α) {a : α} (ha : a ∈ all) :
    named (all.map fun b => (tag b, b)) fallback (tag a) = .ok a := by
  rw [named.eq_def, lookup_map_of_nodup hnodup ha]

theorem stands_variant {tag : α → String} {all : List α} (hnodup : (all.map tag).Nodup)
    (fallback : Option α) {a : α} (ha : a ∈ all) :
    Stands (variant (all.map fun b => (tag b, b)) fallback) 0 (.text (tag a)) a where
  fits := trivial
  read _ _ := named_tag hnodup fallback ha

/-! ## 2. Values made of others -/

theorem stands_list {reader : Reader α} {depth : Nat} {write : α → Value} {as : List α}
    (h : ∀ a ∈ as, Stands reader depth (write a) a) :
    Stands (listOf reader) (depth + 1) (.array (as.map write)) as where
  fits := itemsFitWords_iff.mpr (List.forall_mem_map.mpr fun a ha => (h a ha).fits)
  read room hroom := by
    cases room with
    | zero => exact absurd hroom (Nat.not_succ_le_zero depth)
    | succ room =>
      have hitems : (itemNodes (as.map write)).mapM (reader room) = .ok as := by
        rw [itemNodes_eq_map]
        induction as with
        | nil => rfl
        | cons a as ih =>
          have ha := (h a List.mem_cons_self).read room (Nat.le_of_succ_le_succ hroom)
          rw [List.map_cons, List.map_cons, List.mapM_cons, ha,
            ih fun b hb => h b (List.mem_cons_of_mem a hb)]
          rfl
      rw [Value.toNode, listOf, hitems]
      rfl

theorem stands_ofOption {reader : Reader α} {depth : Nat} {write : α → Value} {o : Option α}
    (h : ∀ a ∈ o, Stands reader depth (write a) a ∧ (write a).toNode ≠ .null) :
    Stands (nullable reader) depth (.ofOption write o) o := by
  cases o with
  | none => exact ⟨trivial, fun _ _ => rfl⟩
  | some a =>
    obtain ⟨ha, hnull⟩ := h a rfl
    refine ⟨ha.fits, fun room hroom => ?_⟩
    rw [Value.ofOption, nullable, ha.read room hroom]
    · rfl
    · exact hnull

/-- A value under the name that it is chosen by. -/
theorem stands_chosen {bare : String → Except DecodeError α}
    {payload : String → Except DecodeError (Reader α)} {name : String} {reader : Reader α}
    {depth : Nat} {v : Value} {a : α} (hpayload : payload name = .ok reader)
    (hv : Stands reader depth v a) :
    Stands (chosen bare payload) (depth + 1) (.object [(name, v)]) a where
  fits := ⟨hv.fits, trivial⟩
  read room hroom := by
    cases room with
    | zero => exact absurd hroom (Nat.not_succ_le_zero depth)
    | succ room =>
      have ha := hv.read room (Nat.le_of_succ_le_succ hroom)
      rw [Value.toNode, memberNodes, memberNodes, chosen, hpayload]
      show (reader room v.toNode >>= fun a => _) = _
      rw [ha]
      rfl

/-! ## 3. Records -/

variable {δ : Type}

/-- Members that take a draft from `d` to `d'`: each fills the field of its name, one after the
other, and each of these fields was empty. -/
inductive Fills (depth : Nat) : List (Field δ) → List (String × Value) → δ → δ → Prop where
  | nil (d : δ) : Fills depth [] [] d d
  | cons {f : Field δ} {fs : List (Field δ)} {v : Value} {ms : List (String × Value)} {d d' d'' : δ}
      (empty : f.isFilled d = false) (fits : v.FitsWords)
      (fill : ∀ room, depth ≤ room → f.fill room v.toNode d = .ok d')
      (rest : Fills depth fs ms d' d'') : Fills depth (f :: fs) ((f.name, v) :: ms) d d''

namespace Fills

variable {depth : Nat} {fs : List (Field δ)} {ms : List (String × Value)} {d d' : δ}

/-- A field with a place of its own is filled by what stands for its value. -/
theorem field {name : String} {hasDefault : Bool} {get : δ → Option β} {put : β → δ → δ}
    {reader : Reader β} {depth' : Nat} {v : Value} {b : β} (hempty : get d = none)
    (hv : Stands reader depth' v b) (hrest : Fills depth fs ms (put b d) d')
    (hle : depth' ≤ depth := by decide) :
    Fills depth (.of name hasDefault get put reader :: fs) ((name, v) :: ms) d d' := by
  refine .cons (f := .of name hasDefault get put reader) ?_ hv.fits (fun room hroom => ?_) hrest
  · show (get d).isSome = false
    rw [hempty]
    rfl
  · show (reader room v.toNode).map (put · d) = _
    rw [hv.read room (hle.trans hroom)]
    rfl

theorem fits (h : Fills depth fs ms d d') : MembersFitWords ms := by
  induction h with
  | nil => trivial
  | cons _ hv _ _ ih => exact ⟨hv, ih⟩

end Fills

namespace Record

variable (r : Record δ α)

/-- If no two fields of a record have one name, the name of a field finds it. -/
theorem find?_field {before after : List (Field δ)} {f : Field δ}
    (hnodup : ((before ++ f :: after).map (·.name)).Nodup) :
    (before ++ f :: after).find? (·.name == f.name) = some f := by
  have hbefore : before.find? (·.name == f.name) = none := by
    rw [List.map_append, List.nodup_append] at hnodup
    refine List.find?_eq_none.mpr fun g hg hname => ?_
    exact hnodup.2.2 g.name (List.mem_map_of_mem hg) f.name List.mem_cons_self (beq_iff_eq.mp hname)
  rw [List.find?_append, hbefore, Option.none_or]
  exact List.find?_cons_of_pos (beq_self_eq_true f.name)

/-- Members that fill the last fields of a record are taken in one by one. -/
theorem foldlM_addMember (before : List (Field δ)) {fs : List (Field δ)}
    (hfields : r.fields = before ++ fs) (hnodup : (r.fields.map (·.name)).Nodup) {depth : Nat}
    {ms : List (String × Value)} {d d' : δ} (h : Fills depth fs ms d d') {room : Nat}
    (hroom : depth ≤ room) : (memberNodes ms).foldlM (r.addMember room) d = .ok d' := by
  induction h generalizing before with
  | nil d => rfl
  | @cons f fs v ms d d₁ d' hempty _ hfill _ ih =>
    have hfind : r.fields.find? (·.name == f.name) = some f := by
      rw [hfields] at hnodup ⊢
      exact find?_field hnodup
    have hadd : r.addMember room d (some f.name, v.toNode) = .ok d₁ := by
      rw [addMember, hfind]
      simp only [hempty, hfill room hroom, Bool.false_eq_true, if_false]
    rw [memberNodes, List.foldlM_cons, hadd]
    exact ih (before ++ [f]) (by rw [hfields, List.append_assoc]; rfl)

/-- Members that fill all fields of a record are its draft. -/
theorem ofMembers_of_fills (hnodup : (r.fields.map (·.name)).Nodup) {depth : Nat}
    {ms : List (String × Value)} {d : δ} (h : Fills depth r.fields ms r.blank d) {room : Nat}
    (hroom : depth ≤ room) : r.ofMembers room (memberNodes ms) = .ok d :=
  r.foldlM_addMember [] rfl hnodup h hroom

/-- **An object whose members fill the fields of a record stands for the record.** -/
theorem stands (hnodup : (r.fields.map (·.name)).Nodup) {depth : Nat}
    {ms : List (String × Value)} {d : δ} {a : α} (h : Fills depth r.fields ms r.blank d)
    (hfinish : r.finish d = .ok a) : Stands r.reader (depth + 1) (.object ms) a where
  fits := h.fits
  read room hroom := by
    cases room with
    | zero => exact absurd hroom (Nat.not_succ_le_zero depth)
    | succ room =>
      rw [Value.toNode, reader, r.ofMembers_of_fills hnodup h (Nat.le_of_succ_le_succ hroom)]
      exact hfinish

end Record

end ModifierFacts.Json
