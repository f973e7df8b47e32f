import Mathlib.Data.List.Forall2
import ModifierFacts.Proofs.Json.ReadBack
import ModifierFacts.Proofs.Json.Yields

/-!
# Which values a reader accepts

A sound tree can be read to its end. Whether a reader accepts it, and what it is read as, is then a
matter of its form: `reader.Reads R` says that a sound tree is read as a value exactly if `R`
relates the two.

* `membersSound_iff`, `areSound_iff`, `Node.isWhole_of_isSound`: what is known of a sound tree;
* `Node.IsText`, `Node.IsBoolean`, `Node.ListOf`, `Node.Nullable`, `Node.Names`: forms of trees;
* **`Reader.Reads`**: a reader accepts exactly the trees of a form; `reads_text`, `reads_boolean`,
  `reads_listOf`, `reads_nullable`, `reads_variant`: so do the simple readers;
* `named_eq_ok_iff`, `named_other_eq_ok_iff`: what a name stands for, without and with a fallback.
-/

namespace ModifierFacts.Json

variable {α β : Type}

/-! ## 1. Sound trees -/

theorem areSound_iff {room : Nat} {items : List Node} :
    areSound room items = true ↔ ∀ v ∈ items, v.isSound room = true := by
  induction items with
  | nil => simp [areSound]
  | cons v items ih => simp [areSound, ih]

theorem membersSound_iff {room : Nat} {ms : List (Option String × Node)} :
    membersSound room ms = true ↔ ∀ m ∈ ms, m.1.isSome = true ∧ m.2.isSound room = true := by
  induction ms with
  | nil => simp [membersSound]
  | cons m ms ih => simp [membersSound, ih, and_assoc]

theorem Node.isSound_array_iff {room : Nat} {items : List Node} {closed : Bool} :
    (Node.array items closed).isSound (room + 1) = true ↔
      (∀ v ∈ items, v.isSound room = true) ∧ closed = true := by
  simp [isSound, areSound_iff]

theorem Node.isSound_object_iff {room : Nat} {ms : List (Option String × Node)} {closed : Bool} :
    (Node.object ms closed).isSound (room + 1) = true ↔
      (∀ m ∈ ms, m.1.isSome = true ∧ m.2.isSound room = true) ∧ closed = true := by
  simp [isSound, membersSound_iff]

mutual

/-- A sound tree has no break. -/
theorem Node.isWhole_of_isSound {room : Nat} : ∀ v : Node, v.isSound room = true → v.isWhole = true
  | .missing, h | .valueless, h => by cases h
  | .null, _ | .boolean _, _ | .number _, _ | .text _, _ => rfl
  | .array items closed, h => by
    obtain ⟨⟨-, hitems⟩, rfl⟩ : (0 < room ∧ areSound (room - 1) items = true) ∧ closed = true := by
      simpa [Node.isSound] using h
    simp [Node.isWhole, areWhole_of_areSound items hitems]
  | .object ms closed, h => by
    obtain ⟨⟨-, hms⟩, rfl⟩ : (0 < room ∧ membersSound (room - 1) ms = true) ∧ closed = true := by
      simpa [Node.isSound] using h
    simp [Node.isWhole, membersWhole_of_membersSound ms hms]

theorem areWhole_of_areSound {room : Nat} :
    ∀ items : List Node, areSound room items = true → areWhole items = true
  | [], _ => rfl
  | v :: items, h => by
    obtain ⟨hv, hitems⟩ : v.isSound room = true ∧ areSound room items = true := by
      simpa [areSound] using h
    simp [areWhole, v.isWhole_of_isSound hv, areWhole_of_areSound items hitems]

theorem membersWhole_of_membersSound {room : Nat} :
    ∀ ms : List (Option String × Node), membersSound room ms = true → membersWhole ms = true
  | [], _ => rfl
  | (key, v) :: ms, h => by
    obtain ⟨⟨-, hv⟩, hms⟩ :
        (key.isSome = true ∧ v.isSound room = true) ∧ membersSound room ms = true := by
      simpa [membersSound] using h
    simp [membersWhole, v.isWhole_of_isSound hv, membersWhole_of_membersSound ms hms]

end

/-! ## 2. Forms of trees -/

/-- The tree is this text. -/
def Node.IsText (v : Node) (s : String) : Prop := v = .text s

/-- The tree is this truth value. -/
def Node.IsBoolean (v : Node) (b : Bool) : Prop := v = .boolean b

/-- The tree is an array of such trees, one for each of these values. -/
inductive Node.ListOf (R : Node → α → Prop) : Node → List α → Prop where
  | array {items : List Node} {as : List α} (each : List.Forall₂ R items as) :
    ListOf R (.array items true) as

theorem Node.not_listOf_null (R : Node → α → Prop) (as : List α) : ¬ ListOf R .null as := by
  intro hform
  cases hform

/-- The tree is `null`, for no value, or such a tree. -/
inductive Node.Nullable (R : Node → α → Prop) : Node → Option α → Prop where
  | null : Nullable R .null none
  | value {v : Node} {a : α} (given : R v a) : Nullable R v (some a)

theorem Node.exists_nullable_null (R : Node → α → Prop) : ∃ o, Nullable R .null o := ⟨none, .null⟩

/-- Besides `null`, the trees are those of the values. -/
theorem Node.nullable_congr {R : Node → α → Prop} {v v' : Node} (hv : v ≠ .null) (hv' : v' ≠ .null)
    (h : ∀ a, R v a ↔ R v' a) (o : Option α) : Nullable R v o ↔ Nullable R v' o := by
  have himp {v v' : Node} (hv : v ≠ .null) (h : ∀ a, R v a → R v' a) (hform : Nullable R v o) :
      Nullable R v' o := by
    cases hform with
    | null => exact absurd rfl hv
    | value given => exact .value (h _ given)
  exact ⟨himp hv fun a => (h a).mp, himp hv' fun a => (h a).mpr⟩

/-- The tree is a name: the bare text, or an object with `null` under it as its one member. -/
inductive Node.Names (name : String) : Node → Prop where
  | bare : Names name (.text name)
  | keyed : Names name (.object [(some name, .null)] true)

/-! ## 3. Readers that accept a form -/

theorem except_bind_eq_ok_iff {ε : Type} {p : Except ε α} {f : α → Except ε β} {b : β} :
    p >>= f = .ok b ↔ ∃ a, p = .ok a ∧ f a = .ok b := by
  constructor
  · exact except_bind_eq_ok
  · rintro ⟨a, rfl, hb⟩
    exact hb

theorem except_pure_eq_ok_iff {ε : Type} {a b : α} : (pure a : Except ε α) = .ok b ↔ a = b :=
  Except.ok.injEq a b ▸ Iff.rfl

theorem except_map_eq_ok_iff {ε : Type} {p : Except ε α} {f : α → β} {b : β} :
    p.map f = .ok b ↔ ∃ a, p = .ok a ∧ f a = b := by
  constructor
  · exact except_map_eq_ok
  · rintro ⟨a, rfl, rfl⟩
    rfl

theorem required_eq_ok_iff {name : String} {place : Option β} {b : β} :
    required name place = .ok b ↔ place = some b := by
  constructor
  · exact eq_some_of_required
  · rintro rfl
    rfl

theorem unexpected_ne_ok {v : Node} {expected : String} {a : α} :
    unexpected v expected ≠ .ok a := by
  intro h
  obtain ⟨found, -, hthrow⟩ := except_bind_eq_ok h
  cases hthrow

/-- **A sound tree is read as a value exactly if the two are so related.** -/
def Reader.Reads (reader : Reader α) (R : Node → α → Prop) : Prop :=
  ∀ room v a, v.isSound room = true → (reader room v = .ok a ↔ R v a)

/-- Two names for one form. -/
theorem Reader.Reads.congr {reader : Reader α} {R R' : Node → α → Prop} (h : reader.Reads R)
    (hforms : ∀ v a, R v a ↔ R' v a) : reader.Reads R' :=
  fun room v a hv => (h room v a hv).trans (hforms v a)

theorem Reader.Reads.decode {reader : Reader α} {R : Node → α → Prop} (h : reader.Reads R)
    {text : String} {v : Node} (hread : Document.read text = ⟨v, true⟩)
    (hsound : v.isSound nesting = true) (a : α) : decode reader text = .ok a ↔ R v a := by
  have hdecode : Json.decode reader text = (reader nesting v >>= fun a => pure a) := by
    rw [Json.decode, hread]
    rfl
  rw [hdecode, bind_pure, h nesting v a hsound]

theorem reads_text : text.Reads Node.IsText := by
  intro room v s _
  constructor
  · intro h
    cases v with
    | text t =>
      cases h
      rfl
    | _ => exact absurd h unexpected_ne_ok
  · rintro rfl
    rfl

theorem reads_boolean : boolean.Reads Node.IsBoolean := by
  intro room v b _
  constructor
  · intro h
    cases v with
    | boolean c =>
      cases h
      rfl
    | _ => exact absurd h unexpected_ne_ok
  · rintro rfl
    rfl

/-- What a reader makes out of the values of another one. -/
theorem Reader.Reads.map {reader : Reader α} {R : Node → α → Prop} (h : reader.Reads R)
    (f : α → β) :
    Reader.Reads (fun room v => (reader room v).map f) fun v b => ∃ a, R v a ∧ f a = b := by
  intro room v b hv
  rw [except_map_eq_ok_iff]
  exact exists_congr fun a => and_congr_left' (h room v a hv)

theorem reads_listOf {reader : Reader α} {R : Node → α → Prop} (h : reader.Reads R) :
    (listOf reader).Reads (Node.ListOf R) := by
  have hitems (room : Nat) (items : List Node) : (∀ v ∈ items, v.isSound room = true) →
      ∀ as, items.mapM (reader room) = .ok as ↔ List.Forall₂ R items as := by
    induction items with
    | nil =>
      intro _ as
      rw [List.forall₂_nil_left_iff]
      exact ⟨fun h => (Except.ok.inj h).symm, fun h => h ▸ rfl⟩
    | cons v items ih =>
      intro hsound as
      rw [List.forall_mem_cons] at hsound
      rw [List.mapM_cons, except_bind_eq_ok_iff, List.forall₂_cons_left_iff]
      refine exists_congr fun a => ?_
      rw [except_bind_eq_ok_iff, h room v a hsound.1]
      constructor
      · rintro ⟨ha, bs, hbs, hcons⟩
        cases hcons
        exact ⟨bs, ha, (ih hsound.2 bs).mp hbs, rfl⟩
      · rintro ⟨bs, ha, hbs, rfl⟩
        exact ⟨ha, bs, (ih hsound.2 bs).mpr hbs, rfl⟩
  intro room v as hv
  cases v with
  | array items closed =>
    cases room with
    | zero => cases hv
    | succ room =>
      rw [Node.isSound_array_iff] at hv
      obtain ⟨hsound, rfl⟩ := hv
      have hread : listOf reader (room + 1) (.array items true) =
          (items.mapM (reader room) >>= fun as => pure as) := rfl
      rw [hread, bind_pure, hitems room items hsound]
      exact ⟨.array, fun | .array each => each⟩
  | _ =>
    constructor
    · intro hread
      exact absurd hread (by cases room <;> exact unexpected_ne_ok)
    · intro hform
      cases hform

/-- A reader that does not accept `null` can be made to take it for no value. -/
theorem reads_nullable {reader : Reader α} {R : Node → α → Prop} (h : reader.Reads R)
    (hnull : ∀ a, ¬ R .null a) : (nullable reader).Reads (Node.Nullable R) := by
  intro room v o hv
  by_cases hnone : v = .null
  · subst hnone
    constructor
    · intro hread
      cases hread
      exact .null
    · intro hform
      cases hform with
      | null => rfl
      | value given => exact absurd given (hnull _)
  · have hread : nullable reader room v = (reader room v).map some := by
      rw [nullable]
      exact hnone
    rw [hread, except_map_eq_ok_iff]
    constructor
    · rintro ⟨a, ha, rfl⟩
      exact .value ((h room v a hv).mp ha)
    · intro hform
      cases hform with
      | null => exact absurd rfl hnone
      | value given => exact ⟨_, (h room v _ hv).mpr given, rfl⟩

/-! ## 4. Names -/

theorem reads_variant (known : List (String × α)) (fallback : Option α) :
    (variant known fallback).Reads fun v a =>
      ∃ name, v.Names name ∧ named known fallback name = .ok a := by
  intro room v a hv
  constructor
  · intro hread
    unfold variant chosen at hread
    split at hread
    · exact ⟨_, .bare, hread⟩
    · rename_i name v rest closed
      rw [Node.isSound_object_iff] at hv
      obtain ⟨reader, hname, hread⟩ := except_bind_eq_ok hread
      obtain ⟨b, hknown, rfl⟩ := except_map_eq_ok hname
      obtain ⟨c, hpayload, hread⟩ := except_bind_eq_ok hread
      split at hread
      · rename_i hlast
        cases hread
        have hrest : rest = [] ∧ closed = true := by simpa using hlast
        obtain ⟨rfl, rfl⟩ := hrest
        unfold noPayload at hpayload
        split at hpayload
        · cases hpayload
          exact ⟨name, .keyed, hknown⟩
        · exact absurd hpayload unexpected_ne_ok
      · cases hread
    · cases hread
  · rintro ⟨name, hnames, hknown⟩
    cases hnames with
    | bare => exact hknown
    | keyed =>
      cases room with
      | zero => cases hv
      | succ room =>
        have hread : variant known fallback (room + 1) (.object [(some name, .null)] true) =
            ((named known fallback name).map noPayload >>= fun reader => reader room .null) := by
          rw [variant, chosen]
          cases named known fallback name <;> rfl
        rw [hread, hknown]
        rfl

theorem lookup_map_eq_none_iff {tag : α → String} {all : List α} {name : String} :
    (all.map fun b => (tag b, b)).lookup name = none ↔ ∀ b ∈ all, tag b ≠ name := by
  rw [List.lookup_eq_none_iff, List.forall_mem_map]
  exact forall₂_congr fun b _ => by rw [bne_iff_ne, ne_comm]

/-- A name stands for the value whose tag it is. -/
theorem named_eq_ok_iff {tag : α → String} {all : List α} (hnodup : (all.map tag).Nodup)
    (hall : ∀ a, a ∈ all) {name : String} {a : α} :
    named (all.map fun b => (tag b, b)) none name = .ok a ↔ tag a = name := by
  constructor
  · intro hnamed
    by_cases hknown : ∃ b, tag b = name
    · obtain ⟨b, rfl⟩ := hknown
      rw [named_tag hnodup none (hall b)] at hnamed
      rw [Except.ok.inj hnamed]
    · have hnone : (all.map fun b => (tag b, b)).lookup name = none := by
        rw [lookup_map_eq_none_iff]
        exact fun b _ hb => hknown ⟨b, hb⟩
      rw [named, hnone] at hnamed
      cases hnamed
  · rintro rfl
    exact named_tag hnodup none (hall a)

/-- A name stands for the value whose tag it is, or for the fallback if there is none. -/
theorem named_other_eq_ok_iff {tag : α → String} {all : List α} (hnodup : (all.map tag).Nodup)
    (hall : ∀ a, a ∈ all) {other : α} {name : String} {a : α} :
    named (all.map fun b => (tag b, b)) (some other) name = .ok a ↔
      tag a = name ∨ a = other ∧ ∀ b, tag b ≠ name := by
  by_cases hknown : ∃ b, tag b = name
  · obtain ⟨b, rfl⟩ := hknown
    rw [named_tag hnodup (some other) (hall b)]
    constructor
    · intro h
      rw [Except.ok.inj h]
      exact .inl rfl
    · rintro (htag | ⟨-, hnone⟩)
      · have hsame := named_tag hnodup none (hall a)
        rw [htag, named_tag hnodup none (hall b)] at hsame
        exact hsame
      · exact absurd rfl (hnone b)
  · have hne : ∀ b, tag b ≠ name := fun b hb => hknown ⟨b, hb⟩
    have hnone : (all.map fun b => (tag b, b)).lookup name = none := by
      rw [lookup_map_eq_none_iff]
      exact fun b _ => hne b
    have hnamed : named (all.map fun b => (tag b, b)) (some other) name = .ok other := by
      rw [named, hnone]
    rw [hnamed]
    constructor
    · intro h
      exact .inr ⟨(Except.ok.inj h).symm, hne⟩
    · rintro (htag | ⟨rfl, -⟩)
      · exact absurd htag (hne a)
      · rfl

end ModifierFacts.Json
