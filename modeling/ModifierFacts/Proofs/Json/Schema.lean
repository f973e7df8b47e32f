import ModifierFacts.Proofs.Json.Exact

/-!
# What the members of an object say about a value

A schema lists the fields of a type: the name of each, its default if it has one, and the trees that
describe its values. Members describe a value by a schema if each field has what its only member
says, or its default where it has no member. Members with other names do not matter, nor does the
order of the members.

* `valuesOf`: what the members say under a name; `Node.Gives`: the members that a tree gives;
* `Entry`, `Schema`: the fields of a type; `Entry.Told`: what a field gets from the trees under its
  name;
* `Schema.DescribedBy`, `Schema.Describes`: members, or trees, that describe a value;
* `Schema.Accepts`: members that describe some value, by the rule that
  **`Schema.Complete.exists_describedBy_iff`** shows to be the right one;
* `AlikeMembers`: members that agree, up to their order, on the names of a schema; by
  **`Schema.describedBy_congr_of_alike`** they describe the same values.
-/

namespace ModifierFacts.Json

variable {α β : Type}

/-! ## 1. Members -/

/-- The members of an object: keys and values in document order. -/
abbrev Members := List (Option String × Node)

/-- The values of the members with a name, in document order. -/
def valuesOf (name : String) (ms : Members) : List Node :=
  (ms.filter (·.1 == some name)).map (·.2)

theorem valuesOf_cons_self (name : String) (v : Node) (ms : Members) :
    valuesOf name ((some name, v) :: ms) = v :: valuesOf name ms := by
  simp [valuesOf]

theorem valuesOf_cons_of_ne {name : String} {key : Option String} (h : key ≠ some name) (v : Node)
    (ms : Members) : valuesOf name ((key, v) :: ms) = valuesOf name ms := by
  simp [valuesOf, h]

theorem valuesOf_perm {ms ms' : Members} (h : ms.Perm ms') (name : String) :
    (valuesOf name ms).Perm (valuesOf name ms') :=
  (h.filter _).map _

/-- Items under the names of fields say nothing under another name. -/
theorem valuesOf_zip_of_notMem {names : List String} {name : String} (h : name ∉ names)
    (items : List Node) : valuesOf name ((names.map some).zip items) = [] := by
  unfold valuesOf
  rw [List.map_eq_nil_iff, List.filter_eq_nil_iff]
  rintro ⟨key, v⟩ hm hname
  obtain ⟨n, hn, rfl⟩ := List.mem_map.mp (List.of_mem_zip hm).1
  have hsame : n = name := by simpa using hname
  exact h (hsame ▸ hn)

/-- The members with one of these names. -/
def known (names : List String) (ms : Members) : Members :=
  ms.filter fun m => names.any (m.1 == some ·)

theorem valuesOf_known {names : List String} {name : String} (h : name ∈ names) (ms : Members) :
    valuesOf name (known names ms) = valuesOf name ms := by
  unfold valuesOf known
  rw [List.filter_filter]
  congr 2
  funext m
  by_cases hm : m.1 = some name
  · simp [hm, h]
  · simp [hm]

/-- **The members agree under these names**, up to their order and up to `R` between two values
under one name. Members under other names do not count. -/
def AlikeMembers (R : String → Node → Node → Prop) (names : List String) (ms ms' : Members) :
    Prop :=
  ∃ ks, (known names ms).Perm ks ∧
    List.Forall₂ (fun m m' => m.1 = m'.1 ∧ ∀ key, m.1 = some key → R key m.2 m'.2) ks
      (known names ms')

theorem valuesOf_forall₂ {R : String → Node → Node → Prop} {ms ms' : Members}
    (h : List.Forall₂ (fun m m' => m.1 = m'.1 ∧ ∀ key, m.1 = some key → R key m.2 m'.2) ms ms')
    (name : String) : List.Forall₂ (R name) (valuesOf name ms) (valuesOf name ms') := by
  induction h with
  | nil => exact .nil
  | @cons m m' ms ms' hfirst _ ih =>
    obtain ⟨key, v⟩ := m
    obtain ⟨key', v'⟩ := m'
    obtain ⟨hkey, hvalue⟩ := hfirst
    have hkeys : key = key' := hkey
    subst hkeys
    by_cases hname : key = some name
    · subst hname
      rw [valuesOf_cons_self, valuesOf_cons_self]
      exact .cons (hvalue name rfl) ih
    · rw [valuesOf_cons_of_ne hname, valuesOf_cons_of_ne hname]
      exact ih

/-- Members that agree say alike, under each of the names. -/
theorem AlikeMembers.valuesOf {R : String → Node → Node → Prop} {names : List String}
    {ms ms' : Members} (h : AlikeMembers R names ms ms') {name : String} (hname : name ∈ names) :
    ∃ vs, (valuesOf name ms).Perm vs ∧ List.Forall₂ (R name) vs (Json.valuesOf name ms') := by
  obtain ⟨ks, hperm, hforall⟩ := h
  refine ⟨Json.valuesOf name ks, ?_, ?_⟩
  · rw [← valuesOf_known hname ms]
    exact valuesOf_perm hperm name
  · rw [← valuesOf_known hname ms']
    exact valuesOf_forall₂ hforall name

/-- Members that agree up to their order alone. -/
theorem AlikeMembers.valuesOf_perm {names : List String} {ms ms' : Members}
    (h : AlikeMembers (fun _ => Eq) names ms ms') {name : String} (hname : name ∈ names) :
    (Json.valuesOf name ms).Perm (Json.valuesOf name ms') := by
  obtain ⟨vs, hperm, hforall⟩ := h.valuesOf hname
  rw [List.forall₂_eq_eq_eq] at hforall
  exact hforall ▸ hperm

/-- **The members that a tree gives, for these names**: those of an object, or the items of an array
under the first of the names, in order. -/
inductive Node.Gives (names : List String) : Node → Members → Prop where
  | object (ms : Members) : Gives names (.object ms true) ms
  | array {items : List Node} (fits : items.length ≤ names.length) :
    Gives names (.array items true) ((names.map some).zip items)

theorem Node.gives_object_iff {names : List String} {ms ms' : Members} :
    (Node.object ms true).Gives names ms' ↔ ms' = ms := by
  constructor
  · intro hgives
    cases hgives
    rfl
  · rintro rfl
    exact .object _

theorem Node.gives_array_iff {names : List String} {items : List Node} {ms : Members} :
    (Node.array items true).Gives names ms ↔
      items.length ≤ names.length ∧ ms = (names.map some).zip items := by
  constructor
  · intro hgives
    cases hgives with
    | array fits => exact ⟨fits, rfl⟩
  · rintro ⟨fits, rfl⟩
    exact .array fits

/-! ## 2. Schemas -/

/-- One field of a type. -/
structure Entry (α : Type) where
  {β : Type}
  name : String
  /-- What the field is where it has no member; a field without a default must have one. -/
  default? : Option β
  value : α → β
  /-- The trees that a value of the field is read from. -/
  describes : Node → β → Prop

/-- A field that must have a member. -/
def Entry.required (name : String) (value : α → β) (describes : Node → β → Prop) : Entry α :=
  ⟨name, none, value, describes⟩

/-- A field that is `default` where it has no member. -/
def Entry.optional (name : String) (default : β) (value : α → β) (describes : Node → β → Prop) :
    Entry α :=
  ⟨name, some default, value, describes⟩

/-- **What a field gets from the values under its name**: what the only one says, or its default. -/
inductive Entry.Told (e : Entry α) : List Node → e.β → Prop where
  | present {v : Node} {b : e.β} (given : e.describes v b) : Told e [v] b
  | absent {b : e.β} (default : e.default? = some b) : Told e [] b

namespace Entry

variable {e : Entry α}

theorem told_nil_iff {b : e.β} : e.Told [] b ↔ e.default? = some b :=
  ⟨fun | .absent default => default, .absent⟩

theorem told_cons_iff {v : Node} {vs : List Node} {b : e.β} :
    e.Told (v :: vs) b ↔ vs = [] ∧ e.describes v b := by
  constructor
  · intro h
    cases h with
    | present given => exact ⟨rfl, given⟩
  · rintro ⟨rfl, given⟩
    exact .present given

/-- A field gets a value exactly if it has one member or, having a default, at most one, and what
its member says is one. -/
theorem exists_told_iff {vs : List Node} : (∃ b, e.Told vs b) ↔
    (e.default? = none → vs.length = 1) ∧ vs.length ≤ 1 ∧ ∀ v ∈ vs, ∃ b, e.describes v b := by
  rcases vs with _ | ⟨v, _ | ⟨w, vs⟩⟩
  · simp [told_nil_iff, ← Option.ne_none_iff_exists']
  · simp [told_cons_iff]
  · simp [told_cons_iff]

theorem told_congr_of_forall₂ {vs vs' : List Node} {b : e.β}
    (h : List.Forall₂ (fun v v' => e.describes v b ↔ e.describes v' b) vs vs') :
    e.Told vs b ↔ e.Told vs' b := by
  cases h with
  | nil => exact Iff.rfl
  | cons hfirst hrest =>
    rw [told_cons_iff, told_cons_iff, hfirst]
    cases hrest <;> simp

theorem told_congr_of_perm {vs vs' : List Node} (h : vs.Perm vs') (b : e.β) :
    e.Told vs b ↔ e.Told vs' b := by
  have himp {vs vs' : List Node} (h : vs.Perm vs') (hvs : e.Told vs b) : e.Told vs' b := by
    cases hvs with
    | present given => exact (List.singleton_perm.mp h) ▸ .present given
    | absent default => exact (List.nil_perm.mp h) ▸ .absent default
  exact ⟨himp h, himp h.symm⟩

end Entry

/-- The fields of a type. -/
abbrev Schema (α : Type) := List (Entry α)

namespace Schema

variable {s : Schema α} {ms ms' : Members} {a : α}

/-- The names of the fields. -/
def names (s : Schema α) : List String := s.map (·.name)

/-- **The members describe the value**: each field is what the members under its name say. -/
def DescribedBy (s : Schema α) (ms : Members) (a : α) : Prop :=
  ∀ e ∈ s, e.Told (valuesOf e.name ms) (e.value a)

/-- **The tree describes the value**: the members that it gives for the fields do. -/
def Describes (s : Schema α) (v : Node) (a : α) : Prop :=
  ∃ ms, v.Gives s.names ms ∧ s.DescribedBy ms a

theorem name_mem_names {e : Entry α} (h : e ∈ s) : e.name ∈ s.names := List.mem_map_of_mem h

/-- Only the values under the names of the fields matter, and not their order. -/
theorem describedBy_congr_of_values
    (h : ∀ n ∈ s.names, (valuesOf n ms).Perm (valuesOf n ms')) :
    s.DescribedBy ms a ↔ s.DescribedBy ms' a :=
  forall₂_congr fun _ he => Entry.told_congr_of_perm (h _ (name_mem_names he)) _

/-- **Neither the order of the members matters nor a member without a field**, and as little what
`R` passes over in a value. -/
theorem describedBy_congr_of_alike {R : String → Node → Node → Prop}
    (hR : ∀ e ∈ s, ∀ v v' b, R e.name v v' → (e.describes v b ↔ e.describes v' b))
    (h : AlikeMembers R s.names ms ms') : s.DescribedBy ms a ↔ s.DescribedBy ms' a := by
  refine forall₂_congr fun e he => ?_
  obtain ⟨vs, hperm, hforall⟩ := h.valuesOf (name_mem_names he)
  rw [Entry.told_congr_of_perm hperm]
  exact Entry.told_congr_of_forall₂ (hforall.imp fun v v' hv => hR e he v v' _ hv)

theorem describes_object_iff : s.Describes (.object ms true) a ↔ s.DescribedBy ms a := by
  simp [Describes, Node.gives_object_iff]

theorem describes_array_iff {items : List Node} : s.Describes (.array items true) a ↔
    items.length ≤ s.names.length ∧ s.DescribedBy ((s.names.map some).zip items) a := by
  simp [Describes, Node.gives_array_iff, and_assoc]

/-- An object describes the same values as one whose members agree with its own up to order. -/
theorem describes_object_congr (h : AlikeMembers (fun _ => Eq) s.names ms ms') :
    s.Describes (.object ms true) a ↔ s.Describes (.object ms' true) a := by
  rw [describes_object_iff, describes_object_iff]
  exact describedBy_congr_of_alike (fun _ _ _ _ _ hv => by rw [hv]) h

theorem not_describes_null (s : Schema α) (a : α) : ¬ s.Describes .null a := by
  rintro ⟨ms, hgives, -⟩
  cases hgives

/-! ## 3. Acceptance -/

/-- **The members are accepted**: each field that must be there has one member, every other field at
most one, and what the members of the fields say are values. -/
def Accepts (s : Schema α) (ms : Members) : Prop :=
  ∀ e ∈ s, (e.default? = none → (valuesOf e.name ms).length = 1) ∧
    (valuesOf e.name ms).length ≤ 1 ∧ ∀ v ∈ valuesOf e.name ms, ∃ b, e.describes v b

/-- The fields are all there is to a value: if each gets something, they make one up. -/
def Complete (s : Schema α) : Prop :=
  ∀ ms, (∀ e ∈ s, ∃ b, e.Told (valuesOf e.name ms) b) → ∃ a, s.DescribedBy ms a

/-- **Members describe a value exactly if they are accepted.** -/
theorem Complete.exists_describedBy_iff (h : s.Complete) :
    (∃ a, s.DescribedBy ms a) ↔ s.Accepts ms := by
  constructor
  · rintro ⟨a, hdescribed⟩ e he
    exact Entry.exists_told_iff.mp ⟨_, hdescribed e he⟩
  · intro haccepts
    exact h ms fun e he => Entry.exists_told_iff.mpr (haccepts e he)

theorem Complete.exists_describes_iff (h : s.Complete) {v : Node} :
    (∃ a, s.Describes v a) ↔ ∃ ms, v.Gives s.names ms ∧ s.Accepts ms := by
  simp only [← h.exists_describedBy_iff]
  constructor
  · rintro ⟨a, ms, hgives, hdescribed⟩
    exact ⟨ms, hgives, a, hdescribed⟩
  · rintro ⟨ms, hgives, a, hdescribed⟩
    exact ⟨a, ms, hgives, hdescribed⟩

/-- The fields that take `null` for a value are those with these names. -/
def TakesNull (s : Schema α) (names : List String) : Prop :=
  ∀ e ∈ s, (∃ b, e.describes .null b) ↔ e.name ∈ names

end Schema

end ModifierFacts.Json
