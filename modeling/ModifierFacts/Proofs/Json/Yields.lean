import ModifierFacts.Json.Record

/-!
# What a reader returns

A document can be read in many ways that no writer would write. Whatever it was, what comes out of a
reader has the properties that the reader gives to all its values.

* `Reader.Yields`: all that a reader returns has a property; `Field.Keeps`: filling a field keeps a
  property of drafts;
* `yields_listOf`: so it is with each item of a list;
* **`Record.yields`**: a property of drafts that all fields keep is there when the record is
  finished, whether it was read from an object or from an array.
-/

namespace ModifierFacts.Json

variable {α β δ : Type}

/-! ## 1. Composition -/

theorem except_bind_eq_ok {ε : Type} {p : Except ε α} {f : α → Except ε β} {b : β}
    (h : p >>= f = .ok b) : ∃ a, p = .ok a ∧ f a = .ok b := by
  cases p with
  | error e => cases h
  | ok a => exact ⟨a, rfl, h⟩

theorem except_map_eq_ok {ε : Type} {p : Except ε α} {f : α → β} {b : β} (h : p.map f = .ok b) :
    ∃ a, p = .ok a ∧ f a = b := by
  cases p with
  | error e => cases h
  | ok a => exact ⟨a, rfl, Except.ok.inj h⟩

/-- A property that every step of a fold keeps is there at its end. -/
theorem foldlM_keeps {ε : Type} {I : δ → Prop} {step : δ → α → Except ε δ}
    (hstep : ∀ d a d', step d a = .ok d' → I d → I d') {l : List α} {d d' : δ}
    (h : l.foldlM step d = .ok d') (hd : I d) : I d' := by
  induction l generalizing d with
  | nil =>
    cases h
    exact hd
  | cons a l ih =>
    obtain ⟨d₁, hfirst, hrest⟩ := except_bind_eq_ok h
    exact ih hrest (hstep d a d₁ hfirst hd)

/-! ## 2. Readers -/

/-- All that the reader returns has the property. -/
def Reader.Yields (reader : Reader α) (P : α → Prop) : Prop :=
  ∀ room v a, reader room v = .ok a → P a

theorem Reader.Yields.decode {reader : Reader α} {P : α → Prop} (h : reader.Yields P) {s : String}
    {a : α} (hs : decode reader s = .ok a) : P a := by
  obtain ⟨b, hread, hb⟩ := except_bind_eq_ok hs
  split at hb
  · cases hb
    exact h nesting _ a hread
  · cases hb

/-- What a reader makes out of the values of another one. -/
theorem Reader.Yields.map {reader : Reader α} {P : β → Prop} {f : α → β} (h : ∀ a, P (f a)) :
    Reader.Yields (fun room v => (reader room v).map f) P := by
  intro room v b hb
  obtain ⟨a, -, rfl⟩ := except_map_eq_ok hb
  exact h a

theorem yields_listOf {reader : Reader α} {P : α → Prop} (h : reader.Yields P) :
    (listOf reader).Yields fun as => ∀ a ∈ as, P a := by
  have hitems (room : Nat) (items : List Node) : ∀ as, items.mapM (reader room) = .ok as →
      ∀ a ∈ as, P a := by
    induction items with
    | nil =>
      intro as has a ha
      cases has
      cases ha
    | cons v items ih =>
      intro as has
      rw [List.mapM_cons] at has
      obtain ⟨b, hb, hrest⟩ := except_bind_eq_ok has
      obtain ⟨bs, hbs, hcons⟩ := except_bind_eq_ok hrest
      cases hcons
      rw [List.forall_mem_cons]
      exact ⟨h room v b hb, ih bs hbs⟩
  intro room v as has
  unfold listOf at has
  split at has
  · obtain ⟨bs, hbs, hclosed⟩ := except_bind_eq_ok has
    split at hclosed
    · cases hclosed
      exact hitems _ _ as hbs
    · cases hclosed
  · cases has
  · obtain ⟨found, -, hthrow⟩ := except_bind_eq_ok has
    cases hthrow

/-! ## 3. Records -/

/-- Filling the field keeps the property of drafts. -/
def Field.Keeps (I : δ → Prop) (f : Field δ) : Prop :=
  ∀ room v d d', f.fill room v d = .ok d' → I d → I d'

/-- A field with a place of its own keeps what putting its values there keeps. -/
theorem Field.Keeps.of_reader {I : δ → Prop} {name : String} {hasDefault : Bool}
    {get : δ → Option β} {put : β → δ → δ} {reader : Reader β} {P : β → Prop}
    (hreader : reader.Yields P) (hput : ∀ b d, P b → I d → I (put b d)) :
    (Field.of name hasDefault get put reader).Keeps I := by
  intro room v d d' h hd
  obtain ⟨b, hb, rfl⟩ := except_map_eq_ok h
  exact hput b d (hreader room v b hb) hd

/-- A field keeps what no value in its place can change. -/
theorem Field.Keeps.of_put {I : δ → Prop} {name : String} {hasDefault : Bool} {get : δ → Option β}
    {put : β → δ → δ} {reader : Reader β} (hput : ∀ b d, I d → I (put b d)) :
    (Field.of name hasDefault get put reader).Keeps I :=
  .of_reader (P := fun _ => True) (fun _ _ _ _ => trivial) fun b d _ hd => hput b d hd

theorem eq_some_of_required {name : String} {place : Option β} {b : β}
    (h : required name place = .ok b) : place = some b := by
  cases place with
  | none => cases h
  | some c =>
    cases h
    rfl

namespace Record

variable {r : Record δ α} {I : δ → Prop}

theorem addMember_keeps (h : ∀ f ∈ r.fields, f.Keeps I) {room : Nat} {d d' : δ}
    {m : Option String × Node} (hm : r.addMember room d m = .ok d') (hd : I d) : I d' := by
  rcases m with ⟨_ | key, v⟩
  · cases hm
  · unfold addMember at hm
    split at hm
    · cases hm
    · rename_i hkey
      split at hm
      · rename_i f hf
        split at hm
        · cases hm
        · exact h f (List.mem_of_find?_eq_some hf) room _ d d' hm hd
      · split at hm
        · cases hm
          exact hd
        · cases hm

/-- Where the items run out nothing is added any more. -/
theorem addItems_nil {room : Nat} {overlong : DecodeError} {closed : Bool} {fs : List (Field δ)}
    {count : Nat} {d d' : δ} (h : r.addItems room overlong closed fs count [] d = .ok d') :
    d = d' := by
  cases fs <;>
  · rw [addItems] at h
    split at h
    · obtain ⟨_, -, hd⟩ := except_bind_eq_ok h
      exact Except.ok.inj hd
    · cases h

theorem addItems_keeps {room : Nat} {overlong : DecodeError} {closed : Bool} {fs : List (Field δ)}
    (h : ∀ f ∈ fs, f.Keeps I) {count : Nat} {items : List Node} {d d' : δ}
    (hitems : r.addItems room overlong closed fs count items d = .ok d') (hd : I d) : I d' := by
  induction fs generalizing count items d with
  | nil =>
    cases items with
    | nil => exact addItems_nil hitems ▸ hd
    | cons v items => cases hitems
  | cons f fs ih =>
    cases items with
    | nil => exact addItems_nil hitems ▸ hd
    | cons v items =>
      rw [List.forall_mem_cons] at h
      rw [addItems] at hitems
      obtain ⟨d₁, hfill, hrest⟩ := except_bind_eq_ok hitems
      exact ih h.2 hrest (h.1 room v d d₁ hfill hd)

/-- **What all fields of a record keep is there when the record is finished.** -/
theorem yields {P : α → Prop} (hfields : ∀ f ∈ r.fields, f.Keeps I) (hblank : I r.blank)
    (hfinish : ∀ d a, I d → r.finish d = .ok a → P a) : r.reader.Yields P := by
  intro room v a ha
  unfold reader at ha
  split at ha
  · obtain ⟨d, hd, hclosed⟩ := except_bind_eq_ok ha
    have hkept : I d := foldlM_keeps (fun _ _ _ hm => addMember_keeps hfields hm) hd hblank
    split at hclosed
    · exact hfinish d a hkept hclosed
    · cases hclosed
  · obtain ⟨d, hd, hdone⟩ := except_bind_eq_ok ha
    exact hfinish d a (addItems_keeps hfields hd hblank) hdone
  · cases ha
  · cases ha
  · obtain ⟨found, -, hthrow⟩ := except_bind_eq_ok ha
    cases hthrow

end Record

end ModifierFacts.Json
