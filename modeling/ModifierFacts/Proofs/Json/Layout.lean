import Mathlib.Data.List.Nodup
import ModifierFacts.Proofs.Json.Schema

/-!
# Records are read by their schema

A record takes members one by one into a draft and completes the draft at the end. If each field
has a place of its own in the draft and the completion knows the defaults, the record accepts
exactly the trees that the schema describes.

* `Place`: a field of a schema and where a draft keeps it; `Field.Serves`: a field of a record that
  fills a place and no other;
* `Record.Laid`: the fields of a record serve the places of a schema, and `finish` knows the
  defaults;
* `Place.Completes`: what is still to come gives the field its value;
* `Laid.foldlM_iff`, `Laid.addItems_iff`: members are taken, one by one, if they complete the draft,
  and items are taken like members under the names of the fields;
* **`Laid.reads`**: the record accepts exactly the trees that its schema describes;
* `Laid.complete`: whatever the fields get, there is a value that has it.
-/

namespace ModifierFacts.Json

variable {δ α : Type}

/-! ## 1. Places -/

/-- A field of a type, and where it is kept in a draft. -/
structure Place (δ α : Type) where
  entry : Entry α
  get : δ → Option entry.β

/-- The schema that these places are for. -/
def Schema.ofPlaces (ps : List (Place δ α)) : Schema α := ps.map (·.entry)

/-- **The field of the record fills the place**: it reads what describes a value, and leaves all
other places as they are. -/
inductive Field.Serves (ps : List (Place δ α)) : Place δ α → Field δ → Prop where
  | of {e : Entry α} {get : δ → Option e.β} {put : e.β → δ → δ} {reader : Reader e.β}
    (reads : reader.Reads e.describes) (own : ∀ b d, get (put b d) = some b)
    (apart : ∀ p ∈ ps, p.entry.name ≠ e.name → ∀ b d, p.get (put b d) = p.get d) :
    Serves ps ⟨e, get⟩ (.of e.name e.default?.isSome get put reader)

/-- **The record lays out these places**, each in a field of its own. -/
structure Record.Laid (r : Record δ α) (ps : List (Place δ α)) : Prop where
  nodup : (ps.map (·.entry.name)).Nodup
  fields : List.Forall₂ (Field.Serves ps) ps r.fields
  blank : ∀ p ∈ ps, p.get r.blank = none
  /-- A draft is finished by what it has, and by the defaults for the rest. -/
  finish : ∀ d a, r.finish d = .ok a ↔
    ∀ p ∈ ps, (p.get d).or p.entry.default? = some (p.entry.value a)
  /-- A draft that has what must be there is finished. -/
  total : ∀ d, (∀ p ∈ ps, ((p.get d).or p.entry.default?).isSome = true) → ∃ a, r.finish d = .ok a

/-! ## 2. What is still to come -/

/-- From the draft and the members still to come, the field gets the value that it has in `a`. -/
def Place.Completes (p : Place δ α) (d : δ) (ms : Members) (a : α) : Prop :=
  match p.get d with
  | none => p.entry.Told (valuesOf p.entry.name ms) (p.entry.value a)
  | some b => valuesOf p.entry.name ms = [] ∧ b = p.entry.value a

namespace Place

variable {p : Place δ α} {d d' : δ} {ms : Members} {a : α}

theorem completes_of_none (h : p.get d = none) :
    p.Completes d ms a ↔ p.entry.Told (valuesOf p.entry.name ms) (p.entry.value a) := by
  unfold Completes
  rw [h]

theorem completes_of_some {b : p.entry.β} (h : p.get d = some b) :
    p.Completes d ms a ↔ valuesOf p.entry.name ms = [] ∧ b = p.entry.value a := by
  unfold Completes
  rw [h]

/-- Without further members, the draft and the default decide. -/
theorem completes_nil_iff :
    p.Completes d [] a ↔ (p.get d).or p.entry.default? = some (p.entry.value a) := by
  cases h : p.get d with
  | none => rw [completes_of_none h, Option.none_or]; exact Entry.told_nil_iff
  | some b => rw [completes_of_some h, Option.some_or, Option.some_inj]; exact and_iff_right rfl

theorem completes_cons_of_ne {key : Option String} (h : key ≠ some p.entry.name) (v : Node) :
    p.Completes d ((key, v) :: ms) a ↔ p.Completes d ms a := by
  unfold Completes
  rw [valuesOf_cons_of_ne h]

/-- A member of the field itself is the only one, and the place is still empty. -/
theorem completes_cons_self_iff {v : Node} :
    p.Completes d ((some p.entry.name, v) :: ms) a ↔
      p.get d = none ∧ valuesOf p.entry.name ms = [] ∧ p.entry.describes v (p.entry.value a) := by
  cases h : p.get d with
  | none =>
    rw [completes_of_none h, valuesOf_cons_self, Entry.told_cons_iff]
    simp
  | some b =>
    rw [completes_of_some h, valuesOf_cons_self]
    simp

theorem completes_congr (h : p.get d = p.get d') : p.Completes d ms a ↔ p.Completes d' ms a := by
  unfold Completes
  rw [h]

end Place

/-! ## 3. One field -/

namespace Field.Serves

variable {ps qs : List (Place δ α)} {fs : List (Field δ)} {f : Field δ} {p : Place δ α}

theorem name_eq (h : f.Serves ps p) : f.name = p.entry.name := by
  cases h
  rfl

theorem hasDefault_eq (h : f.Serves ps p) : f.hasDefault = p.entry.default?.isSome := by
  cases h
  rfl

theorem isFilled_eq (h : f.Serves ps p) (d : δ) : f.isFilled d = (p.get d).isSome := by
  cases h
  rfl

/-- Filling a place leaves the others as they are. -/
theorem get_eq_of_fill (h : f.Serves ps p) {room : Nat} {v : Node} {d d' : δ}
    (hfill : f.fill room v d = .ok d') {q : Place δ α} (hq : q ∈ ps)
    (hne : q.entry.name ≠ p.entry.name) : q.get d' = q.get d := by
  cases h with
  | of reads own apart =>
    obtain ⟨b, -, rfl⟩ := except_map_eq_ok hfill
    exact apart q hq hne b d

/-- **One member is taken into an empty place exactly if it describes the value of the field.** -/
theorem fill_iff (h : f.Serves ps p) (hp : p ∈ ps) (hnodup : (ps.map (·.entry.name)).Nodup)
    {room : Nat} {v : Node} (hv : v.isSound room = true) {d : δ} {ms : Members} {a : α} :
    (f.isFilled d = false ∧ ∃ d', f.fill room v d = .ok d' ∧ ∀ q ∈ ps, q.Completes d' ms a) ↔
      ∀ q ∈ ps, q.Completes d ((some f.name, v) :: ms) a := by
  rw [h.isFilled_eq, h.name_eq, Option.isSome_eq_false_iff, Option.isNone_iff_eq_none]
  have hothers : ∀ q ∈ ps, q.entry.name ≠ p.entry.name → ∀ d, q.Completes d ms a ↔
      q.Completes d ((some p.entry.name, v) :: ms) a := by
    intro q _ hne d
    rw [Place.completes_cons_of_ne fun hname => hne (Option.some.inj hname).symm]
  have hsame : ∀ q ∈ ps, q.entry.name = p.entry.name → q = p := by
    intro q hq hname
    exact List.inj_on_of_nodup_map hnodup hq hp hname
  constructor
  · rintro ⟨hempty, d', hfill, hall⟩ q hq
    by_cases hname : q.entry.name = p.entry.name
    · have hqp := hsame q hq hname
      subst hqp
      rw [Place.completes_cons_self_iff]
      cases h with
      | of reads own apart =>
        obtain ⟨b, hread, rfl⟩ := except_map_eq_ok hfill
        obtain ⟨hrest, rfl⟩ := (Place.completes_of_some (own b d)).mp (hall _ hq)
        exact ⟨hempty, hrest, (reads room v _ hv).mp hread⟩
    · rw [← hothers q hq hname, ← Place.completes_congr (h.get_eq_of_fill hfill hq hname)]
      exact hall q hq
  · intro hall
    obtain ⟨hempty, hrest, hgiven⟩ := Place.completes_cons_self_iff.mp (hall p hp)
    refine ⟨hempty, ?_⟩
    have hfill : ∃ d', f.fill room v d = .ok d' ∧ p.get d' = some (p.entry.value a) := by
      cases h with
      | @of e get put reader reads own apart =>
        refine ⟨put (e.value a) d, ?_, own _ d⟩
        exact except_map_eq_ok_iff.mpr ⟨_, (reads room v _ hv).mpr hgiven, rfl⟩
    obtain ⟨d', hfill, hget⟩ := hfill
    refine ⟨d', hfill, fun q hq => ?_⟩
    by_cases hname : q.entry.name = p.entry.name
    · have hqp := hsame q hq hname
      subst hqp
      exact (Place.completes_of_some hget).mpr ⟨hrest, rfl⟩
    · rw [Place.completes_congr (h.get_eq_of_fill hfill hq hname), hothers q hq hname]
      exact hall q hq

/-- Any value can be put into the place, and the others stay as they are. -/
theorem exists_put (h : f.Serves ps p) (b : p.entry.β) (d : δ) :
    ∃ d', p.get d' = some b ∧ ∀ q ∈ ps, q.entry.name ≠ p.entry.name → q.get d' = q.get d := by
  cases h with
  | @of e get put reader reads own apart =>
    exact ⟨put b d, own b d, fun q hq hne => apart q hq hne b d⟩

/-- A name finds the field of its place, or there is no such place. -/
theorem find?_cases (h : List.Forall₂ (Field.Serves ps) qs fs) (key : String) :
    (∃ f p, fs.find? (·.name == key) = some f ∧ p ∈ qs ∧ f.Serves ps p ∧ f.name = key) ∨
      fs.find? (·.name == key) = none ∧ ∀ p ∈ qs, p.entry.name ≠ key := by
  induction h with
  | nil => exact .inr ⟨rfl, fun p hp => nomatch hp⟩
  | @cons p f qs fs hfirst _ ih =>
    by_cases hname : f.name = key
    · exact .inl ⟨f, p, List.find?_cons_of_pos (beq_iff_eq.mpr hname), List.mem_cons_self, hfirst,
        hname⟩
    · have hfind : (f :: fs).find? (·.name == key) = fs.find? (·.name == key) :=
        List.find?_cons_of_neg (by simpa using hname)
      rw [hfind]
      rcases ih with ⟨g, q, hg, hq, hserves, hkey⟩ | ⟨hnone, hall⟩
      · exact .inl ⟨g, q, hg, List.mem_cons_of_mem p hq, hserves, hkey⟩
      · refine .inr ⟨hnone, ?_⟩
        rw [List.forall_mem_cons, ← hfirst.name_eq]
        exact ⟨hname, hall⟩

theorem all_hasDefault_iff (h : List.Forall₂ (Field.Serves ps) qs fs) :
    fs.all (·.hasDefault) = true ↔ ∀ p ∈ qs, p.entry.default?.isSome = true := by
  induction h with
  | nil => simp
  | cons hfirst _ ih => simp [hfirst.hasDefault_eq, ih]

end Field.Serves

/-! ## 4. Records -/

namespace Record.Laid

variable {r : Record δ α} {ps : List (Place δ α)} {a : α}

theorem finish_iff (h : r.Laid ps) (d : δ) : r.finish d = .ok a ↔ ∀ p ∈ ps, p.Completes d [] a := by
  rw [h.finish]
  exact forall₂_congr fun p _ => Place.completes_nil_iff.symm

/-- **Sound members are taken in, and the record finished, exactly if they complete the draft.** -/
theorem foldlM_iff (h : r.Laid ps) {room : Nat} {ms : Members}
    (hms : ∀ m ∈ ms, m.1.isSome = true ∧ m.2.isSound room = true) (d : δ) :
    (∃ d', ms.foldlM (r.addMember room) d = .ok d' ∧ r.finish d' = .ok a) ↔
      ∀ p ∈ ps, p.Completes d ms a := by
  induction ms generalizing d with
  | nil =>
    rw [← h.finish_iff]
    exact ⟨fun ⟨_, hd, hfinish⟩ => Except.ok.inj hd ▸ hfinish, fun hfinish => ⟨d, rfl, hfinish⟩⟩
  | cons m ms ih =>
    rw [List.forall_mem_cons] at hms
    obtain ⟨⟨hkey, hv⟩, hms⟩ := hms
    obtain ⟨⟨⟩ | key, v⟩ := m
    · cases hkey
    have hstep : (∃ d', ((some key, v) :: ms).foldlM (r.addMember room) d = .ok d' ∧
          r.finish d' = .ok a) ↔
        ∃ d₁, r.addMember room d (some key, v) = .ok d₁ ∧ ∀ p ∈ ps, p.Completes d₁ ms a := by
      simp only [List.foldlM_cons, except_bind_eq_ok_iff, ← ih hms]
      exact ⟨fun ⟨d', ⟨d₁, h₁, h₂⟩, h₃⟩ => ⟨d₁, h₁, d', h₂, h₃⟩,
        fun ⟨d₁, h₁, d', h₂, h₃⟩ => ⟨d', ⟨d₁, h₁, h₂⟩, h₃⟩⟩
    rw [hstep]
    rcases Field.Serves.find?_cases h.fields key with ⟨f, p, hfind, hp, hserves, rfl⟩ | ⟨hnone, hne⟩
    · rw [← hserves.fill_iff hp h.nodup hv, addMember, hfind]
      cases hfilled : f.isFilled d <;> simp [hfilled]
    · have hadd : r.addMember room d (some key, v) = .ok d := by
        rw [addMember, hnone]
        exact if_pos (v.isWhole_of_isSound hv)
      have hothers : (∀ p ∈ ps, p.Completes d ((some key, v) :: ms) a) ↔
          ∀ p ∈ ps, p.Completes d ms a := by
        refine forall₂_congr fun p hp => ?_
        exact Place.completes_cons_of_ne (fun hname => hne p hp (Option.some.inj hname).symm) v
      rw [hothers, hadd]
      simp

/-- Where the items run out, the fields that are left are completed by their defaults. -/
theorem addItems_nil_iff (h : r.Laid ps) {fs : List (Field δ)} {qs : List (Place δ α)}
    (hserves : List.Forall₂ (Field.Serves ps) qs fs) (hmem : ∀ q ∈ qs, q ∈ ps) {d : δ}
    (hempty : ∀ q ∈ qs, q.get d = none) {room : Nat} {overlong : DecodeError} {count : Nat} :
    (∃ d', r.addItems room overlong true fs count [] d = .ok d' ∧ r.finish d' = .ok a) ↔
      ∀ p ∈ ps, p.Completes d [] a := by
  have hadd : r.addItems room overlong true fs count [] d =
      (r.cutOff fs count >>= fun _ => pure d) := by
    cases fs <;> rfl
  rw [← h.finish_iff, hadd]
  constructor
  · rintro ⟨d', hd, hfinish⟩
    obtain ⟨_, -, hd⟩ := except_bind_eq_ok hd
    exact Except.ok.inj hd ▸ hfinish
  · intro hfinish
    have hdefault : ∀ q ∈ qs, q.entry.default?.isSome = true := by
      intro q hq
      have hvalue := (h.finish d a).mp hfinish q (hmem q hq)
      rw [hempty q hq, Option.none_or] at hvalue
      rw [hvalue]
      rfl
    have hcut : r.cutOff fs count = .ok () :=
      if_pos ((Field.Serves.all_hasDefault_iff hserves).mpr hdefault)
    rw [hcut]
    exact ⟨d, rfl, hfinish⟩

/-- **Sound items are taken like members under the names of the fields.** -/
theorem addItems_iff (h : r.Laid ps) {fs : List (Field δ)} {qs : List (Place δ α)}
    (hserves : List.Forall₂ (Field.Serves ps) qs fs) (hmem : ∀ q ∈ qs, q ∈ ps)
    (hnodup : (qs.map (·.entry.name)).Nodup) {room : Nat} {items : List Node}
    (hitems : ∀ v ∈ items, v.isSound room = true) {d : δ} (hempty : ∀ q ∈ qs, q.get d = none)
    {overlong : DecodeError} {count : Nat} :
    (∃ d', r.addItems room overlong true fs count items d = .ok d' ∧ r.finish d' = .ok a) ↔
      items.length ≤ qs.length ∧
        ∀ p ∈ ps, p.Completes d ((qs.map fun q => some q.entry.name).zip items) a := by
  induction hserves generalizing items d count with
  | nil =>
    cases items with
    | nil => rw [h.addItems_nil_iff .nil hmem hempty]; simp
    | cons v items =>
      constructor
      · rintro ⟨_, hd, -⟩
        cases hd
      · rintro ⟨hlength, -⟩
        exact absurd hlength (Nat.not_succ_le_zero _)
  | @cons q f qs fs hfirst hrest ih =>
    cases items with
    | nil => rw [h.addItems_nil_iff (.cons hfirst hrest) hmem hempty]; simp
    | cons v items =>
      rw [List.forall_mem_cons] at hmem hempty hitems
      rw [List.map_cons, List.nodup_cons] at hnodup
      have hunfilled : f.isFilled d = false := by rw [hfirst.isFilled_eq, hempty.1]; rfl
      have hadd : r.addItems room overlong true (f :: fs) count (v :: items) d =
          (f.fill room v d >>= r.addItems room overlong true fs (count + 1) items) := rfl
      have hstep : ∀ d₁, f.fill room v d = .ok d₁ →
          ((∃ d', r.addItems room overlong true fs (count + 1) items d₁ = .ok d' ∧
              r.finish d' = .ok a) ↔ items.length ≤ qs.length ∧
            ∀ p ∈ ps, p.Completes d₁ ((qs.map fun q => some q.entry.name).zip items) a) := by
        intro d₁ hfill
        refine ih hmem.2 hnodup.2 hitems.2 fun q' hq' => ?_
        have hne : q'.entry.name ≠ q.entry.name := by
          intro hname
          exact hnodup.1 (hname ▸ List.mem_map_of_mem hq')
        rw [hfirst.get_eq_of_fill hfill (hmem.2 q' hq') hne]
        exact hempty.2 q' hq'
      rw [List.map_cons, List.zip_cons_cons, ← hfirst.name_eq,
        ← hfirst.fill_iff hmem.1 h.nodup hitems.1, hadd]
      simp only [List.length_cons, Nat.add_le_add_iff_right, except_bind_eq_ok_iff]
      constructor
      · rintro ⟨d', ⟨d₁, hfill, hd⟩, hfinish⟩
        obtain ⟨hlength, hall⟩ := (hstep d₁ hfill).mp ⟨d', hd, hfinish⟩
        exact ⟨hlength, hunfilled, d₁, hfill, hall⟩
      · rintro ⟨hlength, -, d₁, hfill, hall⟩
        obtain ⟨d', hd, hfinish⟩ := (hstep d₁ hfill).mpr ⟨hlength, hall⟩
        exact ⟨d', ⟨d₁, hfill, hd⟩, hfinish⟩

/-- A blank draft is completed by the members that describe the value. -/
theorem completes_blank_iff (h : r.Laid ps) {ms : Members} :
    (∀ p ∈ ps, p.Completes r.blank ms a) ↔ (Schema.ofPlaces ps).DescribedBy ms a := by
  unfold Schema.DescribedBy Schema.ofPlaces
  rw [List.forall_mem_map]
  exact forall₂_congr fun p hp => Place.completes_of_none (h.blank p hp)

theorem ofMembers_iff (h : r.Laid ps) {room : Nat} {ms : Members}
    (hms : ∀ m ∈ ms, m.1.isSome = true ∧ m.2.isSound room = true) :
    (∃ d, r.ofMembers room ms = .ok d ∧ r.finish d = .ok a) ↔
      (Schema.ofPlaces ps).DescribedBy ms a := by
  rw [← h.completes_blank_iff]
  exact h.foldlM_iff hms r.blank

theorem ofItems_iff (h : r.Laid ps) {room : Nat} {items : List Node}
    (hitems : ∀ v ∈ items, v.isSound room = true) {overlong : DecodeError} :
    (∃ d, r.addItems room overlong true r.fields 0 items r.blank = .ok d ∧ r.finish d = .ok a) ↔
      items.length ≤ (Schema.ofPlaces ps).names.length ∧
        (Schema.ofPlaces ps).DescribedBy (((Schema.ofPlaces ps).names.map some).zip items) a := by
  have hnames : (Schema.ofPlaces ps).names.map some = ps.map fun p => some p.entry.name := by
    simp [Schema.names, Schema.ofPlaces]
  have hlength : (Schema.ofPlaces ps).names.length = ps.length := by
    simp [Schema.names, Schema.ofPlaces]
  rw [hnames, hlength, ← h.completes_blank_iff]
  exact h.addItems_iff h.fields (fun _ hp => hp) h.nodup hitems h.blank

/-- **A record accepts exactly the trees that its schema describes.** -/
theorem reads (h : r.Laid ps) : r.reader.Reads (Schema.ofPlaces ps).Describes := by
  intro room v a hv
  cases v with
  | object ms closed =>
    cases room with
    | zero => cases hv
    | succ room =>
      rw [Node.isSound_object_iff] at hv
      obtain ⟨hms, rfl⟩ := hv
      have hread : r.reader (room + 1) (.object ms true) =
          (r.ofMembers room ms >>= r.finish) := rfl
      rw [hread, except_bind_eq_ok_iff, h.ofMembers_iff hms, Schema.describes_object_iff]
  | array items closed =>
    cases room with
    | zero => cases hv
    | succ room =>
      rw [Node.isSound_array_iff] at hv
      obtain ⟨hitems, rfl⟩ := hv
      have hread : r.reader (room + 1) (.array items true) =
          (r.addItems room .malformed true r.fields 0 items r.blank >>= r.finish) := rfl
      rw [hread, except_bind_eq_ok_iff, h.ofItems_iff hitems, Schema.describes_array_iff]
  | _ =>
    constructor
    · intro hread
      exact absurd hread (by cases room <;> exact unexpected_ne_ok)
    · rintro ⟨_, hgives, -⟩
      cases hgives

/-! ## 5. Completeness -/

/-- There is a draft with any choice of values in its places. -/
theorem exists_draft (h : r.Laid ps) (choice : (p : Place δ α) → Option p.entry.β) :
    ∃ d, ∀ p ∈ ps, p.get d = choice p := by
  have hserved : ∀ p ∈ ps, ∃ f : Field δ, f.Serves ps p := by
    intro p hp
    obtain ⟨i, hi, rfl⟩ := List.getElem_of_mem hp
    exact ⟨_, h.fields.get hi (h.fields.length_eq ▸ hi)⟩
  -- the places are filled one after the other; `qs` are those already done
  have hfilled : ∀ qs : List (Place δ α), (∀ q ∈ qs, q ∈ ps) → ∃ d, ∀ p ∈ ps,
      p.get d = if p.entry.name ∈ qs.map (·.entry.name) then choice p else none := by
    intro qs
    induction qs with
    | nil => exact fun _ => ⟨r.blank, fun p hp => by rw [h.blank p hp]; simp⟩
    | cons q qs ih =>
      intro hqs
      rw [List.forall_mem_cons] at hqs
      obtain ⟨d, hd⟩ := ih hqs.2
      have hsame : ∀ p ∈ ps, p.entry.name = q.entry.name → p = q := fun p hp hname =>
        List.inj_on_of_nodup_map h.nodup hp hqs.1 hname
      cases hchoice : choice q with
      | none =>
        refine ⟨d, fun p hp => ?_⟩
        rw [hd p hp]
        by_cases hname : p.entry.name = q.entry.name
        · have hpq := hsame p hp hname
          subst hpq
          simp [hchoice]
        · simp [hname]
      | some b =>
        obtain ⟨f, hf⟩ := hserved q hqs.1
        obtain ⟨d', hown, hothers⟩ := hf.exists_put b d
        refine ⟨d', fun p hp => ?_⟩
        by_cases hname : p.entry.name = q.entry.name
        · have hpq := hsame p hp hname
          subst hpq
          simp [hown, hchoice]
        · rw [hothers p hp hname, hd p hp]
          simp [hname]
  obtain ⟨d, hd⟩ := hfilled ps fun _ hp => hp
  refine ⟨d, fun p hp => ?_⟩
  rw [hd p hp, if_pos (List.mem_map_of_mem hp)]

/-- **The fields of a record are all there is to its values.** -/
theorem complete (h : r.Laid ps) : (Schema.ofPlaces ps).Complete := by
  intro ms htold
  have hchoice : ∀ p : Place δ α, ∃ o : Option p.entry.β, p ∈ ps →
      ∃ b, o.or p.entry.default? = some b ∧ p.entry.Told (valuesOf p.entry.name ms) b := by
    intro p
    by_cases hp : p ∈ ps
    · obtain ⟨b, hb⟩ := htold p.entry (List.mem_map_of_mem hp)
      cases hvalues : valuesOf p.entry.name ms with
      | nil =>
        rw [hvalues] at hb
        exact ⟨none, fun _ => ⟨b, Entry.told_nil_iff.mp hb, hb⟩⟩
      | cons v vs =>
        rw [hvalues] at hb
        exact ⟨some b, fun _ => ⟨b, rfl, hb⟩⟩
    · exact ⟨none, fun h => absurd h hp⟩
  choose choice hchoice using hchoice
  obtain ⟨d, hd⟩ := h.exists_draft choice
  obtain ⟨a, ha⟩ := h.total d fun p hp => by
    obtain ⟨b, hb, -⟩ := hchoice p hp
    rw [hd p hp, hb]
    rfl
  refine ⟨a, List.forall_mem_map.mpr fun p hp => ?_⟩
  obtain ⟨b, hb, htold⟩ := hchoice p hp
  have hvalue := (h.finish d a).mp ha p hp
  rw [hd p hp, hb] at hvalue
  exact Option.some.inj hvalue ▸ htold

end Record.Laid

end ModifierFacts.Json
