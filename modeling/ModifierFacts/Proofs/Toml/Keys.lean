import Mathlib.Data.List.Nodup
import ModifierFacts.Toml.Document

/-!
# No key is defined twice

Every statement of a configuration text adds a key that is not there yet, or changes what is under
one that is. So the keys of the root table are different, and a key has one value.

* `Toml.Keyed`: the keys of a table are different;
* `Toml.keyed_descend`: walking down a path keeps the keys of the table that it starts from
  different, if the change at its end does;
* **`Toml.keyed_parse`**: a text that is well formed leaves a root table with different keys.
-/

namespace ModifierFacts.Toml

/-! ## 1. Tables -/

/-- The keys of a table are different. -/
def Keyed (entries : Entries) : Prop := (entries.map (·.1)).Nodup

theorem keyed_nil : Keyed [] := List.nodup_nil

theorem lookup_eq_none_iff_notMem {entries : Entries} {key : String} :
    entries.lookup key = none ↔ key ∉ entries.map (·.1) := by
  rw [List.lookup_eq_none_iff]
  simp only [List.mem_map, not_exists, not_and, bne_iff_ne]
  constructor
  · intro h e he hkey
    exact h e he hkey.symm
  · intro h e he hkey
    exact h e he hkey.symm

/-- A new key at the end. -/
theorem Keyed.concat {entries : Entries} (h : Keyed entries) {key : String}
    (hkey : entries.lookup key = none) (item : Item) : Keyed (entries ++ [(key, item)]) := by
  have hnew : key ∉ entries.map (·.1) := lookup_eq_none_iff_notMem.mp hkey
  rw [Keyed, List.map_append, List.nodup_append]
  refine ⟨h, List.nodup_singleton key, ?_⟩
  intro k hk k' hk' heq
  rw [List.map_singleton, List.mem_singleton] at hk'
  rw [heq, hk'] at hk
  exact hnew hk

/-- Another item under a key. -/
theorem keys_replace (entries : Entries) (key : String) (item : Item) :
    (replace entries key item).map (·.1) = entries.map (·.1) := by
  rw [replace, List.map_map]
  refine List.map_congr_left ?_
  intro e _
  by_cases he : e.1 = key
  · simp [he]
  · simp [he]

theorem Keyed.replace {entries : Entries} (h : Keyed entries) (key : String) (item : Item) :
    Keyed (replace entries key item) := by
  rw [Keyed, keys_replace]
  exact h

/-- A key that moves to the end. -/
theorem Keyed.moved {entries : Entries} (h : Keyed entries) (key : String) (item : Item) :
    Keyed (entries.filter (·.1 != key) ++ [(key, item)]) := by
  have hfilter : Keyed (entries.filter (·.1 != key)) :=
    List.Nodup.sublist (List.filter_sublist.map _) h
  refine hfilter.concat ?_ item
  rw [lookup_eq_none_iff_notMem]
  intro hmem
  obtain ⟨e, he, hkey⟩ := List.mem_map.mp hmem
  have hne := (List.mem_filter.mp he).2
  rw [hkey] at hne
  simp at hne

/-! ## 2. Statements -/

/-- The change at the end of a path keeps the keys different if it leads anywhere. -/
theorem keyed_descend {make : Origin} {change : Origin → Entries → Option Entries}
    (hchange : ∀ origin entries entries', change origin entries = some entries' →
      Keyed entries → Keyed entries') (path : List String) {origin : Origin}
    {entries entries' : Entries}
    (hdescend : descend make change path origin entries = some entries') (h : Keyed entries) : Keyed entries' := by
  cases path with
  | nil => exact hchange origin entries entries' hdescend h
  | cons key path =>
    -- below the first key of the path only the item under that key changes
    rw [descend] at hdescend
    split at hdescend
    · rename_i hkey
      obtain ⟨inner, -, heq⟩ := Option.bind_eq_some_iff.mp hdescend
      cases heq
      exact h.concat hkey _
    · split at hdescend
      · cases hdescend
      · obtain ⟨inner, -, heq⟩ := Option.bind_eq_some_iff.mp hdescend
        cases heq
        exact h.replace key _
    · split at hdescend
      · cases hdescend
      · obtain ⟨last, -, heq⟩ := Option.bind_eq_some_iff.mp hdescend
        cases heq
        exact h.replace key _
    all_goals cases hdescend

theorem keyed_openTable {path : List String} {key : String} {root root' : Entries}
    (hopen : openTable path key root = some root') (h : Keyed root) : Keyed root' := by
  refine keyed_descend ?_ path hopen h
  intro _ entries entries' hchange h
  split at hchange
  · rename_i hkey
    cases hchange
    exact h.concat hkey _
  · cases hchange
    exact h.moved key _
  · cases hchange

theorem keyed_openRow {path : List String} {key : String} {root root' : Entries}
    (hopen : openRow path key root = some root') (h : Keyed root) : Keyed root' := by
  refine keyed_descend ?_ path hopen h
  intro _ entries entries' hchange h
  split at hchange
  · rename_i hkey
    cases hchange
    exact h.concat hkey _
  · cases hchange
    exact h.replace key _
  · cases hchange

theorem keyed_assign {path : List String} {key : String} {item : Item} {entries entries' : Entries}
    (hassign : assign path key item entries = some entries') (h : Keyed entries) :
    Keyed entries' := by
  refine keyed_descend ?_ path hassign h
  intro _ entries entries' hchange h
  split at hchange
  · cases hchange
  · split at hchange
    · rename_i hkey
      cases hchange
      exact h.concat hkey item
    · cases hchange

theorem keyed_assignIn {table path : List String} {key : String} {item : Item}
    {root root' : Entries} (hassign : assignIn table path key item root = some root')
    (h : Keyed root) : Keyed root' :=
  keyed_descend (fun _ _ _ => keyed_assign) table hassign h

/-! ## 3. Texts -/

theorem keyed_assignment {state state' : State} {cs rest : List Char}
    (hread : assignment? state cs = some (state', rest)) (h : Keyed state.root) :
    Keyed state'.root := by
  simp only [assignment?, bind, Option.bind_eq_some_iff, pure, Option.some.injEq,
    Prod.mk.injEq] at hread
  obtain ⟨_, _, _, _, _, _, _, _, root, hassign, rfl, -⟩ := hread
  exact keyed_assignIn hassign h

theorem keyed_header {state state' : State} {cs rest : List Char}
    (hread : header? state cs = some (state', rest)) (h : Keyed state.root) :
    Keyed state'.root := by
  unfold header? at hread
  split at hread
  · simp only [bind, Option.bind_eq_some_iff, pure, Option.some.injEq, Prod.mk.injEq] at hread
    obtain ⟨_, _, _, _, _, _, _, _, root, hopen, rfl, -⟩ := hread
    exact keyed_openRow hopen h
  · simp only [bind, Option.bind_eq_some_iff, pure, Option.some.injEq, Prod.mk.injEq] at hread
    obtain ⟨_, _, _, _, _, _, root, hopen, rfl, -⟩ := hread
    exact keyed_openTable hopen h

/-- Statement after statement keeps the keys of the root table different. -/
theorem keyed_statements {fuel : Nat} {state state' : State} {cs : List Char}
    (hread : statements? fuel state cs = some state') (h : Keyed state.root) :
    Keyed state'.root := by
  induction fuel generalizing state cs with
  | zero => cases hread
  | succ fuel ih =>
    rw [statements?] at hread
    split at hread
    · cases hread
      exact h
    · obtain ⟨rest, -, hrest⟩ := Option.bind_eq_some_iff.mp hread
      exact ih hrest h
    · obtain ⟨⟨next, rest⟩, hheader, hrest⟩ := Option.bind_eq_some_iff.mp hread
      exact ih hrest (keyed_header hheader h)
    · split at hread
      · obtain ⟨rest, -, hrest⟩ := Option.bind_eq_some_iff.mp hread
        exact ih hrest h
      · obtain ⟨⟨next, rest⟩, hassignment, hrest⟩ := Option.bind_eq_some_iff.mp hread
        exact ih hrest (keyed_assignment hassignment h)

/-- **A well-formed text defines no key of its root table twice.** -/
theorem keyed_parse {text : String} {entries : Entries} (h : parse text = some entries) :
    Keyed entries := by
  obtain ⟨state, hread, rfl⟩ := Option.map_eq_some_iff.mp h
  exact keyed_statements hread keyed_nil

end ModifierFacts.Toml
