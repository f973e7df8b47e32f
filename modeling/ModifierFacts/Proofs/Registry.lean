import ModifierFacts.Entity.Basic
import ModifierFacts.Registry

/-!
# Keys of a registry, and faithful registries

A registry is a list of entries that only grows at its end, and only by keys that it lacks.

* `Registry.keys`: the keys, in the order in which their entities were made; `contains` is
  membership in them.
* `Registry.Faithful`: a registry of modifier names holds, under each name, the entity of that name.
-/

namespace ModifierFacts.Registry

section Keys

variable {κ ε : Type} (r : Registry κ ε)

/-- The keys of a registry, the oldest first. -/
def keys : List κ := r.entries.map (·.1)

theorem keys_register (k : κ) (e : ε) : (r.register k e).keys = r.keys ++ [k] :=
  List.map_append

variable [DecidableEq κ]

theorem contains_iff_mem_keys (k : κ) : r.contains k = true ↔ k ∈ r.keys := by
  unfold contains get? keys
  rw [List.lookup_isSome_iff, List.mem_map]
  constructor
  · intro ⟨p, hp, h⟩
    exact ⟨p, hp, (beq_iff_eq.mp h).symm⟩
  · intro ⟨p, hp, h⟩
    exact ⟨p, hp, beq_iff_eq.mpr h.symm⟩

theorem get?_eq_none_iff (k : κ) : r.get? k = none ↔ k ∉ r.keys := by
  rw [← contains_iff_mem_keys, contains, Bool.not_eq_true, Option.isSome_eq_false_iff,
    Option.isNone_iff_eq_none]

theorem mem_keys_of_get? {r : Registry κ ε} {k : κ} {e : ε} (h : r.get? k = some e) :
    k ∈ r.keys := by
  rw [← contains_iff_mem_keys, contains, h]
  rfl

/-- A new key is found under the entity that was made for it, every other one as before. -/
theorem get?_register {k : κ} (e : ε) (h : r.get? k = none) (j : κ) :
    (r.register k e).get? j = if j = k then some e else r.get? j := by
  unfold get? register at *
  rw [List.lookup_append, List.lookup_cons, List.lookup_nil]
  by_cases hj : j = k
  · subst hj
    rw [h, beq_self_eq_true, if_pos rfl]
    rfl
  · rw [beq_eq_false_iff_ne.mpr hj, if_neg hj, Option.or_none]

theorem contains_register (k : κ) (e : ε) (j : κ) :
    (r.register k e).contains j = (r.contains j || j == k) := by
  rw [Bool.eq_iff_iff, Bool.or_eq_true, contains_iff_mem_keys, contains_iff_mem_keys, keys_register,
    List.mem_append, List.mem_singleton, beq_iff_eq]

end Keys

/-- Every name stands for its own entity. -/
def Faithful (r : Registry String ModifierEntity) : Prop :=
  ∀ n e, r.get? n = some e → e = .ofName n

theorem faithful_empty : Faithful .empty := by
  intro n e h
  cases h

theorem Faithful.register {r : Registry String ModifierEntity} (hr : r.Faithful) {n : String}
    (hn : r.get? n = none) : (r.register n (.ofName n)).Faithful := by
  intro m e h
  rw [get?_register r _ hn] at h
  by_cases hm : m = n
  · rw [if_pos hm] at h
    cases h
    rw [hm]
  · rw [if_neg hm] at h
    exact hr m e h

end ModifierFacts.Registry
