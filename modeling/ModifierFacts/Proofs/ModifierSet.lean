import ModifierFacts.ModifierSet
import ModifierFacts.Proofs.FirstOccurrence

/-!
# What a set of modifier names holds

`ModifierSet.add` grows a list at its end and looks through all of it first. The set that a list of
names makes therefore has each name at the place of its first supply: `ModifierSet.names_ofList`. No
set that is built by adding has a name twice (`ModifierSet.nodup_ofList`).
-/

namespace ModifierFacts.ModifierSet

/-- Adding to the set of a list is adding to the list. -/
theorem ofList_append (ns ms : List String) : ofList (ns ++ ms) = (ofList ns).extend ms := by
  unfold ofList extend
  exact List.foldl_append

theorem contains_iff (s : ModifierSet) (n : String) : s.contains n = true ↔ n ∈ s.names :=
  List.contains_iff_mem

theorem names_add (s : ModifierSet) (n : String) :
    (s.add n).names = if n ∈ s.names then s.names else s.names ++ [n] := by
  unfold add
  by_cases h : n ∈ s.names
  · rw [if_pos ((contains_iff s n).mpr h), if_pos h]
  · rw [if_neg (fun hc => h ((contains_iff s n).mp hc)), if_neg h]

/-- **The set of a list holds the first supplies of the list, in order.** -/
theorem names_ofList (ns : List String) : (ofList ns).names = ns.eraseDups := by
  induction ns using List.reverseRecOn with
  | nil => rfl
  | append_singleton ns n ih =>
    have hlast : ofList (ns ++ [n]) = (ofList ns).add n := ofList_append ns [n]
    rw [hlast, names_add, ih, eraseDups_concat]
    simp only [List.mem_eraseDups]

theorem nodup_ofList (ns : List String) : (ofList ns).names.Nodup := by
  rw [names_ofList]
  exact nodup_eraseDups ns

end ModifierFacts.ModifierSet
