import ModifierFacts.Proofs.ModifierSet
import ModifierFacts.Proofs.Text.Order

/-!
# Sets of names under any additions

A set of modifier names is built from the empty one, a name or a list of names at a time. However
its names were grouped, it is the set of the list of all supplied names.

* `ModifierSet.Addition`, `ModifierSet.built`: a sequence of additions, and the set it builds;
  `ModifierSet.supplied`: the names it supplies, as often as it does;
* `ModifierSet.names_built`: the set holds the first occurrences of the supplied names;
* `ModifierSet.built_eq_iff`: when two sequences build the same set; `ModifierSet.sorted_eq_iff`:
  when they build sets with the same sorted names;
* **`ModifierSet.built_decides`**: what a set says of the names that were supplied.
-/

namespace ModifierFacts.ModifierSet

/-! ## 1. Additions -/

/-- One addition to a set. -/
inductive Addition where
  | insert (name : String)
  | extend (names : List String)
  deriving DecidableEq, Repr

/-- The names that an addition supplies. -/
def Addition.names : Addition → List String
  | insert name => [name]
  | extend names => names

/-- The set after an addition. -/
def after (s : ModifierSet) : Addition → ModifierSet
  | .insert name => (s.insert name).1
  | .extend names => s.extend names

/-- The set that additions build from the empty one. -/
def built (additions : List Addition) : ModifierSet := additions.foldl after empty

/-- The names that additions supply, in order. -/
def supplied (additions : List Addition) : List String := additions.flatMap Addition.names

/-- Every addition extends the set by the names that it supplies. -/
theorem after_eq_extend (s : ModifierSet) (a : Addition) : s.after a = s.extend a.names := by
  cases a <;> rfl

theorem built_concat (additions : List Addition) (a : Addition) :
    built (additions ++ [a]) = (built additions).after a := by
  unfold built
  rw [List.foldl_concat]

theorem supplied_concat (additions : List Addition) (a : Addition) :
    supplied (additions ++ [a]) = supplied additions ++ a.names := by
  unfold supplied
  rw [List.flatMap_append, List.flatMap_singleton]

/-- **Additions build the set of the names that they supply.** -/
theorem built_eq_ofList (additions : List Addition) : built additions = ofList (supplied additions) := by
  induction additions using List.reverseRecOn with
  | nil => rfl
  | append_singleton additions a ih =>
    rw [built_concat, after_eq_extend, ih, supplied_concat, ofList_append]

/-! ## 2. What the set holds -/

theorem names_built (additions : List Addition) :
    (built additions).names = (supplied additions).eraseDups := by
  rw [built_eq_ofList, names_ofList]

theorem nodup_built (additions : List Addition) : (built additions).names.Nodup := by
  rw [built_eq_ofList]
  exact nodup_ofList _

theorem contains_built_iff (additions : List Addition) (n : String) :
    (built additions).contains n = true ↔ n ∈ supplied additions := by
  rw [contains_iff, names_built, List.mem_eraseDups]

theorem insert_built_iff (additions : List Addition) (n : String) :
    ((built additions).insert n).2 = true ↔ n ∉ supplied additions := by
  unfold insert
  rw [← contains_built_iff, Bool.not_eq_true', Bool.not_eq_true]

theorem size_built (additions : List Addition) :
    (built additions).size = (supplied additions).toFinset.card := by
  unfold size
  rw [names_built, length_eraseDups]

/-! ## 3. Sorted names, and two sets -/

theorem mem_sorted (s : ModifierSet) (n : String) : n ∈ s.sorted ↔ n ∈ s.names :=
  (Text.sortBytes_perm s.names).mem_iff

/-- Two sequences supply the same names if the sets they build have the same ones. -/
theorem contains_built_eq_iff (additions others : List Addition) :
    (∀ n, (built additions).contains n = (built others).contains n) ↔
      ∀ n, n ∈ supplied additions ↔ n ∈ supplied others := by
  refine forall_congr' fun n => ?_
  rw [Bool.eq_iff_iff, contains_built_iff, contains_built_iff]

/-- **Sorted names tell exactly which names a set has.** -/
theorem sorted_eq_iff (additions others : List Addition) :
    (built additions).sorted = (built others).sorted ↔
      ∀ n, (built additions).contains n = (built others).contains n := by
  unfold sorted
  rw [Text.sortBytes_eq_iff, names_built, names_built, eraseDups_perm_iff, contains_built_eq_iff]

/-- **Sets are equal exactly if they have the same names and these were first supplied in the same
order.** -/
theorem built_eq_iff (additions others : List Addition) :
    built additions = built others ↔
      (∀ n, (built additions).contains n = (built others).contains n) ∧
        ∀ m ∈ supplied additions, ∀ n ∈ supplied additions,
          (supplied additions).idxOf m < (supplied additions).idxOf n ↔
            (supplied others).idxOf m < (supplied others).idxOf n := by
  have hnames : built additions = built others ↔ (built additions).names = (built others).names :=
    ⟨congrArg names, fun h => congrArg ModifierSet.mk h⟩
  rw [hnames, names_built, names_built, eraseDups_eq_iff, contains_built_eq_iff]

/-- **A set is decided by the names that were supplied.** After any insertions and extensions, it
lists the first occurrences of these names in order of supply; one more insertion says that it added
its name exactly if the name was not supplied before; the set contains exactly the supplied names,
and its size is their number. Its sorted names are these names in strictly increasing byte order.
Two sets have the same sorted names exactly if they contain the same names, and they are equal
exactly if, beyond that, one name was first supplied before another to both or to neither. -/
theorem built_decides (additions others : List Addition) :
    let s := built additions
    let t := built others
    s.names = (supplied additions).eraseDups ∧
      (∀ n, (s.insert n).2 = true ↔ n ∉ supplied additions) ∧
      (∀ n, s.contains n = true ↔ n ∈ supplied additions) ∧
      s.size = (supplied additions).toFinset.card ∧
      s.sorted.Pairwise (fun m n => Text.bytes m < Text.bytes n) ∧
      (∀ n, n ∈ s.sorted ↔ n ∈ supplied additions) ∧
      (s.sorted = t.sorted ↔ ∀ n, s.contains n = t.contains n) ∧
      (s = t ↔
        (∀ n, s.contains n = t.contains n) ∧
          ∀ m ∈ supplied additions, ∀ n ∈ supplied additions,
            (supplied additions).idxOf m < (supplied additions).idxOf n ↔
              (supplied others).idxOf m < (supplied others).idxOf n) := by
  intro s t
  have hsorted : s.sorted.Pairwise fun m n => Text.bytes m < Text.bytes n :=
    Text.strictlySorted_sortBytes (nodup_built additions)
  have hmem : ∀ n, n ∈ s.sorted ↔ n ∈ supplied additions := by
    intro n
    rw [mem_sorted, ← contains_iff, contains_built_iff]
  exact ⟨names_built additions, insert_built_iff additions, contains_built_iff additions,
    size_built additions, hsorted, hmem, sorted_eq_iff additions others,
    built_eq_iff additions others⟩

end ModifierFacts.ModifierSet
