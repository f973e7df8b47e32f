import Mathlib.Data.Finset.Card

/-!
# Lists by their first occurrences

`List.eraseDups` keeps of every item the place where it occurs first. What it keeps is fixed by two
things: which items occur, and which of two items occurs first.

* `eraseDups_concat`: one more item at the end of a list;
* `pairwise_eraseDups`: what is kept stands in the order of the first occurrences, so no item is
  kept twice (`nodup_eraseDups`);
* `length_eraseDups`: the number of different items of a list;
* **`eraseDups_eq_iff`**: two lists keep the same if they have the same items and these occur first
  in the same order.
-/

namespace ModifierFacts

variable {α : Type} [DecidableEq α]

theorem eraseDups_concat (xs : List α) (x : α) :
    (xs ++ [x]).eraseDups = if x ∈ xs then xs.eraseDups else xs.eraseDups ++ [x] := by
  rw [List.eraseDups_append]
  by_cases h : x ∈ xs
  · have hnone : [x].removeAll xs = [] := by simp [List.removeAll, h]
    rw [if_pos h, hnone, List.eraseDups_nil, List.append_nil]
  · have hone : [x].removeAll xs = [x] := by simp [List.removeAll, h]
    rw [if_neg h, hone, List.eraseDups_cons]
    rfl

/-- **What is kept stands in the order of the first occurrences.** -/
theorem pairwise_eraseDups (xs : List α) :
    xs.eraseDups.Pairwise fun x y => xs.idxOf x < xs.idxOf y := by
  -- from the end: one more item leaves the place of every earlier one, and comes after all of them
  induction xs using List.reverseRecOn with
  | nil => exact .nil
  | append_singleton xs x ih =>
    have hbefore (y : α) (hy : y ∈ xs.eraseDups) : (xs ++ [x]).idxOf y = xs.idxOf y :=
      List.idxOf_append_of_mem (List.mem_eraseDups.mp hy)
    have hold : xs.eraseDups.Pairwise fun y z => (xs ++ [x]).idxOf y < (xs ++ [x]).idxOf z := by
      refine ih.imp_of_mem fun {y z} hy hz h => ?_
      rw [hbefore y hy, hbefore z hz]
      exact h
    rw [eraseDups_concat]
    by_cases hx : x ∈ xs
    · rw [if_pos hx]
      exact hold
    · rw [if_neg hx]
      refine List.pairwise_append.mpr ⟨hold, List.pairwise_singleton _ _, fun y hy z hz => ?_⟩
      have hlast : (xs ++ [x]).idxOf x = xs.length := by
        rw [List.idxOf_append_of_notMem hx, List.idxOf_cons_self, Nat.add_zero]
      have hlt : xs.idxOf y < xs.length := List.idxOf_lt_length_of_mem (List.mem_eraseDups.mp hy)
      rw [List.mem_singleton.mp hz, hbefore y hy, hlast]
      exact hlt

theorem nodup_eraseDups (xs : List α) : xs.eraseDups.Nodup :=
  (pairwise_eraseDups xs).imp fun h e => by
    rw [e] at h
    exact Nat.lt_irrefl _ h

theorem toFinset_eraseDups (xs : List α) : xs.eraseDups.toFinset = xs.toFinset := by
  ext x
  rw [List.mem_toFinset, List.mem_toFinset, List.mem_eraseDups]

theorem length_eraseDups (xs : List α) : xs.eraseDups.length = xs.toFinset.card := by
  rw [← List.toFinset_card_of_nodup (nodup_eraseDups xs), toFinset_eraseDups]

theorem eraseDups_perm_iff (xs ys : List α) :
    xs.eraseDups.Perm ys.eraseDups ↔ ∀ x, x ∈ xs ↔ x ∈ ys := by
  rw [List.perm_ext_iff_of_nodup (nodup_eraseDups xs) (nodup_eraseDups ys)]
  simp only [List.mem_eraseDups]

/-- Two items are kept in the order in which they occur first. -/
theorem idxOf_eraseDups_lt_iff {xs : List α} {x y : α} (hx : x ∈ xs) (hy : y ∈ xs) :
    xs.eraseDups.idxOf x < xs.eraseDups.idxOf y ↔ xs.idxOf x < xs.idxOf y := by
  have horder {u v : α} (hu : u ∈ xs) (hv : v ∈ xs)
      (h : xs.eraseDups.idxOf u < xs.eraseDups.idxOf v) : xs.idxOf u < xs.idxOf v := by
    have hiu := List.idxOf_lt_length_of_mem (List.mem_eraseDups.mpr hu)
    have hiv := List.idxOf_lt_length_of_mem (List.mem_eraseDups.mpr hv)
    have hlt := List.pairwise_iff_getElem.mp (pairwise_eraseDups xs) _ _ hiu hiv h
    rwa [List.getElem_idxOf, List.getElem_idxOf] at hlt
  refine ⟨horder hx hy, fun h => ?_⟩
  rcases Nat.lt_trichotomy (xs.eraseDups.idxOf x) (xs.eraseDups.idxOf y) with hlt | heq | hgt
  · exact hlt
  · have hsame : x = y := (List.idxOf_inj (List.mem_eraseDups.mpr hx)).mp heq
    rw [hsame] at h
    omega
  · have hback := horder hy hx hgt
    omega

/-- **Two lists keep the same exactly if they have the same items and agree on which of two items
occurs first.** -/
theorem eraseDups_eq_iff (xs ys : List α) :
    xs.eraseDups = ys.eraseDups ↔
      (∀ x, x ∈ xs ↔ x ∈ ys) ∧
        ∀ x ∈ xs, ∀ y ∈ xs, xs.idxOf x < xs.idxOf y ↔ ys.idxOf x < ys.idxOf y := by
  constructor
  · intro h
    have hmem : ∀ x, x ∈ xs ↔ x ∈ ys := (eraseDups_perm_iff xs ys).mp (.of_eq h)
    refine ⟨hmem, fun x hx y hy => ?_⟩
    rw [← idxOf_eraseDups_lt_iff hx hy, h,
      idxOf_eraseDups_lt_iff ((hmem x).mp hx) ((hmem y).mp hy)]
  · rintro ⟨hmem, horder⟩
    have hys : ys.eraseDups.Pairwise fun x y => xs.idxOf x < xs.idxOf y := by
      refine (pairwise_eraseDups ys).imp_of_mem fun {x y} hx hy h => ?_
      have hx' : x ∈ xs := (hmem x).mpr (List.mem_eraseDups.mp hx)
      have hy' : y ∈ xs := (hmem y).mpr (List.mem_eraseDups.mp hy)
      exact (horder x hx' y hy').mpr h
    refine List.Perm.eq_of_pairwise (fun x y _ _ hxy hyx => ?_) (pairwise_eraseDups xs) hys
      ((eraseDups_perm_iff xs ys).mpr hmem)
    omega

end ModifierFacts
