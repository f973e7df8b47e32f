import ModifierFacts.Proofs.Text.Bytes

/-!
# The byte order of texts

Texts are compared by their bytes, and the first byte in which they differ decides. Since the bytes
determine the text, this is a linear order on texts, and sorting by it gives every collection of
texts one form.

* `Text.bytes_injective`: different texts have different bytes;
* `Text.compareLists_eq_gt_iff`, `Text.atMost_iff`: the comparison is the lexicographic order;
* `Text.strictlySorted_sortBytes`: texts of which none stands twice are sorted strictly;
* **`Text.sortBytes_eq_iff`**: two lists are sorted to the same one if they have the same texts,
  each as often.
-/

namespace ModifierFacts.Text

theorem bytes_injective {s t : String} (h : bytes s = bytes t) : s = t := by
  rw [bytes_eq_data, bytes_eq_data] at h
  have hdata : s.toByteArray.data = t.toByteArray.data := Array.toList_inj.mp h
  exact String.toByteArray_inj.mp (ByteArray.ext hdata)

/-- The comparison says `gt` exactly if the second list comes first in the lexicographic order. -/
theorem compareLists_eq_gt_iff (as bs : List UInt8) : compareLists as bs = .gt ↔ bs < as := by
  fun_induction compareLists as bs with
  | case1 => simp
  | case2 b bs => simp
  | case3 a as => simp
  | case4 a as b bs hlt =>
    have hnot : ¬ b < a := UInt8.lt_asymm hlt
    have hne : b ≠ a := (UInt8.ne_of_lt hlt).symm
    simp [List.cons_lt_cons_iff, hnot, hne]
  | case5 a as b bs hge hgt => simp [List.cons_lt_cons_iff, hgt]
  | case6 a as b bs hge hle ih =>
    have heq : b = a := UInt8.le_antisymm (UInt8.not_lt.mp hge) (UInt8.not_lt.mp hle)
    simp [heq, ih]

theorem atMost_iff (s t : String) : atMost s t = true ↔ bytes s ≤ bytes t := by
  unfold atMost compareBytes
  rw [bne_iff_ne, ne_eq, compareLists_eq_gt_iff, List.not_lt]

theorem sortBytes_perm (texts : List String) : (sortBytes texts).Perm texts :=
  List.mergeSort_perm texts atMost

theorem sorted_sortBytes (texts : List String) :
    (sortBytes texts).Pairwise fun s t => bytes s ≤ bytes t := by
  have hsorted := List.pairwise_mergeSort
    (fun s t u hst htu =>
      (atMost_iff s u).mpr (List.le_trans ((atMost_iff s t).mp hst) ((atMost_iff t u).mp htu)))
    (fun s t => by
      rw [Bool.or_eq_true, atMost_iff, atMost_iff]
      exact List.le_total (bytes s) (bytes t))
    texts
  exact hsorted.imp fun {s t} h => (atMost_iff s t).mp h

/-- **Texts of which none stands twice are sorted strictly.** -/
theorem strictlySorted_sortBytes {texts : List String} (h : texts.Nodup) :
    (sortBytes texts).Pairwise fun s t => bytes s < bytes t := by
  have hnodup : (sortBytes texts).Nodup := (sortBytes_perm texts).nodup_iff.mpr h
  refine (sorted_sortBytes texts).imp₂ (fun s t hle hne => ?_) hnodup
  by_cases hlt : bytes s < bytes t
  · exact hlt
  · exact absurd (bytes_injective (List.le_antisymm hle (List.not_lt.mp hlt))) hne

/-- **Two lists are sorted to the same one exactly if they have the same texts, each as often.** -/
theorem sortBytes_eq_iff (ss ts : List String) : sortBytes ss = sortBytes ts ↔ ss.Perm ts := by
  constructor
  · intro h
    have hsort : (sortBytes ss).Perm ts := h ▸ sortBytes_perm ts
    exact (sortBytes_perm ss).symm.trans hsort
  · intro h
    have hperm : (sortBytes ss).Perm (sortBytes ts) :=
      (sortBytes_perm ss).trans (h.trans (sortBytes_perm ts).symm)
    exact hperm.eq_of_pairwise (fun s t _ _ hst hts => bytes_injective (List.le_antisymm hst hts))
      (sorted_sortBytes ss) (sorted_sortBytes ts)

end ModifierFacts.Text
