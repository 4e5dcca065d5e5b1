/-!
# Texts in order

Sorting texts leaves nothing of the order in which they came (`Text.mergeSort_congr`), and texts
none of which comes twice stand strictly rising (`Text.pairwise_lt_mergeSort`).
-/

namespace Provisioning

namespace Text

variable {xs ys : List String}

theorem pairwise_le_mergeSort (xs : List String) : xs.mergeSort.Pairwise (· ≤ ·) := by
  refine (List.pairwise_mergeSort ?_ ?_ xs).imp of_decide_eq_true
  · intro a b c hab hbc
    simp only [decide_eq_true_eq] at *
    exact String.le_trans hab hbc
  · intro a b
    simpa using String.le_total a b

theorem mergeSort_congr (h : xs.Perm ys) : xs.mergeSort = ys.mergeSort := by
  refine List.Perm.eq_of_pairwise (fun a b _ _ => String.le_antisymm)
    (pairwise_le_mergeSort xs) (pairwise_le_mergeSort ys) ?_
  exact (List.mergeSort_perm _ _).trans (h.trans (List.mergeSort_perm _ _).symm)

/-- Texts in order are what any arrangement of them is sorted to. -/
theorem mergeSort_eq (h : xs.Perm ys) (hys : ys.Pairwise (· ≤ ·)) : xs.mergeSort = ys := by
  rw [mergeSort_congr h]
  exact List.mergeSort_of_pairwise (hys.imp decide_eq_true)

theorem pairwise_lt_mergeSort (h : xs.Nodup) : xs.mergeSort.Pairwise (· < ·) := by
  have hne : xs.mergeSort.Pairwise (· ≠ ·) :=
    List.nodup_iff_pairwise_ne.1 ((List.mergeSort_perm xs _).nodup_iff.2 h)
  refine ((pairwise_le_mergeSort xs).and hne).imp fun ⟨hle, hne⟩ => ?_
  rw [← String.not_le]
  exact fun hge => hne (String.le_antisymm hle hge)

end Text

end Provisioning
