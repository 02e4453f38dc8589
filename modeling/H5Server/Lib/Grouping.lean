import Mathlib.Data.List.Sort
import Mathlib.Data.List.Perm.Subperm
import Mathlib.Data.List.Range
import Mathlib.Data.List.Nodup

/-! # Sorted items, grouped by a key

A list in order of its keys is the items of the first key, those of the next key and so on. Keys that cover a range
as long as the list are that range.
-/

namespace H5Server.Lib

variable {α : Type*} (key : α → ℕ)

/-- The items of the lowest key stand in front. -/
theorem filter_append_filter_of_sorted {items : List α} (sorted : items.Pairwise fun x y => key x ≤ key y) {low : ℕ}
    (least : ∀ x ∈ items, low ≤ key x) :
    items.filter (key · = low) ++ items.filter (key · ≠ low) = items := by
  induction items with
  | nil => rfl
  | cons x items ih =>
    obtain ⟨first, sorted⟩ := List.pairwise_cons.mp sorted
    rcases eq_or_ne (key x) low with same | other
    · rw [List.filter_cons_of_pos (by simpa using same), List.filter_cons_of_neg (by simpa using same), List.cons_append,
        ih sorted fun y there => least y (List.mem_cons_of_mem x there)]
    · have above : low < key x := lt_of_le_of_ne (least x List.mem_cons_self) other.symm
      have later : ∀ y ∈ x :: items, key y ≠ low := by
        intro y there
        rcases List.mem_cons.mp there with rfl | there
        · exact other
        · exact (above.trans_le (first y there)).ne'
      rw [List.filter_eq_nil_iff.mpr (by simpa using later), List.filter_eq_self.mpr (by simpa using later),
        List.nil_append]

/-- The items of one key after the other. -/
theorem flatMap_filter_of_sorted {items : List α} (sorted : items.Pairwise fun x y => key x ≤ key y) {low n : ℕ}
    (bound : ∀ x ∈ items, low ≤ key x ∧ key x < low + n) :
    (List.range' low n).flatMap (fun k => items.filter (key · = k)) = items := by
  induction n generalizing items low with
  | zero =>
    cases items with
    | nil => rfl
    | cons x items =>
      have := bound x List.mem_cons_self
      omega
  | succ n ih =>
    have higher := @ih _ (sorted.filter (key · ≠ low)) (low + 1) <| by
      intro x there
      obtain ⟨there, other⟩ := List.mem_filter.mp there
      have := bound x there
      have := of_decide_eq_true other
      omega
    have same : ∀ k ∈ List.range' (low + 1) n,
        (items.filter (key · ≠ low)).filter (key · = k) = items.filter (key · = k) := by
      intro k there
      have := (List.mem_range'_1.mp there).1
      rw [List.filter_filter]
      refine List.filter_congr fun x _ => ?_
      rw [← Bool.decide_and, decide_eq_decide]
      omega
    rw [List.range'_succ, List.flatMap_cons]
    conv_rhs => rw [← filter_append_filter_of_sorted key sorted fun x there => (bound x there).1, ← higher]
    rw [List.flatMap_congr same]

/-- As many keys as the range is long that cover it. -/
theorem perm_of_forall_mem {keys keys' : List ℕ} (nodup : keys.Nodup) (covered : ∀ k ∈ keys, k ∈ keys')
    (length : keys'.length ≤ keys.length) : keys'.Perm keys :=
  ((nodup.subperm covered).perm_of_length_le length).symm

/-- Rising numbers with no room between the first and the last. -/
theorem eq_range'_of_sorted {numbers : List ℕ} {low : ℕ} (sorted : numbers.Pairwise (· < ·))
    (bound : ∀ i ∈ numbers, low ≤ i ∧ i < low + numbers.length) : numbers = List.range' low numbers.length := by
  have perm : numbers.Perm (List.range' low numbers.length) :=
    (perm_of_forall_mem (sorted.imp ne_of_lt) (fun i there => List.mem_range'_1.mpr (bound i there)) (by simp)).symm
  exact perm.eq_of_pairwise (fun a b _ _ before after => absurd before after.asymm) sorted List.pairwise_lt_range'

end H5Server.Lib
