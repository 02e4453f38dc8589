import Mathlib.Data.List.Pairwise
import Mathlib.Data.List.Perm.Basic
import Mathlib.Order.Lattice

/-! # Bubble sort that stops early

A pass swaps neighbours over the first places and says whether it left everything as it was. The next one stops a place
earlier.
-/

namespace H5Server.Lib

variable {α : Type*}

/-- One pass over the first places, and whether it swapped nothing. -/
def bubblePass (swaps : α → α → Bool) : ℕ → List α → List α × Bool
  | 0, list => (list, true)
  | _ + 1, [] => ([], true)
  | _ + 1, [a] => ([a], true)
  | last + 1, a :: b :: list =>
    if swaps a b then (b :: (bubblePass swaps last (a :: list)).1, false)
    else (a :: (bubblePass swaps last (b :: list)).1, (bubblePass swaps last (b :: list)).2)

/-- A pass over no place swaps nothing, so the loop ends there. -/
def bubbleSort (swaps : α → α → Bool) : ℕ → List α → List α
  | 0, list => list
  | last + 1, list =>
    let (list, sorted) := bubblePass swaps (last + 1) list
    if sorted then list else bubbleSort swaps last list

section Perm

variable (swaps : α → α → Bool)

theorem bubblePass_perm (last : ℕ) (list : List α) : (bubblePass swaps last list).1.Perm list := by
  induction last, list using bubblePass.induct swaps with
  | case1 list => exact .refl _
  | case2 last => exact .refl _
  | case3 last a => exact .refl _
  | case4 last a b list swap ih =>
    rw [bubblePass, if_pos swap]
    exact (ih.cons b).trans (.swap a b list)
  | case5 last a b list keep ih =>
    rw [bubblePass, if_neg keep]
    exact ih.cons a

theorem bubbleSort_perm (last : ℕ) (list : List α) : (bubbleSort swaps last list).Perm list := by
  induction last generalizing list with
  | zero => exact .refl _
  | succ last ih =>
    rw [bubbleSort]
    dsimp only
    split_ifs with sorted
    · exact bubblePass_perm swaps _ list
    · exact (ih _).trans (bubblePass_perm swaps _ list)

/-- A pass does not look behind its last place. -/
theorem bubblePass_append (last : ℕ) (list behind : List α) (long : last + 1 = list.length) :
    bubblePass swaps last (list ++ behind) =
      ((bubblePass swaps last list).1 ++ behind, (bubblePass swaps last list).2) := by
  induction last, list using bubblePass.induct swaps with
  | case1 list => rfl
  | case2 last => exact absurd long (Nat.succ_ne_zero _)
  | case3 last a => exact absurd (Nat.succ.inj long) (Nat.succ_ne_zero _)
  | case4 last a b list swap ih =>
    have ih := ih (Nat.succ.inj long)
    rw [List.cons_append] at ih
    rw [List.cons_append, List.cons_append, bubblePass, bubblePass, if_pos swap, if_pos swap, ih]
    rfl
  | case5 last a b list keep ih =>
    have ih := ih (Nat.succ.inj long)
    rw [List.cons_append] at ih
    rw [List.cons_append, List.cons_append, bubblePass, bubblePass, if_neg keep, if_neg keep, ih]
    rfl

theorem bubbleSort_append (last : ℕ) (list behind : List α) (long : last + 1 ≤ list.length) :
    bubbleSort swaps last (list ++ behind) = bubbleSort swaps last list ++ behind := by
  induction last generalizing list behind with
  | zero => rfl
  | succ last ih =>
    obtain ⟨front, rest, rfl, exact_⟩ : ∃ front rest, list = front ++ rest ∧ last + 2 = front.length :=
      ⟨list.take (last + 2), list.drop (last + 2), (List.take_append_drop _ _).symm,
        (List.length_take_of_le long).symm⟩
    rw [List.append_assoc, bubbleSort, bubbleSort, bubblePass_append swaps _ _ _ exact_,
      bubblePass_append swaps _ _ _ exact_]
    dsimp only
    split_ifs with sorted
    · rw [List.append_assoc]
    · have same := (bubblePass_perm swaps (last + 1) front).length_eq
      rw [ih _ _ (by omega), ih _ _ (by omega), List.append_assoc]

end Perm

section Sorted

variable {β : Type*} [LinearOrder β] {key : α → β} {swaps : α → α → Bool}

/-- The smallest key comes to stand at the last place. -/
theorem bubblePass_last (ordered : ∀ a b, swaps a b = decide (key a < key b)) (last : ℕ) (list : List α)
    (long : last + 1 = list.length) :
    ∃ front least, (bubblePass swaps last list).1 = front ++ [least] ∧ ∀ a ∈ front, key least ≤ key a := by
  induction last, list using bubblePass.induct swaps with
  | case1 list =>
    obtain ⟨a, rfl⟩ := List.length_eq_one_iff.mp long.symm
    exact ⟨[], a, rfl, fun a inside => absurd inside List.not_mem_nil⟩
  | case2 last => exact absurd long (Nat.succ_ne_zero _)
  | case3 last a => exact absurd (Nat.succ.inj long) (Nat.succ_ne_zero _)
  | case4 last a b list swap ih =>
    obtain ⟨front, least, split_, small⟩ := ih (Nat.succ.inj long)
    have perm := bubblePass_perm swaps last (a :: list)
    rw [ordered, decide_eq_true_eq] at swap
    rw [split_] at perm
    refine ⟨b :: front, least, ?_, List.forall_mem_cons.mpr ⟨?_, small⟩⟩
    · rw [bubblePass, if_pos (by rwa [ordered, decide_eq_true_eq]), split_]
      rfl
    · rcases List.mem_append.mp (perm.symm.subset List.mem_cons_self) with inside | here
      · exact (small a inside).trans swap.le
      · rw [← List.mem_singleton.mp here]
        exact swap.le
  | case5 last a b list keep ih =>
    obtain ⟨front, least, split_, small⟩ := ih (Nat.succ.inj long)
    have perm := bubblePass_perm swaps last (b :: list)
    rw [ordered, decide_eq_true_eq, not_lt] at keep
    rw [split_] at perm
    refine ⟨a :: front, least, ?_, List.forall_mem_cons.mpr ⟨?_, small⟩⟩
    · rw [bubblePass, if_neg (by rwa [ordered, decide_eq_true_eq, not_lt]), split_]
      rfl
    · rcases List.mem_append.mp (perm.symm.subset List.mem_cons_self) with inside | here
      · exact (small b inside).trans keep
      · rw [← List.mem_singleton.mp here]
        exact keep

/-- A pass that swaps nothing has found the places sorted. -/
theorem bubblePass_sorted (ordered : ∀ a b, swaps a b = decide (key a < key b)) (last : ℕ) (list : List α)
    (long : last + 1 = list.length) (sorted : (bubblePass swaps last list).2 = true) :
    (bubblePass swaps last list).1 = list ∧ list.Pairwise fun a b => key b ≤ key a := by
  induction last, list using bubblePass.induct swaps with
  | case1 list =>
    obtain ⟨a, rfl⟩ := List.length_eq_one_iff.mp long.symm
    exact ⟨rfl, List.pairwise_singleton _ a⟩
  | case2 last => exact absurd long (Nat.succ_ne_zero _)
  | case3 last a => exact absurd (Nat.succ.inj long) (Nat.succ_ne_zero _)
  | case4 last a b list swap ih =>
    rw [bubblePass, if_pos swap] at sorted
    exact absurd sorted Bool.false_ne_true
  | case5 last a b list keep ih =>
    rw [bubblePass, if_neg keep] at sorted ⊢
    obtain ⟨same, pairwise⟩ := ih (Nat.succ.inj long) sorted
    rw [ordered, decide_eq_true_eq, not_lt] at keep
    refine ⟨congrArg _ same, List.pairwise_cons.mpr ⟨List.forall_mem_cons.mpr ⟨keep, ?_⟩, pairwise⟩⟩
    intro c inside
    exact (List.rel_of_pairwise_cons pairwise inside).trans keep

theorem bubbleSort_sorted (ordered : ∀ a b, swaps a b = decide (key a < key b)) (last : ℕ) (list : List α)
    (long : last + 1 = list.length) : (bubbleSort swaps last list).Pairwise fun a b => key b ≤ key a := by
  induction last generalizing list with
  | zero =>
    obtain ⟨a, rfl⟩ := List.length_eq_one_iff.mp long.symm
    exact List.pairwise_singleton _ a
  | succ last ih =>
    rw [bubbleSort]
    dsimp only
    split_ifs with sorted
    · obtain ⟨same, pairwise⟩ := bubblePass_sorted ordered _ list long sorted
      rwa [same]
    · obtain ⟨front, least, split_, small⟩ := bubblePass_last ordered _ list long
      have perm := bubblePass_perm swaps (last + 1) list
      have length := perm.length_eq
      rw [split_, List.length_append, List.length_singleton] at length
      rw [split_, bubbleSort_append swaps last front [least] (by omega), List.pairwise_append]
      refine ⟨ih front (by omega), List.pairwise_singleton _ _, fun a inside b here => ?_⟩
      rw [List.mem_singleton.mp here]
      exact small a ((bubbleSort_perm swaps last front).subset inside)

/-- Elements with different keys are sorted the same way whatever their order was. -/
theorem bubbleSort_eq_of_perm (ordered : ∀ a b, swaps a b = decide (key a < key b)) {last : ℕ} {list list' : List α}
    (long : last + 1 = list.length) (perm : list.Perm list')
    (different : ∀ a ∈ list, ∀ b ∈ list, key a = key b → a = b) :
    bubbleSort swaps last list = bubbleSort swaps last list' := by
  have sorted := bubbleSort_sorted ordered last list long
  have sorted' := bubbleSort_sorted ordered last list' (long.trans perm.length_eq)
  have back := bubbleSort_perm swaps last list
  have back' := bubbleSort_perm swaps last list'
  refine List.Perm.eq_of_pairwise (fun a b inside inside' le ge => ?_) sorted sorted'
    (back.trans (perm.trans back'.symm))
  exact different a (back.subset inside) b (perm.symm.subset (back'.subset inside')) (le_antisymm ge le)

end Sorted

end H5Server.Lib
