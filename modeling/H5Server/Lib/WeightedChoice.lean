import Mathlib.Algebra.BigOperators.Group.List.Basic
import Mathlib.Algebra.GroupWithZero.Nat
import Mathlib.Algebra.Order.Group.Nat
import Mathlib.Data.List.Count

/-! # Choice by weight

A draw between one and the total weight picks the entry in whose stretch it falls.
-/

namespace H5Server.Lib

variable {α : Type*} [DecidableEq α]

/-- The entry whose stretch holds the draw. -/
def pick : List (ℕ × α) → ℕ → Option α
  | [], _ => none
  | (weight, a) :: entries, r => if r ≤ weight then some a else pick entries (r - weight)

def totalWeight (entries : List (ℕ × α)) : ℕ := (entries.map Prod.fst).sum

/-- The weight of all entries with one label. -/
def weightOf (a : α) (entries : List (ℕ × α)) : ℕ := totalWeight (entries.filter (·.2 = a))

omit [DecidableEq α] in
theorem totalWeight_perm {entries entries' : List (ℕ × α)} (perm : entries.Perm entries') :
    totalWeight entries = totalWeight entries' := (perm.map Prod.fst).sum_eq

theorem weightOf_perm {entries entries' : List (ℕ × α)} (perm : entries.Perm entries') (a : α) :
    weightOf a entries = weightOf a entries' := totalWeight_perm (perm.filter _)

theorem weightOf_cons (a : α) (entry : ℕ × α) (entries : List (ℕ × α)) :
    weightOf a (entry :: entries) = (if entry.2 = a then entry.1 else 0) + weightOf a entries := by
  rw [weightOf, weightOf, totalWeight, totalWeight, List.filter_cons]
  rcases eq_or_ne entry.2 a with same | other
  · simp [same]
  · simp [other]

/-- Each label is picked by as many draws as it has weight. -/
theorem countP_pick (entries : List (ℕ × α)) (a : α) :
    (List.range (totalWeight entries)).countP (fun k => pick entries (k + 1) = some a) = weightOf a entries := by
  induction entries with
  | nil => rfl
  | cons entry entries ih =>
    obtain ⟨weight, b⟩ := entry
    have split_ : totalWeight ((weight, b) :: entries) = weight + totalWeight entries := rfl
    rw [split_, List.range_add, List.countP_append, weightOf_cons, ← ih, List.countP_map]
    congr 1
    · have first : ∀ k ∈ List.range weight,
          (decide (pick ((weight, b) :: entries) (k + 1) = some a)) = decide (b = a) := by
        intro k inside
        rw [pick, if_pos (Nat.succ_le_of_lt (List.mem_range.mp inside))]
        simp only [Option.some_inj]
      rw [List.countP_congr fun k inside => by rw [first k inside]]
      dsimp only
      split_ifs with same
      · simp [same]
      · simp [same]
    · apply List.countP_congr
      intro k _
      dsimp only [Function.comp_apply]
      rw [pick, if_neg (by omega), show weight + k + 1 - weight = k + 1 by omega]

omit [DecidableEq α] in
/-- A draw within the total weight picks an entry that has some. -/
theorem exists_pick (entries : List (ℕ × α)) {r : ℕ} (low : 1 ≤ r) (high : r ≤ totalWeight entries) :
    ∃ entry ∈ entries, 0 < entry.1 ∧ pick entries r = some entry.2 := by
  induction entries generalizing r with
  | nil => exact absurd (low.trans high) (Nat.not_succ_le_zero 0)
  | cons entry entries ih =>
    obtain ⟨weight, b⟩ := entry
    have split_ : totalWeight ((weight, b) :: entries) = weight + totalWeight entries := rfl
    rw [pick]
    rcases le_or_gt r weight with within | behind
    · rw [if_pos within]
      exact ⟨(weight, b), List.mem_cons_self, low.trans within, rfl⟩
    · rw [if_neg behind.not_ge]
      obtain ⟨entry, present, some_, picked⟩ := ih (r := r - weight) (by omega) (by omega)
      exact ⟨entry, List.mem_cons_of_mem _ present, some_, picked⟩

end H5Server.Lib
