import Mathlib.Data.List.Basic
import Mathlib.Data.List.Range
import Mathlib.Order.Lattice

/-! # Turns around a table

The turn goes to the first seat, going round from the one after the present seat and ending with it,
that still has something to do. When what the seats have done so far rises from the present seat
around the table, it rises from the next seat as well.
-/

namespace H5Server.Lib

variable {n : ℕ} {α : Type*} [LinearOrder α]

/-- The seat `i` places further. -/
def seatAfter (c : Fin n) (i : ℕ) : Fin n := ⟨(c + i) % n, Nat.mod_lt _ c.pos⟩

/-- The first seat that is `open_`, looking round from the one after `c` to `c` itself. -/
def nextSeat (open_ : Fin n → Bool) (c : Fin n) : Option (Fin n) :=
  ((List.range n).map fun i => seatAfter c (i + 1)).find? open_

/-- The values of the seats that count rise around the table from the seat `c`. -/
def RisesFrom (counts : Fin n → Prop) (f : Fin n → α) (c : Fin n) : Prop :=
  ∀ i j : ℕ, i ≤ j → j < n → counts (seatAfter c i) → counts (seatAfter c j) →
    f (seatAfter c i) ≤ f (seatAfter c j)

@[simp]
theorem seatAfter_zero (c : Fin n) : seatAfter c 0 = c := by
  apply Fin.ext
  exact Nat.mod_eq_of_lt c.isLt

theorem seatAfter_seatAfter (c : Fin n) (i j : ℕ) : seatAfter (seatAfter c i) j = seatAfter c (i + j) := by
  apply Fin.ext
  show ((c + i) % n + j) % n = (c + (i + j)) % n
  rw [Nat.mod_add_mod, Nat.add_assoc]

theorem seatAfter_add (c : Fin n) (i : ℕ) : seatAfter c (i + n) = seatAfter c i := by
  apply Fin.ext
  show (c + (i + n)) % n = (c + i) % n
  rw [← Nat.add_assoc, Nat.add_mod_right]

theorem seatAfter_ne {c : Fin n} {i : ℕ} (positive : 1 ≤ i) (small : i < n) : seatAfter c i ≠ c := by
  intro same
  have value : (c + i) % n = c := Fin.ext_iff.mp same
  have bound := c.isLt
  rcases lt_or_ge (c + i : ℕ) n with inside | wrapped
  · rw [Nat.mod_eq_of_lt inside] at value
    omega
  · rw [Nat.mod_eq_sub_mod wrapped, Nat.mod_eq_of_lt (by omega)] at value
    omega

/-- Every seat is met on the way round. -/
theorem exists_seatAfter (c s : Fin n) : ∃ i < n, seatAfter c i = s := by
  rcases le_or_gt (c : ℕ) s with later | earlier
  · refine ⟨s - c, by omega, Fin.ext ?_⟩
    show (c + (s - c : ℕ)) % n = s
    rw [Nat.add_sub_cancel' later, Nat.mod_eq_of_lt s.isLt]
  · refine ⟨n - c + s, by omega, Fin.ext ?_⟩
    show (c + (n - c + s : ℕ)) % n = s
    rw [show (c + (n - c + s) : ℕ) = s + n by omega, Nat.add_mod_right, Nat.mod_eq_of_lt s.isLt]

variable {open_ : Fin n → Bool} {c d : Fin n}

theorem nextSeat_eq_none : nextSeat open_ c = none ↔ ∀ s, open_ s = false := by
  rw [nextSeat, List.find?_eq_none]
  constructor
  · intro closed s
    obtain ⟨i, small, rfl⟩ := exists_seatAfter (seatAfter c 1) s
    rw [seatAfter_seatAfter, Nat.add_comm]
    exact Bool.eq_false_iff.mpr (closed _ (List.mem_map_of_mem (List.mem_range.mpr small)))
  · intro closed s _
    rw [closed s]
    exact Bool.false_ne_true

/-- The seat found is open and no seat passed over is. -/
theorem nextSeat_eq_some (found : nextSeat open_ c = some d) :
    open_ d = true ∧ ∃ k, 1 ≤ k ∧ k ≤ n ∧ d = seatAfter c k ∧ ∀ i, 1 ≤ i → i < k → open_ (seatAfter c i) = false := by
  rw [nextSeat, List.find?_map] at found
  obtain ⟨i, first, rfl⟩ := Option.map_eq_some_iff.mp found
  have passed := List.find?_range_eq_some.mp first
  refine ⟨passed.1, i + 1, by omega, List.mem_range.mp passed.2.1, rfl, ?_⟩
  intro j positive before
  have closed := passed.2.2 (j - 1) (by omega)
  simp only [Function.comp_apply, Nat.sub_add_cancel positive, Bool.not_eq_true'] at closed
  exact closed

/-- Where the seats not yet at the top are open, the turn keeps the order. The seat that had the
turn may have been raised to the top or taken out meanwhile. -/
theorem RisesFrom.next {counts : Fin n → Prop} {f : Fin n → α} {top : α}
    (rises : ∀ i j, 1 ≤ i → i ≤ j → j < n → counts (seatAfter c i) → counts (seatAfter c j) →
      f (seatAfter c i) ≤ f (seatAfter c j))
    (most : ∀ s, counts s → f s ≤ top) (own : counts c → f c = top)
    (opens : ∀ s, open_ s = false → counts s → top ≤ f s) (found : nextSeat open_ c = some d) :
    RisesFrom counts f d := by
  obtain ⟨-, k, positive, limit, rfl, passed⟩ := nextSeat_eq_some found
  intro i j order small first second
  rw [seatAfter_seatAfter] at first second ⊢
  rw [seatAfter_seatAfter]
  rcases lt_or_ge (k + j) n with inside | wrapped
  · exact rises _ _ (by omega) (by omega) inside first second
  · -- beyond the last seat come those that were passed over, which are all at the top
    obtain ⟨m, split⟩ := Nat.exists_eq_add_of_le' wrapped
    rw [split, seatAfter_add] at second ⊢
    apply le_trans (most _ first)
    rcases Nat.eq_zero_or_pos m with rfl | later
    · rw [seatAfter_zero] at second ⊢
      exact (own second).ge
    · exact opens _ (passed m later (by omega)) second

end H5Server.Lib
