import Mathlib.Algebra.BigOperators.Group.Finset.Basic
import Mathlib.Algebra.Order.BigOperators.Group.Finset
import Mathlib.Algebra.BigOperators.Ring.Finset
import Mathlib.Tactic.Linarith

/-! # Splitting an amount in proportion

An amount is split over the parts of a whole by truncating division. No share exceeds its part, the
shares never exceed the amount, and they add up to it exactly when every division is exact.
-/

namespace H5Server.Lib

/-- The share of `amount` that falls on `part` out of `whole`, truncated. -/
def share (amount whole part : ℤ) : ℤ := (amount * part).tdiv whole

section Share

variable {amount whole part : ℤ}

theorem share_nonneg (amountNonneg : 0 ≤ amount) (wholeNonneg : 0 ≤ whole) (partNonneg : 0 ≤ part) :
    0 ≤ share amount whole part :=
  Int.tdiv_nonneg (mul_nonneg amountNonneg partNonneg) wholeNonneg

/-- What the division leaves over. -/
theorem mul_share_add_tmod (amount whole part : ℤ) :
    whole * share amount whole part + (amount * part).tmod whole = amount * part :=
  Int.mul_tdiv_add_tmod (amount * part) whole

theorem share_le_part (amountLe : amount ≤ whole) (pos : 0 < whole) (amountNonneg : 0 ≤ amount)
    (partNonneg : 0 ≤ part) : share amount whole part ≤ part := by
  apply Int.le_of_mul_le_mul_left ?_ pos
  have rest := Int.tmod_nonneg whole (mul_nonneg amountNonneg partNonneg)
  have split := mul_share_add_tmod amount whole part
  have scaled : amount * part ≤ whole * part := mul_le_mul_of_nonneg_right amountLe partNonneg
  linarith

theorem share_le_amount (partLe : part ≤ whole) (pos : 0 < whole) (amountNonneg : 0 ≤ amount)
    (partNonneg : 0 ≤ part) : share amount whole part ≤ amount := by
  have swapped : share amount whole part = share part whole amount := by
    unfold share
    rw [mul_comm]
  rw [swapped]
  exact share_le_part partLe pos partNonneg amountNonneg

/-- Splitting the whole gives back the parts. -/
theorem share_self (pos : whole ≠ 0) : share whole whole part = part := Int.mul_tdiv_cancel_left part pos

/-- Both signs turned: the shares of a loss. -/
theorem share_neg_right (amount whole part : ℤ) : share amount whole (-part) = -share amount whole part := by
  unfold share
  rw [mul_neg, Int.neg_tdiv]

theorem share_neg_neg (amount whole part : ℤ) : share amount (-whole) (-part) = share amount whole part := by
  unfold share
  rw [mul_neg, Int.neg_tdiv_neg]

end Share

section Total

variable {ι : Type*} {s : Finset ι} {amount : ℤ} {part : ι → ℤ}

/-- The shares add up to the amount exactly when every division is exact. -/
theorem sum_share_eq_iff (amountNonneg : 0 ≤ amount) (partNonneg : ∀ i ∈ s, 0 ≤ part i)
    (pos : 0 < ∑ i ∈ s, part i) :
    ∑ i ∈ s, share amount (∑ j ∈ s, part j) (part i) = amount ↔
      ∀ i ∈ s, (∑ j ∈ s, part j) ∣ amount * part i := by
  set whole := ∑ j ∈ s, part j with wholeEq
  have rest : ∀ i ∈ s, 0 ≤ (amount * part i).tmod whole := fun i present =>
    Int.tmod_nonneg whole (mul_nonneg amountNonneg (partNonneg i present))
  have balance : whole * ∑ i ∈ s, share amount whole (part i) + ∑ i ∈ s, (amount * part i).tmod whole =
      whole * amount := by
    rw [Finset.mul_sum, ← Finset.sum_add_distrib, Finset.sum_congr rfl fun i _ => mul_share_add_tmod amount whole (part i),
      ← Finset.mul_sum, ← wholeEq, mul_comm]
  constructor
  · intro exact_ i present
    rw [exact_] at balance
    have none : ∑ i ∈ s, (amount * part i).tmod whole = 0 := by linarith
    exact Int.dvd_of_tmod_eq_zero ((Finset.sum_eq_zero_iff_of_nonneg rest).mp none i present)
  · intro divides
    have none : ∑ i ∈ s, (amount * part i).tmod whole = 0 :=
      Finset.sum_eq_zero fun i present => Int.tmod_eq_zero_of_dvd (divides i present)
    rw [none, add_zero] at balance
    exact Int.eq_of_mul_eq_mul_left pos.ne' balance

end Total

end H5Server.Lib
