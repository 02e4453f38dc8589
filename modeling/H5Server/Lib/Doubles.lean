import Mathlib.Data.Nat.Log
import Mathlib.Tactic.Linarith

/-! # Integers stored in a `double`

An integer is rounded to 53 significant bits, to nearest with ties to even. Up to `2 ^ 53` nothing
is lost, and rounding never passes a number of that range.
-/

namespace H5Server.Lib

/-- The nearest number with 53 significant bits. -/
def round53 (n : ℕ) : ℕ :=
  if n ≤ 2 ^ 53 then n
  else
    let scale := 2 ^ (Nat.log 2 n - 52)
    let rest := n % scale
    if scale < 2 * rest ∨ (2 * rest = scale ∧ n / scale % 2 = 1) then (n / scale + 1) * scale
    else n / scale * scale

/-- The conversion from `int64_t` to `double`. -/
def toDouble (n : ℤ) : ℤ := if n < 0 then -(round53 n.natAbs : ℤ) else round53 n.natAbs

theorem toDouble_of_le {n : ℤ} (nonneg : 0 ≤ n) (small : n ≤ 2 ^ 53) : toDouble n = n := by
  have bound : n.natAbs ≤ 2 ^ 53 := by omega
  rw [toDouble, if_neg (by omega), round53, if_pos bound]
  omega

/-- Beyond the exact range the rounded number is still at least `2 ^ 53`. -/
theorem pow_le_round53 {n : ℕ} (large : 2 ^ 53 < n) : 2 ^ 53 ≤ round53 n := by
  have positive : n ≠ 0 := by omega
  have digits : 53 ≤ Nat.log 2 n := Nat.le_log_of_pow_le one_lt_two large.le
  have scaled : 2 ^ 52 * 2 ^ (Nat.log 2 n - 52) ≤ n := by
    rw [← pow_add, Nat.add_sub_cancel' (by omega)]
    exact Nat.pow_log_le_self 2 positive
  have quotient : 2 ^ 52 ≤ n / 2 ^ (Nat.log 2 n - 52) := (Nat.le_div_iff_mul_le (by positivity)).mpr scaled
  have step : 2 ≤ 2 ^ (Nat.log 2 n - 52) := by
    calc
      2 = 2 ^ 1 := rfl
      _ ≤ _ := Nat.pow_le_pow_right two_pos (by omega)
  have floor : 2 ^ 53 ≤ n / 2 ^ (Nat.log 2 n - 52) * 2 ^ (Nat.log 2 n - 52) := by
    calc
      2 ^ 53 = 2 ^ 52 * 2 := rfl
      _ ≤ _ := Nat.mul_le_mul quotient step
  rw [round53, if_neg (by omega)]
  dsimp only
  split
  · rw [Nat.add_mul]
    omega
  · exact floor

theorem le_toDouble {k n : ℤ} (small : k ≤ 2 ^ 53) (nonneg : 0 ≤ n) (le : k ≤ n) : k ≤ toDouble n := by
  rcases le_or_gt n (2 ^ 53) with exact_ | large
  · rwa [toDouble_of_le nonneg exact_]
  · have rounded := pow_le_round53 (show 2 ^ 53 < n.natAbs by omega)
    rw [toDouble, if_neg (by omega)]
    omega

end H5Server.Lib
