import Mathlib.Data.Int.Log
import Mathlib.Data.Rat.Floor
import Mathlib.Algebra.Order.Round
import Mathlib.Tactic.Linarith
import Mathlib.Tactic.Positivity
import Mathlib.Tactic.FieldSimp
import Mathlib.Tactic.Ring
import Mathlib.Tactic.NormNum

/-! # The nearest `double` of a rational

A positive number is cut at 53 significant bits, to nearest with ties to even. Numbers beyond the
largest `double` keep their magnitude here, where the machine would say infinity.
-/

namespace H5Server.Lib

/-- The nearest integer, and of two equally near ones the even one. -/
def halfEven (q : ℚ) : ℤ :=
  if 1 / 2 < Int.fract q ∨ (Int.fract q = 1 / 2 ∧ ⌊q⌋ % 2 = 1) then ⌊q⌋ + 1 else ⌊q⌋

/-- The distance between neighbouring values of a `double` around `q`. -/
def spacing (q : ℚ) : ℚ := (2 : ℚ) ^ (max (Int.log 2 q) (-1022) - 52)

def nearestDouble (q : ℚ) : ℚ := halfEven (q / spacing q) * spacing q

theorem spacing_pos (q : ℚ) : 0 < spacing q := by
  rw [spacing]
  exact zpow_pos two_pos _

theorem le_halfEven (q : ℚ) : q - 1 / 2 ≤ halfEven q := by
  have parts := Int.floor_add_fract q
  have small := Int.fract_lt_one q
  rw [halfEven]
  split
  · push_cast
    linarith
  · rename_i down
    have half : Int.fract q ≤ 1 / 2 := not_lt.mp fun up => down (Or.inl up)
    linarith

/-- A number in the normal range loses at most one part in `2 ^ 53`. -/
theorem le_nearestDouble {q : ℚ} (normal : (2 : ℚ) ^ (-1022 : ℤ) ≤ q) :
    q * (1 - 1 / 2 ^ 53) ≤ nearestDouble q := by
  have positive : 0 < q := lt_of_lt_of_le (zpow_pos two_pos _) normal
  have unit := spacing_pos q
  have exponent : -1022 ≤ Int.log 2 q := (Int.zpow_le_iff_le_log one_lt_two positive).mp (mod_cast normal)
  have bound : spacing q * 2 ^ 52 ≤ q := by
    have power := Int.zpow_log_le_self (R := ℚ) (one_lt_two) positive
    rw [spacing, max_eq_left exponent]
    calc
      (2 : ℚ) ^ (Int.log 2 q - 52) * 2 ^ 52 = 2 ^ (Int.log 2 q - 52 + 52) := by
        rw [zpow_add₀ two_ne_zero]
        norm_cast
      _ = (2 : ℕ) ^ Int.log 2 q := by
        rw [sub_add_cancel]
        norm_cast
      _ ≤ q := power
  have scaled := mul_le_mul_of_nonneg_right (le_halfEven (q / spacing q)) unit.le
  rw [sub_mul, div_mul_cancel₀ _ unit.ne'] at scaled
  rw [nearestDouble]
  linarith

theorem nearestDouble_zero : nearestDouble 0 = 0 := by
  simp [nearestDouble, halfEven]

end H5Server.Lib
