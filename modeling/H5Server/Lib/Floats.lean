import Mathlib.Algebra.Group.Nat.Defs
import Mathlib.Data.Nat.Log

/-! # Numbers stored in a `float`

A number is rounded to 24 significant bits, to nearest with ties to even. Halves are counted as
whole units here, which does not change what a significand can hold.
-/

namespace H5Server.Lib

/-- The nearest number with `bits` significant bits. -/
def roundTo (bits n : ℕ) : ℕ :=
  if n ≤ 2 ^ bits then n
  else
    let scale := 2 ^ (Nat.log 2 n + 1 - bits)
    let rest := n % scale
    if scale < 2 * rest ∨ (2 * rest = scale ∧ n / scale % 2 = 1) then (n / scale + 1) * scale
    else n / scale * scale

/-- The nearest `float`. -/
def toFloat (n : ℤ) : ℤ := if n < 0 then -(roundTo 24 n.natAbs : ℤ) else roundTo 24 n.natAbs

theorem toFloat_of_le {n : ℤ} (small : n.natAbs ≤ 2 ^ 24) : toFloat n = n := by
  rw [toFloat, roundTo, if_pos small]
  split <;> omega

end H5Server.Lib
