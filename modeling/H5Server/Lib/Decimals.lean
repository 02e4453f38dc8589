import Mathlib.Data.Nat.Digits.Lemmas
import Mathlib.Data.Rat.Floor
import Mathlib.Tactic.FieldSimp
import Mathlib.Tactic.Positivity
import Mathlib.Tactic.Ring

/-! # Numbers written in decimal digits

Cutting a decimal fraction after its first `k` digits and reading whole part and digits as one
number gives the value times `10 ^ k`, rounded down.
-/

namespace H5Server.Lib

/-- The number a string of digits stands for. -/
def number (s : List Char) : ℕ := Nat.ofDigits 10 (s.reverse.map fun c => c.toNat - '0'.toNat)

/-- The value of a whole part and the digits after the point. -/
def decimal (whole digits : List Char) : ℚ := number whole + number digits / 10 ^ digits.length

theorem number_append (a b : List Char) : number (a ++ b) = number a * 10 ^ b.length + number b := by
  simp only [number, List.reverse_append, List.map_append, Nat.ofDigits_append, List.length_map,
    List.length_reverse]
  ring

theorem number_lt {s : List Char} (digits : ∀ c ∈ s, c.isDigit) : number s < 10 ^ s.length := by
  have bound := Nat.ofDigits_lt_base_pow_length (b := 10)
    (l := s.reverse.map fun c => c.toNat - '0'.toNat) (by decide)
  rw [List.length_map, List.length_reverse] at bound
  apply bound
  intro d member
  obtain ⟨c, inside, rfl⟩ := List.mem_map.mp member
  have digit := digits c (List.mem_reverse.mp inside)
  have low : '0'.toNat = 48 := rfl
  simp only [Char.isDigit, Bool.and_eq_true, decide_eq_true_eq, UInt32.le_iff_toNat_le] at digit
  have high : c.toNat ≤ 57 := digit.2
  omega

theorem decimal_nil (whole : List Char) : decimal whole [] = number whole := by
  simp [decimal, number]

theorem decimal_nonneg (whole digits : List Char) : 0 ≤ decimal whole digits := by
  rw [decimal]
  positivity

theorem number_le_decimal (whole digits : List Char) : (number whole : ℚ) ≤ decimal whole digits := by
  rw [decimal]
  have rest : (0 : ℚ) ≤ number digits / 10 ^ digits.length := by positivity
  exact le_add_of_nonneg_right rest

/-- The digits cut off after the first ones are less than one unit of the last one kept. -/
private theorem floor_cut (whole head : List Char) {tail : List Char} (digits : ∀ c ∈ tail, c.isDigit) :
    ⌊(10 : ℚ) ^ head.length * decimal whole (head ++ tail)⌋ = number (whole ++ head) := by
  have split : (10 : ℚ) ^ head.length * decimal whole (head ++ tail)
      = ((number (whole ++ head) : ℤ) : ℚ) + number tail / 10 ^ tail.length := by
    rw [decimal, number_append head tail, number_append whole head, List.length_append]
    push_cast
    field_simp
    ring
  have below : (number tail : ℚ) / 10 ^ tail.length < 1 := by
    rw [div_lt_one (by positivity)]
    exact_mod_cast number_lt digits
  rw [split, Int.floor_intCast_add, Int.floor_eq_zero_iff.mpr ⟨by positivity, below⟩, add_zero]

/-- Digits missing after the point count as zeros. -/
private theorem decimal_pad (whole digits : List Char) (k : ℕ) :
    decimal whole (digits ++ List.replicate k '0') = decimal whole digits := by
  have zeros : number (List.replicate k '0') = 0 := by
    induction k with
    | zero => rfl
    | succ k ih =>
      rw [List.replicate_succ', number_append, ih]
      rfl
  rw [decimal, decimal, number_append, zeros, List.length_append, List.length_replicate]
  push_cast
  field_simp
  ring

theorem floor_decimal (whole : List Char) {digits : List Char} (all : ∀ c ∈ digits, c.isDigit) (k : ℕ) :
    ⌊(10 : ℚ) ^ k * decimal whole digits⌋
      = number (whole ++ (digits.take k ++ List.replicate (k - digits.length) '0')) := by
  have size : (digits.take k ++ List.replicate (k - digits.length) '0').length = k := by
    rw [List.length_append, List.length_take, List.length_replicate]
    omega
  have cut := floor_cut whole (digits.take k ++ List.replicate (k - digits.length) '0')
    (fun c member => all c (List.mem_of_mem_drop (i := k) member))
  rw [size] at cut
  rw [← cut]
  rcases le_total k digits.length with long | short
  · rw [Nat.sub_eq_zero_of_le long, List.replicate_zero, List.append_nil, List.take_append_drop]
  · rw [List.take_of_length_le short, List.drop_of_length_le short, List.append_nil, decimal_pad]

/-- Reading only the first `k` digits after the point loses nothing else. -/
theorem decimal_take (whole : List Char) {digits : List Char} (all : ∀ c ∈ digits, c.isDigit) (k : ℕ) :
    (10 : ℚ) ^ k * decimal whole (digits.take k) = ⌊(10 : ℚ) ^ k * decimal whole digits⌋ := by
  rw [floor_decimal whole all, ← decimal_pad whole (digits.take k) (k - digits.length), decimal,
    number_append whole, List.length_append, List.length_take, List.length_replicate,
    show min k digits.length + (k - digits.length) = k by omega]
  push_cast
  field_simp

end H5Server.Lib
