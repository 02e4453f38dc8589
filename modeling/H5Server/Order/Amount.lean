import H5Server.Lib.Decimals
import H5Server.Lib.Rounding
import Mathlib.Data.List.TakeWhile

/-! # The amount of an order

An order request names its score as a string. The checks read it as a `double`, cut after two
decimals. What is booked is read a second time, as an integer number of hundredths.
-/

namespace H5Server.Order

open Lib

/-- Digits, and at most one point with digits after it. -/
def isDigitStr (str : List Char) : Bool :=
  !(str.takeWhile Char.isDigit).isEmpty &&
    match str.dropWhile Char.isDigit with
    | [] => true
    | point :: digits => point == '.' && !digits.isEmpty && digits.all Char.isDigit

/-- The number in front, and the largest `int64_t` for every larger one. -/
def atoll (s : List Char) : ℤ := min (number (s.takeWhile Char.isDigit) : ℤ) (2 ^ 63 - 1)

/-- Digits and at most one point are all that is ever read this way. -/
def atof (s : List Char) : ℚ :=
  match s.dropWhile Char.isDigit with
  | '.' :: rest => nearestDouble (decimal (s.takeWhile Char.isDigit) (rest.takeWhile Char.isDigit))
  | _ => nearestDouble (number (s.takeWhile Char.isDigit))

/-- A product of two `int64_t`. -/
def wrap64 (n : ℤ) : ℤ := n.bmod (2 ^ 64)

def floors (s : List Char) : ℚ :=
  match s.dropWhile (· != '.') with
  | [] => atof s
  | _ :: sufix =>
    let dot := if sufix.isEmpty then [] else if 2 ≤ sufix.length then sufix.take 2 else sufix.take 1
    atof (s.takeWhile (· != '.') ++ '.' :: dot)

def rate100 (s : List Char) : ℤ :=
  match s.dropWhile (· != '.') with
  | [] => wrap64 (atoll s * 100)
  | _ :: sufix =>
    let whole := s.takeWhile (· != '.')
    let x :=
      if sufix.isEmpty then []
      else if 2 ≤ sufix.length then whole ++ sufix.take 2
      else whole ++ sufix.take 1 ++ ['0']
    atoll x

/-- The bound is the `float` nearest to `0.01`. -/
def notScore (a : ℚ) : Bool := a < 10737418 / 2 ^ 30

/-- The amount handed to the order, or none where the score parameter is refused. -/
def orderProcess (score : List Char) : Option ℤ :=
  if score.isEmpty || !isDigitStr score || floors score ≤ 0 || notScore (floors score) then none
  else some (rate100 score)

inductive OpType where
  | opAddScore
  | opSubScore
  deriving DecidableEq, Repr

/-- The user's score after an order over `scoreI64` that goes through. -/
def doOrderExecute (opType : OpType) (scoreI64 score : ℤ) : ℤ :=
  match opType with
  | .opAddScore => score + scoreI64
  | .opSubScore => score + -scoreI64

/-- The number the string stands for. -/
def value (s : List Char) : ℚ :=
  decimal (s.takeWhile Char.isDigit) ((s.dropWhile Char.isDigit).drop 1)

/-- What an order may do with the score it was given. -/
structure ExactAmount (score : List Char) : Prop where
  amount : ∀ scoreI64 ∈ orderProcess score, scoreI64 = ⌊100 * value score⌋ ∧ 0 < scoreI64
  fits : 2 ^ 63 ≤ ⌊100 * value score⌋ → orderProcess score = none
  add : ∀ scoreI64 ∈ orderProcess score, ∀ before, before ≤ doOrderExecute .opAddScore scoreI64 before
  sub : ∀ scoreI64 ∈ orderProcess score, ∀ before, doOrderExecute .opSubScore scoreI64 before ≤ before

/-! ## Digit strings -/

/-- The two forms of a score that the first check lets through. -/
inductive DigitStr : List Char → Prop
  | whole {s : List Char} (some_ : s ≠ []) (all : ∀ c ∈ s, c.isDigit) : DigitStr s
  | point {w d : List Char} (all : ∀ c ∈ w, c.isDigit) (some_ : d ≠ []) (digits : ∀ c ∈ d, c.isDigit) :
    DigitStr (w ++ '.' :: d)

theorem digitStr_of_isDigitStr {s : List Char} (checked : isDigitStr s) : DigitStr s := by
  have digit : ∀ c ∈ s.takeWhile Char.isDigit, c.isDigit := fun c => List.mem_takeWhile_imp
  have parts := List.takeWhile_append_dropWhile (p := Char.isDigit) (l := s)
  rw [isDigitStr, Bool.and_eq_true] at checked
  obtain ⟨front, rest⟩ := checked
  split at rest
  next ends =>
    rw [ends, List.append_nil] at parts
    rw [parts] at front digit
    apply DigitStr.whole _ digit
    rintro rfl
    simp at front
  next point digits ends =>
    simp only [Bool.and_eq_true, beq_iff_eq, Bool.not_eq_true', List.all_eq_true] at rest
    obtain ⟨⟨rfl, nonempty⟩, decimals⟩ := rest
    rw [← parts, ends]
    apply DigitStr.point digit _ decimals
    rintro rfl
    simp at nonempty

section Reading

variable {w d : List Char}

private theorem takeWhile_digits (all : ∀ c ∈ w, c.isDigit) : w.takeWhile Char.isDigit = w :=
  List.takeWhile_eq_self_iff.mpr all

private theorem dropWhile_digits (all : ∀ c ∈ w, c.isDigit) : w.dropWhile Char.isDigit = [] :=
  List.dropWhile_eq_nil_iff.mpr all

private theorem takeWhile_point (all : ∀ c ∈ w, c.isDigit) :
    (w ++ '.' :: d).takeWhile Char.isDigit = w := by
  rw [List.takeWhile_append_of_pos all]
  exact List.append_nil w

private theorem dropWhile_point (all : ∀ c ∈ w, c.isDigit) :
    (w ++ '.' :: d).dropWhile Char.isDigit = '.' :: d := by
  rw [List.dropWhile_append_of_pos all]
  rfl

/-- No digit is the point the readers look for. -/
private theorem ne_point (all : ∀ c ∈ w, c.isDigit) : ∀ c ∈ w, (c != '.') = true := by
  intro c member
  apply bne_iff_ne.mpr
  rintro rfl
  exact absurd (all _ member) (by decide)

theorem value_whole (all : ∀ c ∈ w, c.isDigit) : value w = number w := by
  rw [value, takeWhile_digits all, dropWhile_digits all]
  exact decimal_nil w

theorem value_point (all : ∀ c ∈ w, c.isDigit) : value (w ++ '.' :: d) = decimal w d := by
  rw [value, takeWhile_point all, dropWhile_point all]
  rfl

theorem floors_whole (all : ∀ c ∈ w, c.isDigit) : floors w = nearestDouble (number w) := by
  rw [floors, List.dropWhile_eq_nil_iff.mpr (ne_point all), atof, dropWhile_digits all, takeWhile_digits all]

private theorem split_point (all : ∀ c ∈ w, c.isDigit) :
    (w ++ '.' :: d).takeWhile (· != '.') = w ∧ (w ++ '.' :: d).dropWhile (· != '.') = '.' :: d := by
  constructor
  · rw [List.takeWhile_append_of_pos (ne_point all)]
    exact List.append_nil w
  · rw [List.dropWhile_append_of_pos (ne_point all)]
    rfl

/-- The three cases of `floors` all keep the first two decimals. -/
private theorem dot_eq (d : List Char) :
    (if d.isEmpty then [] else if 2 ≤ d.length then d.take 2 else d.take 1) = d.take 2 := by
  match d with
  | [] => rfl
  | [_] => rfl
  | _ :: _ :: _ => simp

theorem floors_point (all : ∀ c ∈ w, c.isDigit) (digits : ∀ c ∈ d, c.isDigit) :
    floors (w ++ '.' :: d) = nearestDouble (decimal w (d.take 2)) := by
  obtain ⟨front, back⟩ := split_point (d := d) all
  have kept : ∀ c ∈ d.take 2, c.isDigit := fun c member => digits c (List.mem_of_mem_take member)
  simp only [floors, back, front, dot_eq]
  rw [atof, dropWhile_point all, takeWhile_point all]
  simp only [takeWhile_digits kept]

theorem rate100_whole (all : ∀ c ∈ w, c.isDigit) :
    rate100 w = wrap64 (min (number w : ℤ) (2 ^ 63 - 1) * 100) := by
  rw [rate100, List.dropWhile_eq_nil_iff.mpr (ne_point all), atoll, takeWhile_digits all]

/-- With a point, the digits read are the hundredths of the value. -/
theorem rate100_point (all : ∀ c ∈ w, c.isDigit) (some_ : d ≠ []) (digits : ∀ c ∈ d, c.isDigit) :
    rate100 (w ++ '.' :: d) = min ⌊100 * decimal w d⌋ (2 ^ 63 - 1) := by
  obtain ⟨front, back⟩ := split_point (d := d) all
  have hundredths := floor_decimal w digits 2
  rw [show (10 : ℚ) ^ 2 = 100 by norm_num] at hundredths
  have read : ∀ x, x = w ++ (d.take 2 ++ List.replicate (2 - d.length) '0') →
      atoll x = min ⌊100 * decimal w d⌋ (2 ^ 63 - 1) := by
    rintro x rfl
    rw [hundredths, atoll, takeWhile_digits]
    intro c member
    rcases List.mem_append.mp member with inside | member
    · exact all c inside
    · rcases List.mem_append.mp member with kept | zero
      · exact digits c (List.mem_of_mem_take kept)
      · rw [List.eq_of_mem_replicate zero]
        rfl
  simp only [rate100, back, front]
  apply read
  match d with
  | [] => contradiction
  | [_] => simp
  | _ :: _ :: _ => simp

end Reading

/-! ## The two readings of one string -/

/-- What the checks see is the nearest `double` of the value cut to hundredths. -/
theorem floors_eq {s : List Char} (form : DigitStr s) :
    ∃ q : ℚ, floors s = nearestDouble q ∧ 100 * q = ⌊100 * value s⌋ := by
  cases form with
  | whole some_ all =>
    refine ⟨number s, floors_whole all, ?_⟩
    rw [value_whole all, show (100 : ℚ) * number s = ((100 * number s : ℕ) : ℚ) by push_cast; ring,
      Int.floor_natCast]
    norm_cast
  | @point w d all some_ digits =>
    refine ⟨decimal w (d.take 2), floors_point all digits, ?_⟩
    have hundredths := decimal_take w digits 2
    rw [show (10 : ℚ) ^ 2 = 100 by norm_num] at hundredths
    rw [value_point all, hundredths]

theorem floor_nonneg (s : List Char) : 0 ≤ ⌊100 * value s⌋ := by
  apply Int.floor_nonneg.mpr
  exact mul_nonneg (by norm_num) (decimal_nonneg _ _)

private theorem wrap64_lt (n : ℤ) : wrap64 n < 2 ^ 63 := by
  have bound := Int.bmod_lt (x := n) (m := 2 ^ 64) (by decide)
  rw [wrap64]
  omega

private theorem wrap64_eq {n : ℤ} (nonneg : 0 ≤ n) (small : n < 2 ^ 63) : wrap64 n = n := by
  rw [wrap64]
  apply Int.bmod_eq_of_le <;> omega

theorem rate100_lt {s : List Char} (form : DigitStr s) : rate100 s < 2 ^ 63 := by
  cases form with
  | whole some_ all =>
    rw [rate100_whole all]
    exact wrap64_lt _
  | point all some_ digits =>
    rw [rate100_point all some_ digits]
    omega

theorem rate100_eq {s : List Char} (form : DigitStr s) (fits : ⌊100 * value s⌋ < 2 ^ 63) :
    rate100 s = ⌊100 * value s⌋ := by
  cases form with
  | whole some_ all =>
    have hundredths : ⌊100 * value s⌋ = number s * 100 := by
      rw [value_whole all, show (100 : ℚ) * number s = ((number s * 100 : ℕ) : ℚ) by push_cast; ring,
        Int.floor_natCast]
      norm_cast
    rw [hundredths] at fits ⊢
    rw [rate100_whole all, min_eq_left (by omega)]
    exact wrap64_eq (by omega) fits
  | point all some_ digits =>
    rw [value_point all] at fits ⊢
    rw [rate100_point all some_ digits]
    exact min_eq_left (by omega)

/-- The checks refuse exactly the amounts below one hundredth. -/
theorem refused_iff {q : ℚ} {m : ℤ} (nonneg : 0 ≤ m) (hundredths : 100 * q = m) :
    (nearestDouble q ≤ 0 ∨ notScore (nearestDouble q)) ↔ m = 0 := by
  rw [notScore, decide_eq_true_eq]
  constructor
  · intro refused
    by_contra nonzero
    have one : (1 : ℚ) ≤ m := by
      exact_mod_cast (by omega : 1 ≤ m)
    have large : 1 / 100 ≤ q := by linarith
    have normal : (2 : ℚ) ^ (-1022 : ℤ) ≤ q := by
      calc
        (2 : ℚ) ^ (-1022 : ℤ) ≤ 2 ^ (-7 : ℤ) := zpow_le_zpow_right₀ one_le_two (by decide)
        _ ≤ 1 / 100 := by norm_num
        _ ≤ q := large
    have kept := le_nearestDouble normal
    rcases refused with zero | small
    · linarith
    · linarith
  · rintro rfl
    have zero : q = 0 := by
      rw [Int.cast_zero] at hundredths
      linarith
    rw [zero, nearestDouble_zero]
    exact Or.inl le_rfl

theorem isDigitStr_of_accepted {s : List Char} {scoreI64 : ℤ} (accepted : scoreI64 ∈ orderProcess s) :
    isDigitStr s := by
  rcases digits : isDigitStr s
  · simp [orderProcess, digits] at accepted
  · rfl

/-- A digit string is refused exactly where less than a hundredth is left of it. -/
theorem orderProcess_eq {s : List Char} (digits : isDigitStr s) :
    orderProcess s = if ⌊100 * value s⌋ = 0 then none else some (rate100 s) := by
  have form := digitStr_of_isDigitStr digits
  obtain ⟨q, read, hundredths⟩ := floors_eq form
  have refused := refused_iff (floor_nonneg s) hundredths
  have nonempty : s.isEmpty = false := by
    cases form with
    | whole some_ all => exact List.isEmpty_eq_false_iff.mpr some_
    | point all some_ decimals => simp
  rw [← read] at refused
  simp only [orderProcess, nonempty, digits, Bool.not_true, Bool.false_or, Bool.or_eq_true,
    decide_eq_true_eq, refused]

/-- An order is exact unless a digit string stands for a number whose hundredths exceed `int64_t`. -/
theorem exactAmount_iff (score : List Char) :
    ExactAmount score ↔ (isDigitStr score → ⌊100 * value score⌋ < 2 ^ 63) := by
  constructor
  · intro exact_ digits
    by_contra large
    have none_ := exact_.fits (not_lt.mp large)
    have nonzero : ⌊100 * value score⌋ ≠ 0 := by omega
    rw [orderProcess_eq digits, if_neg nonzero] at none_
    contradiction
  · intro condition
    have booked : ∀ scoreI64 ∈ orderProcess score, scoreI64 = ⌊100 * value score⌋ ∧ 0 < scoreI64 := by
      intro scoreI64 accepted
      have digits := isDigitStr_of_accepted accepted
      have fits := condition digits
      have nonneg := floor_nonneg score
      rw [orderProcess_eq digits, rate100_eq (digitStr_of_isDigitStr digits) fits] at accepted
      split at accepted
      · contradiction
      · obtain rfl := Option.some.inj accepted
        exact ⟨rfl, by omega⟩
    refine ⟨booked, ?_, ?_, ?_⟩
    · intro large
      rcases none_ : orderProcess score with _ | scoreI64
      · rfl
      · have digits := isDigitStr_of_accepted none_
        exact absurd (condition digits) (not_lt.mpr large)
    · intro scoreI64 accepted before
      have positive := (booked scoreI64 accepted).2
      rw [doOrderExecute]
      omega
    · intro scoreI64 accepted before
      have positive := (booked scoreI64 accepted).2
      rw [doOrderExecute]
      omega

/-- Seventeen nines pass the checks, and the order books a negative amount. -/
theorem seventeen_nines : ¬ ExactAmount (List.replicate 17 '9') := by
  intro exact_
  have digits : ∀ c ∈ List.replicate 17 '9', c.isDigit := by
    intro c member
    rw [List.eq_of_mem_replicate member]
    rfl
  have read : value (List.replicate 17 '9') = (99999999999999999 : ℕ) := value_whole digits
  have hundredths : ⌊100 * value (List.replicate 17 '9')⌋ ≠ 0 := by
    rw [read]
    norm_num
  have accepted := orderProcess_eq (s := List.replicate 17 '9') rfl
  rw [if_neg hundredths] at accepted
  have positive := (exact_.amount _ accepted).2
  exact absurd positive (by decide)

end H5Server.Order
