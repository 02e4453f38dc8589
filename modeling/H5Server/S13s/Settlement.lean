import H5Server.Lib.Shares
import H5Server.Lib.Places
import Mathlib.Algebra.Order.Ring.Abs
import Mathlib.Data.Fintype.BigOperators

/-! # Settlement of thirteen water (`CGameProcess::OnEventGameConclude`, `GER_NORMAL`)

Every player's score is capped by his balance, won or lost, and then the side with the larger total
is scaled down to the total of the other side. Amounts are exact integers; a division by zero has no
result. Revenue, storage and the records of the round are left out.
-/

namespace H5Server.S13s

open Lib

/-- The seats of a table and what the settlement reads of them. -/
structure Conclusion (n : Nat) where
  existUser : Fin n → Bool
  deltascore : Fin n → Int
  userScore : Fin n → Int
  floorScore : Int

/-- Integer division of the source. -/
def divide (dividend divisor : Int) : Option Int := if divisor = 0 then none else some (dividend.tdiv divisor)

namespace Conclusion

variable {n : Nat}

/-- `userWinScore[i]` after the cap; an empty seat keeps zero. -/
def cappedScore (c : Conclusion n) (i : Fin n) : Int :=
  if !c.existUser i then 0
  else
    let score := c.deltascore i * c.floorScore
    if c.userScore i < |score| then if score < 0 then -c.userScore i else c.userScore i
    else score

def totalLostScore (c : Conclusion n) : Int := ∑ i, if c.cappedScore i < 0 then c.cappedScore i else 0

def totalWinScore (c : Conclusion n) : Int := ∑ i, if c.cappedScore i < 0 then 0 else c.cappedScore i

/-- `userWinScore[i]` before revenue: the larger side is scaled to the total of the other. -/
def userWinScore (c : Conclusion n) (i : Fin n) : Option Int :=
  if |c.totalLostScore| < c.totalWinScore then
    if c.existUser i ∧ 0 < c.cappedScore i then divide (|c.totalLostScore| * c.cappedScore i) c.totalWinScore
    else some (c.cappedScore i)
  else if c.existUser i ∧ c.cappedScore i < 0 then
    divide (c.totalWinScore * c.cappedScore i) |c.totalLostScore|
  else some (c.cappedScore i)

/-! ## What a settlement should be -/

/-- Every division has a result, the scores add up to zero, keep their sign, and stay within the
balances and the stakes. -/
structure Settled (c : Conclusion n) (score : Fin n → Int) : Prop where
  defined : ∀ i, c.userWinScore i = some (score i)
  zero : ∑ i, score i = 0
  sign : ∀ i, c.existUser i = true → (0 ≤ c.deltascore i → 0 ≤ score i) ∧ (c.deltascore i ≤ 0 → score i ≤ 0)
  bound : ∀ i, c.existUser i = true → |score i| ≤ min (c.userScore i) (|c.deltascore i| * c.floorScore)

/-- The total of the smaller side splits among the players of the larger one without a rest. -/
def Divides (c : Conclusion n) : Prop :=
  if |c.totalLostScore| < c.totalWinScore then
    ∀ i, 0 < c.cappedScore i → c.totalWinScore ∣ |c.totalLostScore| * c.cappedScore i
  else ∀ i, c.cappedScore i < 0 → |c.totalLostScore| ∣ c.totalWinScore * c.cappedScore i

variable {c : Conclusion n}

/-! ## The capped scores -/

section Capped

variable (floor : 0 < c.floorScore) (balance : ∀ i, 0 ≤ c.userScore i)
include floor balance

/-- The cap keeps the sign and bounds the score. -/
theorem cappedScore_spec (i : Fin n) (exists_ : c.existUser i = true) :
    (0 ≤ c.deltascore i → 0 ≤ c.cappedScore i) ∧ (c.deltascore i ≤ 0 → c.cappedScore i ≤ 0) ∧
      |c.cappedScore i| ≤ min (c.userScore i) (|c.deltascore i| * c.floorScore) := by
  have user := balance i
  have magnitude : |c.deltascore i| * c.floorScore = |c.deltascore i * c.floorScore| := by
    rw [abs_mul, abs_of_pos floor]
  have won : 0 ≤ c.deltascore i → 0 ≤ c.deltascore i * c.floorScore := fun nonneg => mul_nonneg nonneg floor.le
  have lost : c.deltascore i ≤ 0 → c.deltascore i * c.floorScore ≤ 0 := fun nonpos =>
    mul_nonpos_of_nonpos_of_nonneg nonpos floor.le
  simp only [cappedScore, exists_, Bool.not_true, Bool.false_eq_true, ↓reduceIte, magnitude]
  generalize c.deltascore i * c.floorScore = score at won lost ⊢
  refine ⟨fun nonneg => ?_, fun nonpos => ?_, ?_⟩
  · have positive := won nonneg
    split
    · split <;> omega
    · exact positive
  · have negative := lost nonpos
    split
    · next less =>
      rw [abs_of_nonpos negative] at less
      split <;> omega
    · exact negative
  · split
    · next less =>
      split
      · rw [abs_neg, abs_of_nonneg user]
        exact le_min (le_refl _) less.le
      · rw [abs_of_nonneg user]
        exact le_min (le_refl _) less.le
    · next covered => exact le_min (not_lt.mp covered) (le_refl _)

end Capped

theorem cappedScore_of_empty {i : Fin n} (empty : c.existUser i = false) : c.cappedScore i = 0 := by
  simp only [cappedScore, empty, Bool.not_false, ↓reduceIte]

theorem exist_of_cappedScore_ne {i : Fin n} (some_ : c.cappedScore i ≠ 0) : c.existUser i = true := by
  by_contra empty
  exact some_ (cappedScore_of_empty (Bool.eq_false_iff.mpr empty))

/-! ## The two sides -/

/-- What a player wins, and what he loses, by the capped scores. -/
def won (c : Conclusion n) (i : Fin n) : Int := max (c.cappedScore i) 0

def lost (c : Conclusion n) (i : Fin n) : Int := max (-c.cappedScore i) 0

theorem won_nonneg (c : Conclusion n) (i : Fin n) : 0 ≤ c.won i := le_max_right _ _

theorem lost_nonneg (c : Conclusion n) (i : Fin n) : 0 ≤ c.lost i := le_max_right _ _

theorem totalWinScore_eq (c : Conclusion n) : c.totalWinScore = ∑ i, c.won i := by
  apply Finset.sum_congr rfl
  intro i _
  unfold won
  split <;> omega

theorem totalLostScore_eq (c : Conclusion n) : |c.totalLostScore| = ∑ i, c.lost i := by
  have total : c.totalLostScore = -∑ i, c.lost i := by
    rw [← Finset.sum_neg_distrib]
    apply Finset.sum_congr rfl
    intro i _
    unfold lost
    split <;> omega
  rw [total, abs_neg, abs_of_nonneg (Finset.sum_nonneg fun i _ => c.lost_nonneg i)]

theorem cappedScore_eq (c : Conclusion n) (i : Fin n) : c.cappedScore i = c.won i - c.lost i := by
  unfold won lost
  omega

/-- A scaled side: the player's share of the other side's total. -/
theorem userWinScore_of_less (less : |c.totalLostScore| < c.totalWinScore) (i : Fin n) :
    c.userWinScore i = some (share |c.totalLostScore| c.totalWinScore (c.won i) - c.lost i) := by
  have pos : c.totalWinScore ≠ 0 := ne_of_gt ((abs_nonneg _).trans_lt less)
  rw [userWinScore, if_pos less]
  rcases lt_or_ge 0 (c.cappedScore i) with wins | other
  · have exists_ := exist_of_cappedScore_ne wins.ne'
    have parts : c.won i = c.cappedScore i ∧ c.lost i = 0 := by
      unfold won lost
      omega
    rw [if_pos ⟨exists_, wins⟩, divide, if_neg pos, parts.1, parts.2, sub_zero]
    rfl
  · have parts : c.won i = 0 ∧ c.lost i = -c.cappedScore i := by
      unfold won lost
      omega
    rw [if_neg (fun both => absurd both.2 (not_lt.mpr other)), parts.1, parts.2, share, mul_zero, Int.zero_tdiv]
    simp only [sub_neg_eq_add, zero_add]

theorem userWinScore_of_not_less (covered : ¬|c.totalLostScore| < c.totalWinScore) (i : Fin n) :
    c.userWinScore i = some (c.won i - share c.totalWinScore |c.totalLostScore| (c.lost i)) := by
  rw [userWinScore, if_neg covered]
  rcases lt_or_ge (c.cappedScore i) 0 with loses | other
  · have exists_ := exist_of_cappedScore_ne loses.ne
    have parts : c.won i = 0 ∧ c.lost i = -c.cappedScore i := by
      unfold won lost
      omega
    have total : c.lost i ≤ |c.totalLostScore| := by
      rw [totalLostScore_eq]
      exact Finset.single_le_sum (fun j _ => c.lost_nonneg j) (Finset.mem_univ i)
    have pos : |c.totalLostScore| ≠ 0 := by omega
    rw [if_pos ⟨exists_, loses⟩, divide, if_neg pos, parts.1, parts.2, share_neg_right, zero_sub, neg_neg]
    rfl
  · have parts : c.won i = c.cappedScore i ∧ c.lost i = 0 := by
      unfold won lost
      omega
    rw [if_neg (fun both => absurd both.2 (not_lt.mpr other)), parts.1, parts.2, share, mul_zero, Int.zero_tdiv,
      sub_zero]

/-! ## The settlement -/

section Settlement

variable (floor : 0 < c.floorScore) (balance : ∀ i, 0 ≤ c.userScore i)
include floor balance

/-- Scores between zero and the capped scores are settled exactly when they add up to zero. -/
theorem settled_iff_zero {score : Fin n → Int} (defined : ∀ i, c.userWinScore i = some (score i))
    (between : ∀ i, 0 ≤ score i ∧ score i ≤ c.cappedScore i ∨ c.cappedScore i ≤ score i ∧ score i ≤ 0) :
    Settled c score ↔ ∑ i, score i = 0 := by
  refine ⟨fun settled => settled.zero, fun zero => ⟨defined, zero, fun i exists_ => ?_, fun i exists_ => ?_⟩⟩
  · obtain ⟨nonneg, nonpos, -⟩ := cappedScore_spec floor balance i exists_
    constructor
    · intro delta
      have capped := nonneg delta
      rcases between i with low | high <;> omega
    · intro delta
      have capped := nonpos delta
      rcases between i with low | high <;> omega
  · obtain ⟨-, -, bound⟩ := cappedScore_spec floor balance i exists_
    apply le_trans ?_ bound
    rcases between i with ⟨low, high⟩ | ⟨low, high⟩
    · exact abs_le_abs_of_nonneg low high
    · exact abs_le_abs_of_nonpos high low

theorem exists_settled_iff {score : Fin n → Int} (defined : ∀ i, c.userWinScore i = some (score i))
    (between : ∀ i, 0 ≤ score i ∧ score i ≤ c.cappedScore i ∨ c.cappedScore i ≤ score i ∧ score i ≤ 0) :
    (∃ score, Settled c score) ↔ ∑ i, score i = 0 := by
  rw [← settled_iff_zero floor balance defined between]
  constructor
  · rintro ⟨other, settled⟩
    have same : other = score := funext fun i => Option.some.inj ((settled.defined i).symm.trans (defined i))
    exact same ▸ settled
  · exact fun settled => ⟨score, settled⟩

private theorem settled_iff_of_less (less : |c.totalLostScore| < c.totalWinScore) :
    (∃ score, Settled c score) ↔ c.Divides := by
  have pos : 0 < c.totalWinScore := (abs_nonneg _).trans_lt less
  have between : ∀ i, 0 ≤ share |c.totalLostScore| c.totalWinScore (c.won i) - c.lost i ∧
      share |c.totalLostScore| c.totalWinScore (c.won i) - c.lost i ≤ c.cappedScore i ∨
      c.cappedScore i ≤ share |c.totalLostScore| c.totalWinScore (c.won i) - c.lost i ∧
      share |c.totalLostScore| c.totalWinScore (c.won i) - c.lost i ≤ 0 := by
    intro i
    have nonneg := share_nonneg (abs_nonneg c.totalLostScore) pos.le (c.won_nonneg i)
    have le := share_le_part less.le pos (abs_nonneg c.totalLostScore) (c.won_nonneg i)
    have parts := c.cappedScore_eq i
    rcases lt_or_ge 0 (c.cappedScore i) with wins | other
    · have none : c.lost i = 0 := max_eq_right (by omega)
      omega
    · have none : c.won i = 0 := max_eq_right other
      omega
  rw [exists_settled_iff floor balance (userWinScore_of_less less) between, Finset.sum_sub_distrib,
    ← totalLostScore_eq, sub_eq_zero, totalWinScore_eq]
  rw [totalWinScore_eq] at pos
  rw [sum_share_eq_iff (abs_nonneg _) (fun i _ => c.won_nonneg i) pos, Divides, if_pos less, totalWinScore_eq]
  constructor
  · intro divides i wins
    have same : c.won i = c.cappedScore i := max_eq_left wins.le
    exact same ▸ divides i (Finset.mem_univ i)
  · intro divides i _
    rcases lt_or_ge 0 (c.cappedScore i) with wins | other
    · rw [won, max_eq_left wins.le]
      exact divides i wins
    · rw [won, max_eq_right other, mul_zero]
      exact dvd_zero _

private theorem settled_iff_of_not_less (covered : ¬|c.totalLostScore| < c.totalWinScore) :
    (∃ score, Settled c score) ↔ c.Divides := by
  have winNonneg : 0 ≤ c.totalWinScore := by
    rw [totalWinScore_eq]
    exact Finset.sum_nonneg fun i _ => c.won_nonneg i
  rcases (abs_nonneg c.totalLostScore).eq_or_lt with none | pos
  · have noLoss : ∀ i, c.lost i = 0 := fun i => by
      rw [totalLostScore_eq, eq_comm, Finset.sum_eq_zero_iff_of_nonneg fun i _ => c.lost_nonneg i] at none
      exact none i (Finset.mem_univ i)
    have noWin : ∀ i, c.won i = 0 := fun i => by
      have zero : ∑ i, c.won i = 0 := by
        rw [← totalWinScore_eq]
        omega
      exact (Finset.sum_eq_zero_iff_of_nonneg fun i _ => c.won_nonneg i).mp zero i (Finset.mem_univ i)
    have scores : ∀ i, c.won i - share c.totalWinScore |c.totalLostScore| (c.lost i) = 0 := fun i => by
      rw [noWin, noLoss, share, mul_zero, Int.zero_tdiv, sub_zero]
    apply iff_of_true
    · rw [exists_settled_iff floor balance (userWinScore_of_not_less covered) fun i => by
        rw [scores, cappedScore_eq, noWin, noLoss]
        simp]
      exact Finset.sum_eq_zero fun i _ => scores i
    · rw [Divides, if_neg covered]
      intro i loses
      rw [cappedScore_eq, noWin, noLoss] at loses
      exact absurd loses (lt_irrefl _)
  · have between : ∀ i, 0 ≤ c.won i - share c.totalWinScore |c.totalLostScore| (c.lost i) ∧
        c.won i - share c.totalWinScore |c.totalLostScore| (c.lost i) ≤ c.cappedScore i ∨
        c.cappedScore i ≤ c.won i - share c.totalWinScore |c.totalLostScore| (c.lost i) ∧
        c.won i - share c.totalWinScore |c.totalLostScore| (c.lost i) ≤ 0 := by
      intro i
      have nonneg := share_nonneg winNonneg pos.le (c.lost_nonneg i)
      have le := share_le_part (not_lt.mp covered) pos winNonneg (c.lost_nonneg i)
      have parts := c.cappedScore_eq i
      rcases lt_or_ge (c.cappedScore i) 0 with loses | other
      · have none : c.won i = 0 := max_eq_right loses.le
        omega
      · have none : c.lost i = 0 := max_eq_right (by omega)
        omega
    rw [exists_settled_iff floor balance (userWinScore_of_not_less covered) between, Finset.sum_sub_distrib,
      ← totalWinScore_eq, sub_eq_zero, totalLostScore_eq, eq_comm]
    rw [totalLostScore_eq] at pos
    rw [sum_share_eq_iff winNonneg (fun i _ => c.lost_nonneg i) pos, Divides, if_neg covered, totalLostScore_eq]
    constructor
    · intro divides i loses
      have same : c.cappedScore i = -c.lost i := by
        have parts := c.cappedScore_eq i
        have none : c.won i = 0 := max_eq_right loses.le
        omega
      rw [same, mul_neg, dvd_neg]
      exact divides i (Finset.mem_univ i)
    · intro divides i _
      rcases lt_or_ge (c.cappedScore i) 0 with loses | other
      · have same : c.lost i = -c.cappedScore i := max_eq_left (by omega)
        rw [same, mul_neg, dvd_neg]
        exact divides i loses
      · have none : c.lost i = 0 := max_eq_right (by omega)
        rw [none, mul_zero]
        exact dvd_zero _

/-- The settlement conserves the money, within all bounds, exactly when the smaller total splits
among the larger side without a rest. -/
theorem exists_settled_iff_divides : (∃ score, Settled c score) ↔ c.Divides := by
  by_cases less : |c.totalLostScore| < c.totalWinScore
  · exact settled_iff_of_less floor balance less
  · exact settled_iff_of_not_less floor balance less

end Settlement

/-- Two players win a coin each from a third, who owns only one. -/
def poorLoser : Conclusion 4 where
  existUser i := decide (i ≠ 3)
  deltascore i := if i = 0 then -2 else if i = 3 then 0 else 1
  userScore i := if i = 0 then 1 else 100
  floorScore := 1

theorem exists_settled_iff_divides_poorLoser : (∃ score, Settled poorLoser score) ↔ poorLoser.Divides :=
  exists_settled_iff_divides (by decide) (by decide)

/-- Each winner's half of the coin is rounded to nothing, and the loser pays it all the same. -/
theorem poorLoser_not_settled : ¬∀ c : Conclusion 4, ∑ i, c.deltascore i = 0 → 0 < c.floorScore →
    (∀ i, 0 ≤ c.userScore i) → ∃ score, Settled c score := by
  intro settles
  obtain ⟨score, settled⟩ := settles poorLoser (by decide) (by decide) (by decide)
  have scores : ∀ i, poorLoser.userWinScore i = some (if i = 0 then -1 else 0) := by decide +kernel
  have same : ∀ i, score i = if i = 0 then -1 else 0 := fun i =>
    Option.some.inj ((settled.defined i).symm.trans (scores i))
  have zero := settled.zero
  simp only [same] at zero
  exact absurd zero (by decide)

end Conclusion

end H5Server.S13s
