import H5Server.Lib.Shares
import H5Server.Lib.Places
import Mathlib.Data.Fintype.BigOperators

/-! # Settlement of hundred-change niuniu (`CTableFrameSink::NormalGameEnd`)

Every player wins from the banker or loses to him, at most his balance. Where the banker would win or lose
more than he has, what he can take or pay is split in proportion. Amounts are exact integers, also where the
source keeps a quotient in a `double`. Revenue, storage and records are left out.
-/

namespace H5Server.Bbqznn

open Lib

/-- The seats of a table and what the settlement reads of them. -/
structure Conclusion (n : ℕ) where
  bankerUser : Fin n
  playStatus : Fin n → Bool
  userScore : Fin n → Option ℤ
  cellScore : ℤ
  bankerMultiple : ℤ
  userJettonMultiple : Fin n → ℤ
  cardMultiple : Fin n → ℤ
  /-- `CompareCard` of the banker with a player -/
  bankerWins : Fin n → Bool

namespace Conclusion

variable {n : ℕ}

def bankerBaseScore (c : Conclusion n) : ℤ := (c.userScore c.bankerUser).getD 0

def userBaseScore (c : Conclusion n) (i : Fin n) : ℤ := if c.playStatus i then (c.userScore i).getD 0 else 0

/-- A player who is compared with the banker. -/
def Compared (c : Conclusion n) (i : Fin n) : Prop :=
  c.playStatus i ∧ (c.userScore i).isSome ∧ i ≠ c.bankerUser

instance (c : Conclusion n) (i : Fin n) : Decidable (c.Compared i) :=
  inferInstanceAs (Decidable (c.playStatus i ∧ (c.userScore i).isSome ∧ i ≠ c.bankerUser))

/-- `iTempScore`, capped by the player's balance. -/
def tempScore (c : Conclusion n) (i : Fin n) : ℤ :=
  let score := c.cellScore * c.bankerMultiple * c.userJettonMultiple i
    * c.cardMultiple (if c.bankerWins i then c.bankerUser else i)
  if c.userBaseScore i < score then c.userBaseScore i else score

/-- What a player loses by the comparison, and what he wins. -/
def lost (c : Conclusion n) (i : Fin n) : ℤ := if c.Compared i ∧ c.bankerWins i then c.tempScore i else 0

def won (c : Conclusion n) (i : Fin n) : ℤ := if c.Compared i ∧ ¬c.bankerWins i then c.tempScore i else 0

/-- `iUserWinScore` after the comparisons. -/
def rawScore (c : Conclusion n) (i : Fin n) : ℤ := c.won i - c.lost i

def bankerWinScore (c : Conclusion n) : ℤ := ∑ i, c.lost i

def userTotalWinScore (c : Conclusion n) : ℤ := ∑ i, c.won i

def userTotalLoseScore (c : Conclusion n) : ℤ := ∑ i, -c.lost i

def bankerTotalWinScore (c : Conclusion n) : ℤ := c.bankerWinScore - c.userTotalWinScore

/-! ## The banker would win more than he has -/

def bankerCalWinScore (c : Conclusion n) : ℤ := c.bankerBaseScore + c.userTotalWinScore

def userNeedLostScore (c : Conclusion n) (i : Fin n) : ℤ :=
  (c.bankerCalWinScore * c.rawScore i).tdiv c.userTotalLoseScore

/-- `iUserNeedLostScore` after the cap. -/
def cappedLostScore (c : Conclusion n) (i : Fin n) : ℤ :=
  if c.userBaseScore i < c.userNeedLostScore i then c.userBaseScore i else c.userNeedLostScore i

/-- The seats that the loops over the players do not skip. -/
def Shares (c : Conclusion n) (i : Fin n) : Prop := c.playStatus i ∧ i ≠ c.bankerUser

instance (c : Conclusion n) (i : Fin n) : Decidable (c.Shares i) :=
  inferInstanceAs (Decidable (c.playStatus i ∧ i ≠ c.bankerUser))

/-- What the banker misses, computed from the value after the cap. -/
def bankerliss (c : Conclusion n) : ℤ :=
  ∑ i, if c.Shares i ∧ ¬0 < c.rawScore i ∧ c.userBaseScore i < c.userNeedLostScore i then
    -(c.cappedLostScore i - c.userBaseScore i) else 0

/-! ## The banker cannot pay all -/

def bankerMaxScore (c : Conclusion n) : ℤ := c.bankerBaseScore + c.bankerWinScore

def userRealWinScore (c : Conclusion n) (i : Fin n) : ℤ :=
  (c.bankerMaxScore * c.rawScore i).tdiv c.userTotalWinScore

/-- `iUserRealWinScore` after the cap. -/
def cappedWinScore (c : Conclusion n) (i : Fin n) : ℤ :=
  if c.userBaseScore i < c.userRealWinScore i then c.userBaseScore i else c.userRealWinScore i

/-- What the banker keeps, computed from the value after the cap. -/
def bankerscore (c : Conclusion n) : ℤ :=
  ∑ i, if c.Shares i ∧ ¬c.rawScore i < 0 ∧ c.userBaseScore i < c.userRealWinScore i then
    c.cappedWinScore i - c.userBaseScore i else 0

/-! ## The scores -/

/-- `iUserWinScore` before revenue. -/
def userWinScore (c : Conclusion n) (i : Fin n) : ℤ :=
  if c.bankerBaseScore < c.bankerTotalWinScore then
    if i = c.bankerUser then c.bankerBaseScore + c.bankerliss
    else if c.Shares i ∧ ¬0 < c.rawScore i then -c.cappedLostScore i else c.rawScore i
  else if c.bankerTotalWinScore + c.bankerBaseScore < 0 then
    if i = c.bankerUser then c.rawScore i - c.bankerBaseScore + c.bankerscore
    else if c.Shares i ∧ ¬c.rawScore i < 0 then c.cappedWinScore i else c.rawScore i
  else if i = c.bankerUser then c.bankerTotalWinScore else c.rawScore i

/-! ## What a settlement should be -/

/-- The scores of the playing seats add up to zero, and nobody loses or wins more than his balance. -/
structure Settled (c : Conclusion n) : Prop where
  zero : ∑ i with c.playStatus i = true, c.userWinScore i = 0
  loses : ∀ i, c.playStatus i = true → -c.userBaseScore i ≤ c.userWinScore i
  wins : ∀ i, c.playStatus i = true → c.userWinScore i ≤ c.userBaseScore i

/-- What the banker can take or pay is split without a rest. -/
def Divides (c : Conclusion n) : Prop :=
  if c.bankerBaseScore < c.bankerTotalWinScore then ∀ i, c.bankerWinScore ∣ c.bankerCalWinScore * c.lost i
  else if c.bankerTotalWinScore + c.bankerBaseScore < 0 then
    ∀ i, c.userTotalWinScore ∣ c.bankerMaxScore * c.won i
  else True

/-- A round as it is settled: the banker plays, the multipliers are positive, and nobody is in debt. -/
structure Proper (c : Conclusion n) : Prop where
  banker : c.playStatus c.bankerUser = true
  cell : 0 < c.cellScore
  bankerMultiple : 0 < c.bankerMultiple
  jetton : ∀ i, c.Compared i → 0 < c.userJettonMultiple i
  card : ∀ i, c.playStatus i = true → 0 < c.cardMultiple i
  balance : ∀ i, c.playStatus i = true → 0 ≤ (c.userScore i).getD 0

variable {c : Conclusion n} {f : Fin n → ℤ}

/-! ## The comparisons -/

section Proper

variable (proper : c.Proper)
include proper

theorem userBaseScore_nonneg (i : Fin n) : 0 ≤ c.userBaseScore i := by
  rw [userBaseScore]
  split
  · rename_i plays
    exact proper.balance i plays
  · exact le_rfl

theorem tempScore_bounds {i : Fin n} (compared : c.Compared i) : 0 ≤ c.tempScore i ∧ c.tempScore i ≤ c.userBaseScore i := by
  have base := userBaseScore_nonneg proper i
  have card : 0 < c.cardMultiple (if c.bankerWins i then c.bankerUser else i) := by
    split
    · exact proper.card _ proper.banker
    · exact proper.card i compared.1
  have score : 0 < c.cellScore * c.bankerMultiple * c.userJettonMultiple i
      * c.cardMultiple (if c.bankerWins i then c.bankerUser else i) :=
    mul_pos (mul_pos (mul_pos proper.cell proper.bankerMultiple) (proper.jetton i compared)) card
  rw [tempScore]
  generalize c.cellScore * c.bankerMultiple * c.userJettonMultiple i
    * c.cardMultiple (if c.bankerWins i then c.bankerUser else i) = product at score ⊢
  split
  · exact ⟨base, le_rfl⟩
  · exact ⟨score.le, by omega⟩

theorem lost_bounds (i : Fin n) : 0 ≤ c.lost i ∧ c.lost i ≤ c.userBaseScore i := by
  rw [lost]
  split
  · rename_i both
    exact tempScore_bounds proper both.1
  · exact ⟨le_rfl, userBaseScore_nonneg proper i⟩

theorem won_bounds (i : Fin n) : 0 ≤ c.won i ∧ c.won i ≤ c.userBaseScore i := by
  rw [won]
  split
  · rename_i both
    exact tempScore_bounds proper both.1
  · exact ⟨le_rfl, userBaseScore_nonneg proper i⟩

omit proper in
/-- Nobody both wins and loses. -/
theorem won_or_lost (i : Fin n) : c.won i = 0 ∨ c.lost i = 0 := by
  rw [won, lost]
  rcases em (c.bankerWins i = true) with wins | loses
  · exact .inl (if_neg fun both => both.2 wins)
  · exact .inr (if_neg fun both => loses both.2)

omit proper in
/-- The banker and those who do not play are not compared. -/
theorem of_not_shares {i : Fin n} (out : ¬c.Shares i) : c.won i = 0 ∧ c.lost i = 0 := by
  have away : ¬c.Compared i := fun compared => out ⟨compared.1, compared.2.2⟩
  exact ⟨if_neg fun both => away both.1, if_neg fun both => away both.1⟩

theorem bankerBaseScore_eq : c.bankerBaseScore = c.userBaseScore c.bankerUser := by
  rw [userBaseScore, if_pos proper.banker, bankerBaseScore]

omit proper in
theorem userTotalLoseScore_eq : c.userTotalLoseScore = -c.bankerWinScore := Finset.sum_neg_distrib _

theorem lost_le_bankerWinScore (i : Fin n) : c.lost i ≤ c.bankerWinScore :=
  Finset.single_le_sum (fun j _ => (lost_bounds proper j).1) (Finset.mem_univ i)

theorem bankerWinScore_nonneg : 0 ≤ c.bankerWinScore := Finset.sum_nonneg fun i _ => (lost_bounds proper i).1

theorem userTotalWinScore_nonneg : 0 ≤ c.userTotalWinScore := Finset.sum_nonneg fun i _ => (won_bounds proper i).1

omit proper in
/-- The score of a seat that does not play is zero, so all seats may be added. -/
theorem sum_playing (absent : ∀ i, ¬c.playStatus i = true → c.userWinScore i = 0) :
    ∑ i with c.playStatus i = true, c.userWinScore i = ∑ i, c.userWinScore i := by
  apply Finset.sum_subset (Finset.filter_subset _ _)
  intro i _ out
  exact absent i fun plays => out (Finset.mem_filter.mpr ⟨Finset.mem_univ i, plays⟩)

omit proper in
/-- The banker's score apart from the others. -/
theorem sum_eq_banker_add (others : ∀ i, i ≠ c.bankerUser → c.userWinScore i = f i) (none_ : f c.bankerUser = 0) :
    ∑ i, c.userWinScore i = c.userWinScore c.bankerUser + ∑ i, f i := by
  rw [← Finset.add_sum_erase Finset.univ c.userWinScore (Finset.mem_univ c.bankerUser),
    ← Finset.add_sum_erase Finset.univ f (Finset.mem_univ c.bankerUser), none_, zero_add]
  congr 1
  exact Finset.sum_congr rfl fun i present => others i (Finset.ne_of_mem_erase present)

omit proper in
/-- What a seat is bound by. -/
theorem settled_iff_zero (bounds : ∀ i, -c.userBaseScore i ≤ c.userWinScore i ∧ c.userWinScore i ≤ c.userBaseScore i) :
    c.Settled ↔ ∑ i with c.playStatus i = true, c.userWinScore i = 0 :=
  ⟨fun settled => settled.zero, fun zero => ⟨zero, fun i _ => (bounds i).1, fun i _ => (bounds i).2⟩⟩

/-! ## The banker would win more than he has -/

section WinsMore

variable (more : c.bankerBaseScore < c.bankerTotalWinScore)
include more

omit proper in
theorem bankerCalWinScore_lt : c.bankerCalWinScore < c.bankerWinScore := by
  rw [bankerTotalWinScore] at more
  rw [bankerCalWinScore]
  omega

omit more in
theorem bankerCalWinScore_nonneg : 0 ≤ c.bankerCalWinScore := by
  have base := userBaseScore_nonneg proper c.bankerUser
  have won := userTotalWinScore_nonneg proper
  rw [← bankerBaseScore_eq proper] at base
  exact add_nonneg base won

/-- The division is not by zero. -/
theorem userTotalLoseScore_neg : c.userTotalLoseScore < 0 := by
  have less := bankerCalWinScore_lt more
  have nonneg := bankerCalWinScore_nonneg proper
  rw [userTotalLoseScore_eq]
  omega

/-- A loser pays his share of what the banker can take, which is never capped. -/
theorem cappedLostScore_eq (i : Fin n) (unwon : c.won i = 0) :
    c.userNeedLostScore i = share c.bankerCalWinScore c.bankerWinScore (c.lost i)
      ∧ c.cappedLostScore i = c.userNeedLostScore i ∧ ¬c.userBaseScore i < c.userNeedLostScore i := by
  have less := bankerCalWinScore_lt more
  have nonneg := bankerCalWinScore_nonneg proper
  have need : c.userNeedLostScore i = share c.bankerCalWinScore c.bankerWinScore (c.lost i) := by
    rw [userNeedLostScore, rawScore, unwon, zero_sub, userTotalLoseScore_eq]
    exact share_neg_neg _ _ _
  have part := share_le_part less.le (nonneg.trans_lt less) nonneg (lost_bounds proper i).1
  have covered : ¬c.userBaseScore i < c.userNeedLostScore i := by
    have := (lost_bounds proper i).2
    omega
  exact ⟨need, if_neg covered, covered⟩

theorem bankerliss_eq_zero : c.bankerliss = 0 := by
  apply Finset.sum_eq_zero
  intro i _
  apply if_neg
  rintro ⟨_, unwon, capped⟩
  have none_ : c.won i = 0 := by
    have bounds := won_bounds proper i
    rcases won_or_lost (c := c) i with none_ | none_
    · exact none_
    · rw [rawScore] at unwon
      omega
  exact (cappedLostScore_eq proper more i none_).2.2 capped

/-- The scores of all but the banker. -/
theorem userWinScore_of_more (i : Fin n) (player : i ≠ c.bankerUser) :
    c.userWinScore i = c.won i - share c.bankerCalWinScore c.bankerWinScore (c.lost i) := by
  have bounds := won_bounds proper i
  have bounds' := lost_bounds proper i
  have unsplit : share c.bankerCalWinScore c.bankerWinScore 0 = 0 := by rw [share, mul_zero, Int.zero_tdiv]
  rw [userWinScore, if_pos more, if_neg player]
  split
  · rename_i both
    have none_ : c.won i = 0 := by
      have unwon := both.2
      rw [rawScore] at unwon
      rcases won_or_lost (c := c) i with none_ | none_ <;> omega
    obtain ⟨need, uncapped, _⟩ := cappedLostScore_eq proper more i none_
    rw [uncapped, need, none_, zero_sub]
  · rename_i other
    have unlost : c.lost i = 0 := by
      rcases em (c.Shares i) with shares | out
      · have won : 0 < c.rawScore i := not_not.mp fun unwon => other ⟨shares, unwon⟩
        rw [rawScore] at won
        rcases won_or_lost (c := c) i with none_ | none_ <;> omega
      · exact (of_not_shares out).2
    rw [rawScore, unlost, unsplit]

theorem settled_iff_of_more : c.Settled ↔ ∀ i, c.bankerWinScore ∣ c.bankerCalWinScore * c.lost i := by
  have less := bankerCalWinScore_lt more
  have nonneg := bankerCalWinScore_nonneg proper
  have banker : c.userWinScore c.bankerUser = c.bankerBaseScore := by
    rw [userWinScore, if_pos more, if_pos rfl, bankerliss_eq_zero proper more, add_zero]
  have others := userWinScore_of_more proper more
  have unsplit : share c.bankerCalWinScore c.bankerWinScore 0 = 0 := by rw [share, mul_zero, Int.zero_tdiv]
  have bounds : ∀ i, -c.userBaseScore i ≤ c.userWinScore i ∧ c.userWinScore i ≤ c.userBaseScore i := by
    intro i
    have base := userBaseScore_nonneg proper i
    rcases eq_or_ne i c.bankerUser with rfl | player
    · rw [banker, bankerBaseScore_eq proper]
      omega
    · have part := share_le_part less.le (nonneg.trans_lt less) nonneg (lost_bounds proper i).1
      have positive := share_nonneg nonneg (nonneg.trans less.le) (lost_bounds proper i).1
      have := lost_bounds proper i
      have := won_bounds proper i
      rw [others i player]
      omega
  have absent : ∀ i, ¬c.playStatus i = true → c.userWinScore i = 0 := by
    intro i away
    obtain ⟨unwon, unlost⟩ := of_not_shares (c := c) fun shares => away shares.1
    rw [others i fun same => away (same ▸ proper.banker), unwon, unlost, unsplit, sub_zero]
  obtain ⟨unwon, unlost⟩ := of_not_shares (c := c) (i := c.bankerUser) fun shares => shares.2 rfl
  rw [settled_iff_zero bounds, sum_playing absent,
    sum_eq_banker_add others (by rw [unwon, unlost, unsplit, sub_zero]), banker, Finset.sum_sub_distrib]
  have whole : ∑ i, c.lost i = c.bankerWinScore := rfl
  have split := sum_share_eq_iff (s := Finset.univ) nonneg (fun i _ => (lost_bounds proper i).1)
    (whole.symm ▸ nonneg.trans_lt less)
  rw [whole] at split
  simp only [Finset.mem_univ, true_implies] at split
  rw [← split, bankerCalWinScore, userTotalWinScore]
  omega

end WinsMore

/-! ## The banker cannot pay all -/

section LosesMore

variable (less : c.bankerTotalWinScore + c.bankerBaseScore < 0)
include less

omit proper in
theorem bankerMaxScore_lt : c.bankerMaxScore < c.userTotalWinScore := by
  rw [bankerTotalWinScore] at less
  rw [bankerMaxScore]
  omega

omit less in
theorem bankerMaxScore_nonneg : 0 ≤ c.bankerMaxScore := by
  have base := userBaseScore_nonneg proper c.bankerUser
  have lost := bankerWinScore_nonneg proper
  rw [← bankerBaseScore_eq proper] at base
  exact add_nonneg base lost

/-- The division is not by zero. -/
theorem userTotalWinScore_pos : 0 < c.userTotalWinScore := (bankerMaxScore_nonneg proper).trans_lt (bankerMaxScore_lt less)

/-- A winner gets his share of what the banker can pay, which is never capped. -/
theorem cappedWinScore_eq (i : Fin n) (unlost : c.lost i = 0) :
    c.userRealWinScore i = share c.bankerMaxScore c.userTotalWinScore (c.won i)
      ∧ c.cappedWinScore i = c.userRealWinScore i ∧ ¬c.userBaseScore i < c.userRealWinScore i := by
  have real : c.userRealWinScore i = share c.bankerMaxScore c.userTotalWinScore (c.won i) := by
    rw [userRealWinScore, rawScore, unlost, sub_zero, share]
  have part := share_le_part (bankerMaxScore_lt less).le (userTotalWinScore_pos proper less) (bankerMaxScore_nonneg proper)
    (won_bounds proper i).1
  have covered : ¬c.userBaseScore i < c.userRealWinScore i := by
    have := (won_bounds proper i).2
    omega
  exact ⟨real, if_neg covered, covered⟩

theorem bankerscore_eq_zero : c.bankerscore = 0 := by
  apply Finset.sum_eq_zero
  intro i _
  apply if_neg
  rintro ⟨_, unlost, capped⟩
  have none_ : c.lost i = 0 := by
    have bounds := lost_bounds proper i
    rcases won_or_lost (c := c) i with none_ | none_
    · rw [rawScore] at unlost
      omega
    · exact none_
  exact (cappedWinScore_eq proper less i none_).2.2 capped

/-- The scores of all but the banker. -/
theorem userWinScore_of_less (i : Fin n) (player : i ≠ c.bankerUser) :
    c.userWinScore i = share c.bankerMaxScore c.userTotalWinScore (c.won i) - c.lost i := by
  have bounds := won_bounds proper i
  have bounds' := lost_bounds proper i
  have unsplit : share c.bankerMaxScore c.userTotalWinScore 0 = 0 := by rw [share, mul_zero, Int.zero_tdiv]
  have covered : ¬c.bankerBaseScore < c.bankerTotalWinScore := by
    have base := userBaseScore_nonneg proper c.bankerUser
    rw [← bankerBaseScore_eq proper] at base
    omega
  rw [userWinScore, if_neg covered, if_pos less, if_neg player]
  split
  · rename_i both
    have none_ : c.lost i = 0 := by
      have unlost := both.2
      rw [rawScore] at unlost
      rcases won_or_lost (c := c) i with none_ | none_ <;> omega
    obtain ⟨real, uncapped, _⟩ := cappedWinScore_eq proper less i none_
    rw [uncapped, real, none_, sub_zero]
  · rename_i other
    have unwon : c.won i = 0 := by
      rcases em (c.Shares i) with shares | out
      · have lost : c.rawScore i < 0 := not_not.mp fun unlost => other ⟨shares, unlost⟩
        rw [rawScore] at lost
        rcases won_or_lost (c := c) i with none_ | none_ <;> omega
      · exact (of_not_shares out).1
    rw [rawScore, unwon, unsplit]

theorem settled_iff_of_less : c.Settled ↔ ∀ i, c.userTotalWinScore ∣ c.bankerMaxScore * c.won i := by
  have nonneg := bankerMaxScore_nonneg proper
  have pos := userTotalWinScore_pos proper less
  have base := userBaseScore_nonneg proper c.bankerUser
  have covered : ¬c.bankerBaseScore < c.bankerTotalWinScore := by
    rw [← bankerBaseScore_eq proper] at base
    omega
  obtain ⟨unwon, unlost⟩ := of_not_shares (c := c) (i := c.bankerUser) fun shares => shares.2 rfl
  have banker : c.userWinScore c.bankerUser = -c.bankerBaseScore := by
    rw [userWinScore, if_neg covered, if_pos less, if_pos rfl, bankerscore_eq_zero proper less, rawScore, unwon, unlost,
      add_zero, sub_zero, zero_sub]
  have others := userWinScore_of_less proper less
  have unsplit : share c.bankerMaxScore c.userTotalWinScore 0 = 0 := by rw [share, mul_zero, Int.zero_tdiv]
  have bounds : ∀ i, -c.userBaseScore i ≤ c.userWinScore i ∧ c.userWinScore i ≤ c.userBaseScore i := by
    intro i
    rcases eq_or_ne i c.bankerUser with rfl | player
    · rw [banker, bankerBaseScore_eq proper]
      omega
    · have part := share_le_part (bankerMaxScore_lt less).le pos nonneg (won_bounds proper i).1
      have positive := share_nonneg nonneg pos.le (won_bounds proper i).1
      have := lost_bounds proper i
      have := won_bounds proper i
      rw [others i player]
      omega
  have absent : ∀ i, ¬c.playStatus i = true → c.userWinScore i = 0 := by
    intro i away
    obtain ⟨unwon, unlost⟩ := of_not_shares (c := c) fun shares => away shares.1
    rw [others i fun same => away (same ▸ proper.banker), unwon, unlost, unsplit, sub_zero]
  rw [settled_iff_zero bounds, sum_playing absent,
    sum_eq_banker_add others (by rw [unwon, unlost, unsplit, sub_zero]), banker, Finset.sum_sub_distrib]
  have whole : ∑ i, c.won i = c.userTotalWinScore := rfl
  have split := sum_share_eq_iff (s := Finset.univ) nonneg (fun i _ => (won_bounds proper i).1) (whole.symm ▸ pos)
  rw [whole] at split
  simp only [Finset.mem_univ, true_implies] at split
  rw [← split, bankerMaxScore, bankerWinScore]
  omega

end LosesMore

/-! ## All cases -/

/-- The banker takes and pays everything. -/
theorem settled_of_covered (takes : ¬c.bankerBaseScore < c.bankerTotalWinScore)
    (pays : ¬c.bankerTotalWinScore + c.bankerBaseScore < 0) : c.Settled := by
  obtain ⟨unwon, unlost⟩ := of_not_shares (c := c) (i := c.bankerUser) fun shares => shares.2 rfl
  have banker : c.userWinScore c.bankerUser = c.bankerTotalWinScore := by
    rw [userWinScore, if_neg takes, if_neg pays, if_pos rfl]
  have others : ∀ i, i ≠ c.bankerUser → c.userWinScore i = c.won i - c.lost i := by
    intro i player
    rw [userWinScore, if_neg takes, if_neg pays, if_neg player, rawScore]
  have bounds : ∀ i, -c.userBaseScore i ≤ c.userWinScore i ∧ c.userWinScore i ≤ c.userBaseScore i := by
    intro i
    rcases eq_or_ne i c.bankerUser with rfl | player
    · rw [banker, ← bankerBaseScore_eq proper]
      omega
    · have := lost_bounds proper i
      have := won_bounds proper i
      rw [others i player]
      omega
  have absent : ∀ i, ¬c.playStatus i = true → c.userWinScore i = 0 := by
    intro i away
    obtain ⟨unwon, unlost⟩ := of_not_shares (c := c) fun shares => away shares.1
    rw [others i fun same => away (same ▸ proper.banker), unwon, unlost, sub_zero]
  rw [settled_iff_zero bounds, sum_playing absent, sum_eq_banker_add others (by rw [unwon, unlost, sub_zero]), banker,
    Finset.sum_sub_distrib, bankerTotalWinScore, bankerWinScore, userTotalWinScore]
  omega

/-- The settlement conserves the money, within all balances, exactly when what the banker can take or pay is
split without a rest. -/
theorem sharesSettled_iff : c.Settled ↔ c.Divides := by
  rw [Divides]
  split
  · rename_i more
    exact settled_iff_of_more proper more
  · rename_i takes
    split
    · rename_i less
      exact settled_iff_of_less proper less
    · rename_i pays
      exact iff_of_true (settled_of_covered proper takes pays) trivial

end Proper

/-- Two players lose two coins each to a banker who has only one. -/
def poorBanker : Conclusion 4 where
  bankerUser := 0
  playStatus i := decide (i ≠ 3)
  userScore i := some (if i = 0 then 1 else 2)
  cellScore := 1
  bankerMultiple := 1
  userJettonMultiple _ := 1
  cardMultiple _ := 2
  bankerWins _ := true

theorem proper_poorBanker : poorBanker.Proper := ⟨by decide, by decide, by decide, by decide, by decide, by decide⟩

theorem sharesSettled_iff_poorBanker : poorBanker.Settled ↔ poorBanker.Divides := sharesSettled_iff proper_poorBanker

/-- Each loser's half of the coin is rounded to nothing, and the banker gets it all the same. -/
theorem poorBanker_shares_lost : ¬∀ c : Conclusion 4, c.Proper → c.Settled := by
  intro settles
  have zero := (settles poorBanker proper_poorBanker).zero
  revert zero
  decide +kernel

end Conclusion

end H5Server.Bbqznn
