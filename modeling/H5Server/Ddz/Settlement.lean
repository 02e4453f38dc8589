import H5Server.Lib.Doubles
import H5Server.Lib.Shares
import H5Server.Lib.Places
import Mathlib.Data.Fin.Basic
import Mathlib.Data.Fintype.BigOperators
import Mathlib.Tactic.FinCases
import Mathlib.Tactic.Ring

/-! # Settlement of Dou Dizhu (`CTableFrameSink::OnNormalGameConclude`)

The raw scores of the two farmers are capped by their balances; when their sum passes the balance of
the banker, that balance is split among them in proportion. The amounts are exact integers here,
but for the shares, which the source keeps in a `double`. Revenue and storage are left out.
-/

namespace H5Server.Ddz

open Lib

/-- `ADDScoreType`. -/
inductive AddScoreType where
  | notAddDouble | addDouble | noAddDouble
deriving DecidableEq, Repr

/-- What `OnNormalGameConclude` reads of the table. -/
structure Conclusion where
  wBankerUser : Fin 3
  cbHandCardCount : Fin 3 → Nat
  cbOutCardCount : Fin 3 → Nat
  cbBankerScore : Nat
  cbBombCount : Nat
  cbStakeInfo : Fin 3 → AddScoreType
  cellScore : Int
  userScore : Fin 3 → Int

namespace Conclusion

/-- The banker went out; otherwise a farmer did. -/
def bankerWins (c : Conclusion) : Prop := c.cbHandCardCount c.wBankerUser = 0

instance (c : Conclusion) : Decidable c.bankerWins := inferInstanceAs (Decidable (_ = _))

def farmers (c : Conclusion) : Finset (Fin 3) := Finset.univ.erase c.wBankerUser

/-- `lScoreTimes`: call score, bombs, spring (of the banker, or of the farmers). -/
def scoreTimes (c : Conclusion) (wChairID : Fin 3) : Int :=
  let times : Int := (max 1 c.cbBankerScore : Nat) * 2 ^ c.cbBombCount
  if wChairID = c.wBankerUser then
    if c.cbOutCardCount (c.wBankerUser + 1) = 0 ∧ c.cbOutCardCount (c.wBankerUser + 2) = 0 then times * 2 else times
  else if c.cbOutCardCount c.wBankerUser = 1 then times * 2 else times

def stakeTimes (c : Conclusion) (i : Fin 3) : Int := if c.cbStakeInfo i = .addDouble then 2 else 1

/-- `lTempUserScpre[i]` of a farmer before it is capped. -/
def rawScore (c : Conclusion) (wChairID i : Fin 3) : Int :=
  (if c.bankerWins then -1 else 1) * c.stakeTimes i * c.cellScore * c.scoreTimes wChairID

def cappedScore (c : Conclusion) (wChairID i : Fin 3) : Int :=
  let score := c.rawScore wChairID i
  if score < 0 then
    if c.userScore i ≤ 0 then 0
    else if c.userScore i + score < 0 then -c.userScore i
    else score
  else if c.userScore i < score then c.userScore i
  else score

def bankerTotalWinScore (c : Conclusion) (wChairID : Fin 3) : Int :=
  -∑ i ∈ c.farmers, c.cappedScore wChairID i

def userTotalLoseScore (c : Conclusion) (wChairID : Fin 3) : Int :=
  ∑ i ∈ c.farmers, if c.rawScore wChairID i < 0 then c.cappedScore wChairID i else 0

def userTotalWinScore (c : Conclusion) (wChairID : Fin 3) : Int :=
  ∑ i ∈ c.farmers, if c.rawScore wChairID i < 0 then 0 else c.cappedScore wChairID i

def bankerBaseScore (c : Conclusion) : Int := c.userScore c.wBankerUser

/-- A share of the banker's balance as it is stored, and what is added to `bankerliss` or
`bankerscore`: the share has been overwritten when the difference is taken. -/
def splitScore (c : Conclusion) (i : Fin 3) (realScore : Int) : Int × Int :=
  let stored := toDouble realScore
  if toDouble (c.userScore i) < stored then
    let stored := toDouble (c.userScore i)
    (stored, stored - toDouble (c.userScore i))
  else (stored, 0)

/-- `iUserNeedLostScore`, when the banker wins more than he owns. -/
def needLostScore (c : Conclusion) (wChairID i : Fin 3) : Int × Int :=
  c.splitScore i ((c.bankerBaseScore * c.cappedScore wChairID i).tdiv (c.userTotalLoseScore wChairID))

/-- `iUserRealWinScore`, when the banker owes more than he owns. -/
def realWinScore (c : Conclusion) (wChairID i : Fin 3) : Int × Int :=
  c.splitScore i ((c.bankerBaseScore * c.cappedScore wChairID i).tdiv (c.userTotalWinScore wChairID))

/-- `lTempUserScpre` as it is written to the scores. -/
def tempUserScpre (c : Conclusion) (wChairID i : Fin 3) : Int :=
  if c.bankerBaseScore < c.bankerTotalWinScore wChairID then
    if i = c.wBankerUser then
      c.bankerBaseScore + ∑ j ∈ c.farmers, -(c.needLostScore wChairID j).2
    else -(c.needLostScore wChairID i).1
  else if c.bankerTotalWinScore wChairID + c.bankerBaseScore < 0 then
    if i = c.wBankerUser then
      0 - c.bankerBaseScore +
        ∑ j ∈ c.farmers, if c.cappedScore wChairID j < 0 then 0 else (c.realWinScore wChairID j).2
    else if c.cappedScore wChairID i < 0 then c.cappedScore wChairID i
    else (c.realWinScore wChairID i).1
  else if i = c.wBankerUser then c.bankerTotalWinScore wChairID
  else c.cappedScore wChairID i

/-! ## What a settlement should be -/

/-- Nobody gains or loses more than his balance, the losers pay the winners, and no money is lost. -/
structure Settled (c : Conclusion) (score : Fin 3 → Int) : Prop where
  zero : ∑ i, score i = 0
  loses : ∀ i, -score i ≤ c.userScore i
  wins : ∀ i, score i ≤ c.userScore i
  banker : if c.bankerWins then 0 ≤ score c.wBankerUser else score c.wBankerUser ≤ 0
  farmers : ∀ i ∈ c.farmers, if c.bankerWins then score i ≤ 0 else 0 ≤ score i

/-- What a farmer and the banker settle at most: the stake, capped by the farmer's balance. -/
def amount (c : Conclusion) (wChairID i : Fin 3) : Int :=
  min (c.stakeTimes i * c.cellScore * c.scoreTimes wChairID) (c.userScore i)

def totalAmount (c : Conclusion) (wChairID : Fin 3) : Int := ∑ i ∈ c.farmers, c.amount wChairID i

/-- The banker's balance covers both farmers, or it splits between them without a rest. -/
def Divides (c : Conclusion) (wChairID : Fin 3) : Prop :=
  c.totalAmount wChairID ≤ c.bankerBaseScore ∨
    ∀ i ∈ c.farmers, c.totalAmount wChairID ∣ c.bankerBaseScore * c.amount wChairID i

/-- Balances are not negative, the stake is not, and the products of the split fit `int64_t`. -/
structure Fits (c : Conclusion) (wChairID : Fin 3) : Prop where
  cell : 0 ≤ c.cellScore
  user : ∀ i, 0 ≤ c.userScore i
  product : ∀ i ∈ c.farmers, c.bankerBaseScore * c.amount wChairID i < 2 ^ 63

/-! ## The capped amounts -/

section Amounts

variable {c : Conclusion} {wChairID : Fin 3}

theorem scoreTimes_nonneg (c : Conclusion) (wChairID : Fin 3) : 0 ≤ c.scoreTimes wChairID := by
  have times : (0 : Int) ≤ (max 1 c.cbBankerScore : Nat) * 2 ^ c.cbBombCount :=
    mul_nonneg (Int.natCast_nonneg _) (pow_nonneg zero_le_two _)
  unfold scoreTimes
  dsimp only
  split <;> split <;> omega

theorem stake_nonneg (fits : Fits c wChairID) (i : Fin 3) :
    0 ≤ c.stakeTimes i * c.cellScore * c.scoreTimes wChairID := by
  apply mul_nonneg (mul_nonneg ?_ fits.cell) (c.scoreTimes_nonneg wChairID)
  unfold stakeTimes
  split <;> decide

theorem amount_nonneg (fits : Fits c wChairID) (i : Fin 3) : 0 ≤ c.amount wChairID i :=
  le_min (stake_nonneg fits i) (fits.user i)

theorem amount_le (c : Conclusion) (wChairID i : Fin 3) : c.amount wChairID i ≤ c.userScore i := min_le_right _ _

theorem totalAmount_nonneg (fits : Fits c wChairID) : 0 ≤ c.totalAmount wChairID :=
  Finset.sum_nonneg fun i _ => amount_nonneg fits i

theorem amount_le_total (fits : Fits c wChairID) {i : Fin 3} (farmer : i ∈ c.farmers) :
    c.amount wChairID i ≤ c.totalAmount wChairID :=
  Finset.single_le_sum (fun j _ => amount_nonneg fits j) farmer

theorem cappedScore_of_win (fits : Fits c wChairID) (win : c.bankerWins) (i : Fin 3) :
    c.cappedScore wChairID i = -c.amount wChairID i ∧
      (¬c.rawScore wChairID i < 0 → c.cappedScore wChairID i = 0) := by
  have stake := stake_nonneg fits i
  have balance := fits.user i
  have raw : c.rawScore wChairID i = -(c.stakeTimes i * c.cellScore * c.scoreTimes wChairID) := by
    rw [rawScore, if_pos win]
    ring
  simp only [cappedScore, amount, raw]
  constructor
  · split
    · split
      · omega
      · split <;> omega
    · split <;> omega
  · intro zero
    rw [if_neg zero]
    split <;> omega

theorem cappedScore_of_lose (fits : Fits c wChairID) (lose : ¬c.bankerWins) (i : Fin 3) :
    c.cappedScore wChairID i = c.amount wChairID i ∧ ¬c.rawScore wChairID i < 0 := by
  have stake := stake_nonneg fits i
  have raw : c.rawScore wChairID i = c.stakeTimes i * c.cellScore * c.scoreTimes wChairID := by
    rw [rawScore, if_neg lose]
    ring
  have notLost : ¬c.rawScore wChairID i < 0 := by omega
  refine ⟨?_, notLost⟩
  rw [cappedScore, if_neg notLost, raw, amount]
  split <;> omega

theorem totals_of_win (fits : Fits c wChairID) (win : c.bankerWins) :
    c.bankerTotalWinScore wChairID = c.totalAmount wChairID ∧
      c.userTotalLoseScore wChairID = -c.totalAmount wChairID := by
  have capped := fun i => (cappedScore_of_win fits win i).1
  constructor
  · simp only [bankerTotalWinScore, totalAmount, capped, Finset.sum_neg_distrib, neg_neg]
  · rw [userTotalLoseScore, totalAmount, ← Finset.sum_neg_distrib]
    apply Finset.sum_congr rfl
    intro i _
    split
    · exact capped i
    · next raw => rw [← capped i, (cappedScore_of_win fits win i).2 raw]

theorem totals_of_lose (fits : Fits c wChairID) (lose : ¬c.bankerWins) :
    c.bankerTotalWinScore wChairID = -c.totalAmount wChairID ∧
      c.userTotalWinScore wChairID = c.totalAmount wChairID := by
  have capped := fun i => (cappedScore_of_lose fits lose i).1
  have raw := fun i => (cappedScore_of_lose fits lose i).2
  constructor
  · simp only [bankerTotalWinScore, totalAmount, capped]
  · simp only [userTotalWinScore, totalAmount, raw, capped, ↓reduceIte]

/-- The banker's score and those of the farmers make up the sum. -/
theorem sum_eq_banker_add (c : Conclusion) (score : Fin 3 → Int) :
    ∑ i, score i = score c.wBankerUser + ∑ i ∈ c.farmers, score i :=
  (Finset.add_sum_erase _ _ (Finset.mem_univ _)).symm

theorem not_banker {i : Fin 3} (farmer : i ∈ c.farmers) : i ≠ c.wBankerUser := Finset.ne_of_mem_erase farmer

theorem farmer_or_banker (c : Conclusion) (i : Fin 3) : i = c.wBankerUser ∨ i ∈ c.farmers := by
  rcases eq_or_ne i c.wBankerUser with same | other
  · exact .inl same
  · exact .inr (Finset.mem_erase_of_ne_of_mem other (Finset.mem_univ i))

end Amounts

/-! ## The split of the banker's balance -/

section Split

variable {c : Conclusion} {wChairID : Fin 3}

/-- The share of a farmer in the banker's balance. -/
def shareOf (c : Conclusion) (wChairID i : Fin 3) : Int :=
  share c.bankerBaseScore (c.totalAmount wChairID) (c.amount wChairID i)

/-- A share is small enough to be stored exactly, and no larger than the farmer's balance. -/
theorem splitScore_shareOf (fits : Fits c wChairID) {i : Fin 3} (farmer : i ∈ c.farmers)
    (less : c.bankerBaseScore < c.totalAmount wChairID) :
    c.splitScore i (c.shareOf wChairID i) = (c.shareOf wChairID i, 0) ∧ 0 ≤ c.shareOf wChairID i ∧
      c.shareOf wChairID i ≤ c.userScore i ∧ c.shareOf wChairID i ≤ c.bankerBaseScore := by
  have base : 0 ≤ c.bankerBaseScore := fits.user c.wBankerUser
  have part := amount_nonneg fits i
  have pos : 0 < c.totalAmount wChairID := by omega
  have nonneg : 0 ≤ c.shareOf wChairID i := share_nonneg base pos.le part
  have lePart : c.shareOf wChairID i ≤ c.amount wChairID i := share_le_part less.le pos base part
  have leBase : c.shareOf wChairID i ≤ c.bankerBaseScore :=
    share_le_amount (amount_le_total fits farmer) pos base part
  have leUser : c.shareOf wChairID i ≤ c.userScore i := lePart.trans (c.amount_le wChairID i)
  -- The share is below both factors of a product that fits 63 bits.
  have small : c.shareOf wChairID i ≤ 2 ^ 53 := by
    by_contra large
    have square : c.shareOf wChairID i * c.shareOf wChairID i ≤ c.bankerBaseScore * c.amount wChairID i :=
      mul_le_mul leBase lePart nonneg base
    have product := fits.product i farmer
    nlinarith
  have stored : toDouble (c.shareOf wChairID i) = c.shareOf wChairID i := toDouble_of_le nonneg small
  have kept : ¬toDouble (c.userScore i) < toDouble (c.shareOf wChairID i) := by
    rw [stored]
    exact not_lt.mpr (le_toDouble small (fits.user i) leUser)
  refine ⟨?_, nonneg, leUser, leBase⟩
  rw [splitScore]
  dsimp only
  rw [if_neg kept, stored]

/-- The shares of both farmers exhaust the balance exactly when it splits without a rest. -/
theorem sum_shareOf_eq_iff (fits : Fits c wChairID) (less : c.bankerBaseScore < c.totalAmount wChairID) :
    ∑ i ∈ c.farmers, c.shareOf wChairID i = c.bankerBaseScore ↔ c.Divides wChairID := by
  have base : 0 ≤ c.bankerBaseScore := fits.user c.wBankerUser
  have pos : 0 < c.totalAmount wChairID := by omega
  have exhausts := sum_share_eq_iff base (fun i _ => amount_nonneg fits i) pos
  rw [Divides, or_iff_right (not_le.mpr less)]
  exact exhausts

theorem needLostScore_eq (fits : Fits c wChairID) (win : c.bankerWins) (i : Fin 3) :
    c.needLostScore wChairID i = c.splitScore i (c.shareOf wChairID i) := by
  have shares : (c.bankerBaseScore * -c.amount wChairID i).tdiv (-c.totalAmount wChairID) = c.shareOf wChairID i :=
    share_neg_neg ..
  rw [needLostScore, (cappedScore_of_win fits win i).1, (totals_of_win fits win).2, shares]

theorem realWinScore_eq (fits : Fits c wChairID) (lose : ¬c.bankerWins) (i : Fin 3) :
    c.realWinScore wChairID i = c.splitScore i (c.shareOf wChairID i) := by
  rw [realWinScore, (cappedScore_of_lose fits lose i).1, (totals_of_lose fits lose).2]
  rfl

end Split

/-! ## The settlement -/

section Settlement

variable {c : Conclusion} {wChairID : Fin 3}

/-- Scores that move an amount between the farmers and the banker, up to a sign. -/
theorem settled_iff_of_moves {score : Fin 3 → Int} (paid : Fin 3 → Int) (banker : Int)
    (self : score c.wBankerUser = if c.bankerWins then banker else -banker)
    (others : ∀ i ∈ c.farmers, score i = if c.bankerWins then -paid i else paid i)
    (paidNonneg : ∀ i ∈ c.farmers, 0 ≤ paid i) (paidLe : ∀ i ∈ c.farmers, paid i ≤ c.userScore i)
    (bankerNonneg : 0 ≤ banker) (bankerLe : banker ≤ c.userScore c.wBankerUser) :
    Settled c score ↔ ∑ i ∈ c.farmers, paid i = banker := by
  have sum : ∑ i, score i = if c.bankerWins then banker - ∑ i ∈ c.farmers, paid i
      else ∑ i ∈ c.farmers, paid i - banker := by
    rw [sum_eq_banker_add, self, Finset.sum_congr rfl others]
    split
    · rw [Finset.sum_neg_distrib]
      ring
    · ring
  constructor
  · intro settled
    have zero := settled.zero
    rw [sum] at zero
    split at zero <;> omega
  · intro exact_
    have bounds : ∀ i, -score i ≤ c.userScore i ∧ score i ≤ c.userScore i := by
      intro i
      rcases c.farmer_or_banker i with rfl | farmer
      · rw [self]
        split <;> omega
      · rw [others i farmer]
        have nonneg := paidNonneg i farmer
        have le := paidLe i farmer
        split <;> omega
    refine ⟨?_, fun i => (bounds i).1, fun i => (bounds i).2, ?_, ?_⟩
    · rw [sum]
      split <;> omega
    · rw [self]
      split <;> omega
    · intro i farmer
      rw [others i farmer]
      have nonneg := paidNonneg i farmer
      split <;> omega

/-- The banker's balance covers the amounts: they are paid as they are. -/
private theorem settled_of_covered (fits : Fits c wChairID)
    (covered : c.totalAmount wChairID ≤ c.bankerBaseScore) : Settled c (c.tempUserScpre wChairID) := by
  have total := totalAmount_nonneg fits
  have base : 0 ≤ c.bankerBaseScore := fits.user c.wBankerUser
  have win : ¬c.bankerBaseScore < c.bankerTotalWinScore wChairID ∧
      ¬c.bankerTotalWinScore wChairID + c.bankerBaseScore < 0 := by
    by_cases win : c.bankerWins
    · rw [(totals_of_win fits win).1]
      omega
    · rw [(totals_of_lose fits win).1]
      omega
  have score : ∀ i, c.tempUserScpre wChairID i =
      if i = c.wBankerUser then c.bankerTotalWinScore wChairID else c.cappedScore wChairID i := fun i => by
    rw [tempUserScpre, if_neg win.1, if_neg win.2]
  apply (settled_iff_of_moves (c.amount wChairID) (c.totalAmount wChairID) ?_ ?_
    (fun i _ => amount_nonneg fits i) (fun i _ => c.amount_le wChairID i) total covered).mpr rfl
  · rw [score, if_pos rfl]
    split
    · next win => exact (totals_of_win fits win).1
    · next lose => exact (totals_of_lose fits lose).1
  · intro i farmer
    rw [score, if_neg (not_banker farmer)]
    split
    · next win => exact (cappedScore_of_win fits win i).1
    · next lose => exact (cappedScore_of_lose fits lose i).1

/-- The banker's balance does not cover them: it is split. -/
private theorem settled_iff_of_split (fits : Fits c wChairID)
    (less : c.bankerBaseScore < c.totalAmount wChairID) :
    Settled c (c.tempUserScpre wChairID) ↔ c.Divides wChairID := by
  rw [← sum_shareOf_eq_iff fits less]
  have base : 0 ≤ c.bankerBaseScore := fits.user c.wBankerUser
  have shares := fun i (farmer : i ∈ c.farmers) => splitScore_shareOf fits farmer less
  have score : c.tempUserScpre wChairID c.wBankerUser = (if c.bankerWins then c.bankerBaseScore else -c.bankerBaseScore) ∧
      ∀ i ∈ c.farmers, c.tempUserScpre wChairID i =
        if c.bankerWins then -c.shareOf wChairID i else c.shareOf wChairID i := by
    by_cases win : c.bankerWins
    · have need := fun i farmer => (needLostScore_eq fits win i).trans (shares i farmer).1
      have wins : c.bankerBaseScore < c.bankerTotalWinScore wChairID := by rwa [(totals_of_win fits win).1]
      have rest : ∑ j ∈ c.farmers, -(c.needLostScore wChairID j).2 = 0 :=
        Finset.sum_eq_zero fun j farmer => by rw [need j farmer, neg_zero]
      constructor
      · rw [tempUserScpre, if_pos wins, if_pos rfl, if_pos win, rest, add_zero]
      · intro i farmer
        rw [tempUserScpre, if_pos wins, if_neg (not_banker farmer), if_pos win, need i farmer]
    · have real := fun i farmer => (realWinScore_eq fits win i).trans (shares i farmer).1
      have total := (totals_of_lose fits win).1
      have notWins : ¬c.bankerBaseScore < c.bankerTotalWinScore wChairID := by rw [total]; omega
      have owes : c.bankerTotalWinScore wChairID + c.bankerBaseScore < 0 := by rw [total]; omega
      have notLost : ∀ i, ¬c.cappedScore wChairID i < 0 := fun i => by
        rw [(cappedScore_of_lose fits win i).1]
        exact not_lt.mpr (amount_nonneg fits i)
      have rest : ∑ j ∈ c.farmers, (if c.cappedScore wChairID j < 0 then 0 else (c.realWinScore wChairID j).2) = 0 :=
        Finset.sum_eq_zero fun j farmer => by rw [if_neg (notLost j), real j farmer]
      constructor
      · rw [tempUserScpre, if_neg notWins, if_pos owes, if_pos rfl, if_neg win, rest]
        ring
      · intro i farmer
        rw [tempUserScpre, if_neg notWins, if_pos owes, if_neg (not_banker farmer), if_neg (notLost i), if_neg win,
          real i farmer]
  exact settled_iff_of_moves (c.shareOf wChairID) c.bankerBaseScore score.1 score.2
    (fun i farmer => (shares i farmer).2.1) (fun i farmer => (shares i farmer).2.2.1) base (le_refl _)

/-- The settlement conserves the money exactly when the banker's balance covers both farmers or
splits between them without a rest. -/
theorem settled_iff_divides (fits : Fits c wChairID) : Settled c (c.tempUserScpre wChairID) ↔ c.Divides wChairID := by
  rcases le_or_gt (c.totalAmount wChairID) c.bankerBaseScore with covered | less
  · exact iff_of_true (settled_of_covered fits covered) (.inl covered)
  · exact settled_iff_of_split fits less

/-- A banker who owns one coin wins against two farmers at cell score one. -/
def poorBanker : Conclusion where
  wBankerUser := 0
  cbHandCardCount i := if i = 0 then 0 else 5
  cbOutCardCount i := if i = 0 then 20 else 12
  cbBankerScore := 1
  cbBombCount := 0
  cbStakeInfo _ := .noAddDouble
  cellScore := 1
  userScore i := if i = 0 then 1 else 100

theorem settled_iff_divides_poorBanker : Settled poorBanker (poorBanker.tempUserScpre 0) ↔ poorBanker.Divides 0 :=
  settled_iff_divides ⟨by decide, by decide, by decide +kernel⟩

/-- Each farmer's half of the coin is rounded to nothing, and the banker is paid all the same. -/
theorem poorBanker_not_settled : ¬∀ (c : Conclusion) (wChairID : Fin 3), 0 ≤ c.cellScore → (∀ i, 0 ≤ c.userScore i) →
    (∀ i ∈ c.farmers, c.bankerBaseScore * c.amount wChairID i < 2 ^ 63) →
    Settled c (c.tempUserScpre wChairID) := by
  intro settles
  have zero := (settles poorBanker 0 (by decide) (by decide) (by decide +kernel)).zero
  have one : ∑ i, poorBanker.tempUserScpre 0 i = 1 := by decide +kernel
  omega

end Settlement

end Conclusion

end H5Server.Ddz
