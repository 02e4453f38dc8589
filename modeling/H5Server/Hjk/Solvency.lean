import H5Server.Hjk.Settlement
import Mathlib.Algebra.Order.BigOperators.Group.Finset

/-! # Nobody stakes more than he has

What lies on the hands of a user is what he has been charged, and it is covered by the score he came
with as long as insurance is bought by the user of the hand. A hand loses no more than its stake, so
the score he is left with is not negative.
-/

namespace H5Server.Hjk

open Lib

namespace Table

variable {r : Round} {s : Table}

theorem stakeOf_nonneg (slip : Slip) (u : Int) : 0 ≤ slip.stakeOf u := by
  rw [Slip.stakeOf]
  split <;> omega

/-- A hand loses its stake at most. -/
theorem neg_stake_le_handResult (s : Table) (i : Nat) :
    -((s.hands i).betscore + (s.hands i).insurescore : Int) ≤ s.handResult i := by
  rw [handResult]
  split
  next =>
    have most : s.bankerMultiple i ≤ 2 := compareCard_le ..
    generalize s.bankerMultiple i = m at most ⊢
    generalize (s.hands i).betscore = bet
    generalize (s.hands i).insurescore = insurance
    have product : -(2 * (bet : Int)) ≤ -m * bet := by nlinarith
    have halved := Int.tdiv_le_tdiv (a := -(bet + insurance) * 2) (b := -m * bet - 2 * insurance) (c := 2) (by omega) (by omega)
    rwa [Int.mul_tdiv_cancel _ two_ne_zero] at halved
  next =>
    rw [insuredScore]
    split_ifs <;> omega

/-- A user loses his stake at most. -/
theorem neg_stake_le_addScore (sound : Sound r s) (ended : s.cbGameStatus = .gameEnd) (exact_ : s.FloatExact) {c : Nat}
    (plays : r.bPlayStatus c = true) : -s.stake (r.dwPlayUserID c) ≤ s.addScore c := by
  have banker : (5 : Nat) ∈ Finset.range 11 := Finset.mem_range.mpr (by omega)
  have hand : ∀ i, -(s.hands i).stakeOf (r.dwPlayUserID c) ≤
      if (s.hands i).isactivated = true ∧ (s.hands i).userId = r.dwPlayUserID c then s.handResult i else 0 := by
    intro i
    rw [Slip.stakeOf]
    split
    next => exact neg_stake_le_handResult s i
    next => exact le_of_eq neg_zero
  have others : -∑ i ∈ (Finset.range 11).erase 5, (s.hands i).stakeOf (r.dwPlayUserID c) ≤
      ∑ i ∈ (Finset.range 11).erase 5,
        if (s.hands i).isactivated = true ∧ (s.hands i).userId = r.dwPlayUserID c then s.handResult i else 0 := by
    rw [← Finset.sum_neg_distrib]
    exact Finset.sum_le_sum fun i _ => hand i
  rw [addScore_eq sound ended exact_ plays, userResult, stake, ← Finset.sum_erase_eq_sub banker,
    ← Finset.add_sum_erase _ _ banker]
  have own := stakeOf_nonneg (s.hands 5).toSlip (r.dwPlayUserID c)
  omega

/-- The stakes of a table: they are what the users were charged, everybody can pay his own, and
nobody is left with a debt. -/
structure StakesKept (r : Round) (s : Table) : Prop where
  total : ∀ c, r.bPlayStatus c = true → s.stake (r.dwPlayUserID c) = s.wUserBets (r.dwPlayUserID c)
  covered : Covered r s
  held : s.cbGameStatus = .gameEnd → ∀ c, r.bPlayStatus c = true → 0 ≤ s.userScore r c

/-- A winner keeps something of what he has won. -/
theorem calculateRevenue_le (percent : r.revenueRatio ≤ 100) {score : Int} (won : 0 < score) :
    calculateRevenue r score ≤ score := by
  have product : score * r.revenueRatio ≤ score * 100 := by nlinarith
  have divided := Int.tdiv_le_tdiv (c := 100) (by omega) product
  rwa [Int.mul_tdiv_cancel _ (by omega)] at divided

theorem userScore_nonneg (percent : r.revenueRatio ≤ 100) (sound : Sound r s) (covered : Covered r s)
    (ended : s.cbGameStatus = .gameEnd) (exact_ : s.FloatExact) {c : Nat} (plays : r.bPlayStatus c = true) :
    0 ≤ s.userScore r c := by
  have source := r.solvent c plays
  rw [userScore]
  split
  next won =>
    have kept := calculateRevenue_le percent won
    omega
  next =>
    have lost := neg_stake_le_addScore sound ended exact_ plays
    have paid := covered c plays
    rw [← sound.staked.total] at paid
    omega

/-- In every round in which insurance is bought by the user of the hand the stakes are kept, and the
bets of a user grow by his own messages and his own time-out only. -/
theorem stakes_of_run (percent : r.revenueRatio ≤ 100) {events : List Event}
    (run : Run (step r) (OwnInsurance r) r.opened events s) (exact_ : s.cbGameStatus = .gameEnd → s.FloatExact) :
    StakesKept r s ∧ ∀ event s', OwnInsurance r s event → step r s event = some s' → ∀ c, r.bPlayStatus c = true →
      s.wUserBets (r.dwPlayUserID c) < s'.wUserBets (r.dwPlayUserID c) → Acts s event c := by
  have sound := sound_of_run run
  have covered := covered_of_run run
  constructor
  · exact
      { total := fun c _ => sound.staked.total _
        covered
        held := fun ended c plays => userScore_nonneg percent sound covered ended (exact_ ended) plays }
  · intro event s' own taken
    exact ((sound_step sound taken).2 own).only

private theorem natural_own : ∀ event ∈ naturalRound, ∀ s, OwnInsurance twoPlayers s event := by
  intro event present s
  simp only [naturalRound, List.mem_cons, List.not_mem_nil, or_false] at present
  rcases present with rfl | rfl | rfl | rfl | rfl <;> trivial

theorem stakes_of_run_natural : StakesKept twoPlayers naturalEnd ∧ ∀ event s', OwnInsurance twoPlayers naturalEnd event →
    step twoPlayers naturalEnd event = some s' → ∀ c, twoPlayers.bPlayStatus c = true →
      naturalEnd.wUserBets (twoPlayers.dwPlayUserID c) < s'.wUserBets (twoPlayers.dwPlayUserID c) →
        Acts naturalEnd event c :=
  stakes_of_run (by decide) (Lib.run_of_replay_of natural_own natural_replay) fun _ => natural_small.floatExact

/-! ## A hand insured by somebody else -/

/-- The first player has a hundred coins, the second has a thousand. -/
def poorAndRich : Round :=
  { twoPlayers with
    llUserSourceScore := fun u => if u = 1 then 100 else 1000
    solvent := fun c _ => by split <;> decide }

/-- The banker shows an ace and the first player has 16 points. -/
def aceShoe : Shoe where
  dealt i := if i = 0 then (0x06, 0x0A) else if i = 1 then (0x1A, 0x19) else (0x21, 0x29)
  changed _ := none
  drawn _ := 0x05

/-- The second player insures the hand on which the first has staked all he has. -/
def insuredByOther : List Event :=
  [.message 0 (.addScore 100 (-1)) aceShoe, .message 1 (.addScore 100 (-1)) aceShoe, .message 0 .endScore aceShoe,
    .message 1 .endScore aceShoe, .message 1 (.insure true 0) aceShoe]

theorem insured_by_other : ¬∀ (r : Round) (events : List Event) (s : Table), r.revenueRatio ≤ 100 →
    Run (step r) (fun _ _ => True) r.opened events s → (s.cbGameStatus = .gameEnd → s.FloatExact) → StakesKept r s := by
  intro kept
  have facts : (Lib.replay (step poorAndRich) poorAndRich.opened insuredByOther).map
      (fun s => (s.cbGameStatus, s.wUserBets 1)) = some (.insure, 150) := by decide +kernel
  obtain ⟨s, reached, values⟩ := Option.map_eq_some_iff.mp facts
  obtain ⟨status, bets⟩ := Prod.mk.inj values
  have covered := (kept poorAndRich insuredByOther s (by decide) (Lib.run_of_replay reached)
    fun ended => absurd (status.symm.trans ended) nofun).covered 0 rfl
  have source : poorAndRich.llUserSourceScore (poorAndRich.dwPlayUserID 0) = 100 := by decide
  have user : poorAndRich.dwPlayUserID 0 = 1 := by decide
  rw [source, user, bets] at covered
  omega

end Table

end H5Server.Hjk
