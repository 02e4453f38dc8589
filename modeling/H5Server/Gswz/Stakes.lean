import H5Server.Gswz.Scans
import Mathlib.Tactic.Linarith

/-! # The stakes of a betting round

The players of a betting round come to it with one common stake `base`. What they add stays within
the limit, which every balance covers. It rises from the player whose turn it is around the table,
so nobody is passed over who owes something, and the smallest raise computed for the next player is
large enough for all later ones.
-/

namespace H5Server.Gswz

open Lib

/-- The money on the table, whoever's turn it is. -/
structure Stakes (r : Round) (t : Table) (base : ℤ) : Prop where
  total : t.allScoreInTable = ∑ i, t.tableScore i
  staked : ∀ i, t.playStatus i → t.tableScore i = base + max (t.currentRoundScore i) 0
  rounds : ∀ i, t.playStatus i → -1 ≤ t.currentRoundScore i ∧ t.currentRoundScore i ≤ t.currentJetton
  nonneg : 0 ≤ t.currentJetton
  held : 0 < t.currentJetton → ∃ i, t.playStatus i ∧ t.currentRoundScore i = t.currentJetton
  within : base + t.currentJetton ≤ t.allInScore
  covered : ∀ i, t.playStatus i → t.allInScore ≤ r.userSourceScore i
  positive : ∀ i, t.playStatus i → 0 < r.userSourceScore i
  cell : 0 ≤ r.cellScore
  cards : t.handCardCount ≤ 5

/-- All playing chairs have the same amount on the table. -/
def EqualStakes (t : Table) : Prop := ∀ i j, t.playStatus i → t.playStatus j → t.tableScore i = t.tableScore j

/-- Whatever is staked in the betting round, everybody has staked. -/
def Level (t : Table) : Prop := 0 < t.currentJetton → ∀ i, t.playStatus i → t.currentRoundScore i = t.currentJetton

/-- No raise is allowed, or the amount is large enough to raise, for whoever gets the turn. -/
def Raises (r : Round) (t : Table) (amount : ℤ) : Prop :=
  amount = 0 ∨ (0 < r.cellScore ∧
    ∀ i, t.playStatus i → r.cellScore + (t.currentJetton - max (t.currentRoundScore i) 0) ≤ amount)

def AtLeastTwo (t : Table) : Prop := ∃ i j, i ≠ j ∧ t.playStatus i ∧ t.playStatus j

/-- Somebody has the turn. -/
structure Turn (r : Round) (t : Table) (base : ℤ) : Prop extends Stakes r t base where
  playing : t.playing
  active : t.playStatus t.currentChairID
  owing : t.currentRoundScore t.currentChairID < t.currentJetton
  rises : RisesFrom (fun i => t.playStatus i = true) t.currentRoundScore t.currentChairID
  raise : Raises r t t.minAddScore
  two : AtLeastTwo t

/-- The chair that had the turn has acted or has left the round. -/
structure Acted (r : Round) (t : Table) (base : ℤ) : Prop extends Stakes r t base where
  playing : t.playing
  own : t.playStatus t.currentChairID → t.currentRoundScore t.currentChairID = t.currentJetton
  rises : ∀ i j, 1 ≤ i → i ≤ j → j < 5 → t.playStatus (seatAfter t.currentChairID i) →
    t.playStatus (seatAfter t.currentChairID j) →
      t.currentRoundScore (seatAfter t.currentChairID i) ≤ t.currentRoundScore (seatAfter t.currentChairID j)
  two : AtLeastTwo t

variable {r : Round} {t : Table} {base : ℤ}

namespace Stakes

variable (stakes : Stakes r t base)

include stakes

theorem tableScore_le {i : Chair} (plays : t.playStatus i) : t.tableScore i ≤ t.allInScore := by
  have own := stakes.staked i plays
  have most := stakes.rounds i plays
  have limit := stakes.within
  have nonneg := stakes.nonneg
  omega

/-- What the limit allows, the balance pays. -/
theorem getCanAddMaxScore_le {i : Chair} (plays : t.playStatus i) :
    t.getCanAddMaxScore i ≤ t.getCurrentUserScore r i := by
  have covered := stakes.covered i plays
  rw [Table.getCanAddMaxScore, Table.getCurrentUserScore]
  omega

/-- The stake once the betting round is level. -/
theorem tableScore_eq (level : Level t) {i : Chair} (plays : t.playStatus i) :
    t.tableScore i = base + t.currentJetton := by
  have own := stakes.staked i plays
  have most := stakes.rounds i plays
  rcases stakes.nonneg.lt_or_eq with some_ | none_
  · have same := level some_ i plays
    omega
  · omega

theorem equalStakes (level : Level t) : EqualStakes t := by
  intro i j first second
  rw [stakes.tableScore_eq level first, stakes.tableScore_eq level second]

/-- The next betting round starts from the level reached. -/
theorem sendBufferCard2HandCard (level : Level t) (more : t.handCardCount < 5) :
    Stakes r (t.sendBufferCard2HandCard r 1) (base + t.currentJetton) where
  total := stakes.total
  staked i plays := (stakes.tableScore_eq level plays).trans (add_zero _).symm
  rounds i plays := ⟨le_rfl, show (-1 : ℤ) ≤ 0 by decide⟩
  nonneg := le_rfl
  held impossible := absurd impossible (lt_irrefl 0)
  within := by
    have limit := stakes.within
    show base + t.currentJetton + 0 ≤ t.allInScore
    omega
  covered := stakes.covered
  positive := stakes.positive
  cell := stakes.cell
  cards := more

end Stakes

theorem AtLeastTwo.some (two : AtLeastTwo t) : ∃ i, t.playStatus i :=
  let ⟨i, _, _, plays, _⟩ := two
  ⟨i, plays⟩

theorem AtLeastTwo.other (two : AtLeastTwo t) (chair : Chair) : ∃ i, i ≠ chair ∧ t.playStatus i := by
  obtain ⟨i, j, apart, first, second⟩ := two
  rcases eq_or_ne i chair with rfl | away
  · exact ⟨j, apart.symm, second⟩
  · exact ⟨i, away, first⟩

namespace Acted

variable (acted : Acted r t base)

include acted

/-- Nobody owes anything, so the round is level. -/
theorem level (done : t.getNextPlayer = none) : Level t := by
  intro _ i plays
  have closed := nextSeat_eq_none.mp done i
  have most := (acted.rounds i plays).2
  rw [Table.owes, plays, Bool.true_and, decide_eq_false_iff_not] at closed
  omega

theorem risesFrom {chair : Chair} (found : t.getNextPlayer = some chair) :
    RisesFrom (fun i => t.playStatus i = true) t.currentRoundScore chair := by
  apply RisesFrom.next acted.rises (fun s plays => (acted.rounds s plays).2) acted.own _ found
  intro s closed plays
  rw [Table.owes, plays, Bool.true_and, decide_eq_false_iff_not] at closed
  exact not_lt.mp closed

/-- The turn goes on. -/
theorem turn {chair : Chair} (found : t.getNextPlayer = some chair) {amount : ℤ} (raise : Raises r t amount) :
    Turn r { t with currentChairID := chair, minAddScore := amount } base := by
  have owing := (nextSeat_eq_some found).1
  rw [Table.owes, Bool.and_eq_true, decide_eq_true_eq] at owing
  exact { acted.toStakes with
    playing := acted.playing
    active := owing.1
    owing := owing.2
    rises := acted.risesFrom found
    raise := raise
    two := acted.two }

end Acted

end H5Server.Gswz
