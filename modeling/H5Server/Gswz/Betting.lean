import H5Server.Gswz.Stakes
import Mathlib.Tactic.Ring

/-! # The betting invariant

Every action of the player who has the turn keeps the stakes in order, and no assertion fails.
-/

namespace H5Server.Gswz

open Lib

variable {r : Round} {t : Table} {base : ℤ}

/-! ## What an action does to the stakes -/

theorem Stakes.opened (stakes : Stakes r t base) {chair : Chair} (plays : t.playStatus chair) :
    t.opened chair = max (t.currentRoundScore chair) 0 := by
  have low := (stakes.rounds chair plays).1
  rw [Table.opened]
  split <;> omega

/-- The player who has the turn brings his stake to `top`, which is at least the present one. -/
theorem Turn.acted (turn : Turn r t base) {s : Table} (score : ℤ)
    (playing : s.playing = t.playing) (plays : s.playStatus = t.playStatus)
    (chair : s.currentChairID = t.currentChairID) (cards : s.handCardCount = t.handCardCount)
    (limit : s.allInScore = t.allInScore)
    (bet : s.currentRoundScore = Function.update t.currentRoundScore t.currentChairID s.currentJetton)
    (table : s.tableScore = Function.update t.tableScore t.currentChairID (t.tableScore t.currentChairID + score))
    (all : s.allScoreInTable = t.allScoreInTable + score)
    (top : s.currentJetton = max (t.currentRoundScore t.currentChairID) 0 + score)
    (more : t.currentJetton ≤ s.currentJetton) (within : base + s.currentJetton ≤ t.allInScore) :
    Acted r s base := by
  have nonneg := turn.nonneg
  have mine : s.currentRoundScore t.currentChairID = s.currentJetton := by
    rw [bet, Function.update_self]
  have others : ∀ i, i ≠ t.currentChairID → s.currentRoundScore i = t.currentRoundScore i := by
    intro i other
    rw [bet, Function.update_of_ne other]
  constructor
  · exact {
      total := by
        rw [all, table, turn.total, Finset.sum_update_of_mem (Finset.mem_univ _),
          Finset.sum_eq_add_sum_sdiff_singleton_of_mem (Finset.mem_univ t.currentChairID) t.tableScore]
        ring
      staked := by
        intro i active
        rw [plays] at active
        have before := turn.staked i active
        rcases eq_or_ne i t.currentChairID with rfl | other
        · rw [table, Function.update_self, mine]
          omega
        · rw [table, Function.update_of_ne other, others i other]
          exact before
      rounds := by
        intro i active
        rw [plays] at active
        have before := turn.rounds i active
        rcases eq_or_ne i t.currentChairID with rfl | other
        · omega
        · rw [others i other]
          omega
      nonneg := by omega
      held := fun _ => ⟨t.currentChairID, by rw [plays]; exact turn.active, mine⟩
      within := by rwa [limit]
      covered := by
        rw [plays, limit]
        exact turn.covered
      positive := by
        rw [plays]
        exact turn.positive
      cell := turn.cell
      cards := by
        rw [cards]
        exact turn.cards }
  · rw [playing]
    exact turn.playing
  · intro _
    rw [chair, mine]
  · intro i j first order last
    rw [chair, plays]
    rw [others _ (seatAfter_ne first (by omega)), others _ (seatAfter_ne (by omega) last)]
    exact turn.rises i j order last
  · rw [AtLeastTwo, plays]
    exact turn.two

theorem Table.without_playStatus (t : Table) (chair i : Chair) :
    (t.without chair).playStatus i ↔ i ≠ chair ∧ t.playStatus i := by
  rcases eq_or_ne i chair with rfl | other
  · simp [Table.without]
  · simp [Table.without, other]

/-- The player who has the turn does not hold the present stake, so it stays held when he leaves. -/
theorem Turn.without (turn : Turn r t base) : Stakes r (t.without t.currentChairID) base := by
  have stays : ∀ i, (t.without t.currentChairID).playStatus i → t.playStatus i :=
    fun i plays => ((t.without_playStatus _ i).mp plays).2
  exact { turn.toStakes with
    staked := fun i plays => turn.staked i (stays i plays)
    rounds := fun i plays => turn.rounds i (stays i plays)
    held := by
      intro some_
      obtain ⟨i, plays, holds⟩ := turn.held some_
      refine ⟨i, (t.without_playStatus _ i).mpr ⟨?_, plays⟩, holds⟩
      rintro rfl
      exact turn.owing.ne holds
    covered := fun i plays => turn.covered i (stays i plays)
    positive := fun i plays => turn.positive i (stays i plays) }

/-- With the poorest player gone the limit may only rise. -/
theorem Stakes.newAllInScore (stakes : Stakes r t base) (someone : ∃ i, t.playStatus i) :
    Stakes r (t.newAllInScore r) base :=
  { stakes with
    within := stakes.within.trans (le_allInScoreOf stakes.positive someone stakes.covered)
    covered := fun _ plays => allInScoreOf_le stakes.positive plays }

/-! ## Where a step leads -/

/-- Either somebody has the turn, or the round is over. -/
def Good (r : Round) (t : Table) : Prop := ∃ base, Turn r t base ∨ (Stakes r t base ∧ t.playing = false)

/-- A step that ends without a failed assertion, from a betting round with `cards` cards in hand and
the given present stake. -/
def Leads (r : Round) (cards : ℕ) (jetton : ℤ) (outcome : Outcome) : Prop :=
  ∃ last reached, outcome = some (last, reached) ∧ Good r last ∧ (∀ s ∈ reached, EqualStakes s) ∧
    (last.handCardCount = cards → jetton ≤ last.currentJetton) ∧ cards ≤ last.handCardCount

theorem leads_still {jetton : ℤ} (good : Good r t) (more : jetton ≤ t.currentJetton) :
    Leads r t.handCardCount jetton (some (t, [])) :=
  ⟨t, [], rfl, good, fun _ impossible => absurd impossible List.not_mem_nil, fun _ => more, le_rfl⟩

/-- The showdown of a level round. -/
theorem Stakes.showdown (stakes : Stakes r t base) (level : Level t) (someone : ∃ i, t.playStatus i) :
    Leads r t.handCardCount t.currentJetton (t.handleMorethanRoundEnd r) := by
  obtain ⟨winner, best, plays⟩ := bestOf_spec (r.full t.handCardCount) someone
  rw [Table.handleMorethanRoundEnd, best]
  refine ⟨_, _, rfl, ⟨base, Or.inr ⟨?_, rfl⟩⟩, ?_, fun _ => le_rfl, le_rfl⟩
  · have stays : ∀ i, (t.playStatus i && decide (i = winner)) = true → t.playStatus i :=
      fun i both => (Bool.and_eq_true_iff.mp both).1
    exact { stakes with
      staked := fun i both => stakes.staked i (stays i both)
      rounds := fun i both => stakes.rounds i (stays i both)
      held := by
        intro some_
        refine ⟨winner, ?_, level some_ winner plays⟩
        show (t.playStatus winner && decide (winner = winner)) = true
        rw [plays, decide_eq_true rfl, Bool.true_and]
      covered := fun i both => stakes.covered i (stays i both)
      positive := fun i both => stakes.positive i (stays i both) }
  · intro s same
    rw [List.mem_singleton.mp same]
    exact stakes.equalStakes level

/-- A betting round in which nobody has acted yet. -/
structure Fresh (r : Round) (t : Table) (base : ℤ) : Prop extends Stakes r t base where
  playing : t.playing
  unopened : ∀ i, t.currentRoundScore i = -1
  zero : t.currentJetton = 0
  raise : t.minAddScore = r.cellScore
  two : AtLeastTwo t

namespace Fresh

theorem level (fresh : Fresh r t base) : Level t := by
  intro some_
  rw [fresh.zero] at some_
  exact absurd some_ (lt_irrefl 0)

theorem turn (fresh : Fresh r t base) {chair : Chair} (plays : t.playStatus chair) :
    Turn r { t with currentChairID := chair } base :=
  { fresh.toStakes with
    playing := fresh.playing
    active := plays
    owing := by
      show t.currentRoundScore chair < t.currentJetton
      rw [fresh.unopened, fresh.zero]
      decide
    rises := by
      intro i j _ _ _ _
      show t.currentRoundScore _ ≤ t.currentRoundScore _
      rw [fresh.unopened, fresh.unopened]
    raise := by
      rcases fresh.cell.eq_or_lt with none_ | some_
      · exact Or.inl (fresh.raise.trans none_.symm)
      · refine Or.inr ⟨some_, fun i _ => ?_⟩
        show r.cellScore + (t.currentJetton - max (t.currentRoundScore i) 0) ≤ t.minAddScore
        rw [fresh.unopened, fresh.zero, fresh.raise]
        omega
    two := fresh.two }

end Fresh

theorem Stakes.fresh (stakes : Stakes r t base) (level : Level t) (playing : t.playing) (two : AtLeastTwo t)
    (more : t.handCardCount < 5) : Fresh r (t.sendBufferCard2HandCard r 1) (base + t.currentJetton) :=
  { stakes.sendBufferCard2HandCard level more with
    playing := playing
    unopened := fun _ => rfl
    zero := rfl
    raise := rfl
    two := two }

/-- One card of the deal, given what the rest of it leads to. -/
private theorem Fresh.sendCardWith (fresh : Fresh r t base) {again : Table → Outcome}
    (rest : ∀ s base, Fresh r s base → s.handCardCount = t.handCardCount + 1 →
      Leads r s.handCardCount s.currentJetton (again s)) :
    Leads r t.handCardCount t.currentJetton (t.sendCardWith r again) := by
  obtain ⟨chair, best, plays⟩ := bestOf_spec (r.shown t.handCardCount) fresh.two.some
  have turn := fresh.turn plays
  rw [Table.sendCardWith, Table.getMaxShowCardChairID, best]
  dsimp only
  split_ifs with full last
  · have next := turn.toStakes.fresh fresh.level fresh.playing fresh.two (lt_of_le_of_ne fresh.cards last)
    obtain ⟨final, reached, run, good, equal, more, longer⟩ := rest _ _ next rfl
    refine ⟨final, _ :: reached, by rw [run]; rfl, good, ?_, ?_, ?_⟩
    · intro s inside
      rcases List.mem_cons.mp inside with rfl | later
      · exact turn.equalStakes fresh.level
      · exact equal s later
    · intro same
      exact absurd longer (by rw [same]; exact Nat.not_succ_le_self _)
    · exact (Nat.le_succ _).trans longer
  · exact turn.showdown fresh.level fresh.two.some
  · exact leads_still ⟨base, Or.inl turn⟩ le_rfl

theorem Fresh.sendCard {left : ℕ} (fresh : Fresh r t base) (cards : t.handCardCount + left = 5) :
    Leads r t.handCardCount t.currentJetton (t.sendCard r left) := by
  induction left generalizing t base with
  | zero =>
    apply fresh.sendCardWith
    intro s _ next more
    have bound := next.cards
    omega
  | succ left ih =>
    apply fresh.sendCardWith
    intro s _ next more
    exact ih next (by omega)

/-- A new card starts a new betting round. -/
theorem Stakes.deal (stakes : Stakes r t base) (level : Level t) (playing : t.playing) (two : AtLeastTwo t)
    (more : t.handCardCount < 5) (jetton : ℤ) : Leads r t.handCardCount jetton (t.deal r) := by
  have next := stakes.fresh level playing two more
  have cards : (t.sendBufferCard2HandCard r 1).handCardCount + (4 - t.handCardCount) = 5 := by
    show t.handCardCount + 1 + (4 - t.handCardCount) = 5
    omega
  obtain ⟨final, reached, run, good, equal, -, longer⟩ := next.sendCard cards
  have longer : t.handCardCount + 1 ≤ final.handCardCount := longer
  rw [Table.deal, run]
  refine ⟨final, t :: reached, rfl, good, ?_, by omega, by omega⟩
  intro s inside
  rcases List.mem_cons.mp inside with rfl | later
  · exact stakes.equalStakes level
  · exact equal s later

theorem Acted.betsDone (acted : Acted r t base) (done : t.getNextPlayer = none) :
    Leads r t.handCardCount t.currentJetton (t.betsDone r) := by
  rw [Table.betsDone]
  split_ifs with last
  · exact acted.showdown (acted.level done) acted.two.some
  · exact acted.deal (acted.level done) acted.playing acted.two (lt_of_le_of_ne acted.cards last) _

/-! ## The actions -/

private theorem atLeastTwo_of_card (someone : ∃ i, t.playStatus i)
    (many : (Finset.univ.filter fun i => t.playStatus i).card ≠ 1) : AtLeastTwo t := by
  obtain ⟨i, plays⟩ := someone
  have inside : i ∈ Finset.univ.filter fun i => t.playStatus i := Finset.mem_filter.mpr ⟨Finset.mem_univ i, plays⟩
  have positive := Finset.card_pos.mpr ⟨i, inside⟩
  have two : 1 < (Finset.univ.filter fun i => t.playStatus i).card := by omega
  obtain ⟨j, other, k, third, apart⟩ := Finset.one_lt_card.mp two
  exact ⟨j, k, apart, (Finset.mem_filter.mp other).2, (Finset.mem_filter.mp third).2⟩

/-- The last player left holds the present stake. -/
private theorem level_of_card (held : 0 < t.currentJetton → ∃ i, t.playStatus i ∧ t.currentRoundScore i = t.currentJetton)
    (one : (Finset.univ.filter fun i => t.playStatus i).card = 1) : Level t := by
  intro some_ i plays
  obtain ⟨holder, active, holds⟩ := held some_
  obtain ⟨only, single⟩ := Finset.card_eq_one.mp one
  have member : ∀ j, t.playStatus j → j = only := by
    intro j active
    rw [← Finset.mem_singleton, ← single]
    exact Finset.mem_filter.mpr ⟨Finset.mem_univ j, active⟩
  rw [member i plays, ← member holder active]
  exact holds

theorem Turn.giveUp (turn : Turn r t base) :
    Leads r t.handCardCount t.currentJetton (t.onUserGiveUp r t.currentChairID) := by
  have left := turn.without
  have stays : ∀ i, (t.without t.currentChairID).playStatus i → t.playStatus i :=
    fun i plays => ((t.without_playStatus _ i).mp plays).2
  have someone : ∃ i, (t.without t.currentChairID).playStatus i := by
    obtain ⟨i, j, apart, first, second⟩ := turn.two
    rcases eq_or_ne i t.currentChairID with rfl | other
    · exact ⟨j, (t.without_playStatus _ j).mpr ⟨apart.symm, second⟩⟩
    · exact ⟨i, (t.without_playStatus _ i).mpr ⟨other, first⟩⟩
  have counts : ¬ (!t.playStatus t.currentChairID || !t.playing) := by
    rw [turn.active, turn.playing]
    decide
  rw [Table.onUserGiveUp, if_neg counts]
  rcases eq_or_ne (Finset.univ.filter fun i => (t.without t.currentChairID).playStatus i).card 1 with one | many
  · rw [if_pos (Or.inl one)]
    exact left.showdown (level_of_card left.held one) someone
  · have acted : Acted r (t.without t.currentChairID) base :=
      { left with
        playing := turn.playing
        own := fun plays => absurd rfl ((t.without_playStatus _ _).mp plays).1
        rises := fun i j _ order last first second => turn.rises i j order last (stays _ first) (stays _ second)
        two := atLeastTwo_of_card someone many }
    have limited : Acted r ((t.without t.currentChairID).newAllInScore r) base :=
      { left.newAllInScore someone with
        playing := acted.playing
        own := acted.own
        rises := acted.rises
        two := acted.two }
    dsimp only
    split_ifs with finished
    · obtain ⟨done, -⟩ := finished.resolve_left many
      exact left.showdown (acted.level done) someone
    · have raise : Raises r (t.without t.currentChairID) t.minAddScore :=
        turn.raise.imp_right fun large => ⟨large.1, fun i plays => large.2 i (stays i plays)⟩
      rcases found : (t.without t.currentChairID).getNextPlayer with _ | chair
      · have more : t.handCardCount < 5 :=
          lt_of_le_of_ne turn.cards fun last => finished (Or.inr ⟨found, last⟩)
        exact limited.deal (limited.level found) limited.playing limited.two more _
      · exact leads_still ⟨base, Or.inl (limited.turn found raise)⟩ le_rfl

theorem Acted.leads_next (acted : Acted r t base) {chair : Chair} (found : t.getNextPlayer = some chair)
    {amount jetton : ℤ} (raise : Raises r t amount) (more : jetton ≤ t.currentJetton) :
    Leads r t.handCardCount jetton (some ({ t with currentChairID := chair, minAddScore := amount }, [])) :=
  leads_still ⟨base, Or.inl (acted.turn found raise)⟩ more

/-- A raise that is large enough stays so while the present stake stands. -/
theorem Turn.raises (turn : Turn r t base) {s : Table} {score : ℤ} (plays : s.playStatus = t.playStatus)
    (jetton : s.currentJetton = t.currentJetton)
    (bet : s.currentRoundScore = Function.update t.currentRoundScore t.currentChairID score)
    (more : t.currentRoundScore t.currentChairID ≤ score) : Raises r s t.minAddScore := by
  apply turn.raise.imp_right
  rintro ⟨some_, large⟩
  refine ⟨some_, fun i active => ?_⟩
  rw [plays] at active
  have before := large i active
  rw [jetton, bet]
  rcases eq_or_ne i t.currentChairID with rfl | other
  · rw [Function.update_self]
    omega
  · rw [Function.update_of_ne other]
    exact before

theorem Turn.pass (turn : Turn r t base) :
    Leads r t.handCardCount t.currentJetton (t.onUserPassScore r t.currentChairID) := by
  rw [Table.onUserPassScore]
  split_ifs with raised
  · exact leads_still ⟨base, Or.inl turn⟩ le_rfl
  · have zero : t.currentJetton = 0 := not_not.mp raised
    have owing := turn.owing
    have acted : Acted r (t.passed t.currentChairID) base := by
      apply turn.acted (s := t.passed t.currentChairID) 0 rfl rfl rfl rfl rfl
      · show Function.update t.currentRoundScore _ 0 = Function.update t.currentRoundScore _ t.currentJetton
        rw [zero]
      · rw [add_zero, Function.update_eq_self]
        rfl
      · exact (add_zero _).symm
      · show t.currentJetton = _
        omega
      · exact le_rfl
      · exact turn.within
    have raise : Raises r (t.passed t.currentChairID) t.minAddScore :=
      turn.raises (s := t.passed t.currentChairID) rfl rfl rfl (by omega)
    rcases found : (t.passed t.currentChairID).getNextPlayer with _ | chair
    · exact acted.betsDone found
    · exact acted.leads_next found raise le_rfl

theorem Turn.follow (turn : Turn r t base) :
    Leads r t.handCardCount t.currentJetton (t.onUserFollowScore r t.currentChairID) := by
  have owing := turn.owing
  have opened := turn.opened turn.active
  have limit := turn.within
  have most := turn.getCanAddMaxScore_le turn.active
  have staked := turn.staked _ turn.active
  rw [Table.onUserFollowScore, if_neg (not_not.mpr owing)]
  rw [Table.getCanAddMaxScore] at most
  dsimp only
  split_ifs with little short
  · exact leads_still ⟨base, Or.inl turn⟩ le_rfl
  · -- the limit covers what is missing, and the balance covers the limit
    omega
  · have acted : Acted r (t.stake t.currentChairID (t.currentJetton - t.opened t.currentChairID)) base := by
      apply turn.acted (s := t.stake t.currentChairID (t.currentJetton - t.opened t.currentChairID))
        (t.currentJetton - t.opened t.currentChairID) rfl rfl rfl rfl rfl
      · show Function.update t.currentRoundScore _ _ = Function.update t.currentRoundScore _ t.currentJetton
        rw [add_sub_cancel]
      · rfl
      · rfl
      · show t.currentJetton = _
        omega
      · exact le_rfl
      · exact limit
    have raise : Raises r (t.stake t.currentChairID (t.currentJetton - t.opened t.currentChairID)) t.minAddScore :=
      turn.raises (s := t.stake t.currentChairID _) rfl rfl rfl (by omega)
    rcases found : (t.stake t.currentChairID (t.currentJetton - t.opened t.currentChairID)).getNextPlayer with _ | chair
    · exact acted.betsDone found
    · exact acted.leads_next found raise le_rfl

/-- A stake up to the limit that meets the present one. -/
theorem Turn.raised (turn : Turn r t base) (score : ℤ)
    (enough : t.currentJetton ≤ max (t.currentRoundScore t.currentChairID) 0 + score)
    (within : score ≤ t.getCanAddMaxScore t.currentChairID) :
    Acted r (t.raise t.currentChairID score) base ∧
      (t.raise t.currentChairID score).currentJetton = max (t.currentRoundScore t.currentChairID) 0 + score := by
  have top : (t.raise t.currentChairID score).currentJetton = max (t.currentRoundScore t.currentChairID) 0 + score := by
    rw [← turn.opened turn.active]
    exact Function.update_self _ _ _
  have staked := turn.staked _ turn.active
  rw [Table.getCanAddMaxScore] at within
  refine ⟨?_, top⟩
  apply turn.acted (s := t.raise t.currentChairID score) score rfl rfl rfl rfl rfl
  · show Function.update t.currentRoundScore _ (t.opened _ + score) = _
    rw [top, turn.opened turn.active]
  · rfl
  · rfl
  · exact top
  · omega
  · omega

theorem Turn.add (turn : Turn r t base) (score : ℤ) :
    Leads r t.handCardCount t.currentJetton (t.onUserAddScore r t.currentChairID score) := by
  have still : Leads r t.handCardCount t.currentJetton (some (t, [])) := leads_still ⟨base, Or.inl turn⟩ le_rfl
  rw [Table.onUserAddScore]
  split_ifs with other closed chips small negative poor more
  · exact still
  · exact still
  · exact still
  · exact still
  · exact still
  · exact still
  · exact still
  · obtain ⟨positive, enough⟩ := turn.raise.resolve_left closed
    have large := enough _ turn.active
    obtain ⟨acted, top⟩ := turn.raised score (by omega) (not_lt.mp more)
    have higher : t.currentJetton < (t.raise t.currentChairID score).currentJetton := by omega
    dsimp only
    rcases found : (t.raise t.currentChairID score).getNextPlayer with _ | next
    · -- somebody else is still in the round, and he has not staked as much
      obtain ⟨i, apart, plays⟩ := turn.two.other t.currentChairID
      have met := acted.level found (turn.nonneg.trans_lt higher) i plays
      have before := (turn.rounds i plays).2
      have same : (t.raise t.currentChairID score).currentRoundScore i = t.currentRoundScore i :=
        Function.update_of_ne apart _ _
      omega
    · have owing := (nextSeat_eq_some found).1
      rw [Table.owes, Bool.and_eq_true, decide_eq_true_eq] at owing
      have mine := acted.own turn.active
      have away : next ≠ t.currentChairID := by
        rintro rfl
        exact owing.2.ne mine
      dsimp only
      rw [if_neg away]
      apply acted.leads_next found (Or.inr ⟨positive, _⟩) higher.le
      intro i plays
      obtain ⟨k, small, rfl⟩ := exists_seatAfter next i
      have rises := acted.risesFrom found 0 k (Nat.zero_le k) small (by rw [seatAfter_zero]; exact owing.1) plays
      rw [seatAfter_zero] at rises
      have mine : (t.raise t.currentChairID score).currentRoundScore t.currentChairID = _ := mine
      omega

theorem Leads.mono {cards : ℕ} {jetton more : ℤ} {outcome : Outcome} (leads : Leads r cards more outcome)
    (le : jetton ≤ more) : Leads r cards jetton outcome := by
  obtain ⟨last, reached, run, good, equal, kept, longer⟩ := leads
  exact ⟨last, reached, run, good, equal, fun same => le.trans (kept same), longer⟩

theorem Turn.allIn (turn : Turn r t base) :
    Leads r t.handCardCount t.currentJetton (t.onUserAllIn r t.currentChairID) := by
  have still : Leads r t.handCardCount t.currentJetton (some (t, [])) := leads_still ⟨base, Or.inl turn⟩ le_rfl
  have limit := turn.within
  have staked := turn.staked _ turn.active
  have owing := turn.owing
  rw [Table.onUserAllIn, turn.active]
  dsimp only
  split_ifs with gone early nothing poor
  · exact still
  · exact still
  · exact still
  · exact still
  · obtain ⟨acted, top⟩ := turn.raised (t.getCanAddMaxScore t.currentChairID)
      (by rw [Table.getCanAddMaxScore]; omega) le_rfl
    have more : t.currentJetton ≤ (t.raise t.currentChairID (t.getCanAddMaxScore t.currentChairID)).currentJetton := by
      rw [top, Table.getCanAddMaxScore]
      omega
    rcases found : (t.raise t.currentChairID (t.getCanAddMaxScore t.currentChairID)).getNextPlayer with _ | chair
    · exact (acted.betsDone found).mono more
    · exact acted.leads_next found (Or.inl rfl) more

/-! ## The rounds -/

/-- What the betting keeps true of the table. -/
structure Sound (r : Round) (t : Table) : Prop where
  total : t.allScoreInTable = ∑ i, t.tableScore i
  limits : ∀ i, t.playStatus i → t.tableScore i ≤ t.allInScore ∧ t.allInScore ≤ r.userSourceScore i
  held : 0 < t.currentJetton → ∃ i, t.playStatus i ∧ t.currentRoundScore i = t.currentJetton
  turn : t.playing → t.playStatus t.currentChairID ∧ t.currentRoundScore t.currentChairID < t.currentJetton

/-- An action fails no assertion, lowers no stake within a betting round, and comes to a new card or
the showdown only with equal stakes. -/
def Proceeds (r : Round) (t : Table) (action : Action) : Prop :=
  ∃ last reached, t.step r action = some (last, reached) ∧ (∀ s ∈ reached, EqualStakes s) ∧
    (last.handCardCount = t.handCardCount → t.currentJetton ≤ last.currentJetton)

/-- The betting goes right from a start with the given players, whatever they do. -/
def BettingKept (r : Round) (playStatus : Chair → Bool) : Prop :=
  ∃ start, Table.onGameStart r playStatus = some start ∧
    ∀ actions t, Run (Table.next r) (fun _ _ => True) start actions t → Sound r t ∧ ∀ action, Proceeds r t action

theorem Good.sound (good : Good r t) : Sound r t := by
  have parts : ∃ base, Stakes r t base ∧
      (t.playing → t.playStatus t.currentChairID ∧ t.currentRoundScore t.currentChairID < t.currentJetton) := by
    obtain ⟨base, turn | ⟨stakes, finished⟩⟩ := good
    · exact ⟨base, turn.toStakes, fun _ => ⟨turn.active, turn.owing⟩⟩
    · refine ⟨base, stakes, fun playing => ?_⟩
      rw [finished] at playing
      contradiction
  obtain ⟨base, stakes, turn⟩ := parts
  exact ⟨stakes.total, fun i plays => ⟨stakes.tableScore_le plays, stakes.covered i plays⟩, stakes.held, turn⟩

/-- A message is taken from the player who has the turn, and changes nothing otherwise. -/
private theorem leads_of_accepts (good : Good r t) {chair : Chair} {outcome : Outcome}
    (taken : ∀ base, Turn r t base → chair = t.currentChairID → Leads r t.handCardCount t.currentJetton outcome) :
    Leads r t.handCardCount t.currentJetton (if t.accepts chair then outcome else some (t, [])) := by
  split_ifs with accepts
  · simp only [Table.accepts, Bool.and_eq_true, decide_eq_true_eq] at accepts
    obtain ⟨base, turn | ⟨-, finished⟩⟩ := good
    · exact taken base turn accepts.2
    · rw [finished] at accepts
      exact absurd accepts.1.1 Bool.false_ne_true
  · exact leads_still good le_rfl

theorem Good.step (good : Good r t) (action : Action) :
    Leads r t.handCardCount t.currentJetton (t.step r action) := by
  cases action with
  | giveUp chair =>
    apply leads_of_accepts good
    rintro base turn rfl
    exact turn.giveUp
  | passScore chair =>
    apply leads_of_accepts good
    rintro base turn rfl
    exact turn.pass
  | followScore chair =>
    apply leads_of_accepts good
    rintro base turn rfl
    exact turn.follow
  | addScore chair score =>
    apply leads_of_accepts good
    rintro base turn rfl
    exact turn.add score
  | allIn chair =>
    apply leads_of_accepts good
    rintro base turn rfl
    exact turn.allIn
  | timerAddScore =>
    obtain ⟨base, turn | ⟨stakes, finished⟩⟩ := good
    · exact turn.giveUp
    · rw [Table.step, Table.onUserGiveUp, finished, Bool.not_false, Bool.or_true, if_pos rfl]
      exact leads_still ⟨base, Or.inr ⟨stakes, finished⟩⟩ le_rfl

theorem Good.proceeds (good : Good r t) (action : Action) : Proceeds r t action := by
  obtain ⟨last, reached, run, -, equal, more, -⟩ := good.step action
  exact ⟨last, reached, run, equal, more⟩

theorem Good.next (good : Good r t) {action : Action} {last : Table} (taken : t.next r action = some last) :
    Good r last := by
  obtain ⟨_, reached, run, kept, -⟩ := good.step action
  rw [Table.next, run] at taken
  obtain rfl := Option.some.inj taken
  exact kept

/-- The balances of the players pay the cell score, and none of them is empty. -/
structure Opening (r : Round) (playStatus : Chair → Bool) : Prop where
  two : ∃ i j, i ≠ j ∧ playStatus i ∧ playStatus j
  cell : 0 ≤ r.cellScore
  enough : ∀ i, playStatus i → r.cellScore ≤ r.userSourceScore i
  positive : ∀ i, playStatus i → 0 < r.userSourceScore i

theorem Opening.fresh {playStatus : Chair → Bool} (opening : Opening r playStatus) (chair : Chair) :
    Fresh r (Table.seated r playStatus chair) r.cellScore where
  total := rfl
  staked i plays := by
    show (if playStatus i then r.cellScore else 0) = r.cellScore + 0
    exact (if_pos plays).trans (add_zero _).symm
  rounds _ _ := ⟨le_rfl, show (-1 : ℤ) ≤ 0 by decide⟩
  nonneg := le_rfl
  held impossible := absurd impossible (lt_irrefl 0)
  within := by
    show r.cellScore + 0 ≤ allInScoreOf r.userSourceScore playStatus
    obtain ⟨i, _, _, plays, _⟩ := opening.two
    rw [add_zero]
    exact le_allInScoreOf opening.positive ⟨i, plays⟩ opening.enough
  covered _ plays := allInScoreOf_le opening.positive plays
  positive := opening.positive
  cell := opening.cell
  cards := show 2 ≤ 5 by decide
  playing := rfl
  unopened _ := rfl
  zero := rfl
  raise := rfl
  two := opening.two

theorem Opening.start {playStatus : Chair → Bool} (opening : Opening r playStatus) :
    ∃ start, Table.onGameStart r playStatus = some start ∧ Good r start := by
  obtain ⟨i, _, _, someone, _⟩ := opening.two
  obtain ⟨chair, best, plays⟩ := bestOf_spec (r.shown 2) ⟨i, someone⟩
  refine ⟨Table.seated r playStatus chair, ?_, r.cellScore, Or.inl ((opening.fresh chair).turn plays)⟩
  rw [Table.onGameStart, best]
  rfl

/-- The betting goes right in every round. -/
theorem bettingKept {playStatus : Chair → Bool} (opening : Opening r playStatus) : BettingKept r playStatus := by
  obtain ⟨start, begun, good⟩ := opening.start
  refine ⟨start, begun, fun actions t run => ?_⟩
  have kept : Good r t := by
    apply run.invariant _ good
    intro s action s' good _ taken
    exact good.next taken
  exact ⟨kept.sound, kept.proceeds⟩

/-- A round of the first two chairs for a cell score of one. -/
theorem bettingKept_two :
    BettingKept ⟨1, fun _ => 100, 1, false, fun _ _ _ => false, fun _ _ _ => false⟩ (fun i => i < 2) :=
  bettingKept ⟨⟨0, 1, by decide, by decide, by decide⟩, by decide, by decide, by decide⟩

/-- Without a cell score an empty balance does not bound the limit, which takes it for unset. -/
theorem empty_balance :
    ¬ ∀ (r : Round) (playStatus : Chair → Bool), (∃ i j, i ≠ j ∧ playStatus i ∧ playStatus j) →
      (∀ i, playStatus i → r.cellScore ≤ r.userSourceScore i) → BettingKept r playStatus := by
  intro claim
  have kept := claim ⟨0, fun i => if i = 0 then 0 else 100, 1, false, fun _ _ _ => false, fun _ _ _ => false⟩
    (fun i => i < 2) ⟨0, 1, by decide, by decide, by decide⟩ (by decide)
  obtain ⟨start, begun, all⟩ := kept
  have sound := (all [] start (.nil start)).1
  obtain rfl := Option.some.inj begun
  exact absurd (sound.limits 0 (by decide)).2 (by decide)

end H5Server.Gswz
