import H5Server.Zjh.Turns
import Mathlib.Algebra.Order.Field.Rat
import Mathlib.Tactic.Linarith

/-! # The actions of a player

Every action that a handler accepts brings the round nearer to its end.
-/

namespace H5Server.Zjh

open Lib

variable {r : Round} {t t' : Table} {draw : Draw} {c i j start : Chair} {bound : ℕ} {s z : ℤ}

/-! ## Bets -/

theorem addBet_tableScore_self : (t.addBet c s).tableScore c = t.tableScore c + s := Function.update_self _ _ _

theorem addBet_tableScore_of_ne (other : i ≠ c) : (t.addBet c s).tableScore i = t.tableScore i :=
  Function.update_of_ne other _ _

/-- A player who is in bets what he has. -/
theorem Ledger.addBet (ledger : Ledger r t) (here : t.isIn c = true) (nonneg : 0 ≤ s)
    (covered : t.tableScore c + s ≤ r.userScore c) : Ledger r (t.addBet c s) := by
  apply ledger.change c
  · intro i other
    exact ⟨rfl, rfl, addBet_tableScore_of_ne other, Function.update_of_ne other _ _, rfl⟩
  · have seat := ledger.1 c
    rw [(isIn_iff.mp here).2] at seat
    have bets : (t.addBet c s).betinfo c = t.betinfo c ++ [s] := Function.update_self _ _ _
    have stays : (t.addBet c s).out c = false := (isIn_iff.mp here).2
    rw [addBet_tableScore_self, bets, stays]
    exact seat.bet (ledger.plays here) nonneg covered
  · rw [addBet_tableScore_self]
    show t.tableAllScore + s - (t.tableScore c + s) = t.tableAllScore - t.tableScore c
    ring

theorem keeps_addBet (here : t.isIn c = true) : Keeps t (t.addBet c s) := by
  intro i outs
  refine ⟨outs, addBet_tableScore_of_ne ?_⟩
  rintro rfl
  rw [(isIn_iff.mp here).2] at outs
  cases outs

theorem Running.addBet (running : Running r t) (here : t.isIn c = true) (nonneg : 0 ≤ s)
    (covered : t.tableScore c + s ≤ r.userScore c) : Running r (t.addBet c s) :=
  { running with ledger := running.ledger.addBet here nonneg covered }

/-! ## A player drops out in his own or another's turn -/

/-- The same player has the turn. -/
structure SameTurn (t t' : Table) : Prop where
  settlement : t'.settlement = t.settlement
  firstUser : t'.firstUser = t.firstUser
  currentTurn : t'.currentTurn = t.currentTurn
  followScore : t'.followScore = t.followScore
  currentUser : t'.currentUser = t.currentUser

theorem sameTurn_writeLost (r : Round) (t : Table) (c : Chair) : SameTurn t (writeLost r t c) := by
  obtain ⟨written, same⟩ := writeLost_eq r t c
  rw [same]
  exact ⟨rfl, rfl, rfl, rfl, rfl⟩

theorem SameTurn.trans {t'' : Table} (first : SameTurn t t') (second : SameTurn t' t'') : SameTurn t t'' where
  settlement := second.settlement.trans first.settlement
  firstUser := second.firstUser.trans first.firstUser
  currentTurn := second.currentTurn.trans first.currentTurn
  followScore := second.followScore.trans first.followScore
  currentUser := second.currentUser.trans first.currentUser

theorem Running.of_sameTurn (running : Running r t) (same : SameTurn t t') (ledger : Ledger r t')
    (banker : t'.isIn t'.bankerUser = true) : Running r t' where
  ledger := ledger
  open_ := same.settlement.trans running.open_
  banker := banker
  first := same.firstUser ▸ running.first
  turn := same.currentTurn ▸ running.turn
  follow := same.followScore ▸ running.follow

theorem progress_le (same : SameTurn t t') (fewer : t'.leftPlayerCount ≤ t.leftPlayerCount) :
    progress t' c ≤ progress t c := by
  rw [progress, progress, same.currentTurn, same.firstUser]
  omega

/-- When `lost` has been marked as out there is a player to be the banker. -/
theorem exists_moveBanker_of_marked {lost : Chair} {m : Table} (running : Running r t) (two : 2 ≤ t.leftPlayerCount)
    (exist : m.existUser = t.existUser) (out : ∀ i, m.out i = if i = lost then true else t.out i)
    (banker : m.bankerUser = t.bankerUser) :
    ∃ b, m.moveBanker lost = some { m with bankerUser := b } ∧ m.isIn b = true := by
  have stays : ∀ i, i ≠ lost → t.isIn i = true → m.isIn i = true := by
    intro i other here
    rwa [Table.isIn, exist, out, if_neg other]
  apply exists_moveBanker
  · rcases eq_or_ne t.bankerUser lost with same | other
    · exact Or.inr (banker.trans same)
    · exact Or.inl (banker ▸ stays _ other running.banker)
  · obtain ⟨i, other, here⟩ := exists_other two lost
    exact ⟨i, stays i other here⟩

/-- A real player who is out pays. -/
theorem running_writeLost {lost : Chair} (running : Running r t) (here : t.isIn lost = true)
    (dropped : Dropped r t lost 0 (writeLost r t' lost)) (same : SameTurn t t') (banker : t'.isIn t'.bankerUser = true) :
    Running r (writeLost r t' lost) := by
  apply running.of_sameTurn (same.trans (sameTurn_writeLost r t' lost))
  · exact dropped.ledger running.ledger here le_rfl (List.sum_nonneg (running.ledger.1 lost).bets)
  · obtain ⟨written, equal⟩ := writeLost_eq r t' lost
    rw [equal]
    exact banker

/-- After a player is out and a banker is found the turn goes on. -/
theorem ends_writeLost {lost : Chair} (cell : 0 < r.cellScore) (running : Running r t)
    (current : t.currentUser = some c) (here : t.isIn lost = true)
    (dropped : Dropped r t lost 0 (writeLost r t' lost)) (same : SameTurn t t') (banker : t'.isIn t'.bankerUser = true) :
    Ends r t (progress t c) (goOn r (writeLost r t' lost) draw) := by
  have same' := same.trans (sameTurn_writeLost r t' lost)
  have ends := ends_goOn draw cell (running_writeLost running here dropped same banker)
    (same'.currentUser.trans current)
  apply ends.of_keeps (dropped.keeps here) (progress_le same' _)
  have fewer := dropped.leftPlayerCount here
  omega

/-! ## All in -/

/-- What comes back of a bet is at most the bet. -/
theorem refund_bounds {currentLeftScore currentCompareScore lastBetScore : ℤ} (positive : 0 < currentCompareScore)
    (nonneg : 0 ≤ currentLeftScore) (covers : currentLeftScore ≤ currentCompareScore) (bet : 0 < lastBetScore) :
    0 ≤ refund currentLeftScore currentCompareScore lastBetScore
      ∧ refund currentLeftScore currentCompareScore lastBetScore ≤ lastBetScore := by
  set z : ℚ := lastBetScore * (1 - currentLeftScore / currentCompareScore) + 1 / 2 with value
  have share : (0 : ℚ) ≤ currentLeftScore / currentCompareScore ∧ (currentLeftScore / currentCompareScore : ℚ) ≤ 1 := by
    have divisor : (0 : ℚ) < currentCompareScore := by exact_mod_cast positive
    constructor
    · exact div_nonneg (by exact_mod_cast nonneg) divisor.le
    · rw [div_le_one divisor]
      exact_mod_cast covers
  have amount : (0 : ℚ) < lastBetScore := by exact_mod_cast bet
  have least : 0 ≤ (lastBetScore : ℚ) * (1 - currentLeftScore / currentCompareScore) :=
    mul_nonneg amount.le (by linarith)
  have most : (lastBetScore : ℚ) * (1 - currentLeftScore / currentCompareScore) ≤ lastBetScore :=
    mul_le_of_le_one_right amount.le (by linarith)
  have nonneg' : 0 ≤ z := by linarith
  have floor : refund currentLeftScore currentCompareScore lastBetScore = ⌊z⌋ := by
    rw [Rat.floor_def']
    exact Int.tdiv_eq_ediv_of_nonneg (Rat.num_nonneg.mpr nonneg')
  rw [floor]
  refine ⟨Int.floor_nonneg.mpr nonneg', ?_⟩
  rw [Int.floor_le_iff]
  linarith

/-- An opponent gets back `z` of his stake. -/
def Table.payBack (t : Table) (i : Chair) (z : ℤ) : Table :=
  { t with
    tableScore := Function.update t.tableScore i (t.tableScore i - z)
    tableAllScore := t.tableAllScore - z }

theorem loseToAllIn_eq {currentLeftScore currentCompareScore : ℤ} (here : t.isIn i = true) (other : i ≠ c) :
    loseToAllIn r c currentLeftScore currentCompareScore t i = writeLost r ((t.setComparedLost i).payBack i
      (if 0 < t.getLastBetScore i then refund currentLeftScore currentCompareScore (t.getLastBetScore i) else 0)) i := by
  obtain ⟨exist, stays⟩ := isIn_iff.mp here
  rw [loseToAllIn, exist, stays, Bool.not_true, if_neg Bool.false_ne_true, if_neg other, if_neg Bool.false_ne_true]
  rfl

theorem dropped_payBack (t : Table) (i : Chair) (z : ℤ) :
    Dropped r t i z (writeLost r ((t.setComparedLost i).payBack i z) i) := by
  apply dropped_writeLost
  · rfl
  · exact setComparedLost_out (t := t) i
  · exact Function.update_self _ _ _
  · exact fun j other => Function.update_of_ne other _ _
  · rfl
  · rfl
  · rfl

/-- What the comparisons of an all-in keep when `c` has won them. -/
structure AllInWon (r : Round) (t t' : Table) (c : Chair) : Prop where
  ledger : Ledger r t'
  keeps : Keeps t t'
  same : SameTurn t t'
  banker : t'.bankerUser = t.bankerUser
  here : t'.isIn c = true
  fewer : t'.leftPlayerCount ≤ t.leftPlayerCount
  mono : ∀ i, t'.isIn i = true → t.isIn i = true
  lost : ∀ i, t.isComparedLost i = true → t'.isComparedLost i = true
  stays : ∀ i, t.isIn i = true → t'.isIn i = true ∨ t'.isComparedLost i = true

theorem AllInWon.refl (ledger : Ledger r t) (here : t.isIn c = true) : AllInWon r t t c :=
  ⟨ledger, Keeps.refl t, ⟨rfl, rfl, rfl, rfl, rfl⟩, rfl, here, le_rfl, fun _ => id, fun _ => id, fun _ => Or.inl⟩

theorem AllInWon.trans {t'' : Table} (first : AllInWon r t t' c) (second : AllInWon r t' t'' c) : AllInWon r t t'' c where
  ledger := second.ledger
  keeps := first.keeps.trans second.keeps
  same := first.same.trans second.same
  banker := second.banker.trans first.banker
  here := second.here
  fewer := second.fewer.trans first.fewer
  mono i here := first.mono i (second.mono i here)
  lost i gone := second.lost i (first.lost i gone)
  stays i here := by
    rcases first.stays i here with here' | gone
    · exact second.stays i here'
    · exact Or.inr (second.lost i gone)

/-- One opponent of an all-in. -/
theorem loseToAllIn_spec {currentLeftScore currentCompareScore : ℤ} (positive : 0 < currentCompareScore)
    (nonneg : 0 ≤ currentLeftScore) (covers : currentLeftScore ≤ currentCompareScore) (ledger : Ledger r t)
    (here : t.isIn c = true) (i : Chair) :
    AllInWon r t (loseToAllIn r c currentLeftScore currentCompareScore t i) c
      ∧ (i ≠ c → (loseToAllIn r c currentLeftScore currentCompareScore t i).isIn i = false) := by
  cases there : t.isIn i
  · have unchanged : loseToAllIn r c currentLeftScore currentCompareScore t i = t := by
      rw [Table.isIn, Bool.and_eq_false_iff, Bool.not_eq_false'] at there
      rw [loseToAllIn]
      rcases there with away | outs
      · rw [away]
        rfl
      · rw [outs]
        split
        · rfl
        · split
          · rfl
          · rfl
    rw [unchanged]
    exact ⟨AllInWon.refl ledger here, fun _ => there⟩
  rcases eq_or_ne i c with rfl | other
  · have unchanged : loseToAllIn r i currentLeftScore currentCompareScore t i = t := by
      rw [loseToAllIn, (isIn_iff.mp here).1, Bool.not_true, if_neg Bool.false_ne_true, if_pos rfl]
    rw [unchanged]
    exact ⟨AllInWon.refl ledger here, fun apart => absurd rfl apart⟩
  rw [loseToAllIn_eq there other]
  set z := if 0 < t.getLastBetScore i then refund currentLeftScore currentCompareScore (t.getLastBetScore i) else 0
    with back
  have dropped : Dropped r t i z (writeLost r ((t.setComparedLost i).payBack i z) i) := dropped_payBack t i z
  have bets := (ledger.1 i).bets
  obtain ⟨least, most⟩ : 0 ≤ z ∧ z ≤ (t.betinfo i).sum := by
    rw [back]
    split
    · rename_i bet
      obtain ⟨least, most⟩ := refund_bounds positive nonneg covers bet
      refine ⟨least, most.trans ?_⟩
      rw [Table.getLastBetScore] at bet ⊢
      rcases lt_or_ge t.currentTurn (t.betinfo i).length with inside | outside
      · rw [List.getD_eq_getElem _ _ inside]
        exact List.single_le_sum bets _ (List.getElem_mem inside)
      · rw [List.getD_eq_default _ _ outside] at bet
        exact absurd bet (lt_irrefl 0)
    · exact ⟨le_rfl, List.sum_nonneg bets⟩
  obtain ⟨written, same⟩ := writeLost_eq r ((t.setComparedLost i).payBack i z) i
  refine ⟨?_, fun _ => dropped.isIn_self⟩
  constructor
  · exact dropped.ledger ledger there least most
  · exact dropped.keeps there
  · rw [same]
    exact ⟨rfl, rfl, rfl, rfl, rfl⟩
  · rw [same]
    rfl
  · rw [dropped.isIn_of_ne other.symm]
    exact here
  · have fewer := dropped.leftPlayerCount there
    omega
  · exact fun j => dropped.isIn_mono
  · intro j lost
    rw [same]
    show Function.update t.isComparedLost i true j = true
    rcases eq_or_ne j i with rfl | apart
    · exact Function.update_self _ _ _
    · rwa [Function.update_of_ne apart]
  · intro j here'
    rcases eq_or_ne j i with rfl | apart
    · rw [same]
      exact Or.inr (Function.update_self _ _ _)
    · rw [dropped.isIn_of_ne apart]
      exact Or.inl here'

theorem foldl_loseToAllIn_spec {currentLeftScore currentCompareScore : ℤ} (positive : 0 < currentCompareScore)
    (nonneg : 0 ≤ currentLeftScore) (covers : currentLeftScore ≤ currentCompareScore) (seats : List Chair)
    (ledger : Ledger r t) (here : t.isIn c = true) :
    AllInWon r t (seats.foldl (loseToAllIn r c currentLeftScore currentCompareScore) t) c
      ∧ ∀ i ∈ seats, i ≠ c → (seats.foldl (loseToAllIn r c currentLeftScore currentCompareScore) t).isIn i = false := by
  induction seats generalizing t with
  | nil => exact ⟨AllInWon.refl ledger here, fun i absent => by cases absent⟩
  | cons a rest ih =>
    obtain ⟨won, gone⟩ := loseToAllIn_spec positive nonneg covers ledger here a
    obtain ⟨won', gone'⟩ := ih won.ledger won.here
    refine ⟨won.trans won', fun i present other => ?_⟩
    rcases List.mem_cons.mp present with rfl | later
    · apply Bool.eq_false_iff.mpr
      intro here'
      exact Bool.false_ne_true ((gone other).symm.trans (won'.mono i here'))
    · exact gone' i later other

theorem HandsOnly.trans {t'' : Table} (first : HandsOnly t t') (second : HandsOnly t' t'') : HandsOnly t t'' := by
  obtain ⟨_, _, _, rfl⟩ := first
  obtain ⟨_, _, _, rfl⟩ := second
  exact ⟨_, _, _, rfl⟩

/-- The comparisons of an all-in replace hands until one is lost. -/
theorem compareAllIn_eq (r : Round) (draw : Draw) (c : Chair) (seats : List Chair) (t : Table) :
    ∃ t', HandsOnly t t'
      ∧ (compareAllIn r draw c seats t = t' ∨ compareAllIn r draw c seats t = t'.setComparedLost c) := by
  induction seats generalizing t with
  | nil => exact ⟨t, HandsOnly.refl t, Or.inl rfl⟩
  | cons next rest ih =>
    rw [compareAllIn]
    split
    · exact ih t
    split
    · exact ih t
    split
    · exact ih t
    have hands := handsOnly_analyse r t draw c next
    dsimp only
    split
    · exact ⟨_, hands, Or.inr rfl⟩
    · obtain ⟨t', hands', outcome⟩ := ih (analyse r t draw c next)
      exact ⟨t', hands.trans hands', outcome⟩

/-- Who wins all comparisons of an all-in is the banker. -/
theorem ends_allInWon (draw : Draw) {currentLeftScore currentCompareScore : ℤ} (cell : 0 < r.cellScore) (running : Running r t)
    (current : t.currentUser = some c) (here : t.isIn c = true) (positive : 0 < currentCompareScore)
    (nonneg : 0 ≤ currentLeftScore) (covers : currentLeftScore ≤ currentCompareScore) :
    Ends r t (progress t c) (
      let lost := (List.finRange 5).foldl (loseToAllIn r c currentLeftScore currentCompareScore) t
      if lost.bankerUser ≠ c ∧ !lost.isComparedLost lost.bankerUser then none
      else goOn r { lost with bankerUser := c } draw) := by
  obtain ⟨won, gone⟩ := foldl_loseToAllIn_spec positive nonneg covers (List.finRange 5) running.ledger here
  dsimp only
  set lost := (List.finRange 5).foldl (loseToAllIn r c currentLeftScore currentCompareScore) t
  have beaten : ¬(lost.bankerUser ≠ c ∧ (!lost.isComparedLost lost.bankerUser) = true) := by
    rintro ⟨other, stays⟩
    rcases won.stays lost.bankerUser (won.banker ▸ running.banker) with here' | beaten
    · rw [gone _ (List.mem_finRange _) other] at here'
      cases here'
    · rw [beaten] at stays
      cases stays
  rw [if_neg beaten]
  have same : SameTurn t { lost with bankerUser := c } := { won.same with }
  have ends := ends_goOn draw cell (running.of_sameTurn same won.ledger won.here)
    (same.currentUser.trans current)
  exact ends.of_keeps won.keeps (progress_le same won.fewer)

/-- Who loses a comparison of his all-in is out. -/
theorem ends_allInLost (draw : Draw) (cell : 0 < r.cellScore) (running : Running r t) (current : t.currentUser = some c)
    (here : t.isIn c = true) (two : 2 ≤ t.leftPlayerCount) :
    Ends r t (progress t c) (((t.setComparedLost c).moveBanker c).bind fun t => goOn r (writeLost r t c) draw) := by
  obtain ⟨b, moved, banker⟩ := exists_moveBanker_of_marked (m := t.setComparedLost c) running two rfl
    (setComparedLost_out c) rfl
  rw [moved, Option.bind_some]
  apply ends_writeLost cell running current here
  · exact dropped_of_marked rfl (setComparedLost_out (t := t) c) rfl rfl rfl rfl
  · exact ⟨rfl, rfl, rfl, rfl, rfl⟩
  · exact banker

theorem hasTurn_of_playing (playing : Playing r t c) : hasTurn t c = true := by
  rw [hasTurn, playing.here, playing.current, decide_eq_true rfl, Bool.and_self]

/-- An all-in that is not more than a comparison costs is accepted. -/
theorem ends_onUserAllIn (cell : 0 < r.cellScore) (playing : Playing r t c) (there : t.isIn start = true)
    (apart : c ≠ start) (covers : scoreByChairId r t c ≤ t.currentCompareScore c + t.tableScore c) :
    Ends r t (progress t c) (onUserAllIn r t draw c start) := by
  have score := playing.ledger.score playing.here
  have seat := (playing.ledger.1 c).bounds (playing.ledger.plays playing.here)
  have nonneg : 0 ≤ scoreByChairId r t c - t.tableScore c := by omega
  have positive : 0 < t.currentCompareScore c := by
    have := playing.follow
    rw [Table.currentCompareScore, Table.currentFollowScore]
    split <;> omega
  have turn : ¬(!hasTurn { t with armed := false } c || !Table.isIn { t with armed := false } start) = true := by
    show ¬(!hasTurn t c || !t.isIn start) = true
    rw [hasTurn_of_playing playing, there]
    exact Bool.false_ne_true
  obtain ⟨t₁, ⟨hands, types, changed, rfl⟩, outcome⟩ :=
    compareAllIn_eq r draw c ((List.range 5).map (seatAfter start)) { t with armed := false }
  set t₁ : Table := { t with
    armed := false, handCards := hands, handCardsType := types, blastAndroidChangeCard := changed } with dealt
  have running : Running r (t₁.addBet c (scoreByChairId r t c - t.tableScore c)) := by
    have before : Running r t₁ := { playing with }
    exact before.addBet playing.here nonneg (show t.tableScore c + _ ≤ _ by omega)
  have keeps : Keeps t (t₁.addBet c (scoreByChairId r t c - t.tableScore c)) := keeps_addBet (t := t₁) playing.here
  have accepted : onUserAllIn r t draw c start = (
      let t₂ := (compareAllIn r draw c ((List.range 5).map (seatAfter start)) { t with armed := false }).addBet c
        (scoreByChairId r t c - t.tableScore c)
      if !t₂.isComparedLost c then
        let lost := (List.finRange 5).foldl
          (loseToAllIn r c (scoreByChairId r t c - t.tableScore c) (t.currentCompareScore c)) t₂
        if lost.bankerUser ≠ c ∧ !lost.isComparedLost lost.bankerUser then none
        else goOn r { lost with bankerUser := c } draw
      else (t₂.moveBanker c).bind fun t => goOn r (writeLost r t c) draw) :=
    (if_neg turn).trans ((if_neg apart).trans ((if_neg (not_lt.mpr covers)).trans (if_neg (not_lt.mpr nonneg))))
  rw [accepted]
  rcases outcome with won | lost
  · have stays : (t₁.addBet c (scoreByChairId r t c - t.tableScore c)).isComparedLost c = false := by
      have stays := (isIn_iff.mp playing.here).2
      rw [Table.out, Bool.or_eq_false_iff] at stays
      exact stays.2
    rw [won]
    dsimp only
    rw [stays, Bool.not_false, if_pos rfl]
    have ends := ends_allInWon draw cell running playing.current playing.here positive nonneg (by omega)
    exact ends.of_keeps keeps le_rfl
  · have out : ((t₁.setComparedLost c).addBet c (scoreByChairId r t c - t.tableScore c)).isComparedLost c = true :=
      Function.update_self _ _ _
    rw [lost]
    dsimp only
    rw [out, Bool.not_true, if_neg Bool.false_ne_true]
    have ends := ends_allInLost draw cell running playing.current playing.here playing.two
    exact ends.of_keeps keeps le_rfl

/-! ## Comparing and betting -/

/-- Comparing with another player is accepted. -/
theorem ends_onUserCompareCard (cell : 0 < r.cellScore) (playing : Playing r t c) (there : t.isIn j = true)
    (apart : c ≠ j) : Ends r t (progress t c) (onUserCompareCard r t draw c j) := by
  have turn : ¬(!hasTurn { t with armed := false } c || !Table.isIn { t with armed := false } j) = true := by
    show ¬(!hasTurn t c || !t.isIn j) = true
    rw [hasTurn_of_playing playing, there]
    exact Bool.false_ne_true
  have score := playing.ledger.score playing.here
  obtain ⟨hands, types, changed, analysed⟩ := handsOnly_analyse r { t with armed := false } draw c j
  set t₁ : Table := { t with
    armed := false, handCards := hands, handCardsType := types, blastAndroidChangeCard := changed } with dealt
  have playing₁ : Playing r t₁ c := { playing with }
  have accepted : onUserCompareCard r t draw c j = (
      let t := analyse r { t with armed := false } draw c j
      let currentCompareScore := t.currentCompareScore c
      if scoreByChairId r t c ≤ currentCompareScore + t.tableScore c then onUserAllIn r t draw c j
      else
        let lostUser := if 0 < compare r t c j then j else c
        ((t.setComparedLost lostUser).moveBanker lostUser).bind fun t =>
          goOn r (writeLost r (t.addBet c currentCompareScore) lostUser) draw) :=
    (if_neg turn).trans (if_neg apart)
  rw [accepted, analysed]
  dsimp only
  split
  · rename_i covers
    have ends : Ends r t₁ (progress t₁ c) (onUserAllIn r t₁ draw c j) :=
      ends_onUserAllIn cell playing₁ there apart covers
    exact ends.of_keeps (fun i outs => ⟨outs, rfl⟩) le_rfl
  · rename_i affordable
    have affordable' : ¬scoreByChairId r t c ≤ t.currentCompareScore c + t.tableScore c := affordable
    have positive : 0 ≤ t.currentCompareScore c := by
      have := playing.follow
      rw [Table.currentCompareScore, Table.currentFollowScore]
      split <;> omega
    set lostUser := if 0 < compare r t₁ c j then j else c with loser
    have here : t.isIn lostUser = true := by
      rw [loser]
      split
      · exact there
      · exact playing.here
    have running : Running r (t₁.addBet c (t.currentCompareScore c)) :=
      playing₁.toRunning.addBet playing.here positive (show t.tableScore c + _ ≤ _ by omega)
    have keeps : Keeps t (t₁.addBet c (t.currentCompareScore c)) := keeps_addBet (t := t₁) playing.here
    obtain ⟨b, moved, banker⟩ := exists_moveBanker_of_marked (m := t₁.setComparedLost lostUser) playing₁.toRunning
      playing.two rfl (setComparedLost_out lostUser) rfl
    rw [moved, Option.bind_some]
    have ends : Ends r (t₁.addBet c (t.currentCompareScore c)) (progress t c) (goOn r (writeLost r
        (Table.addBet { t₁.setComparedLost lostUser with bankerUser := b } c (t.currentCompareScore c)) lostUser)
        draw) := by
      apply ends_writeLost cell running playing.current here
      · exact dropped_of_marked rfl (setComparedLost_out (t := t₁) lostUser) rfl rfl rfl rfl
      · exact ⟨rfl, rfl, rfl, rfl, rfl⟩
      · exact banker
    exact ends.of_keeps keeps le_rfl

/-- There is somebody to play against. -/
theorem exists_opponent (playing : Playing r t c) (from_ : Chair) :
    ∃ next, t.getNextUser from_ true = some next ∧ t.isIn next = true ∧ c ≠ next := by
  obtain ⟨i, other, here⟩ := exists_other playing.two c
  obtain ⟨next, found, here', apart⟩ := exists_getNextUser (t := t) from_ true
    ⟨i, here, fun both => other (Option.some_inj.mp (playing.current.symm.trans both.2)).symm⟩
  refine ⟨next, found, here', fun same => apart ⟨rfl, ?_⟩⟩
  rw [playing.current, same]

theorem ends_allInNext (cell : 0 < r.cellScore) (playing : Playing r t c)
    (covers : scoreByChairId r t c ≤ t.currentCompareScore c + t.tableScore c) :
    Ends r t (progress t c) (allInNext r t draw c) := by
  obtain ⟨next, found, here, apart⟩ := exists_opponent playing (seatAfter c 1)
  rw [allInNext, found]
  exact ends_onUserAllIn cell playing here apart covers

/-- A bet is paid, or the player goes all in. -/
theorem ends_betOrAllIn (draw : Draw) (cell : 0 < r.cellScore) (playing : Playing r t c) :
    Ends r t (progress t c) (betOrAllIn r t draw c (t.currentFollowScore c)) := by
  have score := playing.ledger.score playing.here
  have positive : 0 < t.currentFollowScore c := by
    have := playing.follow
    rw [Table.currentFollowScore]
    split <;> omega
  rw [betOrAllIn]
  split
  · rename_i covers
    apply ends_allInNext cell playing
    rw [Table.currentCompareScore]
    omega
  · rename_i affordable
    have running := playing.toRunning.addBet playing.here positive.le (by omega)
    have ends : Ends r (t.addBet c (t.currentFollowScore c)) (progress t c) _ :=
      ends_nextStep draw cell running playing.current playing.two
    exact ends.of_keeps (keeps_addBet playing.here) le_rfl

/-- Whether `OnUserAddScore` accepts a raise to `index`. -/
def Raises (r : Round) (t : Table) (c : Chair) (index : ℤ) : Prop :=
  index ≤ 0 ∨ r.isAndroid c = true
    ∨ ∃ start, getCurrentAddStart r.jettonList t.followScore = some start ∧ 0 < start ∧ start ≤ index

theorem ends_onUserAddScore (cell : 0 < r.cellScore) (playing : Playing r t c) {index : ℤ}
    (inside : index < r.jettonList.length) (raises : Raises r t c index) :
    Ends r t (progress t c) (onUserAddScore r t draw c index) := by
  have bets : ∀ followScore, 0 < followScore → Ends r t (progress t c)
      (betOrAllIn r { t with armed := false, followScore } draw c
        (Table.currentFollowScore { t with armed := false, followScore } c)) := by
    intro followScore positive
    have playing' : Playing r { t with armed := false, followScore } c := { playing with follow := positive }
    have ends : Ends r { t with armed := false, followScore } (progress t c) _ := ends_betOrAllIn draw cell playing'
    exact ends.of_keeps (fun i outs => ⟨outs, rfl⟩) le_rfl
  have accepted : onUserAddScore r t draw c index = (
      if index ≤ 0 then betOrAllIn r { t with armed := false } draw c (t.currentFollowScore c)
      else
        (getCurrentAddStart r.jettonList t.followScore).bind fun start =>
          if start ≤ 0 ∨ index < start then
            if r.isAndroid c then betOrAllIn r { t with armed := false } draw c (t.currentFollowScore c)
            else some { t with armed := false }
          else if r.jettonList.length ≤ index then some { t with armed := false }
          else
            let t := { t with armed := false, followScore := r.jettonList.getD index.toNat 0 }
            betOrAllIn r t draw c (t.currentAddScore c)) := by
    rw [onUserAddScore]
    exact if_neg (by
      show ¬(!hasTurn t c) = true
      rw [hasTurn_of_playing playing]
      exact Bool.false_ne_true)
  rw [accepted]
  split
  · exact bets t.followScore playing.follow
  rename_i positive
  cases found : getCurrentAddStart r.jettonList t.followScore with
  | none =>
    refine ⟨fun rises => ?_, fun t' made => by cases made⟩
    obtain ⟨start, found'⟩ := exists_getCurrentAddStart rises playing.follow
    rw [found] at found'
    cases found'
  | some start =>
    rw [Option.bind_some]
    split
    · rename_i rejected
      rcases raises with small | robot | ⟨start', found', positive', from_⟩
      · exact absurd small positive
      · rw [if_pos robot]
        exact bets t.followScore playing.follow
      · rw [found] at found'
        cases found'
        omega
    · rename_i accepts
      rw [if_neg (not_le.mpr inside)]
      have raised := lt_of_getCurrentAddStart found (by omega) (by omega) inside
      exact bets _ (playing.follow.trans raised)

/-! ## Giving up -/

/-- Who gives up is out, and the turn ends if it was his. -/
theorem onUserGiveUp_eq (draw : Draw) (playing : Playing r t c) (timeout : Bool) (there : t.isIn j = true)
    (allowed : ¬(r.isAndroid j = true ∧ (timeout = true ∨ (!t.isLooked j) = true))) :
    ∃ t', Running r t' ∧ Dropped r t j 0 t' ∧ SameTurn t t' ∧ t'.armed = t.armed
      ∧ onUserGiveUp r t draw j timeout = (
        if 2 ≤ t'.leftPlayerCount then
          if j ≠ c then (getCurrentAddStart r.jettonList t.followScore).map fun _ => t'
          else nextStep r { t' with armed := false } draw
        else onEventGameConclude r t') := by
  obtain ⟨b, moved, banker⟩ := exists_moveBanker_of_marked (m := t.setGiveup j) playing.toRunning playing.two rfl
    (setGiveup_out j) rfl
  have dropped : Dropped r t j 0 (writeLost r { t.setGiveup j with bankerUser := b } j) :=
    dropped_of_marked rfl (setGiveup_out (t := t) j) rfl rfl rfl rfl
  have same : SameTurn t { t.setGiveup j with bankerUser := b } := ⟨rfl, rfl, rfl, rfl, rfl⟩
  have same' := same.trans (sameTurn_writeLost r _ j)
  refine ⟨_, running_writeLost playing.toRunning there dropped same banker, dropped, same', ?_, ?_⟩
  · obtain ⟨written, equal⟩ := writeLost_eq r { t.setGiveup j with bankerUser := b } j
    rw [equal]
    rfl
  · rw [onUserGiveUp, playing.current]
    dsimp only
    rw [there, playing.here, if_neg (show ¬(!true || !true) = true from Bool.false_ne_true), if_neg allowed, moved,
      Option.bind_some, same'.followScore]

/-- Giving up in the own turn. -/
theorem ends_onUserGiveUp (cell : 0 < r.cellScore) (playing : Playing r t c) (timeout : Bool)
    (allowed : ¬(r.isAndroid c = true ∧ (timeout = true ∨ (!t.isLooked c) = true))) :
    Ends r t (progress t c) (onUserGiveUp r t draw c timeout) := by
  obtain ⟨t', running, dropped, same, -, result⟩ := onUserGiveUp_eq draw playing timeout playing.here allowed
  rw [result]
  have fewer := dropped.leftPlayerCount playing.here
  split
  · rename_i two
    have running' : Running r { t' with armed := false } := { running with }
    rw [if_neg fun apart => apart rfl]
    have ends : Ends r { t' with armed := false } _ (nextStep r { t' with armed := false } draw) :=
      ends_nextStep draw cell running' (same.currentUser.trans playing.current) two
    have nearer : progress t' c ≤ progress t c := progress_le same (by omega)
    exact ends.of_keeps (dropped.keeps playing.here) nearer
  · rename_i few
    exact (ends_onEventGameConclude cell running.ledger running.banker few).of_keeps (dropped.keeps playing.here) le_rfl

/-- Giving up in the turn of another, which goes on or is the end. -/
theorem onUserGiveUp_other (cell : 0 < r.cellScore) (playing : Playing r t c) (timeout : Bool) (there : t.isIn j = true)
    (other : j ≠ c) (allowed : ¬(r.isAndroid j = true ∧ (timeout = true ∨ (!t.isLooked j) = true))) :
    (∃ t', Keeps t t' ∧ Playing r t' c ∧ t'.armed = t.armed
        ∧ onUserGiveUp r t draw j timeout = (getCurrentAddStart r.jettonList t.followScore).map fun _ => t')
      ∨ Ends r t (progress t c) (onUserGiveUp r t draw j timeout) := by
  obtain ⟨t', running, dropped, same, armed, result⟩ := onUserGiveUp_eq draw playing timeout there allowed
  rw [result]
  split
  · rename_i two
    refine Or.inl ⟨t', dropped.keeps there, ?_, armed, rfl⟩
    exact { running with
      current := same.currentUser.trans playing.current
      here := (dropped.isIn_of_ne other.symm).trans playing.here
      two := two }
  · rename_i few
    exact Or.inr
      ((ends_onEventGameConclude cell running.ledger running.banker few).of_keeps (dropped.keeps there) le_rfl)

end H5Server.Zjh
