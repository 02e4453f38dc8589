import H5Server.Hjk.GameProcess
import Mathlib.Algebra.BigOperators.Group.Finset.Basic
import Mathlib.Algebra.BigOperators.Intervals
import Mathlib.Tactic.Ring

/-! # Who has staked what

The stake of a user is what lies on the activated hands that carry his id. `Staked` says who may own
a hand and that `m_wUserBets` is the stake; cards, stops and the conclusion move no stake, so they
keep it by one frame lemma. `Phase` says what each game status promises.
-/

namespace H5Server.Hjk

open Finset (sum_congr)

/-- What a hand contributes to the stake of a user. -/
def Slip.stakeOf (slip : Slip) (u : Int) : Int :=
  if slip.isactivated = true ∧ slip.userId = u then slip.betscore + slip.insurescore else 0

namespace Table

/-- The stake of a user on all hands. -/
def stake (s : Table) (u : Int) : Int := ∑ i ∈ Finset.range 11, (s.hands i).stakeOf u

@[simp] theorem setHand_self (s : Table) (index : Nat) (hand : Hand) : (s.setHand index hand).hands index = hand :=
  Function.update_self ..

theorem setHand_of_ne (s : Table) {index i : Nat} (other : i ≠ index) (hand : Hand) :
    (s.setHand index hand).hands i = s.hands i := Function.update_of_ne other ..

theorem stake_setHand (s : Table) {index : Nat} (bound : index < 11) (hand : Hand) (u : Int) :
    (s.setHand index hand).stake u = s.stake u - (s.hands index).stakeOf u + hand.stakeOf u := by
  have member : index ∈ Finset.range 11 := Finset.mem_range.mpr bound
  have rest : ∑ i ∈ (Finset.range 11).erase index, ((s.setHand index hand).hands i).stakeOf u =
      ∑ i ∈ (Finset.range 11).erase index, (s.hands i).stakeOf u := by
    apply sum_congr rfl
    intro i present
    rw [setHand_of_ne s (Finset.ne_of_mem_erase present)]
  have before := Finset.add_sum_erase (Finset.range 11) (fun i => (s.hands i).stakeOf u) member
  have after := Finset.add_sum_erase (Finset.range 11) (fun i => ((s.setHand index hand).hands i).stakeOf u) member
  rw [rest, setHand_self] at after
  rw [stake, stake, ← before, ← after]
  ring

/-! ## The invariant -/

variable {r : Round} {s s' : Table}

/-- Who owns the activated hands, and that the bets are the stakes. -/
structure Staked (r : Round) (s : Table) : Prop where
  own : ∀ c, r.bPlayStatus c = true → (s.hands c).userId = r.dwPlayUserID c ∧ s.master c = c
  free : ∀ i < 6, r.bPlayStatus i = false → (s.hands i).isactivated = false → (s.hands i).userId = 0
  owner : ∀ i, (s.hands i).isactivated = true → i < 11 ∧ r.bPlayStatus (s.master i) = true ∧
    (s.hands i).userId = r.dwPlayUserID (s.master i) ∧ (s.hands (s.master i)).isactivated = true
  idle : ∀ i, (s.hands i).isactivated = false → (s.hands i).betscore = 0 ∧ (s.hands i).insurescore = 0
  second : ∀ i < 5, (s.hands (i + 6)).isactivated = true → (s.hands i).isactivated = true ∧
    s.master (i + 6) = s.master i
  table : ∀ i, s.lTableScore i ≠ 0 → (s.hands i).isactivated = true
  insured : ∀ i, s.lUserInsure i = 0 → (s.hands i).insurescore = 0
  seats : ∀ i, 5 ≤ i → s.lUserInsure i = 0
  split : ∀ i, (s.hands i).opercode &&& operSplit ≠ 0 → i < 6 ∧ (s.hands i).issplited = false
  whole : ∀ i < 6, (s.hands i).issplited = false → (s.hands (i + 6)).isactivated = false
  banker : (s.hands 5).issplited = false
  total : ∀ u, s.stake u = s.wUserBets u

/-- Steps that move no stake: the slips, the bets and the tables of the seats stay, and a hand may be
split only if it could be before or has just been dealt. -/
structure Frame (s s' : Table) : Prop where
  slip : ∀ i, (s'.hands i).toSlip = (s.hands i).toSlip
  bets : s'.wUserBets = s.wUserBets
  table : s'.lTableScore = s.lTableScore
  insure : s'.lUserInsure = s.lUserInsure
  issplited : ∀ i, (s'.hands i).issplited = (s.hands i).issplited
  split : ∀ i, (s'.hands i).opercode &&& operSplit ≠ 0 →
    (s.hands i).opercode &&& operSplit ≠ 0 ∨ (i < 6 ∧ (s.hands i).issplited = false)

theorem Frame.refl (s : Table) : Frame s s := ⟨fun _ => rfl, rfl, rfl, rfl, fun _ => rfl, fun _ => .inl⟩

theorem Frame.trans {s₁ s₂ s₃ : Table} (first : Frame s₁ s₂) (second : Frame s₂ s₃) : Frame s₁ s₃ where
  slip i := (second.slip i).trans (first.slip i)
  bets := second.bets.trans first.bets
  table := second.table.trans first.table
  insure := second.insure.trans first.insure
  issplited i := (second.issplited i).trans (first.issplited i)
  split i can := by
    rcases second.split i can with before | ⟨bound, whole⟩
    · exact first.split i before
    · exact .inr ⟨bound, (first.issplited i).symm.trans whole⟩

theorem Frame.activated (frame : Frame s s') (i : Nat) : (s'.hands i).isactivated = (s.hands i).isactivated :=
  congrArg Slip.isactivated (frame.slip i)

theorem Frame.master (frame : Frame s s') (i : Nat) : s'.master i = s.master i :=
  (congrArg (fun slip : Slip => slip.masterChair.getD (i % 6)) (frame.slip i) :)

theorem Frame.userId (frame : Frame s s') (i : Nat) : (s'.hands i).userId = (s.hands i).userId :=
  congrArg Slip.userId (frame.slip i)

theorem Frame.stake (frame : Frame s s') (u : Int) : s'.stake u = s.stake u :=
  sum_congr rfl fun i _ => by rw [frame.slip i]

theorem Staked.frame (staked : Staked r s) (frame : Frame s s') : Staked r s' where
  own c plays := by
    rw [frame.userId, frame.master]
    exact staked.own c plays
  free i bound empty idle := (frame.userId i).trans (staked.free i bound empty ((frame.activated i).symm.trans idle))
  owner i active := by
    rw [frame.master, frame.userId, frame.activated]
    exact staked.owner i ((frame.activated i).symm.trans active)
  idle i idle := by
    have before := staked.idle i ((frame.activated i).symm.trans idle)
    rw [congrArg Slip.betscore (frame.slip i), congrArg Slip.insurescore (frame.slip i)]
    exact before
  second i bound active := by
    rw [frame.activated, frame.master, frame.master]
    exact staked.second i bound ((frame.activated _).symm.trans active)
  table i nonzero := (frame.activated i).trans (staked.table i (frame.table ▸ nonzero))
  insured i zero := (congrArg Slip.insurescore (frame.slip i)).trans (staked.insured i (frame.insure ▸ zero))
  seats i bound := by
    rw [frame.insure]
    exact staked.seats i bound
  split i can := by
    rw [frame.issplited]
    exact (frame.split i can).elim (staked.split i) id
  whole i bound kept := (frame.activated _).trans (staked.whole i bound ((frame.issplited i).symm.trans kept))
  banker := (frame.issplited 5).trans staked.banker
  total u := by
    rw [frame.stake, frame.bets]
    exact staked.total u

/-! ## Cards and conclusions move no stake -/

theorem Frame.of_hands (hands : s'.hands = s.hands) (bets : s'.wUserBets = s.wUserBets)
    (table : s'.lTableScore = s.lTableScore) (insure : s'.lUserInsure = s.lUserInsure) : Frame s s' where
  slip i := by rw [hands]
  bets := bets
  table := table
  insure := insure
  issplited i := by rw [hands]
  split i can := .inl (hands ▸ can)

theorem Frame.setHand {index : Nat} {hand : Hand} (slip : hand.toSlip = (s.hands index).toSlip)
    (issplited : hand.issplited = (s.hands index).issplited)
    (split : hand.opercode &&& operSplit ≠ 0 → (s.hands index).opercode &&& operSplit ≠ 0) :
    Frame s (s.setHand index hand) := by
  have cases : ∀ i, (s.setHand index hand).hands i = if i = index then hand else s.hands i := fun i =>
    Function.update_apply ..
  refine ⟨fun i => ?_, rfl, rfl, rfl, fun i => ?_, fun i => ?_⟩
  all_goals rw [cases]; split
  next same => rw [slip, same]
  next => rfl
  next same => rw [issplited, same]
  next => rfl
  next same => exact fun can => .inl (same ▸ split can)
  next => exact .inl

theorem updateAddOne_split (hand : Hand) (index card : Nat) :
    (hand.updateAddOne index card).opercode &&& operSplit = 0 := by
  simp only [Hand.updateAddOne]
  split <;> rfl

/-- Two cards never make 21 points while the ace counts one. -/
private theorem point_ne (carddata : Nat × Nat) : getCardLogicValue carddata.1 + getCardLogicValue carddata.2 ≠ 21 := by
  have bound : ∀ card, getCardLogicValue card ≤ 10 := fun card => Nat.min_le_left ..
  have first := bound carddata.1
  have second := bound carddata.2
  omega

private theorem updateInit_split (hand : Hand) (index : Nat) (carddata : Nat × Nat)
    (can : (hand.updateInit index carddata).opercode &&& operSplit ≠ 0) :
    hand.opercode &&& operSplit ≠ 0 ∨ (index < 6 ∧ hand.issplited = false) := by
  simp only [Hand.updateInit] at can
  split at can
  · exact .inl can
  · split at can
    next equal =>
      obtain ⟨-, whole⟩ := equal
      simp only [issecond, Bool.and_eq_true, Bool.not_eq_true', decide_eq_false_iff_not, not_le] at whole
      exact .inr ⟨whole.2, whole.1⟩
    next => exact absurd rfl can

/-- A split hand cannot be split again. -/
theorem updateInit_of_issplited {hand : Hand} (index : Nat) (carddata : Nat × Nat) (issplited : hand.issplited = true) :
    (hand.updateInit index carddata).opercode &&& operSplit = 0 := by
  simp only [Hand.updateInit, issplited, Bool.not_true, Bool.false_and, Bool.and_false, Bool.false_or, beq_iff_eq,
    point_ne, Bool.false_eq_true, and_false, ↓reduceIte]
  rfl

theorem updateInit_of_issecond {hand : Hand} {index : Nat} (carddata : Nat × Nat) (second : 6 ≤ index) :
    (hand.updateInit index carddata).opercode &&& operSplit = 0 := by
  have whole : issecond index = true := decide_eq_true second
  simp only [Hand.updateInit, whole, Bool.not_true, Bool.and_false, Bool.false_or, beq_iff_eq,
    point_ne, Bool.false_eq_true, and_false, ↓reduceIte]
  rfl

theorem frame_conclude (tag : Nat) : Frame s (s.onEventGameConclude tag) := .of_hands rfl rfl rfl rfl

private theorem drawBanker_keeps (shoe : Shoe) (fuel : Nat) (hand : Hand) :
    (drawBanker shoe fuel hand).toSlip = hand.toSlip ∧ (drawBanker shoe fuel hand).issplited = hand.issplited ∧
    ((drawBanker shoe fuel hand).opercode &&& operSplit ≠ 0 → hand.opercode &&& operSplit ≠ 0) := by
  induction fuel generalizing hand with
  | zero => exact ⟨rfl, rfl, id⟩
  | succ fuel ih =>
    rw [drawBanker]
    split
    next =>
      obtain ⟨slip, issplited, split⟩ := ih
        (({ hand with cardcount := hand.cardcount + 1 } : Hand).updateAddOne 5 (shoe.drawn hand.cardcount))
      exact ⟨slip, issplited, fun can => absurd (updateAddOne_split ..) (split can)⟩
    next => exact ⟨rfl, rfl, id⟩

/-- The banker draws until he has 17 points or stops: three cards are enough. -/
theorem drawBanker_final (shoe : Shoe) (fuel : Nat) (hand : Hand) (count : hand.cardcount + fuel = 5)
    (complete : hand.cardcount = 5 → hand.stopped = true) :
    17 ≤ (drawBanker shoe fuel hand).cardpoint ∨ (drawBanker shoe fuel hand).stopped = true := by
  induction fuel generalizing hand with
  | zero => exact .inr (complete count)
  | succ fuel ih =>
    rw [drawBanker]
    split
    next =>
      apply ih
      · change hand.cardcount + 1 + fuel = 5
        omega
      · intro full
        replace full : hand.cardcount + 1 = 5 := full
        simp [Hand.updateAddOne, full]
    next done =>
      rw [not_and_or, Nat.not_lt, Bool.not_eq_false] at done
      exact done

theorem frame_bankerDeal (shoe : Shoe) : Frame s (s.bankerDeal shoe) := by
  obtain ⟨slip, issplited, split⟩ := drawBanker_keeps shoe 3 (s.hands 5)
  exact (Frame.setHand slip issplited split).trans (frame_conclude 1)

theorem frame_updateNext (shoe : Shoe) : Frame s (s.updateNext shoe) := by
  rw [updateNext]
  split
  · exact .of_hands rfl rfl rfl rfl
  · have moved : Frame s { s with currentHand := none } := .of_hands rfl rfl rfl rfl
    exact moved.trans (frame_bankerDeal shoe)

theorem frame_startPlay (shoe : Shoe) : Frame s (s.startPlay shoe) := by
  have moved : Frame s { s with cbGameStatus := .play } := .of_hands rfl rfl rfl rfl
  rw [startPlay]
  split
  · split
    · exact moved.trans (frame_updateNext shoe)
    · exact moved
  · exact .refl s

private theorem dealHand_keeps (shoe : Shoe) (index : Nat) (hand : Hand) :
    (dealHand shoe index hand).1.toSlip = hand.toSlip ∧ (dealHand shoe index hand).1.issplited = hand.issplited ∧
    ((dealHand shoe index hand).1.opercode &&& operSplit ≠ 0 →
      hand.opercode &&& operSplit ≠ 0 ∨ (index < 6 ∧ hand.issplited = false)) := by
  rw [dealHand]
  dsimp only
  split
  · exact ⟨rfl, rfl, updateInit_split hand index _⟩
  · refine ⟨rfl, rfl, fun can => ?_⟩
    rcases updateInit_split _ index _ can with before | fresh
    · exact updateInit_split hand index _ before
    · exact .inr fresh

theorem frame_dealCards (shoe : Shoe) : Frame s (s.dealCards shoe) := by
  have cases : ∀ i, (s.dealCards shoe).hands i = (dealHand shoe i (s.hands i)).1 ∨
      (s.dealCards shoe).hands i = s.hands i := fun i => by
    simp only [dealCards]
    exact ite_eq_or_eq ..
  refine ⟨fun i => ?_, rfl, rfl, rfl, fun i => ?_, fun i => ?_⟩
  all_goals
    obtain ⟨slip, issplited, split⟩ := dealHand_keeps shoe i (s.hands i)
    rcases cases i with dealt | kept
  · rw [dealt, slip]
  · rw [kept]
  · rw [dealt, issplited]
  · rw [kept]
  · rw [dealt]
    exact split
  · rw [kept]
    exact .inl

/-! ## Phases -/

/-- A hand of a player is up, and its player is to move. -/
structure Turn (s : Table) (k : Nat) : Prop where
  current : s.currentHand = some k
  player : k ≠ 5
  active : (s.hands k).isactivated = true
  user : s.wCurrentUser = s.master k

def Unsplit (s : Table) : Prop := ∀ i < 5, (s.hands (i + 6)).isactivated = false

/-- What a game status promises. Insurance is offered while the banker shows an ace, so that his
second card decides about the blackjack. -/
inductive Phase (s : Table) : Prop
  | bet (status : s.cbGameStatus = .bet) (unsplit : s.Unsplit)
  | insure (status : s.cbGameStatus = .insure) (unsplit : s.Unsplit) {k : Nat} (turn : s.Turn k)
      (banker : getCardLogicValue (s.cbHandCardData 5).2 = 10 → (s.hands 5).cardtype = ctBlackjack)
  | play (status : s.cbGameStatus = .play) {k : Nat} (turn : s.Turn k)
  | played (status : s.cbGameStatus = .gameEnd) (tag : s.tag = 1)
  | insured (status : s.cbGameStatus = .gameEnd) (tag : s.tag = 2) (unsplit : s.Unsplit)
      (banker : (s.hands 5).cardtype = ctBlackjack)

theorem Turn.congr {k : Nat} (turn : s.Turn k) (frame : Frame s s') (current : s'.currentHand = s.currentHand)
    (user : s'.wCurrentUser = s.wCurrentUser) : s'.Turn k where
  current := current.trans turn.current
  player := turn.player
  active := (frame.activated k).trans turn.active
  user := by rw [user, frame.master, turn.user]

theorem Unsplit.congr (unsplit : s.Unsplit) (frame : Frame s s') : s'.Unsplit := fun i bound =>
  (frame.activated _).trans (unsplit i bound)

private theorem searchNext_spec {fuel : Nat} {start : Option Nat} {k : Nat} (found : s.searchNext fuel start = some k)
    (chained : ∀ n, start = some n → n ≠ 5) : (s.hands k).isactivated = true ∧ k ≠ 5 := by
  induction fuel generalizing start with
  | zero => exact absurd found nofun
  | succ fuel ih =>
    cases start with
    | none => exact absurd found nofun
    | some n =>
      rw [searchNext] at found
      split at found
      next =>
        apply ih found
        rintro m next rfl
        unfold nextHand at next
        split_ifs at next <;> rw [Option.some.injEq] at next <;> omega
      next up =>
        obtain rfl := Option.some.inj found
        rw [not_or, Bool.not_eq_false] at up
        exact ⟨up.1, chained n rfl⟩

theorem nextHand_ne {n k : Nat} (next : nextHand n = some k) : k ≠ 5 := by
  unfold nextHand at next
  split_ifs at next <;> rw [Option.some.injEq] at next <;> omega

theorem phase_bankerDeal (shoe : Shoe) : (s.bankerDeal shoe).Phase := .played rfl rfl

/-- Whoever comes next plays, or the banker does. -/
theorem phase_updateNext (shoe : Shoe) (status : s.cbGameStatus = .play) : (s.updateNext shoe).Phase := by
  rw [updateNext]
  split
  next k found =>
    have start : ∀ n, s.currentHand.bind nextHand = some n → n ≠ 5 := fun n next => by
      obtain ⟨m, -, step⟩ := Option.bind_eq_some_iff.mp next
      exact nextHand_ne step
    obtain ⟨active, player⟩ := searchNext_spec found start
    exact .play status ⟨rfl, player, active, rfl⟩
  next => exact phase_bankerDeal shoe

theorem phase_startPlay (shoe : Shoe) {k : Nat} (turn : s.Turn k) : (s.startPlay shoe).Phase := by
  rw [startPlay, turn.current]
  dsimp only
  split
  · exact phase_updateNext shoe rfl
  · exact .play rfl ⟨rfl, turn.player, turn.active, turn.user⟩

/-- An ace and a ten are the banker's blackjack. -/
private theorem dealHand_blackjack (shoe : Shoe) {hand : Hand} (whole : hand.issplited = false)
    (first : getCardLogicValue (dealHand shoe 5 hand).2.1 = 1)
    (second : getCardLogicValue (dealHand shoe 5 hand).2.2 = 10) :
    (dealHand shoe 5 hand).1.cardtype = ctBlackjack := by
  have fresh : ∀ (hand : Hand) (cards : Nat × Nat), hand.issplited = false → getCardLogicValue cards.1 = 1 →
      getCardLogicValue cards.2 = 10 → (hand.updateInit 5 cards).cardtype = ctBlackjack := by
    intro hand cards whole first second
    simp [Hand.updateInit, whole, first, second, issecond]
  cases changed : shoe.changed 5 with
  | none =>
    simp only [dealHand, changed] at first second ⊢
    exact fresh _ _ whole first second
  | some card =>
    simp only [dealHand, changed] at first second ⊢
    exact fresh _ _ whole first second

theorem dealCards_banker (s : Table) (shoe : Shoe) :
    (s.dealCards shoe).hands 5 = (dealHand shoe 5 (s.hands 5)).1 ∧
    (s.dealCards shoe).cbHandCardData 5 = (dealHand shoe 5 (s.hands 5)).2 := by
  constructor <;> simp [dealCards]

theorem frame_initDealCards {shoe : Shoe} (dealt : s.initDealCards shoe = some s') : Frame s s' := by
  rw [initDealCards] at dealt
  split at dealt
  next =>
    obtain rfl := Option.some.inj dealt
    exact .refl s
  next =>
    dsimp only at dealt
    split at dealt
    next => exact absurd dealt nofun
    next k _ =>
      have turn : Frame s { s.dealCards shoe with currentHand := some k, wCurrentUser := (s.dealCards shoe).master k } :=
        (frame_dealCards shoe).trans (.of_hands rfl rfl rfl rfl)
      split at dealt
      · obtain rfl := Option.some.inj dealt
        exact turn.trans (.of_hands rfl rfl rfl rfl)
      · obtain rfl := Option.some.inj dealt
        exact turn.trans (frame_startPlay shoe)

/-- The cards open the insurance or the play, and the first staked hand belongs to a player. -/
theorem phase_initDealCards {shoe : Shoe} (staked : Staked r s) (unsplit : s.Unsplit)
    (status : s.cbGameStatus = .bet) (dealt : s.initDealCards shoe = some s') : s'.Phase := by
  have frame := frame_dealCards (s := s) shoe
  have kept := staked.frame frame
  rw [initDealCards, if_neg (not_not.mpr status)] at dealt
  dsimp only at dealt
  split at dealt
  next => exact absurd dealt nofun
  next k found =>
    have active : ((s.dealCards shoe).hands k).isactivated = true := (List.find?_some found :)
    have player : k ≠ 5 := by
      rintro rfl
      obtain ⟨-, plays, -, main⟩ := kept.owner 5 active
      have seat := r.chairs _ plays
      obtain ⟨-, front, back, split, before⟩ := List.find?_eq_some_iff_append.mp found
      have earlier : (s.dealCards shoe).master 5 ∈ front := by
        have member : (s.dealCards shoe).master 5 ∈ List.range 6 := List.mem_range.mpr (by omega)
        rw [split] at member
        rcases List.mem_append.mp member with early | late
        · exact early
        · rcases List.mem_cons.mp late with same | later
          · omega
          · have sorted : (List.range 6).Pairwise (· < ·) := List.pairwise_lt_range
            rw [split] at sorted
            have above := (List.pairwise_cons.mp (List.pairwise_append.mp sorted).2.1).1 _ later
            omega
      exact absurd main (by simpa using before _ earlier)
    split at dealt
    next ace =>
      obtain rfl := Option.some.inj dealt
      refine .insure rfl (unsplit.congr (frame.trans (.of_hands rfl rfl rfl rfl))) ⟨rfl, player, active, rfl⟩ ?_
      intro ten
      obtain ⟨hand, cards⟩ := dealCards_banker s shoe
      change getCardLogicValue ((s.dealCards shoe).cbHandCardData 5).2 = 10 at ten
      change ((s.dealCards shoe).hands 5).cardtype = _
      rw [cards] at ace ten
      rw [hand]
      exact dealHand_blackjack shoe staked.banker ace ten
    next =>
      obtain rfl := Option.some.inj dealt
      exact phase_startPlay shoe ⟨rfl, player, active, rfl⟩

end Table

end H5Server.Hjk
