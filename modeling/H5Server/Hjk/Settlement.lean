import H5Server.Hjk.Rounds
import Mathlib.Data.Finset.Lattice.Basic
import Mathlib.Tactic.Linarith

/-! # Settlement of a round (`OnEventGameConclude`)

The results of the hands are added up under the chair that plays them, in the order of the seats, and
the house total is built from the players that are not robots. The products of a multiple and a stake
are `float`s, counted in halves like the multiples. Revenue is taken from the winners.
-/

namespace H5Server.Hjk

open Lib

namespace Table

variable {r : Round} {s : Table}

/-- `bankerMultiple` for a hand, in halves. -/
def bankerMultiple (s : Table) (index : Nat) : Int := compareCard (s.hands 5) (s.hands index)

/-- `-bankerMultiple * betscore` as a `float`, in halves. -/
def floatScore (s : Table) (index : Nat) : Int :=
  toFloat (-s.bankerMultiple index * toFloat (s.hands index).betscore)

/-- `lGameScore` of a first hand, which also loses its insurance. -/
def firstScore (s : Table) (index : Nat) : Int :=
  (toFloat (s.floatScore index - toFloat (2 * (s.hands index).insurescore))).tdiv 2

/-- `lGameScore` of a second hand. -/
def secondScore (s : Table) (index : Nat) : Int := (s.floatScore index).tdiv 2

/-- What a hand is settled for when the banker's blackjack ends the insurance. -/
def insuredScore (s : Table) (index : Nat) : Int :=
  let hand := s.hands index
  if hand.insurescore ≠ 0 then if hand.cardtype = ctBlackjack then hand.betscore else 0
  else if hand.cardtype ≠ ctBlackjack then -hand.betscore else 0

/-- What seat `i` adds to the `addScore` of its player. -/
def seatScore (s : Table) (i : Nat) : Int :=
  if s.tag = 1 then s.firstScore i + if (s.hands (i + 6)).isactivated then s.secondScore (i + 6) else 0
  else s.insuredScore i

/-- What seat `i` adds to the `betScore` of its player. -/
def seatBet (s : Table) (i : Nat) : Int :=
  (s.hands i).betscore + (s.hands i).insurescore +
    if s.tag = 1 ∧ (s.hands (i + 6)).isactivated = true then
      ((s.hands (i + 6)).betscore + (s.hands (i + 6)).insurescore : Int) else 0

/-- The seats of the loop over `m_Hands`, each with its player's chair and its scores. -/
def seatEntries (s : Table) : List (Nat × Int × Int) :=
  ((List.range 5).filter fun i => (s.hands i).isactivated).map fun i => (s.master i, s.seatScore i, s.seatBet i)

/-- `scoreInfoVec` behind `chairToScore`: the chair, `addScore` and `betScore` of each slot. -/
def scoreInfoVec (s : Table) : List (Nat × Int × Int) := (Tally.collect s.seatEntries).slots

/-- `addScore` of a chair before revenue. -/
def addScore (s : Table) (chair : Nat) : Int := ((Tally.collect s.seatEntries).get chair).1

/-- One slot of the loop that builds `SystemScore`. -/
def addSystemScore (systemScore addScore : Int) : Int :=
  if 0 < addScore then systemScore + -addScore else -addScore

def systemScore (s : Table) (r : Round) : Int :=
  ((s.scoreInfoVec.filter fun slot => r.cbRealPlayer slot.1).map fun slot => slot.2.1).foldl addSystemScore 0

/-- `CalculateRevenue`. -/
def calculateRevenue (r : Round) (score : Int) : Int := (score * r.revenueRatio).tdiv 100

/-- The score a user holds after the round (`duserscore`). -/
def userScore (s : Table) (r : Round) (chair : Nat) : Int :=
  let addScore := s.addScore chair
  let revenue := if 0 < addScore then calculateRevenue r addScore else 0
  addScore - revenue + r.llUserSourceScore (r.dwPlayUserID chair)

/-! ## What a settlement should be -/

/-- The result of a hand for the user who staked it. -/
def handResult (s : Table) (index : Nat) : Int :=
  if s.tag = 1 then
    (-s.bankerMultiple index * (s.hands index).betscore - 2 * (s.hands index).insurescore).tdiv 2
  else s.insuredScore index

/-- The results of exactly the hands that a user staked. -/
def userResult (s : Table) (u : Int) : Int :=
  ∑ i ∈ Finset.range 11, if (s.hands i).isactivated = true ∧ (s.hands i).userId = u then s.handResult i else 0

/-- Each user is settled for his hands, and the house for the real players. -/
structure Ledger (r : Round) (s : Table) : Prop where
  user : ∀ c, r.bPlayStatus c = true → s.addScore c = s.userResult (r.dwPlayUserID c)
  house : s.systemScore r = -∑ c ∈ Finset.range 5 with r.cbRealPlayer c = true, s.addScore c

/-- No `float` of the settlement loses a digit. -/
def FloatExact (s : Table) : Prop :=
  ∀ i < 11, toFloat (s.hands i).betscore = (s.hands i).betscore ∧
    toFloat (-s.bankerMultiple i * (s.hands i).betscore) = -s.bankerMultiple i * (s.hands i).betscore ∧
    toFloat (2 * (s.hands i).insurescore) = 2 * (s.hands i).insurescore ∧
    toFloat (-s.bankerMultiple i * (s.hands i).betscore - 2 * (s.hands i).insurescore) =
      -s.bankerMultiple i * (s.hands i).betscore - 2 * (s.hands i).insurescore

/-- Stakes that a `float` carries one and a half times. -/
def SmallStakes (s : Table) : Prop := ∀ i < 11, 3 * (s.hands i).betscore + 2 * (s.hands i).insurescore ≤ 2 ^ 24

theorem SmallStakes.floatExact (small : s.SmallStakes) : s.FloatExact := by
  intro i bound
  have stake := small i bound
  have most : s.bankerMultiple i ≤ 2 := compareCard_le ..
  have least : -3 ≤ s.bankerMultiple i := neg_three_le_compareCard ..
  generalize s.bankerMultiple i = m at most least ⊢
  generalize (s.hands i).betscore = bet at stake ⊢
  generalize (s.hands i).insurescore = insurance at stake ⊢
  have product : -m * (bet : Int) ≤ 3 * bet ∧ -(2 * (bet : Int)) ≤ -m * bet := by
    constructor <;> nlinarith
  refine ⟨toFloat_of_le ?_, toFloat_of_le ?_, toFloat_of_le ?_, toFloat_of_le ?_⟩ <;> omega

/-! ## The users -/

section Users

theorem firstScore_eq (exact_ : s.FloatExact) {i : Nat} (bound : i < 11) (tag : s.tag = 1) :
    s.firstScore i = s.handResult i := by
  obtain ⟨bet, product, insurance, sum⟩ := exact_ i bound
  rw [firstScore, floatScore, bet, product, insurance, sum, handResult, if_pos tag]

theorem secondScore_eq (exact_ : s.FloatExact) {i : Nat} (bound : i < 11) (tag : s.tag = 1)
    (free : (s.hands i).insurescore = 0) : s.secondScore i = s.handResult i := by
  obtain ⟨bet, product, -, -⟩ := exact_ i bound
  rw [secondScore, floatScore, bet, product, handResult, if_pos tag, free, Nat.cast_zero, mul_zero, sub_zero]

/-- The hands a user staked are the hands his chair plays. -/
theorem staked_by_iff (staked : Staked r s) {c i : Nat} (plays : r.bPlayStatus c = true)
    (active : (s.hands i).isactivated = true) : (s.hands i).userId = r.dwPlayUserID c ↔ s.master i = c := by
  obtain ⟨-, there, user, -⟩ := staked.owner i active
  constructor
  · intro same
    exact r.distinct _ _ there plays (user.symm.trans same)
  · rintro rfl
    exact user

/-- A seat is settled for its first hand and, if it has been split, for its second. -/
private theorem seatScore_eq (sound : Sound r s) (ended : s.cbGameStatus = .gameEnd) (exact_ : s.FloatExact) {c i : Nat}
    (plays : r.bPlayStatus c = true) (bound : i < 5) :
    (if (s.hands i).isactivated = true ∧ s.master i = c then s.seatScore i else 0) =
      (if (s.hands i).isactivated = true ∧ (s.hands i).userId = r.dwPlayUserID c then s.handResult i else 0) +
      if (s.hands (i + 6)).isactivated = true ∧ (s.hands (i + 6)).userId = r.dwPlayUserID c then s.handResult (i + 6)
      else 0 := by
  cases active : (s.hands i).isactivated with
  | false =>
    have shut : (s.hands (i + 6)).isactivated = false := by
      cases open_ : (s.hands (i + 6)).isactivated with
      | false => rfl
      | true => exact absurd (sound.staked.second i bound open_).1 (by rw [active]; nofun)
    simp [shut]
  | true =>
    have first := staked_by_iff sound.staked plays active
    cases split : (s.hands (i + 6)).isactivated with
    | false =>
      have single : s.seatScore i = s.handResult i := by
        rw [seatScore, split]
        split
        next tag => rw [firstScore_eq exact_ (by omega) tag]; exact add_zero _
        next tag => rw [handResult, if_neg tag]
      simp [first, single]
    | true =>
      have tag : s.tag = 1 := by
        cases sound.phase with
        | played _ tag => exact tag
        | insured _ _ unsplit => exact absurd split (by rw [unsplit i bound]; nofun)
        | bet status | insure status | play status => exact absurd (ended.symm.trans status) nofun
      have second : (s.hands (i + 6)).userId = r.dwPlayUserID c ↔ s.master i = c := by
        rw [staked_by_iff sound.staked plays split, (sound.staked.second i bound split).2]
      have free := sound.staked.insured _ (sound.staked.seats (i + 6) (by omega))
      have both : s.seatScore i = s.handResult i + s.handResult (i + 6) := by
        rw [seatScore, if_pos tag, if_pos split, firstScore_eq exact_ (by omega) tag,
          secondScore_eq exact_ (by omega) tag free]
      simp only [first, second, both, true_and]
      split <;> rfl

/-- A user is settled for all his hands but the one on the banker's seat. -/
theorem addScore_eq (sound : Sound r s) (ended : s.cbGameStatus = .gameEnd) (exact_ : s.FloatExact) {c : Nat}
    (plays : r.bPlayStatus c = true) :
    s.addScore c = s.userResult (r.dwPlayUserID c) -
      if (s.hands 5).isactivated = true ∧ (s.hands 5).userId = r.dwPlayUserID c then s.handResult 5 else 0 := by
  have seats := fun i bound => seatScore_eq sound ended exact_ (c := c) (i := i) plays bound
  have total : s.addScore c = ((List.range 5).map fun i =>
      if (s.hands i).isactivated = true ∧ s.master i = c then s.seatScore i else 0).sum := by
    rw [addScore, Tally.get_collect, seatEntries, Tally.total_map_filter]
    simp only [List.range_succ_eq_map, List.range_zero, List.map_cons, List.map_nil, List.sum_cons, List.sum_nil,
      Prod.fst_add, Prod.fst_zero, apply_ite Prod.fst]
  rw [total, userResult]
  simp only [List.range_succ_eq_map, List.range_zero, List.map_cons, List.map_nil, List.sum_cons, List.sum_nil,
    Finset.sum_range_succ, Finset.sum_range_zero]
  have s0 := seats 0 (by omega)
  have s1 := seats 1 (by omega)
  have s2 := seats 2 (by omega)
  have s3 := seats 3 (by omega)
  have s4 := seats 4 (by omega)
  simp only [Nat.reduceAdd] at s0 s1 s2 s3 s4
  simp only [Nat.succ_eq_add_one, Nat.reduceAdd, s0, s1, s2, s3, s4]
  ring

end Users

/-! ## The house -/

/-- Whoever comes last among those who do not win, the results before his add up to zero. -/
def SettlesHouse (amounts : List Int) : Prop :=
  ∀ before a after, amounts = before ++ a :: after → a ≤ 0 → (∀ b ∈ after, 0 < b) → before.sum = 0

private theorem settlesHouse_snoc_pos {amounts : List Int} {a : Int} (positive : 0 < a) :
    SettlesHouse (amounts ++ [a]) ↔ SettlesHouse amounts := by
  constructor
  · intro settles before b after same low high
    apply settles before b (after ++ [a])
    · rw [same, List.append_assoc, List.cons_append]
    · exact low
    · intro d present
      rcases List.mem_append.mp present with old | new
      · exact high d old
      · rwa [List.mem_singleton.mp new]
  · intro settles before b after same low high
    rcases List.eq_nil_or_concat after with rfl | ⟨rest, last, rfl⟩
    · obtain ⟨-, same⟩ := List.append_inj' same rfl
      obtain rfl := List.singleton_inj.mp same
      omega
    · rw [List.concat_eq_append, ← List.cons_append, ← List.append_assoc] at same
      obtain ⟨same, -⟩ := List.append_inj' same rfl
      refine settles before b rest same low fun d present => high d ?_
      rw [List.concat_eq_append]
      exact List.mem_append_left _ present

private theorem settlesHouse_snoc_nonpos {amounts : List Int} {a : Int} (low : a ≤ 0) :
    SettlesHouse (amounts ++ [a]) ↔ amounts.sum = 0 := by
  constructor
  · intro settles
    exact settles amounts a [] rfl low nofun
  · intro zero before b after same _ high
    rcases List.eq_nil_or_concat after with rfl | ⟨rest, last, rfl⟩
    · obtain ⟨same, -⟩ := List.append_inj' same rfl
      rw [← same, zero]
    · rw [List.concat_eq_append] at same high
      rw [← List.cons_append, ← List.append_assoc] at same
      obtain ⟨-, same⟩ := List.append_inj' same rfl
      obtain rfl := List.singleton_inj.mp same
      have positive := high a (List.mem_append_right _ (List.mem_singleton_self a))
      omega

/-- A player who does not win resets the house total to his own result. -/
theorem foldl_addSystemScore (amounts : List Int) :
    amounts.foldl addSystemScore 0 = -amounts.sum ↔ SettlesHouse amounts := by
  induction amounts using List.reverseRecOn with
  | nil => exact iff_of_true rfl fun before a after same => absurd same.symm (List.append_ne_nil_of_right_ne_nil _ nofun)
  | append_singleton rest a ih =>
    rw [List.foldl_append, List.foldl_cons, List.foldl_nil, List.sum_append, List.sum_singleton, addSystemScore]
    rcases lt_or_ge 0 a with positive | low
    · rw [if_pos positive, settlesHouse_snoc_pos positive, ← ih]
      constructor <;> intro same <;> omega
    · rw [if_neg (Int.not_lt.mpr low), settlesHouse_snoc_nonpos low]
      constructor <;> intro same <;> omega

/-- The chairs in the order in which they are settled. -/
def settleOrder (s : Table) : List Nat := Tally.keys s.seatEntries

theorem systemScore_eq (r : Round) (s : Table) :
    s.systemScore r = ((s.settleOrder.filter r.cbRealPlayer).map s.addScore).foldl addSystemScore 0 := by
  rw [systemScore, scoreInfoVec, Tally.slots_collect, List.filter_map, List.map_map, settleOrder]
  congr 1
  apply List.map_congr_left
  intro c _
  exact (congrArg Prod.fst (Tally.get_collect s.seatEntries c)).symm

/-- The slots of the real players carry all their scores. -/
theorem sum_settled (staked : Staked r s) :
    ((s.settleOrder.filter r.cbRealPlayer).map s.addScore).sum =
      ∑ c ∈ Finset.range 5 with r.cbRealPlayer c = true, s.addScore c := by
  have nodup : (s.settleOrder.filter r.cbRealPlayer).Nodup := (Tally.nodup_keys _).filter _
  rw [← List.sum_toFinset _ nodup]
  apply Finset.sum_subset
  · intro c member
    obtain ⟨settled, real⟩ := List.mem_filter.mp (List.mem_toFinset.mp member)
    obtain ⟨score, entry⟩ := (Tally.mem_keys _).mp settled
    obtain ⟨i, seat, same⟩ := List.mem_map.mp entry
    obtain ⟨-, active⟩ := List.mem_filter.mp seat
    obtain rfl : s.master i = c := congrArg Prod.fst same
    have bound := r.chairs _ (staked.owner i active).2.1
    exact Finset.mem_filter.mpr ⟨Finset.mem_range.mpr bound, real⟩
  · intro c member absent
    have new : c ∉ Tally.keys s.seatEntries := fun settled =>
      absent (List.mem_toFinset.mpr (List.mem_filter.mpr ⟨settled, (Finset.mem_filter.mp member).2⟩))
    rw [addScore, Tally.get_collect, Tally.total_of_notMem _ new]
    rfl

/-! ## The ledger -/

/-- A stake on the banker's seat is given back. -/
def BankerSeatPushes (s : Table) : Prop := (s.hands 5).isactivated = true → s.handResult 5 = 0

/-- The real players before the last of them who does not win have won and lost the same. -/
def HouseSettles (r : Round) (s : Table) : Prop :=
  SettlesHouse ((s.settleOrder.filter r.cbRealPlayer).map fun c => s.userResult (r.dwPlayUserID c))

/-- Every user is settled for exactly his hands when a stake on the banker's seat is a push. -/
theorem user_settled_iff (sound : Sound r s) (ended : s.cbGameStatus = .gameEnd) (exact_ : s.FloatExact) :
    (∀ c, r.bPlayStatus c = true → s.addScore c = s.userResult (r.dwPlayUserID c)) ↔ s.BankerSeatPushes := by
  constructor
  · intro settled active
    obtain ⟨-, plays, user, -⟩ := sound.staked.owner 5 active
    have paid := settled _ plays
    rw [addScore_eq sound ended exact_ plays, if_pos ⟨active, user⟩] at paid
    omega
  · intro pushes c plays
    rw [addScore_eq sound ended exact_ plays]
    split
    next mine => rw [pushes mine.1, sub_zero]
    next => exact sub_zero _

/-- At the end of every round the ledger is right exactly when a stake on the banker's seat is a push
and the real players before the last of them who does not win have won and lost the same. -/
theorem ledger_iff {ok : Table → Event → Prop} {events : List Event} (run : Run (step r) ok r.opened events s)
    (ended : s.cbGameStatus = .gameEnd) (exact_ : s.FloatExact) :
    Ledger r s ↔ s.BankerSeatPushes ∧ HouseSettles r s := by
  have sound := sound_of_run run
  have users := user_settled_iff sound ended exact_
  have plays : ∀ c ∈ s.settleOrder.filter r.cbRealPlayer, r.bPlayStatus c = true := fun c member => by
    obtain ⟨score, entry⟩ := (Tally.mem_keys _).mp (List.mem_filter.mp member).1
    obtain ⟨i, seat, same⟩ := List.mem_map.mp entry
    obtain rfl : s.master i = c := congrArg Prod.fst same
    exact (sound.staked.owner i (List.mem_filter.mp seat).2).2.1
  have house : (∀ c, r.bPlayStatus c = true → s.addScore c = s.userResult (r.dwPlayUserID c)) →
      (s.systemScore r = -∑ c ∈ Finset.range 5 with r.cbRealPlayer c = true, s.addScore c ↔ HouseSettles r s) := by
    intro settled
    have scores : (s.settleOrder.filter r.cbRealPlayer).map s.addScore =
        (s.settleOrder.filter r.cbRealPlayer).map fun c => s.userResult (r.dwPlayUserID c) :=
      List.map_congr_left fun c member => settled c (plays c member)
    rw [systemScore_eq, ← sum_settled sound.staked, foldl_addSystemScore, scores, HouseSettles]
  constructor
  · rintro ⟨user, system⟩
    exact ⟨users.mp user, (house user).mp system⟩
  · rintro ⟨pushes, settles⟩
    have user := users.mpr pushes
    exact ⟨user, (house user).mpr settles⟩

/-! ## A round of two real players -/

/-- Two real players with a thousand coins each. -/
def twoPlayers : Round where
  bPlayStatus c := c == 0 || c == 1
  dwPlayUserID c := c + 1
  cbRealPlayer c := c == 0 || c == 1
  llUserSourceScore _ := 1000
  floorScore := 10
  ceilScore := 1000
  revenueRatio := 5
  chairs c plays := by
    simp only [Bool.or_eq_true, beq_iff_eq] at plays
    omega
  known c _ := by omega
  distinct c d _ _ same := by omega
  solvent _ _ := by decide

/-- A blackjack for the first player, 16 points for the second and 19 for the banker. -/
def naturalShoe : Shoe where
  dealt i := if i = 0 then (0x01, 0x0A) else if i = 1 then (0x1A, 0x16) else (0x2A, 0x29)
  changed _ := none
  drawn _ := 0x05

/-- Both stake a hundred; the first has a blackjack, the second stops at 16. -/
def naturalRound : List Event :=
  [.message 0 (.addScore 100 (-1)) naturalShoe, .message 1 (.addScore 100 (-1)) naturalShoe,
    .message 0 .endScore naturalShoe, .message 1 .endScore naturalShoe, .message 1 (.operate operStop) naturalShoe]

def naturalEnd : Table := (Lib.replay (step twoPlayers) twoPlayers.opened naturalRound).getD twoPlayers.opened

theorem natural_replay : Lib.replay (step twoPlayers) twoPlayers.opened naturalRound = some naturalEnd := by
  have reached : (Lib.replay (step twoPlayers) twoPlayers.opened naturalRound).isSome = true := by decide +kernel
  obtain ⟨s, same⟩ := Option.isSome_iff_exists.mp reached
  rw [naturalEnd, same]
  rfl

theorem natural_ended : naturalEnd.cbGameStatus = .gameEnd := by decide +kernel

theorem natural_small : naturalEnd.SmallStakes := by
  unfold SmallStakes
  decide +kernel

theorem ledger_iff_natural : Ledger twoPlayers naturalEnd ↔
    naturalEnd.BankerSeatPushes ∧ HouseSettles twoPlayers naturalEnd :=
  ledger_iff (Lib.run_of_replay natural_replay) natural_ended natural_small.floatExact

/-- The loser overwrites what the house has paid for the blackjack. -/
theorem natural_overwrites : ¬∀ (r : Round) (events : List Event) (s : Table),
    Lib.Run (step r) (fun _ _ => True) r.opened events s → s.cbGameStatus = .gameEnd → s.FloatExact → Ledger r s := by
  intro right
  have house := (right twoPlayers naturalRound naturalEnd (Lib.run_of_replay natural_replay) natural_ended
    natural_small.floatExact).house
  have booked : naturalEnd.systemScore twoPlayers = 100 := by decide +kernel
  have paid : ∑ c ∈ Finset.range 5 with twoPlayers.cbRealPlayer c = true, naturalEnd.addScore c = 50 := by decide +kernel
  omega

end Table

end H5Server.Hjk
