import H5Server.Hjk.Hand
import H5Server.Lib.Floats
import H5Server.Lib.Runs
import H5Server.Lib.Tally
import Mathlib.Logic.Function.Basic

/-! # A round of blackjack (`GameProcess.cpp`)

From the opened bets to `OnEventGameConclude`: every client message and every timer. The cards that
`GetOneCard` hands out and the hands that `AnalyseStartCard` changes are choices of the event. Timer
ids, replays and the packets sent to the clients are left out; a refused request leaves the state.
-/

namespace H5Server.Hjk

/-- `GAME_STATUS_BET` and later. -/
inductive GameStatus where
  | bet | insure | play | gameEnd
deriving DecidableEq, Repr

/-- What is fixed when the bets open: the players by chair, their scores and the room. -/
structure Round where
  bPlayStatus : Nat → Bool
  dwPlayUserID : Nat → Int
  cbRealPlayer : Nat → Bool
  llUserSourceScore : Int → Int
  floorScore : Nat
  ceilScore : Nat
  revenueRatio : Nat
  chairs : ∀ c, bPlayStatus c = true → c < 5
  known : ∀ c, bPlayStatus c = true → dwPlayUserID c ≠ 0
  distinct : ∀ c d, bPlayStatus c = true → bPlayStatus d = true → dwPlayUserID c = dwPlayUserID d → c = d
  solvent : ∀ c, bPlayStatus c = true → 0 ≤ llUserSourceScore (dwPlayUserID c)

structure Table where
  cbGameStatus : GameStatus
  hands : Nat → Hand
  cbHandCardData : Nat → Nat × Nat
  currentHand : Option Nat
  wCurrentUser : Nat
  bSettled : Nat → Bool
  lTableScore : Nat → Int
  lUserInsure : Nat → Nat
  wUserBets : Int → Int
  /-- `GETag` of the conclusion. -/
  tag : Nat

/-- The cards of one step: the first two of each hand, the card that replaces one of them, and the
cards drawn later. -/
structure Shoe where
  dealt : Nat → Nat × Nat
  changed : Nat → Option Nat
  drawn : Nat → Nat

/-- `OnTimerLockPlayingOver`: the bets open. -/
def Round.opened (r : Round) : Table where
  cbGameStatus := .bet
  hands i := if r.bPlayStatus i then { userId := r.dwPlayUserID i } else {}
  cbHandCardData _ := (0, 0)
  currentHand := some 0
  wCurrentUser := 0
  bSettled _ := false
  lTableScore _ := 0
  lUserInsure _ := 0
  wUserBets _ := 0
  tag := 0

namespace Table

/-- The chair that plays a hand. -/
def master (s : Table) (index : Nat) : Nat := (s.hands index).masterChair.getD (index % 6)

def getCurrentUserScore (s : Table) (r : Round) (wChairID : Nat) : Int :=
  if wChairID ≠ 5 ∧ wChairID ≤ 12 then
    max 0 (r.llUserSourceScore (s.hands wChairID).userId - s.wUserBets (s.hands wChairID).userId)
  else 0

def setHand (s : Table) (index : Nat) (hand : Hand) : Table :=
  { s with hands := Function.update s.hands index hand }

def charge (s : Table) (userId : Int) (score : Int) : Table :=
  { s with wUserBets := Function.update s.wUserBets userId (s.wUserBets userId + score) }

/-- `OnEventGameConclude`: the hands stay as they are until the scores have been computed. -/
def onEventGameConclude (s : Table) (tag : Nat) : Table := { s with cbGameStatus := .gameEnd, tag := tag }

/-! ## Playing on -/

/-- The loop of `BankerDeal`; three cards complete the banker's hand. -/
def drawBanker (shoe : Shoe) : Nat → Hand → Hand
  | 0, hand => hand
  | fuel + 1, hand =>
    if hand.cardpoint < 17 ∧ hand.stopped = false then
      drawBanker shoe fuel
        (({ hand with cardcount := hand.cardcount + 1 } : Hand).updateAddOne 5 (shoe.drawn hand.cardcount))
    else hand

def bankerDeal (s : Table) (shoe : Shoe) : Table :=
  (s.setHand 5 (drawBanker shoe 3 (s.hands 5))).onEventGameConclude 1

/-- The search of `updateNext`: the first activated hand of the chain that has not stopped. -/
def searchNext (s : Table) : Nat → Option Nat → Option Nat
  | fuel + 1, some k =>
    if (s.hands k).isactivated = false ∨ (s.hands k).stopped = true then searchNext s fuel (nextHand k) else some k
  | _, _ => none

def updateNext (s : Table) (shoe : Shoe) : Table :=
  match s.searchNext 11 (s.currentHand.bind nextHand) with
  | some k => { s with currentHand := some k, wCurrentUser := s.master k }
  | none => bankerDeal { s with currentHand := none } shoe

/-- `m_GameLogic.UpdateInit` on the cards dealt and, where `ChangeGoodPai` has replaced a card, again. -/
def dealHand (shoe : Shoe) (index : Nat) (hand : Hand) : Hand × (Nat × Nat) :=
  let cards := shoe.dealt index
  match shoe.changed index with
  | none => (hand.updateInit index cards, cards)
  | some card =>
    let first := getCardLogicValue cards.1
    let cards' := if first = 1 ∨ 8 ≤ first then (card, cards.2) else (cards.1, card)
    ((hand.updateInit index cards).updateInit index cards', cards')

/-- Two cards for the banker and every activated hand. -/
def dealCards (s : Table) (shoe : Shoe) : Table :=
  let deals (i : Nat) : Bool := decide (i < 6) && ((s.hands i).isactivated || i == 5)
  { s with
    hands := fun i => if deals i then (dealHand shoe i (s.hands i)).1 else s.hands i
    cbHandCardData := fun i => if deals i then (dealHand shoe i (s.hands i)).2 else s.cbHandCardData i }

/-- Play starts with the current hand, or the next one when it has stopped. -/
def startPlay (s : Table) (shoe : Shoe) : Table :=
  match s.currentHand with
  | some k => if (s.hands k).stopped then ({ s with cbGameStatus := .play } : Table).updateNext shoe
    else { s with cbGameStatus := .play }
  | none => s

/-- `InitDealCards`; the search for the first activated hand does not end when there is none. -/
def initDealCards (s : Table) (shoe : Shoe) : Option Table :=
  if s.cbGameStatus ≠ .bet then some s
  else
    let s := s.dealCards shoe
    match (List.range 6).find? fun i => (s.hands i).isactivated with
    | none => none
    | some k =>
      let s := { s with currentHand := some k, wCurrentUser := s.master k }
      if getCardLogicValue (s.cbHandCardData 5).1 = 1 then some { s with cbGameStatus := .insure }
      else some (s.startPlay shoe)

/-! ## Betting -/

/-- `allBeted` of `OnUserEndScore`: everybody has ended his bets. -/
def AllSettled (s : Table) (r : Round) : Prop := ∀ i < 5, r.bPlayStatus i = true → s.bSettled i = true

/-- `allBeted` of `OnUserAddScore`: every seat is staked. -/
def AllBeted (s : Table) : Prop := ∀ i < 5, s.lTableScore i ≠ 0

instance (s : Table) (r : Round) : Decidable (s.AllSettled r) := inferInstanceAs (Decidable (∀ i < 5, _))

instance (s : Table) : Decidable s.AllBeted := inferInstanceAs (Decidable (∀ i < 5, _))

/-- `OnUserEndScore`. -/
def onUserEndScore (s : Table) (r : Round) (shoe : Shoe) (wChairID : Nat) : Option Table :=
  if s.cbGameStatus ≠ .bet ∨ s.bSettled wChairID = true ∨ s.lTableScore wChairID = 0 then some s
  else
    let s := { s with bSettled := Function.update s.bSettled wChairID true }
    if s.AllSettled r then s.initDealCards shoe else some s

/-- The seat a request is about; `-1` is the own one. -/
def seatOf (wChairID : Nat) (betSeat : Int) : Nat := if betSeat = -1 then wChairID else betSeat.toNat

/-- The staked hand: the player takes over a seat that is free. -/
def betHand (s : Table) (r : Round) (wChairID : Nat) (betSeat : Int) (lScore : Int) : Hand :=
  let hand := s.hands (seatOf wChairID betSeat)
  { hand with
    userId := if hand.userId = 0 then r.dwPlayUserID wChairID else hand.userId
    betscore := lScore.toNat
    isactivated := true
    masterChair := if betSeat ≠ -1 ∧ betSeat ≠ wChairID then some wChairID else hand.masterChair }

/-- The end of `OnUserAddScore`: the hand is staked and its user charged. -/
def placeBet (s : Table) (r : Round) (wChairID : Nat) (betSeat : Int) (lScore : Int) : Table :=
  let hand := s.betHand r wChairID betSeat lScore
  { (s.setHand (seatOf wChairID betSeat) hand).charge hand.userId lScore with
    lTableScore := Function.update s.lTableScore (seatOf wChairID betSeat) lScore }

/-- What `OnUserAddScore` refuses. -/
def RefusesBet (s : Table) (r : Round) (wChairID : Nat) (lScore : Int) (betSeat : Int) : Prop :=
  s.bSettled wChairID = true ∨ 5 < wChairID ∨ (betSeat ≠ -1 ∧ (betSeat < 0 ∨ 5 < betSeat)) ∨
  (betSeat ≠ -1 ∧ betSeat ≠ wChairID ∧ (r.bPlayStatus betSeat.toNat = true ∨
    (s.hands betSeat.toNat).isactivated = true ∨ s.lTableScore wChairID = 0)) ∨
  lScore ≤ 0 ∨ lScore < r.floorScore ∨ s.getCurrentUserScore r wChairID < min lScore r.ceilScore ∨
  (s.hands (seatOf wChairID betSeat)).betscore ≠ 0

instance (s : Table) (r : Round) (wChairID : Nat) (lScore betSeat : Int) :
    Decidable (s.RefusesBet r wChairID lScore betSeat) := by
  unfold RefusesBet
  infer_instance

/-- `OnUserAddScore`: a stake above the ceiling is cut; when all five seats are staked the cards are dealt. -/
def onUserAddScore (s : Table) (r : Round) (shoe : Shoe) (wChairID : Nat) (lScore : Int) (betSeat : Int) :
    Option Table :=
  if s.RefusesBet r wChairID lScore betSeat then some s
  else
    let s := s.placeBet r wChairID betSeat (min lScore r.ceilScore)
    if s.AllBeted then s.initDealCards shoe else some s

/-- `OnTimerAddScore`: the cell score is staked for those who have not staked. -/
def onTimerAddScore (s : Table) (r : Round) (shoe : Shoe) : Option Table := do
  let s ← (List.range 5).foldlM (fun s i =>
    if s.lTableScore i = 0 ∧ r.bPlayStatus i = true then s.onUserAddScore r shoe i r.floorScore (-1) else some s) s
  s.initDealCards shoe

/-! ## Insurance -/

def setInsure (s : Table) (seat choice : Nat) : Table :=
  { s with lUserInsure := Function.update s.lUserInsure seat choice }

/-- The choice of `OnUserInsure`: the sender's rest is checked, the hand's user is charged. -/
def insureHand (s : Table) (r : Round) (wChairID : Nat) (buy : Bool) (seat : Nat) : Table :=
  let hand := s.hands seat
  if buy = true ∧ ((hand.betscore / 2 : Nat) : Int) ≤ s.getCurrentUserScore r wChairID then
    ((s.setHand seat hand.insured).charge hand.userId (hand.betscore / 2 : Nat)).setInsure seat 1
  else s.setInsure seat 2

def AllInsured (s : Table) : Prop := ∀ i < 5, (s.hands i).isactivated = true → s.lUserInsure i ≠ 0

def SomeInsured (s : Table) : Prop := ∃ i < 5, (s.hands i).isactivated = true ∧ s.lUserInsure i = 1

instance (s : Table) : Decidable s.AllInsured := inferInstanceAs (Decidable (∀ i < 5, _))

instance (s : Table) : Decidable s.SomeInsured := inferInstanceAs (Decidable (∃ i < 5, _))

/-- The rest of `OnUserInsure`: once all have chosen, the banker's blackjack ends the round if somebody is insured. -/
def afterInsure (s : Table) (shoe : Shoe) : Table :=
  if s.AllInsured then
    if s.SomeInsured ∧ getCardLogicValue (s.cbHandCardData 5).2 = 10 then s.onEventGameConclude 2
    else s.startPlay shoe
  else s

/-- `OnUserInsure`; `m_lUserInsure` has no entry for the banker's seat, which the check of the seat lets pass. -/
def onUserInsure (s : Table) (r : Round) (shoe : Shoe) (wChairID : Nat) (buy : Bool) (betSeat : Int) : Option Table :=
  if 5 ≤ wChairID ∨ (betSeat ≠ -1 ∧ (betSeat < 0 ∨ 5 < betSeat)) then some s
  else if betSeat = 5 then none
  else if s.lUserInsure (seatOf wChairID betSeat) ≠ 0 then some s
  else some ((s.insureHand r wChairID buy (seatOf wChairID betSeat)).afterInsure shoe)

/-- `OnTimerInsure`: whoever has not chosen is not insured. -/
def onTimerInsure (s : Table) (r : Round) (shoe : Shoe) : Option Table :=
  (List.range 5).foldlM (fun s i =>
    if s.cbGameStatus = .insure ∧ (s.hands i).isactivated = true ∧ s.lUserInsure i = 0 then
      match (s.hands i).masterChair with
      | none => s.onUserInsure r shoe i false (-1)
      | some master => s.onUserInsure r shoe master false i
    else some s) s

/-! ## Operating a hand -/

/-- `dealOne`. -/
def dealOne (hand : Hand) (shoe : Shoe) (index : Nat) : Hand :=
  ({ hand with cardcount := hand.cardcount + 1 } : Hand).updateAddOne index (shoe.drawn 0)

/-- An ace counts as eleven when the hand is final. -/
def countAce (hand : Hand) : Hand :=
  if hand.hasA = true ∧ hand.cardpoint + 10 ≤ 21 then { hand with cardpoint := hand.cardpoint + 10 } else hand

def handleCall (s : Table) (shoe : Shoe) (index : Nat) : Table :=
  let hand := dealOne (s.hands index) shoe index
  let s := s.setHand index hand
  if hand.stopped then s.updateNext shoe else s

def handleStop (s : Table) (shoe : Shoe) (index : Nat) : Table :=
  (s.setHand index (countAce { s.hands index with stopped := true })).updateNext shoe

/-- The chair whose score pays for doubling or splitting the current hand. -/
def realChair (s : Table) (index : Nat) : Nat := (s.hands index).masterChair.getD s.wCurrentUser

def handleDouble (s : Table) (r : Round) (shoe : Shoe) (index : Nat) : Table :=
  let hand := s.hands index
  if s.getCurrentUserScore r (s.realChair index) < hand.betscore then s
  else
    let doubled := { hand with stopped := true, doubled := true, betscore := hand.betscore * 2 }
    ((s.charge hand.userId hand.betscore).setHand index (countAce (dealOne doubled shoe index))).updateNext shoe

def handleSplit (s : Table) (r : Round) (shoe : Shoe) (index : Nat) : Table :=
  let hand := s.hands index
  let realChair := s.realChair index
  if s.getCurrentUserScore r realChair < hand.betscore then s
  else
    let cards := ((s.cbHandCardData index).1, shoe.drawn 0)
    let cards' := ((s.cbHandCardData index).2, shoe.drawn 1)
    let first := ({ hand with issplited := true } : Hand).updateInit index cards
    let staked : Hand := { s.hands (index + 6) with
      isactivated := true, betscore := hand.betscore, userId := hand.userId, masterChair := some realChair }
    let s := { (s.charge hand.userId hand.betscore).setHand index first with
      cbHandCardData := Function.update (Function.update s.cbHandCardData index cards) (index + 6) cards' }
    let s := s.setHand (index + 6) (staked.updateInit (index + 6) cards')
    if first.stopped then s.updateNext shoe else s

def onUserOperate (s : Table) (r : Round) (shoe : Shoe) (index wOperCode : Nat) : Table :=
  if wOperCode = operCall then s.handleCall shoe index
  else if wOperCode = operDouble then s.handleDouble r shoe index
  else if wOperCode = operSplit then s.handleSplit r shoe index
  else if wOperCode = operStop then s.handleStop shoe index
  else s

/-! ## Messages and timers -/

/-- A client message, as `OnGameMessage` parses it. -/
inductive Message where
  | addScore (dScore : Int) (dSeat : Int)
  | endScore
  | insure (wBuy : Bool) (dSeat : Int)
  | operate (wOperCode : Nat)

inductive Event where
  | message (wChairID : Nat) (msg : Message) (shoe : Shoe)
  | timerAddScore (shoe : Shoe)
  | timerInsure (shoe : Shoe)
  | timerOperate (shoe : Shoe)

/-- `OnGameMessage`, from a chair that plays. -/
def onGameMessage (s : Table) (r : Round) (shoe : Shoe) (wChairID : Nat) : Message → Option Table
  | .addScore dScore dSeat =>
    if s.cbGameStatus = .bet then s.onUserAddScore r shoe wChairID dScore dSeat else some s
  | .endScore => s.onUserEndScore r shoe wChairID
  | .insure wBuy dSeat => if s.cbGameStatus = .insure then s.onUserInsure r shoe wChairID wBuy dSeat else some s
  | .operate wOperCode =>
    if s.cbGameStatus = .play ∧ s.wCurrentUser = wChairID then
      match s.currentHand with
      | some k =>
        if wOperCode % 256 &&& (s.hands k).opercode = 0 then some s
        else some (s.onUserOperate r shoe k (wOperCode % 256))
      | none => some s
    else some s

end Table

open Table in
/-- One message or timer; a timer runs only in the phase it was set for. -/
def step (r : Round) (s : Table) : Event → Option Table
  | .message wChairID msg shoe => if r.bPlayStatus wChairID then s.onGameMessage r shoe wChairID msg else some s
  | .timerAddScore shoe => if s.cbGameStatus = .bet then s.onTimerAddScore r shoe else none
  | .timerInsure shoe => if s.cbGameStatus = .insure then s.onTimerInsure r shoe else none
  | .timerOperate shoe =>
    match s.currentHand with
    | some k => if s.cbGameStatus = .play then some (s.handleStop shoe k) else none
    | none => none

end H5Server.Hjk
