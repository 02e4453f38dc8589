import H5Server.Lib.Circle
import H5Server.Lib.Runs
import H5Server.Zjh.GameLogic
import H5Server.Lib.Places
import Mathlib.Algebra.BigOperators.Fin
import Mathlib.Data.Rat.Floor
import Mathlib.Logic.Function.Basic

/-! # A round of three-card brag (`CGameProcess`)

The players follow, raise, give up, compare their hands or go all in; a timer acts for whoever does not. Each
handler cancels the timer when it is entered and arms it for the next player. A step has no result where an
assertion fails or an array is read outside. Quotients are exact. Messages to the clients, replays, records and
the weights of the robots are left out.
-/

namespace H5Server.Zjh

open Lib

abbrev Chair := Fin 5

/-- What is fixed for a round: the room, and who plays with what (`userinfos_`). -/
structure Round where
  cellScore : ℤ
  jettonList : List ℤ
  players : Chair → Bool
  userScore : Chair → ℤ
  isAndroid : Chair → Bool
  special235 : Bool
  calculateRevenue : ℤ → ℤ

/-- What `OnEventGameConclude` settles, before revenue. -/
structure Settlement where
  winUser : Chair
  userWinScore : Chair → ℤ

/-- The table of a running round. A concluded round keeps the values of its settlement, which `InitGameData`
then clears. -/
structure Table where
  /-- `timerIdWaiting_` is running. -/
  armed : Bool
  existUser : Chair → Bool
  isLooked : Chair → Bool
  isGiveup : Chair → Bool
  isComparedLost : Chair → Bool
  noGiveUpTimeout : Chair → Bool
  bankerUser : Chair
  firstUser : Chair
  currentUser : Option Chair
  currentTurn : ℕ
  isExceed : Bool
  followScore : ℤ
  tableScore : Chair → ℤ
  tableAllScore : ℤ
  /-- the scores in `betinfo_` -/
  betinfo : Chair → List ℤ
  handCards : Chair → Hand
  handCardsType : Chair → HandTy
  madeMaxCards : Hand
  madeMaxCardsType : HandTy
  blastAndroidChangeCard : Bool
  /-- the scores that `WriteSpecialUserScore` adds to the players' scores -/
  written : List (Chair × ℤ)
  settlement : Option Settlement

/-- For two hands that are compared: whether a random number and the control of the stock and of the player
let the last robot change its hand. -/
abbrev Draw := Chair → Chair → Bool

namespace Table

variable (t : Table)

/-- Given up or lost by comparison. -/
def out (i : Chair) : Bool := t.isGiveup i || t.isComparedLost i

def isIn (i : Chair) : Bool := t.existUser i && !t.out i

def leftPlayerCount : ℕ := (List.finRange 5).countP t.isIn

def currentFollowScore (i : Chair) : ℤ := if t.isLooked i then t.followScore * 2 else t.followScore

def currentAddScore (i : Chair) : ℤ := t.currentFollowScore i

def currentCompareScore (i : Chair) : ℤ := t.currentFollowScore i * 2

def getLastBetScore (i : Chair) : ℤ := (t.betinfo i).getD t.currentTurn 0

/-- `GetNextUser` from a seat on. -/
def getNextUser (startUser : Chair) (ignoreCurrentUser : Bool) : Option Chair :=
  ((List.range 5).map (seatAfter startUser)).find? fun i =>
    t.isIn i && !(ignoreCurrentUser && t.currentUser = some i)

def addBet (i : Chair) (score : ℤ) : Table :=
  { t with
    tableScore := Function.update t.tableScore i (t.tableScore i + score)
    tableAllScore := t.tableAllScore + score
    betinfo := Function.update t.betinfo i (t.betinfo i ++ [score]) }

def setComparedLost (i : Chair) : Table := { t with isComparedLost := Function.update t.isComparedLost i true }

def setGiveup (i : Chair) : Table := { t with isGiveup := Function.update t.isGiveup i true }

/-- A banker who is out is replaced by the next player. -/
def moveBanker (lostUser : Chair) : Option Table :=
  if t.bankerUser = lostUser then
    (t.getNextUser (seatAfter t.bankerUser 1) false).map fun next => { t with bankerUser := next }
  else some t

/-- `GetNextUser` for the turn: the seats after the current one, where `firstUser_` begins a new turn. -/
def searchNext (r : Round) : List Chair → ℕ × Bool → Option Chair × ℕ × Bool
  | [], turn => (none, turn)
  | next :: rest, (turn, exceed) =>
    if !r.players next then searchNext r rest (turn, exceed)
    else
      let turn := if next = t.firstUser then if turn + 1 < 20 then (turn + 1, exceed) else (turn, true) else (turn, exceed)
      if t.out next then searchNext r rest turn else (some next, turn)

end Table

/-- `GetCurrentAddStart`, nothing where its assertions fail. -/
def getCurrentAddStart (jettonList : List ℤ) (followScore : ℤ) : Option ℤ :=
  if ¬0 < followScore then none
  else
    match jettonList.idxOf? followScore with
    | none => some (-1)
    | some i =>
      if jettonList.drop (i + 1) = [] then some (-1)
      else if (followScore :: jettonList.drop (i + 1)).IsChain (· < ·) then some (i + 1 : ℕ)
      else none

variable (r : Round) (t : Table) (draw : Draw)

/-- What has been written for a player. -/
def Table.writes (i : Chair) : List ℤ := (t.written.filter fun entry => entry.1 = i).map (·.2)

/-- The balance of who sits there. -/
def scoreByChairId (i : Chair) : ℤ := r.userScore i + (t.writes i).sum

/-- A real player who is out pays at once. -/
def writeLost (i : Chair) : Table :=
  if r.isAndroid i then t else { t with written := t.written ++ [(i, -t.tableScore i)] }

/-! ## Comparisons -/

def compare (i j : Chair) : ℤ := compareHandCards (t.handCards i) (t.handCards j) r.special235

def isNeedChangeCards : Bool :=
  if t.madeMaxCardsType = .ty30 then false
  else if t.madeMaxCardsType = .ty123sc then
    !(9 < getCardPoint ((sortCards getCardPoint t.madeMaxCards).getD 0 0) && t.currentTurn < 8)
  else true

/-- The hand `madeMaxCards_` replaces the hand of a robot. -/
def changeCards (i : Chair) : Table :=
  { t with
    handCards := Function.update t.handCards i t.madeMaxCards
    handCardsType := Function.update t.handCardsType i t.madeMaxCardsType }

/-- The last robot may get a better hand when it would lose. -/
def analyseLastAndroidUser (chairId nextChairId : Chair) : Table :=
  let androidCount := (List.finRange 5).countP fun i => t.isIn i && r.isAndroid i
  if androidCount = 1 ∧ (r.isAndroid chairId ∨ r.isAndroid nextChairId) then
    let bAndroidLost :=
      if 0 < compare r t chairId nextChairId then r.isAndroid nextChairId else r.isAndroid chairId
    if bAndroidLost ∧ draw chairId nextChairId then
      let t := { t with blastAndroidChangeCard := true }
      if r.isAndroid chairId ∧ isNeedChangeCards t then changeCards t chairId
      else if r.isAndroid nextChairId then changeCards t nextChairId
      else t
    else t
  else t

/-- Before every comparison, until a hand has been changed. -/
def analyse (chairId nextChairId : Chair) : Table :=
  if t.blastAndroidChangeCard then t else analyseLastAndroidUser r t draw chairId nextChairId

/-! ## The end of the round -/

def onEventGameConclude : Option Table :=
  match (List.finRange 5).filter t.isIn with
  | [currentUser] =>
    let userWinScore i := if t.out i then -t.tableScore i else t.tableAllScore - t.tableScore i
    if t.bankerUser ≠ currentUser then none
    else if ∃ i, r.players i ∧ r.userScore i < t.tableScore i then none
    else if ∃ i, r.players i ∧ (userWinScore i < 0 ↔ i = currentUser) then none
    else
      let revenue := if 0 < userWinScore currentUser then r.calculateRevenue (userWinScore currentUser) else 0
      let written := if r.isAndroid currentUser then [] else [(currentUser, userWinScore currentUser - revenue)]
      some { t with
        armed := false
        currentUser := none
        written := t.written ++ written
        settlement := some ⟨currentUser, userWinScore⟩ }
  | _ => none

/-- A comparison of the forced showdown: the present winner against the next player. -/
def compareForce (state : Table × Chair) (nextUser : Chair) : Option (Table × Chair) :=
  let (t, winUser) := state
  if !t.existUser nextUser then some state
  else if nextUser = winUser then some state
  else if t.out nextUser then some state
  else if !t.isIn winUser then none
  else
    let t := analyse r t draw winUser nextUser
    if 0 < compare r t nextUser winUser then some (writeLost r (t.setComparedLost winUser) winUser, nextUser)
    else some (writeLost r (t.setComparedLost nextUser) nextUser, winUser)

def onUserCompareCardForce : Option Table :=
  match t.currentUser with
  | none => some t
  | some currentUser =>
    if !t.existUser currentUser then some t
    else if t.out currentUser then some t
    else
      match t.getNextUser currentUser false with
      | none => none
      | some winUser =>
        -- INVALID_CHAIR is a multiple of the number of seats
        let startUser := (t.getNextUser (seatAfter t.bankerUser 1) true).getD 0
        (((List.range 5).map (seatAfter startUser)).foldlM (compareForce r draw) (t, winUser)).bind fun (t, _) =>
          (if t.isComparedLost t.bankerUser then t.moveBanker t.bankerUser else some t).bind (onEventGameConclude r)

/-- The turn goes on, or the hands are compared after the last one. -/
def nextStep : Option Table :=
  match t.currentUser with
  | none => none
  | some currentUser =>
    match t.searchNext r ((List.range 4).map fun i => seatAfter currentUser (i + 1)) (t.currentTurn, false) with
    | (none, _) => none
    | (some nextUser, currentTurn, isExceed) =>
      let t := { t with currentUser := some nextUser, currentTurn, isExceed }
      if !isExceed then (getCurrentAddStart r.jettonList t.followScore).map fun _ => { t with armed := true }
      else onUserCompareCardForce r t draw

/-- After a player is out. -/
def goOn : Option Table := if 2 ≤ t.leftPlayerCount then nextStep r t draw else onEventGameConclude r t

/-! ## The actions -/

/-- `chairId` has the turn and is still in. -/
def hasTurn (chairId : Chair) : Bool := t.isIn chairId && t.currentUser = some chairId

/-- The opponents of an all-in up to the first that beats it. -/
def compareAllIn (chairId : Chair) : List Chair → Table → Table
  | [], t => t
  | nextChairId :: rest, t =>
    if !t.existUser nextChairId then compareAllIn chairId rest t
    else if nextChairId = chairId then compareAllIn chairId rest t
    else if t.out nextChairId then compareAllIn chairId rest t
    else
      let t := analyse r t draw chairId nextChairId
      if compare r t chairId nextChairId < 0 then t.setComparedLost chairId else compareAllIn chairId rest t

/-- What an opponent gets back whose last bet the all-in does not cover. -/
def refund (currentLeftScore currentCompareScore lastBetScore : ℤ) : ℤ :=
  let z : ℚ := lastBetScore * (1 - currentLeftScore / currentCompareScore) + 1 / 2
  z.num.tdiv z.den

/-- An opponent who loses to an all-in. -/
def loseToAllIn (chairId : Chair) (currentLeftScore currentCompareScore : ℤ) (t : Table) (i : Chair) : Table :=
  if !t.existUser i then t
  else if i = chairId then t
  else if t.out i then t
  else
    let t := t.setComparedLost i
    let z := if 0 < t.getLastBetScore i then refund currentLeftScore currentCompareScore (t.getLastBetScore i) else 0
    writeLost r
      { t with
        tableScore := Function.update t.tableScore i (t.tableScore i - z)
        tableAllScore := t.tableAllScore - z } i

def onUserAllIn (chairId startChairId : Chair) : Option Table :=
  let t := { t with armed := false }
  if !hasTurn t chairId || !t.isIn startChairId then some t
  else if chairId = startChairId then some t
  else
    let currentCompareScore := t.currentCompareScore chairId
    if currentCompareScore + t.tableScore chairId < scoreByChairId r t chairId then some t
    else
      let currentLeftScore := scoreByChairId r t chairId - t.tableScore chairId
      if currentLeftScore < 0 then some t
      else
        let t := compareAllIn r draw chairId ((List.range 5).map (seatAfter startChairId)) t
        let t := t.addBet chairId currentLeftScore
        if !t.isComparedLost chairId then
          let lost := (List.finRange 5).foldl (loseToAllIn r chairId currentLeftScore currentCompareScore) t
          if lost.bankerUser ≠ chairId ∧ !lost.isComparedLost lost.bankerUser then none
          else goOn r { lost with bankerUser := chairId } draw
        else (t.moveBanker chairId).bind fun t => goOn r (writeLost r t chairId) draw

/-- All in against the players after `chairId`. -/
def allInNext (chairId : Chair) : Option Table :=
  match t.getNextUser (seatAfter chairId 1) true with
  | none => some t
  | some nextUser => onUserAllIn r t draw chairId nextUser

/-- A bet, or all in where the player cannot pay it. -/
def betOrAllIn (chairId : Chair) (score : ℤ) : Option Table :=
  if scoreByChairId r t chairId ≤ score + t.tableScore chairId then allInNext r t draw chairId
  else nextStep r (t.addBet chairId score) draw

def onUserAddScore (chairId : Chair) (index : ℤ) : Option Table :=
  let t := { t with armed := false }
  if !hasTurn t chairId then some t
  else if index ≤ 0 then betOrAllIn r t draw chairId (t.currentFollowScore chairId)
  else
    (getCurrentAddStart r.jettonList t.followScore).bind fun start =>
      if start ≤ 0 ∨ index < start then
        if r.isAndroid chairId then betOrAllIn r t draw chairId (t.currentFollowScore chairId) else some t
      else if r.jettonList.length ≤ index then some t
      else
        let t := { t with followScore := r.jettonList.getD index.toNat 0 }
        betOrAllIn r t draw chairId (t.currentAddScore chairId)

def onUserCompareCard (chairId nextChairId : Chair) : Option Table :=
  let t := { t with armed := false }
  if !hasTurn t chairId || !t.isIn nextChairId then some t
  else if chairId = nextChairId then some t
  else
    let t := analyse r t draw chairId nextChairId
    let currentCompareScore := t.currentCompareScore chairId
    if scoreByChairId r t chairId ≤ currentCompareScore + t.tableScore chairId then onUserAllIn r t draw chairId nextChairId
    else
      let lostUser := if 0 < compare r t chairId nextChairId then nextChairId else chairId
      ((t.setComparedLost lostUser).moveBanker lostUser).bind fun t =>
        goOn r (writeLost r (t.addBet chairId currentCompareScore) lostUser) draw

def onUserGiveUp (chairId : Chair) (timeout : Bool) : Option Table :=
  match t.currentUser with
  | none => some t
  | some currentUser =>
    if !t.isIn chairId || !t.isIn currentUser then some t
    else if r.isAndroid chairId ∧ (timeout ∨ !t.isLooked chairId) then none
    else
      ((t.setGiveup chairId).moveBanker chairId).bind fun t =>
        let t := writeLost r t chairId
        if 2 ≤ t.leftPlayerCount then
          if chairId ≠ currentUser then (getCurrentAddStart r.jettonList t.followScore).map fun _ => t
          else nextStep r { t with armed := false } draw
        else onEventGameConclude r t

def onUserLookCard (chairId : Chair) : Option Table :=
  match t.currentUser with
  | none => some t
  | some currentUser =>
    if !t.isIn chairId || !t.isIn currentUser then some t
    else if t.isLooked chairId then some t
    else
      (getCurrentAddStart r.jettonList t.followScore).map fun _ =>
        { t with isLooked := Function.update t.isLooked chairId true }

def onUserTimeoutGiveUpSetting (chairId : Chair) (giveup : Bool) : Table :=
  match t.currentUser with
  | none => t
  | some currentUser =>
    if !t.isIn chairId || !t.isIn currentUser then t
    else { t with noGiveUpTimeout := Function.update t.noGiveUpTimeout chairId giveup }

inductive WaitOperate
  | giveup | follow | compare | allin
  deriving DecidableEq

/-- What the timer does for the current player. -/
def timeoutOperate (currentUser : Chair) : WaitOperate :=
  if r.isAndroid currentUser then .compare
  else if t.isLooked currentUser && t.noGiveUpTimeout currentUser then
    if (t.handCardsType currentUser).rank < HandTy.ty123.rank then .giveup
    else if t.currentTurn = 0 then
      if scoreByChairId r t currentUser < t.currentFollowScore currentUser + t.tableScore currentUser then .giveup
      else .follow
    else if scoreByChairId r t currentUser < t.currentCompareScore currentUser + t.tableScore currentUser then .allin
    else .compare
  else .giveup

def onTimerWaitingOver (random : Chair) : Option Table :=
  let t := { t with armed := false }
  match t.currentUser with
  | none => some t
  | some currentUser =>
    if !t.isIn currentUser then some t
    else
      match timeoutOperate r t currentUser with
      | .giveup => onUserGiveUp r t draw currentUser true
      | .follow => onUserAddScore r t draw currentUser (-1)
      | .compare =>
        match t.getNextUser random true with
        | none => some t
        | some nextUser => onUserCompareCard r t draw currentUser nextUser
      | .allin =>
        match t.getNextUser (seatAfter currentUser 1) true with
        | none => some t
        | some nextUser => onUserAllIn r t draw currentUser nextUser

/-! ## Messages and runs -/

inductive Message
  | lookCard (chairId : Chair)
  | giveUp (chairId : Chair)
  | addScore (chairId : Chair) (index : ℤ)
  | compareCard (chairId : Chair) (peerUser : ℕ)
  | allIn (chairId : Chair)
  | giveUpTimeout (chairId : Chair) (giveup : Bool)
  /-- the expiry of the timer, with the random number of `onTimerWaitingOver` -/
  | timer (random : Chair)
  /-- A player leaves the table (`OnUserLeft`). -/
  | left (chairId : Chair)

/-- `SUB_C_ADD_SCORE` -/
def messageAddScore (chairId : Chair) (index : ℤ) : Option Table :=
  if !hasTurn t chairId then some t
  else if index = (r.jettonList.length : ℤ) - 1 then
    match r.jettonList.getLast? with
    | none => none
    | some last => if t.followScore = last then some t else onUserAddScore r t draw chairId index
  else if index = 0 ∨ r.jettonList.length ≤ index then some t
  else onUserAddScore r t draw chairId index

/-- `SUB_C_COMPARE_CARD` -/
def messageCompareCard (chairId : Chair) (peerUser : ℕ) : Option Table :=
  if !hasTurn t chairId then some t
  else if peerUser < 5 ∧ t.existUser (Fin.ofNat 5 peerUser) then
    let peerUser := Fin.ofNat 5 peerUser
    if t.out peerUser then
      if !r.isAndroid chairId then some t
      else
        match t.getNextUser (seatAfter peerUser 1) true with
        | none => some t
        | some nextUser => onUserCompareCard r t draw chairId nextUser
    else onUserCompareCard r t draw chairId peerUser
  else if t.leftPlayerCount = 2 then
    match t.getNextUser (seatAfter chairId 1) true with
    | none => some t
    | some nextUser => onUserCompareCard r t draw chairId nextUser
  else some t

/-- `SUB_C_ALL_IN` -/
def messageAllIn (chairId : Chair) : Option Table :=
  if !hasTurn t chairId then some t else allInNext r t draw chairId

structure Event where
  message : Message
  draw : Draw

/-- `OnGameMessage`, the timer and `OnUserLeft`. -/
def step (event : Event) : Option Table :=
  match event.message with
  | .lookCard i => onUserLookCard r t i
  | .giveUp i => onUserGiveUp r t event.draw i false
  | .addScore i index => messageAddScore r t event.draw i index
  | .compareCard i peerUser => messageCompareCard r t event.draw i peerUser
  | .allIn i => messageAllIn r t event.draw i
  | .giveUpTimeout i giveup => some (onUserTimeoutGiveUpSetting t i giveup)
  | .timer random => if t.armed then onTimerWaitingOver r t event.draw random else none
  | .left i => if t.out i then some { t with existUser := Function.update t.existUser i false } else some t

/-- The hands of a deal. -/
structure Deal where
  handCards : Chair → Hand
  handCardsType : Chair → HandTy
  madeMaxCards : Hand
  madeMaxCardsType : HandTy

/-- `OnGameStart` with the hands that are dealt; the banker is a player. -/
def onGameStart (bankerUser : Chair) (deal : Deal) : Option Table :=
  (((List.range 4).map fun i => seatAfter bankerUser (i + 1)).find? fun i => r.players i).bind fun firstUser =>
    (getCurrentAddStart r.jettonList r.cellScore).map fun _ =>
      { armed := true
        existUser := r.players
        isLooked := fun _ => false
        isGiveup := fun _ => false
        isComparedLost := fun _ => false
        noGiveUpTimeout := fun _ => true
        bankerUser
        firstUser
        currentUser := some firstUser
        currentTurn := 0
        isExceed := false
        followScore := r.cellScore
        tableScore := fun i => if r.players i then r.cellScore else 0
        tableAllScore := ∑ i, if r.players i then r.cellScore else 0
        betinfo := fun _ => []
        handCards := deal.handCards
        handCardsType := deal.handCardsType
        madeMaxCards := deal.madeMaxCards
        madeMaxCardsType := deal.madeMaxCardsType
        blastAndroidChangeCard := false
        written := []
        settlement := none }

end H5Server.Zjh
