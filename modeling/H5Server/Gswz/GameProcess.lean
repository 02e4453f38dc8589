import H5Server.Lib.Circle
import H5Server.Lib.Runs
import H5Server.Lib.Places
import Mathlib.Algebra.BigOperators.Fin
import Mathlib.Data.Fintype.BigOperators

/-! # Five-card stud

A round of betting on one table. The players act in turn; when nobody owes anything any more, the
next card is dealt, and after the fifth one the hands are compared. The amounts are integers without
a bound, because no stake exceeds the balance it is taken from.
-/

namespace H5Server.Gswz

open Lib

abbrev Chair := Fin 5

/-- What is fixed for a round: the cell score, the balances and the cards as far as they are
compared. `shown` compares the open cards of two hands of a given size, `full` all of them. -/
structure Round where
  cellScore : ℤ
  userSourceScore : Chair → ℤ
  jettons0 : ℤ
  limitAllIn : Bool
  shown : ℕ → Chair → Chair → Bool
  full : ℕ → Chair → Chair → Bool

structure Table where
  playing : Bool
  playStatus : Chair → Bool
  currentChairID : Chair
  /-- The stake of the betting round, `-1` before the first action. -/
  currentRoundScore : Chair → ℤ
  tableScore : Chair → ℤ
  allScoreInTable : ℤ
  allInScore : ℤ
  currentJetton : ℤ
  minAddScore : ℤ
  handCardCount : ℕ

/-- The table after a step, with the tables at which a new card or the showdown was reached. Nothing
where an assertion fails. -/
abbrev Outcome := Option (Table × List Table)

inductive Action where
  | giveUp (chair : Chair)
  | passScore (chair : Chair)
  | followScore (chair : Chair)
  | addScore (chair : Chair) (score : ℤ)
  | allIn (chair : Chair)
  | timerAddScore

/-- One chair more in the search for the best hand. -/
def better (beats : Chair → Chair → Bool) (playStatus : Chair → Bool) (best : Option Chair) (i : Chair) : Option Chair :=
  if !playStatus i then best
  else
    match best with
    | none => some i
    | some b => if beats i b then some i else some b

def bestOf (beats : Chair → Chair → Bool) (playStatus : Chair → Bool) : Option Chair :=
  (List.finRange 5).foldl (better beats playStatus) none

/-- One chair more in the search for the smallest balance. Zero stands for a limit not set yet. -/
def lower (source : Chair → ℤ) (playStatus : Chair → Bool) (limit : ℤ) (i : Chair) : ℤ :=
  if playStatus i then
    if limit = 0 then source i else if source i < limit then source i else limit
  else limit

def allInScoreOf (source : Chair → ℤ) (playStatus : Chair → Bool) : ℤ :=
  (List.finRange 5).foldl (lower source playStatus) 0

namespace Table

variable (r : Round) (t : Table)

def getCurrentUserScore (chair : Chair) : ℤ := max (r.userSourceScore chair - t.tableScore chair) 0

def getCanAddMaxScore (chair : Chair) : ℤ := t.allInScore - t.tableScore chair

/-- A playing chair that has staked less than the present stake. -/
def owes (chair : Chair) : Bool := t.playStatus chair && t.currentRoundScore chair < t.currentJetton

def getNextPlayer : Option Chair := nextSeat t.owes t.currentChairID

def getMaxShowCardChairID : Option Chair := bestOf (r.shown t.handCardCount) t.playStatus

def sendBufferCard2HandCard (count : ℕ) : Table :=
  { t with
    handCardCount := t.handCardCount + count
    currentRoundScore := fun _ => -1
    currentJetton := 0
    minAddScore := r.cellScore }

/-- Only the winner is left playing. -/
def handleMorethanRoundEnd : Outcome :=
  (bestOf (r.full t.handCardCount) t.playStatus).map fun winner =>
    ({ t with
        playing := false
        currentChairID := winner
        playStatus := fun i => t.playStatus i && i = winner }, [t])

/-- The turn goes to the best open cards. Where nothing can be staked any more, the next card
follows, which is dealt by `again`. -/
def sendCardWith (again : Table → Outcome) : Outcome :=
  match getMaxShowCardChairID r t with
  | none => none
  | some chair =>
    let t := { t with currentChairID := chair }
    if t.getCanAddMaxScore chair = 0 then
      if t.handCardCount ≠ 5 then
        (again (t.sendBufferCard2HandCard r 1)).map fun (last, reached) => (last, t :: reached)
      else handleMorethanRoundEnd r t
    else some (t, [])

/-- With `left` cards still to come. -/
def sendCard (left : ℕ) (t : Table) : Outcome :=
  match left with
  | 0 => sendCardWith r t fun _ => none
  | left + 1 => sendCardWith r t (sendCard left)

/-- A new card for everybody. -/
def deal : Outcome :=
  (sendCard r (4 - t.handCardCount) (t.sendBufferCard2HandCard r 1)).map fun (last, reached) => (last, t :: reached)

/-- Nobody owes anything. -/
def betsDone : Outcome := if t.handCardCount = 5 then handleMorethanRoundEnd r t else deal r t

/-- The stake of the betting round once it counts. -/
def opened (chair : Chair) : ℤ := if t.currentRoundScore chair = -1 then 0 else t.currentRoundScore chair

/-- A stake goes on the table. -/
def stake (chair : Chair) (score : ℤ) : Table :=
  { t with
    tableScore := Function.update t.tableScore chair (t.tableScore chair + score)
    allScoreInTable := t.allScoreInTable + score
    currentRoundScore := Function.update t.currentRoundScore chair (t.opened chair + score) }

/-- A stake that the others have to meet. -/
def raise (chair : Chair) (score : ℤ) : Table :=
  { t.stake chair score with currentJetton := (t.stake chair score).currentRoundScore chair }

def without (chair : Chair) : Table := { t with playStatus := Function.update t.playStatus chair false }

/-- The limit for the players who are left. -/
def newAllInScore : Table := { t with allInScore := allInScoreOf r.userSourceScore t.playStatus }

def onUserGiveUp (chair : Chair) : Outcome :=
  if !t.playStatus chair || !t.playing then some (t, [])
  else
    let left := t.without chair
    let playerCount := (Finset.univ.filter fun i => left.playStatus i).card
    if playerCount = 1 ∨ (left.getNextPlayer = none ∧ t.handCardCount = 5) then handleMorethanRoundEnd r left
    else
      match left.getNextPlayer with
      | some next => some ({ left.newAllInScore r with currentChairID := next }, [])
      | none => deal r (left.newAllInScore r)

def passed (chair : Chair) : Table := { t with currentRoundScore := Function.update t.currentRoundScore chair 0 }

def onUserPassScore (chair : Chair) : Outcome :=
  if t.currentJetton ≠ 0 then some (t, [])
  else
    match (t.passed chair).getNextPlayer with
    | none => betsDone r (t.passed chair)
    | some next => some ({ t.passed chair with currentChairID := next }, [])

def onUserFollowScore (chair : Chair) : Outcome :=
  if ¬ t.currentRoundScore chair < t.currentJetton then none
  else
    let needScore := t.currentJetton - t.opened chair
    if needScore < 1 then some (t, [])
    else if getCurrentUserScore r t chair < needScore then
      some ({ t with currentRoundScore := Function.update t.currentRoundScore chair (t.opened chair) }, [])
    else
      match (t.stake chair needScore).getNextPlayer with
      | none => betsDone r (t.stake chair needScore)
      | some next => some ({ t.stake chair needScore with currentChairID := next }, [])

def onUserAddScore (chair : Chair) (score : ℤ) : Outcome :=
  if t.currentChairID ≠ chair then some (t, [])
  else if t.minAddScore = 0 then some (t, [])
  else if score < r.jettons0 ∧ r.jettons0 < score then some (t, [])
  else if score < t.minAddScore then some (t, [])
  else if score < 0 then some (t, [])
  else if getCurrentUserScore r t chair < score then some (t, [])
  else if t.getCanAddMaxScore chair < score then some (t, [])
  else
    let t := t.raise chair score
    match t.getNextPlayer with
    | none => none
    | some next =>
      if next = chair then none
      else
        some ({ t with
          currentChairID := next
          minAddScore := r.cellScore + (t.currentRoundScore chair - max (t.currentRoundScore next) 0) }, [])

/-- The amount is unsigned: below zero it would be more than any balance. -/
def onUserAllIn (chair : Chair) : Outcome :=
  if !t.playStatus chair then some (t, [])
  else if t.handCardCount < 4 ∧ r.limitAllIn then some (t, [])
  else
    let score := t.getCanAddMaxScore chair
    if score = 0 then some (t, [])
    else if score < 0 ∨ getCurrentUserScore r t chair < score then some (t, [])
    else
      match (t.raise chair score).getNextPlayer with
      | none => betsDone r (t.raise chair score)
      | some next => some ({ t.raise chair score with currentChairID := next, minAddScore := 0 }, [])

/-- A message counts while the round is played and its sender has the turn. -/
def accepts (chair : Chair) : Bool := t.playing && t.playStatus chair && chair = t.currentChairID

/-- Messages and the expiry of the betting timer. -/
def step : Action → Outcome
  | .giveUp chair => if t.accepts chair then onUserGiveUp r t chair else some (t, [])
  | .passScore chair => if t.accepts chair then onUserPassScore r t chair else some (t, [])
  | .followScore chair => if t.accepts chair then onUserFollowScore r t chair else some (t, [])
  | .addScore chair score => if t.accepts chair then onUserAddScore r t chair score else some (t, [])
  | .allIn chair => if t.accepts chair then onUserAllIn r t chair else some (t, [])
  | .timerAddScore => onUserGiveUp r t t.currentChairID

def next (t : Table) (action : Action) : Option Table := (step r t action).map Prod.fst

/-- The table of the chairs taken, each with the cell score on it and two cards. -/
def seated (playStatus : Chair → Bool) (chair : Chair) : Table where
  playing := true
  playStatus := playStatus
  currentChairID := chair
  currentRoundScore _ := -1
  tableScore i := if playStatus i then r.cellScore else 0
  allScoreInTable := ∑ i, if playStatus i then r.cellScore else 0
  allInScore := allInScoreOf r.userSourceScore playStatus
  currentJetton := 0
  minAddScore := r.cellScore
  handCardCount := 2

def onGameStart (playStatus : Chair → Bool) : Option Table :=
  (bestOf (r.shown 2) playStatus).map (seated r playStatus)

end Table

end H5Server.Gswz
