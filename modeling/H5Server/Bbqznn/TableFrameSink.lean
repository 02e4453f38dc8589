import H5Server.Bbqznn.Settlement
import H5Server.Lib.Runs
import H5Server.Lib.Sweep
import H5Server.Lib.Places
import Mathlib.Data.Fin.VecNotation

/-! # The phases of a round of hundred-change niuniu (`CTableFrameSink`)

The playing seats call for the bank, bet on their hand and open it. A phase ends when all have acted; its
timer, which is armed once at the beginning of the phase, acts for those who have not. Quotients are exact
integers. The seats and their balances do not change during a round. How the hands are dealt and compared is a
parameter; messages to the clients, replays and the timers outside a round are left out.
-/

namespace H5Server.Bbqznn

open Lib

abbrev Chair := Fin 4

/-- `CT_MAXCOUNT` types of hands. -/
abbrev CardType := Fin 18

/-- The room, the seats when the round starts, and the hands. -/
structure Game where
  floorScore : ℤ
  enterMinScore : ℤ
  /-- `m_pGameRoomInfo->jettons` -/
  jettons : List ℤ
  bankerMultiple : Fin 3 → ℕ
  typeMultiple : ℕ → ℤ
  playSixChooseFive : Bool
  playStatus : Chair → Bool
  /-- the balance of who sits there -/
  userScore : Chair → Option ℤ
  maxCardType : Chair → CardType
  /-- `AnalyseCardEx` or `AnalyseForBlacklist` may deal the hands again. -/
  analyseCard : (Chair → CardType) → Chair → CardType
  compareCard : Chair → Bool
  seated : ∀ i, playStatus i = true → (userScore i).isSome

inductive Status
  | call | score | open_ | end_
  deriving DecidableEq

structure Table where
  status : Status
  /-- the timer of the phase is running -/
  armed : Bool
  callBanker : Chair → ℤ
  addScore : Chair → ℤ
  cardType : Chair → ℤ
  maxCardType : Chair → CardType
  bankerUser : Option Chair
  jettonable : Chair → Fin 5 → ℤ
  concluded : List (Conclusion 4)

namespace Game

variable (g : Game)

def score (i : Chair) : ℤ := (g.userScore i).getD 0

def playing : List Chair := (List.finRange 4).filter fun i => g.playStatus i

def playCount : ℕ := g.playing.length

/-- `jsize`, a `uint8_t`. -/
def jsize : ℕ := g.jettons.length % 256

/-- `m_cbJettonMultiple`, as `SetTableFrame` overwrites it. -/
def jettonMultiple (i : Fin 5) : ℤ := if i < g.jsize then g.jettons.getD i 0 else ![1, 5, 8, 11, 15] i

/-- `SetTableFrame` does not write outside `m_cbJettonMultiple`. -/
def Loads : Prop := g.jsize ≤ 5

/-- `m_cbCallable`, as `OnGameStart` fills it. -/
def callable (i : Chair) (j : Fin 3) : ℤ :=
  if ¬g.playStatus i then 0
  else if j = 0 then g.bankerMultiple 0
  else if g.bankerMultiple j ≤ (g.score i).tdiv (g.floorScore * 8 * (g.playCount - 1)) then g.bankerMultiple j
  else -g.bankerMultiple j

/-- The richest of the users, if one of them has anything. -/
def richest (users : List Chair) : Option Chair :=
  (users.foldl (fun (best : Option Chair × ℤ) i => if best.2 < g.score i then (some i, g.score i) else best)
    (none, 0)).1

def randBanker : Chair := (g.richest g.playing).getD 0

end Game

def onGameStart (g : Game) : Table where
  status := .call
  armed := true
  callBanker _ := -1
  addScore _ := -1
  cardType _ := -1
  maxCardType := g.maxCardType
  bankerUser := none
  jettonable _ _ := 0
  concluded := []

variable (g : Game)

/-! ## The bank -/

/-- `wCallBankerUser[level]` -/
def callBankerUser (t : Table) (level : ℕ) : List Chair :=
  g.playing.filter fun i => t.callBanker i ≠ 0 ∧ t.callBanker i = level

/-- The users with the highest call, from a level down. -/
def topCallers (t : Table) : ℕ → List Chair
  | 0 => callBankerUser g t 0
  | level + 1 => if callBankerUser g t (level + 1) ≠ [] then callBankerUser g t (level + 1) else topCallers t level

/-- The banker by the calls; the levels end below `MAX_BANKER_CALL`. -/
def calledBanker (t : Table) : Option Chair :=
  match topCallers g t 4 with
  | [user] => some user
  | users => g.richest users

/-- `m_cbJettonable` of a player against the banker; an amount is stored in 32 bits. -/
def jettonableOf (callBanker : ℤ) (banker : ℤ) (player : ℤ) (i : Fin 5) : ℤ :=
  let maxBankerCallTimes := banker.tdiv (g.floorScore * (g.playCount - 1) * callBanker)
  let maxPlayerCallTimes := player.tdiv (g.floorScore * callBanker)
  let callMaxTimes := if maxBankerCallTimes < maxPlayerCallTimes then maxBankerCallTimes else maxPlayerCallTimes
  let top := if 5 < g.jsize then 5 else g.jsize
  if g.jettonMultiple (Fin.ofNat 5 (top - 1)) ≤ callMaxTimes then (g.jettonMultiple i).bmod (2 ^ 32)
  else if g.jettonMultiple i ≤ callMaxTimes then (g.jettonMultiple i).bmod (2 ^ 32)
  else 0

/-- All have called: the banker is chosen, and the others may bet. There is no result where the source reads
outside an array or uses an empty seat. -/
def chooseBanker (t : Table) : Option Table :=
  if (∃ i ∈ g.playing, 5 ≤ t.callBanker i) ∨ g.jsize = 0 then none
  else
    let bankerUser := (calledBanker g t).getD g.randBanker
    let callBanker :=
      if calledBanker g t = none then Function.update t.callBanker bankerUser (g.bankerMultiple 0) else t.callBanker
    (g.userScore bankerUser).map fun bankerScore =>
      { t with
        status := .score
        armed := true
        callBanker
        bankerUser := some bankerUser
        jettonable := fun j i =>
          if g.playStatus j ∧ j ≠ bankerUser then jettonableOf g (callBanker bankerUser) bankerScore (g.score j) i
          else 0 }

def onUserCallBanker (t : Table) (chairId : Chair) (callFlag : ℤ) : Option Table :=
  if t.callBanker chairId ≠ -1 then some t
  else if callFlag < 0 then some t
  else if callFlag ≠ 0 ∧ ∀ j, g.callable chairId j ≠ callFlag then some t
  else
    let t := { t with callBanker := Function.update t.callBanker chairId callFlag }
    if (g.playing.filter fun i => t.callBanker i ≠ -1).length = g.playCount then chooseBanker g t else some t

/-! ## The bets -/

def onUserAddScore (t : Table) (chairId : Chair) (jettonIndex : ℤ) : Option Table :=
  if t.bankerUser = some chairId then some t
  else if t.addScore chairId ≠ -1 then some t
  else if jettonIndex < 0 ∨ 5 ≤ jettonIndex then some t
  else if t.jettonable chairId (Fin.ofNat 5 jettonIndex.toNat) ≤ 0 then some t
  else
    let t := { t with addScore := Function.update t.addScore chairId jettonIndex }
    if (g.playing.filter fun i => t.bankerUser ≠ some i ∧ t.addScore i ≠ -1).length + 1 = g.playCount then
      some { t with status := .open_, armed := true, maxCardType := g.analyseCard t.maxCardType }
    else some t

/-! ## The hands -/

/-- What `NormalGameEnd` settles. -/
def conclusion (t : Table) (bankerUser : Chair) : Conclusion 4 where
  bankerUser
  playStatus := g.playStatus
  userScore := g.userScore
  cellScore := g.floorScore
  bankerMultiple := t.callBanker bankerUser
  userJettonMultiple i := t.jettonable i (Fin.ofNat 5 (t.addScore i).toNat)
  cardMultiple i := g.typeMultiple (t.cardType i).toNat
  bankerWins := g.compareCard

def onEventGameConclude (t : Table) : Option Table :=
  t.bankerUser.map fun bankerUser =>
    { t with status := .end_, armed := false, concluded := t.concluded ++ [conclusion g t bankerUser] }

def onUserOpenCard (t : Table) (chairId : Chair) : Option Table :=
  if t.cardType chairId ≠ -1 ∧ ¬g.playSixChooseFive then some t
  else
    let t := { t with cardType := Function.update t.cardType chairId (t.maxCardType chairId) }
    if (g.playing.filter fun i => t.cardType i ≠ -1).length = g.playCount then onEventGameConclude g t else some t

/-! ## The timers -/

/-- A playing seat that has not called, bet or opened. -/
def Waiting (acted : Table → Chair → ℤ) (t : Table) (i : Chair) : Prop := g.playStatus i ∧ acted t i = -1

instance (acted : Table → Chair → ℤ) (t : Table) (i : Chair) : Decidable (Waiting g acted t i) :=
  inferInstanceAs (Decidable (_ ∧ _))

def autoUserCallBanker (t : Table) : Option Table :=
  sweep (Waiting g Table.callBanker) (onUserCallBanker g · · 0) (List.finRange 4) t

def autoUserAddScore (t : Table) : Option Table :=
  sweep (Waiting g Table.addScore) (onUserAddScore g · · 0) (List.finRange 4) t

def autoUserOpenCard (t : Table) : Option Table :=
  sweep (Waiting g Table.cardType) (onUserOpenCard g) (List.finRange 4) t

/-- `GameTimerCallBanker`, `GameTimerAddScore` and `GameTimerOpenCard`. -/
def gameTimer (t : Table) : Option Table :=
  if t.armed then
    let t := { t with armed := false }
    match t.status with
    | .call => autoUserCallBanker g t
    | .score => autoUserAddScore g t
    | .open_ => autoUserOpenCard g t
    | .end_ => none
  else none

/-! ## Messages and runs -/

inductive Event
  | callBanker (chairId : Chair) (callFlag : ℤ)
  | addScore (chairId : Chair) (jettonIndex : ℤ)
  | openCard (chairId : Chair)
  | timer

/-- `OnGameMessage`, or the expiry of the timer. -/
def step (t : Table) : Event → Option Table
  | .callBanker i callFlag =>
    if t.status ≠ .call then some t else if ¬g.playStatus i then some t else onUserCallBanker g t i callFlag
  | .addScore i jettonIndex =>
    if t.status ≠ .score then some t else if ¬g.playStatus i then some t else onUserAddScore g t i jettonIndex
  | .openCard i =>
    if g.playSixChooseFive then some t else if t.status ≠ .open_ then some t else if ¬g.playStatus i then some t
    else onUserOpenCard g t i
  | .timer => gameTimer g t

end H5Server.Bbqznn
