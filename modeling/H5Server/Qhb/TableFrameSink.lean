import H5Server.Lib.Runs
import Mathlib.Algebra.BigOperators.Group.List.Basic
import Mathlib.Algebra.Ring.Int.Defs
import Mathlib.Data.Int.Notation

/-! # Table of the red packets (`Game_qianghongbao`, `CTableFrameSink`)

The banker of a round is charged when the round before is settled, through the flag `isBanker`. The flag is
cleared when the packets are out, and `m_nBankerUserId` goes on to say to whom what is left is returned. A user
stands here with his seat at the table (`pUserItem`), for both are set and cleared together. Random numbers, the
blacklist and the stock are drawn with the event. What crashes, aborts or does not come to an end has no result.
-/

namespace H5Server.Qhb

/-- `ERROESCORE` -/
def errorScore : ℤ := 300000000

def INVALID_CHAIR : ℤ := 65535

/-- `m_SendEnvelopeScore` and `m_SendEnvelopeNum` of the room. -/
structure Config where
  sendEnvelopeScore : ℤ
  sendEnvelopeNum : ℕ

inductive GameStatus
  | init
  | free
  | start
  | end_
  deriving DecidableEq

structure UserInfo where
  userId : ℤ
  chairId : ℕ
  isAndroid : Bool
  offline : Bool := false
  userScore : ℤ
  haveGrab : Bool := false
  isBanker : Bool := false
  endWinScore : ℤ := 0
  revenue : ℤ := 0
  notBetJettonCount : ℤ := 0
  sendLeftScore : ℤ := 0
  deriving DecidableEq

/-- `UserInfo::clear` -/
def UserInfo.clear (u : UserInfo) : UserInfo :=
  { u with endWinScore := 0, revenue := 0, haveGrab := false, sendLeftScore := 0 }

/-- `users` in the order of the map, by their ids. -/
structure Table where
  status : GameStatus
  users : List UserInfo
  bankerUserId : ℤ
  leftEnvelopeNum : ℤ

def initTable : Table := ⟨.init, [], INVALID_CHAIR, 0⟩

/-! ## Packets -/

def toInt32 (x : ℤ) : ℤ := x.bmod (2 ^ 32)

/-- The packets by weight; the last one is what the others leave. -/
def weighed (money allWeight : ℤ) : ℤ → List ℤ → List ℤ
  | _, [] => []
  | leftScore, [_] => [money - leftScore]
  | leftScore, weight :: weights =>
    let share := (weight * money).tdiv allWeight + 1
    share :: weighed money allWeight (toInt32 (leftScore + share)) weights

/-- The inner loop of the sort: the place `k` is compared with those behind it. -/
def exchange (x : ℤ) : List ℤ → ℤ × List ℤ
  | [] => (x, [])
  | y :: rest =>
    if y ≤ x then ((exchange x rest).1, y :: (exchange x rest).2)
    else ((exchange y rest).1, toInt32 x :: (exchange y rest).2)

def sortDown : ℕ → List ℤ → List ℤ
  | fuel + 1, x :: rest => (exchange x rest).1 :: sortDown fuel (exchange x rest).2
  | _, vec => vec

/-- Equal packets at the top are drawn again. -/
def getResultArr (cfg : Config) (weights : List ℤ) : Option (List ℤ) :=
  if weights.length = cfg.sendEnvelopeNum ∧ ∀ weight ∈ weights, 1 ≤ weight ∧ weight ≤ 100 then
    match sortDown weights.length (weighed cfg.sendEnvelopeScore weights.sum 0 weights) with
    | first :: second :: vec => if first = second then none else some (first :: second :: vec)
    | _ => none
  else none

/-! ## Settlement -/

/-- `lEndStorage` against its limits -/
inductive Storage
  | upper
  | lower
  | normal
  deriving DecidableEq

/-- What a settlement draws and reads: the weights of the packets, the blacklist (by user id, `0` for nobody in it)
with its draws, the draws against difficulty and stock, and whether the server is running. -/
structure Draws where
  weights : List ℤ
  blackWeight : ℤ → ℕ
  blackHit : Bool
  probabilityWeight : ℤ
  blackIndices : List ℕ
  kill : Bool
  storage : Storage
  hit : Bool
  indices : List ℕ
  serverRunning : Bool

/-- One pass over the users: everyone who takes a packet draws it from `temlist`. -/
def give (takes : UserInfo → Bool) : List ℕ → List ℤ → List UserInfo → Option (List UserInfo)
  | _, _, [] => some []
  | indices, temlist, u :: users =>
    if takes u then
      match indices with
      | [] => none
      | index :: indices => do
        let money ← temlist[index]?
        let rest ← give takes indices (temlist.eraseIdx index) users
        some ({ u with endWinScore := money } :: rest)
    else (give takes indices temlist users).map (u :: ·)

/-- One pass over those who grabbed, with the packet and the user found up to now. -/
def pickFrom (better : ℤ → ℤ → Bool) : ℤ → Option UserInfo → List UserInfo → Option UserInfo
  | _, found, [] => found
  | money, found, u :: users =>
    if u.haveGrab && better money u.endWinScore then pickFrom better u.endWinScore (some u) users
    else pickFrom better money found users

/-- `bestid`: the first with the most, if that is more than nothing. -/
def best (users : List UserInfo) : Option UserInfo := pickFrom (fun money score => money < score) 0 none users

/-- `bigOneUserid`: the last with the most, if that is not less than nothing. -/
def bigOne (users : List UserInfo) : Option UserInfo := pickFrom (fun getMoney score => getMoney ≤ score) 0 none users

/-- `m_UserInfo[userId]->isBanker = true` -/
def setBanker (userId : ℤ) (users : List UserInfo) : List UserInfo :=
  users.map fun u => if u.userId = userId then { u with isBanker := true } else u

def flagBest (users : List UserInfo) : List UserInfo :=
  match best users with
  | some u => setBanker u.userId users
  | none => users

/-- `CTableFrame::IsAndroidUser` -/
def isAndroidUser (users : List UserInfo) (chairId : ℕ) : Bool :=
  users.any fun u => u.chairId == chairId && u.isAndroid

/-- `bestchairid` is `0` if nobody is best. -/
def bestIsAndroid (users : List UserInfo) : Bool :=
  isAndroidUser users ((best users).elim 0 (·.chairId))

/-- Random packets, of which the last draw is `accepted`, and the best becomes banker. -/
def giveRandom (accepted : List UserInfo → Bool) (indices : List ℕ) (packets : List ℤ) (users : List UserInfo) :
    Option (List UserInfo) := do
  let users ← give (·.haveGrab) indices packets users
  if accepted users then some (flagBest users) else none

/-- `isHaveBlackPlayer` of a user. -/
def blackOf (d : Draws) (u : UserInfo) : ℕ := if !u.isAndroid && u.haveGrab then d.blackWeight u.userId else 0

def hasBlackPlayer (d : Draws) (users : List UserInfo) : Bool := users.any fun u => 0 < blackOf d u

/-- The seats in turn, until the weights come to `probabilityWeight`. -/
def blackChairId (weight : ℕ → ℕ) (probabilityWeight : ℤ) : ℕ → List ℕ → Option ℕ
  | _, [] => none
  | currentWeight, i :: chairs =>
    if 0 < weight i ∧ probabilityWeight ≤ (currentWeight + weight i : ℕ) then some i
    else blackChairId weight probabilityWeight (currentWeight + weight i) chairs

def blackChair (d : Draws) (users : List UserInfo) : Option ℕ :=
  if d.blackHit then
    blackChairId (fun i => (users.find? (·.chairId == i)).elim 0 (blackOf d)) d.probabilityWeight 0 (List.range 50)
  else none

/-- The best packet goes to the chosen seat, the others are random, and nobody becomes banker. -/
def giveBlack (chairId : ℕ) (indices : List ℕ) (packets : List ℤ) (users : List UserInfo) : Option (List UserInfo) :=
  give (fun u => u.haveGrab && u.chairId != chairId) indices packets.tail <|
    users.modify (users.findIdx fun u => u.haveGrab && u.chairId == chairId)
      fun u => { u with endWinScore := packets.headD 0, isBanker := false }

def blackControl (d : Draws) (packets : List ℤ) (users : List UserInfo) : Option (List UserInfo) :=
  if hasBlackPlayer d users then
    match blackChair d users with
    | some chairId => giveBlack chairId d.blackIndices packets users
    | none => giveRandom (fun _ => true) d.blackIndices packets users
  else some users

/-- Difficulty and stock. Without a hit, the blacklist is left as it is. -/
def stockControl (d : Draws) (black : Bool) (packets : List ℤ) (users : List UserInfo) : Option (List UserInfo) :=
  if d.kill then giveRandom (fun users => !bestIsAndroid users) d.indices packets users
  else
    match d.storage with
    | .upper =>
      if d.hit then giveRandom bestIsAndroid d.indices packets users
      else giveRandom (fun _ => true) d.indices packets users
    | .lower =>
      if d.hit then giveRandom (fun users => !bestIsAndroid users) d.indices packets users
      else if black then some users
      -- The log reads the entry of `bestid`.
      else giveRandom (fun users => (best users).isSome) d.indices packets users
    | .normal =>
      if black then some users else giveRandom (fun _ => true) d.indices packets users

/-- Unless there is one banker among those who grabbed, the one with the most is. -/
def chooseBanker (users : List UserInfo) : Option (List UserInfo) :=
  if users.countP (fun u => u.haveGrab && u.isBanker) = 1 then some users
  else (bigOne users).map fun big =>
    setBanker big.userId (users.map fun u => if u.haveGrab then { u with isBanker := false } else u)

def realPlayer (users : List UserInfo) : ℕ := users.countP fun u => u.haveGrab && !u.isAndroid

/-- `Settlement`, with the packets drawn. `allPalyer` counts a real player twice. -/
def settlement (d : Draws) (packets : List ℤ) (users : List UserInfo) : Option (List UserInfo) := do
  let black := hasBlackPlayer d users
  let users ← blackControl d packets users
  if realPlayer users = 0 ∨ realPlayer users = users.length + realPlayer users then
    if black then some users else giveRandom (fun _ => true) d.indices packets users
  else
    let users ← stockControl d black packets users
    chooseBanker users

/-! ## Scores -/

/-- `tagScoreInfo`, and what `addScore` is made of: a packet, what is returned and what is charged. -/
structure ScoreInfo where
  userId : ℤ
  betScore : ℤ
  addScore : ℤ
  revenue : ℤ
  packet : ℤ
  returned : ℤ
  charged : Option ℤ
  deriving DecidableEq

/-- The branches of `WriteUserScore`. -/
def scoreInfo (cfg : Config) (banker : ℤ) (u : UserInfo) : Option ScoreInfo :=
  let score := cfg.sendEnvelopeScore
  if u.haveGrab ∧ ¬u.isBanker ∧ u.userId ≠ banker then
    some ⟨u.userId, 0, u.endWinScore - u.revenue, u.revenue, u.endWinScore, 0, none⟩
  else if u.haveGrab ∧ u.isBanker ∧ u.userId ≠ banker then
    some ⟨u.userId, score - u.endWinScore, u.endWinScore - u.revenue - score, u.revenue, u.endWinScore, 0, some score⟩
  else if u.userId = banker ∧ u.haveGrab ∧ ¬u.isBanker then
    some ⟨u.userId, 0, u.sendLeftScore + u.endWinScore - u.revenue, u.revenue, u.endWinScore, u.sendLeftScore, none⟩
  else if u.userId = banker ∧ u.haveGrab ∧ u.isBanker then
    some ⟨u.userId, score - u.endWinScore, u.sendLeftScore + u.endWinScore - u.revenue - score, u.revenue,
      u.endWinScore, u.sendLeftScore, some score⟩
  else if u.userId = banker ∧ ¬u.haveGrab ∧ ¬u.isBanker ∧ 0 < u.sendLeftScore then
    some ⟨u.userId, 0, u.sendLeftScore, 0, 0, u.sendLeftScore, none⟩
  else none

/-- The asserted bounds; one who is not banker and whose round it was not has a bound of his own. -/
def seriousError (cfg : Config) (banker : ℤ) (info : ScoreInfo) : Prop :=
  (info.userId ≠ banker ∧ info.charged = none ∧ cfg.sendEnvelopeScore < info.addScore)
    ∨ info.addScore < -cfg.sendEnvelopeScore ∨ info.addScore < -errorScore ∨ errorScore < info.addScore

instance (cfg : Config) (banker : ℤ) : DecidablePred (seriousError cfg banker) :=
  fun _ => inferInstanceAs (Decidable (_ ∨ _))

/-- `WriteUserScore` -/
def writeUserScore (cfg : Config) (banker : ℤ) (users : List UserInfo) : Option (List ScoreInfo) :=
  let scores := users.filterMap (scoreInfo cfg banker)
  if ∃ info ∈ scores, seriousError cfg banker info then none else some scores

/-- The written scores reach the users. -/
def addScores (scores : List ScoreInfo) (u : UserInfo) : UserInfo :=
  { u with userScore := u.userScore + ((scores.filter (·.userId = u.userId)).map (·.addScore)).sum }

/-! ## Handlers -/

/-- `CheckKickOutUser` -/
def kicked (u : UserInfo) : Bool := u.isAndroid && decide (5 ≤ u.notBetJettonCount) && !u.isBanker

/-- `clearTableUser` -/
def cleared (cfg : Config) (serverRunning : Bool) (u : UserInfo) : Bool :=
  !serverRunning || (u.offline && !u.isBanker) ||
    (u.isAndroid && decide (u.userScore < cfg.sendEnvelopeScore)) && !u.isBanker

/-- A settlement as it is written: the banker of the round, and the scores. -/
structure Settled where
  banker : ℤ
  scores : List ScoreInfo

/-- `m_BankerLeftSocre` -/
def bankerLeftScore (cfg : Config) (users : List UserInfo) : ℤ :=
  let allGrapMoney := ((users.filter (·.haveGrab)).map (·.endWinScore)).sum
  if 0 ≤ cfg.sendEnvelopeScore - allGrapMoney then cfg.sendEnvelopeScore - allGrapMoney else 0

/-- The loop of `OnTimerStart` over what is left and the revenue. -/
def takeRevenue (banker left : ℤ) (u : UserInfo) : UserInfo :=
  let u := if u.userId = banker ∧ 0 < left then { u with sendLeftScore := left } else u
  if u.haveGrab then { u with notBetJettonCount := 0, revenue := (u.endWinScore * 5).tdiv 100 }
  else { u with notBetJettonCount := u.notBetJettonCount + 1 }

/-- `OnTimerStart` -/
def onTimerStart (cfg : Config) (t : Table) (d : Draws) : Option (Table × Settled) := do
  if t.status ≠ .start then none
  else
    let packets ← getResultArr cfg d.weights
    let users ← settlement d packets t.users
    let users := users.map (takeRevenue t.bankerUserId (bankerLeftScore cfg users))
    let scores ← writeUserScore cfg t.bankerUserId users
    let users := (users.map (addScores scores)).filter fun u => !kicked u
    let users := users.filter fun u => !cleared cfg d.serverRunning u
    some ({ t with status := .end_, users := users }, ⟨t.bankerUserId, scores⟩)

/-- `OnTimerEnd` with `ClearTableData` -/
def onTimerEnd (t : Table) : Option Table :=
  if t.status ≠ .end_ then none
  else some { t with
    status := .free
    bankerUserId := t.users.foldl (fun banker u => if u.isBanker then u.userId else banker) t.bankerUserId
    users := t.users.map UserInfo.clear }

/-- `OnTimerReady` -/
def onTimerReady (cfg : Config) (t : Table) : Option Table :=
  if t.status ≠ .free then none
  else some { t with
    status := .start
    users := t.users.map fun u => UserInfo.clear { u with isBanker := false }
    leftEnvelopeNum := cfg.sendEnvelopeNum }

/-- `CanLeftTable`, and the test of `OnUserLeft` -/
def canLeftTable (u : UserInfo) : Bool := !(u.isBanker || u.haveGrab)

/-- `OnUserLeft` -/
def onUserLeft (t : Table) (userId : ℤ) : Table :=
  { t with users := t.users.filter fun u => !(u.userId == userId && canLeftTable u) }

/-- `OnUserEnter`; the first robot becomes banker. -/
def onUserEnter (t : Table) (u : UserInfo) : Table :=
  let users :=
    if ∃ other ∈ t.users, other.userId = u.userId then
      t.users.map fun other => if other.userId = u.userId then { other with offline := false } else other
    else t.users.takeWhile (·.userId < u.userId) ++
      { userId := u.userId, chairId := u.chairId, isAndroid := u.isAndroid, userScore := u.userScore }
        :: t.users.dropWhile (·.userId < u.userId)
  if t.status = .init ∧ u.isAndroid then
    let banker := if t.bankerUserId = INVALID_CHAIR then u.userId else t.bankerUserId
    { t with status := .free, bankerUserId := banker, users := setBanker banker users }
  else { t with users := users }

/-- `SUB_C_GRAB_ENVELOPE` -/
def onGrab (cfg : Config) (t : Table) (chairId : ℕ) : Table :=
  match t.users.find? (·.chairId == chairId) with
  | none => t
  | some player =>
    if t.status ≠ .start then t
    else if player.userScore < cfg.sendEnvelopeScore then t
    else if player.haveGrab then t
    else if t.leftEnvelopeNum ≤ 0 then t
    else { t with
      users := t.users.map fun u => if u.userId = player.userId then { u with haveGrab := true } else u
      leftEnvelopeNum := t.leftEnvelopeNum - 1 }

/-- `SUB_C_SEND_ENVELOPE` -/
def onSendEnvelope (cfg : Config) (t : Table) (chairId : ℕ) : Table :=
  match t.users.find? (·.chairId == chairId) with
  | none => t
  | some player =>
    if t.status ≠ .free then t
    else if player.userId ≠ t.bankerUserId then t
    else (onTimerReady cfg t).getD t

/-! ## Runs -/

inductive Event
  | userEnter (u : UserInfo)
  | userLeft (userId : ℤ)
  | userOffline (userId : ℤ)
  | grab (chairId : ℕ)
  | sendEnvelope (chairId : ℕ)
  | timerReady
  | timerStart (d : Draws)
  | timerEnd

/-- The table with the settlements up to now. -/
structure History where
  table : Table
  rounds : List Settled

def initHistory : History := ⟨initTable, []⟩

def step (cfg : Config) (h : History) : Event → Option History
  | .userEnter u => some { h with table := onUserEnter h.table u }
  | .userLeft userId => some { h with table := onUserLeft h.table userId }
  | .userOffline userId =>
    some { h with table := onUserLeft { h.table with
      users := h.table.users.map fun u => if u.userId = userId then { u with offline := true } else u } userId }
  | .grab chairId => some { h with table := onGrab cfg h.table chairId }
  | .sendEnvelope chairId => some { h with table := onSendEnvelope cfg h.table chairId }
  | .timerReady => (onTimerReady cfg h.table).map fun t => { h with table := t }
  | .timerStart d => (onTimerStart cfg h.table d).map fun result => ⟨result.1, h.rounds ++ [result.2]⟩
  | .timerEnd => (onTimerEnd h.table).map fun t => { h with table := t }

end H5Server.Qhb
