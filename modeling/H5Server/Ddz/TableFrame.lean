import H5Server.Lib.Drawing
import H5Server.Ddz.Search
import H5Server.Lib.Places

/-! # A round of Dou Dizhu (`CTableFrameSink`)

Cards are dealt, players call for the bank, double, and play. Hands are arrays of twenty bytes with a
count. The work that the table does for players by itself (`AutoWork`) is an event of its own. What is
sent to players, logged and settled is left out.
-/

namespace H5Server.Ddz

open Lib

abbrev Chair := Fin 3

inductive GameScene where
  | free | call | callEnd | stake | stakeEnd | play
  deriving DecidableEq, Repr

structure Table where
  gameStatus : GameScene
  handCardData : Chair → List ℕ
  handCardCount : Chair → ℕ
  bankerCard : List ℕ
  bankerUser : Option Chair
  currentUser : Option Chair
  firstUser : Option Chair
  turnWiner : Option Chair
  turnCardData : List ℕ
  bankerScore : ℕ
  noCallCount : ℕ
  stakeInfo : Chair → ℕ
  trustee : Chair → Bool
  haveCancelTrustee : Bool
  surplusCard : List ℕ
  trustTimer : Bool

/-- What chance decides in a deal: the shuffled deck, whether one player gets good cards, and where these
are drawn. -/
structure Deal where
  randCard : List ℕ
  haveGoodCard : Option Chair
  positions : List ℕ
  shuffled : randCard.Perm cardData
  drawn : positions.length = goodcardData.length ∧ DrawsWithin positions goodcardData.length

/-- What chance decides at the start: who begins where nobody has won before, and the deals, of which the
last one counts. -/
structure Start where
  firstUser : Chair
  deals : List Deal
  last : Deal

namespace Table

/-! ## Dealing -/

/-- `CopyMemory` to a place of an array. -/
def copyMemory (array : List ℕ) (place : ℕ) (bytes : List ℕ) : List ℕ :=
  array.take place ++ bytes ++ array.drop (place + bytes.length)

/-- Sort the cards of a hand, and leave what is behind them. -/
def sortHand (data : List ℕ) (count : ℕ) : List ℕ := sortCardList (data.take count) ++ data.drop count

/-- The cards of one player in a deal. Without the good cards the deck is shorter, and the others follow
one another. -/
def dealtCards (d : Deal) (i : Chair) : List ℕ :=
  match d.haveGoodCard with
  | none => (d.randCard.drop (i * 17)).take 17
  | some good =>
    let goodCard := (drawAll d.positions goodcardData).take 17
    let randCard := (removeCardList goodCard d.randCard).getD d.randCard
    if i = good then goodCard
    else
      let others := ((List.finRange 3).filter fun j => j ≠ good ∧ j < i).length
      (randCard.drop (others * 17)).take 17

/-- The bottom cards of a deal. -/
def dealtBankerCards (d : Deal) : List ℕ :=
  match d.haveGoodCard with
  | none => (d.randCard.drop 51).take 3
  | some _ =>
    let goodCard := (drawAll d.positions goodcardData).take 17
    let randCard := (removeCardList goodCard d.randCard).getD d.randCard
    (randCard.drop 34).take 3

def storeageControl (t : Table) (d : Deal) : Table :=
  { t with
    handCardData := fun i => copyMemory (t.handCardData i) 0 (dealtCards d i)
    handCardCount := fun _ => 17
    bankerCard := sortCardList (dealtBankerCards d) }

def repositionSink (t : Table) : Table :=
  { t with
    handCardData := fun _ => List.replicate 20 0
    handCardCount := fun _ => 0
    bankerCard := List.replicate 3 0
    bankerUser := none
    currentUser := none
    turnWiner := none
    turnCardData := []
    bankerScore := 0
    stakeInfo := fun _ => 0
    trustee := fun _ => false
    haveCancelTrustee := false
    surplusCard := []
    trustTimer := false }

def onGameStart (t : Table) (s : Start) : Table :=
  let first := t.firstUser.getD s.firstUser
  let t := (s.deals ++ [s.last]).foldl storeageControl
    { t.repositionSink with gameStatus := .call, noCallCount := t.noCallCount + 1 }
  { t with
    firstUser := some first
    currentUser := some first
    handCardData := fun i => sortHand (t.handCardData i) (t.handCardCount i) }

/-! ## Calling -/

def isBankerDecided (t : Table) : Bool := decide (∃ i, 20 ≤ t.handCardCount i)

/-- The bank and the bottom cards go to the highest call, or to whoever began. -/
def fixBanker (t : Table) : Table :=
  let banker := t.bankerUser.getD (t.firstUser.getD 0)
  let count := t.handCardCount banker + 3
  let data := copyMemory (t.handCardData banker) 17 t.bankerCard
  { t with
    noCallCount := 0
    bankerScore := if t.bankerScore = 0 then 1 else t.bankerScore
    bankerUser := some banker
    handCardCount := Function.update t.handCardCount banker count
    handCardData := Function.update t.handCardData banker (sortHand data count)
    turnWiner := some banker
    currentUser := some banker
    gameStatus := .callEnd }

/-- A call from one to three points that is higher than the calls before. -/
def call (t : Table) (chair : Chair) (callScore : ℕ) : Table :=
  if 1 ≤ callScore ∧ callScore ≤ 3 ∧ t.bankerScore < callScore then
    { t with bankerScore := callScore, bankerUser := some chair }
  else t

def onUserCallScore (t : Table) (chair : Chair) (callScore : ℕ) (s : Start) : Table :=
  if t.currentUser ≠ some chair then t
  else if t.isBankerDecided then t
  else
    let t := t.call chair callScore
    if t.bankerScore = 3 ∨ t.firstUser = some (chair + 1) then
      if t.bankerUser = none ∧ t.noCallCount < 3 then { t with currentUser := none }.onGameStart s
      else t.fixBanker
    else { t with currentUser := some (chair + 1) }

/-! ## Doubling -/

def onUserStakeScore (t : Table) (chair : Chair) (stakeScore : ℕ) : Table :=
  if t.stakeInfo chair ≠ 0 ∨ t.bankerUser = some chair then t
  else
    let stakeInfo := Function.update t.stakeInfo chair (if stakeScore = 0 then 2 else stakeScore)
    let t := { t with stakeInfo := stakeInfo }
    if ((List.finRange 3).filter fun i => 0 < t.stakeInfo i).length = 2 then { t with gameStatus := .stakeEnd } else t

/-- `OnCallStakeTimer` -/
def onCallStakeTimer (t : Table) : Table :=
  (List.finRange 3).foldl (fun t i =>
    if t.gameStatus = .stake ∧ t.bankerUser ≠ some i ∧ t.stakeInfo i = 0 then t.onUserStakeScore i 2 else t) t

/-- `OnTimer` while a round is going on -/
def onTimer (t : Table) : Table :=
  match t.gameStatus with
  | .callEnd => { t with gameStatus := .stake }
  | .stakeEnd => { t with gameStatus := .play, trustTimer := true }
  | _ => t

/-! ## Playing -/

/-- `RemoveCardList` from a hand: the cards left move to the front, and zeros follow. -/
def removeFromHand (data : List ℕ) (count : ℕ) (removeCard : List ℕ) : Option (List ℕ) :=
  if 20 < count then none
  else (removeCardList removeCard (data.take count)).map fun left =>
    left ++ List.replicate (count - left.length) 0 ++ data.drop count

/-- The state after cards are out of the hand. The round ends with the last card. -/
def afterOutCard (t : Table) (chair : Chair) (cards data : List ℕ) : Table :=
  let count := (t.handCardCount chair + 256 - cards.length) % 256
  { t with
    handCardData := Function.update t.handCardData chair data
    handCardCount := Function.update t.handCardCount chair count
    surplusCard := t.surplusCard ++ cards
    turnCardData := cards
    turnWiner := some chair
    currentUser := if count ≠ 0 then some (chair + 1) else none
    gameStatus := if count ≠ 0 then t.gameStatus else .free
    firstUser := if count ≠ 0 then t.firstUser else some chair
    trustTimer := if count ≠ 0 then true else false }

/-- Play cards, or `none` where they are refused. -/
def onUserOutCard (t : Table) (chair : Chair) (cards : List ℕ) : Option Table :=
  if t.currentUser ≠ some chair then some t
  else if getCardType cards = .error then none
  else if t.turnCardData.length ≠ 0 ∧ ¬compareCard t.turnCardData cards then none
  else (removeFromHand (t.handCardData chair) (t.handCardCount chair) cards).map (t.afterOutCard chair cards)

def onUserPassCard (t : Table) (chair : Chair) : Table :=
  if t.currentUser ≠ some chair ∨ t.turnCardData.length = 0 then t
  else
    { t with
      currentUser := some (chair + 1)
      turnCardData := if t.turnWiner = some (chair + 1) then [] else t.turnCardData
      trustTimer := true }

/-- The suggestion that plays the last card, if there is one: the first one in an answer, and else the last
one, unless there are four cards of a value among them. -/
def outAllCard (turnCard : List ℕ) (suggestions : List (List ℕ)) (count : ℕ) : Option (List ℕ) :=
  let all := suggestions.filter fun cards => cards.length = count
  if turnCard.length ≠ 0 ∧ getCardType turnCard ≠ .error then all.head?
  else if all.any fun cards => getCardType cards = .fourTakeOne ∨ getCardType cards = .fourTakeTwo then none
  else all.getLast?

/-- The smallest card of a hand. -/
def smallestCard (t : Table) (chair : Chair) : List ℕ :=
  [(t.handCardData chair).getD (t.handCardCount chair - 1) 0]

/-- Play for a player. What is refused leaves the table as it is. -/
def onAutoOutCard (t : Table) (chair : Chair) : Table :=
  if t.gameStatus ≠ .play ∨ t.currentUser ≠ some chair then t
  else
    let count := t.handCardCount chair
    let hand := (t.handCardData chair).take count
    let suggestions := searchOutCard hand t.turnCardData
    if 0 < count ∧ suggestions ≠ [] then
      match outAllCard t.turnCardData suggestions count with
      | some cards => (t.onUserOutCard chair (sortCardList cards)).getD t
      | none =>
        if t.turnCardData.length = 0 then
          ((t.onUserOutCard chair ((searchOutCard hand []).headD (t.smallestCard chair))).or
            (t.onUserOutCard chair (t.smallestCard chair))).getD t
        else (t.onUserOutCard chair (sortCardList (suggestions.headD []))).getD (t.onUserPassCard chair)
    else t.onUserPassCard chair

def trust (t : Table) (chair : Chair) (trusts : Bool) : Table :=
  { t with trustee := Function.update t.trustee chair trusts }

/-- `OnUserTrustTimer` -/
def onUserTrustTimer (t : Table) : Table :=
  match t.gameStatus, t.currentUser with
  | .play, some chair => { t.trust chair true with trustTimer := false }.onAutoOutCard chair
  | _, _ => t

def onTrustee (t : Table) (chair : Chair) : Table :=
  let t := t.trust chair true
  if t.currentUser = some chair ∧ t.gameStatus = .play then
    { t with haveCancelTrustee := false, trustTimer := false }.onAutoOutCard chair
  else t

def onCancelTrustee (t : Table) (chair : Chair) : Table :=
  if ¬t.trustee chair ∨ t.haveCancelTrustee then t
  else
    let t := t.trust chair false
    if t.currentUser = some chair ∧ t.gameStatus = .play then { t with haveCancelTrustee := true, trustTimer := true }
    else t

/-! ## Events -/

end Table

/-- Messages and timers, and the work of the table for the player whose turn it is. An out-card message
has twenty bytes for its cards, and states their number. -/
inductive Event where
  | callBanker (chair : Chair) (callInfo : ℕ) (s : Start)
  | callBankerTimer (s : Start)
  | addDouble (chair : Chair) (doubleInfo : ℕ)
  | callStakeTimer
  | timer
  | outCard (chair : Chair) (cardData : List ℕ) (cardCount : ℕ)
  | passCard (chair : Chair)
  | trustee (chair : Chair)
  | cancelTrustee (chair : Chair)
  | userTrustTimer
  | autoWork (trusts : Bool)

namespace Table

/-- The cards of an out-card message. -/
def messageCards (cardData : List ℕ) (cardCount : ℕ) : List ℕ := (cardData ++ List.replicate 20 0).take cardCount

def step (t : Table) : Event → Table
  | .callBanker chair callInfo s =>
    if t.gameStatus = .call then (t.trust chair false).onUserCallScore chair (callInfo % 256) s else t
  | .callBankerTimer s =>
    match t.gameStatus, t.currentUser with
    | .call, some chair => t.onUserCallScore chair 255 s
    | _, _ => t
  | .addDouble chair doubleInfo =>
    if t.bankerUser ≠ some chair ∧ t.gameStatus = .stake then
      (t.trust chair false).onUserStakeScore chair (doubleInfo % 256)
    else t
  | .callStakeTimer => t.onCallStakeTimer
  | .timer => t.onTimer
  | .outCard chair cardData cardCount =>
    if t.gameStatus = .play then
      ((t.trust chair false).onUserOutCard chair (messageCards cardData cardCount)).getD (t.trust chair false)
    else t
  | .passCard chair => if t.gameStatus = .play then (t.trust chair false).onUserPassCard chair else t
  | .trustee chair => t.onTrustee chair
  | .cancelTrustee chair => t.onCancelTrustee chair
  | .userTrustTimer => t.onUserTrustTimer
  | .autoWork trusts =>
    match t.gameStatus, t.currentUser with
    | .play, some chair => (t.trust chair trusts).onAutoOutCard chair
    | _, _ => t

end Table

end H5Server.Ddz
