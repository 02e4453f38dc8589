import H5Server.Erqs.GamePlayer
import Mathlib.Logic.Function.Basic

/-! # The table of a running round (`GameProcess.cpp`)

One definition for each handler, on an explicit state. The three timers are armed flags: a timer
event is possible only while its flag is set. When the round is concluded the source drops the
data of the round; the model keeps the state as it was handed to `CalculateScore` or found when
the wall ran out, with `playing` false. What clients are sent, hu types and scores are left out,
and so are the test messages (`SUB_C_REPLACE_CARD`, `SUB_C_LETF_CARDS`), off unless `TEST.ENABLE`.
-/

namespace H5Server.Erqs

inductive MjAction where
  | invalid | chi | peng | gang | outCard | replaceHua
deriving DecidableEq, Repr

inductive TargetType where
  | invalid | out | jiaGang
deriving DecidableEq, Repr

/-- The tile that the other player may claim. -/
structure TargetInfo where
  card : Int := gameInvalidCard
  type : TargetType := .invalid
  chair : Option (Fin 2) := none
deriving DecidableEq, Repr

inductive ControlType where
  | normal | systemWin | systemLose
deriving DecidableEq, Repr

/-- What `findPrInfo` reports about a hand and the deal reads. -/
structure PrInfo where
  needCards : List Int := []
  need : Int := 0

/-- The steps of `m_replay`; a drawn tile is kept with the end of the wall it comes from. -/
inductive ReplayStep where
  | handCards (chair : Fin 2)
  | replaceHua (chair : Fin 2)
  | addCard (chair : Fin 2) (isFront : Bool)
  | outCard (chair : Fin 2)
  | chi (chair : Fin 2)
  | peng (chair : Fin 2)
  | gang (chair : Fin 2)
  | ting (chair : Fin 2)
  | hu (chair : Fin 2)
  | noHu
deriving DecidableEq, Repr

/-- What a round takes from outside: who is a robot, the storage control, and the random outcomes.
The draw `rand() % 100` is seeded with the wall size, and no two draws of a round see one size. -/
structure TableConfig where
  isAndroid : Fin 2 → Bool
  ctrlType : ControlType
  dealGoodPrsWin : List Int
  dealGoodPrsLose : List Int
  findPrInfo : List Int → Table → PrInfo
  prValue : Nat → Int

structure GameState where
  players : Fin 2 → GamePlayer
  cards : List Int
  bankerChairId : Fin 2
  curRoundChairId : Fin 2
  targetInfo : TargetInfo := {}
  tianTinging : Bool := false
  gameOpCnt : Nat := 0
  lastAction : MjAction := .invalid
  isGameFlow : Bool := false
  gameMsgCache : List (Fin 2 × Int) := []
  timerRound : Bool := false
  timerOption : Bool := false
  timerTianTing : Bool := false
  playing : Bool := true
  replay : List ReplayStep := []

namespace GameState

def setPlayer (s : GameState) (chair : Fin 2) (player : GamePlayer) : GameState :=
  { s with players := Function.update s.players chair player }

def modifyPlayer (s : GameState) (chair : Fin 2) (f : GamePlayer → GamePlayer) : GameState :=
  s.setPlayer chair (f (s.players chair))

def addStep (s : GameState) (step : ReplayStep) : GameState :=
  { s with replay := s.replay ++ [step] }

def setTargetInfo (s : GameState) (card : Int) (type : TargetType) (chair : Option (Fin 2)) : GameState :=
  { s with targetInfo := ⟨card, type, chair⟩ }

/-- `SendOption`: whether the player was offered anything. -/
def sendOption (s : GameState) (chair : Fin 2) (update : Nat) : GameState × Bool :=
  let player := (s.players chair).updateOption chair s.targetInfo.card s.targetInfo.chair
    (decide (0 < s.cards.length)) update
  (s.setPlayer chair player, player.option != 0)

/-- The offer loops over both chairs: `chair` is reset and the other player is sent options. -/
def offerOther (s : GameState) (chair : Fin 2) (update : Nat) : GameState × Bool :=
  (s.modifyPlayer chair .resetOption).sendOption (nextChair chair) update

/-- `OnEventGameConclude`. -/
def onEventGameConclude (s : GameState) (step : ReplayStep) : GameState :=
  { s.addStep step with playing := false, timerRound := false, timerOption := false, timerTianTing := false }

/-! ## Dealing -/

def calculatePrInfo (cfg : TableConfig) (s : GameState) (handCards : List Int) : PrInfo :=
  cfg.findPrInfo handCards (cardsToTable s.cards)

def isWinner (cfg : TableConfig) (toChair : Fin 2) : Bool :=
  if cfg.ctrlType = .systemWin then cfg.isAndroid toChair else !cfg.isAndroid toChair

/-- `DealCardToUserNormal`: the tile at the back of the wall. -/
def dealCardToUserNormal (s : GameState) (toChair : Fin 2) : GameState × Int :=
  match s.cards.getLast? with
  | none => (s, gameInvalidCard)
  | some card =>
    (({ s with cards := s.cards.dropLast }).modifyPlayer toChair (·.addHandCard card), card)

/-- `DealCardToUserControl`: the first tile of the wall that is as good or bad as the draw asks
for, else the one at the back. The test for flowers there is dead, `card` being invalid until the
loop is left. -/
def dealCardToUserControl (cfg : TableConfig) (s : GameState) (toChair : Fin 2) : GameState × Int :=
  if s.cards = [] then (s, gameInvalidCard)
  else
    let toPrInfo := s.calculatePrInfo cfg (s.players toChair).handCards
    let s := s.modifyPlayer toChair ({ · with needCards := toPrInfo.needCards })
    let prs := if isWinner cfg toChair then cfg.dealGoodPrsWin else cfg.dealGoodPrsLose
    let dealGood := decide (cfg.prValue s.cards.length < prs.getD (toPrInfo.need - 1).toNat 0)
    match s.cards.find? fun card => (s.players toChair).needCard card == dealGood with
    | some card =>
      (({ s with cards := s.cards.erase card }).modifyPlayer toChair (·.addHandCard card), card)
    | none => s.dealCardToUserNormal toChair

/-- `DealCardToUser`; the end of the wall only moves the displayed wall position. -/
def dealCardToUser (cfg : TableConfig) (s : GameState) (toChair : Fin 2) : GameState × Int :=
  if cfg.ctrlType = .normal then s.dealCardToUserNormal toChair else s.dealCardToUserControl cfg toChair

/-- The loop of `ReplaceHua` over the flowers found; false when the wall runs out. -/
def replaceEach (cfg : TableConfig) (chair : Fin 2) : List Int → GameState → GameState × Bool
  | [], s => (s, true)
  | huaCard :: rest, s =>
    match s.dealCardToUser cfg chair with
    | (s, replaceCard) =>
      if replaceCard = gameInvalidCard then ({ s with isGameFlow := true }, false)
      else replaceEach cfg chair rest (s.modifyPlayer chair (fun player => (player.addHuaCard huaCard).1))

/-- `ReplaceHua` with the recursion depth bounded: every round of it takes a tile off the wall. -/
def replaceHuaAux (cfg : TableConfig) (chair : Fin 2) : Nat → GameState → GameState × Bool
  | 0, s => (s, false)
  | depth + 1, s =>
    let huaCards := (s.players chair).searchHuaCardsInHandCards
    if huaCards = [] then (s, false)
    else
      match replaceEach cfg chair huaCards { s with lastAction := .replaceHua } with
      | (s, false) => (s, false)
      | (s, true) => ((replaceHuaAux cfg chair depth (s.addStep (.replaceHua chair))).1, true)

def replaceHua (cfg : TableConfig) (s : GameState) (chair : Fin 2) : GameState × Bool :=
  replaceHuaAux cfg chair (s.cards.length + 1) s

/-! ## Rounds -/

def roundOptions (s : GameState) : Nat :=
  if s.lastAction = .chi ∨ s.lastAction = .peng then MjType.ting.bit
  else MjType.jiaGang.bit ||| MjType.anGang.bit ||| MjType.ting.bit ||| MjType.hu.bit

/-- The part of `UpdateGameRound` before the flowers: false when the wall is empty. -/
def drawForRound (cfg : TableConfig) (s : GameState) (chair : Fin 2) (addHandCard : Bool) :
    GameState × Bool :=
  let s := { s with curRoundChairId := chair }
  if addHandCard then
    let isFront := decide (s.lastAction ≠ .gang)
    match s.dealCardToUser cfg chair with
    | (s, card) =>
      if card = gameInvalidCard then ({ s with isGameFlow := true }, false)
      else ({ s.addStep (.addCard chair isFront) with gameOpCnt := s.gameOpCnt + 1 }, true)
  else (s, true)

/-- The part of `UpdateGameRound` after the flowers: options for the player to move. -/
def openRound (s : GameState) (chair : Fin 2) : GameState :=
  let s := s.setTargetInfo gameInvalidCard .invalid none
  let s := (s.sendOption chair s.roundOptions).1
  { s.modifyPlayer (nextChair chair) .resetOption with timerRound := true }

/-- `UpdateGameRound`: after flowers were replaced it calls itself once more without a draw. -/
def updateGameRoundAux (cfg : TableConfig) : Nat → GameState → Fin 2 → Bool → GameState
  | 0, s, _, _ => s
  | depth + 1, s, chair, addHandCard =>
    match s.drawForRound cfg chair addHandCard with
    | (s, false) => s.onEventGameConclude .noHu
    | (s, true) =>
      match s.replaceHua cfg chair with
      | (s, replaceResult) =>
        if s.isGameFlow then s.onEventGameConclude .noHu
        else if replaceResult then updateGameRoundAux cfg depth s chair false
        else s.openRound chair

def updateGameRound (cfg : TableConfig) (s : GameState) (chair : Fin 2) (addHandCard : Bool) : GameState :=
  updateGameRoundAux cfg 2 s chair addHandCard

/-! ## Actions -/

def claimOptions : Nat :=
  MjType.leftChi.bit ||| MjType.peng.bit ||| MjType.dianGang.bit ||| MjType.hu.bit

/-- After a discard: the other player may claim it, else draws. -/
def afterDiscard (cfg : TableConfig) (s : GameState) (chair : Fin 2) (card : Int) : GameState :=
  match (s.setTargetInfo card .out (some chair)).offerOther chair claimOptions with
  | (s, false) => s.updateGameRound cfg (nextChair chair) true
  | (s, true) => { s with timerOption := true }

def onOutCard (cfg : TableConfig) (s : GameState) (chair : Fin 2) (card : Int) : GameState :=
  if chair ≠ s.curRoundChairId then s
  else
    match (s.players chair).outCard card with
    | (player, false) => s.setPlayer chair player
    | (player, true) =>
      let s := (s.setPlayer chair player).addStep (.outCard chair)
      afterDiscard cfg
        { s with gameOpCnt := s.gameOpCnt + 1, lastAction := .outCard, timerRound := false } chair card

/-- `OnHu` up to the conclusion of the round. -/
def onHu (s : GameState) (chair : Fin 2) : GameState :=
  let target := s.targetInfo
  if !(canHu (s.players chair).handCards target.card []).1 then s
  else
    let s :=
      if target.card = gameInvalidCard then s
      else
        let s :=
          if target.type = .jiaGang then s.modifyPlayer chair (·.changeJiaGangToPeng target.card)
          else match target.chair with
            | some loser => s.modifyPlayer loser (·.removeOutCard target.card)
            | none => s
        s.modifyPlayer chair (·.addHandCard target.card)
    s.onEventGameConclude (.hu chair)

def onTimerRound (cfg : TableConfig) (s : GameState) : GameState :=
  let s := { s with timerRound := false }
  let chair := s.curRoundChairId
  if (s.players chair).hasOptionType .hu then s.onHu chair
  else
    let s := if (s.players chair).ting then s else s.modifyPlayer chair .timeout
    s.onOutCard cfg chair ((s.players chair).handCards.getLast?.getD gameInvalidCard)

def onTimerOption (cfg : TableConfig) (s : GameState) : GameState :=
  let s := { s with timerOption := false }
  let other := nextChair s.curRoundChairId
  if (s.players other).hasOptionType .hu then s.onHu other else s.updateGameRound cfg other true

/-! ## Messages -/

/-- `onMsgOutCard` once the ready-hand phase of the start is over; a body that does not parse is
rejected like an invalid tile. -/
def playOutCard (cfg : TableConfig) (s : GameState) (chair : Fin 2) (card : Int) : GameState :=
  if !isValidCard card then s else s.onOutCard cfg chair card

/-- `OnTimerTianTing`: the phase is over and the discards held back are replayed. -/
def onTimerTianTing (cfg : TableConfig) (s : GameState) : GameState :=
  let replayed := s.gameMsgCache.foldl
    (fun s (chair, card) =>
      if s.playing then (s.modifyPlayer chair (·.setHosting false)).playOutCard cfg chair card else s)
    { s with timerTianTing := false, tianTinging := false }
  { replayed with gameMsgCache := [] }

/-- What holds when the phase is over and is kept by every discard still holds after the replay. -/
theorem exists_replayed {P : GameState → Prop} (cfg : TableConfig) {s : GameState}
    (start : P { s with timerTianTing := false, tianTinging := false })
    (keep : ∀ s chair card, P s → s.playing = true →
      P ((s.modifyPlayer chair (·.setHosting false)).playOutCard cfg chair card)) :
    ∃ replayed, P replayed ∧ s.onTimerTianTing cfg = { replayed with gameMsgCache := [] } := by
  refine ⟨_, List.foldlRecOn s.gameMsgCache _ start ?_, rfl⟩
  intro s kept msg _
  dsimp only
  split
  · next playing => exact keep s msg.1 msg.2 kept playing
  · exact kept

def onMsgOutCard (cfg : TableConfig) (s : GameState) (chair : Fin 2) (card : Int) : GameState :=
  if s.tianTinging then
    if chair = s.curRoundChairId ∧ !(s.gameMsgCache.any fun msg => msg.1 == chair) then
      { s with gameMsgCache := s.gameMsgCache ++ [(chair, card)], timerRound := false }
    else s
  else s.playOutCard cfg chair card

def onMsgChi (cfg : TableConfig) (s : GameState) (chair : Fin 2) (cards : List Int) : GameState :=
  if nextChair s.curRoundChairId ≠ chair then s
  else if !cards.all isValidCard then s
  else
    match (s.players chair).chi cards with
    | (player, false) => s.setPlayer chair player
    | (player, true) =>
      let s := { s.setPlayer chair player with
        timerOption := false, gameOpCnt := s.gameOpCnt + 1, lastAction := .chi }
      let s := match player.cpgs.getLast? with
        | some cpg => s.modifyPlayer s.curRoundChairId (·.removeOutCard cpg.targetCard)
        | none => s
      (s.addStep (.chi chair)).updateGameRound cfg chair false

def onMsgPeng (cfg : TableConfig) (s : GameState) (chair : Fin 2) : GameState :=
  if s.curRoundChairId = chair then s
  else
    match (s.players chair).peng with
    | (player, false) => s.setPlayer chair player
    | (player, true) =>
      let s := { s.setPlayer chair player with
        timerOption := false, gameOpCnt := s.gameOpCnt + 1, lastAction := .peng }
      let s := match player.cpgs.getLast? with
        | some cpg => s.modifyPlayer s.curRoundChairId (·.removeOutCard cpg.targetCard)
        | none => s
      (s.addStep (.peng chair)).updateGameRound cfg chair false

/-- After an added kong: the other player may rob it by hu, else `chair` draws. -/
def afterJiaGang (cfg : TableConfig) (s : GameState) (chair : Fin 2) (card : Int) : GameState :=
  match (s.setTargetInfo card .jiaGang (some chair)).offerOther chair MjType.hu.bit with
  | (s, false) => s.updateGameRound cfg chair true
  | (s, true) => { s with timerOption := true }

def onMsgGang (cfg : TableConfig) (s : GameState) (chair : Fin 2) (cards : List Int) : GameState :=
  if s.cards = [] then s
  else if !cards.all isValidCard then s
  else
    match (s.players chair).gang cards with
    | (player, false) => s.setPlayer chair player
    | (player, true) =>
      let s := { s.setPlayer chair player with
        timerOption := false, gameOpCnt := s.gameOpCnt + 1, lastAction := .gang }
      match player.getCpgIdx cards with
      | none => s
      | some cpg =>
        let s := if cpg.type = .dianGang then
          s.modifyPlayer s.curRoundChairId (·.removeOutCard cpg.targetCard) else s
        let s := s.addStep (.gang chair)
        if cpg.type = .jiaGang then s.afterJiaGang cfg chair cpg.targetCard
        else s.updateGameRound cfg chair true

def onMsgPass (cfg : TableConfig) (s : GameState) (chair : Fin 2) : GameState :=
  if !(s.players chair).hasOption then s
  else
    let s := { s.modifyPlayer chair .resetOption with timerOption := false }
    if chair ≠ s.curRoundChairId then
      if s.tianTinging then s.onTimerTianTing cfg
      else s.updateGameRound cfg (nextChair s.curRoundChairId) true
    else s

def onMsgTing (cfg : TableConfig) (s : GameState) (chair : Fin 2) (card : Int) : GameState :=
  match (s.players chair).declareTing card with
  | (player, false) => s.setPlayer chair player
  | (player, true) =>
    let s := { s.setPlayer chair player with timerOption := false, timerRound := false }
    let isTianTing := s.gameOpCnt == 0
    let s := s.addStep (.ting chair)
    if card ≠ gameInvalidCard then
      if !isValidCard card then s
      else if s.curRoundChairId ≠ chair then s
      else
        let s := s.addStep (.outCard chair)
        afterDiscard cfg { s with gameOpCnt := s.gameOpCnt + 1, lastAction := .outCard } chair card
    else if chair ≠ s.bankerChairId ∧ isTianTing then s.onTimerTianTing cfg
    else s

inductive Message where
  | outCard (card : Int)
  | chi (cards : List Int)
  | peng
  | gang (cards : List Int)
  | pass
  | ting (card : Int)
  | hu
  | hosting (hosting : Bool)
deriving DecidableEq, Repr

/-- `OnGameMessage` for a seated chair. -/
def onGameMessage (cfg : TableConfig) (s : GameState) (chair : Fin 2) (msg : Message) : GameState :=
  let s := s.modifyPlayer chair (·.setHosting false)
  match msg with
  | .outCard card => s.onMsgOutCard cfg chair card
  | .chi cards => s.onMsgChi cfg chair cards
  | .peng => s.onMsgPeng cfg chair
  | .gang cards => s.onMsgGang cfg chair cards
  | .pass => s.onMsgPass cfg chair
  | .ting card => s.onMsgTing cfg chair card
  | .hu => s.onHu chair
  | .hosting hosting => s.modifyPlayer chair (·.setHosting hosting)

inductive Event where
  | message (chairid : Nat) (msg : Message)
  | timerRound
  | timerOption
  | timerTianTing
  | reconnect (chair : Fin 2)
deriving DecidableEq, Repr

/-- One event of a running round; `none` when it cannot happen. A message from a chair without a
player is rejected. -/
def step (cfg : TableConfig) (s : GameState) (event : Event) : Option GameState :=
  if !s.playing then none
  else
    match event with
    | .message chairid msg =>
      if seated : chairid < 2 then some (s.onGameMessage cfg ⟨chairid, seated⟩ msg) else some s
    | .timerRound => if s.timerRound then some (s.onTimerRound cfg) else none
    | .timerOption => if s.timerOption then some (s.onTimerOption cfg) else none
    | .timerTianTing => if s.timerTianTing then some (s.onTimerTianTing cfg) else none
    | .reconnect chair => some (s.modifyPlayer chair (·.setHosting false))

/-! ## Start of a round -/

/-- `DealHandCards`: thirteen tiles each; under control the better hand goes to the winner. -/
def dealHandCards (cfg : TableConfig) (s : GameState) : GameState :=
  let hand0 := s.cards.take 13
  let hand1 := (s.cards.drop 13).take 13
  let s := { s with cards := s.cards.drop 26 }
  let deal := fun (s : GameState) (chair : Fin 2) (hand : List Int) =>
    s.modifyPlayer chair fun player => { player with handCards := player.handCards ++ hand }
  if cfg.ctrlType = .normal then deal (deal s 0 hand0) 1 hand1
  else
    let huaNum := fun (hand : List Int) => ((hand.filter fun card => getColor card == 4).length : Int)
    let need0 := (s.calculatePrInfo cfg hand0).need
    let need1 := (s.calculatePrInfo cfg hand1).need
    let goodIdx := if need0 - huaNum hand0 < 14 then
        if need1 - huaNum hand1 < need0 then 1 else 0
      else if need1 - huaNum hand1 < 14 then 1 else 0
    let pick := fun (chair : Fin 2) =>
      if (isWinner cfg chair : Bool) = (goodIdx == 0) then hand0 else hand1
    deal (deal s 0 (pick 0)) 1 (pick 1)

/-- `OnGameStart` up to the first flowers: `shuffled` is what `random_shuffle` left in `m_cards`, and
discards held back in an earlier round may still be in the cache. -/
def dealTable (cfg : TableConfig) (shuffled : List Int) (banker : Fin 2)
    (gameMsgCache : List (Fin 2 × Int)) : GameState :=
  let s : GameState :=
    { players := fun _ => {}, cards := shuffled, bankerChairId := banker, curRoundChairId := 0, gameMsgCache }
  let s := s.dealHandCards cfg
  let s := (s.dealCardToUser cfg banker).1
  let s := (s.addStep (.handCards 0)).addStep (.handCards 1)
  let s := (s.replaceHua cfg 0).1
  (s.replaceHua cfg 1).1

/-- `OnGameStart`: the banker's round opens, and the other player may declare ting. -/
def onGameStart (cfg : TableConfig) (shuffled : List Int) (banker : Fin 2)
    (gameMsgCache : List (Fin 2 × Int)) : GameState :=
  let s := (dealTable cfg shuffled banker gameMsgCache).updateGameRound cfg banker false
  match s.sendOption (nextChair banker) MjType.ting.bit with
  | (s, false) => s
  | (s, true) => { s with timerTianTing := true, tianTinging := true }

/-- Two clients at a table without storage control. -/
def plainTable : TableConfig where
  isAndroid _ := false
  ctrlType := .normal
  dealGoodPrsWin := []
  dealGoodPrsLose := []
  findPrInfo _ _ := {}
  prValue _ := 0

/-- A shuffle that deals these hands and then, from the back of the wall, these draws. -/
def stackedShuffle (hand0 hand1 draws : List Int) : List Int :=
  hand0 ++ hand1 ++ (initialCards.diff (hand0 ++ hand1 ++ draws)).reverse ++ draws.reverse

end GameState

end H5Server.Erqs
