import H5Server.Erqs.MjAlgorithm
import H5Server.Lib.Places

/-! # A seated player (`GamePlayer.cpp`)

The operations return the player as they leave it together with the `bool` of the source: a call
that fails may already have removed tiles. Hu types, counters and scores of a win are not modelled.
-/

namespace H5Server.Erqs

/-- The fields of `CGamePlayer` that decide what happens at the table. -/
structure GamePlayer where
  handCards : List Int := []
  outCards : List Int := []
  huaCards : List Int := []
  cpgs : List CPG := []
  optionalCpgs : List CPG := []
  tingOptInfos : List TingOptInfo := []
  tingInfos : List Int := []
  option : Nat := 0
  ting : Bool := false
  hosting : Bool := false
  timeoutCnt : Nat := 0
  needCards : List Int := []

/-- `NEXT_CHAIR` for the two players of a table. -/
def nextChair (chair : Fin 2) : Fin 2 := chair + 1

namespace GamePlayer

/-- Erase copies of `card` from the left until `num` are gone; the second result counts them. -/
def eraseCopies (card : Int) : Nat → List Int → List Int × Nat
  | 0, cards => (cards, 0)
  | _ + 1, [] => ([], 0)
  | num + 1, head :: rest =>
    if head = card then
      let (left, removed) := eraseCopies card num rest
      (left, removed + 1)
    else
      let (left, removed) := eraseCopies card (num + 1) rest
      (head :: left, removed)

/-- `RemoveHandCards`: the copies found are gone even when there were fewer than `num`. -/
def removeHandCards (player : GamePlayer) (card : Int) (num : Nat) : GamePlayer × Bool :=
  let (handCards, removedNum) := eraseCopies card num player.handCards
  ({ player with handCards }, removedNum == num)

def addHandCard (player : GamePlayer) (card : Int) : GamePlayer :=
  { player with handCards := player.handCards ++ [card] }

def addHuaCard (player : GamePlayer) (card : Int) : GamePlayer × Bool :=
  if getColor card ≠ 4 then (player, false)
  else removeHandCards { player with huaCards := player.huaCards ++ [card] } card 1

def searchHuaCardsInHandCards (player : GamePlayer) : List Int :=
  player.handCards.filter fun card => getColor card == 4

def outCard (player : GamePlayer) (card : Int) : GamePlayer × Bool :=
  if player.ting ∧ player.handCards.getLast? ≠ some card then (player, false)
  else if player.handCards.length % 3 ≠ 2 then (player, false)
  else
    match player.removeHandCards card 1 with
    | (player, false) => (player, false)
    | (player, true) => ({ player with outCards := player.outCards ++ [card] }, true)

def removeOutCard (player : GamePlayer) (card : Int) : GamePlayer :=
  { player with outCards := player.outCards.erase card }

/-- `std::sort` on tile values. -/
def sortCards (cards : List Int) : List Int := cards.insertionSort (· ≤ ·)

/-- `GetOptionalCpgIdx`: the first stored offer with the same tiles, instead of its index. -/
def getOptionalCpgIdx (player : GamePlayer) (cards : List Int) : Option CPG :=
  player.optionalCpgs.find? fun cpg => sortCards cpg.cards == sortCards cards

/-- `GetOptionalCpgIdxByType`, likewise. -/
def getOptionalCpgIdxByType (player : GamePlayer) (type : MjType) : Option CPG :=
  player.optionalCpgs.find? fun cpg => cpg.type == type

/-- `GetCpgIdx`, likewise, among the melds on the table. -/
def getCpgIdx (player : GamePlayer) (cards : List Int) : Option CPG :=
  player.cpgs.find? fun cpg => sortCards cpg.cards == sortCards cards

/-- The removal loop of `Chi`: it stops at the first tile that is missing. -/
def removeEach (player : GamePlayer) : List Int → GamePlayer × Bool
  | [] => (player, true)
  | card :: rest =>
    match player.removeHandCards card 1 with
    | (player, false) => (player, false)
    | (player, true) => removeEach player rest

def addCpg (player : GamePlayer) (cpg : CPG) : GamePlayer :=
  { player with cpgs := player.cpgs ++ [cpg] }

/-- `Chi` looks for any stored offer with these tiles, whatever its type. -/
def chi (player : GamePlayer) (cards : List Int) : GamePlayer × Bool :=
  match player.getOptionalCpgIdx cards with
  | none => (player, false)
  | some cpg =>
    match player.removeEach (cpg.cards.filter (· ≠ cpg.targetCard)) with
    | (player, false) => (player, false)
    | (player, true) => (player.addCpg cpg, true)

def peng (player : GamePlayer) : GamePlayer × Bool :=
  match player.getOptionalCpgIdxByType .peng with
  | none => (player, false)
  | some cpg =>
    match player.removeHandCards cpg.targetCard 2 with
    | (player, false) => (player, false)
    | (player, true) => (player.addCpg cpg, true)

/-- The first peng of `targetCard` becomes a kong. -/
def pengToJiaGang (targetCard : Int) : List CPG → Option (List CPG)
  | [] => none
  | cpg :: rest =>
    if cpg.targetCard = targetCard ∧ cpg.type = .peng then
      some ({ cpg with type := .jiaGang, cards := List.replicate 4 targetCard } :: rest)
    else (pengToJiaGang targetCard rest).map (cpg :: ·)

def changePengToJiaGang (player : GamePlayer) (targetCard : Int) : GamePlayer × Bool :=
  match pengToJiaGang targetCard player.cpgs with
  | none => (player, false)
  | some cpgs => ({ player with cpgs }, true)

/-- `ChangeJiaGangToPeng`: `cpg.type == mj_peng` is a comparison, so only the tiles change. -/
def changeJiaGangToPeng (player : GamePlayer) (card : Int) : GamePlayer :=
  { player with cpgs := player.cpgs.map fun cpg =>
      if cpg.targetCard = card ∧ cpg.type = .jiaGang then { cpg with cards := List.replicate 3 card }
      else cpg }

def gang (player : GamePlayer) (cards : List Int) : GamePlayer × Bool :=
  match player.getOptionalCpgIdx cards with
  | none => (player, false)
  | some cpg =>
    if cpg.type = .anGang ∨ cpg.type = .dianGang then
      match player.removeHandCards cpg.targetCard (if cpg.type = .anGang then 4 else 3) with
      | (player, false) => (player, false)
      | (player, true) => (player.addCpg cpg, true)
    else if cpg.type = .jiaGang then
      match player.removeHandCards cpg.targetCard 1 with
      | (player, false) => (player, false)
      | (player, true) => player.changePengToJiaGang cpg.targetCard
    else (player, false)

/-- `Ting(outCard)`, the method `Ting` of the source. -/
def declareTing (player : GamePlayer) (card : Int) : GamePlayer × Bool :=
  if player.ting then (player, false)
  else
    match player.tingOptInfos.find? fun info => info.outCard == card with
    | none => (player, false)
    | some info =>
      if card ≠ gameInvalidCard then
        match player.outCard card with
        | (player, false) => (player, false)
        | (player, true) => ({ player with tingInfos := info.tingInfos, ting := true }, true)
      else ({ player with tingInfos := info.tingInfos, ting := true }, true)

def hasOption (player : GamePlayer) : Bool := player.option != 0

def hasOptionType (player : GamePlayer) (type : MjType) : Bool := hasType player.option type

/-- `ResetOption` clears the bits only: the stored offers stay. -/
def resetOption (player : GamePlayer) : GamePlayer := { player with option := 0 }

/-- The offers that `UpdateOption` stores. -/
def offeredCpgs (player : GamePlayer) (chair : Fin 2) (targetCard : Int) (targetChair : Option (Fin 2))
    (canGang : Bool) (update : Nat) : List CPG :=
  let found := findOptionalCpgs player.handCards player.cpgs targetCard update
  let fromLeft := match targetChair with
    | none => found
    | some target => found.filter fun cpg => !(isChiType cpg.type && chair != nextChair target)
  let served := if canGang then fromLeft else fromLeft.filter fun cpg => !isGangType cpg.type
  let kept := if player.ting then updateCpgsAfterTing player.handCards player.tingInfos served else served
  kept.map fun cpg => { cpg with targetChair }

/-- `UpdateOption`: the offers, the ready-hand offers and the option bits, all computed anew. -/
def updateOption (player : GamePlayer) (chair : Fin 2) (targetCard : Int)
    (targetChair : Option (Fin 2)) (canGang : Bool) (update : Nat) : GamePlayer :=
  let optionalCpgs := player.offeredCpgs chair targetCard targetChair canGang update
  let cpgBits := optionalCpgs.foldl (fun bits cpg => bits ||| cpg.type.bit) 0
  let huBits := if hasType update .hu ∧ (canHu player.handCards targetCard []).1 then MjType.hu.bit else 0
  let tingOptInfos := if !player.ting ∧ hasType update .ting then findTingOptInfos player.handCards else []
  let tingBits := if tingOptInfos.isEmpty then 0 else MjType.ting.bit
  { player with optionalCpgs, tingOptInfos, option := cpgBits ||| huBits ||| tingBits }

def setHosting (player : GamePlayer) (hosting : Bool) : GamePlayer :=
  { player with hosting, timeoutCnt := 0 }

def timeout (player : GamePlayer) : GamePlayer :=
  { player with timeoutCnt := player.timeoutCnt + 1
                hosting := player.hosting || decide (2 ≤ player.timeoutCnt + 1) }

/-- `NeedCard`, the test of the controlled deal. -/
def needCard (player : GamePlayer) (card : Int) : Bool :=
  if player.ting then player.tingInfos.contains card else player.needCards.contains card

end GamePlayer

end H5Server.Erqs
