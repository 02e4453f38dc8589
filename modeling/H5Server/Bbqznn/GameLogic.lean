import H5Server.Lib.BubbleSort
import H5Server.Lib.Choices
import Mathlib.Algebra.BigOperators.Group.List.Basic
import Mathlib.Algebra.GroupWithZero.Nat
import Mathlib.Algebra.Order.Group.Nat

/-! # The hands of niuniu with jokers (`CGameLogic`)

A card is a byte, its colour in the upper and its value in the lower half; 0x4E and 0x4F are the small and the big
joker. A pair of king cards says what the small and the big joker stand for, with zero for a joker that stays as it is.
A function that writes to an array returns what it writes.
-/

namespace H5Server.Bbqznn

/-- `m_byCardDataArray` -/
def cardDataArray : List ℕ :=
  (List.range 4).flatMap fun color => (List.range 13).map fun value => color * 16 + value + 1

/-- `m_byHaveKingCardDataArray` -/
def haveKingCardDataArray : List ℕ := cardDataArray ++ [0x4E, 0x4F]

def getCardValue (cardData : ℕ) : ℕ := cardData &&& 0x0F

def getCardColor (cardData : ℕ) : ℕ := (cardData &&& 0xF0) >>> 4

def getLogicValue (cardData : ℕ) : ℕ := if getCardValue cardData > 10 then 10 else getCardValue cardData

def isKing (cardData : ℕ) : Bool := cardData = 0x4E ∨ cardData = 0x4F

/-! ## Types

The types from none to nine are the points of the hand.
-/

abbrev ctNiuNull : ℕ := 0
abbrev ctNiuniu : ℕ := 10
abbrev ctShunziNiu : ℕ := 11
abbrev ctWuhuaNiu : ℕ := 12
abbrev ctTonghuaNiu : ℕ := 13
abbrev ctHuluNiu : ℕ := 14
abbrev ctBombNiu : ℕ := 15
abbrev ctFivesmallNiu : ℕ := 16
abbrev ctTonghuashunNiu : ℕ := 17

/-- Whether the sort swaps two neighbours. -/
def swaps (card card' : ℕ) : Bool :=
  getCardValue card < getCardValue card' ∨ (getCardValue card = getCardValue card' ∧ card < card')

/-- `SortCardList`, and `SortCardListSix` for six cards. -/
def sortCardList (cardData : List ℕ) : List ℕ := Lib.bubbleSort swaps (cardData.length - 1) cardData

def isFiveSmall (cardData : List ℕ) : Bool :=
  (cardData.all fun card => getCardValue card ≤ 4 ∧ ¬isKing card) ∧
    (cardData.map getCardValue).sum ≤ 10 ∧ 0 < (cardData.map getCardValue).sum

def isBomb (cardData : List ℕ) : Bool :=
  cardData.countP (fun card => getCardValue ((sortCardList cardData).getD 2 0) = getCardValue card) = 4

def isGoldenBull (cardData : List ℕ) : Bool := (cardData.all fun card => 10 ≤ getCardValue card) ∧ cardData.length = 5

def isStraight (cardData : List ℕ) : Bool :=
  let tempCard := sortCardList cardData
  ¬isKing (tempCard.getD 0 0) ∧
    (List.range 4).all fun i => getCardValue (tempCard.getD i 0) = getCardValue (tempCard.getD (i + 1) 0) + 1

def isFlush (cardData : List ℕ) : Bool :=
  ¬isKing ((sortCardList cardData).getD 0 0) ∧
    cardData.all fun card => getCardColor (cardData.getD 0 0) = getCardColor card

def isTierce (cardData : List ℕ) : Bool := isStraight cardData && isFlush cardData

/-- The loop that looks for a joker here ends at once. -/
def isCalabash (cardData : List ℕ) : Bool :=
  let cardValue := sortCardList (cardData.map getCardValue)
  let v i := cardValue.getD i 0
  (v 0 = v 1 ∧ v 2 = v 3 ∧ v 3 = v 4) ∨ (v 0 = v 1 ∧ v 1 = v 2 ∧ v 3 = v 4)

/-- The points of the first two cards beside which the others make tens. -/
def isOtherNiu (cardData : List ℕ) : ℕ :=
  let temp := cardData.map getLogicValue
  match (Lib.choices 2 temp).find? fun pair => (temp.sum - pair.sum) % 10 = 0 with
  | some pair => if pair.sum > 10 then pair.sum - 10 else pair.sum
  | none => ctNiuNull

def getCardType (cardData : List ℕ) : ℕ :=
  if isTierce cardData then ctTonghuashunNiu
  else if isFiveSmall cardData then ctFivesmallNiu
  else if isBomb cardData then ctBombNiu
  else if isCalabash cardData then ctHuluNiu
  else if isFlush cardData then ctTonghuaNiu
  else if isGoldenBull cardData then ctWuhuaNiu
  else if isStraight cardData then ctShunziNiu
  else isOtherNiu cardData

/-! ## Five cards with jokers -/

/-- The values that a joker is tried with, in order. -/
def ranks : List ℕ := (List.range 13).map (· + 1)

/-- What a search has found: the type, and what the joker or the jokers become. -/
abbrev Found (κ : Type) := ℕ × κ

/-- The inner loop of the search with one joker: the ranks with which the hand has a wanted, better type. -/
def searchRanks (wanted : ℕ) (card : List ℕ) (found : Found ℕ) : Found ℕ × Bool :=
  ranks.foldl (fun (found, chosen) rank =>
    let type := isOtherNiu (card.set 0 rank)
    if wanted = type ∧ type > found.1 then ((type, 48 + rank), true) else (found, chosen)) (found, false)

/-- The outer loop from `CT_NIUNIU` down. -/
def searchTypes (card : List ℕ) : List ℕ → Found ℕ → Found ℕ
  | [], found => found
  | wanted :: wanteds, found =>
    let (found, haveChooseBestCard) := searchRanks wanted card found
    if haveChooseBestCard then found else searchTypes card wanteds found

/-- `searchMaxType` of `GetCardTypeOneKing`. -/
def searchMaxTypeOne (card : List ℕ) : Found ℕ :=
  if isBomb card then (ctBombNiu, 0)
  else if isGoldenBull card then (ctWuhuaNiu, 0)
  else
    let card := sortCardList card
    searchTypes card (List.range 11).reverse (isOtherNiu card, 0)

/-- A hand as it is chosen: its type, its cards and the king cards. -/
structure Best where
  maxType : ℕ
  cardData : List ℕ
  kingChangCard : ℕ × ℕ
deriving DecidableEq, Repr

/-- One of the two king cards is written, that of the big joker or that of the small one. -/
def setKing (kingChangCard : ℕ × ℕ) (big : Bool) (changcard : ℕ) : ℕ × ℕ :=
  if big then (kingChangCard.1, changcard) else (changcard, kingChangCard.2)

/-- `GetCardTypeOneKing` for five cards. -/
def getCardTypeOneKing (handCardData : List ℕ) (kingChangCard : ℕ × ℕ) : Best :=
  let (type, changcard) := searchMaxTypeOne handCardData
  ⟨type, handCardData, setKing kingChangCard (0x4F ∈ handCardData) changcard⟩

/-- The first search of `GetCardTypeTwoKing`, which changes the small joker. -/
def searchSmall (card : List ℕ) (found : Found (ℕ × ℕ)) : Found (ℕ × ℕ) :=
  ranks.foldl (fun found rank =>
    if isOtherNiu (card.set 1 rank) = ctNiuniu then (ctNiuniu, (48 + rank, 0)) else found) found

/-- The second one, which changes both. -/
def searchBoth (card : List ℕ) (found : Found (ℕ × ℕ)) : Found (ℕ × ℕ) :=
  (ranks.product ranks).foldl (fun found (small, big) =>
    if isOtherNiu ((card.set 1 small).set 0 big) = ctNiuniu then (ctNiuniu, (48 + small, 48 + big)) else found) found

/-- `searchMaxType` of `GetCardTypeTwoKing`. -/
def searchMaxTypeTwo (card : List ℕ) : Found (ℕ × ℕ) :=
  let card := sortCardList card
  if (card.drop 2).countP (fun card => 10 ≤ getCardValue card) = 3 then (ctWuhuaNiu, (0, 0))
  else
    let found := (isOtherNiu card, (0, 0))
    if found.1 = ctNiuniu then found
    else
      let found := searchSmall card found
      if found.1 = ctNiuniu then found else searchBoth card found

/-- `GetCardTypeTwoKing` for five cards. -/
def getCardTypeTwoKing (handCardData : List ℕ) : Best :=
  let (type, changcard) := searchMaxTypeTwo handCardData
  ⟨type, handCardData, changcard⟩

/-- `GetHaveKingBigCardType` for five cards. -/
def getHaveKingBigCardType (haveKing : Bool) (handCardData : List ℕ) (kingChangCard : ℕ × ℕ) : Best :=
  match if haveKing then handCardData.countP isKing else 0 with
  | 0 => ⟨getCardType handCardData, handCardData, kingChangCard⟩
  | 1 => getCardTypeOneKing handCardData kingChangCard
  | 2 => getCardTypeTwoKing handCardData
  | _ => ⟨0, [0, 0, 0, 0, 0], kingChangCard⟩

/-! ## Comparing -/

/-- The jokers of a hand with the king cards it is compared with. -/
structure Kings where
  two : Bool
  big : Bool
  small : Bool
  changCount : ℕ
deriving DecidableEq, Repr

/-- How often the loop finds a joker to change at one card. -/
def changed (kingChangCard : ℕ × ℕ) (card : ℕ) : ℕ :=
  let (card, count) := if card = 0x4E ∧ kingChangCard.1 ≠ 0 then (kingChangCard.1, 1) else (card, 0)
  if card = 0x4F ∧ kingChangCard.2 ≠ 0 then count + 1 else count

def kings (cardData : List ℕ) (kingChangCard : ℕ × ℕ) : Kings where
  two := cardData.countP isKing = 2
  big := 0x4F ∈ cardData
  small := 0x4E ∈ cardData
  changCount := (cardData.map (changed kingChangCard)).sum

def Kings.chang (k : Kings) : Bool := 0 < k.changCount

/-- What the jokers decide between two hands of one type up to `CT_NIUNIU`. -/
def compareKings (type : ℕ) (first next : Kings) : Option Bool :=
  let niuniu :=
    if type = ctNiuniu then
      if first.two ≠ next.two then
        if first.two ∧ first.changCount = 1 ∧ next.changCount = 0 then some true
        else if next.two ∧ next.changCount = 1 ∧ first.changCount = 0 then some false
        else none
      else if first.two ∧ first.changCount = 1 ∧ next.changCount = 2 then some true
      else if next.two ∧ next.changCount = 1 ∧ first.changCount = 2 then some false
      else none
    else none
  niuniu <|>
    if ¬first.chang ∧ next.chang then some true
    else if first.chang ∧ ¬next.chang then some false
    else if first.big ∧ ¬next.big then some true
    else if ¬first.big ∧ next.big then some false
    else none

/-- Between two hands with five flowers. -/
def compareFlowerKings (first next : Kings) : Option Bool :=
  if first.big then some true
  else if next.big then some false
  else if first.small then some true
  else if next.small then some false
  else none

/-- The first place at which two hands differ in something. -/
def compareBy (f : ℕ → ℕ) : List ℕ → List ℕ → Option Bool
  | first :: firsts, next :: nexts => if f next ≠ f first then some (f first > f next) else compareBy f firsts nexts
  | _, _ => none

def compareHighest (f : ℕ → ℕ) (first next : List ℕ) : Option Bool := compareBy f (first.take 1) (next.take 1)

/-- What the cards decide between two sorted hands of one type. -/
def compareCards (type : ℕ) (first next : List ℕ) (selfSixChooseFive firstBanker : Bool) : Option Bool :=
  if type ≤ ctNiuniu then
    if selfSixChooseFive then compareBy getCardValue first next <|> compareBy getCardColor first next
    else
      compareHighest getCardValue first next <|>
        some (decide (getCardColor (first.getD 0 0) > getCardColor (next.getD 0 0)))
  else if type = ctTonghuashunNiu ∨ type = ctTonghuaNiu ∨ type = ctWuhuaNiu ∨ type = ctShunziNiu then
    (if selfSixChooseFive then compareBy getCardValue first next else compareHighest getCardValue first next) <|>
      compareBy getCardColor first next
  else if type = ctFivesmallNiu then
    (if firstBanker then none else compareBy getCardValue first next <|> compareBy getCardColor first next) <|>
      some firstBanker
  else if type = ctBombNiu ∨ type = ctHuluNiu then
    if getCardValue (first.getD 2 0) = getCardValue (next.getD 2 0) then
      compareBy getCardValue first next <|> compareBy getCardColor first next
    else some (getCardValue (first.getD 2 0) > getCardValue (next.getD 2 0))
  else none

/-- `CompareCard`. Its `CompareType` is always two. -/
def compareCard (haveKing : Bool) (firstCard nextCard : List ℕ) (firstKingChangCard nextKingChangCard : ℕ × ℕ)
    (selfSixChooseFive firstBanker : Bool) : Bool :=
  let firstType := (getHaveKingBigCardType haveKing firstCard (0, 0)).maxType
  let nextType := (getHaveKingBigCardType haveKing nextCard (0, 0)).maxType
  if firstType ≠ nextType then firstType > nextType
  else
    let first := kings firstCard firstKingChangCard
    let next := kings nextCard nextKingChangCard
    let byKings :=
      if ¬haveKing then none
      else if firstType ≤ ctNiuniu then compareKings firstType first next
      else if firstType = ctWuhuaNiu then compareFlowerKings first next
      else none
    (byKings <|> compareCards firstType (sortCardList firstCard) (sortCardList nextCard) selfSixChooseFive
      firstBanker).getD false

/-! ## Five cards out of six -/

/-- The cards with one of them left out, for the loops over six cards. -/
def fiveOf (handCardData : List ℕ) : List (List ℕ) := (List.range 6).map handCardData.eraseIdx

/-- A round of the loop of `GetBigTypeCard`, with the hand chosen so far or nothing. -/
def chooseBig (haveKing : Bool) (best : Option (ℕ × List ℕ)) (tempcard : List ℕ) : Option (ℕ × List ℕ) :=
  let tempType := getCardType tempcard
  match best with
  | none => some (if tempType > 0 then tempType else 0, tempcard)
  | some (maxType, cardData) =>
    if tempType > maxType then some (tempType, tempcard)
    else if compareCard haveKing tempcard cardData (0, 0) (0, 0) true false then some (maxType, tempcard)
    else some (maxType, cardData)

/-- `GetBigTypeCard` -/
def getBigTypeCard (haveKing : Bool) (handCardData : List ℕ) : ℕ × List ℕ :=
  ((fiveOf handCardData).foldl (chooseBig haveKing) none).getD (0, [0, 0, 0, 0, 0])

/-- A round of the loop of `GetCardTypeOneKing` over six cards, with the choice so far and whether nothing is chosen. -/
def chooseOneKing (haveKing : Bool) (state : Best × Bool) (tempcard : List ℕ) : Best × Bool :=
  let (best, firsChoose) := state
  if tempcard.countP isKing = 1 then
    let big : Bool := 0x4F ∈ tempcard
    let (searchType, changcard) := searchMaxTypeOne tempcard
    if searchType > best.maxType then
      (⟨searchType, tempcard, setKing best.kingChangCard big changcard⟩, false)
    else if searchType = best.maxType ∧
        compareCard haveKing tempcard best.cardData (setKing (0, 0) big changcard) best.kingChangCard true false then
      (⟨searchType, tempcard, setKing best.kingChangCard big changcard⟩, false)
    else (best, firsChoose)
  else
    let tempType := getCardType tempcard
    if tempType > best.maxType then (⟨tempType, tempcard, (0, 0)⟩, false)
    else if firsChoose then (⟨best.maxType, tempcard, (0, 0)⟩, false)
    else if compareCard haveKing tempcard best.cardData (0, 0) best.kingChangCard true false then
      (⟨best.maxType, tempcard, (0, 0)⟩, false)
    else (best, false)

/-- `GetCardTypeOneKing` for six cards. -/
def getCardTypeOneKingSix (haveKing : Bool) (handCardData : List ℕ) : Best :=
  ((fiveOf handCardData).foldl (chooseOneKing haveKing) (⟨0, [0, 0, 0, 0, 0], (0, 0)⟩, true)).1

/-- The variables of the loop of `GetCardTypeTwoKing` over six cards; `twoKingChangCard` is the king cards chosen. -/
structure TwoKingChoice where
  maxType : ℕ
  cardData : List ℕ
  twoKingChangCard : ℕ × ℕ
  tmpMaxChangCard : List ℕ
  chooseOneking : Bool
  chooseTwoking : Bool
deriving DecidableEq, Repr

/-- A hand of the big joker and four other cards. -/
def TwoKingChoice.withBig (choice : TwoKingChoice) (tempcard : List ℕ) : TwoKingChoice :=
  let found := getCardTypeOneKing tempcard (0, 0)
  let choice := { choice with chooseOneking := true }
  if found.maxType = ctNiuniu ∧ choice.maxType = 0 then
    { choice with maxType := found.maxType, cardData := found.cardData, tmpMaxChangCard := tempcard }
  else if found.maxType = ctNiuniu ∧ choice.twoKingChangCard.1 ≠ 0 ∧ choice.twoKingChangCard.2 ≠ 0 then
    { choice with
      maxType := found.maxType, twoKingChangCard := (0, found.kingChangCard.2), cardData := found.cardData,
      tmpMaxChangCard := tempcard }
  else choice

/-- A hand with both jokers. -/
def TwoKingChoice.withBoth (haveKing : Bool) (choice : TwoKingChoice) (tempcard : List ℕ) : TwoKingChoice :=
  let (searchType, tempChangcard) := searchMaxTypeTwo tempcard
  let taken :=
    { choice with
      maxType := searchType, twoKingChangCard := tempChangcard, cardData := tempcard, tmpMaxChangCard := tempcard }
  let wins := compareCard haveKing tempcard choice.cardData tempChangcard choice.twoKingChangCard true false
  if searchType = ctNiuniu ∧ choice.maxType = 0 then { taken with chooseTwoking := true }
  else if searchType = ctNiuniu then
    if choice.chooseOneking then
      if tempChangcard.1 = 0 ∨ tempChangcard.2 = 0 then
        if choice.chooseTwoking then if wins then taken else choice
        else { taken with chooseTwoking := true }
      else if wins then taken else choice
    else if choice.chooseTwoking then if wins then taken else choice
    else { taken with chooseTwoking := true }
  else choice

def TwoKingChoice.next (haveKing : Bool) (choice : TwoKingChoice) (tempcard : List ℕ) : TwoKingChoice :=
  if tempcard.countP isKing = 1 ∧ 0x4F ∈ tempcard then choice.withBig tempcard
  else if tempcard.countP isKing = 2 then choice.withBoth haveKing tempcard
  else choice

/-- `GetCardTypeTwoKing` for six cards. -/
def getCardTypeTwoKingSix (haveKing : Bool) (handCardData : List ℕ) (kingChangCard : ℕ × ℕ) : Best :=
  let tempHandCardData := sortCardList handCardData
  let value := getCardValue (tempHandCardData.getD 3 0)
  let others := tempHandCardData.drop 2
  if others.countP (fun card => getCardValue card = value) = 4 then
    ⟨ctBombNiu, (handCardData.filter (· ≠ 0x4E)).take 5, kingChangCard⟩
  else if 3 ≤ others.countP (fun card => 10 ≤ getLogicValue card) then
    ⟨ctWuhuaNiu, (handCardData.filter (· ≠ tempHandCardData.getD 5 0)).take 5, kingChangCard⟩
  else
    let none_ : List ℕ := [0, 0, 0, 0, 0]
    let choice := (fiveOf handCardData).foldl (TwoKingChoice.next haveKing) ⟨0, none_, (0, 0), none_, false, false⟩
    ⟨choice.maxType, choice.tmpMaxChangCard, choice.twoKingChangCard⟩

/-- `GetHaveKingBigCardType` for six cards. -/
def getHaveKingBigCardTypeSix (haveKing : Bool) (handCardData : List ℕ) (kingChangCard : ℕ × ℕ) : Best :=
  match if haveKing then handCardData.countP isKing else 0 with
  | 0 =>
    let (maxType, cardData) := getBigTypeCard haveKing handCardData
    ⟨maxType, cardData, kingChangCard⟩
  | 1 => getCardTypeOneKingSix haveKing handCardData
  | 2 => getCardTypeTwoKingSix haveKing handCardData kingChangCard
  | _ => ⟨0, [0, 0, 0, 0, 0], kingChangCard⟩

end H5Server.Bbqznn
