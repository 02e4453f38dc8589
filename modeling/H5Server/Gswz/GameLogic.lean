import Mathlib.Data.List.Sort
import Mathlib.Order.Lattice

/-! # The hands of five-card stud (`CGameLogic`)

A card is a byte, whose high half is the colour and whose low half is the value. An iterator is the list of the
cards from its position on, so that a read past the last card of the vector gives nothing.
-/

namespace H5Server.Gswz

/-- `m_cbCardListData` -/
def cardListData : List ℕ :=
  [0x08, 0x09, 0x0A, 0x0B, 0x0C, 0x0D, 0x01, 0x18, 0x19, 0x1A, 0x1B, 0x1C, 0x1D, 0x11,
    0x28, 0x29, 0x2A, 0x2B, 0x2C, 0x2D, 0x21, 0x38, 0x39, 0x3A, 0x3B, 0x3C, 0x3D, 0x31]

inductive CardType where
  | single | double | twoDouble | third | link | sameFlower | calabash | four | sameFlowerLink | maxSameFlowerLink
  deriving DecidableEq, Repr

/-- The number of a type, by which types are compared. -/
def CardType.value : CardType → ℕ
  | single => 1
  | double => 2
  | twoDouble => 3
  | third => 4
  | link => 5
  | sameFlower => 6
  | calabash => 7
  | four => 8
  | sameFlowerLink => 9
  | maxSameFlowerLink => 10

def getCardValue (cardData : ℕ) : ℕ := cardData &&& 0x0F

def getCardColor (cardData : ℕ) : ℕ := cardData &&& 0xF0

def getCardLogicValue (cardData : ℕ) : ℕ :=
  if getCardValue cardData = 1 then getCardValue cardData + 13 else getCardValue cardData

def compareSingleCard (first second : ℕ) : Bool :=
  if getCardLogicValue first = getCardLogicValue second then second < first
  else getCardLogicValue second < getCardLogicValue first

/-- The order of `SortCardList`: no card stands behind one it comes before. -/
def sortsBefore (card card' : ℕ) : Prop := compareSingleCard card' card = false

instance : DecidableRel sortsBefore := fun card card' => inferInstanceAs (Decidable (compareSingleCard card' card = false))

def sortCardList (cards : List ℕ) : List ℕ := cards.insertionSort sortsBefore

/-- The copy of an array into a vector. -/
def copied (cardData : List ℕ) (cardCount : ℕ) : Option (List ℕ) :=
  if cardCount ≤ cardData.length then some (cardData.take cardCount) else none

/-! ## Types -/

/-- The loop of `isThird` and `isFour`, with `sameCount` cards of one value up to `tmpCard`. -/
def sameCards (wanted tmpCard sameCount : ℕ) : ℕ → List ℕ → Option ℕ
  | 0, _ => some 0
  | _ + 1, [] => none
  | left + 1, card :: rest =>
    let sameCount := if getCardLogicValue card = getCardLogicValue tmpCard then sameCount + 1 else 1
    if sameCount = wanted then some tmpCard else sameCards wanted card sameCount left rest

/-- The last card but one of the first cards of one value that are as many as wanted, else zero. -/
def repeated (wanted : ℕ) (sortedCards : List ℕ) (cardCount : ℕ) : Option ℕ :=
  match sortedCards with
  | [] => none
  | tmpCard :: rest => sameCards wanted tmpCard 1 (cardCount - 1) rest

/-- The source has no counter here, as the first equal card ends the loop. -/
def isDouble (sortedCards : List ℕ) (cardCount : ℕ) : Option ℕ := repeated 2 sortedCards cardCount

def isThird (sortedCards : List ℕ) (cardCount : ℕ) : Option ℕ := repeated 3 sortedCards cardCount

def isFour (sortedCards : List ℕ) (cardCount : ℕ) : Option ℕ := repeated 4 sortedCards cardCount

/-- The first cards of one value, with the iterator behind them: whether they are two, whether three. -/
def firstBlock (tmpCard sameCount : ℕ) : ℕ → List ℕ → Option (Bool × Bool × List ℕ)
  | 0, _ => some (false, false, [])
  | _ + 1, [] => none
  | left + 1, card :: rest =>
    if getCardLogicValue card = getCardLogicValue tmpCard then firstBlock tmpCard (sameCount + 1) left rest
    else some (sameCount == 2, sameCount == 3, card :: rest)

def isCalabash (sortedCards : List ℕ) (cardCount : ℕ) : Option Bool :=
  match sortedCards with
  | [] => none
  | tmpCard :: rest => do
    let (haveDouble, haveThird, rest) ← firstBlock tmpCard 1 (cardCount - 1) rest
    if haveDouble then return (← isThird rest (cardCount - 2)) != 0
    if haveThird then return (← isDouble rest (cardCount - 3)) != 0
    return false

/-- The number of cards up to `tmpCard` each of which is one below the card before. -/
def linked (tmpCard linkCount : ℕ) : ℕ → List ℕ → Option ℕ
  | 0, _ => some linkCount
  | _ + 1, [] => none
  | left + 1, card :: rest =>
    linked card (if getCardLogicValue card + 1 = getCardLogicValue tmpCard then linkCount + 1 else 1) left rest

def isLink (sortedCards : List ℕ) (cardCount : ℕ) : Option Bool :=
  match sortedCards with
  | [] => none
  | tmpCard :: rest => do
    let linkCount ← linked tmpCard 1 (cardCount - 1) rest
    if linkCount = 4 ∧ cardCount = 5 then
      if getCardLogicValue tmpCard = 14 ∧ getCardLogicValue (← sortedCards[4]?) = 8 then
        return linkCount + 1 == cardCount
    return linkCount == cardCount

/-- The loop for the first pair, with the cards left and the iterator behind the pair. -/
def firstPair (tmpCard sameCount : ℕ) : ℕ → List ℕ → Option (Bool × ℕ × List ℕ)
  | 0, _ => some (false, 0, [])
  | _ + 1, [] => none
  | cardCount + 1, card :: rest =>
    if getCardLogicValue card = getCardLogicValue tmpCard then firstPair card (sameCount + 1) cardCount rest
    else if sameCount = 2 then some (true, cardCount + 1, card :: rest)
    else firstPair card 1 cardCount rest

def isTwoDouble (sortedCards : List ℕ) (cardCount : ℕ) : Option Bool :=
  match sortedCards with
  | [] => none
  | tmpCard :: rest => do
    let (firstDouble, cardCount, rest) ← firstPair tmpCard 1 (cardCount - 1) rest
    if firstDouble ∧ 1 < cardCount then return (← isDouble rest cardCount) != 0
    return false

def oneColor (color : ℕ) : ℕ → List ℕ → Option Bool
  | 0, _ => some true
  | _ + 1, [] => none
  | left + 1, card :: rest => if getCardColor card ≠ color then some false else oneColor color left rest

def isSameFlower (sortedCards : List ℕ) (cardCount : ℕ) : Option Bool :=
  match sortedCards with
  | [] => none
  | tmpCard :: rest => oneColor (getCardColor tmpCard) (cardCount - 1) rest

/-- `GetCardType` on the sorted cards. Nothing where the assertion on the number of cards fails. -/
def typeOfSorted (cardBuff : List ℕ) (cardCount : ℕ) : Option CardType :=
  match cardCount with
  | 1 => some .single
  | 2 => do
    if (← isDouble cardBuff cardCount) ≠ 0 then return .double
    return .single
  | 3 => do
    if (← isThird cardBuff cardCount) ≠ 0 then return .third
    if (← isDouble cardBuff cardCount) ≠ 0 then return .double
    return .single
  | 4 => do
    let sameFlower ← isSameFlower cardBuff cardCount
    let link ← isLink cardBuff cardCount
    if sameFlower && link then return .sameFlowerLink
    if (← isFour cardBuff cardCount) ≠ 0 then return .four
    if sameFlower then return .sameFlower
    if link then return .link
    if (← isThird cardBuff cardCount) ≠ 0 then return .third
    if (← isTwoDouble cardBuff cardCount) then return .twoDouble
    if (← isDouble cardBuff cardCount) ≠ 0 then return .double
    return .single
  | 5 => do
    let sameFlower ← isSameFlower cardBuff cardCount
    let link ← isLink cardBuff cardCount
    if sameFlower && link then
      if getCardLogicValue (← cardBuff[4]?) = 10 then return .maxSameFlowerLink
      return .sameFlowerLink
    if (← isFour cardBuff cardCount) ≠ 0 then return .four
    if sameFlower then return .sameFlower
    if (← isCalabash cardBuff cardCount) then return .calabash
    if link then return .link
    if (← isThird cardBuff cardCount) ≠ 0 then return .third
    if (← isTwoDouble cardBuff cardCount) then return .twoDouble
    if (← isDouble cardBuff cardCount) ≠ 0 then return .double
    return .single
  | _ => none

def getCardType (cardData : List ℕ) (cardCount : ℕ) : Option CardType := do
  typeOfSorted (sortCardList (← copied cardData cardCount)) cardCount

/-! ## Comparisons -/

/-- The values of two hands card by card, as far as the count goes. -/
def compareValues : ℕ → List ℕ → List ℕ → Option Ordering
  | 0, _, _ => some .eq
  | count + 1, first :: firstRest, second :: secondRest =>
    if getCardLogicValue first > getCardLogicValue second then some .gt
    else if getCardLogicValue first < getCardLogicValue second then some .lt
    else compareValues count firstRest secondRest
  | _ + 1, _, _ => none

def compareSingle (first second : List ℕ) (cardCount : ℕ) : Option Bool := do
  match ← compareValues cardCount first second with
  | .gt => return true
  | .lt => return false
  | .eq => return (← first[0]?) > (← second[0]?)

/-- The cards of other values than the repeated one. -/
def others (repeatCard : ℕ) (sortedCards : List ℕ) (cardCount : ℕ) : Option (List ℕ) := do
  return (← copied sortedCards cardCount).filter fun card => getCardLogicValue repeatCard != getCardLogicValue card

def compareRepeat (first second : List ℕ) (repeatCount cardCount : ℕ) : Option Bool := do
  let firstRepeatCard ← repeated repeatCount first cardCount
  let secondRepeatCard ← repeated repeatCount second cardCount
  if getCardLogicValue firstRepeatCard = getCardLogicValue secondRepeatCard then
    let firstCards ← others firstRepeatCard first cardCount
    let secondCards ← others secondRepeatCard second cardCount
    match ← compareValues firstCards.length firstCards secondCards with
    | .gt => return true
    | .lt => return false
    | .eq => return firstRepeatCard > secondRepeatCard
  return getCardLogicValue firstRepeatCard > getCardLogicValue secondRepeatCard

/-- The card of a straight that counts, the jack in a straight of ace, eight, nine, ten and jack. -/
def linkMaxCard (sortedCards : List ℕ) : Option ℕ := do
  let maxCard ← sortedCards[0]?
  if getCardLogicValue maxCard = 14 then
    if getCardLogicValue (← sortedCards[4]?) = 8 then return ← sortedCards[1]?
  return maxCard

def compareLink (first second : List ℕ) : Option Bool := do
  let firstMaxCard ← linkMaxCard first
  let secondMaxCard ← linkMaxCard second
  if getCardLogicValue firstMaxCard = getCardLogicValue secondMaxCard then
    return getCardColor firstMaxCard > getCardColor secondMaxCard
  return getCardLogicValue firstMaxCard > getCardLogicValue secondMaxCard

/-- The card of the higher pair that is compared in the end, and the card in no pair. -/
def pairsRest (sortedCards : List ℕ) (maxDouble minDouble : ℕ) : Option (ℕ × ℕ) := do
  let card ← sortedCards[0]?
  if getCardLogicValue card = getCardLogicValue maxDouble then
    let middle ← sortedCards[2]?
    if getCardLogicValue middle = getCardLogicValue minDouble then return (card, ← sortedCards[4]?)
    return (card, middle)
  return (maxDouble, card)

def compareTwoDouble (first second : List ℕ) (cardCount : ℕ) : Option Bool := do
  let firstMaxDouble ← first[1]?
  let firstMinDouble ← first[3]?
  let secondMaxDouble ← second[1]?
  let secondMinDouble ← second[3]?
  if getCardLogicValue firstMaxDouble > getCardLogicValue secondMaxDouble then return true
  if getCardLogicValue firstMaxDouble < getCardLogicValue secondMaxDouble then return false
  if getCardLogicValue firstMinDouble > getCardLogicValue secondMinDouble then return true
  if getCardLogicValue firstMinDouble < getCardLogicValue secondMinDouble then return false
  if cardCount = 4 then return (← first[0]?) > (← second[0]?)
  let (firstMaxDouble, firstSingleCard) ← pairsRest first firstMaxDouble firstMinDouble
  let (secondMaxDouble, secondSingleCard) ← pairsRest second secondMaxDouble secondMinDouble
  if getCardLogicValue firstSingleCard = getCardLogicValue secondSingleCard then
    return firstMaxDouble > secondMaxDouble
  return getCardLogicValue firstSingleCard > getCardLogicValue secondSingleCard

/-- The comparison of two sorted hands of one type. -/
def compareSorted (type : CardType) (first second : List ℕ) (cardCount : ℕ) : Option Bool :=
  match type with
  | .single | .sameFlower => compareSingle first second cardCount
  | .double => compareRepeat first second 2 cardCount
  | .third | .calabash => compareRepeat first second 3 cardCount
  | .four => compareRepeat first second 4 cardCount
  | .link | .sameFlowerLink | .maxSameFlowerLink => compareLink first second
  | .twoDouble => compareTwoDouble first second cardCount

/-- Whether the first hand beats the next one. Nothing where a card past the end of a hand is read. -/
def compareCard (firstData nextData : List ℕ) (cardCount : ℕ) : Option Bool := do
  let firstType ← getCardType firstData cardCount
  let secondType ← getCardType nextData cardCount
  if secondType = firstType then
    compareSorted firstType (sortCardList (← copied firstData cardCount)) (sortCardList (← copied nextData cardCount))
      cardCount
  else return firstType.value > secondType.value

end H5Server.Gswz
