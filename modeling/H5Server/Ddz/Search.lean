import H5Server.Ddz.GameLogic

/-! # The search for combinations (`CGameLogic::SearchOutCard`)

What is found is a list of suggestions, in the order of `tagSearchCardResult`. A suggestion need not be
in the hand: the wings of a plane are taken from a hand from which the plane was not removed.
-/

namespace H5Server.Ddz

/-- The blocks of a size, smaller cards first. -/
def fromSmall (cards : List ℕ) (size : ℕ) : List (List ℕ) := (analysebCardData cards size).reverse

/-- The blocks that have at least a number of cards, smaller blocks first. -/
def blocksFrom (cards : List ℕ) (size : ℕ) : List (List ℕ) :=
  (List.range' size (5 - size)).flatMap (fromSmall cards)

def referLogicValue (referCard : ℕ) : ℕ := if referCard = 0 then 0 else getCardLogicValue referCard

def searchSameCard (handCard : List ℕ) (referCard sameCount : ℕ) : List (List ℕ) :=
  ((blocksFrom (sortCardList handCard) sameCount).filter fun block => referLogicValue referCard < blockValue block).map
    (·.take sameCount)

/-- Cards of other values are taken to the cards of one value until there are enough. -/
def takeCards (takeCardCount needCount : ℕ) (same : List ℕ) : List (List ℕ) → Option (List ℕ)
  | [] => none
  | block :: blocks =>
    if getCardValue (same.headD 0) = getCardValue (block.headD 0) then takeCards takeCardCount needCount same blocks
    else if (same ++ block.take takeCardCount).length < needCount then
      takeCards takeCardCount needCount (same ++ block.take takeCardCount) blocks
    else some (same ++ block.take takeCardCount)

def searchTakeCardType (handCard : List ℕ) (referCard sameCount takeCardCount : ℕ) : List (List ℕ) :=
  let count := handCard.length
  if (sameCount = 4 ∧ count < sameCount + takeCardCount * 2) ∨ count < sameCount + takeCardCount then []
  else
    let needCount := if sameCount = 4 then sameCount + takeCardCount * 2 else sameCount + takeCardCount
    let cards := sortCardList handCard
    (searchSameCard cards referCard sameCount).filterMap fun same =>
      takeCards takeCardCount needCount same (blocksFrom cards takeCardCount)

/-- Cards of a value, whatever their colour (`cbDistributing[cbValueIndex][cbIndexCount]`). -/
def distributing (cards : List ℕ) (valueIndex : ℕ) : ℕ := cards.countP fun card => getCardValue card == valueIndex + 1

/-- `blockCount` cards of a value, higher colours first. -/
def lineCards (cards : List ℕ) (blockCount valueIndex : ℕ) : List ℕ :=
  ([3, 2, 1, 0].flatMap fun colorIndex =>
    List.replicate (cards.count (makeCardData valueIndex colorIndex)) (makeCardData valueIndex colorIndex)).take blockCount

/-- The cards of `length` values from one on. -/
def lineFrom (cards : List ℕ) (blockCount start length : ℕ) : List ℕ :=
  (List.range' start length).flatMap (lineCards cards blockCount)

/-- One round of the loop over the values. `linkCount` values before this one can be linked. A line that
breaks off is found only where the length of lines is free. -/
def linkValue (cards : List ℕ) (blockCount lineCount lessLineCount : ℕ) (found : ℕ × List (List ℕ)) (valueIndex : ℕ) :
    ℕ × List (List ℕ) :=
  let linkCount := found.1
  if distributing cards valueIndex < blockCount then
    if linkCount < lessLineCount then (0, found.2)
    else (0, found.2 ++ [lineFrom cards blockCount (valueIndex - linkCount) linkCount])
  else if lineCount = 0 ∨ linkCount + 1 < lessLineCount then (linkCount + 1, found.2)
  else (linkCount, found.2 ++ [lineFrom cards blockCount (valueIndex + 1 - (linkCount + 1)) (linkCount + 1)])

def lessLineCount (blockCount lineCount : ℕ) : ℕ :=
  if lineCount ≠ 0 then lineCount else if blockCount = 1 then 5 else if blockCount = 2 then 3 else 2

/-- Where lines may start, as a byte. -/
def referIndex (referCard lessLineCount : ℕ) : ℕ :=
  if referCard = 0 then 2 else (getCardLogicValue referCard + 257 - lessLineCount) % 256

/-- Lines of a number of values, or with `lineCount = 0` the longest ones. An ace follows a king. -/
def searchLineCardType (handCard : List ℕ) (referCard blockCount lineCount : ℕ) : List (List ℕ) :=
  let less := lessLineCount blockCount lineCount
  let refer := referIndex referCard less
  if 14 < refer + less ∨ handCard.length < less * blockCount then []
  else
    let cards := sortCardList handCard
    let found := (List.range' refer (13 - refer)).foldl (linkValue cards blockCount lineCount less) (0, [])
    let ace := blockCount ≤ distributing cards 0
    if less - 1 ≤ found.1 ∧ (ace ∨ less ≤ found.1) then
      found.2 ++ [lineFrom cards blockCount (13 - found.1) found.1 ++ if ace then lineCards cards blockCount 0 else []]
    else found.2

/-- The wings for a plane of `lineCount` triples: the smallest blocks, whole ones if there are enough. -/
def distill (cards : List ℕ) (takeCardCount lineCount : ℕ) : Option (List ℕ) :=
  let blocks := analysebCardData cards takeCardCount
  if lineCount ≤ blocks.length then some (blocks.drop (blocks.length - lineCount)).flatten
  else
    let wings := (blocksFrom cards takeCardCount).map (·.take takeCardCount)
    if lineCount ≤ wings.length then some (wings.take lineCount).flatten else none

/-- The first multiple of three from `delCount` on that leaves enough cards. -/
def needDelCount (enough : ℕ → Bool) : ℕ → ℕ → ℕ
  | 0, delCount => delCount
  | fuel + 1, delCount => if enough delCount then delCount else needDelCount enough fuel (delCount + 3)

/-- A line without its first cards. -/
def shorten (line : List ℕ) (delCount : ℕ) : List ℕ :=
  ((removeCardList (line.take delCount) line).getD line).take (line.length - delCount)

/-- A line that leaves at least one card for each triple, if there is one. -/
def singleLineOf (handCount : ℕ) (line : List ℕ) : Option (List ℕ) :=
  if handCount - line.length < line.length / 3 then
    let delCount := needDelCount (fun del => (line.length - del) / 3 ≤ handCount + del - line.length) line.length 3
    if (line.length - delCount) / 3 < 2 then none else some (shorten line delCount)
  else some line

/-- A line for wings of two cards each, with the hand that the wings are taken from. -/
def doubleLineOf (handCard line : List ℕ) : Option (List ℕ × List ℕ) :=
  let tmpCardCount := handCard.length - line.length
  if tmpCardCount < line.length / 3 * 2 then
    let delCount := needDelCount
      (fun del => ((line.length - del) / 3 * 2 : ℤ) ≤ tmpCardCount + del - line.length) line.length 3
    if (line.length - delCount) / 3 < 2 then none
    else some (shorten line delCount, handCard.take (handCard.length - (line.length - delCount)))
  else some (line, ((removeCardList line handCard).getD handCard).take tmpCardCount)

/-- The plane with the smallest single cards as wings. -/
def singleWing (handCard line : List ℕ) : List ℕ :=
  let tmpCardCount := handCard.length - line.length
  let left := ((removeCardList line handCard).getD handCard).take tmpCardCount
  line ++ left.drop (tmpCardCount - line.length / 3)

def doubleWing (handCard line : List ℕ) : Option (List ℕ) := do
  let (short, left) ← doubleLineOf handCard line
  let wings ← distill left 2 (short.length / 3)
  some (short ++ wings)

/-- The slots of one kind of wings: their cards stand one after the other, but their numbers of cards stand
at the place of the line (`cbCardCount[i]`). -/
def wingSlots (wings : List (Option (List ℕ))) : List (List ℕ) :=
  (wings.filterMap id).mapIdx fun slot cards =>
    let count := (wings.getD slot none).elim 0 List.length
    (cards ++ List.replicate count 0).take count

def searchThreeTwoLine (handCard : List ℕ) : List (List ℕ) :=
  let lines := (searchLineCardType handCard 0 3 0).map (singleLineOf handCard.length)
  wingSlots (lines.map fun line => line.bind (doubleWing handCard))
    ++ wingSlots (lines.map fun line => line.map (singleWing handCard))

/-- `SortOutCardList` puts the cards of the combination's own value first. -/
def outCardFirst (turnCard : List ℕ) : ℕ :=
  match getCardType turnCard with
  | .threeTakeOne | .threeTakeTwo => ((analysebCardData turnCard 3).headD []).headD 0
  | .fourTakeOne | .fourTakeTwo => ((analysebCardData turnCard 4).headD []).headD 0
  | _ => turnCard.headD 0

/-- The cards of one value at the end of the hand, if there are at least two of them. -/
def smallestSame (cards : List ℕ) : List ℕ :=
  let same := cards.reverse.takeWhile fun card => getCardValue card == getCardValue (cards.getLastD 0)
  if 1 < same.length then same else []

/-- What may be led: the first combination of every kind. -/
def searchLead (cards : List ℕ) : List (List ℕ) :=
  let same := smallestSame cards
  let other (count : ℕ) := if same.length = count then [] else (searchSameCard cards 0 count).take 1
  (if getCardType cards ≠ .error then [cards] else [])
    ++ (if same ≠ [] then [same] else [])
    ++ other 1 ++ other 2 ++ other 3
    ++ (searchTakeCardType cards 0 3 1).take 1
    ++ (searchTakeCardType cards 0 3 2).take 1
    ++ (searchLineCardType cards 0 1 0).take 1
    ++ (searchLineCardType cards 0 2 0).take 1
    ++ (searchLineCardType cards 0 3 0).take 1
    ++ (searchThreeTwoLine cards).take 1
    ++ other 4
    ++ if cards.take 2 = [0x4F, 0x4E] then [[0x4F, 0x4E]] else []

/-- Answers to a plane. Wings are taken from the front of the whole hand. -/
def searchPlane (cards turnCard : List ℕ) (takeCardCount : ℕ) : List (List ℕ) :=
  let lineCount := turnCard.length / (3 + takeCardCount)
  (searchLineCardType cards (outCardFirst turnCard) 3 lineCount).filterMap fun line =>
    (distill (cards.take (cards.length - line.length)) takeCardCount lineCount).map (line ++ ·)

/-- Answers to three cards of a value and what goes with them. -/
def searchThreeTake (cards turnCard : List ℕ) (takeCardCount : ℕ) : List (List ℕ) :=
  if cards.length < turnCard.length then []
  else if turnCard.length = 4 ∨ turnCard.length = 5 then searchTakeCardType cards (turnCard.getD 2 0) 3 takeCardCount
  else searchPlane cards turnCard takeCardCount

/-- Answers of the same type. -/
def searchSameType (cards turnCard : List ℕ) : List (List ℕ) :=
  let count := turnCard.length
  match getCardType turnCard with
  | .single => searchSameCard cards (turnCard.headD 0) 1
  | .doubleCard => searchSameCard cards (turnCard.headD 0) 2
  | .three => searchSameCard cards (turnCard.headD 0) 3
  | .singleLine => searchLineCardType cards (turnCard.headD 0) 1 count
  | .doubleLine => searchLineCardType cards (turnCard.headD 0) 2 (count / 2)
  | .threeLine => searchLineCardType cards (turnCard.headD 0) 3 (count / 3)
  | .threeTakeOne => searchThreeTake cards turnCard 1
  | .threeTakeTwo => searchThreeTake cards turnCard 2
  | .fourTakeOne => searchTakeCardType cards (outCardFirst turnCard) 4 1
  | .fourTakeTwo => searchTakeCardType cards (outCardFirst turnCard) 4 2
  | _ => []

/-- Bombs and the rocket answer whatever they beat. -/
def searchBombs (cards turnCard : List ℕ) : List (List ℕ) :=
  if getCardType turnCard = .missileCard then []
  else
    (if 4 ≤ cards.length then
      searchSameCard cards (if getCardType turnCard = .bombCard then turnCard.headD 0 else 0) 4 else [])
    ++ if cards.take 2 = [0x4F, 0x4E] then [[0x4F, 0x4E]] else []

def searchOutCard (handCard turnCard : List ℕ) : List (List ℕ) :=
  let cards := sortCardList handCard
  if getCardType turnCard = .error then searchLead cards
  else searchSameType cards turnCard ++ searchBombs cards turnCard

end H5Server.Ddz
