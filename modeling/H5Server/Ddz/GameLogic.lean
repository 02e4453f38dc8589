import H5Server.Lib.Striking
import Mathlib.Data.List.Sort
import Mathlib.Data.List.SplitBy
import Mathlib.Order.Lattice

/-! # The cards of Dou Dizhu (`CGameLogic`)

A card is a byte, whose high half is the colour and whose low half is the value. A list of cards is what
the source gives as an array and a count.
-/

namespace H5Server.Ddz

open Lib

/-- `m_cbCardData` -/
def cardData : List ℕ :=
  [0x01, 0x02, 0x03, 0x04, 0x05, 0x06, 0x07, 0x08, 0x09, 0x0A, 0x0B, 0x0C, 0x0D,
    0x11, 0x12, 0x13, 0x14, 0x15, 0x16, 0x17, 0x18, 0x19, 0x1A, 0x1B, 0x1C, 0x1D,
    0x21, 0x22, 0x23, 0x24, 0x25, 0x26, 0x27, 0x28, 0x29, 0x2A, 0x2B, 0x2C, 0x2D,
    0x31, 0x32, 0x33, 0x34, 0x35, 0x36, 0x37, 0x38, 0x39, 0x3A, 0x3B, 0x3C, 0x3D, 0x4E, 0x4F]

/-- `m_cbGoodcardData` -/
def goodcardData : List ℕ :=
  [0x01, 0x02, 0x11, 0x12, 0x21, 0x22, 0x31, 0x32, 0x4E, 0x4F,
    0x07, 0x08, 0x09, 0x17, 0x18, 0x19, 0x27, 0x28, 0x29, 0x37, 0x38, 0x39,
    0x0A, 0x0B, 0x0C, 0x0D, 0x1A, 0x1B, 0x1C, 0x1D, 0x2A, 0x2B, 0x2C, 0x2D, 0x3A, 0x3B, 0x3C, 0x3D]

inductive CardType where
  | error | single | doubleCard | three | singleLine | doubleLine | threeLine | threeTakeOne | threeTakeTwo
  | fourTakeOne | fourTakeTwo | bombCard | missileCard
  deriving DecidableEq, Repr

def getCardValue (cardData : ℕ) : ℕ := cardData &&& 0x0F

def getCardColor (cardData : ℕ) : ℕ := cardData &&& 0xF0

def makeCardData (valueIndex colorIndex : ℕ) : ℕ := colorIndex * 16 + (valueIndex + 1)

/-- Jokers are above twos, and twos above aces. -/
def getCardLogicValue (cardData : ℕ) : ℕ :=
  if getCardColor cardData = 0x40 then getCardValue cardData + 2
  else if getCardValue cardData ≤ 2 then getCardValue cardData + 13 else getCardValue cardData

/-- The order of `SortCardList` by `ST_ORDER`, larger cards first. -/
def sortsBefore (card card' : ℕ) : Prop :=
  getCardLogicValue card' < getCardLogicValue card
    ∨ getCardLogicValue card' = getCardLogicValue card ∧ card' ≤ card

instance : DecidableRel sortsBefore := fun card card' =>
  inferInstanceAs (Decidable (getCardLogicValue card' < getCardLogicValue card
    ∨ getCardLogicValue card' = getCardLogicValue card ∧ card' ≤ card))

def sortCardList (cards : List ℕ) : List ℕ := cards.insertionSort sortsBefore

/-- `RemoveCardList`, and `RemoveGoodCardData` up to what stays behind the cards left. -/
def removeCardList (removeCard cards : List ℕ) : Option (List ℕ) :=
  (strikeAll 0 cards removeCard).map (unmarked 0)

/-! ## Types -/

/-- Cards of one value that stand together. -/
def sameBlocks (cards : List ℕ) : List (List ℕ) :=
  cards.splitBy fun card card' => getCardLogicValue card == getCardLogicValue card'

/-- The blocks of each size (`tagAnalyseResult`), of which there are none where one is too large. -/
def analysebCardData (cards : List ℕ) (size : ℕ) : List (List ℕ) :=
  if (sameBlocks cards).any fun block => 4 < block.length then []
  else (sameBlocks cards).filter fun block => block.length = size

/-- The value of the first card of a block. -/
def blockValue (block : List ℕ) : ℕ := getCardLogicValue (block.headD 0)

/-- Every block is one below the block before, and none is above an ace. -/
def isLine (blocks : List (List ℕ)) : Bool :=
  blockValue (blocks.headD []) < 15
    && (List.range blocks.length).all fun i => blockValue (blocks.headD []) == blockValue (blocks.getD i []) + i

def getCardType (cards : List ℕ) : CardType :=
  let count := cards.length
  let blocks := analysebCardData cards
  if count = 0 then .error
  else if count = 1 then .single
  else if count = 2 then
    if cards.getD 0 0 = 0x4F ∧ cards.getD 1 0 = 0x4E then .missileCard
    else if getCardLogicValue (cards.getD 0 0) = getCardLogicValue (cards.getD 1 0) then .doubleCard
    else .error
  else if 0 < (blocks 4).length then
    if (blocks 4).length = 1 ∧ count = 4 then .bombCard
    else if (blocks 4).length = 1 ∧ count = 6 then .fourTakeOne
    else if (blocks 4).length = 1 ∧ count = 8 ∧ (blocks 2).length = 2 then .fourTakeTwo
    else .error
  else if 0 < (blocks 3).length then
    if 1 < (blocks 3).length ∧ ¬isLine (blocks 3) then .error
    else if (blocks 3).length = 1 ∧ count = 3 then .three
    else if (blocks 3).length * 3 = count then .threeLine
    else if (blocks 3).length * 4 = count then .threeTakeOne
    else if (blocks 3).length * 5 = count ∧ (blocks 2).length = (blocks 3).length then .threeTakeTwo
    else .error
  else if 3 ≤ (blocks 2).length then
    if ¬isLine (blocks 2) then .error
    else if (blocks 2).length * 2 = count then .doubleLine
    else .error
  else if 5 ≤ (blocks 1).length ∧ (blocks 1).length = count then
    if isLine (blocks 1) then .singleLine else .error
  else .error

/-- The value by which two combinations of one type are compared. -/
def comparedValue (type : CardType) (cards : List ℕ) : ℕ :=
  match type with
  | .threeTakeOne | .threeTakeTwo => blockValue ((analysebCardData cards 3).headD [])
  | .fourTakeOne | .fourTakeTwo => blockValue ((analysebCardData cards 4).headD [])
  | _ => getCardLogicValue (cards.headD 0)

def compareCard (firstCard nextCard : List ℕ) : Bool :=
  let nextType := getCardType nextCard
  let firstType := getCardType firstCard
  if nextType = .error then false
  else if nextType = .missileCard then true
  else if firstType = .missileCard then false
  else if firstType ≠ .bombCard ∧ nextType = .bombCard then true
  else if firstType = .bombCard ∧ nextType ≠ .bombCard then false
  else if firstType ≠ nextType ∨ firstCard.length ≠ nextCard.length then false
  else comparedValue nextType firstCard < comparedValue nextType nextCard

end H5Server.Ddz
