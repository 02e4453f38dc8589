import H5Server.Lib.BubbleSort
import H5Server.Lib.Choices
import Mathlib.Algebra.BigOperators.Group.List.Basic
import Mathlib.Algebra.GroupWithZero.Nat
import Mathlib.Algebra.Order.Group.Int
import Mathlib.Algebra.Ring.Int.Defs

/-! # Hundred-player niuniu (`CGameLogic`)

A card is a byte, its colour in the upper and its value in the lower half. A function that changes the array it is given
returns the array with its result.
-/

namespace H5Server.Brnn

/-- `m_cbCardListData` -/
def cardListData : List ℕ := (List.range 4).flatMap fun color => (List.range 13).map fun value => color * 16 + value + 1

def getCardValue (cardData : ℕ) : ℕ := cardData &&& 0x0F

def getCardColor (cardData : ℕ) : ℕ := (cardData &&& 0xF0) >>> 4

def getLogicValue (cardData : ℕ) : ℕ := if getCardValue cardData > 10 then 10 else getCardValue cardData

/-- `Brnn::CARD_COIN_0` and the other types. -/
inductive CardCoin where
  | coin0 | coin1 | coin2 | coin3 | coin4 | coin5 | coin6 | coin7 | coin8 | coin9 | niuniu | silveryNiu | bomb | goldenBull
  | fiveSmall
deriving DecidableEq, Repr

/-- The number of a type, by which types are compared. -/
def CardCoin.value : CardCoin → ℤ
  | coin0 => 1
  | coin1 => 2
  | coin2 => 3
  | coin3 => 4
  | coin4 => 5
  | coin5 => 6
  | coin6 => 7
  | coin7 => 8
  | coin8 => 9
  | coin9 => 10
  | niuniu => 11
  | silveryNiu => 12
  | bomb => 13
  | goldenBull => 14
  | fiveSmall => 15

/-- Whether the sort swaps two neighbours. -/
def swaps (card card' : ℕ) : Bool :=
  getCardValue card < getCardValue card' ∨ (getCardValue card = getCardValue card' ∧ card < card')

def sortCardList (cardData : List ℕ) : List ℕ := Lib.bubbleSort swaps (cardData.length - 1) cardData

/-! ## Types -/

def judgeFiveSmallNiu (arr : List ℕ) : Bool :=
  (arr.all fun card => getCardValue card ≤ 4) ∧ (arr.map getCardValue).sum ≤ 10 ∧ 0 < (arr.map getCardValue).sum

def judgeBomb (arr : List ℕ) : Bool :=
  arr.countP (fun card => getCardValue ((sortCardList arr).getD 2 0) = getCardValue card) = 4

def judgeGoldenBull (arr : List ℕ) : Bool := (arr.all fun card => 10 < getCardValue card) ∧ arr.length = 5

def judgeSilveryBull (arr : List ℕ) : Bool :=
  let tempCard := sortCardList arr
  getCardValue (tempCard.getD 4 0) = 10 ∧ (tempCard.take 4).all fun card => 10 < getCardValue card

/-- The first three cards whose points make tens. -/
def niuCard (cardData : List ℕ) : Option (List ℕ) :=
  (Lib.choices 3 cardData).find? fun cards => (cards.map getLogicValue).sum % 10 = 0

/-- The type of a hand with three such cards, by the points of the other two. -/
def niuType (points : ℕ) : CardCoin :=
  match points % 10 with
  | 0 => .niuniu
  | 1 => .coin1
  | 2 => .coin2
  | 3 => .coin3
  | 4 => .coin4
  | 5 => .coin5
  | 6 => .coin6
  | 7 => .coin7
  | 8 => .coin8
  | _ => .coin9

/-- The type of five cards, and the cards with those that make the type in front. -/
def sortNiuNiuCard (cardData : List ℕ) : CardCoin × List ℕ :=
  if judgeFiveSmallNiu cardData then (.fiveSmall, cardData)
  else if judgeBomb cardData then
    let temp := sortCardList cardData
    let isBomb := fun card => getCardValue card = getCardValue (temp.getD 2 0)
    (.bomb, temp.filter (fun card => isBomb card) ++ temp.filter fun card => ¬isBomb card)
  else if judgeGoldenBull cardData then (.goldenBull, cardData)
  else if judgeSilveryBull cardData then
    (.silveryNiu, cardData.filter (fun card => getCardValue card ≠ 10) ++
      cardData.filter fun card => ¬getCardValue card ≠ 10)
  else
    match niuCard cardData with
    | none => (.coin0, cardData)
    | some niuCard =>
      let sorted := niuCard ++ cardData.filter (· ∉ niuCard)
      (niuType (getLogicValue (sorted.getD 3 0) + getLogicValue (sorted.getD 4 0)), sorted)

/-! ## Multiples -/

/-- What a type pays up to ten times the stake. -/
def multiple10 (type : CardCoin) : ℤ :=
  if type.value ≤ CardCoin.coin1.value then CardCoin.coin1.value - 1
  else if type.value > 11 then 10
  else type.value - 1

def calculateMultiples10 (arr brr : List ℕ) : ℤ :=
  let (res1, ax) := sortNiuNiuCard arr
  let (res2, bx) := sortNiuNiuCard brr
  let ax := sortCardList ax
  let bx := sortCardList bx
  let a i := ax.getD i 0
  let b i := bx.getD i 0
  if res1 = res2 then
    if res1 = .bomb then
      if getCardValue (a 2) > getCardValue (b 2) then 10 else -10
    else if getCardValue (a 0) > getCardValue (b 0) then multiple10 res1
    else if getCardValue (a 0) = getCardValue (b 0) then
      if getCardColor (a 0) < getCardColor (b 0) then -multiple10 res2 else multiple10 res1
    else -multiple10 res2
  else if res1.value > res2.value then multiple10 res1
  else -multiple10 res2

/-- What a type pays between hands of one type. -/
def multiple3Same (type : CardCoin) : ℤ :=
  if type.value < CardCoin.coin7.value then 1
  else if type.value < CardCoin.niuniu.value then 2
  else 3

/-- What the greater type pays. -/
def multiple3 (type : CardCoin) : ℤ :=
  if type.value ≤ CardCoin.coin6.value then 1
  else if type.value ≤ CardCoin.coin9.value then 2
  else 3

def calculateMultiples3 (arr brr : List ℕ) : ℤ :=
  let (res1, ax) := sortNiuNiuCard arr
  let (res2, bx) := sortNiuNiuCard brr
  let ax := sortCardList ax
  let bx := sortCardList bx
  let a i := ax.getD i 0
  let b i := bx.getD i 0
  if res1 = res2 then
    if res1 = .bomb then
      if getCardValue (a 2) > getCardValue (b 2) then 3 else -3
    else if getCardValue (a 0) > getCardValue (b 0) then multiple3Same res1
    else if getCardValue (a 0) = getCardValue (b 0) then
      if getCardColor (a 0) < getCardColor (b 0) then -multiple3Same res1 else multiple3Same res1
    else -multiple3Same res1
  else if res1.value > res2.value then multiple3 res1
  else -multiple3 res2

def calculateMultiples (isOpenTenMu : Bool) (arr brr : List ℕ) : ℤ :=
  if isOpenTenMu then calculateMultiples10 arr brr else calculateMultiples3 arr brr

end H5Server.Brnn
