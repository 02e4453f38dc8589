import Mathlib.Data.List.Sort

/-! # The hands of three-card brag (`ZJH::CGameLogic`)

A card is a byte, its colour in the upper and its value in the lower half. The source sorts the hands it
compares in place; their order means nothing elsewhere and is not kept here.
-/

namespace H5Server.Zjh

/-- `MAX_COUNT` cards. -/
abbrev Hand := List ℕ

inductive HandTy
  | tyNil | tysp | ty20 | ty123 | tysc | ty123sc | ty30 | tysp235
  deriving DecidableEq

/-- The number of a type, by which types are compared. -/
def HandTy.rank : HandTy → ℤ
  | tyNil => 0
  | tysp => 1
  | ty20 => 2
  | ty123 => 3
  | tysc => 4
  | ty123sc => 5
  | ty30 => 6
  | tysp235 => 7

def getCardColor (card : ℕ) : ℕ := card / 16 * 16

def getCardValue (card : ℕ) : ℕ := card % 16

def getCardPoint (card : ℕ) : ℕ := if getCardValue card = 1 then 14 else getCardValue card

/-- `byCardPointColorGG` and `byCardValueColorGG` -/
def byColorGG (key : ℕ → ℕ) (card1 card2 : ℕ) : Bool :=
  if key card1 ≠ key card2 then key card2 < key card1 else getCardColor card2 ≤ getCardColor card1

/-- `SortCards` from the highest card down, by points or by values. -/
def sortCards (key : ℕ → ℕ) (cards : Hand) : Hand := cards.insertionSort fun card1 card2 => byColorGG key card1 card2

/-- `GetHandCardsType_private` with the hand as it leaves it sorted. -/
def getHandCardsTypePrivate (cards : Hand) : HandTy × Hand :=
  let cards := sortCards getCardPoint cards
  let p i := getCardPoint (cards.getD i 0)
  let c i := getCardColor (cards.getD i 0)
  if p 0 = p 1 then (if p 1 = p 2 then .ty30 else .ty20, cards)
  else if p 1 = p 2 then (.ty20, cards)
  else if p 1 = p 2 + 1 ∧ (p 0 = p 1 + 1 ∨ p 0 = p 2 + 12) then
    (if c 0 = c 1 ∧ c 1 = c 2 then .ty123sc else .ty123,
      if p 0 = p 2 + 12 then sortCards getCardValue cards else cards)
  else if c 0 = c 1 ∧ c 1 = c 2 then (.tysc, cards)
  else if p 0 = 5 ∧ p 1 = 3 ∧ p 2 = 2 then (.tysp235, cards)
  else (.tysp, cards)

def getHandCardsType (cards : Hand) : HandTy :=
  if (getHandCardsTypePrivate cards).1 = .tysp235 then .tysp else (getHandCardsTypePrivate cards).1

/-- The first of the differences that is not zero. -/
def firstDifference (differences : List ℤ) : ℤ := (differences.find? fun d => d ≠ 0).getD 0

def points (cards1 cards2 : Hand) (i : ℕ) : ℤ := getCardPoint (cards1.getD i 0) - getCardPoint (cards2.getD i 0)

def colors (cards1 cards2 : Hand) (i : ℕ) : ℤ := getCardColor (cards1.getD i 0) - getCardColor (cards2.getD i 0)

def compareSanPai (cards1 cards2 : Hand) : ℤ :=
  firstDifference [points cards1 cards2 0, points cards1 cards2 1, points cards1 cards2 2,
    colors cards1 cards2 0, colors cards1 cards2 1, colors cards1 cards2 2]

/-- The points of the single card of a pair. -/
def single (cards : Hand) : ℕ :=
  if getCardPoint (cards.getD 0 0) = getCardPoint (cards.getD 1 0) then getCardPoint (cards.getD 2 0)
  else getCardPoint (cards.getD 0 0)

/-- The colour by which two pairs with the same cards are compared. -/
def pairColor (cards : Hand) : ℕ :=
  if single cards = getCardPoint (cards.getD 1 0) then getCardColor (cards.getD 0 0)
  else if single cards < getCardPoint (cards.getD 1 0) then getCardColor (cards.getD 0 0)
  else getCardColor (cards.getD 1 0)

def compareDuiZi (cards1 cards2 : Hand) : ℤ :=
  firstDifference [points cards1 cards2 1, (single cards1 : ℤ) - single cards2, (pairColor cards1 : ℤ) - pairColor cards2]

def compareShunZi (cards1 cards2 : Hand) : ℤ := compareSanPai cards1 cards2

def compareJinHua (cards1 cards2 : Hand) : ℤ :=
  firstDifference [points cards1 cards2 0, points cards1 cards2 1, points cards1 cards2 2, colors cards1 cards2 0]

def compareShunJin (cards1 cards2 : Hand) : ℤ := compareJinHua cards1 cards2

def compareBaoZi (cards1 cards2 : Hand) : ℤ := points cards1 cards2 0

/-- Two sorted hands of one type. -/
def compareSameType : HandTy → Hand → Hand → ℤ
  | .tysp => compareSanPai
  | .ty20 => compareDuiZi
  | .ty123 => compareShunZi
  | .tysc => compareJinHua
  | .ty123sc => compareShunJin
  | .ty30 => compareBaoZi
  | _ => fun _ _ => 0

def compareHandCards (cards1 cards2 : Hand) (sp235 : Bool) : ℤ :=
  let (t0, cards1) := getHandCardsTypePrivate cards1
  let (t1, cards2) := getHandCardsTypePrivate cards2
  let plain t := if t = HandTy.tysp235 then HandTy.tysp else t
  let t0 := if sp235 then t0 else plain t0
  let t1 := if sp235 then t1 else plain t1
  if t0 = t1 then compareSameType (plain t0) cards1 cards2
  else if t0 = .tysp235 then
    if t1 = .ty30 ∧ getCardValue (cards2.getD 0 0) = 1 then t0.rank - t1.rank
    else if HandTy.tysp = t1 then compareSameType .tysp cards1 cards2
    else HandTy.tysp.rank - t1.rank
  else if t1 = .tysp235 then
    if t0 = .ty30 ∧ getCardValue (cards1.getD 0 0) = 1 then t0.rank - t1.rank
    else if t0 = HandTy.tysp then compareSameType .tysp cards1 cards2
    else t0.rank - HandTy.tysp.rank
  else t0.rank - t1.rank

end H5Server.Zjh
