import Mathlib.Data.Nat.Notation
import Mathlib.Order.Basic

/-! # Hands of blackjack (`hand.h`, `GameLogic.cpp`)

Hands 0 to 4 lie at the players' seats, hand 5 is the banker's, and hand `i + 6` is the second half
of a split hand `i`. A multiple is counted in halves, since a blackjack pays one and a half.
-/

namespace H5Server.Hjk

/-- What is staked on a hand and by whom; `masterChair` is `none` for `-1`. -/
structure Slip where
  userId : Int := 0
  insurescore : Nat := 0
  betscore : Nat := 0
  isactivated : Bool := false
  masterChair : Option Nat := none
deriving DecidableEq, Repr

/-- `Hand`, as `clear` leaves it by default. -/
structure Hand extends Slip where
  cardtype : Nat := 0
  cardpoint : Nat := 0
  cardcount : Nat := 2
  opercode : Nat := 0
  hasA : Bool := false
  issplited : Bool := false
  stopped : Bool := false
  doubled : Bool := false
deriving DecidableEq, Repr

/-- `next`: a hand, its second half, the next seat; the banker is not in the chain. -/
def nextHand (index : Nat) : Option Nat :=
  if index < 5 then some (index + 6)
  else if 6 ≤ index ∧ index < 10 then some (index - 5)
  else none

def isbanker (index : Nat) : Bool := index % 6 = 5

def issecond (index : Nat) : Bool := 6 ≤ index

/-! ## Card types and operation codes -/

abbrev ctBust : Nat := 1
abbrev ctPoints : Nat := 2
abbrev ctFiveDragon : Nat := 3
abbrev ctBlackjack : Nat := 4

abbrev operStop : Nat := 1
abbrev operCall : Nat := 2
abbrev operDouble : Nat := 4
abbrev operSplit : Nat := 8

def getCardLogicValue (cbCardData : Nat) : Nat := min 10 (cbCardData % 16)

/-- The banker counts an ace as eleven as soon as that makes 17 to 21. -/
def bankerStands (index point : Nat) (hasA : Bool) : Bool :=
  isbanker index && hasA && (17 ≤ point + 10 && point + 10 ≤ 21)

/-- `UpdateInit`: a hand of two cards. -/
def Hand.updateInit (hand : Hand) (index : Nat) (carddata : Nat × Nat) : Hand :=
  let first := getCardLogicValue carddata.1
  let second := getCardLogicValue carddata.2
  let point := first + second
  let hasA := first == 1 || second == 1
  let whole := !hand.issplited && !issecond index
  let blackjack := point == 11 && hasA && whole
  let stands := bankerStands index point hasA
  { hand with
    cardpoint := if stands then point + 10 else point
    hasA := hasA
    stopped := blackjack || stands
    cardtype := if blackjack then ctBlackjack else if point ≠ 21 then ctPoints else hand.cardtype
    opercode :=
      if blackjack || point == 21 then hand.opercode
      else if first = second ∧ whole = true then operStop + operCall + operDouble + operSplit
      else operStop + operCall + operDouble }

/-- `UpdateAddOne`, after `cardcount` has been raised. -/
def Hand.updateAddOne (hand : Hand) (index carddata : Nat) : Hand :=
  let value := getCardLogicValue carddata
  let point := hand.cardpoint + value
  let hasA := (hand.hasA || value == 1) && decide (point + 10 ≤ 21)
  let bust := decide (21 < point)
  let full := hand.cardcount == 5
  let stands := bankerStands index point hasA
  { hand with
    cardpoint := if stands then point + 10 else point
    hasA := hasA
    stopped := hand.stopped || bust || full || point == 21 || stands
    cardtype := if bust then ctBust else if full then ctFiveDragon else if point = 21 then ctPoints else hand.cardtype
    opercode := if bust || full || point == 21 then 0 else operCall + operStop }

/-- Half of the stake insures a hand. -/
def Hand.insured (hand : Hand) : Hand := { hand with insurescore := hand.betscore / 2 }

/-- `GetCardTypeMultiple`, in halves. -/
def getCardTypeMultiple (cardtype : Nat) : Int :=
  if cardtype = ctBlackjack ∨ cardtype = ctFiveDragon then 3 else 2

/-- `CompareCard`, in halves: positive when the banker wins. -/
def compareCard (banker player : Hand) : Int :=
  if player.cardtype = ctBust then 2
  else if banker.cardtype = ctBust then -getCardTypeMultiple player.cardtype
  else if player.cardtype ≠ banker.cardtype then
    if banker.cardtype < player.cardtype then -getCardTypeMultiple player.cardtype else 2
  else if player.cardtype = ctPoints ∧ player.cardpoint ≠ banker.cardpoint then
    if banker.cardpoint < player.cardpoint then -2 else 2
  else 0

/-! ## Cards move no stake -/

@[simp] theorem Hand.updateInit_toSlip (hand : Hand) (index : Nat) (carddata : Nat × Nat) :
    (hand.updateInit index carddata).toSlip = hand.toSlip := rfl

@[simp] theorem Hand.updateAddOne_toSlip (hand : Hand) (index carddata : Nat) :
    (hand.updateAddOne index carddata).toSlip = hand.toSlip := rfl

@[simp] theorem Hand.updateInit_issplited (hand : Hand) (index : Nat) (carddata : Nat × Nat) :
    (hand.updateInit index carddata).issplited = hand.issplited := rfl

@[simp] theorem Hand.updateAddOne_issplited (hand : Hand) (index carddata : Nat) :
    (hand.updateAddOne index carddata).issplited = hand.issplited := rfl

theorem Hand.insured_of_idle {hand : Hand} (bet : hand.betscore = 0) (insurance : hand.insurescore = 0) :
    hand.insured = hand := by
  have nothing : hand.betscore / 2 = hand.insurescore := by rw [bet, insurance]
  rw [Hand.insured, nothing]

/-- The banker wins the stake at most once. -/
theorem compareCard_le (banker player : Hand) : compareCard banker player ≤ 2 := by
  have multiple : 0 ≤ getCardTypeMultiple player.cardtype := by
    rw [getCardTypeMultiple]
    split <;> omega
  unfold compareCard
  split_ifs <;> omega

theorem neg_three_le_compareCard (banker player : Hand) : -3 ≤ compareCard banker player := by
  have multiple : getCardTypeMultiple player.cardtype ≤ 3 := by
    rw [getCardTypeMultiple]
    split <;> omega
  unfold compareCard
  split_ifs <;> omega

end H5Server.Hjk
