import H5Server.Lib.Places
import Mathlib.Algebra.BigOperators.Fin
import Mathlib.Algebra.Order.BigOperators.Group.List
import Mathlib.Algebra.Order.Ring.Rat
import Mathlib.Data.List.FinRange
import Mathlib.Data.Rat.Defs
import Mathlib.Logic.Equiv.Basic
import Mathlib.Tactic.FinCases

/-! # Results of the animal wheel (`SlwhAlgorithm.cpp`)

A result is drawn by weight. If the table wants to win, wants to give away, or would lose too much, it is drawn again
until one is acceptable. Weights are rational numbers here, and a result is an animal with the way it opens.
-/

namespace H5Server.Slwh

inductive OpenType where
  | normal | piLiShanDian | songDeng | daSanYuan | daSiXi
deriving DecidableEq, Repr

/-- An animal, 0 to 11. -/
abbrev Animal := Fin 12

structure Outcome where
  winTag : Animal
  typeTag : OpenType
deriving DecidableEq, Repr

/-- The members that the draws read; the last three gates are tie, banker and player. -/
structure SlwhAlgorithm where
  bettingQuantity : Fin 15 → Int
  muticleArr : Fin 15 → Int
  curProfit : Int
  lowLimit : Int
  thresholdNum : Int
  killOrReword : Int
  iwinTagSd : Animal

/-- `probirity`: the weights of the animals, and of the four other ways to open. -/
structure Weights where
  animal : Animal → ℚ
  special : Fin 4 → ℚ

/-- The ways to open behind the weights 12 to 15. -/
def specialType (j : Fin 4) : OpenType := [OpenType.piLiShanDian, .songDeng, .daSanYuan, .daSiXi].get j

namespace SlwhAlgorithm

variable (alg : SlwhAlgorithm)

/-- What a gate pays. -/
def gatePay (gate : Fin 15) : Int := alg.bettingQuantity gate * alg.muticleArr gate

def animalPay (animal : Animal) : Int := alg.gatePay (animal.castLE (by decide))

def calculatWinScore (outcome : Outcome) : Int :=
  let winTag := outcome.winTag
  match outcome.typeTag with
  | .normal => alg.animalPay winTag
  | .piLiShanDian => alg.animalPay winTag * 2
  | .songDeng => alg.animalPay winTag + alg.animalPay alg.iwinTagSd
  | .daSanYuan =>
    let animID := winTag.val % 4
    ((List.finRange 3).map fun i => alg.animalPay ⟨animID + i.val * 4, by omega⟩).sum
  | .daSiXi =>
    let animID := winTag.val / 4
    ((List.finRange 4).map fun i => alg.animalPay ⟨animID * 4 + i.val, by omega⟩).sum

/-- All that is bet on the animals. -/
def betting : Int := ((List.finRange 12).map fun i => alg.bettingQuantity (i.castLE (by decide))).sum

/-- What the table wins with a result. -/
def winscore (outcome : Outcome) : Int := alg.betting - alg.calculatWinScore outcome

/-- `-(m_curProfit - m_lowLimit) / 2`, rounded towards zero. -/
def redLine : Int := (-(alg.curProfit - alg.lowLimit)).tdiv 2

/-! ## Draws -/

/-- `sortProbirityAndAnimal`: which animal stands at each place, the heaviest first. -/
def sortProbirityAndAnimal (weights : Weights) : Equiv.Perm Animal :=
  (List.finRange 12).foldl (fun animalID i =>
    (List.finRange 12).foldl (fun animalID j =>
      if i < j ∧ weights.animal (animalID i) < weights.animal (animalID j) then (Equiv.swap i j).trans animalID
      else animalID) animalID) (Equiv.refl _)

/-- The weights in the order of the draw. -/
def sortprobirity (weights : Weights) : List ℚ :=
  (List.finRange 12).map (fun i => weights.animal (sortProbirityAndAnimal weights i)) ++
    (List.finRange 4).map weights.special

/-- The loop that finds the first place at which the weights so far reach the draw. -/
def drawIdx : List ℚ → ℚ → Option Nat
  | [], _ => none
  | weight :: weights, pribility =>
    if pribility - weight ≤ 0 then some 0 else (drawIdx weights (pribility - weight)).map (· + 1)

theorem special_place {i : ℕ} (animal : ¬i < 12) (special : i < 16) : i - 11 < 5 := by omega

theorem special_kind {i : ℕ} (special : i < 16) : i - 12 < 4 := by omega

/-- A redraw; when no place is found the result stays. -/
def redraw (weights : Weights) (tmpID : Fin 5 → Animal) (pribility : ℚ) (outcome : Outcome) : Outcome :=
  match drawIdx (sortprobirity weights) pribility with
  | none => outcome
  | some i =>
    if animal : i < 12 then ⟨sortProbirityAndAnimal weights ⟨i, animal⟩, .normal⟩
    else if special : i < 16 then
      ⟨tmpID ⟨i - 11, special_place animal special⟩, specialType ⟨i - 12, special_kind special⟩⟩
    else outcome

/-- The first draw of `GetOpenCard`: for every animal it takes the preselected one. -/
def firstDraw (weights : Weights) (tmpID : Fin 5 → Animal) (pribility : ℚ) (outcome : Outcome) : Outcome :=
  match drawIdx (sortprobirity weights) pribility with
  | none => outcome
  | some i =>
    if animal : i < 12 then ⟨tmpID 0, .normal⟩
    else if special : i < 16 then
      ⟨tmpID ⟨i - 11, special_place animal special⟩, specialType ⟨i - 12, special_kind special⟩⟩
    else outcome

/-- The check for a result to give away. Its loop over the animals tests the drawn result each time. -/
def openCardCheck (outcome : Outcome) : Int :=
  if alg.killOrReword = 1 ∧ 0 < alg.betting then
    if alg.winscore outcome < 0 ∧ alg.redLine ≤ alg.winscore outcome then alg.killOrReword else -1
  else alg.killOrReword

/-- `isOk` in `GetOpenCard`: the result has to be drawn again. -/
def openCardAgain (killOrReword : Int) (outcome : Outcome) : Bool :=
  (killOrReword = -1 ∧ alg.winscore outcome < 0) ∨
    (killOrReword = 1 ∧ (0 < alg.winscore outcome ∨ alg.winscore outcome < alg.redLine)) ∨
    (alg.winscore outcome < -alg.thresholdNum ∧ alg.winscore outcome < alg.redLine)

def blackOpenCardCheck (outcome : Outcome) : Int :=
  if alg.killOrReword = 1 ∧ 0 < alg.betting then
    if alg.winscore outcome < 0 ∧ -alg.thresholdNum ≤ alg.winscore outcome ∧ alg.redLine ≤ alg.winscore outcome then
      alg.killOrReword
    else -1
  else alg.killOrReword

/-- `isOk` in `BlackGetOpenCard`. -/
def blackOpenCardAgain (killOrReword : Int) (outcome : Outcome) : Bool :=
  (killOrReword = -1 ∧ alg.winscore outcome < 0) ∨
    (killOrReword = 1 ∧ (0 < alg.winscore outcome ∨
      (alg.winscore outcome < -alg.thresholdNum ∧ alg.winscore outcome < alg.redLine))) ∨
    (alg.winscore outcome < -alg.thresholdNum ∧ alg.winscore outcome < alg.redLine)

/-- The do-while loop over the numbers drawn, with nothing returned when it asks for more of them. -/
def redrawLoop (weights : Weights) (tmpID : Fin 5 → Animal) (again : Outcome → Bool) :
    List ℚ → Outcome → Option Outcome
  | [], outcome => if again outcome then none else some outcome
  | pribility :: draws, outcome =>
    if again outcome then redrawLoop weights tmpID again draws (redraw weights tmpID pribility outcome)
    else some outcome

/-- `GetOpenCard`, with what its result held before. -/
def getOpenCard (weights : Weights) (tmpID : Fin 5 → Animal) (before : Outcome) (first : ℚ) (draws : List ℚ) :
    Option Outcome :=
  let outcome := firstDraw weights tmpID first before
  if alg.betting ≤ 0 then some outcome
  else redrawLoop weights tmpID (alg.openCardAgain (alg.openCardCheck outcome)) draws outcome

def blackGetOpenCard (weights : Weights) (tmpID : Fin 5 → Animal) (before : Outcome) (first : ℚ) (draws : List ℚ) :
    Option Outcome :=
  let outcome := redraw weights tmpID first before
  if alg.betting ≤ 0 then some outcome
  else redrawLoop weights tmpID (alg.blackOpenCardAgain (alg.blackOpenCardCheck outcome)) draws outcome

/-! ## Tie, banker and player -/

/-- `bettinggate`. -/
inductive Gate where
  | he | zhuang | xian
deriving DecidableEq, Repr

def Gate.index : Gate → Fin 15
  | .he => 12
  | .zhuang => 13
  | .xian => 14

def gateWinscore (gate : Gate) : Int :=
  let bet := fun gate : Gate => alg.bettingQuantity gate.index
  let lose := fun gate : Gate => -alg.bettingQuantity gate.index * (alg.muticleArr gate.index - 1)
  match gate with
  | .he => lose .he
  | .zhuang => lose .zhuang + bet .he + bet .xian
  | .xian => lose .xian + bet .he + bet .zhuang

def gateBetting : Int :=
  alg.bettingQuantity Gate.he.index + alg.bettingQuantity Gate.zhuang.index + alg.bettingQuantity Gate.xian.index

/-- The check of `GetOpenCard_HZX`, which looks at tie and banker only. -/
def hzxCheck : Int :=
  if alg.killOrReword = 1 then
    let winscores := ([Gate.he, .zhuang].map alg.gateWinscore).filter (· < 0)
    let bad := winscores.filter fun winscore => ¬(-alg.thresholdNum ≤ winscore ∨ alg.redLine ≤ winscore)
    if winscores.length = 0 ∨ bad.length = winscores.length then 0 else alg.killOrReword
  else alg.killOrReword

def hzxAgain (killOrReword : Int) (gate : Gate) : Bool :=
  if killOrReword = -1 then alg.gateWinscore gate < 0
  else if killOrReword = 1 then
    0 < alg.gateWinscore gate ∨ (alg.gateWinscore gate < -alg.thresholdNum ∧ alg.gateWinscore gate < alg.redLine)
  else alg.gateWinscore gate < -alg.thresholdNum ∧ alg.gateWinscore gate < alg.redLine

/-- Two ranks from 1 to 13 decide between the three. -/
def compareRanks (ranks : Nat × Nat) : Gate :=
  if ranks.1 = ranks.2 then .he else if ranks.2 < ranks.1 then .zhuang else .xian

def hzxLoop (killOrReword : Int) : List (Nat × Nat) → Option Gate
  | [] => none
  | ranks :: draws =>
    let gate := compareRanks ranks
    if alg.gateBetting ≤ 0 then some gate
    else if alg.hzxAgain killOrReword gate then hzxLoop killOrReword draws else some gate

def getOpenCardHZX (draws : List (Nat × Nat)) : Option Gate := alg.hzxLoop alg.hzxCheck draws

end SlwhAlgorithm

end H5Server.Slwh
