import H5Server.Erqs.ComposeTypes
import H5Server.Lib.FirstBest
import Mathlib.Algebra.GroupWithZero.Nat

/-! # The scored reading of a winning hand (`findMaxCompose`)

Each decomposition is read in a pass over the checkers, and on a seven-pairs hand each round reads the pairs too.
That second pass is given the decomposition left in `maxCompose`, and without a decomposition there is no round.
-/

namespace H5Server.Erqs

open Lib

/-! ## Times -/

def getComposeTypeCheckerIdx (type : ComposeType) : Nat := composeTypeCheckers.findIdx (·.checkInfo.type = type)

def typeTimes (type : ComposeType) : Nat :=
  (composeTypeCheckers.map (·.checkInfo.times)).getD (getComposeTypeCheckerIdx type) 0

def getTimes (composeTypes : List ComposeType) : Nat := (composeTypes.map typeTimes).sum

/-! ## One pass over the checkers -/

/-- What a pass changes: the types that still count, and those found. -/
structure CheckPass where
  checkSwitches : ComposeType → Bool
  types : List ComposeType

/-- A type found so many times. -/
def CheckPass.push (checkInfo : ComposeTypeInfo) : Nat → CheckPass → CheckPass
  | 0, pass => pass
  | num + 1, pass => push checkInfo num
    ⟨fun type => pass.checkSwitches type && !checkInfo.mutexes.contains type, pass.types ++ [checkInfo.type]⟩

def CheckPass.check (mjInfo : MjInfo) (composeCard : ComposeCard) (kind : MutuallyType) (pass : CheckPass)
    (checker : ComposeTypeChecker) : CheckPass :=
  if checker.checkInfo.mutuallytype = kind ∨ checker.checkInfo.mutuallytype = .otherhu000 then
    if pass.checkSwitches checker.checkInfo.type then
      pass.push checker.checkInfo (checker.checkFunc mjInfo composeCard)
    else pass
  else pass

/-- The types that a pass keeps. -/
def checkTypes (mjInfo : MjInfo) (composeCard : ComposeCard) (kind : MutuallyType) : List ComposeType :=
  (composeTypeCheckers.foldl (CheckPass.check mjInfo composeCard kind) ⟨fun _ => true, []⟩).types

def removeTypes (composeTypes types : List ComposeType) : List ComposeType := types.foldl List.erase composeTypes

def isFourStraightType (type : ComposeType) : Bool := type = .shuanglonghui ∨ type = .sitongshun ∨ type = .sibugao

def isThreeStraightType (type : ComposeType) : Bool := type = .santongshun ∨ type = .qinglong ∨ type = .sanbugao

def isOneStraightType (type : ComposeType) : Bool := type = .yibangao ∨ type = .laoshaofu ∨ type = .lianliu

/-- `CalculateBFLL`: of the types made of straights only so many count. -/
def calculateBFLL (mjInfo : MjInfo) (composeCard : ComposeCard) (composeTypes : List ComposeType) : List ComposeType :=
  let threeStraightTypes := composeTypes.filter isThreeStraightType
  let oneStraightTypes := composeTypes.filter isOneStraightType
  if composeTypes.any isFourStraightType then
    removeTypes (removeTypes composeTypes threeStraightTypes) oneStraightTypes
  else if composeTypes.any isThreeStraightType then
    let composeTypes := removeTypes composeTypes (threeStraightTypes.drop 1)
    if 1 < oneStraightTypes.length then removeTypes composeTypes (oneStraightTypes.drop 1) else composeTypes
  else
    let straightThrees := findStraight mjInfo.cpgs composeCard
    if straightThrees.length = 4 then
      if oneStraightTypes.length = 6 then removeTypes composeTypes (oneStraightTypes.take 3)
      else if 2 < oneStraightTypes.length ∧ oneStraightTypes.length ≤ 5 then
        removeTypes composeTypes (oneStraightTypes.drop 2)
      else composeTypes
    else if straightThrees.length = 3 then
      if 2 < oneStraightTypes.length then removeTypes composeTypes (oneStraightTypes.drop 2) else composeTypes
    else composeTypes

/-! ## The best reading -/

structure Compose where
  composeCard : ComposeCard
  types : List ComposeType
  times : Nat
deriving Repr

/-- What a decomposition counts as. -/
def standardTypes (mjInfo : MjInfo) (composeCard : ComposeCard) : List ComposeType :=
  calculateBFLL mjInfo composeCard (checkTypes mjInfo composeCard .sansanyi3n2)

/-- What seven pairs count as, with the checkers given some decomposition. -/
def sevenPairsTypes (mjInfo : MjInfo) (composeCard : ComposeCard) : List ComposeType :=
  checkTypes mjInfo composeCard .qiduizi222

/-- The loop that looks for the largest times: `maxTimes` and `maxIdx`. -/
def maxTimesIdx (allComposeTypes : List (List ComposeType)) : Nat × Nat :=
  allComposeTypes.zipIdx.foldl
    (fun best (types, i) => if best.1 < getTimes types then (getTimes types, i) else best) (0, 0)

/-- One round of `findMaxCompose`: `allComposeTypes` grows, and the best of it goes into `maxCompose`. -/
def composeRound (mjInfo : MjInfo) (composeCards : List ComposeCard) (st : List (List ComposeType) × Compose)
    (composeCard : ComposeCard) : List (List ComposeType) × Compose :=
  let qidui := isTableQiDui mjInfo.table
  let allComposeTypes := st.1 ++ [standardTypes mjInfo composeCard] ++
    if qidui then [sevenPairsTypes mjInfo st.2.composeCard] else []
  let (maxTimes, maxIdx) := maxTimesIdx allComposeTypes
  (allComposeTypes,
    { composeCard := if qidui then st.2.composeCard else composeCards.getD maxIdx {}
      types := allComposeTypes.getD maxIdx []
      times := maxTimes })

def findMaxCompose (mjInfo : MjInfo) (composeCards : List ComposeCard) (maxCompose : Compose) : Compose :=
  (composeCards.foldl (composeRound mjInfo composeCards) ([], maxCompose)).2

/-- `CanHu` and then `Hu` of a player: the members `m_composeCards` and `m_huCompose` keep what they held before. -/
def hu (mjInfo : MjInfo) (composeCards : List ComposeCard) (huCompose : Compose) : Compose :=
  findMaxCompose mjInfo (canHu mjInfo.cards mjInfo.targetCard composeCards).2 huCompose

/-! ## What the score should be -/

/-- The decompositions of the hand. -/
def decompositions (mjInfo : MjInfo) : List ComposeCard := (canHu mjInfo.cards mjInfo.targetCard []).2

/-- The readings of the hand, each as the types kept for it; seven pairs have no decomposition. -/
def scoredReadings (mjInfo : MjInfo) : List (List ComposeType) :=
  (decompositions mjInfo).map (standardTypes mjInfo) ++
    if isTableQiDui mjInfo.table then [calculateBFLL mjInfo {} (sevenPairsTypes mjInfo {})] else []

/-- One best reading is the scored one, whatever an earlier call left behind. -/
def ScoresBest (mjInfo : MjInfo) : Prop :=
  ∃ types ∈ scoredReadings mjInfo, (∀ other ∈ scoredReadings mjInfo, getTimes other ≤ getTimes types) ∧
    ∀ composeCards huCompose,
      (hu mjInfo composeCards huCompose).types = types ∧ (hu mjInfo composeCards huCompose).times = getTimes types

/-- The hand is not seven pairs, or it has decompositions too and no decomposition put into the seven-pairs pass
matters: the pass keeps what it keeps without one, or what the best decomposition keeps, or it is not worth more than the first
decomposition, or worth less than the best. -/
def Undisturbed (mjInfo : MjInfo) : Prop :=
  isTableQiDui mjInfo.table = false ∨
    match (decompositions mjInfo).map (standardTypes mjInfo) with
    | [] => False
    | first :: behind => ∀ composeCard,
      sevenPairsTypes mjInfo composeCard = sevenPairsTypes mjInfo {} ∨
        sevenPairsTypes mjInfo composeCard = firstBest getTimes first behind ∨
        getTimes (sevenPairsTypes mjInfo composeCard) ≤ getTimes first ∨
        getTimes (sevenPairsTypes mjInfo composeCard) < getTimes (firstBest getTimes first behind)

/-! ## The rounds together -/

variable {mjInfo : MjInfo}

theorem maxTimesIdx_append (all : List (List ComposeType)) (types : List ComposeType) :
    maxTimesIdx (all ++ [types]) =
      if (maxTimesIdx all).1 < getTimes types then (getTimes types, all.length) else maxTimesIdx all := by
  rw [maxTimesIdx, List.zipIdx_append, List.foldl_append]
  simp only [Nat.zero_add, List.zipIdx_singleton, List.foldl_cons, List.foldl_nil]
  rfl

/-- The loop finds the first best entry. -/
theorem maxTimesIdx_spec (first : List ComposeType) (behind : List (List ComposeType)) :
    let best := firstBest getTimes first behind
    (maxTimesIdx (first :: behind)).1 = getTimes best ∧
      (first :: behind)[(maxTimesIdx (first :: behind)).2]? = some best := by
  induction behind using List.reverseRecOn with
  | nil =>
    have single : maxTimesIdx [first] = if 0 < getTimes first then (getTimes first, 0) else (0, 0) :=
      maxTimesIdx_append [] first
    rw [single]
    split_ifs with some_
    · exact ⟨rfl, rfl⟩
    · exact ⟨(Nat.eq_zero_of_not_pos some_).symm, rfl⟩
  | append_singleton behind types ih =>
    obtain ⟨times, entry⟩ := ih
    have grown : firstBest getTimes first (behind ++ [types]) =
        better getTimes (firstBest getTimes first behind) types := by
      rw [firstBest, List.foldl_append]
      rfl
    rw [← List.cons_append, maxTimesIdx_append, times, grown, better]
    split_ifs with less
    · refine ⟨rfl, ?_⟩
      rw [List.getElem?_concat_length]
    · refine ⟨times, ?_⟩
      rw [List.getElem?_append_left (List.getElem?_eq_some_iff.mp entry).1]
      exact entry

/-- The entries of a round. -/
def roundTypes (mjInfo : MjInfo) (left composeCard : ComposeCard) : List (List ComposeType) :=
  standardTypes mjInfo composeCard :: if isTableQiDui mjInfo.table then [sevenPairsTypes mjInfo left] else []

/-- After some rounds the list holds the entries of each, and the best of them is kept. -/
theorem composeRounds (composeCards : List ComposeCard) (huCompose : Compose) (done : List ComposeCard) :
    let st := done.foldl (composeRound mjInfo composeCards) ([], huCompose)
    st.1 = done.flatMap (roundTypes mjInfo huCompose.composeCard) ∧
      (isTableQiDui mjInfo.table = true → st.2.composeCard = huCompose.composeCard) ∧
      (done ≠ [] → st.2.times = (maxTimesIdx st.1).1 ∧ st.2.types = st.1.getD (maxTimesIdx st.1).2 []) := by
  induction done using List.reverseRecOn with
  | nil => exact ⟨rfl, fun _ => rfl, fun none_ => absurd rfl none_⟩
  | append_singleton done composeCard ih =>
    obtain ⟨all, left, -⟩ := ih
    rw [List.foldl_append, List.foldl_cons, List.foldl_nil, List.flatMap_append, List.flatMap_singleton, ← all]
    refine ⟨?_, ?_, fun _ => ⟨rfl, rfl⟩⟩
    · dsimp only [composeRound]
      rw [roundTypes, List.append_assoc]
      rcases qidui : isTableQiDui mjInfo.table
      · rfl
      · rw [left qidui]
        rfl
    · intro qidui
      dsimp only [composeRound]
      rw [if_pos qidui]
      exact left qidui

/-- What is scored when there are decompositions. -/
theorem findMaxCompose_eq {first : ComposeCard} {behind : List ComposeCard} (huCompose : Compose) :
    let best := firstBest getTimes (standardTypes mjInfo first)
      ((if isTableQiDui mjInfo.table then [sevenPairsTypes mjInfo huCompose.composeCard] else []) ++
        behind.flatMap (roundTypes mjInfo huCompose.composeCard))
    (findMaxCompose mjInfo (first :: behind) huCompose).types = best ∧
      (findMaxCompose mjInfo (first :: behind) huCompose).times = getTimes best := by
  obtain ⟨all, -, kept⟩ := composeRounds (first :: behind) huCompose (first :: behind)
  obtain ⟨times, types⟩ := kept (List.cons_ne_nil _ _)
  rw [List.flatMap_cons, roundTypes, List.cons_append] at all
  rw [all] at times types
  obtain ⟨bestTimes, entry⟩ := maxTimesIdx_spec (standardTypes mjInfo first)
    ((if isTableQiDui mjInfo.table then [sevenPairsTypes mjInfo huCompose.composeCard] else []) ++
      behind.flatMap (roundTypes mjInfo huCompose.composeCard))
  refine ⟨types.trans ?_, times.trans bestTimes⟩
  rw [List.getD_eq_getElem?_getD, entry, Option.getD_some]

end H5Server.Erqs
