import H5Server.Erqs.MjAlgorithm
import Mathlib.Algebra.GroupWithZero.Nat
import Mathlib.Algebra.Ring.Int.Defs

/-! # The discard search by probability (`findPrInfo`)

The search compares, for each discard, how many tiles the rest of the hand is short of a winning shape, and in how many
ways they can still be drawn. The shapes come from files that are loaded at the start.
-/

namespace H5Server.Erqs.Probability

/-! ## Shapes -/

/-- A table of `CTableMgr`: of seven pairs or not, of honours or not, and its number of tiles. -/
structure TableKey where
  qidui : Bool
  zi : Bool
  sum : Nat
deriving DecidableEq, Repr

/-- `GetTable` and `GetQiDuiTable` find a table. -/
def hasTable (key : TableKey) : Bool :=
  if key.qidui then key.sum ∈ [2, 4, 6, 8, 10, 12, 14] else key.sum ∈ [2, 3, 5, 6, 8, 9, 11, 12, 14]

/-- The nine counts of each item of each table, as `LoadTable` leaves them. -/
abbrev HuTables := TableKey → List (List Nat)

/-- `id` of a part. -/
def partId (part : List Nat) : Nat := (part.zipIdx.map fun (value, k) => value <<< (k * 4)).sum

/-- `InitOnePart` over the sizes of the pair and the groups: each goes to the suit or to the honours. -/
def initOnePart (onePart : List Nat) (parts : List (List Nat)) : List Nat → List (List Nat)
  | [] => if parts.any (partId · == partId onePart) then parts else parts ++ [onePart]
  | compose :: composes => [0, 1].foldl (fun parts i => initOnePart (onePart.modify i (· + compose)) parts composes) parts

def isValidHandSum (sum : Nat) : Bool := sum ∈ [2, 5, 8, 11, 14]

def getParts (sum : Nat) : List (List Nat) :=
  initOnePart [0, 0] [] (2 :: List.replicate (if isValidHandSum sum then (sum - 2) / 3 else 0) 3)

def getQiDuiPart : List (List Nat) := initOnePart [0, 0] [] (List.replicate 7 2)

/-! ## Probability -/

structure TablePrInfo where
  huTable : List Nat
  needTable : List Nat
  need : Int
  probability : Int
deriving DecidableEq, Repr

structure PrInfo where
  outCard : Int := gameInvalidCard
  needCards : List Int := []
  need : Int := 0
  probability : Int := 0
deriving DecidableEq, Repr

/-- The conversion to `int8_t`. -/
def toInt8 (n : Int) : Int := (n + 128) % 256 - 128

/-- `c_n_m`; the division is the one of the integers. -/
def cNM (n m : Int) : Int :=
  let (mFactorial, nMFactorial) := (List.range (m.toNat - 1)).foldl
    (fun (mFactorial, nMFactorial) k => (mFactorial * (k + 2 : Int), nMFactorial * (n - (k + 1)))) ((1 : Int), n)
  nMFactorial.tdiv mFactorial

/-- What one shape still needs: `none` when the tiles left are not enough. -/
def needsOf (handPartTable : List Nat) (leftPartTable : List Int) (huTable : List Nat) : Option TablePrInfo :=
  ((List.range 9).foldl (fun acc m => acc.bind fun (allNeed, needTable, probability) =>
    let need : Int := (huTable.getD m 0 : Int) - handPartTable.getD m 0
    let left := leftPartTable.getD m 0
    if huTable.getD m 0 = 0 ∨ need ≤ 0 then some (allNeed, needTable, probability)
    else if left ≤ 0 ∨ left - need < 0 then none
    else some (allNeed + need, needTable.set m need.toNat,
      (if probability = 0 then 1 else probability) * cNM (toInt8 left) (toInt8 need)))
    (some ((0 : Int), List.replicate 9 0, (0 : Int)))).map fun (allNeed, needTable, probability) =>
      ⟨huTable, needTable, allNeed, probability⟩

/-- The shapes of one table within reach, and the least need. -/
def scanTable (handPartTable : List Nat) (leftPartTable : List Int) (huTables : List (List Nat)) :
    List TablePrInfo × Int :=
  huTables.foldl (fun (infos, oneTableItemMinNeed) huTable =>
    match needsOf handPartTable leftPartTable huTable with
    | none => (infos, oneTableItemMinNeed)
    | some info =>
      (infos ++ [info], if info.need ≤ oneTableItemMinNeed ∨ oneTableItemMinNeed = -1 then info.need else oneTableItemMinNeed))
    ([], -1)

/-- What `calculateFastestHuParts` collects. -/
structure FastState where
  prInfos : TableKey → List TablePrInfo
  minNeed : Int
  fastHuParts : List (List Nat × Bool)

/-- The need of one part: `none` when a table of it has no shape within reach. -/
def onePartMinNeed (loaded : HuTables) (handPartTables : List (List Nat)) (leftPartTables : List (List Int)) (qidui : Bool)
    (part : List Nat) (prInfos : TableKey → List TablePrInfo) : (TableKey → List TablePrInfo) × Option Int :=
  [0, 1].foldl (fun (prInfos, minNeed) i => match minNeed with
    | none => (prInfos, none)
    | some minNeed =>
      let key : TableKey := ⟨qidui, i == 1, part.getD i 0⟩
      if part.getD i 0 = 0 ∨ !hasTable key then (prInfos, some minNeed)
      else
        let (infos, oneTableItemMinNeed) := scanTable (handPartTables.getD i []) (leftPartTables.getD i []) (loaded key)
        let prInfos := Function.update prInfos key (prInfos key ++ infos)
        if (prInfos key).isEmpty then (prInfos, none) else (prInfos, some (minNeed + oneTableItemMinNeed)))
    (prInfos, some 0)

def calculateFastestHuParts (loaded : HuTables) (handPartTables : List (List Nat)) (leftPartTables : List (List Int))
    (parts : List (List Nat)) (qidui : Bool) (st : FastState) : FastState :=
  parts.foldl (fun st part =>
    match onePartMinNeed loaded handPartTables leftPartTables qidui part st.prInfos with
    | (prInfos, none) => { st with prInfos }
    | (prInfos, some need) =>
      if st.minNeed = 0 ∨ need < st.minNeed then ⟨prInfos, need, [(part, qidui)]⟩
      else if need = st.minNeed then ⟨prInfos, st.minNeed, st.fastHuParts ++ [(part, qidui)]⟩
      else { st with prInfos }) st

/-- `calculateFastestHuPr`: the number of ways, and the shapes of the least need. -/
def calculateFastestHuPr (prInfos : List TablePrInfo) (leftTable : List Int) : Int × List TablePrInfo :=
  match prInfos.insertionSort fun a b => a.need ≤ b.need with
  | [] => (0, [])
  | first :: rest =>
    let fast := ((first :: rest).takeWhile fun info => info.need ≤ first.need).insertionSort
      fun a b => b.probability ≤ a.probability
    let (_, valid) := fast.foldl (fun (leftTable, valid) info =>
      if (List.range 9).any fun i => leftTable.getD i 0 < info.needTable.getD i 0 then (leftTable, valid)
      else ((List.range 9).map fun i => leftTable.getD i 0 - info.needTable.getD i 0, valid ++ [info])) (leftTable, [])
    ((valid.map (·.probability)).sum, fast)

/-- `m_startIdx` of the two types of table. -/
def startIdx (i : Nat) : Nat := if i = 1 then 28 else 1

def addNeedCard (needCards : List Int) (needCard : Int) : List Int :=
  if needCard ∈ needCards then needCards else needCards ++ [needCard]

def calculateFastestHuPrInfo (loaded : HuTables) (handNum : Nat) (handPartTables : List (List Nat))
    (leftPartTables : List (List Int)) (eyeNum : Nat) (fastestHuPrInfo : PrInfo) : PrInfo :=
  let st := calculateFastestHuParts loaded handPartTables leftPartTables (getParts handNum) false ⟨fun _ => [], 0, []⟩
  let st := if handNum = 14 ∧ 5 ≤ eyeNum then
    calculateFastestHuParts loaded handPartTables leftPartTables getQiDuiPart true st else st
  let (probability, needCards) := st.fastHuParts.foldl (fun (probability, needCards) (part, qidui) =>
    let (partProbability, needCards) := [0, 1].foldl (fun (partProbability, needCards) i =>
      let key : TableKey := ⟨qidui, i == 1, part.getD i 0⟩
      if part.getD i 0 = 0 ∨ !hasTable key then (partProbability, needCards)
      else
        let (tableProbability, fast) := calculateFastestHuPr (st.prInfos key) (leftPartTables.getD i [])
        let needCards := fast.foldl (fun needCards info => (List.range 9).foldl (fun needCards k =>
          if 0 < info.needTable.getD k 0 then addNeedCard needCards (getCardByIdx (startIdx i + k)) else needCards)
          needCards) needCards
        (if partProbability = 0 ∨ tableProbability = 0 then partProbability + tableProbability
          else partProbability * tableProbability, needCards)) ((0 : Int), needCards)
    (probability + partProbability, needCards)) ((0 : Int), fastestHuPrInfo.needCards)
  { fastestHuPrInfo with need := st.minNeed, probability, needCards }

/-! ## Discards -/

/-- The counts of the first suit, and nine counts from the first honour on. -/
def partTables {α : Type} (get : Nat → α) : List (List α) :=
  [1, 28].map fun start => (List.range 9).map fun k => get (start + k)

def getZiCardNum (cards : List Int) : Nat := cards.countP (getColor · == 3)

/-- What the loop over the discards changes. -/
structure PrState where
  handTable : Table
  handPartTables : List (List Nat)
  fastHuPrInfo : PrInfo
  outCardIdx : Nat
  outCardSelIsZi : Bool

/-- The candidate is taken; `coin` stands for `rand() % 2 == 0`. -/
def takes (st : PrState) (prInfo : PrInfo) (outCardIsZi coin : Bool) : Bool :=
  let fast := st.fastHuPrInfo
  if fast.need = 0 ∨ prInfo.need < fast.need then true
  else if prInfo.need = fast.need then
    if fast.probability < prInfo.probability then true
    else if prInfo.probability = fast.probability then
      if prInfo.need = 1 then
        if getZiCardNum fast.needCards < getZiCardNum prInfo.needCards then true
        else getZiCardNum prInfo.needCards == getZiCardNum fast.needCards && coin
      else if !st.outCardSelIsZi && outCardIsZi then true
      else !(st.outCardSelIsZi && !outCardIsZi) && coin
    else false
  else false

/-- One entry of the part tables counted down: the first suit, and the honours. -/
def modifyParts (handPartTables : List (List Nat)) (i : Nat) (f : Nat → Nat) : List (List Nat) :=
  if i ≤ 9 then handPartTables.modify 0 (·.modify (i - 1) f)
  else if 28 ≤ i ∧ i ≤ 34 then handPartTables.modify 1 (·.modify (i - 28) f)
  else handPartTables

/-- The part tables on which a discard is evaluated: `none` when the hand does not have it or it is excluded. -/
def evaluatedOn (outCardsExclude : List Int) (st : PrState) (i : Nat) : Option (List (List Nat)) :=
  if 0 < st.handTable.get i ∧ getCardByIdx i ∉ outCardsExclude then some (modifyParts st.handPartTables i (· - 1)) else none

/-- One discard of the loop. -/
def prStep (evaluate : List (List Nat) → PrInfo) (outCardsExclude : List Int) (coin : Nat → Bool) (st : PrState) (i : Nat) :
    PrState :=
  match evaluatedOn outCardsExclude st i with
  | none => st
  | some handPartTables =>
    let handTable := st.handTable.set i (st.handTable.get i - 1)
    let prInfo := evaluate handPartTables
    if prInfo.probability = 0 then { st with handTable, handPartTables }
    else
      let outCardIsZi := 9 < i
      let st := if takes st prInfo outCardIsZi (coin i) then
        { st with fastHuPrInfo := prInfo, outCardIdx := i, outCardSelIsZi := outCardIsZi } else st
      { st with handTable := handTable.set i (handTable.get i + 1)
                handPartTables := modifyParts handPartTables i (· + 1) }

/-- The state after the discards before `bound`. -/
def prLoop (evaluate : List (List Nat) → PrInfo) (outCardsExclude : List Int) (coin : Nat → Bool) (handTable : Table)
    (fastHuPrInfo : PrInfo) (bound : Nat) : PrState :=
  (List.range' 1 (bound - 1)).foldl (prStep evaluate outCardsExclude coin)
    ⟨handTable, partTables handTable.get, fastHuPrInfo, 0, false⟩

/-- The evaluation of part tables for a hand of so many tiles. -/
def evaluateHand (loaded : HuTables) (cards : List Int) (leftTable : Nat → Int) (handNum : Nat) (fastestHuPrInfo : PrInfo)
    (handPartTables : List (List Nat)) : PrInfo :=
  calculateFastestHuPrInfo loaded handNum handPartTables (partTables leftTable) (getEyeNum (cardsToTable cards))
    fastestHuPrInfo

def findPrInfo (loaded : HuTables) (cards outCardsExclude : List Int) (leftTable : Nat → Int) (coin : Nat → Bool)
    (fastHuPrInfo : PrInfo) : PrInfo :=
  let handTable := cardsToTable cards
  if cards.length % 3 = 0 then fastHuPrInfo
  else if cards.length % 3 = 1 then
    evaluateHand loaded cards leftTable (cards.length + 1) fastHuPrInfo (partTables handTable.get)
  else
    let st := prLoop (evaluateHand loaded cards leftTable cards.length {}) outCardsExclude coin handTable fastHuPrInfo tableSize
    if st.outCardIdx ≠ 0 then { st.fastHuPrInfo with outCard := getCardByIdx st.outCardIdx } else st.fastHuPrInfo

end H5Server.Erqs.Probability
