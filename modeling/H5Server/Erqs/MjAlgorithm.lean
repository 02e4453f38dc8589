import H5Server.Erqs.Tiles
import H5Server.Lib.Places
import Mathlib.Algebra.GroupWithZero.Nat
import Mathlib.Data.List.Sort

/-! # The win check and the option searches (`MjAlgorithm.cpp`)

`canHu` backtracks over one suit at a time on a table that it changes in place, records the pieces
of every path in a map keyed by path prefixes, filters the complete paths and merges the suits.
A path is written in the source as two-digit codes joined by `-`; here it is the list of codes, so
that `substr(0, 2)`, `substr(0, 5)`, ... are the non-empty prefixes of the list.
-/

namespace H5Server.Erqs

/-! ## Win check -/

inductive ThreeType where
  | straight
  | repeat
deriving DecidableEq, Repr

/-- One meld of a decomposition, with its tile values. -/
structure ThreeCard where
  cards : List Int
  type : ThreeType
deriving DecidableEq, Repr

/-- `eye[0]` and `eye[1]` are always written together; `GAME_INVALID_CARD` is `none`. -/
structure ComposeCard where
  threes : List ThreeCard := []
  eye : Option Int := none
deriving DecidableEq, Repr

/-- One way to use up the `a` copies of a tile: `b` and `c` copies of the next two go along. -/
structure HuisuItem where
  a : Nat
  b : Nat
  c : Nat
  eye : Bool
deriving DecidableEq, Repr

def getHuisuOps (curNum : Nat) : List HuisuItem :=
  if curNum = 1 then [⟨1, 1, 1, false⟩]
  else if curNum = 2 then [⟨2, 0, 0, true⟩, ⟨2, 2, 2, false⟩]
  else if curNum = 3 then [⟨3, 0, 0, false⟩, ⟨3, 1, 1, true⟩, ⟨3, 3, 3, false⟩]
  else if curNum = 4 then [⟨4, 1, 1, false⟩, ⟨4, 2, 2, true⟩, ⟨4, 4, 4, false⟩]
  else []

/-- The pass of `check_zi` over the honours: `none` when it returns false. -/
def checkZi (table : Table) : Option (Bool × ComposeCard) :=
  (List.range 7).foldl (fun acc k => acc.bind fun (eye, composeCard) =>
    let i := 28 + k
    if table.get i = 0 then some (eye, composeCard)
    else if table.get i = 1 ∨ table.get i = 4 then none
    else if eye ∧ table.get i = 2 then none
    else if table.get i = 2 then some (true, { composeCard with eye := some (getCardByIdx i) })
    else if table.get i = 3 then
      let card := getCardByIdx i
      some (eye, { composeCard with threes := composeCard.threes ++ [⟨[card, card, card], .repeat⟩] })
    else some (eye, composeCard)) (some (false, {}))

/-- What the recursion of `split_color` shares by reference. -/
structure SplitState where
  paths : List (List Nat)
  table : Table
  composeCardMap : List (List Nat × ComposeCard)

/-- The pieces that operation `pi` takes at index `cur`. -/
def splitPiece (cur : Nat) (pi : HuisuItem) : ComposeCard :=
  let card := getCardByIdx cur
  let repeatNum := (if pi.eye then pi.a - 2 else pi.a) - pi.b
  { eye := if pi.eye then some card else none
    threes := (if repeatNum = 3 then [⟨[card, card, card], .repeat⟩] else []) ++
      List.replicate pi.b ⟨[card, card + 1, card + 2], .straight⟩ }

/-- Whether operation `pi` fits at index `cur` of the suit that ends before `stop`. -/
def splitFits (table : Table) (cur stop : Nat) (pi : HuisuItem) : Bool :=
  !((stop ≤ cur + 1 && 0 < pi.b) || (stop ≤ cur + 2 && 0 < pi.c) ||
    ((0 < pi.b && table.get (cur + 1) < pi.b) || (0 < pi.c && table.get (cur + 2) < pi.c)))

/-- `split_color` with `left = 9 - idx` ranks of the suit still to split. -/
def splitColor (offset : Nat) : Nat → List Nat → SplitState → SplitState
  | 0, curPath, st => { st with paths := st.paths ++ [curPath] }
  | left + 1, curPath, st =>
    let idx := 9 - (left + 1)
    let cur := offset + idx
    let n := st.table.get cur
    if n = 0 then splitColor offset left curPath st
    else
      (getHuisuOps n).zipIdx.foldl (fun st (pi, i) =>
        if splitFits st.table cur (offset + 9) pi then
          let table := ((st.table.set cur 0).set (cur + 1) (st.table.get (cur + 1) - pi.b))
          let table := table.set (cur + 2) (table.get (cur + 2) - pi.c)
          let path := curPath ++ [(idx + 1) * 10 + i]
          let st := splitColor offset left path
            { st with table := table, composeCardMap := (path, splitPiece cur pi) :: st.composeCardMap }
          let table := (st.table.set cur pi.a).set (cur + 1) (st.table.get (cur + 1) + pi.b)
          { st with table := table.set (cur + 2) (table.get (cur + 2) + pi.c) }
        else st) st

/-- The inner loop of `searchComposeCards` over the prefixes of one path. -/
def composePath (composeCardMap : List (List Nat × ComposeCard)) (path : List Nat) : Option ComposeCard :=
  (List.range path.length).foldl (fun acc k => acc.bind fun composeCard =>
    (composeCardMap.lookup (path.take (k + 1))).bind fun piece =>
      if piece.eye.isSome ∧ composeCard.eye.isSome then none
      else some ⟨piece.threes ++ composeCard.threes, piece.eye.or composeCard.eye⟩) (some {})

def searchComposeCards (composeCardMap : List (List Nat × ComposeCard)) (paths : List (List Nat)) :
    List ComposeCard :=
  paths.filterMap (composePath composeCardMap)

/-- `check_color` on one suit: `none` when it returns false, otherwise the table it leaves and the
decompositions it found. -/
def checkColor (offset : Nat) (table : Table) : Option (Table × List ComposeCard) :=
  let sum := ((List.range 9).map fun k => table.get (offset + k)).sum
  if sum = 0 then some (table, [])
  else if sum % 3 = 1 then none
  else
    let st := splitColor offset 9 [] ⟨[], table, []⟩
    let composeCards := searchComposeCards st.composeCardMap st.paths
    if composeCards.isEmpty then none else some (st.table, composeCards)

def mergeComposeCard (des src : ComposeCard) : Option ComposeCard :=
  if des.eye.isSome ∧ src.eye.isSome then none
  else some ⟨src.threes ++ des.threes, src.eye.or des.eye⟩

/-- One merge attempt of `mergeComposeCards`: the accumulator survives a failed attempt. -/
def mergeInto (acc : ComposeCard × Bool) (src : ComposeCard) : ComposeCard × Bool :=
  match mergeComposeCard acc.1 src with
  | some merged => (merged, true)
  | none => (acc.1, false)

/-- The suits in the order of `sort` by number of decompositions, largest first. -/
def sortComposeColors (composeColors : List (List ComposeCard)) : List (List ComposeCard) :=
  composeColors.insertionSort fun a b => b.length ≤ a.length

def mergeComposeCards (composeZi : ComposeCard) (composeColors : List (List ComposeCard)) :
    List ComposeCard :=
  let sorted := sortComposeColors composeColors
  let first := sorted.getD 0 []
  let merged := first.filterMap fun composeCard1 =>
    match mergeComposeCard composeZi composeCard1 with
    | none => none
    | some composeCard =>
      let acc := (sorted.getD 1 []).foldl (fun acc composeCard2 =>
        let next := mergeInto acc composeCard2
        if next.2 then (sorted.getD 2 []).foldl mergeInto next else next) (composeCard, true)
      if acc.2 then some acc.1 else none
  if first.isEmpty then merged ++ [composeZi] else merged

/-- `GetEyeNum`: the early exit tests the count, as the source does. -/
def getEyeNum (table : Table) : Nat :=
  (table.counts.foldl (fun acc count => acc.bind fun num =>
    if 35 ≤ count then none
    else if count = 0 ∨ count = 1 then some num
    else if count = 2 ∨ count = 3 then some (num + 1)
    else some (num + 2)) (some 0)).getD 0

def isTableQiDui (table : Table) : Bool := getEyeNum table == 7

/-- `canHu` on a table: the answer, and `composeCards` as it leaves them. -/
def canHuTable (table : Table) (composeCards : List ComposeCard) : Bool × List ComposeCard :=
  if (List.range 8).any fun k => table.get (35 + k) ≠ 0 then (false, composeCards)
  else
    let qidui := isTableQiDui table
    match checkZi table with
    | none => (qidui, composeCards)
    | some (_, composeZi) =>
      match checkColor 1 table with
      | none => (qidui, composeCards)
      | some (table, wan) =>
        match checkColor 10 table with
        | none => (qidui, composeCards)
        | some (table, tiao) =>
          match checkColor 19 table with
          | none => (qidui, composeCards)
          | some (_, tong) =>
            let composeCards := mergeComposeCards composeZi [wan, tiao, tong]
            (!composeCards.isEmpty || qidui, composeCards)

/-- `canHu` on hand tiles with an optional target tile. -/
def canHu (cards : List Int) (targetCard : Int) (composeCards : List ComposeCard) :
    Bool × List ComposeCard :=
  let table := cardsToTable cards
  let table := if targetCard ≠ gameInvalidCard then
    table.set (getCardIdx targetCard) (table.get (getCardIdx targetCard) + 1) else table
  canHuTable table composeCards

/-! ## Chi, peng and gang options -/

/-- The bits of `MjType`. -/
inductive MjType where
  | leftChi | centerChi | rightChi | peng | anGang | dianGang | jiaGang | ting | hu
deriving DecidableEq, Repr

/-- The bit number of an option: `mj_left_chi = 1 << 1`, ..., `mj_hu = 1 << 9`. -/
def MjType.pos : MjType → Nat
  | .leftChi => 1 | .centerChi => 2 | .rightChi => 3 | .peng => 4 | .anGang => 5
  | .dianGang => 6 | .jiaGang => 7 | .ting => 8 | .hu => 9

def MjType.bit (type : MjType) : Nat := 1 <<< type.pos

/-- `option & type`. -/
def hasType (option : Nat) (type : MjType) : Bool := option.testBit type.pos

def isChiType (type : MjType) : Bool :=
  type = .leftChi ∨ type = .centerChi ∨ type = .rightChi

def isGangType (type : MjType) : Bool :=
  type = .anGang ∨ type = .dianGang ∨ type = .jiaGang

/-- A chi, peng or gang; `targetChair` is `none` for `GAME_INVALID_CHAIR`. -/
structure CPG where
  type : MjType
  cards : List Int
  targetCard : Int
  targetChair : Option (Fin 2) := none
deriving DecidableEq, Repr

def findChiInTable (table : Table) (targetCard : Int) : List CPG :=
  if targetCard = gameInvalidCard then []
  else if 0x29 < targetCard then []
  else
    let targetIdx := getCardIdx targetCard
    let targetValue := getCardValue targetCard
    (if targetValue ≤ 7 ∧ 0 < table.get (targetIdx + 1) ∧ 0 < table.get (targetIdx + 2) then
      [{ type := .leftChi, cards := [targetCard, targetCard + 1, targetCard + 2], targetCard }] else []) ++
    (if targetValue ≠ 1 ∧ targetValue ≠ 9 ∧ 0 < table.get (targetIdx - 1) ∧ 0 < table.get (targetIdx + 1) then
      [{ type := .centerChi, cards := [targetCard - 1, targetCard, targetCard + 1], targetCard }] else []) ++
    (if 3 ≤ targetValue ∧ 0 < table.get (targetIdx - 1) ∧ 0 < table.get (targetIdx - 2) then
      [{ type := .rightChi, cards := [targetCard - 2, targetCard - 1, targetCard], targetCard }] else [])

def findPengInTable (table : Table) (targetCard : Int) : List CPG :=
  if targetCard = gameInvalidCard then []
  else if 2 ≤ table.get (getCardIdx targetCard) ∧ table.get (getCardIdx targetCard) ≤ 3 then
    [{ type := .peng, cards := List.replicate 3 targetCard, targetCard }]
  else []

def findAnGangInTable (table : Table) : List CPG :=
  (List.range (tableSize - 1)).flatMap fun k =>
    if table.get (k + 1) = 4 then
      [{ type := .anGang, cards := List.replicate 4 (getCardByIdx (k + 1)),
         targetCard := getCardByIdx (k + 1) }]
    else []

def findDianGangInTable (table : Table) (targetCard : Int) : List CPG :=
  if targetCard = gameInvalidCard then []
  else if table.get (getCardIdx targetCard) = 3 then
    [{ type := .dianGang, cards := List.replicate 4 targetCard, targetCard }]
  else []

def findJiaGangInTable (table : Table) (cpgs : List CPG) : List CPG :=
  cpgs.flatMap fun cpg =>
    if cpg.type = .peng ∧ table.get (getCardIdx cpg.targetCard) = 1 then
      [{ type := .jiaGang, cards := List.replicate 4 cpg.targetCard, targetCard := cpg.targetCard }]
    else []

def findOptionalCpgs (cards : List Int) (cpgs : List CPG) (targetCard : Int) (findOption : Nat) :
    List CPG :=
  let table := cardsToTable cards
  (if targetCard ≠ gameInvalidCard then
    (if hasType findOption .leftChi ∨ hasType findOption .centerChi ∨ hasType findOption .rightChi then
      findChiInTable table targetCard else []) ++
    (if hasType findOption .peng then findPengInTable table targetCard else []) ++
    (if hasType findOption .dianGang then findDianGangInTable table targetCard else [])
  else []) ++
  (if hasType findOption .anGang then findAnGangInTable table else []) ++
  (if hasType findOption .jiaGang then findJiaGangInTable table cpgs else [])

/-! ## Ready-hand options -/

/-- The tiles a discard would leave the hand waiting for; scores of the waits are not modelled. -/
structure TingOptInfo where
  outCard : Int
  tingInfos : List Int
deriving DecidableEq, Repr

/-- `searchTingInfo`: the honours and suit tiles that complete the table. -/
def searchTingInfo (table : Table) (outCard : Int) : List TingOptInfo :=
  let tingInfos := (List.range 34).filterMap fun k =>
    if (canHuTable (table.set (k + 1) (table.get (k + 1) + 1)) []).1 then some (getCardByIdx (k + 1)) else none
  if tingInfos.isEmpty then [] else [⟨outCard, tingInfos⟩]

def findTingOptInfos (cards : List Int) : List TingOptInfo :=
  let table := cardsToTable cards
  if cards.length % 3 = 1 then searchTingInfo table gameInvalidCard
  else (List.range tableSize).flatMap fun i =>
    if 0 < table.get i then searchTingInfo (table.set i (table.get i - 1)) (getCardByIdx i) else []

/-- After ting only the gangs that leave the waits as they are stay on offer. -/
def updateCpgsAfterTing (cards : List Int) (tingInfos : List Int) (optionalCpgs : List CPG) : List CPG :=
  optionalCpgs.filter fun cpg =>
    if isChiType cpg.type ∨ cpg.type = .peng then false
    else if cpg.type = .jiaGang then true
    else
      match findTingOptInfos (cards.filter (· ≠ cpg.targetCard)) with
      | [] => false
      | temp :: _ => temp.tingInfos == tingInfos

end H5Server.Erqs
