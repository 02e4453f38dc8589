import H5Server.Erqs.MjAlgorithm
import Mathlib.Data.List.Sublists

/-! # Hand types and their checkers (`MjAlgorithm.cpp`, `ComposeTypeCheckers.cpp`)

Every type that a winning hand can score has a checker: a function that says how often the type is
there, and the types that no longer count once it is.
-/

namespace H5Server.Erqs

inductive ComposeType where
  | dasixi | xiaosixi | dasanfeng | xiaosanfeng
  | dasanyuan | xiaosanyuan | shuangjianke | jianke
  | sigang | sangang | shuangangang | shuangminggang | angang | minggang
  | sianke | sananke | shuanganke | silianke | sanlianke | sizike
  | sibugao | sanbugao | yibangao | sitongshun | santongshun | shuanglonghui | laoshaofu
  | hunyaojiu | quandaiyao | duanyao | ziyise | qingyise | hunyise
  | qinglong | lianliu | dayuwu | xiaoyuwu | quanqiuren | buqiuren
  | daqixing | lianqidui | sanyuanqiduizi | sixiqiduizi | qiduizi
  | jiulianbaodeng | pengpenghu | pinghu | siguiyi | menqianqing | bianzhang | kanzhang | dandiaojiang
  | tianhu | dihu | renhu | tianting | quanhua | miaoshouhuichun | haidilaoyue | gangshangkaihua
  | qiangganghu | hujuezhang | zimo | huapai | baoting
deriving DecidableEq, Repr

/-- Which reading of a hand a type belongs to: melds and a pair, seven pairs, or either. -/
inductive MutuallyType where
  | sansanyi3n2 | qiduizi222 | otherhu000
deriving DecidableEq, Repr

/-- The bits of `HuType`. -/
inductive HuType where
  | tianhu | dihu | renhu | tianting | baoting | miaoshouhuichun | haidilaoyue | gangshangkaihua
  | qiangganghu | juezhang | zimo
deriving DecidableEq, Repr

/-- The bit number of a way to win: `hu_tianhu = 1 << 0`, ..., `hu_zimo = 1 << 10`. -/
def HuType.pos : HuType → Nat
  | .tianhu => 0 | .dihu => 1 | .renhu => 2 | .tianting => 3 | .baoting => 4 | .miaoshouhuichun => 5
  | .haidilaoyue => 6 | .gangshangkaihua => 7 | .qiangganghu => 8 | .juezhang => 9 | .zimo => 10

/-- What the checkers read of a hand; `tingInfos`, which none of them reads, is left out. -/
structure MjInfo where
  cpgs : List CPG
  cards : List Int
  targetCard : Int
  huaNum : Nat
  huType : Nat
deriving Repr

/-- The hand tiles in a table, with the target tile when there is one. -/
def MjInfo.table (mjInfo : MjInfo) : Table :=
  let table := cardsToTable mjInfo.cards
  if mjInfo.targetCard ≠ gameInvalidCard then
    table.set (getCardIdx mjInfo.targetCard) (table.get (getCardIdx mjInfo.targetCard) + 1) else table

/-- `eye[0]`. -/
def ComposeCard.eyeCard (composeCard : ComposeCard) : Int := composeCard.eye.getD gameInvalidCard

/-- `cards[0]`. -/
def ThreeCard.first (three : ThreeCard) : Int := three.cards.getD 0 0

/-! ## Tiles and melds -/

def isYaoCard (card : Int) : Bool := decide (0x31 ≤ card ∧ card ≤ 0x37) || getCardValue card == 1

def isYao9Card (card : Int) : Bool := isYaoCard card || getCardValue card == 9

def isYao9Three (three : ThreeCard) : Bool := three.cards.any isYao9Card

def isRepeatThree (three : ThreeCard) (cardStart cardEnd : Int) : Bool :=
  three.type = .repeat ∧ cardStart ≤ three.first ∧ three.first ≤ cardEnd

/-- A shown set as a meld. -/
def CPG.three (cpg : CPG) : ThreeCard :=
  ⟨cpg.cards.take 3, if isChiType cpg.type then .straight else .repeat⟩

def findRepeat (cpgs : List CPG) (composeCard : ComposeCard) (cardStart cardEnd : Int) : List ThreeCard :=
  (cpgs.filter fun cpg => !isChiType cpg.type && cardStart ≤ cpg.three.first &&
      cpg.three.first ≤ cardEnd).map CPG.three ++
    composeCard.threes.filter (isRepeatThree · cardStart cardEnd)

def findCloseRepeat (cpgs : List CPG) (composeCard : ComposeCard) (cardStart cardEnd : Int) : List ThreeCard :=
  (cpgs.filter fun cpg => cpg.type == .anGang && cardStart ≤ cpg.three.first &&
      cpg.three.first ≤ cardEnd).map CPG.three ++
    composeCard.threes.filter (isRepeatThree · cardStart cardEnd)

def findStraight (cpgs : List CPG) (composeCard : ComposeCard) : List ThreeCard :=
  (cpgs.filter fun cpg => isChiType cpg.type).map CPG.three ++ composeCard.threes.filter (·.type = .straight)

def findThree (cpgs : List CPG) (composeCard : ComposeCard) : List ThreeCard :=
  cpgs.map CPG.three ++ composeCard.threes

def findAllCards (mjInfo : MjInfo) : List Int :=
  mjInfo.cpgs.flatMap (·.cards) ++ mjInfo.cards ++
    (if mjInfo.targetCard ≠ gameInvalidCard then [mjInfo.targetCard] else [])

def getGangNum (cpgs : List CPG) : Nat := cpgs.countP (isGangType ·.type)

/-- The bits of `TargetUseType`. -/
structure TargetUse where
  straight : Bool
  repeat_ : Bool
  eye : Bool
deriving DecidableEq, Repr

/-- Where the last tile stands in a decomposition; without a target it is the last hand tile. -/
def getTargetUseType (composeCard : ComposeCard) (cards : List Int) (targetCard : Int) : TargetUse :=
  let targetCard := if targetCard = gameInvalidCard then cards.getLastD 0 else targetCard
  { straight := composeCard.threes.any fun three => three.cards.contains targetCard && three.type = .straight
    repeat_ := composeCard.threes.any fun three => three.cards.contains targetCard && three.type ≠ .straight
    eye := composeCard.eyeCard == targetCard }

/-- `sort` by the first tile. -/
def sortThrees (threes : List ThreeCard) : List ThreeCard :=
  threes.insertionSort fun a b => a.first ≤ b.first

/-- `combination`: the ways to choose so many of the melds, each in their order. -/
def combination (choose : Nat) (threes : List ThreeCard) : List (List ThreeCard) := threes.sublistsLen choose

/-! ## Honours -/

/-- Triplets of honours in a range, and whether the pair lies in it too. -/
def honours (mjInfo : MjInfo) (composeCard : ComposeCard) (cardStart cardEnd : Int) : Nat × Bool :=
  ((findRepeat mjInfo.cpgs composeCard cardStart cardEnd).length,
    decide (cardStart ≤ composeCard.eyeCard ∧ composeCard.eyeCard ≤ cardEnd))

def isDaSiXi (mjInfo : MjInfo) (composeCard : ComposeCard) : Nat :=
  ((honours mjInfo composeCard 0x31 0x34).1 == 4).toNat

def isXiaoSiXi (mjInfo : MjInfo) (composeCard : ComposeCard) : Nat :=
  (honours mjInfo composeCard 0x31 0x34 == (3, true)).toNat

def isDaSanFeng (mjInfo : MjInfo) (composeCard : ComposeCard) : Nat :=
  ((honours mjInfo composeCard 0x31 0x34).1 == 3).toNat

def isXiaoSanFeng (mjInfo : MjInfo) (composeCard : ComposeCard) : Nat :=
  (honours mjInfo composeCard 0x31 0x34 == (2, true)).toNat

def isDaSanYuan (mjInfo : MjInfo) (composeCard : ComposeCard) : Nat :=
  ((honours mjInfo composeCard 0x35 0x37).1 == 3).toNat

def isXiaoSanYuan (mjInfo : MjInfo) (composeCard : ComposeCard) : Nat :=
  (honours mjInfo composeCard 0x35 0x37 == (2, true)).toNat

def isShuangJianKe (mjInfo : MjInfo) (composeCard : ComposeCard) : Nat :=
  ((honours mjInfo composeCard 0x35 0x37).1 == 2).toNat

def isJianKe (mjInfo : MjInfo) (composeCard : ComposeCard) : Nat :=
  ((honours mjInfo composeCard 0x35 0x37).1 == 1).toNat

def isSiZiKe (mjInfo : MjInfo) (composeCard : ComposeCard) : Nat :=
  ((honours mjInfo composeCard 0x31 0x37).1 == 4).toNat

/-! ## Gangs and closed triplets -/

def isSiGang (mjInfo : MjInfo) (_ : ComposeCard) : Nat := (getGangNum mjInfo.cpgs == 4).toNat

def isSanGang (mjInfo : MjInfo) (_ : ComposeCard) : Nat := (getGangNum mjInfo.cpgs == 3).toNat

def anGangNum (mjInfo : MjInfo) : Nat := mjInfo.cpgs.countP (·.type = .anGang)

def mingGangNum (mjInfo : MjInfo) : Nat :=
  mjInfo.cpgs.countP fun cpg => cpg.type = .dianGang ∨ cpg.type = .jiaGang

def isShuangAnGang (mjInfo : MjInfo) (_ : ComposeCard) : Nat := (anGangNum mjInfo == 2).toNat

def isShuangMingGang (mjInfo : MjInfo) (_ : ComposeCard) : Nat := (mingGangNum mjInfo == 2).toNat

def isAnGang (mjInfo : MjInfo) (_ : ComposeCard) : Nat := (anGangNum mjInfo == 1).toNat

def isMingGang (mjInfo : MjInfo) (_ : ComposeCard) : Nat := (mingGangNum mjInfo == 1).toNat

/-- The closed triplets; the one that the target completes does not count. -/
def closeRepeatNum (mjInfo : MjInfo) (composeCard : ComposeCard) : Nat :=
  let len := (findCloseRepeat mjInfo.cpgs composeCard 0x01 0x37).length
  if mjInfo.targetCard = gameInvalidCard then len
  else if 0 < len ∧ getTargetUseType composeCard mjInfo.cards mjInfo.targetCard = ⟨false, true, false⟩ then
    len - 1
  else len

def isSiAnKe (mjInfo : MjInfo) (composeCard : ComposeCard) : Nat := (closeRepeatNum mjInfo composeCard == 4).toNat

def isSanAnKe (mjInfo : MjInfo) (composeCard : ComposeCard) : Nat := (closeRepeatNum mjInfo composeCard == 3).toNat

def isShuangAnKe (mjInfo : MjInfo) (composeCard : ComposeCard) : Nat := (closeRepeatNum mjInfo composeCard == 2).toNat

/-! ## Triplets in a row -/

def isLianKe (repeatThrees : List ThreeCard) : Bool :=
  if repeatThrees.length < 2 then false
  else
    let value := (repeatThrees.map (·.first)).getD 0 0
    if 2 < getColor value then false
    else repeatThrees.zipIdx.all fun (three, i) => getColor three.first == getColor value && value + i == three.first

def isSiLianKe (mjInfo : MjInfo) (composeCard : ComposeCard) : Nat :=
  let repeatThrees := findRepeat mjInfo.cpgs composeCard 0x01 0x37
  (repeatThrees.length == 4 && isLianKe (sortThrees repeatThrees)).toNat

def isSanLianKe (mjInfo : MjInfo) (composeCard : ComposeCard) : Nat :=
  let repeatThrees := sortThrees (findRepeat mjInfo.cpgs composeCard 0x01 0x37)
  if repeatThrees.length < 3 then 0
  else if repeatThrees.length = 4 then (isLianKe (repeatThrees.take 3) || isLianKe (repeatThrees.drop 1)).toNat
  else (isLianKe repeatThrees).toNat

/-! ## Straights -/

/-- Straights of one suit at one distance from each other. -/
def testBuGao (minDiff maxDiff : Int) (threes : List ThreeCard) : Bool :=
  match threes.map (·.first) with
  | first :: second :: rest =>
    minDiff ≤ second - first && second - first ≤ maxDiff &&
      ((first :: second :: rest).zip (second :: rest)).all fun (last, next) =>
        getColor next == getColor first && next - last == second - first
  | _ => false

def isBuGao (cpgs : List CPG) (composeCard : ComposeCard) (len : Nat) (minDiff maxDiff : Int) : Nat :=
  let straightThrees := findStraight cpgs composeCard
  if straightThrees.length < len then 0
  else (combination len (sortThrees straightThrees)).countP (testBuGao minDiff maxDiff)

def isSiBuGao (mjInfo : MjInfo) (composeCard : ComposeCard) : Nat := isBuGao mjInfo.cpgs composeCard 4 1 2

def isSanBuGao (mjInfo : MjInfo) (composeCard : ComposeCard) : Nat := isBuGao mjInfo.cpgs composeCard 3 1 2

def isYiBanGao (mjInfo : MjInfo) (composeCard : ComposeCard) : Nat := isBuGao mjInfo.cpgs composeCard 2 0 0

def isTongShun (cpgs : List CPG) (composeCard : ComposeCard) (len : Nat) : Bool :=
  let straightThrees := findStraight cpgs composeCard
  if straightThrees.length < len then false
  else
    let itemLens := straightThrees.map fun three1 => straightThrees.countP fun three2 => three1.first = three2.first
    itemLens.foldl max 0 == len

def isSiTongShun (mjInfo : MjInfo) (composeCard : ComposeCard) : Nat := (isTongShun mjInfo.cpgs composeCard 4).toNat

def isSanTongShun (mjInfo : MjInfo) (composeCard : ComposeCard) : Nat := (isTongShun mjInfo.cpgs composeCard 3).toNat

/-- The pairs of sorted straights in one suit that pass a test. -/
def straightPairs (mjInfo : MjInfo) (composeCard : ComposeCard) (test : Int → Int → Bool) : Nat :=
  let straightThrees := findStraight mjInfo.cpgs composeCard
  if straightThrees.length < 2 then 0
  else (combination 2 (sortThrees straightThrees)).countP fun threes =>
    match threes.map (·.first) with
    | [first, second] => getColor first == getColor second && test first second
    | _ => false

def isLaoShaoFu (mjInfo : MjInfo) (composeCard : ComposeCard) : Nat :=
  straightPairs mjInfo composeCard fun first second => getCardValue first == 1 && getCardValue second == 7

def isLianLiu (mjInfo : MjInfo) (composeCard : ComposeCard) : Nat :=
  straightPairs mjInfo composeCard fun first second => second - first == 3

def testQingLong (threes : List ThreeCard) : Bool :=
  match threes.map (·.first) with
  | [first, second, third] => getColor second == getColor first && getColor third == getColor first &&
      [first, second, third].map getCardValue == [1, 4, 7]
  | _ => false

def isQingLong (mjInfo : MjInfo) (composeCard : ComposeCard) : Nat :=
  let straightThrees := findStraight mjInfo.cpgs composeCard
  if straightThrees.length < 3 then 0
  else ((combination 3 (sortThrees straightThrees)).any testQingLong).toNat

/-! ## Suits and ranks -/

def isHunYaoJiu (mjInfo : MjInfo) (_ : ComposeCard) : Nat := ((findAllCards mjInfo).all isYao9Card).toNat

def isQuanDaiYao (mjInfo : MjInfo) (composeCard : ComposeCard) : Nat :=
  ((findThree mjInfo.cpgs composeCard).all isYao9Three && isYao9Card composeCard.eyeCard).toNat

def isDuanYao (mjInfo : MjInfo) (_ : ComposeCard) : Nat := ((findAllCards mjInfo).all (!isYao9Card ·)).toNat

def isZiYiSe (mjInfo : MjInfo) (_ : ComposeCard) : Nat :=
  ((findAllCards mjInfo).all fun card => 0x31 ≤ card && card ≤ 0x37).toNat

def isQingYiSe (mjInfo : MjInfo) (_ : ComposeCard) : Nat :=
  let color := getColor ((findAllCards mjInfo).getD 0 0)
  (color ≤ 2 && (findAllCards mjInfo).all (getColor · == color)).toNat

def isHunYiSe (mjInfo : MjInfo) (_ : ComposeCard) : Nat :=
  ((findAllCards mjInfo).any (getColor · < 3) && (findAllCards mjInfo).any (3 ≤ getColor ·)).toNat

def isShuangLongHui (mjInfo : MjInfo) (composeCard : ComposeCard) : Nat :=
  let straightThrees := findStraight mjInfo.cpgs composeCard
  (isQingYiSe mjInfo composeCard != 0 && 4 ≤ straightThrees.length && getCardValue composeCard.eyeCard == 5 &&
    (sortThrees straightThrees).map (getCardValue ·.first) == [1, 1, 7, 7]).toNat

def isDaYuWu (mjInfo : MjInfo) (_ : ComposeCard) : Nat :=
  ((findAllCards mjInfo).all fun card => card < 0x31 && 6 ≤ getCardValue card).toNat

def isXiaoYuWu (mjInfo : MjInfo) (_ : ComposeCard) : Nat :=
  ((findAllCards mjInfo).all fun card => card < 0x31 && getCardValue card ≤ 4).toNat

/-- `TABLE_JIULIANBAODENG`. -/
def tableJiuLianBaoDeng (i : Nat) : Nat := if i = 1 ∨ i = 9 then 3 else if 1 < i ∧ i < 9 then 1 else 0

/-- The hand tiles without the target, as in the source, whose line that adds the target is commented out. -/
def isJiuLianBaoDeng (mjInfo : MjInfo) (composeCard : ComposeCard) : Nat :=
  let table := cardsToTable (mjInfo.cards.map getCardValue)
  (isQingYiSe mjInfo composeCard != 0 && (List.range tableSize).all (fun i => tableJiuLianBaoDeng i ≤ table.get i) &&
    (List.range 9).any fun k => tableJiuLianBaoDeng (k + 1) < table.get (k + 1)).toNat

def isPengPengHu (mjInfo : MjInfo) (composeCard : ComposeCard) : Nat :=
  ((findRepeat mjInfo.cpgs composeCard 0x01 0x37).length == 4).toNat

def isPingHu (mjInfo : MjInfo) (composeCard : ComposeCard) : Nat :=
  ((findStraight mjInfo.cpgs composeCard).length == 4 && composeCard.eyeCard < 0x31).toNat

def isSiGuiYi (mjInfo : MjInfo) (_ : ComposeCard) : Nat :=
  let allCards := (mjInfo.cpgs.filter fun cpg => isChiType cpg.type || cpg.type == .peng).flatMap (·.cards) ++
    mjInfo.cards ++ (if mjInfo.targetCard ≠ gameInvalidCard then [mjInfo.targetCard] else [])
  (cardsToTable allCards).counts.countP (· = 4)

/-! ## Seven pairs -/

def isQiDui (mjInfo : MjInfo) (composeCard : ComposeCard) : Nat :=
  (isHunYaoJiu mjInfo composeCard == 0 && isTableQiDui mjInfo.table).toNat

def isDaQiXing (mjInfo : MjInfo) (_ : ComposeCard) : Nat :=
  ((List.range 7).all fun k => mjInfo.table.get (28 + k) == 2).toNat

/-- Only the first rank with two tiles is looked at: the run of such ranks from it on is seven long. -/
def isLianQiDui (mjInfo : MjInfo) (_ : ComposeCard) : Nat :=
  let table := mjInfo.table
  if ¬isTableQiDui table then 0
  else match (List.range tableSize).find? (table.get · = 2) with
    | none => 1
    | some i =>
      let card := getCardByIdx i
      if 2 < getColor card then 0
      else if 3 < getCardValue card then 0
      else (((table.counts.drop i).takeWhile (· = 2)).length == 7).toNat

/-- Seven pairs with pairs at every index of a range. -/
def pairsAt (mjInfo : MjInfo) (start len : Nat) : Bool :=
  isTableQiDui mjInfo.table &&
    (List.range len).all fun k => mjInfo.table.get (start + k) != 0 && mjInfo.table.get (start + k) % 2 == 0

def isSanYuanQiDui (mjInfo : MjInfo) (_ : ComposeCard) : Nat := (pairsAt mjInfo 32 3).toNat

def isSiXiQiDui (mjInfo : MjInfo) (_ : ComposeCard) : Nat := (pairsAt mjInfo 28 4).toNat

/-! ## Ways to win -/

/-- `huType & type`. -/
def hasHuType (type : HuType) (mjInfo : MjInfo) (_ : ComposeCard) : Nat := (mjInfo.huType.testBit type.pos).toNat

def isTianHu := hasHuType .tianhu
def isDiHu := hasHuType .dihu
def isRenHu := hasHuType .renhu
def isTianTing := hasHuType .tianting
def isBaoTing := hasHuType .baoting
def isHuJueZhang := hasHuType .juezhang
def isMiaoShouHuiChun := hasHuType .miaoshouhuichun
def isHaiDiLaoYue := hasHuType .haidilaoyue
def isGangShangKaiHua := hasHuType .gangshangkaihua
def isQiangGangHu := hasHuType .qiangganghu
def isZiMo := hasHuType .zimo

def isQuanHua (mjInfo : MjInfo) (_ : ComposeCard) : Nat := (mjInfo.huaNum == 8).toNat

def isHuaPai (mjInfo : MjInfo) (_ : ComposeCard) : Nat := mjInfo.huaNum

def isQuanQiuRen (mjInfo : MjInfo) (composeCard : ComposeCard) : Nat :=
  (isZiMo mjInfo composeCard == 0 && mjInfo.cpgs.length == 4 && mjInfo.cpgs.all (·.type ≠ .anGang)).toNat

def isBuQiuRen (mjInfo : MjInfo) (composeCard : ComposeCard) : Nat :=
  (isZiMo mjInfo composeCard != 0 && mjInfo.cpgs.all (·.type = .anGang)).toNat

def isMenQianQing (mjInfo : MjInfo) (composeCard : ComposeCard) : Nat :=
  (isZiMo mjInfo composeCard == 0 && mjInfo.cpgs.all (·.type = .anGang)).toNat

/-! ## Waits -/

/-- The winning tile, and the hand without it; with a target the source leaves that hand empty. -/
def huCard (mjInfo : MjInfo) : Int × List Int :=
  if mjInfo.targetCard = gameInvalidCard then (mjInfo.cards.getLastD 0, mjInfo.cards.dropLast)
  else (mjInfo.targetCard, [])

/-- Whether another tile would complete the hand too, in a use that counts against the wait. -/
def otherWait (mjInfo : MjInfo) (against : TargetUse → Bool) : Bool :=
  let (huCard, cardsWithoutTarget) := huCard mjInfo
  let table := cardsToTable cardsWithoutTarget
  (List.range 34).any fun k =>
    getCardByIdx (k + 1) != huCard &&
      let (hu, tempComposeCards) := canHuTable (table.set (k + 1) (table.get (k + 1) + 1)) []
      hu && tempComposeCards.any fun tempComposeCard =>
        against (getTargetUseType tempComposeCard cardsWithoutTarget (getCardByIdx (k + 1)))

def isDanDiaoJiang (mjInfo : MjInfo) (composeCard : ComposeCard) : Nat :=
  ((getTargetUseType composeCard mjInfo.cards mjInfo.targetCard).eye && !otherWait mjInfo (·.eye)).toNat

def isBianZhang (mjInfo : MjInfo) (composeCard : ComposeCard) : Nat :=
  let huCard := (huCard mjInfo).1
  let value := getCardValue huCard
  (getColor huCard ≤ 2 && (value == 3 || value == 7) && !otherWait mjInfo (fun use => use.straight || use.repeat_) &&
    composeCard.threes.any fun three => three.type = .straight ∧ getColor three.first = getColor huCard ∧
      getCardValue three.first = (if value = 3 then 1 else 7)).toNat

def isKanZhang (mjInfo : MjInfo) (composeCard : ComposeCard) : Nat :=
  let huCard := (huCard mjInfo).1
  (getColor huCard ≤ 2 && !otherWait mjInfo (fun use => use.straight || use.repeat_) &&
    composeCard.threes.any fun three => three.type = .straight ∧ three.cards.getD 1 0 = huCard).toNat

/-! ## The checkers -/

structure ComposeTypeInfo where
  type : ComposeType
  mutuallytype : MutuallyType
  times : Nat
  mutexes : List ComposeType

structure ComposeTypeChecker where
  checkInfo : ComposeTypeInfo
  checkFunc : MjInfo → ComposeCard → Nat

/-- `composeTypeCheckers`: the earlier a type stands, the earlier it is checked. -/
def composeTypeCheckers : List ComposeTypeChecker :=
  [⟨⟨.dasixi, .sansanyi3n2, 88, [.pengpenghu, .dasanfeng, .xiaosanfeng, .xiaosixi, .sizike]⟩, isDaSiXi⟩,
   ⟨⟨.dasanyuan, .sansanyi3n2, 88, [.shuangjianke, .jianke]⟩, isDaSanYuan⟩,
   ⟨⟨.jiulianbaodeng, .sansanyi3n2, 88,
     [.qingyise, .menqianqing, .zimo, .dandiaojiang, .bianzhang, .kanzhang]⟩, isJiuLianBaoDeng⟩,
   ⟨⟨.dayuwu, .otherhu000, 88, [.qingyise, .lianqidui, .sanyuanqiduizi, .sixiqiduizi, .qiduizi]⟩, isDaYuWu⟩,
   ⟨⟨.xiaoyuwu, .otherhu000, 88, [.qingyise, .lianqidui, .sanyuanqiduizi, .sixiqiduizi, .qiduizi]⟩, isXiaoYuWu⟩,
   ⟨⟨.daqixing, .qiduizi222, 88,
     [.qiduizi, .lianqidui, .sanyuanqiduizi, .sixiqiduizi, .quandaiyao, .dandiaojiang, .menqianqing, .zimo,
       .ziyise, .hunyaojiu]⟩, isDaQiXing⟩,
   ⟨⟨.sigang, .sansanyi3n2, 88, [.sangang, .shuangminggang, .dandiaojiang, .minggang]⟩, isSiGang⟩,
   ⟨⟨.lianqidui, .qiduizi222, 88,
     [.qiduizi, .sanyuanqiduizi, .sixiqiduizi, .dandiaojiang, .menqianqing, .zimo, .qingyise, .yibangao,
       .lianliu, .laoshaofu, .pinghu]⟩, isLianQiDui⟩,
   ⟨⟨.tianhu, .otherhu000, 88, [.bianzhang, .kanzhang, .dandiaojiang, .buqiuren, .hujuezhang, .zimo]⟩, isTianHu⟩,
   ⟨⟨.dihu, .otherhu000, 88, []⟩, isDiHu⟩,
   ⟨⟨.xiaosixi, .sansanyi3n2, 64, [.dasanfeng, .xiaosanfeng]⟩, isXiaoSiXi⟩,
   ⟨⟨.xiaosanyuan, .sansanyi3n2, 64, [.shuangjianke, .jianke]⟩, isXiaoSanYuan⟩,
   ⟨⟨.sianke, .sansanyi3n2, 64, [.sananke, .shuanganke, .pengpenghu, .menqianqing, .zimo]⟩, isSiAnKe⟩,
   ⟨⟨.shuanglonghui, .sansanyi3n2, 64,
     [.yibangao, .qiduizi, .lianqidui, .sanyuanqiduizi, .sixiqiduizi, .qingyise, .laoshaofu, .pinghu]⟩,
       isShuangLongHui⟩,
   ⟨⟨.ziyise, .otherhu000, 64, [.pengpenghu, .quandaiyao, .hunyaojiu, .sizike]⟩, isZiYiSe⟩,
   ⟨⟨.renhu, .otherhu000, 64, []⟩, isRenHu⟩,
   ⟨⟨.sitongshun, .sansanyi3n2, 48,
     [.sanlianke, .sananke, .santongshun, .qiduizi, .lianqidui, .sanyuanqiduizi, .sixiqiduizi, .siguiyi,
       .yibangao, .sananke]⟩, isSiTongShun⟩,
   ⟨⟨.sanyuanqiduizi, .qiduizi222, 48,
     [.qiduizi, .menqianqing, .dandiaojiang, .zimo, .yibangao, .lianliu, .laoshaofu]⟩, isSanYuanQiDui⟩,
   ⟨⟨.sixiqiduizi, .qiduizi222, 48,
     [.qiduizi, .menqianqing, .dandiaojiang, .zimo, .yibangao, .lianliu, .laoshaofu]⟩, isSiXiQiDui⟩,
   ⟨⟨.silianke, .sansanyi3n2, 48, [.sanlianke, .santongshun, .pengpenghu, .yibangao]⟩, isSiLianKe⟩,
   ⟨⟨.sibugao, .sansanyi3n2, 32, [.sanbugao, .lianliu, .laoshaofu]⟩, isSiBuGao⟩,
   ⟨⟨.hunyaojiu, .otherhu000, 32, [.pengpenghu, .quandaiyao, .qiduizi]⟩, isHunYaoJiu⟩,
   ⟨⟨.sangang, .sansanyi3n2, 32, [.shuangminggang, .minggang]⟩, isSanGang⟩,
   ⟨⟨.tianting, .otherhu000, 32, [.baoting]⟩, isTianTing⟩,
   ⟨⟨.sizike, .sansanyi3n2, 24, [.pengpenghu]⟩, isSiZiKe⟩,
   ⟨⟨.dasanfeng, .sansanyi3n2, 24, [.xiaosanfeng]⟩, isDaSanFeng⟩,
   ⟨⟨.sanlianke, .sansanyi3n2, 24, [.santongshun, .yibangao]⟩, isSanLianKe⟩,
   ⟨⟨.santongshun, .sansanyi3n2, 24, [.sanlianke, .yibangao]⟩, isSanTongShun⟩,
   ⟨⟨.qiduizi, .qiduizi222, 24, [.menqianqing, .dandiaojiang, .zimo, .yibangao, .lianliu, .laoshaofu]⟩, isQiDui⟩,
   ⟨⟨.qinglong, .sansanyi3n2, 16, [.lianliu, .laoshaofu]⟩, isQingLong⟩,
   ⟨⟨.sanbugao, .sansanyi3n2, 16, []⟩, isSanBuGao⟩,
   ⟨⟨.sananke, .sansanyi3n2, 16, [.shuanganke]⟩, isSanAnKe⟩,
   ⟨⟨.quanhua, .otherhu000, 16, [.huapai]⟩, isQuanHua⟩,
   ⟨⟨.qingyise, .otherhu000, 16, []⟩, isQingYiSe⟩,
   ⟨⟨.miaoshouhuichun, .otherhu000, 8, [.zimo]⟩, isMiaoShouHuiChun⟩,
   ⟨⟨.haidilaoyue, .otherhu000, 8, []⟩, isHaiDiLaoYue⟩,
   ⟨⟨.gangshangkaihua, .otherhu000, 8, [.zimo]⟩, isGangShangKaiHua⟩,
   ⟨⟨.qiangganghu, .otherhu000, 8, [.hujuezhang]⟩, isQiangGangHu⟩,
   ⟨⟨.xiaosanfeng, .sansanyi3n2, 6, []⟩, isXiaoSanFeng⟩,
   ⟨⟨.shuangjianke, .sansanyi3n2, 6, [.jianke]⟩, isShuangJianKe⟩,
   ⟨⟨.pengpenghu, .sansanyi3n2, 6, []⟩, isPengPengHu⟩,
   ⟨⟨.shuangangang, .sansanyi3n2, 6, [.shuanganke, .angang]⟩, isShuangAnGang⟩,
   ⟨⟨.hunyise, .otherhu000, 6, []⟩, isHunYiSe⟩,
   ⟨⟨.quanqiuren, .otherhu000, 6, [.dandiaojiang]⟩, isQuanQiuRen⟩,
   ⟨⟨.quandaiyao, .otherhu000, 4, []⟩, isQuanDaiYao⟩,
   ⟨⟨.shuangminggang, .sansanyi3n2, 4, [.minggang]⟩, isShuangMingGang⟩,
   ⟨⟨.buqiuren, .otherhu000, 4, [.zimo, .menqianqing]⟩, isBuQiuRen⟩,
   ⟨⟨.hujuezhang, .otherhu000, 4, []⟩, isHuJueZhang⟩,
   ⟨⟨.jianke, .sansanyi3n2, 2, []⟩, isJianKe⟩,
   ⟨⟨.pinghu, .sansanyi3n2, 2, []⟩, isPingHu⟩,
   ⟨⟨.siguiyi, .otherhu000, 2, []⟩, isSiGuiYi⟩,
   ⟨⟨.duanyao, .otherhu000, 2, []⟩, isDuanYao⟩,
   ⟨⟨.shuanganke, .sansanyi3n2, 2, []⟩, isShuangAnKe⟩,
   ⟨⟨.angang, .sansanyi3n2, 2, []⟩, isAnGang⟩,
   ⟨⟨.menqianqing, .otherhu000, 2, []⟩, isMenQianQing⟩,
   ⟨⟨.baoting, .otherhu000, 2, []⟩, isBaoTing⟩,
   ⟨⟨.yibangao, .sansanyi3n2, 1, []⟩, isYiBanGao⟩,
   ⟨⟨.lianliu, .sansanyi3n2, 1, []⟩, isLianLiu⟩,
   ⟨⟨.laoshaofu, .sansanyi3n2, 1, []⟩, isLaoShaoFu⟩,
   ⟨⟨.minggang, .sansanyi3n2, 1, []⟩, isMingGang⟩,
   ⟨⟨.dandiaojiang, .otherhu000, 1, []⟩, isDanDiaoJiang⟩,
   ⟨⟨.huapai, .otherhu000, 1, []⟩, isHuaPai⟩,
   ⟨⟨.zimo, .otherhu000, 1, []⟩, isZiMo⟩,
   ⟨⟨.bianzhang, .sansanyi3n2, 1, []⟩, isBianZhang⟩,
   ⟨⟨.kanzhang, .sansanyi3n2, 1, []⟩, isKanZhang⟩]

end H5Server.Erqs
