import H5Server.Lib.Pairings
import Mathlib.Logic.Function.Basic

/-! # Comparing the hands of thirteen water (`CGameProcess::StartCompareCards`)

Every two players compare their arrangements dun by dun, or by their special types. Each comparison
leaves one record with either of them. From the records follow who shot whom, and from that the
scores, which are added up twice. What the records show of the cards is left out.
-/

namespace H5Server.S13s

open Lib

inductive HandTy where
  | tysp | ty20 | ty22 | ty30 | ty123 | tysc | ty32 | ty40 | ty123sc
  | tyThreesc | tyThree123 | tySix20 | tyFive2030 | tyFour30 | tyTwo3220 | tyAllOneColor | tyAllSmall
  | tyAllBig | tyThree40 | tyThree123sc | ty12Royal | tyOneDragon | tyZZQDragon
  deriving DecidableEq, Repr

/-- The number of a type, by which types are compared. -/
def HandTy.rank : HandTy → ℕ
  | tysp => 0
  | ty20 => 1
  | ty22 => 2
  | ty30 => 3
  | ty123 => 4
  | tysc => 5
  | ty32 => 6
  | ty40 => 7
  | ty123sc => 8
  | tyThreesc => 10
  | tyThree123 => 11
  | tySix20 => 12
  | tyFive2030 => 13
  | tyFour30 => 14
  | tyTwo3220 => 15
  | tyAllOneColor => 16
  | tyAllSmall => 17
  | tyAllBig => 18
  | tyThree40 => 19
  | tyThree123sc => 20
  | ty12Royal => 21
  | tyOneDragon => 22
  | tyZZQDragon => 23

/-- A type of the whole arrangement, not of a dun. -/
def HandTy.special (ty : HandTy) : Bool := tyThreesc.rank ≤ ty.rank

inductive DunTy where
  | dunFirst
  | dunSecond
  | dunLast
  deriving DecidableEq, Repr

/-- The cards a dun takes. -/
def DunTy.needC : DunTy → ℕ
  | dunFirst => 3
  | dunSecond => 5
  | dunLast => 5

structure Dun where
  ty : HandTy
  cards : List ℕ

structure GroupDun where
  specialTy : HandTy
  duns : DunTy → Dun

structure CompareItem where
  winlost : ℤ
  score : ℤ
  ty : HandTy
  peerty : HandTy

structure CompareResult where
  items : List CompareItem
  specitem : Option CompareItem
  score : ℤ
  shoot : ℤ

/-- A peer of `peers` with the result at the same place of `results`. -/
structure Duel where
  chairid : ℕ
  specialty : HandTy
  result : CompareResult

@[ext]
structure CompareCards where
  duels : List Duel
  allshoot : ℤ
  fromchairid : ℕ
  deltascore : ℤ
  itemscores : List ℤ
  itemscorepure : List ℤ

/-- What the comparison reads. Chairs from `gamePlayer` on do not exist. -/
structure Showdown where
  gamePlayer : ℕ
  isExistUser : ℕ → Bool
  selected : ℕ → GroupDun
  compareCards : List ℕ → List ℕ → HandTy → ℤ

/-! ## One pair -/

/-- The water won by a special type. -/
def specialScore : HandTy → Option ℤ
  | .tyZZQDragon => some 32
  | .tyOneDragon => some 30
  | .ty12Royal => some 24
  | .tyThree123sc => some 20
  | .tyThree40 => some 20
  | .tyAllBig => some 10
  | .tyAllSmall => some 10
  | .tyAllOneColor => some 10
  | .tyTwo3220 => some 8
  | .tyFour30 => some 6
  | .tyFive2030 => some 5
  | .tySix20 => some 4
  | .tyThree123 => some 4
  | .tyThreesc => some 3
  | _ => none

/-- The water won by a dun of some type at its place. Other types fail an assertion there. -/
def dunScore : DunTy → HandTy → Option ℤ
  | .dunFirst, .tysp | .dunFirst, .ty20 => some 1
  | .dunFirst, .ty30 => some 3
  | .dunFirst, _ => none
  | .dunSecond, .tysp | .dunSecond, .ty20 | .dunSecond, .ty22 | .dunSecond, .ty30 | .dunSecond, .ty123
  | .dunSecond, .tysc => some 1
  | .dunSecond, .ty32 => some 2
  | .dunSecond, .ty40 => some 8
  | .dunSecond, .ty123sc => some 10
  | .dunSecond, _ => none
  | .dunLast, .tysp | .dunLast, .ty20 | .dunLast, .ty22 | .dunLast, .ty30 | .dunLast, .ty123
  | .dunLast, .tysc | .dunLast, .ty32 => some 1
  | .dunLast, .ty40 => some 4
  | .dunLast, .ty123sc => some 5
  | .dunLast, _ => none

/-- The records of the winner and the loser. -/
def settle (winner loser : HandTy) (score : ℤ) : CompareItem × CompareItem :=
  (⟨1, score, winner, loser⟩, ⟨-1, -score, loser, winner⟩)

def draw (src dst : HandTy) : CompareItem × CompareItem := (⟨0, 0, src, dst⟩, ⟨0, 0, dst, src⟩)

/-- The records of both sides, where at least one has a special type. -/
def compareSpecial (src dst : HandTy) : Option CompareItem × Option CompareItem :=
  if src = dst then ((draw src dst).map some some)
  else if dst.rank < src.rank then
    match specialScore src with
    | some score => (settle src dst score).map some some
    | none => (none, none)
  else
    match specialScore dst with
    | some score => (settle dst src score).swap.map some some
    | none => (none, none)

/-- Straights and flushes do not count in front. -/
def headTy : HandTy → HandTy
  | .ty123sc | .tysc | .ty123 => .tysp
  | ty => ty

def compareDun (compareCards : List ℕ → List ℕ → HandTy → ℤ) (dt : DunTy) (src dst : Dun) :
    Option (CompareItem × CompareItem) :=
  let srcWins := (dunScore dt src.ty).map (settle src.ty dst.ty)
  let dstWins := (dunScore dt dst.ty).map fun score => (settle dst.ty src.ty score).swap
  if src.ty ≠ dst.ty then if dst.ty.rank < src.ty.rank then srcWins else dstWins
  else if src.cards.length ≠ dt.needC ∨ dst.cards.length ≠ dt.needC then none
  else
    let bv := compareCards src.cards dst.cards dst.ty
    if 0 < bv then srcWins else if bv < 0 then dstWins else some (draw src.ty dst.ty)

def GroupDun.dun (g : GroupDun) : DunTy → Dun
  | .dunFirst => { g.duns .dunFirst with ty := headTy (g.duns .dunFirst).ty }
  | .dunSecond => g.duns .dunSecond
  | .dunLast => g.duns .dunLast

/-- The records that both sides keep of each other. -/
def comparePair (compareCards : List ℕ → List ℕ → HandTy → ℤ) (src dst : GroupDun) :
    Option (CompareResult × CompareResult) :=
  if src.specialTy.special || dst.specialTy.special then
    let items := compareSpecial src.specialTy dst.specialTy
    some (⟨[], items.1, 0, 0⟩, ⟨[], items.2, 0, 0⟩)
  else do
    let first ← compareDun compareCards .dunFirst (src.dun .dunFirst) (dst.dun .dunFirst)
    let second ← compareDun compareCards .dunSecond (src.dun .dunSecond) (dst.dun .dunSecond)
    let last ← compareDun compareCards .dunLast (src.dun .dunLast) (dst.dun .dunLast)
    some (⟨[first.1, second.1, last.1], none, 0, 0⟩, ⟨[first.2, second.2, last.2], none, 0, 0⟩)

/-- The combinations of `k` numbers below `n`, larger ones first. -/
def staC : ℕ → ℕ → List (List ℕ)
  | _, 0 => []
  | n, k + 1 =>
    (List.range' (k + 1) (n - k)).reverse.flatMap fun i =>
      if k = 0 then [[i - 1]] else (staC (i - 1) k).map ((i - 1) :: ·)

/-! ## Shooting -/

/-- Who shot in a duel: `1` for a shot given, `-1` for one received. Nobody shoots where a special
type takes part. -/
def shootOf (special : Bool) (items : List CompareItem) : ℤ :=
  let winc := items.countP fun item => item.winlost = 1
  let lostc := items.countP fun item => item.winlost = -1
  if special then 0
  else if winc = items.length then 1
  else if lostc = items.length then -1
  else 0

def judgeDuel (specialty : HandTy) (d : Duel) : Duel :=
  { d with
    result := { d.result with
      score := (d.result.items.map CompareItem.score).sum
      shoot := shootOf (specialty.special || d.specialty.special) d.result.items } }

/-- A player who shot all the others, and at least two. -/
def shootsAll (duels : List Duel) : Bool :=
  duels.countP (fun d => d.result.shoot = 1) = duels.length && 1 < duels.length

/-! ## Scores -/

/-- How often the score of a duel counts. -/
def weight (c : CompareCards) (d : Duel) : Option ℤ :=
  if d.result.shoot = 1 then
    if c.allshoot = 1 then some 4 else some 2
  else if d.result.shoot = -1 then
    if c.allshoot = -1 then
      if d.chairid = c.fromchairid then some 4 else some 2
    else some 2
  else if c.allshoot ≠ -1 ∧ c.allshoot ≠ 0 then none
  else if d.result.shoot ≠ 0 then none
  else some 1

/-- The total without special types. -/
def total (c : CompareCards) : Option CompareCards := do
  let deltascore ← c.duels.foldlM (fun sum d => (weight c d).map fun w => sum + w * d.result.score) 0
  some { c with deltascore := deltascore }

/-- How often the score of a dun counts beyond the first time. -/
def pureWeight (c : CompareCards) (d : Duel) : Option ℤ :=
  if d.result.shoot = 1 then
    if c.allshoot = 1 then some 3 else some 1
  else if d.result.shoot = -1 then
    if c.allshoot = -1 then
      if d.chairid = c.fromchairid then some 3 else some 1
    else some 1
  else if c.allshoot ≠ -1 ∧ c.allshoot ≠ 0 then none
  else if d.result.shoot ≠ 0 then none
  else some 0

/-- The score of a dun in a duel without special types. -/
def itemScore (d : Duel) (dt : ℕ) : ℤ := ((d.result.items.map CompareItem.score).getD dt 0)

/-- What a dun brings against all others, once and through the shooting. -/
def dunScores (specialty : HandTy) (c : CompareCards) (dt : ℕ) : Option (ℤ × ℤ) :=
  if specialty.special then some (0, 0)
  else
    c.duels.foldlM (fun sums d =>
      if d.specialty.special then some sums
      else (pureWeight c d).map fun w => (sums.1 + itemScore d dt, sums.2 + w * itemScore d dt)) (0, 0)

def specScore (c : CompareCards) : ℤ :=
  (c.duels.map fun d => (d.result.specitem.map CompareItem.score).getD 0).sum

/-- The scores by dun, and the total with special types. -/
def itemize (specialty : HandTy) (c : CompareCards) : Option CompareCards := do
  let first ← dunScores specialty c 0
  let second ← dunScores specialty c 1
  let last ← dunScores specialty c 2
  let spec := specScore c
  some { c with
    itemscores := [first.1, second.1, last.1, spec]
    itemscorepure := [first.2, second.2, last.2, first.2 + second.2 + last.2 + spec]
    deltascore := c.deltascore + spec }

/-! ## The whole table -/

namespace Showdown

variable (s : Showdown)

def chairIDs : List ℕ := (List.range s.gamePlayer).filter s.isExistUser

/-- The records of one pair are added on both sides. -/
def compareChairs (t : ℕ → CompareCards) (src dst : ℕ) : Option (ℕ → CompareCards) := do
  let results ← comparePair s.compareCards (s.selected src) (s.selected dst)
  let t := Function.update t src
    { t src with duels := (t src).duels ++ [⟨dst, (s.selected dst).specialTy, results.1⟩] }
  some (Function.update t dst
    { t dst with duels := (t dst).duels ++ [⟨src, (s.selected src).specialTy, results.2⟩] })

def compareTwo (t : ℕ → CompareCards) (pair : List ℕ) : Option (ℕ → CompareCards) :=
  match pair with
  | [i, j] => s.compareChairs t (s.chairIDs.getD i 0) (s.chairIDs.getD j 0)
  | _ => none

def judge (t : ℕ → CompareCards) (i : ℕ) : ℕ → CompareCards :=
  let duels := (t i).duels.map (judgeDuel (s.selected i).specialTy)
  let t := Function.update t i { t i with duels := duels }
  if shootsAll duels then fun k =>
    if k = i then { t i with allshoot := 1 }
    else if k ∈ s.chairIDs then { t k with allshoot := -1, fromchairid := i }
    else t k
  else t

/-- Each chair's own record goes through a loop. -/
def onChairs (body : ℕ → CompareCards → Option CompareCards) (t : ℕ → CompareCards) : Option (ℕ → CompareCards) :=
  s.chairIDs.foldlM (fun t i => (body i (t i)).map fun c => Function.update t i c) t

def startCompareCards : Option (ℕ → CompareCards) :=
  if s.chairIDs.length < 2 then none
  else do
    let t ← (staC s.chairIDs.length 2).foldlM s.compareTwo fun _ => ⟨[], 0, 0, 0, [], []⟩
    let t := s.chairIDs.foldl s.judge t
    let t ← s.onChairs (fun _ => total) t
    s.onChairs (fun i => itemize (s.selected i).specialTy) t

end Showdown

end H5Server.S13s
