import H5Server.S13s.Messages
import Mathlib.Data.List.Sections

/-! # Types and order of the duns of thirteen water (`CGameLogic`)

The type of a dun is that of the first list of combinations in which there are any. In what order the combinations
of one kind stand is left out.
-/

namespace H5Server.S13s

/-- `A` counts above the king. -/
def getCardPoint (card : ℕ) : ℕ := if getCardValue card = 0x01 then 0x0E else getCardValue card

/-- `byCardPointColorLL` -/
def byCardPointColor (card1 card2 : ℕ) : Prop :=
  getCardPoint card1 < getCardPoint card2
    ∨ getCardPoint card1 = getCardPoint card2 ∧ getCardColor card1 ≤ getCardColor card2

instance : DecidableRel byCardPointColor := fun card1 card2 =>
  inferInstanceAs (Decidable (getCardPoint card1 < getCardPoint card2
    ∨ getCardPoint card1 = getCardPoint card2 ∧ getCardColor card1 ≤ getCardColor card2))

/-- `SortCards` by point, smaller cards first. -/
def sortCardsByPoint (cards : List ℕ) : List ℕ := cards.insertionSort byCardPointColor

/-! ## Points -/

/-- The first difference, as far as both go. -/
def firstDiff : List ℕ → List ℕ → ℤ
  | p0 :: src, p1 :: dst => if p0 ≠ p1 then (p0 : ℤ) - p1 else firstDiff src dst
  | _, _ => 0

def compareCardPointBy (src dst : List ℕ) (clr : Bool) : ℤ :=
  let points := firstDiff ((sortCardsByPoint src).reverse.map getCardPoint)
    ((sortCardsByPoint dst).reverse.map getCardPoint)
  if points ≠ 0 then points
  -- The colours are those of the cards as they were given.
  else if clr then firstDiff (src.reverse.map getCardColor) (dst.reverse.map getCardColor)
  else 0

/-! ## Repeats -/

/-- The loop of `EnumRepeatCards`, with the cards of one value it holds: groups of `n`, and the cards left. -/
def repeatCards (n : ℕ) : List ℕ → List ℕ → List (List ℕ) × List ℕ
  | held, [] => ([], held)
  | [], card :: src => if src.length + 1 < n then ([], card :: src) else repeatCards n [card] src
  | first :: held, card :: src =>
    if getCardValue first = getCardValue card then
      if held.length + 2 = n then
        ((first :: held ++ [card]) :: (repeatCards n [] src).1, (repeatCards n [] src).2)
      else repeatCards n (first :: held ++ [card]) src
    else ((repeatCards n [card] src).1, first :: held ++ (repeatCards n [card] src).2)

/-- Without a group, no cards count as left. -/
def enumRepeatCards (n : ℕ) (src : List ℕ) : List (List ℕ) × List ℕ :=
  if (repeatCards n [] src).1 = [] then ([], []) else repeatCards n [] src

/-- `classify_t` -/
structure Classify where
  dst4 : List (List ℕ)
  dst3 : List (List ℕ)
  dst2 : List (List ℕ)
  cpy : List ℕ

def removeRepeatCards (src : List ℕ) : Classify :=
  let four := enumRepeatCards 4 src
  let src := if four.1 = [] then src else four.2
  let three := enumRepeatCards 3 src
  let src := if three.1 = [] then src else three.2
  let two := enumRepeatCards 2 src
  ⟨four.1, three.1, two.1, if two.1 = [] then src else two.2⟩

/-- `psrc` -/
def Classify.groups (c : Classify) : List (List ℕ) := c.dst4 ++ c.dst3 ++ c.dst2

/-! ## Straights and flushes -/

/-- The places `A2345678910JQK`, and one more for an ace behind the king. -/
def fillCardsMarkLoc (mark cards : List ℕ) : List ℕ :=
  cards.foldl (fun mark card => mark.set (getCardValue card - 1) card) mark

/-- The places `2345678910JQKA`, of which the first stays empty. -/
def fillCardsMarkLocByPoint (mark cards : List ℕ) : List ℕ :=
  cards.foldl (fun mark card => mark.set (getCardPoint card - 1) card) mark

def emptyMark : List ℕ := List.replicate 14 0

/-- The marks for single cards and one card of every group. After a run up to the king comes the ace once more. -/
def consecMark (c : Classify) (n : ℕ) : List ℕ :=
  let mark := fillCardsMarkLoc (fillCardsMarkLoc emptyMark c.cpy) (c.groups.map (·.headD 0))
  if getCardValue (mark.getD 0 0) = 1 ∧ getCardValue (mark.getD 12 0) = 13
      ∧ (List.range' (14 - n) (n - 2)).all fun i => mark.getD i 0 != 0 then
    mark.set 13 (mark.getD 0 0)
  else mark

/-- `EnumConsecCardsMarkLoc`: from every place on, the next `n` cards if there is no gap. -/
def enumConsecCardsMarkLoc (n : ℕ) : List ℕ → List (List ℕ)
  | [] => []
  | card :: mark =>
    if n ≤ mark.length + 1 ∧ 0 ∉ (card :: mark).take n then
      (card :: mark).take n :: enumConsecCardsMarkLoc n mark
    else enumConsecCardsMarkLoc n mark

/-- The colour of the first card is that of all. -/
def sameColor (cards : List ℕ) : Bool := cards.all fun card => getCardColor card == getCardColor (cards.headD 0)

/-- `EnumConsecCardsByColor`: a run with every choice of a card from each group that is in it. -/
def consecChoices (groups : List (List ℕ)) (run : List ℕ) : List (List ℕ) :=
  let inside := run.filterMap fun card => groups.find? fun group => getCardValue (group.headD 0) == getCardValue card
  if inside = [] then [run]
  else inside.sections.map fun chosen =>
    let fill := if getCardValue (run.getLastD 0) = 1 then fillCardsMarkLocByPoint else fillCardsMarkLoc
    (fill (fill emptyMark run) chosen).filter (· != 0)

/-- Straights, those of one colour among them. -/
def enumConsecCards (c : Classify) (n : ℕ) : List (List ℕ) :=
  (enumConsecCardsMarkLoc n (consecMark c n)).flatMap (consecChoices c.groups)

/-- The places of a colour, from the single cards and from the groups that have it. -/
def colorMark (c : Classify) (color : ℕ) : List ℕ :=
  fillCardsMarkLoc (fillCardsMarkLoc emptyMark c.cpy)
    (c.groups.filterMap fun group => group.find? fun card => getCardColor card == color)

/-- `n` places, the last one first, are a straight or one from ten to ace. -/
def consecPlaces (mark : List ℕ) (n : ℕ) (places : List ℕ) : Bool :=
  (places.headD 0 - places.getLastD 0 + 1 == n)
    || (getCardValue (mark.getD (places.getLastD 0) 0) == 1 && getCardValue (mark.getD (places.headD 0) 0) == 13
      && places.headD 0 - places.getD (places.length - 2) 0 + 1 == n - 1)

/-- Flushes that are no straights. -/
def enumSameColorCards (c : Classify) (n : ℕ) : List (List ℕ) :=
  [0x40, 0x30, 0x20, 0x10].flatMap fun color =>
    let mark := colorMark c color
    let places := (List.range 14).filter fun i => getCardColor (mark.getD i 0) == color
    if n ≤ places.length then
      ((staC places.length n).map fun e => e.map (places.getD · 0)).filterMap fun chosen =>
        if consecPlaces mark n chosen then none else some (chosen.reverse.map (mark.getD · 0))
    else []

/-! ## Combinations of groups -/

/-- `FuncC` on a group -/
def choose (k : ℕ) (group : List ℕ) : List (List ℕ) := (staC group.length k).map fun e => e.map (group.getD · 0)

/-- A combination is kept unless one of the same points was found before. -/
def keep (found : List (List ℕ)) (cards : List ℕ) : List (List ℕ) :=
  if found.any fun src => compareCardPointBy src cards false == 0 then found else found ++ [cards]

/-- Two combinations put together, in the order of the loops. -/
def combine (second first : List (List ℕ)) : List (List ℕ) := second.flatMap fun it2 => first.map (it2 ++ ·)

/-- `SortCards_src` -/
def sortGroups (groups : List (List ℕ)) : List (List ℕ) :=
  groups.insertionSort fun a b => getCardValue (a.headD 0) ≤ getCardValue (b.headD 0)

/-- Every two groups, the later one first. -/
def groupPairs (groups : List (List ℕ)) : List (List ℕ × List ℕ) :=
  (staC groups.length 2).map fun e => (groups.getD (e.getD 0 0) [], groups.getD (e.getD 1 0) [])

def enumCards32 (groups : List (List ℕ)) : List (List ℕ) :=
  ((groupPairs groups).flatMap fun pair =>
    (if 3 ≤ pair.1.length then combine (choose 2 pair.2) (choose 3 pair.1) else [])
      ++ if 3 ≤ pair.2.length then combine (choose 3 pair.2) (choose 2 pair.1) else []).foldl keep []

def enumCards30 (groups : List (List ℕ)) : List (List ℕ) :=
  (groups.reverse.flatMap fun group => if 3 ≤ group.length then choose 3 group else []).foldl keep []

def enumCards22 (groups : List (List ℕ)) : List (List ℕ) :=
  ((groupPairs groups).flatMap fun pair => combine (choose 2 pair.2) (choose 2 pair.1)).foldl keep []

def enumCards20 (groups : List (List ℕ)) : List (List ℕ) :=
  (groups.reverse.flatMap (choose 2)).foldl keep []

/-! ## Types -/

/-- The lists of `EnumTree`. -/
structure EnumTree where
  v123sc : List (List ℕ)
  v123 : List (List ℕ)
  vsc : List (List ℕ)
  v40 : List (List ℕ)
  v32 : List (List ℕ)
  v30 : List (List ℕ)
  v22 : List (List ℕ)
  v20 : List (List ℕ)

def enumCards (src : List ℕ) (n : ℕ) : EnumTree :=
  let c := removeRepeatCards src
  let groups := sortGroups c.groups
  { v123sc := (enumConsecCards c n).filter sameColor
    v123 := (enumConsecCards c n).filter fun cards => !sameColor cards
    vsc := enumSameColorCards c n
    v40 := if 4 ≤ n then c.dst4 else []
    v32 := if 5 ≤ n then enumCards32 groups else []
    v30 := if 3 ≤ n then enumCards30 groups else []
    v22 := if 4 ≤ n then enumCards22 groups else []
    v20 := if 2 ≤ n then enumCards20 groups else [] }

/-- The type of three cards in front or five behind; other numbers fail an assertion. -/
def getDunCardHandTy (dt : DunTy) (src : List ℕ) : Option HandTy :=
  if src.length ≠ dt.needC then none
  else
    let enumList := enumCards (sortCards src) src.length
    some <|
      if enumList.v123sc ≠ [] then .ty123sc
      else if enumList.v40 ≠ [] then .ty40
      else if enumList.v32 ≠ [] then .ty32
      else if enumList.vsc ≠ [] then .tysc
      else if enumList.v123 ≠ [] then .ty123
      else if enumList.v30 ≠ [] then .ty30
      else if enumList.v22 ≠ [] then .ty22
      else if enumList.v20 ≠ [] then .ty20
      else .tysp

/-! ## Order -/

/-- The groups of `n` in a dun with the other cards, if there are as many as its type says. -/
def repeatsOf (n count : ℕ) (src : List ℕ) : Option (List (List ℕ) × List ℕ) :=
  let found := enumRepeatCards n (sortCards src)
  if found.1.length = count then some found else none

/-- The point of a group. -/
def groupPoint (groups : List (List ℕ)) (i : ℕ) : ℕ := getCardPoint ((groups.getD i []).headD 0)

/-- The single cards count where both duns have some. -/
def compareRest (sp : Bool) (src dst : List ℕ) (compare : ℤ) : ℤ := if sp ∧ src ≠ [] ∧ dst ≠ [] then compare else 0

/-- `CompareCards` of two duns of a type. `sp`, `sd` and `dz` say whether single cards, the second pair, and the pair of
a full house count. -/
def compareCards (src dst : List ℕ) (clr : Bool) (ty : HandTy) (sp sd dz : Bool) : Option ℤ :=
  let plain : ℤ := if sp then compareCardPointBy src dst clr else 0
  let single (src dst : List ℕ) : ℤ := (getCardPoint (src.headD 0) : ℤ) - getCardPoint (dst.headD 0)
  match ty with
  | .ty40 => do
    let (dst4_0, cpy_0) ← repeatsOf 4 1 src
    let (dst4_1, cpy_1) ← repeatsOf 4 1 dst
    let (p0, p1) := (groupPoint dst4_0 0, groupPoint dst4_1 0)
    some <| if p0 ≠ p1 then (p0 : ℤ) - p1 else compareRest sp cpy_0 cpy_1 (single cpy_0 cpy_1)
  | .ty32 => do
    let (dst3_0, cpy_0) ← repeatsOf 3 1 src
    let (dst3_1, cpy_1) ← repeatsOf 3 1 dst
    let (p0, p1) := (groupPoint dst3_0 0, groupPoint dst3_1 0)
    some <| if p0 ≠ p1 then (p0 : ℤ) - p1 else if dz then single cpy_0 cpy_1 else 0
  | .ty30 => do
    let (dst3_0, cpy_0) ← repeatsOf 3 1 src
    let (dst3_1, cpy_1) ← repeatsOf 3 1 dst
    let (p0, p1) := (groupPoint dst3_0 0, groupPoint dst3_1 0)
    some <| if p0 ≠ p1 then (p0 : ℤ) - p1 else compareRest sp cpy_0 cpy_1 (compareCardPointBy cpy_0 cpy_1 clr)
  | .ty22 => do
    let (dst2_0, cpy_0) ← repeatsOf 2 2 src
    let (dst2_1, cpy_1) ← repeatsOf 2 2 dst
    let (s0, p0) := (max (groupPoint dst2_0 0) (groupPoint dst2_0 1), min (groupPoint dst2_0 0) (groupPoint dst2_0 1))
    let (s1, p1) := (max (groupPoint dst2_1 0) (groupPoint dst2_1 1), min (groupPoint dst2_1 0) (groupPoint dst2_1 1))
    some <| if s0 ≠ s1 then (s0 : ℤ) - s1
      else if sd ∧ p0 ≠ p1 then (p0 : ℤ) - p1
      else compareRest sp cpy_0 cpy_1 (single cpy_0 cpy_1)
  | .ty20 => do
    let (dst2_0, cpy_0) ← repeatsOf 2 1 src
    let (dst2_1, cpy_1) ← repeatsOf 2 1 dst
    let (p0, p1) := (groupPoint dst2_0 0, groupPoint dst2_1 0)
    some <| if p0 ≠ p1 then (p0 : ℤ) - p1 else compareRest sp cpy_0 cpy_1 (compareCardPointBy cpy_0 cpy_1 clr)
  | _ => some plain

end H5Server.S13s
