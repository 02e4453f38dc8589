import H5Server.Zjh.GameLogic
import Mathlib.Data.List.Lex
import Mathlib.Data.List.Perm.Subperm

/-! # The order of the hands of three-card brag

The comment in the source says which hand is higher: by type, then by points in order, then by suits in order, where
an ace below a two and a three makes the lowest straight. `CompareHandCards` decides so for hands that share no card.
-/

namespace H5Server.Zjh

/-- `s_CardListData` -/
def cardListData : List ℕ :=
  [0x01, 0x02, 0x03, 0x04, 0x05, 0x06, 0x07, 0x08, 0x09, 0x0A, 0x0B, 0x0C, 0x0D,
    0x11, 0x12, 0x13, 0x14, 0x15, 0x16, 0x17, 0x18, 0x19, 0x1A, 0x1B, 0x1C, 0x1D,
    0x21, 0x22, 0x23, 0x24, 0x25, 0x26, 0x27, 0x28, 0x29, 0x2A, 0x2B, 0x2C, 0x2D,
    0x31, 0x32, 0x33, 0x34, 0x35, 0x36, 0x37, 0x38, 0x39, 0x3A, 0x3B, 0x3C, 0x3D]

/-- Three distinct cards of the deck. -/
structure Dealt (cards : Hand) : Prop where
  length : cards.length = 3
  nodup : cards.Nodup
  deck : ∀ card ∈ cards, card ∈ cardListData

/-! ## The documented order -/

/-- Points, where an ace counts one below a two and a three. -/
def handPoint (cards : Hand) : ℕ → ℕ :=
  if 14 ∈ cards.map getCardPoint ∧ 3 ∈ cards.map getCardPoint ∧ 2 ∈ cards.map getCardPoint then getCardValue
  else getCardPoint

/-- The cards from the highest down. -/
def inOrder (cards : Hand) : Hand := sortCards (handPoint cards) cards

/-- What decides between hands: first the type, then what is compared within the type. -/
def documented (cards : Hand) : List ℕ :=
  let points := (inOrder cards).map (handPoint cards)
  let suits := (inOrder cards).map getCardColor
  let p := points.getD 0 0
  let q := points.getD 1 0
  let r := points.getD 2 0
  let straight := p = q + 1 ∧ q = r + 1
  let flush := ∀ suit ∈ suits, suit = suits.headD 0
  if p = q ∧ q = r then [6, p]
  else if straight ∧ flush then 5 :: points ++ [suits.headD 0]
  else if flush then 4 :: points ++ [suits.headD 0]
  else if straight then 3 :: points ++ suits
  else if p = q ∨ q = r then
    [2, q, if p = q then r else p, ((cards.filter fun card => getCardPoint card = q).map getCardColor).foldr max 0]
  else 1 :: points ++ suits

/-! ## Differences -/

theorem firstDifference_cons (d : ℤ) (ds : List ℤ) :
    firstDifference (d :: ds) = if d ≠ 0 then d else firstDifference ds := by
  rw [firstDifference, List.find?_cons]
  rcases eq_or_ne d 0 with rfl | some_
  · rfl
  · rw [if_pos some_, decide_eq_true some_]
    rfl

/-- The differences of two lists, of which the first one decides. -/
def differences (xs ys : List ℕ) : ℤ := firstDifference (List.zipWith (fun x y => (x : ℤ) - y) xs ys)

theorem differences_cons (x y : ℕ) (xs ys : List ℕ) :
    differences (x :: xs) (y :: ys) = if (x : ℤ) - y ≠ 0 then (x : ℤ) - y else differences xs ys :=
  firstDifference_cons ..

theorem differences_pos_iff {xs ys : List ℕ} (length : xs.length = ys.length) : 0 < differences xs ys ↔ ys < xs := by
  induction xs generalizing ys with
  | nil =>
    obtain rfl := List.length_eq_zero_iff.mp length.symm
    exact iff_of_false (lt_irrefl 0) (lt_irrefl _)
  | cons x xs ih =>
    cases ys with
    | nil => exact absurd length (Nat.succ_ne_zero _)
    | cons y ys =>
      rw [differences_cons, List.cons_lt_cons_iff, ← ih (Nat.succ.inj length)]
      split <;> omega

theorem pos_iff_of_differences {d : ℤ} {xs ys : List ℕ} (length : xs.length = ys.length) (eq : d = differences xs ys) :
    0 < d ↔ ys < xs := eq ▸ differences_pos_iff length

/-! ## Sorted hands -/

variable {cards cards' a b c : Hand} {x y z : ℕ}

theorem mem_deck {card : ℕ} (deck : card ∈ cardListData) : 1 ≤ card % 16 ∧ card % 16 ≤ 13 := by
  have all : ∀ card ∈ cardListData, 1 ≤ card % 16 ∧ card % 16 ≤ 13 := by decide
  exact all card deck

theorem getCardPoint_cases (card : ℕ) :
    card % 16 = 1 ∧ getCardPoint card = 14 ∨ card % 16 ≠ 1 ∧ getCardPoint card = card % 16 := by
  rw [getCardPoint, getCardValue]
  split
  next ace => exact .inl ⟨ace, rfl⟩
  next other => exact .inr ⟨other, rfl⟩

theorem getCardPoint_range {card : ℕ} (deck : card ∈ cardListData) : 2 ≤ getCardPoint card ∧ getCardPoint card ≤ 14 := by
  have := mem_deck deck
  have := getCardPoint_cases card
  omega

/-- A card is known by its points and its colour. -/
theorem eq_of_point_color (first : x ∈ cardListData) (second : y ∈ cardListData) (point : getCardPoint x = getCardPoint y)
    (color : getCardColor x = getCardColor y) : x = y := by
  have := mem_deck first
  have := mem_deck second
  have := getCardPoint_cases x
  have := getCardPoint_cases y
  rw [getCardColor, getCardColor] at color
  omega

theorem eq_of_value_color (value : getCardValue x = getCardValue y) (color : getCardColor x = getCardColor y) : x = y := by
  simp only [getCardValue, getCardColor] at value color
  omega

theorem byColorGG_iff {key : ℕ → ℕ} :
    byColorGG key x y = true ↔ key y < key x ∨ key x = key y ∧ getCardColor y ≤ getCardColor x := by
  rw [byColorGG]
  split
  next other => simp only [decide_eq_true_eq, other, false_and, or_false]
  next same =>
    rw [not_not] at same
    simp only [decide_eq_true_eq, same, lt_irrefl, false_or, true_and]

instance (key : ℕ → ℕ) : IsTrans ℕ fun x y => byColorGG key x y = true where
  trans x y z first second := by
    rw [byColorGG_iff] at *
    omega

instance (key : ℕ → ℕ) : Std.Total fun x y => byColorGG key x y = true where
  total x y := by
    rw [byColorGG_iff, byColorGG_iff]
    omega

theorem sortCards_perm (key : ℕ → ℕ) (cards : Hand) : (sortCards key cards).Perm cards := List.perm_insertionSort _ _

/-- Cards that are known by key and colour are sorted in one way. -/
theorem sortCards_eq_of_perm {key : ℕ → ℕ} (perm : cards.Perm cards')
    (known : ∀ x ∈ cards, ∀ y ∈ cards, key x = key y → getCardColor x = getCardColor y → x = y) :
    sortCards key cards = sortCards key cards' := by
  refine List.Perm.eq_of_pairwise (fun x y there there' before after => ?_) (List.pairwise_insertionSort _ cards)
    (List.pairwise_insertionSort _ cards') ?_
  · rw [byColorGG_iff] at before after
    have inside := (sortCards_perm key cards).mem_iff.mp there
    have inside' := perm.mem_iff.mpr ((sortCards_perm key cards').mem_iff.mp there')
    exact known x inside y inside' (by omega) (by omega)
  · exact ((sortCards_perm key cards).trans perm).trans (sortCards_perm key cards').symm

theorem Dealt.perm (dealt : Dealt cards) (perm : cards'.Perm cards) : Dealt cards' :=
  ⟨perm.length_eq.trans dealt.length, perm.nodup_iff.mpr dealt.nodup,
    fun card there => dealt.deck card (perm.mem_iff.mp there)⟩

/-- The comparison sees the sorted hand only. -/
theorem Dealt.getHandCardsTypePrivate_eq (dealt : Dealt cards) (perm : cards'.Perm cards) :
    getHandCardsTypePrivate cards' = getHandCardsTypePrivate cards := by
  have sorted : sortCards getCardPoint cards = sortCards getCardPoint cards' := sortCards_eq_of_perm perm.symm
    fun x first y second => eq_of_point_color (dealt.deck x first) (dealt.deck y second)
  rw [getHandCardsTypePrivate, getHandCardsTypePrivate, sorted]

/-- Above another card by points, or with the same points by colour. -/
def Above (x y : ℕ) : Prop :=
  getCardPoint y < getCardPoint x ∨ getCardPoint x = getCardPoint y ∧ getCardColor y < getCardColor x

theorem Dealt.exists_sorted (dealt : Dealt cards) :
    ∃ x y z, sortCards getCardPoint cards = [x, y, z] ∧ Above x y ∧ Above y z := by
  have sorted := dealt.perm (sortCards_perm getCardPoint cards)
  have order : (sortCards getCardPoint cards).Pairwise Above := by
    have pairwise : (sortCards getCardPoint cards).Pairwise fun x y => byColorGG getCardPoint x y = true :=
      List.pairwise_insertionSort _ cards
    refine (List.Pairwise.and_mem.mp (pairwise.and sorted.nodup)).imp ?_
    rintro x y ⟨first, second, before, differ⟩
    rw [byColorGG_iff] at before
    have known := mt (eq_of_point_color (sorted.deck x first) (sorted.deck y second))
    rw [Above]
    by_contra lower
    exact differ (eq_of_point_color (sorted.deck x first) (sorted.deck y second) (by omega) (by omega))
  obtain ⟨x, y, z, eq⟩ := List.length_eq_three.mp sorted.length
  rw [eq, List.pairwise_cons, List.pairwise_cons] at order
  exact ⟨x, y, z, eq, order.1 y List.mem_cons_self, order.2.1 z List.mem_cons_self⟩

/-! ## Hands as they are compared -/

/-- A sorted hand with its type, and what decides within the documented order. -/
inductive Shown : HandTy → Hand → List ℕ → Prop
  | baoZi {x y z : ℕ} (xy : getCardPoint x = getCardPoint y) (yz : getCardPoint y = getCardPoint z) :
    Shown .ty30 [x, y, z] [6, getCardPoint x]
  | pair {x y z w : ℕ} (inside : w ∈ [x, y, z]) (point : getCardPoint w = getCardPoint y)
    (color : getCardColor w = pairColor [x, y, z]) :
    Shown .ty20 [x, y, z] [2, getCardPoint y, single [x, y, z], pairColor [x, y, z]]
  | shunZi {x y z : ℕ} (xy : getCardPoint x = getCardPoint y + 1) (yz : getCardPoint y = getCardPoint z + 1)
    (low : 2 ≤ getCardPoint z) : Shown .ty123 [x, y, z]
      [3, getCardPoint x, getCardPoint y, getCardPoint z, getCardColor x, getCardColor y, getCardColor z]
  | shunZiA {x y z : ℕ} (three : getCardPoint x = 3) (two : getCardPoint y = 2) (ace : getCardPoint z = 14) :
    Shown .ty123 [x, y, z] [3, 3, 2, 1, getCardColor x, getCardColor y, getCardColor z]
  | jinHua {x y z : ℕ} : Shown .tysc [x, y, z]
      [4, getCardPoint x, getCardPoint y, getCardPoint z, getCardColor x]
  | shunJin {x y z : ℕ} (xy : getCardPoint x = getCardPoint y + 1) (yz : getCardPoint y = getCardPoint z + 1)
    (low : 2 ≤ getCardPoint z) :
    Shown .ty123sc [x, y, z] [5, getCardPoint x, getCardPoint y, getCardPoint z, getCardColor x]
  | shunJinA {x y z : ℕ} (three : getCardPoint x = 3) (two : getCardPoint y = 2) (ace : getCardPoint z = 14) :
    Shown .ty123sc [x, y, z] [5, 3, 2, 1, getCardColor x]
  | sanPai {x y z : ℕ} : Shown .tysp [x, y, z]
      [1, getCardPoint x, getCardPoint y, getCardPoint z, getCardColor x, getCardColor y, getCardColor z]

/-- Two, three and five stand for any other cards that make nothing. -/
def plain (t : HandTy) : HandTy := if t = .tysp235 then .tysp else t

theorem documented_of_order (order : inOrder cards = [x, y, z]) : documented cards =
    if handPoint cards x = handPoint cards y ∧ handPoint cards y = handPoint cards z then [6, handPoint cards x]
    else if (handPoint cards x = handPoint cards y + 1 ∧ handPoint cards y = handPoint cards z + 1)
      ∧ getCardColor y = getCardColor x ∧ getCardColor z = getCardColor x then
      [5, handPoint cards x, handPoint cards y, handPoint cards z, getCardColor x]
    else if getCardColor y = getCardColor x ∧ getCardColor z = getCardColor x then
      [4, handPoint cards x, handPoint cards y, handPoint cards z, getCardColor x]
    else if handPoint cards x = handPoint cards y + 1 ∧ handPoint cards y = handPoint cards z + 1 then
      [3, handPoint cards x, handPoint cards y, handPoint cards z, getCardColor x, getCardColor y, getCardColor z]
    else if handPoint cards x = handPoint cards y ∨ handPoint cards y = handPoint cards z then
      [2, handPoint cards y, if handPoint cards x = handPoint cards y then handPoint cards z else handPoint cards x,
        ((cards.filter fun card => getCardPoint card = handPoint cards y).map getCardColor).foldr max 0]
    else [1, handPoint cards x, handPoint cards y, handPoint cards z, getCardColor x, getCardColor y, getCardColor z] := by
  simp [documented, order]

/-- The highest colour among the cards of some points. -/
theorem highest_color_eq (perm : cards'.Perm cards) (q : ℕ) :
    ((cards'.filter fun card => getCardPoint card = q).map getCardColor).foldr max 0
      = ((cards.filter fun card => getCardPoint card = q).map getCardColor).foldr max 0 :=
  ((perm.filter _).map _).foldr_eq 0

theorem getCardValue_eq {card : ℕ} (deck : card ∈ cardListData) :
    getCardValue card = if getCardPoint card = 14 then 1 else getCardPoint card := by
  have := mem_deck deck
  have := getCardPoint_cases card
  rw [getCardValue]
  split_ifs <;> omega

/-- The hand with an ace below a two and a three, where the ace is put behind the two. -/
theorem Dealt.shown_ace (dealt : Dealt cards) (sorted : sortCards getCardPoint cards = [x, y, z])
    (px : getCardPoint x = 14) (py : getCardPoint y = 3) (pz : getCardPoint z = 2) :
    Shown (plain (getHandCardsTypePrivate cards).1) (getHandCardsTypePrivate cards).2 (documented cards) := by
  have perm : [x, y, z].Perm cards := sorted ▸ sortCards_perm getCardPoint cards
  have deck := (dealt.perm perm).deck
  have vx : getCardValue x = 1 := by rw [getCardValue_eq (deck x (by simp)), px]; rfl
  have vy : getCardValue y = 3 := by rw [getCardValue_eq (deck y (by simp)), py]; rfl
  have vz : getCardValue z = 2 := by rw [getCardValue_eq (deck z (by simp)), pz]; rfl
  have points : handPoint cards = getCardValue := by
    rw [handPoint, if_pos]
    simp only [← (perm.map getCardPoint).mem_iff, List.map_cons, px, py, pz]
    simp
  have low : sortCards getCardValue [x, y, z] = [y, z, x] := by
    simp [sortCards, List.insertionSort, List.orderedInsert, byColorGG, vx, vy, vz]
  have order : inOrder cards = [y, z, x] := by
    rw [inOrder, points, ← low]
    exact sortCards_eq_of_perm perm.symm fun x _ y _ => eq_of_value_color
  rw [documented_of_order order, points, getHandCardsTypePrivate, sorted]
  simp only [List.getD_cons_zero, List.getD_cons_succ, px, py, pz, vx, vy, vz, low]
  rcases Classical.em (getCardColor x = getCardColor y ∧ getCardColor y = getCardColor z) with ⟨first, second⟩ | mixed
  · rw [eq_comm] at second
    simp [first, second, plain]
    exact Shown.shunJinA py pz px
  · have mixed' : ¬(getCardColor z = getCardColor y ∧ getCardColor x = getCardColor y) := fun flush =>
      mixed ⟨flush.2, flush.1.symm⟩
    simp [mixed, mixed', plain]
    exact Shown.shunZiA py pz px

/-- A dealt hand is seen with the type and the deciding numbers of the documented order. -/
theorem Dealt.shown (dealt : Dealt cards) :
    Shown (plain (getHandCardsTypePrivate cards).1) (getHandCardsTypePrivate cards).2 (documented cards) := by
  obtain ⟨x, y, z, sorted, xy, yz⟩ := dealt.exists_sorted
  have perm : [x, y, z].Perm cards := sorted ▸ sortCards_perm getCardPoint cards
  have deck := (dealt.perm perm).deck
  have px := getCardPoint_range (deck x (by simp))
  have py := getCardPoint_range (deck y (by simp))
  have pz := getCardPoint_range (deck z (by simp))
  rw [Above] at xy yz
  rcases Classical.em (getCardPoint x = 14 ∧ getCardPoint y = 3 ∧ getCardPoint z = 2) with ⟨px, py, pz⟩ | other
  · exact dealt.shown_ace sorted px py pz
  have points : handPoint cards = getCardPoint := by
    rw [handPoint, if_neg]
    simp only [← (perm.map getCardPoint).mem_iff, List.map_cons, List.map_nil, List.mem_cons, List.not_mem_nil, or_false]
    omega
  have order : inOrder cards = [x, y, z] := by rw [inOrder, points, sorted]
  rw [documented_of_order order, points, getHandCardsTypePrivate, sorted, ← highest_color_eq perm]
  simp only [List.getD_cons_zero, List.getD_cons_succ]
  rcases eq_or_ne (getCardPoint x) (getCardPoint y) with xy' | xy'
  · rcases eq_or_ne (getCardPoint y) (getCardPoint z) with yz' | yz'
    · have three : Shown .ty30 [x, y, z] [6, getCardPoint x] := .baoZi xy' yz'
      simp only [xy', yz', and_self, if_true, plain, reduceCtorEq, if_false] at three ⊢
      exact three
    · -- The pair is in front.
      have suit : getCardColor y < getCardColor x := by omega
      have none_ : List.filter (fun card => decide (getCardPoint card = getCardPoint y)) [z] = [] := by simp [yz'.symm]
      have alone : single [x, y, z] = getCardPoint z := by simp [single, xy']
      have color : pairColor [x, y, z] = getCardColor x := by
        rw [pairColor, alone]
        simp only [List.getD_cons_zero, List.getD_cons_succ]
        rw [if_neg yz'.symm, if_pos (by omega)]
      have pair : Shown .ty20 [x, y, z] [2, getCardPoint y, single [x, y, z], pairColor [x, y, z]] :=
        .pair List.mem_cons_self xy' color.symm
      rw [alone, color] at pair
      simp [xy', yz', plain, suit.ne, none_, suit.le]
      exact pair
  · rcases eq_or_ne (getCardPoint y) (getCardPoint z) with yz' | yz'
    · -- The pair is behind.
      have suit : getCardColor z < getCardColor y := by omega
      have less : getCardPoint z < getCardPoint x := by omega
      have mixed : ¬(getCardColor y = getCardColor x ∧ getCardColor z = getCardColor x) := by omega
      have alone : single [x, y, z] = getCardPoint x := by simp [single, xy']
      have color : pairColor [x, y, z] = getCardColor y := by
        rw [pairColor, alone]
        simp only [List.getD_cons_zero, List.getD_cons_succ]
        rw [if_neg xy', if_neg (by omega)]
      have pair : Shown .ty20 [x, y, z] [2, getCardPoint y, single [x, y, z], pairColor [x, y, z]] :=
        .pair (List.mem_cons_of_mem _ List.mem_cons_self) rfl color.symm
      rw [alone, color, yz'] at pair
      simp [less.ne', yz', plain, mixed, suit.le]
      exact pair
    · have straight : (getCardPoint y = getCardPoint z + 1
          ∧ (getCardPoint x = getCardPoint y + 1 ∨ getCardPoint x = getCardPoint z + 12))
          ↔ getCardPoint x = getCardPoint y + 1 ∧ getCardPoint y = getCardPoint z + 1 := by omega
      have flush : (getCardColor x = getCardColor y ∧ getCardColor y = getCardColor z)
          ↔ (getCardColor y = getCardColor x ∧ getCardColor z = getCardColor x) := by omega
      simp only [xy', yz', straight, flush, if_false, false_and, or_self]
      rcases Classical.em (getCardPoint x = getCardPoint y + 1 ∧ getCardPoint y = getCardPoint z + 1) with run | gap
      · have high : ¬getCardPoint x = getCardPoint z + 12 := by omega
        rcases Classical.em (getCardColor y = getCardColor x ∧ getCardColor z = getCardColor x) with one | mixed
        · simp only [if_pos run, if_pos one, if_neg high, if_pos (And.intro run one)]
          exact .shunJin run.1 run.2 pz.1
        · simp only [if_pos run, if_neg mixed, if_neg high, if_neg (not_and_of_not_right _ mixed)]
          exact .shunZi run.1 run.2 pz.1
      · rcases Classical.em (getCardColor y = getCardColor x ∧ getCardColor z = getCardColor x) with one | mixed
        · simp only [if_neg gap, if_pos one, if_neg (not_and_of_not_left _ gap)]
          exact .jinHua
        · simp only [if_neg gap, if_neg mixed, if_neg (not_and_of_not_left _ gap)]
          split <;> exact .sanPai

end H5Server.Zjh
