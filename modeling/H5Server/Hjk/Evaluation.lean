import H5Server.Hjk.Rounds

/-! # What a hand is worth

A hand is evaluated card by card: an ace counts as one, and a flag says whether it may still count as eleven. Along
every history the type is that of the cards, and a final hand is worth the best count of its cards.
-/

namespace H5Server.Hjk

variable {index card : ℕ} {cards : List ℕ} {hand : Hand}

/-- The points with every ace counted as one. -/
def hardPoint (cards : List ℕ) : ℕ := (cards.map getCardLogicValue).sum

def hasAce (cards : List ℕ) : Bool := cards.any fun card => getCardLogicValue card == 1

/-- The points with an ace counted as eleven where that does not exceed 21. -/
def bestPoint (cards : List ℕ) : ℕ :=
  if hasAce cards ∧ hardPoint cards + 10 ≤ 21 then hardPoint cards + 10 else hardPoint cards

def AceAndTen (cards : List ℕ) : Prop :=
  ∃ first second, cards = [first, second] ∧ (getCardLogicValue first = 1 ∧ getCardLogicValue second = 10
    ∨ getCardLogicValue first = 10 ∧ getCardLogicValue second = 1)

/-- `UpdateInit` on two cards and `UpdateAddOne` for each further card, as long as the hand is not stopped. -/
inductive Dealt (index : ℕ) : List ℕ → Hand → Prop where
  | init {hand : Hand} (first second : ℕ) (two : hand.cardcount = 2) :
    Dealt index [first, second] (hand.updateInit index (first, second))
  | add {cards : List ℕ} {hand : Hand} (dealt : Dealt index cards hand) (going : hand.stopped = false) (card : ℕ) :
    Dealt index (cards ++ [card]) (({ hand with cardcount := hand.cardcount + 1 } : Hand).updateAddOne index card)

/-- The loop of `BankerDeal` goes on. -/
def Hand.draws (hand : Hand) : Prop := hand.cardpoint < 17 ∧ hand.stopped = false

/-- The banker's cards. -/
inductive Drawn (index : ℕ) : List ℕ → Hand → Prop where
  | init {hand : Hand} (first second : ℕ) (two : hand.cardcount = 2) :
    Drawn index [first, second] (hand.updateInit index (first, second))
  | add {cards : List ℕ} {hand : Hand} (drawn : Drawn index cards hand) (draws : hand.draws) (card : ℕ) :
    Drawn index (cards ++ [card]) (({ hand with cardcount := hand.cardcount + 1 } : Hand).updateAddOne index card)

/-- A hand that gets no more cards. -/
inductive Final (index : ℕ) : List ℕ → Hand → Prop where
  | stopped {cards : List ℕ} {hand : Hand} (dealt : Dealt index cards hand) (stopped : hand.stopped = true) :
    Final index cards hand
  /-- `HandleStop` -/
  | stop {cards : List ℕ} {hand : Hand} (player : isbanker index = false) (dealt : Dealt index cards hand)
      (going : hand.stopped = false) : Final index cards (Table.countAce { hand with stopped := true })
  /-- `HandleDouble` -/
  | double {cards : List ℕ} {hand : Hand} (player : isbanker index = false) (dealt : Dealt index cards hand)
      (going : hand.stopped = false) (betscore card : ℕ) :
    Final index (cards ++ [card]) (Table.countAce (({ hand with
      stopped := true, doubled := true, betscore := betscore, cardcount := hand.cardcount + 1 } : Hand).updateAddOne
        index card))
  /-- `BankerDeal` -/
  | banker {cards : List ℕ} {hand : Hand} (banker : isbanker index = true) (drawn : Drawn index cards hand)
      (ends : ¬hand.draws) : Final index cards hand

/-- The type is that of the cards, of which there are at most five. -/
structure Exact (index : ℕ) (cards : List ℕ) (hand : Hand) : Prop where
  count : hand.cardcount = cards.length
  few : cards.length ≤ 5
  bust : hand.cardtype = ctBust ↔ 21 < hardPoint cards
  blackjack : hand.cardtype = ctBlackjack ↔ AceAndTen cards ∧ hand.issplited = false ∧ issecond index = false
  fiveDragon : hand.cardtype = ctFiveDragon ↔ cards.length = 5 ∧ hardPoint cards ≤ 21
  points : hand.cardtype = ctPoints ↔ hand.cardtype ≠ ctBust ∧ hand.cardtype ≠ ctBlackjack ∧ hand.cardtype ≠ ctFiveDragon

/-! ## Counting -/

@[simp] theorem hardPoint_snoc : hardPoint (cards ++ [card]) = hardPoint cards + getCardLogicValue card := by
  simp [hardPoint]

@[simp] theorem hasAce_snoc : hasAce (cards ++ [card]) = (hasAce cards || getCardLogicValue card == 1) := by
  simp [hasAce]

theorem getCardLogicValue_le (card : ℕ) : getCardLogicValue card ≤ 10 := Nat.min_le_left _ _

/-- The type of a hand from its cards. -/
def typeOf (whole : Bool) (cards : List ℕ) : ℕ :=
  if 21 < hardPoint cards then ctBust
  else if cards.length = 5 then ctFiveDragon
  else if whole && cards.length == 2 && hardPoint cards == 11 && hasAce cards then ctBlackjack
  else ctPoints

/-- What a hand says about its cards. The ace of a banker who stands is already counted as eleven. -/
structure Counted (index : ℕ) (cards : List ℕ) (hand : Hand) : Prop where
  count : hand.cardcount = cards.length
  two : 2 ≤ cards.length
  few : cards.length ≤ 5
  hasA : hand.hasA = (hasAce cards && decide (hardPoint cards + 10 ≤ 21))
  cardpoint : hand.cardpoint =
    if isbanker index && hand.hasA && decide (17 ≤ hardPoint cards + 10) then hardPoint cards + 10 else hardPoint cards
  cardtype : hand.cardtype = typeOf (!hand.issplited && !issecond index) cards
  stopped : hand.stopped = (decide (21 ≤ hardPoint cards) || cards.length == 5 || hand.cardtype == ctBlackjack
    || isbanker index && hand.hasA && decide (17 ≤ hardPoint cards + 10))

theorem counted_updateInit (index : ℕ) {hand : Hand} (first second : ℕ) (two : hand.cardcount = 2) :
    Counted index [first, second] (hand.updateInit index (first, second)) := by
  have bound := getCardLogicValue_le first
  have bound' := getCardLogicValue_le second
  have hard : hardPoint [first, second] = getCardLogicValue first + getCardLogicValue second := by simp [hardPoint]
  have ace : hasAce [first, second] = (getCardLogicValue first == 1 || getCardLogicValue second == 1) := by
    simp [hasAce]
  -- with an ace among two cards eleven always fits
  have soft : hasAce [first, second] = true → getCardLogicValue first + getCardLogicValue second + 10 ≤ 21 := by
    rw [ace, Bool.or_eq_true, beq_iff_eq, beq_iff_eq]
    omega
  refine ⟨two, by simp, by simp, ?_, ?_, ?_, ?_⟩
  · simp only [Hand.updateInit, hard, ← ace]
    rcases aced : hasAce [first, second] with _ | _
    · rfl
    · exact (decide_eq_true (soft aced)).symm
  · simp only [Hand.updateInit, bankerStands, hard, ← ace]
    rcases aced : hasAce [first, second] with _ | _
    · simp
    · simp [soft aced]
  · simp only [Hand.updateInit, typeOf, hard, ← ace]
    rcases eq_or_ne (getCardLogicValue first + getCardLogicValue second) 11 with eleven | other
    · simp [eleven, and_comm]
    · have small : ¬21 < getCardLogicValue first + getCardLogicValue second := by omega
      have plain : getCardLogicValue first + getCardLogicValue second ≠ 21 := by omega
      simp [other, small, plain]
  · simp only [Hand.updateInit, bankerStands, hard, ← ace]
    have plain : getCardLogicValue first + getCardLogicValue second ≠ 21 := by omega
    have small : ¬21 ≤ getCardLogicValue first + getCardLogicValue second := by omega
    rcases aced : hasAce [first, second] with _ | _
    · simp [plain, small]
    · have := soft aced
      simp only [plain, small, this, decide_true, decide_false, Bool.false_or, Bool.and_true, ne_eq, not_false_eq_true,
        if_true, List.length_cons, List.length_nil]
      rcases eq_or_ne (getCardLogicValue first + getCardLogicValue second) 11 with eleven | other
      · rcases hand.issplited <;> rcases issecond index <;> simp [eleven]
      · simp [beq_eq_false_iff_ne.mpr other]

/-- What a hand that may draw says about its cards. -/
theorem Counted.going (counted : Counted index cards hand) (going : hand.stopped = false) :
    hand.cardpoint = hardPoint cards ∧ hardPoint cards < 21 ∧ cards.length < 5 ∧ hand.cardtype = ctPoints := by
  have stopped := counted.stopped.symm.trans going
  simp only [Bool.or_eq_false_iff, decide_eq_false_iff_not, beq_eq_false_iff_ne] at stopped
  obtain ⟨⟨⟨low, few⟩, plain⟩, runs⟩ := stopped
  have point := counted.cardpoint
  rw [runs] at point
  have bound := counted.few
  have type := counted.cardtype
  refine ⟨by simpa using point, by omega, by omega, ?_⟩
  rw [typeOf, if_neg (by omega), if_neg few] at type
  split at type
  · exact absurd type plain
  · exact type

theorem Counted.add (counted : Counted index cards hand) (going : hand.stopped = false) (card : ℕ) :
    Counted index (cards ++ [card])
      (({ hand with cardcount := hand.cardcount + 1 } : Hand).updateAddOne index card) := by
  obtain ⟨point, low, few, type⟩ := counted.going going
  have two := counted.two
  have more : (cards ++ [card]).length = cards.length + 1 := by simp
  have soft : ((hand.hasA || getCardLogicValue card == 1)
        && decide (hardPoint cards + getCardLogicValue card + 10 ≤ 21))
      = (hasAce (cards ++ [card]) && decide (hardPoint (cards ++ [card]) + 10 ≤ 21)) := by
    rw [counted.hasA, hasAce_snoc, hardPoint_snoc]
    rcases Decidable.em (hardPoint cards + getCardLogicValue card + 10 ≤ 21) with fits | over_
    · have before : hardPoint cards + 10 ≤ 21 := by omega
      simp only [decide_eq_true fits, decide_eq_true before, Bool.and_true]
    · rw [decide_eq_false over_, Bool.and_false, Bool.and_false]
  have others : ¬cards.length + 1 = 2 := by omega
  have type' : (({ hand with cardcount := hand.cardcount + 1 } : Hand).updateAddOne index card).cardtype
      = typeOf (!hand.issplited && !issecond index) (cards ++ [card]) := by
    simp only [Hand.updateAddOne, typeOf, point, type, hardPoint_snoc, more, counted.count, decide_eq_true_eq, beq_iff_eq,
      ite_self, beq_eq_false_iff_ne.mpr others, Bool.and_false, Bool.false_and, Bool.false_eq_true, if_false]
  refine ⟨?_, by omega, by omega, ?_, ?_, type', ?_⟩
  · rw [more, ← counted.count]
    rfl
  · rw [← soft, ← point]
    rfl
  · simp only [Hand.updateAddOne, bankerStands, point, hardPoint_snoc]
    rcases Decidable.em (hardPoint cards + getCardLogicValue card + 10 ≤ 21) with fits | over_
    · simp only [decide_eq_true fits, Bool.and_true]
    · simp only [decide_eq_false over_, Bool.and_false, Bool.false_and]
  · have plain : typeOf (!hand.issplited && !issecond index) (cards ++ [card]) ≠ ctBlackjack := by
      simp only [typeOf, more, beq_eq_false_iff_ne.mpr others, Bool.and_false, Bool.false_and, Bool.false_eq_true, if_false]
      split_ifs <;> decide
    rw [type', beq_eq_false_iff_ne.mpr plain, Bool.or_false, more]
    simp only [Hand.updateAddOne, bankerStands, point, going, hardPoint_snoc, counted.count, Bool.false_or]
    have limit : (decide (21 < hardPoint cards + getCardLogicValue card) || cards.length + 1 == 5
        || hardPoint cards + getCardLogicValue card == 21)
        = (decide (21 ≤ hardPoint cards + getCardLogicValue card) || cards.length + 1 == 5) := by
      rw [Bool.eq_iff_iff]
      simp only [Bool.or_eq_true, decide_eq_true_eq, beq_iff_eq]
      omega
    rw [limit]
    rcases Decidable.em (hardPoint cards + getCardLogicValue card + 10 ≤ 21) with fits | over_
    · simp only [decide_eq_true fits, Bool.and_true]
    · simp only [decide_eq_false over_, Bool.and_false, Bool.false_and]

theorem Dealt.counted (dealt : Dealt index cards hand) : Counted index cards hand := by
  induction dealt with
  | init first second two => exact counted_updateInit index first second two
  | add dealt going card ih => exact ih.add going card

/-! ## Types and points -/

theorem aceAndTen_iff : AceAndTen cards ↔ cards.length = 2 ∧ hardPoint cards = 11 ∧ hasAce cards = true := by
  constructor
  · rintro ⟨first, second, rfl, values⟩
    refine ⟨rfl, ?_, ?_⟩
    · simp only [hardPoint, List.map_cons, List.map_nil, List.sum_cons, List.sum_nil]
      omega
    · simp only [hasAce, List.any_cons, List.any_nil, Bool.or_false, Bool.or_eq_true, beq_iff_eq]
      omega
  · rintro ⟨two, eleven, ace⟩
    obtain ⟨first, second, rfl⟩ := List.length_eq_two.mp two
    simp only [hardPoint, List.map_cons, List.map_nil, List.sum_cons, List.sum_nil] at eleven
    simp only [hasAce, List.any_cons, List.any_nil, Bool.or_false, Bool.or_eq_true, beq_iff_eq] at ace
    exact ⟨first, second, rfl, by omega⟩

theorem Counted.exact (counted : Counted index cards hand) : Exact index cards hand := by
  have type := counted.cardtype
  have two (length : cards.length = 2) : hardPoint cards ≤ 20 := by
    obtain ⟨first, second, rfl⟩ := List.length_eq_two.mp length
    have bound := getCardLogicValue_le first
    have bound' := getCardLogicValue_le second
    simp only [hardPoint, List.map_cons, List.map_nil, List.sum_cons, List.sum_nil]
    omega
  have blackjack : (!hand.issplited && !issecond index && cards.length == 2 && hardPoint cards == 11 && hasAce cards) = true
      ↔ AceAndTen cards ∧ hand.issplited = false ∧ issecond index = false := by
    simp only [Bool.and_eq_true, Bool.not_eq_true', beq_iff_eq, aceAndTen_iff]
    tauto
  rw [typeOf] at type
  have few := counted.few
  split at type
  next bust =>
    refine ⟨counted.count, few, ?_, ?_, ?_, ?_⟩
    · simp [type, bust]
    · simp only [type, aceAndTen_iff]
      constructor
      · nofun
      · rintro ⟨⟨length, eleven, -⟩, -⟩
        omega
    · simp only [type]
      constructor
      · nofun
      · omega
    · simp [type]
  next alive =>
    split at type
    next five =>
      refine ⟨counted.count, few, ?_, ?_, ?_, ?_⟩
      · simp [type, alive]
      · simp only [type, aceAndTen_iff]
        constructor
        · nofun
        · rintro ⟨⟨length, -⟩, -⟩
          omega
      · simp only [type, five, true_and, true_iff]
        omega
      · simp [type]
    next short =>
      split at type
      next natural =>
        refine ⟨counted.count, few, ?_, ?_, ?_, ?_⟩
        · simp [type, alive]
        · simp only [type, true_iff]
          exact blackjack.mp natural
        · simp [type, short]
        · simp [type]
      next plain =>
        refine ⟨counted.count, few, ?_, ?_, ?_, ?_⟩
        · simp [type, alive]
        · rw [← blackjack]
          simp only [type, plain]
          decide
        · simp [type, short]
        · simp [type]

theorem Exact.congr {hand' : Hand} (exact_ : Exact index cards hand) (count : hand'.cardcount = hand.cardcount)
    (type : hand'.cardtype = hand.cardtype) (split : hand'.issplited = hand.issplited) : Exact index cards hand' where
  count := count.trans exact_.count
  few := exact_.few
  bust := by rw [type]; exact exact_.bust
  blackjack := by rw [type, split]; exact exact_.blackjack
  fiveDragon := by rw [type]; exact exact_.fiveDragon
  points := by rw [type]; exact exact_.points

/-- The points are the best ones unless the ace may still become eleven. -/
theorem Counted.cardpoint_eq (counted : Counted index cards hand) :
    hand.cardpoint = if isbanker index = true ∧ 17 ≤ bestPoint cards then bestPoint cards else hardPoint cards := by
  have point := counted.cardpoint
  rw [counted.hasA] at point
  rw [point, bestPoint]
  simp only [Bool.and_eq_true, decide_eq_true_eq]
  rcases Decidable.em (hasAce cards = true ∧ hardPoint cards + 10 ≤ 21) with soft | hard
  · simp only [soft, and_self, and_true, if_true]
  · simp only [if_neg hard, ite_self]
    rw [if_neg fun both => hard both.1.2]

/-- A player's points are right once his ace is counted. -/
theorem Counted.countAce_cardpoint {hand' : Hand} (counted : Counted index cards hand) (player : isbanker index = false)
    (ace : hand'.hasA = hand.hasA) (same : hand'.cardpoint = hand.cardpoint) :
    (Table.countAce hand').cardpoint = bestPoint cards := by
  have point := same.trans counted.cardpoint_eq
  rw [if_neg fun both => Bool.false_ne_true (player.symm.trans both.1)] at point
  have flag : hand'.hasA = true ∧ hand'.cardpoint + 10 ≤ 21 ↔ hasAce cards = true ∧ hardPoint cards + 10 ≤ 21 := by
    rw [ace, counted.hasA, point, Bool.and_eq_true, decide_eq_true_eq, and_assoc, and_self]
  rw [Table.countAce, bestPoint]
  rcases Decidable.em (hasAce cards = true ∧ hardPoint cards + 10 ≤ 21) with soft | hard
  · rw [if_pos (flag.mpr soft), if_pos soft, point]
  · rw [if_neg fun both => hard (flag.mp both), if_neg hard, point]

theorem hardPoint_le_bestPoint (cards : List ℕ) : hardPoint cards ≤ bestPoint cards := by
  rw [bestPoint]
  split <;> omega

theorem bestPoint_of_large (large : 11 < hardPoint cards) : bestPoint cards = hardPoint cards := by
  rw [bestPoint, if_neg]
  omega

/-- Who stops by himself with points has 21, or is the banker with at least 17. -/
theorem Counted.stopped_points (counted : Counted index cards hand) (stopped : hand.stopped = true)
    (points : hand.cardtype = ctPoints) :
    hardPoint cards = 21 ∨ isbanker index = true ∧ 17 ≤ bestPoint cards := by
  have exact_ := counted.exact
  obtain ⟨alive, -, short⟩ := exact_.points.mp points
  rw [Ne, exact_.bust] at alive
  rw [Ne, exact_.fiveDragon] at short
  rw [counted.stopped, counted.hasA] at stopped
  simp only [Bool.or_eq_true, Bool.and_eq_true, decide_eq_true_eq, beq_iff_eq] at stopped
  rcases stopped with ((high | five) | natural) | ⟨⟨banker, ace, soft⟩, stands⟩
  · left
    omega
  · omega
  · rw [points] at natural
    exact absurd natural (by decide)
  · right
    rw [bestPoint, if_pos ⟨ace, soft⟩]
    exact ⟨banker, stands⟩

theorem Counted.stopped_cardpoint (counted : Counted index cards hand) (stopped : hand.stopped = true)
    (points : hand.cardtype = ctPoints) : hand.cardpoint = bestPoint cards := by
  rw [counted.cardpoint_eq]
  rcases counted.stopped_points stopped points with high | stands
  · rw [bestPoint_of_large (by omega), ite_self]
  · rw [if_pos stands]

/-- The banker draws below 17, unless he is bust or has five cards. -/
theorem Counted.draws_iff (counted : Counted index cards hand) (banker : isbanker index = true) :
    hand.draws ↔ bestPoint cards < 17 ∧ hardPoint cards ≤ 21 ∧ cards.length < 5 := by
  have least := hardPoint_le_bestPoint cards
  have point := counted.cardpoint_eq
  constructor
  · rintro ⟨low, going⟩
    obtain ⟨hard, below, few, -⟩ := counted.going going
    have under : bestPoint cards < 17 := by
      by_contra enough
      rw [if_pos ⟨banker, by omega⟩] at point
      omega
    exact ⟨under, by omega, few⟩
  · rintro ⟨low, -, few⟩
    rw [if_neg fun both => by omega] at point
    refine ⟨by omega, ?_⟩
    by_contra stopped
    rw [Bool.not_eq_false, counted.stopped, counted.hasA] at stopped
    simp only [Bool.or_eq_true, Bool.and_eq_true, decide_eq_true_eq, beq_iff_eq] at stopped
    rcases stopped with ((high | five) | natural) | ⟨⟨-, ace, soft⟩, stands⟩
    · omega
    · omega
    · obtain ⟨two, eleven, ace⟩ := aceAndTen_iff.mp (counted.exact.blackjack.mp natural).1
      rw [bestPoint, if_pos ⟨ace, by omega⟩] at low
      omega
    · rw [bestPoint, if_pos ⟨ace, soft⟩] at low
      omega

/-- The banker's total is below 17, and he is not bust and has fewer than five cards. -/
def Continues (cards : List ℕ) : Prop := bestPoint cards < 17 ∧ hardPoint cards ≤ 21 ∧ cards.length < 5

theorem Drawn.dealt (drawn : Drawn index cards hand) : Dealt index cards hand := by
  induction drawn with
  | init first second two => exact .init first second two
  | add _ draws card ih => exact ih.add draws.2 card

/-- The banker has drawn only as long as he had to. -/
theorem Drawn.continues (drawn : Drawn index cards hand) (banker : isbanker index = true) (n : ℕ) (two : 2 ≤ n)
    (before : n < cards.length) : Continues (cards.take n) := by
  induction drawn with
  | init first second two' =>
    simp only [List.length_cons, List.length_nil] at before
    omega
  | @add cards hand drawn draws card ih =>
    rw [List.length_append, List.length_singleton] at before
    rw [List.take_append_of_le_length (by omega)]
    rcases (show n < cards.length ∨ n = cards.length by omega) with inner | rfl
    · exact ih inner
    · rw [List.take_length]
      exact (drawn.dealt.counted.draws_iff banker).mp draws

/-- What a hand is worth in the end. -/
structure ExactFinal (index : ℕ) (cards : List ℕ) (hand : Hand) : Prop extends Exact index cards hand where
  cardpoint : hand.cardtype = ctPoints → hand.cardpoint = bestPoint cards

theorem countAce_keeps_type (hand : Hand) : (Table.countAce hand).cardcount = hand.cardcount
    ∧ (Table.countAce hand).cardtype = hand.cardtype ∧ (Table.countAce hand).issplited = hand.issplited
    ∧ (Table.countAce hand).stopped = hand.stopped := by
  rw [Table.countAce]
  split <;> exact ⟨rfl, rfl, rfl, rfl⟩

theorem Final.exact (final : Final index cards hand) : ExactFinal index cards hand := by
  cases final with
  | stopped dealt stopped =>
    exact ⟨dealt.counted.exact, dealt.counted.stopped_cardpoint stopped⟩
  | @stop cards hand player dealt going =>
    obtain ⟨count, type, split, -⟩ := countAce_keeps_type { hand with stopped := true }
    refine ⟨dealt.counted.exact.congr count type split, fun _ => ?_⟩
    exact dealt.counted.countAce_cardpoint player rfl rfl
  | @double cards hand player dealt going betscore card =>
    obtain ⟨count, type, split, -⟩ := countAce_keeps_type (({ hand with
      stopped := true, doubled := true, betscore := betscore, cardcount := hand.cardcount + 1 } : Hand).updateAddOne
        index card)
    have counted := dealt.counted.add going card
    refine ⟨counted.exact.congr count type split, fun _ => ?_⟩
    exact counted.countAce_cardpoint player rfl rfl
  | banker banker drawn ends =>
    have dealt := drawn.dealt
    refine ⟨dealt.counted.exact, fun points => ?_⟩
    rw [dealt.counted.draws_iff banker] at ends
    obtain ⟨alive, -, short⟩ := dealt.counted.exact.points.mp points
    rw [Ne, dealt.counted.exact.bust] at alive
    rw [Ne, dealt.counted.exact.fiveDragon] at short
    have few := dealt.counted.few
    rw [dealt.counted.cardpoint_eq, if_pos ⟨banker, by omega⟩]

/-- The stake does not matter for the value. -/
theorem Dealt.withSlip (dealt : Dealt index cards hand) (slip : Slip) :
    Dealt index cards { hand with toSlip := slip } := by
  induction dealt with
  | @init hand first second two => exact @Dealt.init index { hand with toSlip := slip } first second two
  | @add cards hand _ going card ih => exact ih.add going card

/-- Only the first two cards may be split. -/
theorem Dealt.two_of_split (dealt : Dealt index cards hand) (can : hand.opercode &&& operSplit ≠ 0) :
    hand.cardcount = 2 := by
  cases dealt with
  | init first second two => exact two
  | add _ _ card => exact absurd (Table.updateAddOne_split ..) can

end H5Server.Hjk
