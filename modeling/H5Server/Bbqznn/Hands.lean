import H5Server.Bbqznn.GameLogic
import Mathlib.Algebra.GroupWithZero.Nat
import Mathlib.Data.List.GetD
import Mathlib.Data.List.Nodup
import Mathlib.Data.Prod.Lex

/-! # Hands of the deck

A hand is sorted by value and card, with the jokers in front. No type of five cards depends on their order.
-/

namespace H5Server.Bbqznn

variable {cards cards' : List ℕ}

/-! ## Sorting -/

abbrev sortKey (card : ℕ) : ℕ ×ₗ ℕ := toLex (getCardValue card, card)

theorem swaps_eq (card card' : ℕ) : swaps card card' = decide (sortKey card < sortKey card') := by
  simp only [swaps, sortKey, Prod.Lex.toLex_lt_toLex]

theorem sortCardList_perm (cards : List ℕ) : (sortCardList cards).Perm cards := Lib.bubbleSort_perm _ _ _

theorem sortCardList_sorted (cards : List ℕ) :
    (sortCardList cards).Pairwise fun card card' => sortKey card' ≤ sortKey card := by
  rcases eq_or_ne cards [] with rfl | some_
  · exact List.Pairwise.nil
  · have long := List.length_pos_of_ne_nil some_
    exact Lib.bubbleSort_sorted swaps_eq _ _ (by omega)

/-- Cards in descending order are what the sort makes of them. -/
theorem sortCardList_eq (perm : cards'.Perm cards)
    (sorted : cards'.Pairwise fun card card' => sortKey card' ≤ sortKey card) : sortCardList cards = cards' := by
  refine List.Perm.eq_of_pairwise (fun a b _ _ le ge => ?_) (sortCardList_sorted cards) sorted
    ((sortCardList_perm cards).trans perm.symm)
  have same : sortKey a = sortKey b := le_antisymm ge le
  exact (Prod.mk.inj same).2

theorem sortCardList_eq_of_perm (perm : cards.Perm cards') : sortCardList cards = sortCardList cards' :=
  sortCardList_eq ((sortCardList_perm cards').trans perm.symm) (sortCardList_sorted cards')

/-! ## The deck -/

def deck (haveKing : Bool) : List ℕ := if haveKing then haveKingCardDataArray else cardDataArray

/-- Distinct cards of the deck. -/
structure Hand (haveKing : Bool) (n : ℕ) (cards : List ℕ) : Prop where
  length : cards.length = n
  nodup : cards.Nodup
  inDeck : ∀ card ∈ cards, card ∈ deck haveKing

theorem deck_subset (haveKing : Bool) : deck haveKing ⊆ haveKingCardDataArray := by
  cases haveKing with
  | false => exact List.subset_append_left _ _
  | true => exact List.Subset.refl _

theorem value_of_mem : ∀ card ∈ haveKingCardDataArray,
    0 < getCardValue card ∧ getCardValue card ≤ 15 ∧ (isKing card = true ↔ 13 < getCardValue card) := by decide

theorem not_isKing_of_mem : ∀ card ∈ cardDataArray, isKing card = false := by decide

theorem eq_of_value_of_color : ∀ card ∈ haveKingCardDataArray, ∀ card' ∈ haveKingCardDataArray,
    getCardValue card = getCardValue card' → getCardColor card = getCardColor card' → card = card' := by decide

theorem countP_deck : ∀ card ∈ haveKingCardDataArray,
    haveKingCardDataArray.countP (fun card' => getCardValue card' = getCardValue card) ≤ 4 := by decide

variable {haveKing : Bool} {n : ℕ}

theorem Hand.mem (hand : Hand haveKing n cards) {card : ℕ} (inside : card ∈ cards) : card ∈ haveKingCardDataArray :=
  deck_subset haveKing (hand.inDeck card inside)

theorem Hand.of_perm (hand : Hand haveKing n cards) (perm : cards'.Perm cards) : Hand haveKing n cards' where
  length := perm.length_eq.trans hand.length
  nodup := perm.nodup_iff.mpr hand.nodup
  inDeck card inside := hand.inDeck card (perm.subset inside)

theorem Hand.sorted (hand : Hand haveKing n cards) : Hand haveKing n (sortCardList cards) :=
  hand.of_perm (sortCardList_perm cards)

theorem Hand.getD_mem (hand : Hand haveKing n cards) {i : ℕ} (inside : i < n) : cards.getD i 0 ∈ cards := by
  rw [← hand.length] at inside
  rw [List.getD_eq_getElem _ _ inside]
  exact List.getElem_mem inside

/-! ## Points -/

/-- Two cards can be left out so that the others make tens. -/
def HasNiu (cards : List ℕ) : Prop :=
  ∃ pair ∈ Lib.choices 2 (cards.map getLogicValue), ((cards.map getLogicValue).sum - pair.sum) % 10 = 0

instance : Decidable (HasNiu cards) := inferInstanceAs (Decidable (∃ pair ∈ _, _))

/-- The points of a hand that makes tens. -/
def points (cards : List ℕ) : ℕ :=
  if (cards.map getLogicValue).sum % 10 = 0 then 10 else (cards.map getLogicValue).sum % 10

theorem logicValue_le (card : ℕ) : getLogicValue card ≤ 10 := by
  rw [getLogicValue]
  split_ifs with high
  · exact le_rfl
  · exact Nat.le_of_not_lt high

theorem logicValue_pos {card : ℕ} (some_ : 0 < getCardValue card) : 0 < getLogicValue card := by
  rw [getLogicValue]
  split_ifs
  · decide
  · exact some_

/-- The pair that is found has the points of the whole hand. -/
theorem isOtherNiu_eq (values : ∀ card ∈ cards, 0 < getCardValue card) :
    isOtherNiu cards = if HasNiu cards then points cards else 0 := by
  rw [isOtherNiu]
  split
  · next pair found =>
    have inside := List.mem_of_find?_eq_some found
    have tens := List.find?_some found
    rw [decide_eq_true_eq] at tens
    have niu : HasNiu cards := ⟨pair, inside, tens⟩
    rw [if_pos niu, points]
    obtain ⟨sub, two⟩ := Lib.mem_choices.mp inside
    have bounds : ∀ value ∈ pair, 0 < value ∧ value ≤ 10 := by
      intro value present
      obtain ⟨card, here, rfl⟩ := List.mem_map.mp (sub.subset present)
      exact ⟨logicValue_pos (values card here), logicValue_le card⟩
    obtain ⟨rest, whole⟩ := sub.exists_perm_append
    have sum := whole.sum_eq
    rw [List.sum_append] at sum
    obtain ⟨x, y, rfl⟩ := List.length_eq_two.mp two
    obtain ⟨first, second⟩ := bounds x List.mem_cons_self
    obtain ⟨third, fourth⟩ := bounds y (List.mem_cons_of_mem _ List.mem_cons_self)
    simp only [List.sum_cons, List.sum_nil, add_zero] at tens sum ⊢
    split_ifs <;> omega
  · next none_ =>
    rw [if_neg]
    rintro ⟨pair, inside, tens⟩
    exact List.find?_eq_none.mp none_ pair inside (decide_eq_true tens)

theorem hasNiu_congr (perm : (cards.map getLogicValue).Perm (cards'.map getLogicValue)) :
    HasNiu cards ↔ HasNiu cards' := by
  rw [HasNiu, HasNiu, ← perm.sum_eq]
  apply Lib.exists_choices_iff perm
  intro chosen chosen' same tens
  rwa [← same.sum_eq]

/-- Hands with the same points of their cards in some order have the same points. -/
theorem isOtherNiu_congr (values : ∀ card ∈ cards, 0 < getCardValue card)
    (values' : ∀ card ∈ cards', 0 < getCardValue card)
    (perm : (cards.map getLogicValue).Perm (cards'.map getLogicValue)) : isOtherNiu cards = isOtherNiu cards' := by
  rw [isOtherNiu_eq values, isOtherNiu_eq values', points, points, perm.sum_eq]
  simp only [hasNiu_congr perm]

theorem isOtherNiu_of_perm (values : ∀ card ∈ cards, 0 < getCardValue card) (perm : cards'.Perm cards) :
    isOtherNiu cards' = isOtherNiu cards :=
  isOtherNiu_congr (fun card inside => values card (perm.subset inside)) values (perm.map getLogicValue)

theorem isOtherNiu_le (values : ∀ card ∈ cards, 0 < getCardValue card) : isOtherNiu cards ≤ 10 := by
  rw [isOtherNiu_eq values, points]
  split_ifs <;> omega

/-! ## Types -/

section Types

theorem isFiveSmall_of_perm (perm : cards'.Perm cards) : isFiveSmall cards' = isFiveSmall cards := by
  rw [isFiveSmall, isFiveSmall, perm.all_eq, (perm.map getCardValue).sum_eq]

theorem isBomb_of_perm (perm : cards'.Perm cards) : isBomb cards' = isBomb cards := by
  rw [isBomb, isBomb, sortCardList_eq_of_perm perm, perm.countP_eq]

theorem isGoldenBull_of_perm (perm : cards'.Perm cards) : isGoldenBull cards' = isGoldenBull cards := by
  rw [isGoldenBull, isGoldenBull, perm.all_eq, perm.length_eq]

theorem isStraight_of_perm (perm : cards'.Perm cards) : isStraight cards' = isStraight cards := by
  rw [isStraight, isStraight, sortCardList_eq_of_perm perm]

/-- One colour for all is the colour of any of them. -/
theorem all_color_iff (color : ℕ) (inside : color ∈ cards.map getCardColor) :
    (cards.all fun card => getCardColor (cards.getD 0 0) = getCardColor card) = true ↔
      ∀ card ∈ cards, getCardColor card = color := by
  obtain ⟨card', present, rfl⟩ := List.mem_map.mp inside
  rw [List.all_eq_true]
  constructor
  · intro same card here
    exact (of_decide_eq_true (same card here)).symm.trans (of_decide_eq_true (same card' present))
  · intro same card here
    have long := List.length_pos_of_mem here
    have head : cards.getD 0 0 ∈ cards := by
      rw [List.getD_eq_getElem _ _ long]
      exact List.getElem_mem long
    exact decide_eq_true ((same _ head).trans (same card here).symm)

theorem isFlush_of_perm (perm : cards'.Perm cards) : isFlush cards' = isFlush cards := by
  rw [isFlush, isFlush, sortCardList_eq_of_perm perm]
  congr 2
  rcases eq_or_ne cards [] with rfl | some_
  · rw [perm.eq_nil]
  · obtain ⟨card, inside⟩ := List.exists_mem_of_ne_nil _ some_
    have here := List.mem_map_of_mem (f := getCardColor) inside
    rw [eq_iff_iff, all_color_iff _ here, all_color_iff _ ((perm.map getCardColor).symm.subset here)]
    exact forall_congr' fun card => imp_congr_left perm.mem_iff

theorem isCalabash_of_perm (perm : cards'.Perm cards) : isCalabash cards' = isCalabash cards := by
  rw [isCalabash, isCalabash, sortCardList_eq_of_perm (perm.map getCardValue)]

theorem getCardType_of_perm (values : ∀ card ∈ cards, 0 < getCardValue card) (perm : cards'.Perm cards) :
    getCardType cards' = getCardType cards := by
  rw [getCardType, getCardType, isTierce, isTierce, isStraight_of_perm perm, isFlush_of_perm perm,
    isFiveSmall_of_perm perm, isBomb_of_perm perm, isCalabash_of_perm perm, isGoldenBull_of_perm perm,
    isOtherNiu_of_perm values perm]

theorem searchMaxTypeOne_of_perm (perm : cards'.Perm cards) : searchMaxTypeOne cards' = searchMaxTypeOne cards := by
  rw [searchMaxTypeOne, searchMaxTypeOne, isBomb_of_perm perm, isGoldenBull_of_perm perm, sortCardList_eq_of_perm perm]

theorem searchMaxTypeTwo_of_perm (perm : cards'.Perm cards) : searchMaxTypeTwo cards' = searchMaxTypeTwo cards := by
  rw [searchMaxTypeTwo, searchMaxTypeTwo, sortCardList_eq_of_perm perm]

theorem Hand.values (hand : Hand haveKing n cards) : ∀ card ∈ cards, 0 < getCardValue card := fun _ inside =>
  (value_of_mem _ (hand.mem inside)).1

/-- Neither the type of five cards nor what their jokers become depends on the order. -/
theorem getHaveKingBigCardType_of_perm (hand : Hand haveKing n cards) (perm : cards'.Perm cards)
    (kingChangCard : ℕ × ℕ) :
    (getHaveKingBigCardType haveKing cards' kingChangCard).maxType =
        (getHaveKingBigCardType haveKing cards kingChangCard).maxType ∧
      (getHaveKingBigCardType haveKing cards' kingChangCard).kingChangCard =
        (getHaveKingBigCardType haveKing cards kingChangCard).kingChangCard := by
  rw [getHaveKingBigCardType, getHaveKingBigCardType, perm.countP_eq]
  split
  · exact ⟨getCardType_of_perm hand.values perm, rfl⟩
  · rw [getCardTypeOneKing, getCardTypeOneKing, searchMaxTypeOne_of_perm perm]
    simp only [perm.mem_iff, and_self]
  · rw [getCardTypeTwoKing, getCardTypeTwoKing, searchMaxTypeTwo_of_perm perm]
    exact ⟨rfl, rfl⟩
  · exact ⟨rfl, rfl⟩

/-! ## Types with a middle card -/

theorem getCardType_cases (values : ∀ card ∈ cards, 0 < getCardValue card) :
    getCardType cards ≤ ctNiuniu ∨ getCardType cards = ctShunziNiu ∨ getCardType cards = ctWuhuaNiu ∨
      getCardType cards = ctTonghuaNiu ∨ getCardType cards = ctHuluNiu ∧ isCalabash cards = true ∨
      getCardType cards = ctBombNiu ∧ isBomb cards = true ∨ getCardType cards = ctFivesmallNiu ∨
      getCardType cards = ctTonghuashunNiu := by
  rw [getCardType]
  split_ifs with tierce small bomb calabash flush golden straight <;> simp [*, isOtherNiu_le values]

/-- The values of the sorted cards are the sorted values. -/
theorem sortCardList_values (cards : List ℕ) :
    sortCardList (cards.map getCardValue) = (sortCardList cards).map getCardValue := by
  apply sortCardList_eq ((sortCardList_perm cards).map getCardValue)
  rw [List.pairwise_map]
  apply (sortCardList_sorted cards).imp
  intro card card' order
  have le : getCardValue card' ≤ getCardValue card := by
    rcases Prod.Lex.toLex_le_toLex.mp order with less | ⟨same, -⟩
    · exact less.le
    · exact same.le
  have same (card : ℕ) : getCardValue (getCardValue card) = getCardValue card := by
    rw [getCardValue, getCardValue, Nat.and_assoc, Nat.and_self]
  rw [Prod.Lex.toLex_le_toLex, same, same]
  exact (lt_or_eq_of_le le).imp_right fun eq => ⟨eq, le⟩

/-- A hand with four or three equal cards has them in the middle. -/
theorem middle_count (five : cards.length = 5) (equal : isBomb cards = true ∨ isCalabash cards = true) :
    3 ≤ cards.countP fun card => getCardValue ((sortCardList cards).getD 2 0) = getCardValue card := by
  rcases equal with bomb | calabash
  · have four := of_decide_eq_true bomb
    omega
  · rw [isCalabash, decide_eq_true_eq, sortCardList_values] at calabash
    rw [← (sortCardList_perm cards).countP_eq]
    have length := (sortCardList_perm cards).length_eq.trans five
    generalize sortCardList cards = sorted at calabash length ⊢
    match sorted, length, calabash with
    | [x, y, z, v, w], _, calabash =>
      simp only [List.map_cons, List.map_nil, List.getD_cons_zero, List.getD_cons_succ] at calabash
      simp only [List.getD_cons_zero, List.getD_cons_succ, List.countP_cons, List.countP_nil, decide_eq_true_eq]
      rcases calabash with ⟨-, first, second⟩ | ⟨first, second, -⟩
      · rw [if_pos trivial, if_pos first, if_pos (first.trans second)]
        omega
      · rw [if_pos trivial, if_pos second.symm, if_pos (first.trans second).symm]
        omega

/-- The deck has four cards of a value only. -/
theorem Hand.middle_ne {a b : List ℕ} (first : Hand haveKing n a) (second : Hand haveKing n b) (apart : a.Disjoint b)
    {value : ℕ} (many : 3 ≤ a.countP fun card => value = getCardValue card)
    (many' : 3 ≤ b.countP fun card => value = getCardValue card) : False := by
  have some_ : 0 < a.countP fun card => value = getCardValue card := by omega
  obtain ⟨card, inside, same⟩ := List.countP_pos_iff.mp some_
  rw [decide_eq_true_eq] at same
  have few := countP_deck card (first.mem inside)
  have sub : (a ++ b).Subperm haveKingCardDataArray := by
    apply List.subperm_of_subset (List.nodup_append'.mpr ⟨first.nodup, second.nodup, apart⟩)
    intro card inside
    rcases List.mem_append.mp inside with inside | inside
    · exact first.mem inside
    · exact second.mem inside
  have all := sub.countP_le fun card' => decide (getCardValue card' = getCardValue card)
  rw [List.countP_append] at all
  simp only [same, eq_comm (a := getCardValue card)] at many many'
  omega

end Types

end H5Server.Bbqznn
