import H5Server.Brnn.GameLogic
import Mathlib.Algebra.GroupWithZero.Nat
import Mathlib.Data.List.GetD
import Mathlib.Data.Prod.Lex

/-! # The strength of five cards

Hands are ordered by their type, bombs by the value of their four cards, and others by their highest card. Neither the
type nor the strength depends on the order of the cards.
-/

namespace H5Server.Brnn

variable {cards cards' arr brr : List ℕ}

/-! ## Sorting -/

abbrev sortKey (card : ℕ) : ℕ ×ₗ ℕ := toLex (getCardValue card, card)

theorem swaps_eq (card card' : ℕ) : swaps card card' = decide (sortKey card < sortKey card') := by
  simp only [swaps, sortKey, Prod.Lex.toLex_lt_toLex]

theorem sortCardList_perm (cards : List ℕ) : (sortCardList cards).Perm cards := Lib.bubbleSort_perm _ _ _

theorem sortCardList_eq_of_perm (perm : cards.Perm cards') : sortCardList cards = sortCardList cards' := by
  rcases eq_or_ne cards [] with rfl | some_
  · rw [perm.symm.eq_nil]
  · have long := List.length_pos_of_ne_nil some_
    rw [sortCardList, sortCardList, ← perm.length_eq]
    apply Lib.bubbleSort_eq_of_perm swaps_eq (by omega) perm
    intro a _ b _ same
    exact (Prod.mk.inj same).2

/-- Five distinct cards of the deck. -/
structure Hand (cards : List ℕ) : Prop where
  length : cards.length = 5
  nodup : cards.Nodup
  deck : ∀ card ∈ cards, card ∈ cardListData

theorem Hand.of_perm (hand : Hand cards) (perm : cards'.Perm cards) : Hand cards' where
  length := perm.length_eq.trans hand.length
  nodup := perm.nodup_iff.mpr hand.nodup
  deck card inside := hand.deck card (perm.subset inside)

theorem Hand.sorted (hand : Hand cards) : Hand (sortCardList cards) := hand.of_perm (sortCardList_perm cards)

theorem Hand.getD_mem (hand : Hand cards) {i : ℕ} (inside : i < 5) : cards.getD i 0 ∈ cards := by
  rw [← hand.length] at inside
  rw [List.getD_eq_getElem _ _ inside]
  exact List.getElem_mem inside

/-! ## The cards that `SortNiuNiuCard` leaves -/

theorem sortNiuNiuCard_perm (hand : Hand cards) : (sortNiuNiuCard cards).2.Perm cards := by
  rw [sortNiuNiuCard]
  split_ifs with small bomb golden silvery
  · exact .refl _
  · have parted := List.filter_append_perm
      (fun card => decide (getCardValue card = getCardValue ((sortCardList cards).getD 2 0))) (sortCardList cards)
    simp only [← decide_not] at parted
    exact parted.trans (sortCardList_perm cards)
  · exact .refl _
  · have parted := List.filter_append_perm (fun card => decide (getCardValue card ≠ 10)) cards
    simpa only [← decide_not] using parted
  · cases found : niuCard cards with
    | none => exact .refl _
    | some niuCard => exact Lib.choice_append_perm hand.nodup (List.mem_of_find?_eq_some found)

theorem sortCardList_sortNiuNiuCard (hand : Hand cards) :
    sortCardList (sortNiuNiuCard cards).2 = sortCardList cards := sortCardList_eq_of_perm (sortNiuNiuCard_perm hand)

/-! ## The type -/

def handType (cards : List ℕ) : CardCoin := (sortNiuNiuCard cards).1

/-- Three of the cards make tens. -/
def HasNiu (cards : List ℕ) : Prop := ∃ niuCard ∈ Lib.choices 3 cards, (niuCard.map getLogicValue).sum % 10 = 0

instance : Decidable (HasNiu cards) := inferInstanceAs (Decidable (∃ niuCard ∈ _, _))

theorem hasNiu_iff_of_perm (perm : cards.Perm cards') : HasNiu cards ↔ HasNiu cards' := by
  apply Lib.exists_choices_iff perm
  intro chosen chosen' same tens
  rwa [← (same.map getLogicValue).sum_eq]

theorem niuCard_some {niuCards : List ℕ} (found : niuCard cards = some niuCards) :
    niuCards ∈ Lib.choices 3 cards ∧ (niuCards.map getLogicValue).sum % 10 = 0 := by
  rw [niuCard] at found
  have tens := List.find?_some found
  exact ⟨List.mem_of_find?_eq_some found, of_decide_eq_true tens⟩

theorem niuType_congr {points points' : ℕ} (same : points % 10 = points' % 10) : niuType points = niuType points' := by
  rw [niuType, niuType, same]

/-- The points of the two cards left are those of the hand. -/
theorem niuType_eq (hand : Hand cards) {niuCards : List ℕ} (found : niuCard cards = some niuCards) :
    niuType (getLogicValue ((niuCards ++ cards.filter (· ∉ niuCards)).getD 3 0)
      + getLogicValue ((niuCards ++ cards.filter (· ∉ niuCards)).getD 4 0)) = niuType (cards.map getLogicValue).sum := by
  obtain ⟨inside, tens⟩ := niuCard_some found
  have perm := Lib.choice_append_perm hand.nodup inside
  have three := (Lib.mem_choices.mp inside).2
  have length := perm.length_eq
  rw [List.length_append, three, hand.length] at length
  obtain ⟨x, y, rest⟩ := List.length_eq_two.mp (by omega : (cards.filter (· ∉ niuCards)).length = 2)
  apply niuType_congr
  rw [← (perm.map getLogicValue).sum_eq, List.map_append, List.sum_append, rest,
    List.getD_append_right _ _ _ _ three.le, List.getD_append_right _ _ _ _ (by omega), three]
  simp only [Nat.sub_self, List.getD_cons_zero, Nat.reduceSub, List.getD_cons_succ, List.map_cons, List.map_nil,
    List.sum_cons, List.sum_nil]
  omega

theorem handType_eq (hand : Hand cards) :
    handType cards =
      if judgeFiveSmallNiu cards then .fiveSmall
      else if judgeBomb cards then .bomb
      else if judgeGoldenBull cards then .goldenBull
      else if judgeSilveryBull cards then .silveryNiu
      else if HasNiu cards then niuType (cards.map getLogicValue).sum
      else .coin0 := by
  rw [handType, sortNiuNiuCard]
  split_ifs with small bomb golden silvery niu
  · rfl
  · rfl
  · rfl
  · rfl
  · cases found : niuCard cards with
    | none =>
      obtain ⟨chosen, inside, tens⟩ := niu
      exact absurd (decide_eq_true tens) (List.find?_eq_none.mp found chosen inside)
    | some niuCards => exact niuType_eq hand found
  · cases found : niuCard cards with
    | none => rfl
    | some niuCards =>
      exact absurd ⟨niuCards, niuCard_some found⟩ niu

theorem handType_of_perm (hand : Hand cards) (perm : cards'.Perm cards) : handType cards' = handType cards := by
  have small : judgeFiveSmallNiu cards' = judgeFiveSmallNiu cards := by
    rw [judgeFiveSmallNiu, judgeFiveSmallNiu, perm.all_eq, (perm.map getCardValue).sum_eq]
  have bomb : judgeBomb cards' = judgeBomb cards := by
    rw [judgeBomb, judgeBomb, sortCardList_eq_of_perm perm, perm.countP_eq]
  have golden : judgeGoldenBull cards' = judgeGoldenBull cards := by
    rw [judgeGoldenBull, judgeGoldenBull, perm.all_eq, perm.length_eq]
  have silvery : judgeSilveryBull cards' = judgeSilveryBull cards := by
    rw [judgeSilveryBull, judgeSilveryBull, sortCardList_eq_of_perm perm]
  rw [handType_eq hand, handType_eq (hand.of_perm perm), small, bomb, golden, silvery,
    (perm.map getLogicValue).sum_eq]
  simp only [hasNiu_iff_of_perm perm]

theorem niuType_ne_bomb (points : ℕ) : niuType points ≠ .bomb := by
  rw [niuType]
  split <;> exact nofun

theorem judgeBomb_of_handType (hand : Hand cards) (type : handType cards = .bomb) : judgeBomb cards = true := by
  rw [handType_eq hand] at type
  split_ifs at type with small bomb golden silvery niu
  · exact bomb
  · exact absurd type (niuType_ne_bomb _)

end H5Server.Brnn
