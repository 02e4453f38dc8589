import H5Server.Brnn.Strength
import Mathlib.Algebra.Order.Group.Unbundled.Int
import Mathlib.Data.List.Nodup

/-! # Multiples between hands that share no card

Both ladders pay the multiple of the stronger hand's type to that hand. The two of the game with three times agree on
what a type pays, and no two hands without a common card are equally strong.
-/

namespace H5Server.Brnn

variable {a b c : List ℕ}

/-- The value of the four, or the highest card. -/
def decidingCard (type : CardCoin) (sortedCards : List ℕ) : ℕ ×ₗ ℕ :=
  if type = .bomb then toLex (getCardValue (sortedCards.getD 2 0), 0)
  else toLex (getCardValue (sortedCards.getD 0 0), getCardColor (sortedCards.getD 0 0))

def strength (cards : List ℕ) : ℤ ×ₗ ℕ ×ₗ ℕ :=
  toLex ((handType cards).value, decidingCard (handType cards) (sortCardList cards))

/-- What a type pays in the mode of the table. -/
def multiple (isOpenTenMu : Bool) (type : CardCoin) : ℤ := if isOpenTenMu then multiple10 type else multiple3 type

theorem multiple_pos (isOpenTenMu : Bool) (type : CardCoin) : 0 < multiple isOpenTenMu type := by
  revert isOpenTenMu type
  rintro (_ | _) (_ | _) <;> decide

theorem multiple3Same_eq (type : CardCoin) : multiple3Same type = multiple3 type := by
  cases type <;> decide

theorem CardCoin.value_injective {type type' : CardCoin} (same : type.value = type'.value) : type = type' := by
  cases type <;> cases type' <;> first | rfl | exact absurd same (by decide)

/-! ## Two hands -/

theorem color_ne_of_value : ∀ card ∈ cardListData, ∀ card' ∈ cardListData,
    getCardValue card = getCardValue card' → getCardColor card = getCardColor card' → card = card' := by decide

theorem countP_deck : ∀ card ∈ cardListData,
    (cardListData.countP fun card' => getCardValue card' = getCardValue card) = 4 := by decide

theorem Hand.highest_ne (first : Hand a) (second : Hand b) (apart : a.Disjoint b) :
    (sortCardList a).getD 0 0 ≠ (sortCardList b).getD 0 0 := by
  intro same
  have inside := (sortCardList_perm a).subset (first.sorted.getD_mem (by decide : 0 < 5))
  have inside' := (sortCardList_perm b).subset (second.sorted.getD_mem (by decide : 0 < 5))
  exact apart inside (same ▸ inside')

/-- The deck has no four other cards of the value of a bomb. -/
theorem Hand.bomb_ne (first : Hand a) (second : Hand b) (apart : a.Disjoint b) (bomb : judgeBomb a = true)
    (bomb' : judgeBomb b = true) :
    getCardValue ((sortCardList a).getD 2 0) ≠ getCardValue ((sortCardList b).getD 2 0) := by
  intro same
  have four := of_decide_eq_true bomb
  have four' := of_decide_eq_true bomb'
  rw [← same] at four'
  have middle := first.deck _ ((sortCardList_perm a).subset (first.sorted.getD_mem (by decide : 2 < 5)))
  have all := countP_deck _ middle
  have nodup : (a ++ b).Nodup := List.nodup_append'.mpr ⟨first.nodup, second.nodup, apart⟩
  have sub : (a ++ b).Subperm cardListData := by
    apply List.subperm_of_subset nodup
    intro card inside
    rcases List.mem_append.mp inside with inside | inside
    · exact first.deck card inside
    · exact second.deck card inside
  have few := sub.countP_le fun card => decide (getCardValue card = getCardValue ((sortCardList a).getD 2 0))
  rw [List.countP_append, all] at few
  simp only [eq_comm (a := getCardValue ((sortCardList a).getD 2 0))] at four four'
  omega

theorem strength_ne (first : Hand a) (second : Hand b) (apart : a.Disjoint b) : strength a ≠ strength b := by
  intro same
  rw [strength, strength] at same
  obtain ⟨types, deciding⟩ := Prod.mk.inj same
  have types := CardCoin.value_injective types
  rw [decidingCard, decidingCard, ← types] at deciding
  split_ifs at deciding with bomb
  · exact first.bomb_ne second apart (judgeBomb_of_handType first bomb) (judgeBomb_of_handType second (types ▸ bomb))
      (Prod.mk.inj deciding).1
  · obtain ⟨values, colors⟩ := Prod.mk.inj deciding
    exact first.highest_ne second apart (color_ne_of_value _
      (first.sorted.deck _ (first.sorted.getD_mem (by decide : 0 < 5))) _
      (second.sorted.deck _ (second.sorted.getD_mem (by decide : 0 < 5))) values colors)

theorem strength_of_perm {cards cards' : List ℕ} (hand : Hand cards) (perm : cards'.Perm cards) :
    strength cards' = strength cards := by
  rw [strength, strength, handType_of_perm hand perm, sortCardList_eq_of_perm perm]

theorem lt_iff_of_type_ne (types : handType a ≠ handType b) :
    strength b < strength a ↔ (handType b).value < (handType a).value := by
  rw [strength, strength, Prod.Lex.toLex_lt_toLex]
  exact or_iff_left fun both => types (CardCoin.value_injective both.1.symm)

theorem lt_iff_of_bomb (types : handType a = handType b) (bomb : handType a = .bomb) :
    strength b < strength a ↔
      getCardValue ((sortCardList b).getD 2 0) < getCardValue ((sortCardList a).getD 2 0) := by
  rw [strength, strength, decidingCard, decidingCard, ← types, if_pos bomb, if_pos bomb, Prod.Lex.toLex_lt_toLex,
    Prod.Lex.toLex_lt_toLex]
  simp

/-- Equal values leave the colours, which differ. -/
theorem Hand.lt_iff_of_highest (first : Hand a) (second : Hand b) (apart : a.Disjoint b)
    (types : handType a = handType b) (bomb : handType a ≠ .bomb) :
    strength b < strength a ↔
      getCardValue ((sortCardList b).getD 0 0) < getCardValue ((sortCardList a).getD 0 0) ∨
        getCardValue ((sortCardList a).getD 0 0) = getCardValue ((sortCardList b).getD 0 0) ∧
          ¬getCardColor ((sortCardList a).getD 0 0) < getCardColor ((sortCardList b).getD 0 0) := by
  have inside := first.sorted.deck _ (first.sorted.getD_mem (by decide : 0 < 5))
  have inside' := second.sorted.deck _ (second.sorted.getD_mem (by decide : 0 < 5))
  have colors : getCardValue ((sortCardList a).getD 0 0) = getCardValue ((sortCardList b).getD 0 0) →
      getCardColor ((sortCardList a).getD 0 0) ≠ getCardColor ((sortCardList b).getD 0 0) := fun values same =>
    first.highest_ne second apart (color_ne_of_value _ inside _ inside' values same)
  rw [strength, strength, decidingCard, decidingCard, ← types, if_neg bomb, if_neg bomb, Prod.Lex.toLex_lt_toLex,
    Prod.Lex.toLex_lt_toLex]
  simp only [lt_irrefl, false_or, true_and]
  omega

/-! ## The ladders -/

/-- The comparisons that both ladders make find the stronger hand. -/
theorem ladder_eq (first : Hand a) (second : Hand b) (apart : a.Disjoint b) (win lose : ℤ) :
    (if handType a = handType b then
      if handType a = .bomb then
        if getCardValue ((sortCardList a).getD 2 0) > getCardValue ((sortCardList b).getD 2 0) then win else lose
      else if getCardValue ((sortCardList a).getD 0 0) > getCardValue ((sortCardList b).getD 0 0) then win
      else if getCardValue ((sortCardList a).getD 0 0) = getCardValue ((sortCardList b).getD 0 0) then
        if getCardColor ((sortCardList a).getD 0 0) < getCardColor ((sortCardList b).getD 0 0) then lose else win
      else lose
    else if (handType a).value > (handType b).value then win
    else lose) = if strength b < strength a then win else lose := by
  split_ifs with types bomb four stronger stronger high stronger same color stronger stronger stronger more stronger
    stronger
  all_goals first
    | rfl
    | exfalso
  · exact stronger ((lt_iff_of_bomb types bomb).mpr four)
  · exact four ((lt_iff_of_bomb types bomb).mp stronger)
  all_goals first
    | (rw [first.lt_iff_of_highest second apart types bomb] at stronger; omega)
    | (rw [lt_iff_of_type_ne types] at stronger; omega)

theorem calculateMultiples10_eq (first : Hand a) (second : Hand b) (apart : a.Disjoint b) :
    calculateMultiples10 a b =
      if strength b < strength a then multiple10 (handType a) else -multiple10 (handType b) := by
  rw [← ladder_eq first second apart, calculateMultiples10]
  dsimp only
  rw [sortCardList_sortNiuNiuCard first, sortCardList_sortNiuNiuCard second,
    show (sortNiuNiuCard a).1 = handType a from rfl, show (sortNiuNiuCard b).1 = handType b from rfl]
  split_ifs with types bomb
  · rw [bomb]
    rfl
  · rw [← types, bomb]
    rfl
  all_goals rfl

theorem calculateMultiples3_eq (first : Hand a) (second : Hand b) (apart : a.Disjoint b) :
    calculateMultiples3 a b = if strength b < strength a then multiple3 (handType a) else -multiple3 (handType b) := by
  rw [← ladder_eq first second apart, calculateMultiples3]
  dsimp only
  rw [sortCardList_sortNiuNiuCard first, sortCardList_sortNiuNiuCard second,
    show (sortNiuNiuCard a).1 = handType a from rfl, show (sortNiuNiuCard b).1 = handType b from rfl,
    multiple3Same_eq]
  split_ifs with types bomb
  · rw [bomb]
    rfl
  · rw [← types, bomb]
    rfl
  all_goals first
    | rfl
    | rw [types]

/-- In either mode the stronger hand wins what its type pays. -/
theorem calculateMultiples_eq (first : Hand a) (second : Hand b) (apart : a.Disjoint b) (isOpenTenMu : Bool) :
    calculateMultiples isOpenTenMu a b =
      if strength b < strength a then multiple isOpenTenMu (handType a) else -multiple isOpenTenMu (handType b) := by
  cases isOpenTenMu with
  | false => exact calculateMultiples3_eq first second apart
  | true => exact calculateMultiples10_eq first second apart

theorem calculateMultiples_pos_iff (first : Hand a) (second : Hand b) (apart : a.Disjoint b) (isOpenTenMu : Bool) :
    0 < calculateMultiples isOpenTenMu a b ↔ strength b < strength a := by
  rw [calculateMultiples_eq first second apart]
  have pays := multiple_pos isOpenTenMu
  split_ifs with stronger
  · exact iff_of_true (pays _) stronger
  · exact iff_of_false (by have := pays (handType b); omega) stronger

theorem calculateMultiples_swap (first : Hand a) (second : Hand b) (apart : a.Disjoint b) (isOpenTenMu : Bool) :
    calculateMultiples isOpenTenMu a b = -calculateMultiples isOpenTenMu b a := by
  rw [calculateMultiples_eq first second apart, calculateMultiples_eq second first (List.disjoint_symm apart)]
  rcases lt_or_gt_of_ne (strength_ne first second apart) with weaker | stronger
  · rw [if_neg weaker.not_gt, if_pos weaker]
  · rw [if_pos stronger, if_neg stronger.not_gt, neg_neg]

theorem calculateMultiples_ne_zero (first : Hand a) (second : Hand b) (apart : a.Disjoint b) (isOpenTenMu : Bool) :
    calculateMultiples isOpenTenMu a b ≠ 0 := by
  rw [calculateMultiples_eq first second apart]
  have pays := multiple_pos isOpenTenMu
  split_ifs
  · exact (pays _).ne'
  · exact neg_ne_zero.mpr (pays _).ne'

theorem sign_calculateMultiples (first : Hand a) (second : Hand b) (apart : a.Disjoint b) (isOpenTenMu : Bool) :
    (calculateMultiples isOpenTenMu a b).sign = if strength b < strength a then 1 else -1 := by
  rw [calculateMultiples_eq first second apart]
  have pays := multiple_pos isOpenTenMu
  split_ifs
  · exact Int.sign_eq_one_of_pos (pays _)
  · rw [Int.sign_neg, Int.sign_eq_one_of_pos (pays _)]

theorem abs_calculateMultiples (first : Hand a) (second : Hand b) (apart : a.Disjoint b) (isOpenTenMu : Bool) :
    |calculateMultiples isOpenTenMu a b| =
      multiple isOpenTenMu (handType (if 0 < calculateMultiples isOpenTenMu a b then a else b)) := by
  have pays := multiple_pos isOpenTenMu
  simp only [calculateMultiples_pos_iff first second apart]
  rw [calculateMultiples_eq first second apart]
  split_ifs
  · exact abs_of_pos (pays _)
  · rw [abs_neg, abs_of_pos (pays _)]

/-- For hands without a common card the multiples are antisymmetric and never zero, who wins is the same in both modes,
for every order of the cards and transitively, and how much is a matter of the winner's type. -/
theorem calculateMultiples_consistent {a b c : List ℕ} (first : Hand a) (second : Hand b) (third : Hand c)
    (ab : a.Disjoint b) (bc : b.Disjoint c) (ac : a.Disjoint c) :
    (∀ isOpenTenMu, calculateMultiples isOpenTenMu a b = -calculateMultiples isOpenTenMu b a ∧
      calculateMultiples isOpenTenMu a b ≠ 0) ∧
    (calculateMultiples true a b).sign = (calculateMultiples false a b).sign ∧
    (∀ isOpenTenMu a' b', a'.Perm a → b'.Perm b →
      (calculateMultiples isOpenTenMu a' b').sign = (calculateMultiples isOpenTenMu a b).sign) ∧
    (∀ isOpenTenMu, 0 < calculateMultiples isOpenTenMu a b → 0 < calculateMultiples isOpenTenMu b c →
      0 < calculateMultiples isOpenTenMu a c) ∧
    ∀ isOpenTenMu, |calculateMultiples isOpenTenMu a b| =
      multiple isOpenTenMu (sortNiuNiuCard (if 0 < calculateMultiples isOpenTenMu a b then a else b)).1 := by
  refine ⟨fun mode => ⟨?_, ?_⟩, ?_, fun mode a' b' perm perm' => ?_, fun mode => ?_, fun mode => ?_⟩
  · exact calculateMultiples_swap first second ab mode
  · exact calculateMultiples_ne_zero first second ab mode
  · rw [sign_calculateMultiples first second ab, sign_calculateMultiples first second ab]
  · have apart : a'.Disjoint b' := fun card inside inside' => ab (perm.subset inside) (perm'.subset inside')
    rw [sign_calculateMultiples (first.of_perm perm) (second.of_perm perm') apart,
      sign_calculateMultiples first second ab, strength_of_perm first perm, strength_of_perm second perm']
  · rw [calculateMultiples_pos_iff first second ab, calculateMultiples_pos_iff second third bc,
      calculateMultiples_pos_iff first third ac]
    exact fun stronger stronger' => stronger'.trans stronger
  · exact abs_calculateMultiples first second ab mode

/-- Niuniu, the four fives, and a hand without tens. -/
theorem calculateMultiples_consistent_example :
    let a := [0x01, 0x11, 0x0D, 0x1D, 0x08]
    let b := [0x05, 0x15, 0x25, 0x35, 0x09]
    let c := [0x02, 0x13, 0x24, 0x36, 0x17]
    (∀ isOpenTenMu, calculateMultiples isOpenTenMu a b = -calculateMultiples isOpenTenMu b a ∧
      calculateMultiples isOpenTenMu a b ≠ 0) ∧
    (calculateMultiples true a b).sign = (calculateMultiples false a b).sign ∧
    (∀ isOpenTenMu a' b', a'.Perm a → b'.Perm b →
      (calculateMultiples isOpenTenMu a' b').sign = (calculateMultiples isOpenTenMu a b).sign) ∧
    (∀ isOpenTenMu, 0 < calculateMultiples isOpenTenMu a b → 0 < calculateMultiples isOpenTenMu b c →
      0 < calculateMultiples isOpenTenMu a c) ∧
    ∀ isOpenTenMu, |calculateMultiples isOpenTenMu a b| =
      multiple isOpenTenMu (sortNiuNiuCard (if 0 < calculateMultiples isOpenTenMu a b then a else b)).1 :=
  calculateMultiples_consistent ⟨rfl, by decide, by decide⟩ ⟨rfl, by decide, by decide⟩ ⟨rfl, by decide, by decide⟩
    (List.disjoint_left.mpr (by decide)) (List.disjoint_left.mpr (by decide)) (List.disjoint_left.mpr (by decide))

end H5Server.Brnn
