import H5Server.Ddz.TableFrame
import Mathlib.Algebra.Order.Group.Multiset
import Mathlib.Tactic.Abel

/-! # A deal hands out the whole deck

Whether or not one player gets good cards, the three hands and the bottom cards are the shuffled deck.
-/

namespace H5Server.Ddz

open Lib

theorem zero_notMem_cardData : 0 ∉ cardData := by decide

theorem goodcardData_subperm : goodcardData.Subperm cardData :=
  List.subperm_of_subset (by decide) (by decide)

variable (d : Deal)

namespace Deal

theorem randCard_length : d.randCard.length = 54 := d.shuffled.length_eq

theorem zero_notMem_randCard : 0 ∉ d.randCard := fun present => zero_notMem_cardData (d.shuffled.mem_iff.mp present)

/-- `GetGoodCardData` -/
def goodCard : List ℕ := (drawAll d.positions goodcardData).take 17

/-- The deck after `RemoveGoodCardData`. -/
def leftCard : List ℕ := (removeCardList d.goodCard d.randCard).getD d.randCard

theorem goodCard_length : d.goodCard.length = 17 := by
  rw [goodCard, List.length_take, length_drawAll, d.drawn.1]
  decide

theorem goodCard_subperm : d.goodCard.Subperm d.randCard := by
  have drawn : (drawAll d.positions goodcardData).Subperm goodcardData := drawAll_subperm d.drawn.2
  have some_ : d.goodCard.Subperm cardData :=
    (List.take_sublist 17 _).subperm.trans (drawn.trans goodcardData_subperm)
  exact d.shuffled.subperm_left.mpr some_

theorem zero_notMem_goodCard : 0 ∉ d.goodCard := fun present =>
  d.zero_notMem_randCard (d.goodCard_subperm.subset present)

theorem perm_goodCard_append : (d.goodCard ++ d.leftCard).Perm d.randCard := by
  have whole : unmarked 0 d.randCard = d.randCard := unmarked_eq_self d.zero_notMem_randCard
  have found : (strikeAll 0 d.randCard d.goodCard).isSome :=
    (strikeAll_isSome_iff d.zero_notMem_goodCard d.zero_notMem_randCard).mpr d.goodCard_subperm
  obtain ⟨rest, struck⟩ := Option.isSome_iff_exists.mp found
  have perm := strikeAll_perm d.zero_notMem_goodCard struck
  rw [whole] at perm
  rw [leftCard, removeCardList, struck]
  exact perm.symm

theorem leftCard_length : d.leftCard.length = 37 := by
  have total := d.perm_goodCard_append.length_eq
  rw [List.length_append, d.goodCard_length, d.randCard_length] at total
  omega

end Deal

namespace Table

/-- Consecutive parts of a list are the list. -/
theorem append_slices {l : List ℕ} {first second third : ℕ} (length : l.length = first + second + third) :
    l.take first ++ ((l.drop first).take second ++ (l.drop (first + second)).take third) = l := by
  have last : (l.drop (first + second)).take third = l.drop (first + second) :=
    List.take_of_length_le (by rw [List.length_drop]; omega)
  rw [last, ← List.drop_drop, List.take_append_drop, List.take_append_drop]

/-- The cards dealt. -/
def dealt : List ℕ := dealtCards d 0 ++ dealtCards d 1 ++ dealtCards d 2 ++ dealtBankerCards d

/-- How many other players are dealt to before a player. -/
def othersBefore (good i : Chair) : ℕ := ((List.finRange 3).filter fun j => j ≠ good ∧ j < i).length

theorem othersBefore_le_one : ∀ {good i : Chair}, i ≠ good → othersBefore good i ≤ 1 := by decide

variable {d}

theorem dealtCards_good {good : Chair} (controlled : d.haveGoodCard = some good) : dealtCards d good = d.goodCard := by
  rw [dealtCards, controlled]
  exact if_pos rfl

theorem dealtCards_other {good i : Chair} (controlled : d.haveGoodCard = some good) (other : i ≠ good) :
    dealtCards d i = (d.leftCard.drop (othersBefore good i * 17)).take 17 := by
  rw [dealtCards, controlled]
  exact if_neg other

theorem dealt_of_good {good : Chair} (controlled : d.haveGoodCard = some good) :
    (dealt d).Perm (d.goodCard ++ (d.leftCard.take 17 ++ ((d.leftCard.drop 17).take 17 ++ (d.leftCard.drop 34).take 3))) := by
  have mine := dealtCards_good controlled
  have others := fun i => @dealtCards_other d good i controlled
  have bottom : dealtBankerCards d = (d.leftCard.drop 34).take 3 := by
    rw [dealtBankerCards, controlled]
    rfl
  -- The others come one after the other, whoever has the good cards.
  have order : dealtCards d 0 ++ dealtCards d 1 ++ dealtCards d 2 = d.goodCard ++ d.leftCard.take 17 ++ (d.leftCard.drop 17).take 17
      ∨ dealtCards d 0 ++ dealtCards d 1 ++ dealtCards d 2 = d.leftCard.take 17 ++ d.goodCard ++ (d.leftCard.drop 17).take 17
      ∨ dealtCards d 0 ++ dealtCards d 1 ++ dealtCards d 2 = d.leftCard.take 17 ++ (d.leftCard.drop 17).take 17 ++ d.goodCard := by
    match good with
    | 0 =>
      left
      rw [mine, others 1 (by decide), others 2 (by decide)]
      rfl
    | 1 =>
      right; left
      rw [mine, others 0 (by decide), others 2 (by decide)]
      rfl
    | 2 =>
      right; right
      rw [mine, others 0 (by decide), others 1 (by decide)]
      rfl
  rw [dealt, bottom, ← Multiset.coe_eq_coe]
  rcases order with order | order | order <;>
  · rw [order]
    simp only [← Multiset.coe_add]
    abel

theorem dealt_perm (d : Deal) : (dealt d).Perm cardData := by
  refine List.Perm.trans ?_ d.shuffled
  cases controlled : d.haveGoodCard with
  | none =>
    have slices : dealt d = d.randCard.take 17 ++ (d.randCard.drop 17).take 17 ++ (d.randCard.drop 34).take 17
        ++ (d.randCard.drop 51).take 3 := by
      rw [dealt, dealtBankerCards, dealtCards, dealtCards, dealtCards, controlled]
      rfl
    have length : d.randCard.length = 17 + 17 + 20 := d.randCard_length
    have last : (d.randCard.drop 34).take 17 ++ (d.randCard.drop 51).take 3 = (d.randCard.drop 34).take 20 := by
      have rest := List.take_append_drop 17 ((d.randCard.drop 34).take 20)
      rwa [List.take_take, List.drop_take, List.drop_drop] at rest
    rw [slices, List.append_assoc, last, List.append_assoc, append_slices length]
  | some good =>
    refine (dealt_of_good controlled).trans ?_
    have slices := @append_slices d.leftCard 17 17 3 d.leftCard_length
    rw [slices]
    exact d.perm_goodCard_append

end Table

end H5Server.Ddz
