import H5Server.Bbqznn.Jokers
import Mathlib.Data.List.Lex

/-! # The order of the hands at the showdown

Hands are ordered by their type, then by their jokers, last by the cards that the type looks at. The jokers of two hands
without a common card can decide for one of them only.
-/

namespace H5Server.Bbqznn

variable {haveKing firstBanker : Bool} {a b c : List ℕ} {king king' : ℕ × ℕ}

/-! ## Comparing lists -/

theorem compareBy_eq {f : ℕ → ℕ} {first next : List ℕ} (length : first.length = next.length) :
    compareBy f first next =
      if first.map f = next.map f then none else some (decide (next.map f < first.map f)) := by
  induction first generalizing next with
  | nil => rw [List.eq_nil_of_length_eq_zero length.symm]; rfl
  | cons card first ih =>
    obtain ⟨card', next, rfl⟩ := List.exists_cons_of_length_eq_add_one length.symm
    rw [compareBy, ih (Nat.succ.inj length)]
    rcases eq_or_ne (f card') (f card) with same | other
    · simp [same]
    · simp [other, other.symm, List.cons_lt_cons_iff]

/-! ## Strength -/

/-- How the jokers of a hand rank it among the hands of its type. -/
def kingRank (type : ℕ) (k : Kings) : ℕ :=
  if type ≤ ctNiuniu then
    if type = ctNiuniu ∧ k.two ∧ k.changCount = 1 then 4
    else (if k.chang then 0 else 2) + if k.big then 1 else 0
  else if type = ctWuhuaNiu then if k.big then 2 else if k.small then 1 else 0
  else 0

/-- What a type looks at in the sorted cards. -/
def cardsKey (type : ℕ) (sortedCards : List ℕ) : List ℕ :=
  let highest := sortedCards.getD 0 0
  if type = ctFivesmallNiu then sortedCards.map getCardValue ++ [getCardColor highest]
  else if type = ctBombNiu ∨ type = ctHuluNiu then [getCardValue (sortedCards.getD 2 0)]
  else [getCardValue highest, getCardColor highest]

def handType (haveKing : Bool) (cards : List ℕ) : ℕ := (getHaveKingBigCardType haveKing cards (0, 0)).maxType

abbrev Strength := ℕ ×ₗ ℕ ×ₗ List ℕ

def strength (haveKing : Bool) (cards : List ℕ) (kingChangCard : ℕ × ℕ) : Strength :=
  let type := handType haveKing cards
  toLex (type, toLex (kingRank type (kings cards kingChangCard), cardsKey type (sortCardList cards)))

/-! ## Jokers of two hands -/

theorem changed_of_not_isKing {card : ℕ} (king : ℕ × ℕ) (plain : isKing card = false) : changed king card = 0 := by
  rw [isKing, decide_eq_false_iff_not, not_or] at plain
  simp [changed, plain.1, plain.2]

theorem kings_of_plain (king : ℕ × ℕ) (plain : ∀ card ∈ a, isKing card = false) :
    kings a king = ⟨false, false, false, 0⟩ := by
  have none_ : a.countP isKing = 0 := List.countP_eq_zero.mpr fun card inside => by rw [plain card inside]; decide
  have big : 0x4F ∉ a := fun inside => absurd (plain _ inside) (by decide)
  have small : 0x4E ∉ a := fun inside => absurd (plain _ inside) (by decide)
  have still : (a.map (changed king)).sum = 0 := by
    rw [List.sum_eq_zero]
    intro count inside
    obtain ⟨card, here, rfl⟩ := List.mem_map.mp inside
    exact changed_of_not_isKing king (plain card here)
  simp [kings, none_, big, small, still]

theorem both_of_two (nodup : a.Nodup) (two : a.countP isKing = 2) : 0x4E ∈ a ∧ 0x4F ∈ a := by
  have perm := both_kings nodup two
  exact ⟨perm.symm.subset (by simp), perm.symm.subset (by simp)⟩

theorem plain_of_disjoint (apart : a.Disjoint b) (small : 0x4E ∈ a) (big : 0x4F ∈ a) :
    ∀ card ∈ b, isKing card = false := by
  intro card inside
  rw [isKing, decide_eq_false_iff_not]
  rintro (rfl | rfl)
  · exact apart small inside
  · exact apart big inside

/-- Both jokers against none. -/
theorem compareKings_of_two {type : ℕ} (low : type ≤ ctNiuniu) (count : ℕ) (small : Bool) :
    compareKings type ⟨true, true, small, count⟩ ⟨false, false, false, 0⟩ =
        some (decide (kingRank type ⟨false, false, false, 0⟩ < kingRank type ⟨true, true, small, count⟩)) ∧
      compareKings type ⟨false, false, false, 0⟩ ⟨true, true, small, count⟩ =
        some (decide (kingRank type ⟨true, true, small, count⟩ < kingRank type ⟨false, false, false, 0⟩)) ∧
      kingRank type ⟨true, true, small, count⟩ ≠ kingRank type ⟨false, false, false, 0⟩ := by
  rcases eq_or_ne type ctNiuniu with rfl | other
  · obtain _ | _ | count := count <;> simp [compareKings, kingRank, Kings.chang]
  · obtain _ | count := count <;> simp [compareKings, kingRank, Kings.chang, other, low]

/-- At most one joker in each hand. -/
theorem compareKings_of_one {type count count' : ℕ} {big big' small small' : Bool} (low : type ≤ ctNiuniu)
    (single : ¬(big = true ∧ big' = true)) :
    compareKings type ⟨false, big, small, count⟩ ⟨false, big', small', count'⟩ =
      if kingRank type ⟨false, big, small, count⟩ = kingRank type ⟨false, big', small', count'⟩ then none
      else some (decide (kingRank type ⟨false, big', small', count'⟩ < kingRank type ⟨false, big, small, count⟩)) := by
  cases big <;> cases big' <;> obtain _ | count := count <;> obtain _ | count' := count' <;>
    simp [compareKings, kingRank, Kings.chang, low] at single ⊢

theorem compareKings_eq (nodup : a.Nodup) (nodup' : b.Nodup) (apart : a.Disjoint b) {type : ℕ} (low : type ≤ ctNiuniu) :
    compareKings type (kings a king) (kings b king') =
      if kingRank type (kings a king) = kingRank type (kings b king') then none
      else some (decide (kingRank type (kings b king') < kingRank type (kings a king))) := by
  rcases eq_or_ne (a.countP isKing) 2 with two | one
  · obtain ⟨small, big⟩ := both_of_two nodup two
    rw [kings_of_plain king' (plain_of_disjoint apart small big)]
    simp only [kings, two, big, decide_true]
    obtain ⟨wins, -, different⟩ := compareKings_of_two low (a.map (changed king)).sum (0x4E ∈ a)
    rw [wins, if_neg different]
  · rcases eq_or_ne (b.countP isKing) 2 with two' | one'
    · obtain ⟨small, big⟩ := both_of_two nodup' two'
      rw [kings_of_plain king (plain_of_disjoint (List.disjoint_symm apart) small big)]
      simp only [kings, two', big, decide_true]
      obtain ⟨-, loses, different⟩ := compareKings_of_two low (b.map (changed king')).sum (0x4E ∈ b)
      rw [loses, if_neg different.symm]
    · simp only [kings, one, one', decide_false]
      apply compareKings_of_one low
      simp only [decide_eq_true_eq]
      exact fun both => apart both.1 both.2

theorem kingRank_flower (k : Kings) : kingRank ctWuhuaNiu k = if k.big then 2 else if k.small then 1 else 0 := by
  rw [kingRank, if_neg (by decide), if_pos rfl]

theorem compareFlowerKings_of {k k' : Kings} (bigs : ¬(k.big = true ∧ k'.big = true))
    (smalls : ¬(k.small = true ∧ k'.small = true)) :
    compareFlowerKings k k' =
      if kingRank ctWuhuaNiu k = kingRank ctWuhuaNiu k' then none
      else some (decide (kingRank ctWuhuaNiu k' < kingRank ctWuhuaNiu k)) := by
  obtain ⟨two, big, small, count⟩ := k
  obtain ⟨two', big', small', count'⟩ := k'
  simp only [compareFlowerKings, kingRank_flower]
  cases big <;> cases big' <;> cases small <;> cases small' <;> simp at bigs smalls ⊢

theorem compareFlowerKings_eq (apart : a.Disjoint b) :
    compareFlowerKings (kings a king) (kings b king') =
      if kingRank ctWuhuaNiu (kings a king) = kingRank ctWuhuaNiu (kings b king') then none
      else some (decide (kingRank ctWuhuaNiu (kings b king') < kingRank ctWuhuaNiu (kings a king))) := by
  apply compareFlowerKings_of
  · simp only [kings, decide_eq_true_eq]
    exact fun both => apart both.1 both.2
  · simp only [kings, decide_eq_true_eq]
    exact fun both => apart both.1 both.2

/-! ## Types -/

theorem handType_cases (hand : Hand haveKing 5 a) :
    handType haveKing a ≤ ctNiuniu ∨ handType haveKing a = ctShunziNiu ∨ handType haveKing a = ctWuhuaNiu ∨
      handType haveKing a = ctTonghuaNiu ∨ handType haveKing a = ctHuluNiu ∧ isCalabash a = true ∨
      handType haveKing a = ctBombNiu ∧ isBomb a = true ∨ handType haveKing a = ctFivesmallNiu ∨
      handType haveKing a = ctTonghuashunNiu := by
  cases haveKing with
  | false => exact getCardType_cases hand.values
  | true =>
    rw [handType, getHaveKingBigCardType, if_pos rfl]
    split
    · exact getCardType_cases hand.values
    · next one =>
      rw [getCardTypeOneKing]
      have values (rank : ℕ) (inside : rank ∈ ranks) : ∀ card ∈ rank :: plain a, 0 < getCardValue card :=
        List.forall_mem_cons.mpr ⟨value_of_rank rank inside, fun card here => hand.values card (mem_plain.mp here).1⟩
      rcases hand.searchMaxTypeOne_cases one with ⟨bomb, result⟩ | ⟨-, -, result⟩ | ⟨-, -, -, -, result⟩
      · rw [result]
        exact .inr (.inr (.inr (.inr (.inr (.inl ⟨rfl, bomb⟩)))))
      · rw [result]
        exact .inr (.inr (.inl rfl))
      · rcases result with result | ⟨rank, inside, result⟩
        · rw [result]
          exact .inl (isOtherNiu_le hand.values)
        · rw [result]
          exact .inl (isOtherNiu_le (values rank inside))
    · next two =>
      rw [getCardTypeTwoKing]
      rcases hand.searchMaxTypeTwo_cases two with
        ⟨-, result⟩ | ⟨-, ⟨-, result⟩ | ⟨_, -, -, result⟩ | ⟨-, -, _, -, _, -, -, result⟩⟩
      · rw [result]
        exact .inr (.inr (.inl rfl))
      all_goals
        rw [result]
        exact .inl le_rfl
    · exact .inl (Nat.zero_le _)

theorem Hand.equal_cards (hand : Hand haveKing 5 a)
    (middle : handType haveKing a = ctBombNiu ∨ handType haveKing a = ctHuluNiu) :
    isBomb a = true ∨ isCalabash a = true := by
  have cases := handType_cases hand
  simp only [ctNiuniu, ctShunziNiu, ctWuhuaNiu, ctTonghuaNiu, ctHuluNiu, ctBombNiu, ctFivesmallNiu,
    ctTonghuashunNiu] at cases middle
  rcases cases with low | straight | flowers | flush | ⟨-, calabash⟩ | ⟨-, bomb⟩ | small | tierce
  case inr.inr.inr.inr.inl => exact .inr calabash
  case inr.inr.inr.inr.inr.inl => exact .inl bomb
  all_goals omega

/-! ## Cards of two hands -/

theorem Hand.highest_ne (first : Hand haveKing 5 a) (second : Hand haveKing 5 b) (apart : a.Disjoint b) :
    (sortCardList a).getD 0 0 ≠ (sortCardList b).getD 0 0 := by
  intro same
  have inside := (sortCardList_perm a).subset (first.sorted.getD_mem (by decide : 0 < 5))
  have inside' := (sortCardList_perm b).subset (second.sorted.getD_mem (by decide : 0 < 5))
  exact apart inside (same ▸ inside')

/-- The highest cards of two hands differ in value or colour. -/
theorem Hand.color_ne (first : Hand haveKing 5 a) (second : Hand haveKing 5 b) (apart : a.Disjoint b)
    (values : getCardValue ((sortCardList a).getD 0 0) = getCardValue ((sortCardList b).getD 0 0)) :
    getCardColor ((sortCardList a).getD 0 0) ≠ getCardColor ((sortCardList b).getD 0 0) := fun colors =>
  first.highest_ne second apart (eq_of_value_of_color _ (first.sorted.mem (first.sorted.getD_mem (by decide : 0 < 5))) _
    (second.sorted.mem (second.sorted.getD_mem (by decide : 0 < 5))) values colors)

theorem Hand.cardsKey_ne (first : Hand haveKing 5 a) (second : Hand haveKing 5 b) (apart : a.Disjoint b)
    (types : handType haveKing a = handType haveKing b) :
    cardsKey (handType haveKing a) (sortCardList a) ≠ cardsKey (handType haveKing b) (sortCardList b) := by
  intro same
  have different := first.color_ne second apart
  rw [← types] at same
  rw [cardsKey, cardsKey] at same
  split_ifs at same with small middle
  · obtain ⟨values, colors⟩ := List.append_inj' same rfl
    obtain ⟨card, rest, sorted⟩ := List.exists_cons_of_length_eq_add_one first.sorted.length
    obtain ⟨card', rest', sorted'⟩ := List.exists_cons_of_length_eq_add_one second.sorted.length
    rw [sorted, sorted'] at values colors different
    exact different (List.cons.inj values).1 (List.cons.inj colors).1
  · have many := middle_count first.length (first.equal_cards middle)
    rw [(List.cons.inj same).1] at many
    exact first.middle_ne second apart many (middle_count second.length (second.equal_cards (types ▸ middle)))
  · obtain ⟨values, colors⟩ := List.cons.inj same
    exact different values (List.cons.inj colors).1

theorem compareHighest_eq {f : ℕ → ℕ} {first next : List ℕ} (some_ : first ≠ []) (some' : next ≠ []) :
    compareHighest f first next =
      if f (first.getD 0 0) = f (next.getD 0 0) then none
      else some (decide (f (next.getD 0 0) < f (first.getD 0 0))) := by
  obtain ⟨card, first, rfl⟩ := List.exists_cons_of_ne_nil some_
  obtain ⟨card', next, rfl⟩ := List.exists_cons_of_ne_nil some'
  rw [compareHighest, List.take_succ_cons, List.take_zero, List.take_succ_cons, List.take_zero,
    compareBy_eq (by rfl)]
  simp [List.cons_lt_cons_iff]

theorem compareBy_head {f : ℕ → ℕ} {first next : List ℕ} (some_ : first ≠ []) (some' : next ≠ [])
    (other : f (first.getD 0 0) ≠ f (next.getD 0 0)) :
    compareBy f first next = some (decide (f (next.getD 0 0) < f (first.getD 0 0))) := by
  obtain ⟨card, first, rfl⟩ := List.exists_cons_of_ne_nil some_
  obtain ⟨card', next, rfl⟩ := List.exists_cons_of_ne_nil some'
  exact if_pos other.symm

theorem pair_lt {v v' w w' : ℕ} : [v', w'] < [v, w] ↔ v' < v ∨ v' = v ∧ w' < w := by
  simp [List.cons_lt_cons_iff]

theorem cardsKey_highest {type : ℕ} (sortedCards : List ℕ) (small : type ≠ ctFivesmallNiu)
    (middle : ¬(type = ctBombNiu ∨ type = ctHuluNiu)) :
    cardsKey type sortedCards = [getCardValue (sortedCards.getD 0 0), getCardColor (sortedCards.getD 0 0)] := by
  rw [cardsKey, if_neg small, if_neg middle]

/-- The highest cards, by value and then by colour. -/
theorem compareHighest_orElse {first next : List ℕ} (some_ : first ≠ []) (some' : next ≠ []) {colors : Option Bool}
    (byColor : getCardValue (first.getD 0 0) = getCardValue (next.getD 0 0) →
      colors = some (decide (getCardColor (next.getD 0 0) < getCardColor (first.getD 0 0)))) :
    (compareHighest getCardValue first next <|> colors).getD false =
      decide ([getCardValue (next.getD 0 0), getCardColor (next.getD 0 0)] <
        [getCardValue (first.getD 0 0), getCardColor (first.getD 0 0)]) := by
  rw [compareHighest_eq some_ some']
  generalize getCardValue (first.getD 0 0) = v at byColor ⊢
  generalize getCardValue (next.getD 0 0) = v' at byColor ⊢
  simp only [pair_lt]
  split_ifs with values
  · rw [byColor values]
    simp [values]
  · simp [Ne.symm values]

/-- Lists of one length that differ are ordered as they are, whatever follows. -/
theorem append_lt_iff {first next rest rest' : List ℕ} (length : first.length = next.length) (other : first ≠ next) :
    next ++ rest' < first ++ rest ↔ next < first := by
  induction first generalizing next with
  | nil => exact absurd (List.eq_nil_of_length_eq_zero length.symm).symm other
  | cons v first ih =>
    obtain ⟨v', next, rfl⟩ := List.exists_cons_of_length_eq_add_one length.symm
    rw [List.cons_append, List.cons_append, List.cons_lt_cons_iff, List.cons_lt_cons_iff]
    rcases eq_or_ne v' v with rfl | less
    · rw [ih (Nat.succ.inj length) fun same => other (by rw [same])]
    · simp [less]

theorem append_lt_append_iff {front : List ℕ} {v v' : ℕ} : front ++ [v'] < front ++ [v] ↔ v' < v := by
  induction front with
  | nil => simp [List.cons_lt_cons_iff]
  | cons w front ih => simp [ih]

/-- Between hands of one type the cards decide as their keys do. -/
theorem Hand.compareCards_eq (first : Hand haveKing 5 a) (second : Hand haveKing 5 b) (apart : a.Disjoint b)
    (types : handType haveKing a = handType haveKing b)
    (banker : firstBanker = false ∨ handType haveKing a ≠ ctFivesmallNiu) :
    (compareCards (handType haveKing a) (sortCardList a) (sortCardList b) false firstBanker).getD false =
      decide (cardsKey (handType haveKing a) (sortCardList b) < cardsKey (handType haveKing a) (sortCardList a)) := by
  have different := first.color_ne second apart
  have keys := first.cardsKey_ne second apart types
  have cases := handType_cases first
  have length := first.sorted.length.trans second.sorted.length.symm
  have some_ : sortCardList a ≠ [] := List.ne_nil_of_length_eq_add_one first.sorted.length
  have some' : sortCardList b ≠ [] := List.ne_nil_of_length_eq_add_one second.sorted.length
  rw [← types] at keys
  generalize handType haveKing a = type at *
  generalize sortCardList a = first at *
  generalize sortCardList b = next at *
  rw [compareCards]
  simp only [Bool.false_eq_true, if_false]
  split_ifs with low flush small banks middle equal
  · have small : type ≠ ctFivesmallNiu := by
      rintro rfl
      exact absurd low (by decide)
    have middle : ¬(type = ctBombNiu ∨ type = ctHuluNiu) := by
      rintro (rfl | rfl) <;> exact absurd low (by decide)
    rw [cardsKey_highest first small middle, cardsKey_highest next small middle]
    exact compareHighest_orElse some_ some' fun _ => rfl
  · have small : type ≠ ctFivesmallNiu := by
      rintro rfl
      exact absurd flush (by decide)
    have middle : ¬(type = ctBombNiu ∨ type = ctHuluNiu) := by
      rintro (rfl | rfl) <;> exact absurd flush (by decide)
    rw [cardsKey_highest first small middle, cardsKey_highest next small middle]
    exact compareHighest_orElse some_ some' fun values => compareBy_head some_ some' (different values)
  · exact absurd small (banker.resolve_left (by rw [banks]; decide))
  · rw [cardsKey, cardsKey, if_pos small, if_pos small, compareBy_eq length]
    split_ifs with values
    · have heads : getCardValue (first.getD 0 0) = getCardValue (next.getD 0 0) := by
        obtain ⟨card, first, rfl⟩ := List.exists_cons_of_ne_nil some_
        obtain ⟨card', next, rfl⟩ := List.exists_cons_of_ne_nil some'
        exact (List.cons.inj values).1
      simp only [compareBy_head some_ some' (different heads), values, append_lt_append_iff]
      rfl
    · have longer : (first.map getCardValue).length = (next.map getCardValue).length := by
        rw [List.length_map, List.length_map, length]
      simp only [append_lt_iff longer values]
      rfl
  · rw [cardsKey, cardsKey, if_neg small, if_neg small, if_pos middle, if_pos middle, equal] at keys
    exact absurd rfl keys
  · rw [cardsKey, cardsKey, if_neg small, if_neg small, if_pos middle, if_pos middle]
    simp [List.cons_lt_cons_iff]
  · simp only [ctNiuniu, ctShunziNiu, ctWuhuaNiu, ctTonghuaNiu, ctHuluNiu, ctBombNiu, ctFivesmallNiu,
      ctTonghuashunNiu] at cases low flush small middle
    omega

/-! ## The showdown -/

/-- The jokers decide between two hands of one type when they rank them differently. -/
theorem Hand.byKings_eq (first : Hand haveKing 5 a) (second : Hand haveKing 5 b) (apart : a.Disjoint b) (type : ℕ) :
    (if ¬haveKing = true then none
      else if type ≤ ctNiuniu then compareKings type (kings a king) (kings b king')
      else if type = ctWuhuaNiu then compareFlowerKings (kings a king) (kings b king')
      else none) =
      if kingRank type (kings a king) = kingRank type (kings b king') then none
      else some (decide (kingRank type (kings b king') < kingRank type (kings a king))) := by
  cases haveKing with
  | false =>
    have noKing {cards : List ℕ} (hand : Hand false 5 cards) : ∀ card ∈ cards, isKing card = false :=
      fun card inside => not_isKing_of_mem card (hand.inDeck card inside)
    rw [kings_of_plain king (noKing first), kings_of_plain king' (noKing second), if_pos Bool.false_ne_true,
      if_pos rfl]
  | true =>
    rw [if_neg (not_not.mpr rfl)]
    rcases Nat.lt_or_ge ctNiuniu type with high | low
    · rw [if_neg high.not_ge]
      rcases eq_or_ne type ctWuhuaNiu with rfl | other
      · rw [if_pos rfl, compareFlowerKings_eq apart]
      · have none_ (k : Kings) : kingRank type k = 0 := by rw [kingRank, if_neg high.not_ge, if_neg other]
        rw [if_neg other, none_, none_, if_pos rfl]
    · rw [if_pos low, compareKings_eq first.nodup second.nodup apart low]

/-- Between hands without a common card the stronger one wins. Only between two hands of five small cards is it the
banker's who does. -/
theorem Hand.compareCard_eq (first : Hand haveKing 5 a) (second : Hand haveKing 5 b) (apart : a.Disjoint b)
    (banker : firstBanker = false ∨
      ¬(handType haveKing a = ctFivesmallNiu ∧ handType haveKing b = ctFivesmallNiu)) :
    compareCard haveKing a b king king' false firstBanker =
      decide (strength haveKing b king' < strength haveKing a king) := by
  rw [compareCard]
  dsimp only
  rw [show (getHaveKingBigCardType haveKing a (0, 0)).maxType = handType haveKing a from rfl,
    show (getHaveKingBigCardType haveKing b (0, 0)).maxType = handType haveKing b from rfl]
  simp only [strength, Prod.Lex.toLex_lt_toLex]
  rcases eq_or_ne (handType haveKing a) (handType haveKing b) with types | types
  · have cards := first.compareCards_eq second apart types (banker.imp_right fun both small =>
      both ⟨small, types ▸ small⟩)
    rw [if_neg (not_not.mpr types), first.byKings_eq second apart, ← types]
    split_ifs with ranks
    · simp [ranks, cards]
    · simp [Ne.symm ranks]
  · rw [if_pos types]
    simp [Ne.symm types]

theorem Hand.strength_ne (first : Hand haveKing 5 a) (second : Hand haveKing 5 b) (apart : a.Disjoint b) :
    strength haveKing a king ≠ strength haveKing b king' := by
  intro same
  obtain ⟨types, rest⟩ := Prod.mk.inj same
  obtain ⟨-, keys⟩ := Prod.mk.inj rest
  exact first.cardsKey_ne second apart types keys

/-- What the jokers of five cards become when they are dealt. -/
def dealtKings (haveKing : Bool) (cards : List ℕ) : ℕ × ℕ :=
  (getHaveKingBigCardType haveKing cards (0, 0)).kingChangCard

theorem Hand.strength_of_perm {a' : List ℕ} (hand : Hand haveKing 5 a) (perm : a'.Perm a) :
    strength haveKing a' (dealtKings haveKing a') = strength haveKing a (dealtKings haveKing a) := by
  obtain ⟨types, changed⟩ := getHaveKingBigCardType_of_perm hand perm (0, 0)
  have kings_ : kings a' (dealtKings haveKing a') = kings a (dealtKings haveKing a) := by
    rw [dealtKings, changed, ← dealtKings, kings, kings, perm.countP_eq,
      (perm.map (H5Server.Bbqznn.changed (dealtKings haveKing a))).sum_eq]
    simp only [perm.mem_iff]
  rw [strength, strength, handType, types, ← handType, kings_, sortCardList_eq_of_perm perm]

/-- Whether a hand beats another as they are dealt. -/
def beats (haveKing : Bool) (firstCard nextCard : List ℕ) : Bool :=
  compareCard haveKing firstCard nextCard (dealtKings haveKing firstCard) (dealtKings haveKing nextCard) false false

theorem Hand.beats_iff (first : Hand haveKing 5 a) (second : Hand haveKing 5 b) (apart : a.Disjoint b) :
    beats haveKing a b = true ↔
      strength haveKing b (dealtKings haveKing b) < strength haveKing a (dealtKings haveKing a) := by
  rw [beats, first.compareCard_eq second apart (.inl rfl), decide_eq_true_eq]

end H5Server.Bbqznn
