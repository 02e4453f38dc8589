import H5Server.Bbqznn.Showdown
import Mathlib.Order.Bounds.Basic

/-! # What five cards can count as

A hand without jokers has its type. With jokers it counts as four equal cards, as five flowers, or as the points that it
has when ranks stand for its jokers. The searches find the greatest of these and a replacement that has it.
-/

namespace H5Server.Bbqznn

variable {cards cards' : List ℕ} {n : ℕ}

/-! ## Replacing jokers -/

/-- Any rank may stand for a joker. -/
def Replaces (replacement cards : List ℕ) : Prop :=
  List.Forall₂ (fun other card => other = card ∨ isKing card = true ∧ other ∈ ranks) replacement cards

/-- Besides the jokers all are equal, four of them. -/
def FourEqual (cards : List ℕ) : Prop :=
  (plain cards).length = 4 ∧ ∀ card ∈ plain cards, ∀ card' ∈ plain cards, getCardValue card = getCardValue card'

inductive CountsAs (cards : List ℕ) : ℕ → Prop
  | noKing (none_ : cards.countP isKing = 0) : CountsAs cards (getCardType cards)
  | bomb (some_ : 0 < cards.countP isKing) (equal : FourEqual cards) : CountsAs cards ctBombNiu
  | flowers (some_ : 0 < cards.countP isKing) (high : ∀ card ∈ plain cards, 10 ≤ getCardValue card) :
      CountsAs cards ctWuhuaNiu
  | points (some_ : 0 < cards.countP isKing) (replacement : List ℕ) (replaces : Replaces replacement cards) :
      CountsAs cards (isOtherNiu replacement)

theorem Replaces.perm {replacement : List ℕ} (replaces : Replaces replacement cards) :
    ∃ others, others.length = cards.countP isKing ∧ (∀ other ∈ others, isKing other = true ∨ other ∈ ranks) ∧
      replacement.Perm (others ++ plain cards) := by
  induction replaces with
  | nil => exact ⟨[], rfl, fun other inside => absurd inside List.not_mem_nil, .refl _⟩
  | @cons other card replacement cards here _ ih =>
    obtain ⟨others, length, allowed, perm⟩ := ih
    cases king : isKing card with
    | true =>
      have skip : plain (card :: cards) = plain cards := List.filter_cons_of_neg (by simp [king])
      refine ⟨other :: others, ?_, List.forall_mem_cons.mpr ⟨?_, allowed⟩, ?_⟩
      · rw [List.length_cons, length, List.countP_cons_of_pos king]
      · rcases here with rfl | ⟨-, rank⟩
        · exact .inl king
        · exact .inr rank
      · rw [skip]
        exact perm.cons other
    | false =>
      have keep : plain (card :: cards) = card :: plain cards := List.filter_cons_of_pos (by simp [king])
      obtain rfl : other = card := here.resolve_right fun both => by rw [king] at both; exact Bool.false_ne_true both.1
      refine ⟨others, ?_, allowed, ?_⟩
      · rw [length, List.countP_cons_of_neg (by rw [king]; exact Bool.false_ne_true)]
      · rw [keep]
        exact (perm.cons other).trans List.perm_middle.symm

/-- What stands for one card. -/
def replacedCard (kingChangCard : ℕ × ℕ) (card : ℕ) : ℕ :=
  if card = 0x4E ∧ kingChangCard.1 ≠ 0 then kingChangCard.1
  else if card = 0x4F ∧ kingChangCard.2 ≠ 0 then kingChangCard.2
  else card

/-- The cards with the king cards in place of the jokers. -/
def replaced (kingChangCard : ℕ × ℕ) (cards : List ℕ) : List ℕ := cards.map (replacedCard kingChangCard)

theorem replacedCard_of_not_isKing (kingChangCard : ℕ × ℕ) {card : ℕ} (other : isKing card = false) :
    replacedCard kingChangCard card = card := by
  rw [isKing, decide_eq_false_iff_not, not_or] at other
  rw [replacedCard, if_neg fun both => other.1 both.1, if_neg fun both => other.2 both.1]

theorem replaced_plain (kingChangCard : ℕ × ℕ) (cards : List ℕ) : replaced kingChangCard (plain cards) = plain cards := by
  conv_rhs => rw [← List.map_id (plain cards)]
  exact List.map_congr_left fun card inside => replacedCard_of_not_isKing kingChangCard (mem_plain.mp inside).2

/-! ## One joker -/

theorem logicValue_king {king : ℕ} (isKing_ : isKing king = true) : getLogicValue king = 10 := by
  rw [isKing, decide_eq_true_eq] at isKing_
  rcases isKing_ with rfl | rfl <;> decide

/-- One value for every joker. -/
def fill (other : ℕ → ℕ) (cards : List ℕ) : List ℕ := cards.map fun card => if isKing card then other card else card

theorem fill_plain (other : ℕ → ℕ) (cards : List ℕ) : fill other (plain cards) = plain cards := by
  conv_rhs => rw [← List.map_id (plain cards)]
  exact List.map_congr_left fun card inside => if_neg (by rw [(mem_plain.mp inside).2]; exact Bool.false_ne_true)

theorem replaces_fill {other : ℕ → ℕ}
    (allowed : ∀ card ∈ cards, isKing card = true → other card = card ∨ other card ∈ ranks) :
    Replaces (fill other cards) cards := by
  rw [Replaces, fill, List.forall₂_map_left_iff, List.forall₂_same]
  intro card inside
  split_ifs with king
  · exact (allowed card inside king).imp_right fun rank => ⟨king, rank⟩
  · exact .inl rfl

variable {haveKing : Bool}

theorem Hand.values_plain (hand : Hand haveKing n cards) : ∀ card ∈ plain cards, 0 < getCardValue card :=
  fun card inside => hand.values card (mem_plain.mp inside).1

theorem Hand.values_cons (hand : Hand haveKing n cards) {other : ℕ} (some_ : 0 < getCardValue other) :
    ∀ card ∈ other :: plain cards, 0 < getCardValue card := List.forall_mem_cons.mpr ⟨some_, hand.values_plain⟩

theorem Hand.values_two (hand : Hand haveKing n cards) {other other' : ℕ} (some_ : 0 < getCardValue other)
    (some' : 0 < getCardValue other') : ∀ card ∈ other :: other' :: plain cards, 0 < getCardValue card :=
  List.forall_mem_cons.mpr ⟨some_, hand.values_cons some'⟩

/-- Each joker counts ten. -/
theorem Hand.isOtherNiu_king (hand : Hand haveKing n cards) (one : cards.countP isKing = 1) {king : ℕ}
    (isKing_ : isKing king = true) : isOtherNiu (king :: plain cards) = isOtherNiu cards := by
  obtain ⟨king', isKing', perm⟩ := exists_king one
  apply isOtherNiu_congr (hand.values_cons (Nat.zero_lt_of_lt (value_king isKing_))) hand.values
  apply List.Perm.trans _ (perm.map getLogicValue).symm
  rw [List.map_cons, List.map_cons, logicValue_king isKing_, logicValue_king isKing']

theorem Hand.fourEqual_iff (hand : Hand true 5 cards) (one : cards.countP isKing = 1) :
    FourEqual cards ↔ isBomb cards = true := by
  obtain ⟨king, isKing_, perm⟩ := exists_king one
  have four := perm.length_eq
  rw [hand.length, List.length_cons] at four
  have order : (sortCardList (plain cards)).Perm (plain cards) := sortCardList_perm _
  rw [isBomb, decide_eq_true_eq, hand.sort_one isKing_ perm, perm.countP_eq, List.getD_cons_succ]
  have inside : (sortCardList (plain cards)).getD 1 0 ∈ plain cards := by
    apply order.subset
    rw [List.getD_eq_getElem _ _ (by rw [order.length_eq]; omega)]
    exact List.getElem_mem _
  have low := hand.value_plain _ inside
  have high := value_king isKing_
  rw [List.countP_cons_of_neg (by simp only [decide_eq_true_eq]; omega), show 4 = (plain cards).length by omega,
    List.countP_eq_length]
  simp only [decide_eq_true_eq]
  constructor
  · rintro ⟨-, equal⟩ card here
    exact equal _ inside card here
  · intro equal
    exact ⟨by omega, fun card here card' here' => (equal card here).symm.trans (equal card' here')⟩

theorem Hand.flowers_iff (hand : Hand true 5 cards) :
    (∀ card ∈ plain cards, 10 ≤ getCardValue card) ↔ isGoldenBull cards = true := by
  rw [isGoldenBull, decide_eq_true_eq, List.all_eq_true, and_iff_left hand.length]
  constructor
  · intro high card inside
    rw [decide_eq_true_eq]
    cases king : isKing card with
    | true => exact (value_king king).le.trans' (by decide)
    | false => exact high card (mem_plain.mpr ⟨inside, king⟩)
  · exact fun high card inside => of_decide_eq_true (high card (mem_plain.mp inside).1)

theorem Hand.points_le (hand : Hand haveKing n cards) {replacement : List ℕ} (replaces : Replaces replacement cards) :
    isOtherNiu replacement ≤ ctNiuniu := by
  obtain ⟨others, -, allowed, perm⟩ := replaces.perm
  apply isOtherNiu_le
  intro card inside
  rcases List.mem_append.mp (perm.subset inside) with inside | inside
  · rcases allowed card inside with king | rank
    · exact Nat.zero_lt_of_lt (value_king king)
    · exact value_of_rank card rank
  · exact hand.values_plain card inside

/-- What a replacement of the only joker is worth. -/
theorem Hand.points_one (hand : Hand true 5 cards) (one : cards.countP isKing = 1) {replacement : List ℕ}
    (replaces : Replaces replacement cards) :
    isOtherNiu replacement = isOtherNiu cards ∨
      ∃ rank ∈ ranks, isOtherNiu replacement = isOtherNiu (rank :: plain cards) := by
  obtain ⟨others, length, allowed, perm⟩ := replaces.perm
  rw [one] at length
  obtain ⟨other, rfl⟩ := List.length_eq_one_iff.mp length
  rcases allowed other (List.mem_singleton_self other) with king | rank
  · have values := hand.values_cons (Nat.zero_lt_of_lt (value_king king))
    exact .inl ((isOtherNiu_of_perm values perm).trans (hand.isOtherNiu_king one king))
  · exact .inr ⟨other, rank, isOtherNiu_of_perm (hand.values_cons (value_of_rank other rank)) perm⟩

/-- The search with one joker finds the greatest type. -/
theorem Hand.greatest_one (hand : Hand true 5 cards) (one : cards.countP isKing = 1) :
    IsGreatest {type | CountsAs cards type} (searchMaxTypeOne cards).1 := by
  have some_ : 0 < cards.countP isKing := by omega
  have bomb_iff := hand.fourEqual_iff one
  have flowers_iff := hand.flowers_iff
  rcases hand.searchMaxTypeOne_cases one with
    ⟨bomb, result⟩ | ⟨noBomb, golden, result⟩ | ⟨noBomb, noGolden, least, all, result⟩
  · rw [result]
    refine ⟨.bomb some_ (bomb_iff.mpr bomb), ?_⟩
    rintro type (none_ | _ | _ | ⟨-, replacement, replaces⟩)
    · omega
    · exact le_rfl
    · decide
    · exact (hand.points_le replaces).trans (by decide)
  · rw [result]
    refine ⟨.flowers some_ (flowers_iff.mpr golden), ?_⟩
    rintro type (none_ | ⟨-, equal⟩ | _ | ⟨-, replacement, replaces⟩)
    · omega
    · rw [bomb_iff, noBomb] at equal
      exact absurd equal Bool.false_ne_true
    · exact le_rfl
    · exact (hand.points_le replaces).trans (by decide)
  · constructor
    · obtain ⟨king, isKing_, perm⟩ := exists_king one
      rcases result with result | ⟨rank, inside, result⟩
      · rw [result]
        refine .points some_ cards (List.forall₂_same.mpr fun card _ => .inl rfl)
      · rw [result]
        have replaces : Replaces (fill (fun _ => rank) cards) cards := replaces_fill fun _ _ _ => .inr inside
        have same : (fill (fun _ => rank) cards).Perm (rank :: plain cards) := by
          apply (perm.map _).trans
          rw [List.map_cons, if_pos isKing_]
          exact (List.Perm.of_eq (fill_plain _ cards)).cons rank
        rw [← isOtherNiu_of_perm (hand.values_cons (value_of_rank rank inside)) same]
        exact .points some_ _ replaces
    · rintro type (none_ | ⟨-, equal⟩ | ⟨-, high⟩ | ⟨-, replacement, replaces⟩)
      · omega
      · rw [bomb_iff, noBomb] at equal
        exact absurd equal Bool.false_ne_true
      · rw [flowers_iff, noGolden] at high
        exact absurd high Bool.false_ne_true
      · rcases hand.points_one one replaces with same | ⟨rank, inside, same⟩
        · rw [same]
          exact least
        · rw [same]
          exact all rank inside

/-! ## Two jokers -/

/-- With both jokers the hand is worth five flowers or ten points. -/
theorem Hand.greatest_two (hand : Hand true 5 cards) (two : cards.countP isKing = 2) :
    IsGreatest {type | CountsAs cards type} (searchMaxTypeTwo cards).1 := by
  have some_ : 0 < cards.countP isKing := by omega
  have perm := both_kings hand.nodup two
  have three := perm.length_eq
  rw [hand.length, List.length_cons, List.length_cons] at three
  have noFour : ¬FourEqual cards := fun equal => by
    have four := equal.1
    omega
  have below {type : ℕ} (ten : ctNiuniu ≤ type) (flowers : (∀ card ∈ plain cards, 10 ≤ getCardValue card) →
      ctWuhuaNiu ≤ type) : type ∈ upperBounds {type | CountsAs cards type} := by
    rintro type (none_ | ⟨-, equal⟩ | ⟨-, high⟩ | ⟨-, replacement, replaces⟩)
    · omega
    · exact absurd equal noFour
    · exact flowers high
    · exact (hand.points_le replaces).trans ten
  have filled (other : ℕ → ℕ) : (fill other cards).Perm (other 0x4F :: other 0x4E :: plain cards) := by
    apply (perm.map _).trans
    rw [List.map_cons, List.map_cons, if_pos (by decide), if_pos (by decide)]
    exact ((List.Perm.of_eq (fill_plain other cards)).cons _).cons _
  have reach (other : ℕ → ℕ) (allowed : ∀ card ∈ cards, isKing card = true → other card = card ∨ other card ∈ ranks)
      (values : ∀ card ∈ other 0x4F :: other 0x4E :: plain cards, 0 < getCardValue card)
      (ten : isOtherNiu (other 0x4F :: other 0x4E :: plain cards) = ctNiuniu) : CountsAs cards ctNiuniu := by
    rw [← ten, ← isOtherNiu_of_perm values (filled other)]
    exact .points some_ _ (replaces_fill allowed)
  rcases hand.searchMaxTypeTwo_cases two with
    ⟨high, result⟩ | ⟨low, ⟨ten, result⟩ | ⟨small, inside, ten, result⟩ |
      ⟨-, -, small, inside, big, inside', ten, result⟩⟩
  all_goals rw [result]
  · exact ⟨.flowers some_ high, below (by decide) fun _ => le_rfl⟩
  all_goals refine ⟨?_, below le_rfl fun high => absurd high low⟩
  · show CountsAs cards ctNiuniu
    rw [← ten]
    exact .points some_ cards (List.forall₂_same.mpr fun card _ => .inl rfl)
  · apply reach (fun card => if card = 0x4E then small else card) _ _ ten
    · intro card _ _
      split_ifs
      · exact .inr inside
      · exact .inl rfl
    · exact hand.values_two (by decide : 0 < getCardValue 0x4F) (value_of_rank small inside)
  · apply reach (fun card => if card = 0x4E then small else big) _ _ ten
    · intro card _ _
      split_ifs
      · exact .inr inside
      · exact .inr inside'
    · exact hand.values_two (value_of_rank big inside') (value_of_rank small inside)

/-! ## Five cards -/

theorem countP_isKing_le (nodup : cards.Nodup) : cards.countP isKing ≤ 2 := by
  rw [List.countP_eq_length_filter]
  have sub : (cards.filter isKing).Subperm [0x4E, 0x4F] := by
    apply List.subperm_of_subset (nodup.filter _)
    intro card inside
    have king := (List.mem_filter.mp inside).2
    rw [isKing, decide_eq_true_eq] at king
    simpa using king
  exact sub.length_le

theorem handType_true (nodup : cards.Nodup) : handType true cards =
    if cards.countP isKing = 0 then getCardType cards
    else if cards.countP isKing = 1 then (searchMaxTypeOne cards).1
    else (searchMaxTypeTwo cards).1 := by
  have few := countP_isKing_le nodup
  rw [handType, getHaveKingBigCardType, if_pos rfl]
  obtain none_ | one | two : cards.countP isKing = 0 ∨ cards.countP isKing = 1 ∨ cards.countP isKing = 2 := by omega
  · rw [none_]
    rfl
  · rw [one]
    rfl
  · rw [two]
    rfl

/-- The type of five cards is the greatest that they count as. -/
theorem Hand.greatest_five (hand : Hand true 5 cards) : IsGreatest {type | CountsAs cards type} (handType true cards) := by
  have few := countP_isKing_le hand.nodup
  rw [handType_true hand.nodup]
  split_ifs with none_ one
  · refine ⟨.noKing none_, ?_⟩
    rintro type (_ | ⟨some_, -⟩ | ⟨some_, -⟩ | ⟨some_, -, -⟩)
    · exact le_rfl
    all_goals omega
  · exact hand.greatest_one one
  · exact hand.greatest_two (by omega)

/-! ## The hand with the king cards -/

theorem logicValue_of_changed : ∀ rank ∈ ranks, getLogicValue (48 + rank) = getLogicValue rank := by decide

theorem replacedCard_setKing (kingChangCard : ℕ × ℕ) (changcard king : ℕ) (isKing_ : isKing king = true) :
    replacedCard (setKing kingChangCard (king = 0x4F) changcard) king = if changcard = 0 then king else changcard := by
  rw [isKing, decide_eq_true_eq] at isKing_
  rcases isKing_ with rfl | rfl
  · simp [replacedCard, setKing]
  · simp [replacedCard, setKing]

/-- With what the search found for the joker the hand has the points that it found. -/
theorem Hand.replaced_one (hand : Hand true 5 cards) (one : cards.countP isKing = 1) (kingChangCard : ℕ × ℕ)
    (noBomb : (searchMaxTypeOne cards).1 ≠ ctBombNiu) (noFlowers : (searchMaxTypeOne cards).1 ≠ ctWuhuaNiu) :
    isOtherNiu (replaced (setKing kingChangCard (0x4F ∈ cards) (searchMaxTypeOne cards).2) cards) =
      (searchMaxTypeOne cards).1 := by
  obtain ⟨king, isKing_, perm⟩ := exists_king one
  have big : (decide (0x4F ∈ cards)) = decide (king = 0x4F) := by
    rw [decide_eq_decide, perm.mem_iff, List.mem_cons]
    constructor
    · rintro (same | inside)
      · exact same.symm
      · exact absurd (mem_plain.mp inside).2 (by decide)
    · exact fun same => .inl same.symm
  have order (kc : ℕ × ℕ) : (replaced kc cards).Perm (replacedCard kc king :: plain cards) := by
    apply (perm.map _).trans
    rw [List.map_cons]
    exact (List.Perm.of_eq (replaced_plain kc cards)).cons _
  rw [big]
  rcases hand.searchMaxTypeOne_cases one with ⟨-, result⟩ | ⟨-, -, result⟩ | ⟨-, -, -, -, result | ⟨rank, inside, result⟩⟩
  · rw [result] at noBomb
    exact absurd rfl noBomb
  · rw [result] at noFlowers
    exact absurd rfl noFlowers
  · rw [result]
    have same := order (setKing kingChangCard (king = 0x4F) 0)
    rw [replacedCard_setKing _ _ _ isKing_, if_pos rfl] at same
    rw [isOtherNiu_of_perm (hand.values_cons (Nat.zero_lt_of_lt (value_king isKing_))) same]
    exact hand.isOtherNiu_king one isKing_
  · rw [result]
    have same := order (setKing kingChangCard (king = 0x4F) (48 + rank))
    rw [replacedCard_setKing _ _ _ isKing_, if_neg (by omega)] at same
    have some_ : 0 < getCardValue (48 + rank) := by
      rw [value_of_changed rank inside]
      exact value_of_rank rank inside
    have values := hand.values_cons some_
    rw [isOtherNiu_of_perm values same]
    apply isOtherNiu_congr values (hand.values_cons (value_of_rank rank inside))
    rw [List.map_cons, List.map_cons, logicValue_of_changed rank inside]

theorem Hand.replaced_two (hand : Hand true 5 cards) (two : cards.countP isKing = 2)
    (noFlowers : (searchMaxTypeTwo cards).1 ≠ ctWuhuaNiu) :
    isOtherNiu (replaced (searchMaxTypeTwo cards).2 cards) = (searchMaxTypeTwo cards).1 := by
  have perm := both_kings hand.nodup two
  have order (kc : ℕ × ℕ) :
      (replaced kc cards).Perm (replacedCard kc 0x4F :: replacedCard kc 0x4E :: plain cards) := by
    apply (perm.map _).trans
    rw [List.map_cons, List.map_cons]
    exact ((List.Perm.of_eq (replaced_plain kc cards)).cons _).cons _
  have positive (rank : ℕ) (inside : rank ∈ ranks) : 0 < getCardValue (48 + rank) := by
    rw [value_of_changed rank inside]
    exact value_of_rank rank inside
  have bigKing : 0 < getCardValue 0x4F := by decide
  rcases hand.searchMaxTypeTwo_cases two with
    ⟨-, result⟩ | ⟨-, ⟨ten, result⟩ | ⟨small, inside, ten, result⟩ |
      ⟨-, -, small, inside, big, inside', ten, result⟩⟩
  · rw [result] at noFlowers
    exact absurd rfl noFlowers
  · rw [result, ← ten]
    exact isOtherNiu_of_perm hand.values ((order (0, 0)).trans perm.symm)
  · rw [result, ← ten]
    have same := order (48 + small, 0)
    rw [show replacedCard (48 + small, 0) 0x4F = 0x4F by simp [replacedCard],
      show replacedCard (48 + small, 0) 0x4E = 48 + small by simp [replacedCard]] at same
    have values := hand.values_two bigKing (positive small inside)
    rw [isOtherNiu_of_perm values same]
    apply isOtherNiu_congr values (hand.values_two bigKing (value_of_rank small inside))
    simp only [List.map_cons, logicValue_of_changed small inside, List.Perm.refl]
  · rw [result, ← ten]
    have same := order (48 + small, 48 + big)
    rw [show replacedCard (48 + small, 48 + big) 0x4F = 48 + big by simp [replacedCard],
      show replacedCard (48 + small, 48 + big) 0x4E = 48 + small by simp [replacedCard]] at same
    have values := hand.values_two (positive big inside') (positive small inside)
    rw [isOtherNiu_of_perm values same]
    apply isOtherNiu_congr values (hand.values_two (value_of_rank big inside') (value_of_rank small inside))
    simp only [List.map_cons, logicValue_of_changed small inside, logicValue_of_changed big inside', List.Perm.refl]

end H5Server.Bbqznn
