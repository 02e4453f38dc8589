import H5Server.Bbqznn.BestHand
import H5Server.Lib.Runs

/-! # The best five of six cards

The routines for six cards try every five of them in turn. With both jokers no five are worth more than ten points
unless four cards are equal or three are flowers.
-/

namespace H5Server.Bbqznn

variable {hand five cards : List ℕ} {best : Best}

/-- The king cards give the points of the type, unless it is one that does not need any. -/
def Points (best : Best) : Prop :=
  best.maxType ≠ ctBombNiu → best.maxType ≠ ctWuhuaNiu →
    ¬(best.cardData.countP isKing = 0 ∧ ctNiuniu < best.maxType) →
    isOtherNiu (replaced best.kingChangCard best.cardData) = best.maxType

/-- What is wanted of a chosen hand: the greatest type of any five cards, five of the cards, and king cards that give the
points of the type. -/
structure Optimal (hand : List ℕ) (best : Best) : Prop where
  greatest : IsGreatest {type | ∃ five : List ℕ, five.Sublist hand ∧ five.length = 5 ∧ CountsAs five type} best.maxType
  length : best.cardData.length = 5
  nodup : best.cardData.Nodup
  subset : best.cardData ⊆ hand
  points : Points best

/-! ## Five cards -/

theorem plain_eq_self (none_ : cards.countP isKing = 0) : plain cards = cards :=
  List.filter_eq_self.mpr fun card inside => decide_eq_true (List.countP_eq_zero.mp none_ card inside)

theorem isOtherNiu_of_low (low : getCardType cards ≤ ctNiuniu) : getCardType cards = isOtherNiu cards := by
  rw [getCardType] at low ⊢
  split_ifs at low ⊢
  all_goals first
    | exact absurd low (by decide)
    | rfl

/-- Cards without jokers have the points of their type whatever the king cards. -/
theorem points_of_noKing (none_ : cards.countP isKing = 0) (kingChangCard : ℕ × ℕ) :
    Points ⟨getCardType cards, cards, kingChangCard⟩ := by
  intro _ _ special
  have low : getCardType cards ≤ ctNiuniu := Nat.le_of_not_lt fun high => special ⟨none_, high⟩
  have same := replaced_plain kingChangCard cards
  rw [plain_eq_self none_] at same
  rw [same, isOtherNiu_of_low low]

theorem Hand.points_of_one (five : Hand true 5 cards) (one : cards.countP isKing = 1) (kingChangCard : ℕ × ℕ) :
    Points ⟨(searchMaxTypeOne cards).1, cards, setKing kingChangCard (0x4F ∈ cards) (searchMaxTypeOne cards).2⟩ :=
  fun noBomb noFlowers _ => five.replaced_one one kingChangCard noBomb noFlowers

theorem Hand.points_of_two (five : Hand true 5 cards) (two : cards.countP isKing = 2) :
    Points ⟨(searchMaxTypeTwo cards).1, cards, (searchMaxTypeTwo cards).2⟩ :=
  fun _ noFlowers _ => five.replaced_two two noFlowers

theorem Hand.optimal_five (five : Hand true 5 cards) (kingChangCard : ℕ × ℕ) :
    Optimal cards (getHaveKingBigCardType true cards kingChangCard) := by
  have few := countP_isKing_le five.nodup
  have types := handType_true five.nodup
  have greatest := five.greatest_five
  have only : {type | ∃ five : List ℕ, five.Sublist cards ∧ five.length = 5 ∧ CountsAs five type} =
      {type | CountsAs cards type} := by
    ext type
    constructor
    · rintro ⟨five', sub, length, counts⟩
      rwa [sub.eq_of_length (length.trans five.length.symm)] at counts
    · exact fun counts => ⟨cards, List.Sublist.refl _, five.length, counts⟩
  rw [types, ← only] at greatest
  rw [getHaveKingBigCardType, if_pos rfl]
  obtain none_ | one | two : cards.countP isKing = 0 ∨ cards.countP isKing = 1 ∨ cards.countP isKing = 2 := by omega
  · rw [if_pos none_] at greatest
    rw [none_]
    exact ⟨greatest, five.length, five.nodup, List.Subset.refl _, points_of_noKing none_ kingChangCard⟩
  · rw [if_neg (by omega), if_pos one] at greatest
    rw [one]
    exact ⟨greatest, five.length, five.nodup, List.Subset.refl _, five.points_of_one one kingChangCard⟩
  · rw [if_neg (by omega), if_neg (by omega)] at greatest
    rw [two]
    exact ⟨greatest, five.length, five.nodup, List.Subset.refl _, five.points_of_two two⟩

/-! ## Trying every five -/

theorem exists_eraseIdx {α : Type*} {part list : List α} (sub : part.Sublist list)
    (length : part.length + 1 = list.length) : ∃ i < list.length, list.eraseIdx i = part := by
  induction sub with
  | slnil => exact absurd length (Nat.succ_ne_zero _)
  | @cons part list a sub ih =>
    have whole := sub.eq_of_length (Nat.succ.inj length)
    exact ⟨0, Nat.succ_pos _, whole.symm⟩
  | @cons_cons part list a sub ih =>
    obtain ⟨i, inside, rest⟩ := ih (Nat.succ.inj length)
    exact ⟨i + 1, Nat.succ_lt_succ inside, congrArg (a :: ·) rest⟩

theorem mem_fiveOf (six : hand.length = 6) : five ∈ fiveOf hand ↔ five.Sublist hand ∧ five.length = 5 := by
  rw [fiveOf, List.mem_map]
  constructor
  · rintro ⟨i, inside, rfl⟩
    have short := List.mem_range.mp inside
    exact ⟨List.eraseIdx_sublist hand i, by rw [List.length_eraseIdx_of_lt (by omega), six]⟩
  · rintro ⟨sub, length⟩
    obtain ⟨i, inside, rest⟩ := exists_eraseIdx sub (by omega)
    exact ⟨i, List.mem_range.mpr (six ▸ inside), rest⟩

theorem Hand.of_mem_fiveOf (six : Hand true 6 hand) (inside : five ∈ fiveOf hand) : Hand true 5 five := by
  obtain ⟨sub, length⟩ := (mem_fiveOf six.length).mp inside
  exact ⟨length, six.nodup.sublist sub, fun card here => six.inDeck card (sub.subset here)⟩

/-- One of some hands has the greatest type. -/
structure BestOf (behind : List (List ℕ)) (type : ℕ) (cards : List ℕ) : Prop where
  mem : cards ∈ behind
  type_eq : handType true cards = type
  bound : ∀ five ∈ behind, handType true five ≤ type

variable {behind : List (List ℕ)} {type : ℕ}

theorem BestOf.keep (bestOf : BestOf behind type cards) (less : handType true five ≤ type) :
    BestOf (behind ++ [five]) type cards where
  mem := List.mem_append_left _ bestOf.mem
  type_eq := bestOf.type_eq
  bound other inside := by
    rcases List.mem_append.mp inside with inside | here
    · exact bestOf.bound other inside
    · rwa [List.mem_singleton.mp here]

theorem bestOf_take (most : ∀ other ∈ behind, handType true other ≤ handType true five) :
    BestOf (behind ++ [five]) (handType true five) five where
  mem := List.mem_append_right _ (List.mem_singleton_self five)
  type_eq := rfl
  bound other inside := by
    rcases List.mem_append.mp inside with inside | here
    · exact most other inside
    · rw [List.mem_singleton.mp here]

theorem BestOf.take (bestOf : BestOf behind type cards) (more : type ≤ handType true five) :
    BestOf (behind ++ [five]) (handType true five) five :=
  bestOf_take fun other inside => (bestOf.bound other inside).trans more

/-- The best of all fives is optimal. -/
theorem Hand.optimal_of_bestOf (six : Hand true 6 hand) (bestOf : BestOf (fiveOf hand) best.maxType best.cardData)
    (points : Points best) : Optimal hand best := by
  obtain ⟨sub, length⟩ := (mem_fiveOf six.length).mp bestOf.mem
  refine ⟨⟨⟨best.cardData, sub, length, ?_⟩, ?_⟩, length, six.nodup.sublist sub, sub.subset, points⟩
  · rw [← bestOf.type_eq]
    exact (six.of_mem_fiveOf bestOf.mem).greatest_five.1
  · rintro type ⟨five, sub, length, counts⟩
    have inside := (mem_fiveOf six.length).mpr ⟨sub, length⟩
    exact ((six.of_mem_fiveOf inside).greatest_five.2 counts).trans (bestOf.bound five inside)

/-- No hand beats one of a greater type. -/
theorem handType_le_of_compareCard {haveKing six firstBanker : Bool} {a b : List ℕ} {king king' : ℕ × ℕ}
    (wins : compareCard haveKing a b king king' six firstBanker = true) :
    handType haveKing b ≤ handType haveKing a := by
  rw [compareCard] at wins
  dsimp only at wins
  rw [show (getHaveKingBigCardType haveKing a (0, 0)).maxType = handType haveKing a from rfl,
    show (getHaveKingBigCardType haveKing b (0, 0)).maxType = handType haveKing b from rfl] at wins
  rcases eq_or_ne (handType haveKing a) (handType haveKing b) with same | other
  · exact same.ge
  · rw [if_pos other, decide_eq_true_eq] at wins
    exact le_of_lt wins

/-! ## No joker -/

theorem Hand.countP_five (six : Hand true 6 hand) (inside : five ∈ fiveOf hand) :
    five.countP isKing ≤ hand.countP isKing := ((mem_fiveOf six.length).mp inside).1.countP_le

/-- The hand chosen so far is the best of those behind. -/
def ChosenBig (behind : List (List ℕ)) (best : Option (ℕ × List ℕ)) : Prop :=
  behind = [] ∧ best = none ∨ ∃ chosen, best = some chosen ∧ BestOf behind chosen.1 chosen.2

theorem ChosenBig.step {best : Option (ℕ × List ℕ)} (chosen : ChosenBig behind best)
    (same : getCardType five = handType true five) : ChosenBig (behind ++ [five]) (chooseBig true best five) := by
  rcases chosen with ⟨rfl, rfl⟩ | ⟨⟨maxType, cardData⟩, rfl, bestOf⟩
  · rw [chooseBig, same]
    have first : BestOf ([] ++ [five]) (handType true five) five :=
      bestOf_take fun other none_ => absurd none_ List.not_mem_nil
    refine .inr ⟨_, rfl, ?_⟩
    split_ifs with some_
    · exact first
    · rwa [Nat.eq_zero_of_not_pos some_] at first
  · rw [chooseBig, same]
    split_ifs with more wins
    · exact .inr ⟨_, rfl, bestOf.take more.le⟩
    · have least := handType_le_of_compareCard wins
      rw [bestOf.type_eq] at least
      have equal := le_antisymm (Nat.le_of_not_lt more) least
      exact .inr ⟨_, rfl, equal ▸ bestOf.take least⟩
    · exact .inr ⟨_, rfl, bestOf.keep (Nat.le_of_not_lt more)⟩

theorem fiveOf_ne_nil (hand : List ℕ) : fiveOf hand ≠ [] := by
  rw [fiveOf, Ne, List.map_eq_nil_iff]
  decide

theorem Hand.optimal_noKing (six : Hand true 6 hand) (none_ : hand.countP isKing = 0) (kingChangCard : ℕ × ℕ) :
    Optimal hand ⟨(getBigTypeCard true hand).1, (getBigTypeCard true hand).2, kingChangCard⟩ := by
  have noKing (five : List ℕ) (inside : five ∈ fiveOf hand) : five.countP isKing = 0 :=
    Nat.le_zero.mp (none_ ▸ six.countP_five inside)
  have plainType (five : List ℕ) (inside : five ∈ fiveOf hand) : getCardType five = handType true five := by
    rw [handType_true (six.of_mem_fiveOf inside).nodup, if_pos (noKing five inside)]
  have chosen : ChosenBig (fiveOf hand) ((fiveOf hand).foldl (chooseBig true) none) :=
    Lib.foldl_invariant ChosenBig (.inl ⟨rfl, rfl⟩) fun _ _ five inside chosen => chosen.step (plainType five inside)
  rw [getBigTypeCard]
  rcases chosen with ⟨empty, -⟩ | ⟨⟨maxType, cardData⟩, result, bestOf⟩
  · exact absurd empty (fiveOf_ne_nil hand)
  · rw [result]
    apply six.optimal_of_bestOf bestOf
    have points := points_of_noKing (noKing _ bestOf.mem) kingChangCard
    rwa [plainType _ bestOf.mem, bestOf.type_eq] at points

/-! ## One joker -/

/-- The hand chosen so far with its king cards, or nothing at all. -/
def ChosenOne (behind : List (List ℕ)) (state : Best × Bool) : Prop :=
  behind = [] ∧ state.1.maxType = 0 ∧ state.2 = true ∨
    state.2 = false ∧ BestOf behind state.1.maxType state.1.cardData ∧ Points state.1

theorem ChosenOne.bound {state : Best × Bool} (chosen : ChosenOne behind state) :
    ∀ other ∈ behind, handType true other ≤ state.1.maxType := by
  rcases chosen with ⟨rfl, -, -⟩ | ⟨-, bestOf, -⟩
  · exact fun other inside => absurd inside List.not_mem_nil
  · exact bestOf.bound

theorem ChosenOne.take {state : Best × Bool} (chosen : ChosenOne behind state) (least : state.1.maxType ≤ type)
    (same : type = handType true five) {kingChangCard : ℕ × ℕ} (points : Points ⟨type, five, kingChangCard⟩) :
    ChosenOne (behind ++ [five]) (⟨type, five, kingChangCard⟩, false) := by
  refine .inr ⟨rfl, ?_, points⟩
  rw [same]
  exact bestOf_take fun other inside => (chosen.bound other inside).trans (same ▸ least)

theorem ChosenOne.keep {state : Best × Bool} (chosen : ChosenOne behind state) (some_ : state.2 = false)
    (less : handType true five ≤ state.1.maxType) : ChosenOne (behind ++ [five]) state := by
  rcases chosen with ⟨-, -, first⟩ | ⟨-, bestOf, points⟩
  · exact absurd (some_.symm.trans first) Bool.false_ne_true
  · exact .inr ⟨some_, bestOf.keep less, points⟩

theorem ChosenOne.step {state : Best × Bool} (chosen : ChosenOne behind state) (hand : Hand true 5 five)
    (few : five.countP isKing ≤ 1) : ChosenOne (behind ++ [five]) (chooseOneKing true state five) := by
  have types := handType_true hand.nodup
  obtain ⟨best, firsChoose⟩ := state
  rw [chooseOneKing]
  dsimp only
  obtain none_ | one : five.countP isKing = 0 ∨ five.countP isKing = 1 := by omega
  · rw [if_pos none_] at types
    rw [if_neg (by omega)]
    have points := points_of_noKing none_ (0, 0)
    have equal (least : best.maxType ≤ getCardType five) (more : ¬best.maxType < getCardType five) :
        getCardType five = best.maxType := le_antisymm (Nat.le_of_not_lt more) least
    split_ifs with more first wins
    · exact chosen.take more.le types.symm points
    · rcases chosen with ⟨rfl, zero, start⟩ | ⟨later, -⟩
      · have same := equal (zero.le.trans (Nat.zero_le _)) more
        exact ChosenOne.take (.inl ⟨rfl, zero, start⟩) le_rfl (same.symm.trans types.symm) (same ▸ points)
      · exact absurd (later.symm.trans first) Bool.false_ne_true
    · have least := handType_le_of_compareCard wins
      rcases chosen with ⟨-, -, start⟩ | ⟨later, bestOf, old⟩
      · exact absurd start first
      · have same := equal (by rwa [bestOf.type_eq, types] at least) more
        exact ChosenOne.take (.inr ⟨later, bestOf, old⟩) le_rfl (same.symm.trans types.symm) (same ▸ points)
    · obtain rfl : firsChoose = false := Bool.eq_false_of_not_eq_true first
      exact chosen.keep rfl (types.le.trans (Nat.le_of_not_lt more))
  · rw [if_neg (by omega), if_pos one] at types
    rw [if_pos one]
    have points (kingChangCard : ℕ × ℕ) := hand.points_of_one one kingChangCard
    split_ifs with more wins
    · exact chosen.take more.le types.symm (points _)
    · exact chosen.take wins.1.ge types.symm (points _)
    · rcases chosen with ⟨-, zero, -⟩ | chosen
      · have some_ := hand.searchMaxTypeOne_pos one
        dsimp only at zero
        omega
      · exact ChosenOne.keep (.inr chosen) chosen.1 (types.le.trans (Nat.le_of_not_lt more))

theorem Hand.optimal_oneKing (six : Hand true 6 hand) (one : hand.countP isKing = 1) :
    Optimal hand (getCardTypeOneKingSix true hand) := by
  have chosen : ChosenOne (fiveOf hand)
      ((fiveOf hand).foldl (chooseOneKing true) (⟨0, [0, 0, 0, 0, 0], (0, 0)⟩, true)) :=
    Lib.foldl_invariant ChosenOne (.inl ⟨rfl, rfl, rfl⟩) fun _ _ five inside chosen =>
      chosen.step (six.of_mem_fiveOf inside) (one ▸ six.countP_five inside)
  rw [getCardTypeOneKingSix]
  rcases chosen with ⟨empty, -⟩ | ⟨-, bestOf, points⟩
  · exact absurd empty (fiveOf_ne_nil hand)
  · exact six.optimal_of_bestOf bestOf points

end H5Server.Bbqznn
