import H5Server.Bbqznn.Hands
import Mathlib.Data.List.ProdSigma
import Mathlib.Data.List.Sections
import Mathlib.Order.Lattice

/-! # What the jokers become

The searches run over all ranks, so they find the best points that a joker can give. Two jokers always give ten points
if they do not give five flowers.
-/

namespace H5Server.Bbqznn

variable {cards : List ℕ} {card : List ℕ}

/-! ## Ten points -/

theorem mem_ranks {rank : ℕ} : rank ∈ ranks ↔ 1 ≤ rank ∧ rank ≤ 13 := by
  rw [ranks, List.mem_map]
  constructor
  · rintro ⟨n, inside, rfl⟩
    have := List.mem_range.mp inside
    omega
  · rintro ⟨low, high⟩
    exact ⟨rank - 1, List.mem_range.mpr (by omega), by omega⟩

theorem value_of_rank : ∀ rank ∈ ranks, 0 < getCardValue rank := by decide

/-- A rank stands for the same value as the card that is noted for it. -/
theorem value_of_changed : ∀ rank ∈ ranks, getCardValue (48 + rank) = getCardValue rank := by decide

/-- A rank that fills some points up to tens. -/
def filler (points : ℕ) : ℕ := 10 - points % 10

theorem filler_mem (points : ℕ) : filler points ∈ ranks := by
  rw [mem_ranks, filler]
  omega

theorem logicValue_of_le : ∀ rank ∈ List.range 11, getLogicValue rank = rank := by decide

theorem filler_tens (points : ℕ) : (getLogicValue (filler points) + points) % 10 = 0 := by
  rw [logicValue_of_le _ (List.mem_range.mpr (by rw [filler]; omega)), filler]
  omega

/-- Five cards make tens when three of them do. -/
theorem hasNiu_iff (five : cards.length = 5) :
    HasNiu cards ↔ ∃ a b c d e, cards.Perm [a, b, c, d, e] ∧
      (getLogicValue c + getLogicValue d + getLogicValue e) % 10 = 0 := by
  constructor
  · rintro ⟨pair, inside, tens⟩
    obtain ⟨sub, two⟩ := Lib.mem_choices.mp inside
    obtain ⟨chosen, part, rfl⟩ := List.sublist_map_iff.mp sub
    obtain ⟨rest, whole⟩ := part.exists_perm_append
    rw [List.length_map] at two
    have three := whole.length_eq
    rw [List.length_append, five, two] at three
    obtain ⟨a, b, rfl⟩ := List.length_eq_two.mp two
    obtain ⟨c, d, e, rfl⟩ := List.length_eq_three.mp (by omega : rest.length = 3)
    refine ⟨a, b, c, d, e, whole, ?_⟩
    have sum := (whole.map getLogicValue).sum_eq
    simp only [List.cons_append, List.nil_append, List.map_cons, List.map_nil, List.sum_cons, List.sum_nil] at sum tens
    omega
  · rintro ⟨a, b, c, d, e, perm, tens⟩
    have here : HasNiu [a, b, c, d, e] := by
      refine ⟨[getLogicValue a, getLogicValue b], Lib.mem_choices.mpr ⟨?_, rfl⟩, ?_⟩
      · exact ((List.nil_sublist _).cons_cons _).cons_cons _
      · simp only [List.map_cons, List.map_nil, List.sum_cons, List.sum_nil]
        omega
    exact (hasNiu_congr (perm.map getLogicValue)).mpr here

theorem isOtherNiu_eq_ten_iff (values : ∀ card ∈ cards, 0 < getCardValue card) (five : cards.length = 5) :
    isOtherNiu cards = ctNiuniu ↔ ∃ a b c d e, cards.Perm [a, b, c, d, e] ∧
      (getLogicValue a + getLogicValue b) % 10 = 0 ∧
      (getLogicValue c + getLogicValue d + getLogicValue e) % 10 = 0 := by
  have sums (a b c d e : ℕ) (perm : cards.Perm [a, b, c, d, e]) : (cards.map getLogicValue).sum =
      getLogicValue a + getLogicValue b + (getLogicValue c + getLogicValue d + getLogicValue e) := by
    rw [(perm.map getLogicValue).sum_eq]
    simp only [List.map_cons, List.map_nil, List.sum_cons, List.sum_nil]
    omega
  rw [isOtherNiu_eq values]
  constructor
  · intro ten
    split_ifs at ten with niu
    obtain ⟨a, b, c, d, e, perm, tens⟩ := (hasNiu_iff five).mp niu
    refine ⟨a, b, c, d, e, perm, ?_, tens⟩
    rw [points, sums a b c d e perm, ctNiuniu] at ten
    split_ifs at ten <;> omega
  · rintro ⟨a, b, c, d, e, perm, pair, tens⟩
    rw [if_pos ((hasNiu_iff five).mpr ⟨a, b, c, d, e, perm, tens⟩), points, sums a b c d e perm, if_pos (by omega)]

/-! ## One joker -/

theorem foldl_searchRanks_chosen (wanted changcard : ℕ) (list : List ℕ) :
    list.foldl (fun (found, chosen) rank =>
      let type := isOtherNiu (card.set 0 rank)
      if wanted = type ∧ type > found.1 then ((type, 48 + rank), true) else (found, chosen))
      (((wanted, changcard) : Found ℕ), true) = ((wanted, changcard), true) := by
  induction list with
  | nil => rfl
  | cons rank list ih =>
    rw [List.foldl_cons]
    dsimp only
    rw [if_neg (by omega)]
    exact ih

/-- The inner loop finds a better rank with the wanted points, if there is one. -/
theorem searchRanks_spec (wanted : ℕ) (card : List ℕ) (found : Found ℕ) :
    (∃ rank ∈ ranks, isOtherNiu (card.set 0 rank) = wanted ∧ found.1 < wanted ∧
      searchRanks wanted card found = ((wanted, 48 + rank), true)) ∨
    (∀ rank ∈ ranks, isOtherNiu (card.set 0 rank) = wanted → wanted ≤ found.1) ∧
      searchRanks wanted card found = (found, false) := by
  rw [searchRanks]
  induction ranks with
  | nil => exact .inr ⟨fun rank inside => absurd inside List.not_mem_nil, rfl⟩
  | cons rank list ih =>
    rw [List.foldl_cons]
    dsimp only
    split_ifs with better
    · refine .inl ⟨rank, List.mem_cons_self, better.1.symm, better.1 ▸ better.2, ?_⟩
      rw [← better.1]
      exact foldl_searchRanks_chosen wanted _ list
    · rcases ih with ⟨rank', inside, same, less, result⟩ | ⟨none_, result⟩
      · exact .inl ⟨rank', List.mem_cons_of_mem _ inside, same, less, result⟩
      · refine .inr ⟨List.forall_mem_cons.mpr ⟨fun same => ?_, none_⟩, result⟩
        omega

/-- The outer loop ends with the best points, and says which rank has them. -/
theorem searchTypes_spec (card : List ℕ) (n : ℕ) (found : Found ℕ)
    (bound : ∀ rank ∈ ranks, isOtherNiu (card.set 0 rank) < n ∨ isOtherNiu (card.set 0 rank) ≤ found.1) :
    found.1 ≤ (searchTypes card (List.range n).reverse found).1 ∧
    (∀ rank ∈ ranks, isOtherNiu (card.set 0 rank) ≤ (searchTypes card (List.range n).reverse found).1) ∧
    (searchTypes card (List.range n).reverse found = found ∨
      ∃ rank ∈ ranks, searchTypes card (List.range n).reverse found = (isOtherNiu (card.set 0 rank), 48 + rank)) := by
  induction n with
  | zero => exact ⟨le_rfl, fun rank inside => (bound rank inside).resolve_left (Nat.not_lt_zero _), .inl rfl⟩
  | succ n ih =>
    rw [List.range_succ, List.reverse_concat, searchTypes]
    rcases searchRanks_spec n card found with ⟨rank, inside, same, less, result⟩ | ⟨none_, result⟩
    · rw [result]
      dsimp only
      rw [if_pos rfl]
      refine ⟨less.le, fun other present => ?_, .inr ⟨rank, inside, by rw [same]⟩⟩
      rcases bound other present with low | low
      · exact Nat.le_of_lt_succ low
      · exact low.trans less.le
    · rw [result]
      dsimp only
      rw [if_neg Bool.false_ne_true]
      apply ih
      intro rank inside
      rcases bound rank inside with low | low
      · rcases eq_or_ne (isOtherNiu (card.set 0 rank)) n with same | other
        · exact .inr (same.le.trans (none_ rank inside same))
        · exact .inl (lt_of_le_of_ne (Nat.le_of_lt_succ low) other)
      · exact .inr low

/-! ## Two jokers -/

/-- A loop that keeps the last of what it looks for. -/
theorem foldl_last {α β : Type*} (p : α → Prop) [DecidablePred p] (f : α → β) (list : List α) (found : β) :
    (∃ a ∈ list, p a ∧ list.foldl (fun found a => if p a then f a else found) found = f a) ∨
    (∀ a ∈ list, ¬p a) ∧ list.foldl (fun found a => if p a then f a else found) found = found := by
  induction list generalizing found with
  | nil => exact .inr ⟨fun a inside => absurd inside List.not_mem_nil, rfl⟩
  | cons a list ih =>
    rw [List.foldl_cons]
    rcases ih (if p a then f a else found) with ⟨b, inside, holds, result⟩ | ⟨none_, result⟩
    · exact .inl ⟨b, List.mem_cons_of_mem _ inside, holds, result⟩
    · split_ifs at result with holds
      · exact .inl ⟨a, List.mem_cons_self, holds, by rw [if_pos holds, result]⟩
      · exact .inr ⟨List.forall_mem_cons.mpr ⟨holds, none_⟩, by rw [if_neg holds, result]⟩

theorem searchSmall_spec (card : List ℕ) (found : Found (ℕ × ℕ)) :
    (∃ rank ∈ ranks, isOtherNiu (card.set 1 rank) = ctNiuniu ∧
      searchSmall card found = (ctNiuniu, (48 + rank, 0))) ∨
    (∀ rank ∈ ranks, isOtherNiu (card.set 1 rank) ≠ ctNiuniu) ∧ searchSmall card found = found :=
  foldl_last (fun rank => isOtherNiu (card.set 1 rank) = ctNiuniu) (fun rank => (ctNiuniu, (48 + rank, 0))) ranks found

theorem searchBoth_spec (card : List ℕ) (found : Found (ℕ × ℕ)) :
    (∃ small ∈ ranks, ∃ big ∈ ranks, isOtherNiu ((card.set 1 small).set 0 big) = ctNiuniu ∧
      searchBoth card found = (ctNiuniu, (48 + small, 48 + big))) ∨
    ∀ small ∈ ranks, ∀ big ∈ ranks, isOtherNiu ((card.set 1 small).set 0 big) ≠ ctNiuniu := by
  rcases foldl_last (fun rank : ℕ × ℕ => isOtherNiu ((card.set 1 rank.1).set 0 rank.2) = ctNiuniu)
    (fun rank => (ctNiuniu, (48 + rank.1, 48 + rank.2))) (ranks.product ranks) found with
    ⟨⟨small, big⟩, inside, ten, result⟩ | ⟨none_, -⟩
  · obtain ⟨first, second⟩ := List.mem_product.mp inside
    exact .inl ⟨small, first, big, second, ten, result⟩
  · exact .inr fun small first big second => none_ (small, big) (List.mem_product.mpr ⟨first, second⟩)

/-! ## Hands with jokers -/

/-- The cards that are no jokers. -/
def plain (cards : List ℕ) : List ℕ := cards.filter fun card => ¬isKing card

theorem mem_plain {card : ℕ} : card ∈ plain cards ↔ card ∈ cards ∧ isKing card = false := by
  simp [plain]

theorem kings_append_plain (cards : List ℕ) : (cards.filter isKing ++ plain cards).Perm cards := by
  have parted := List.filter_append_perm isKing cards
  rw [plain]
  simpa using parted

variable {n : ℕ}

theorem exists_king (one : cards.countP isKing = 1) : ∃ king, isKing king = true ∧ cards.Perm (king :: plain cards) := by
  rw [List.countP_eq_length_filter] at one
  obtain ⟨king, only⟩ := List.length_eq_one_iff.mp one
  have here : king ∈ cards.filter isKing := by rw [only]; exact List.mem_singleton_self king
  have parted := kings_append_plain cards
  rw [only] at parted
  exact ⟨king, (List.mem_filter.mp here).2, parted.symm⟩

/-- A hand with two jokers has both. -/
theorem both_kings (nodup : cards.Nodup) (two : cards.countP isKing = 2) :
    cards.Perm (0x4F :: 0x4E :: plain cards) := by
  rw [List.countP_eq_length_filter] at two
  have sub : (cards.filter isKing).Subperm [0x4F, 0x4E] := by
    apply List.subperm_of_subset (nodup.filter _)
    intro card inside
    have king := (List.mem_filter.mp inside).2
    rw [isKing, decide_eq_true_eq] at king
    simpa [or_comm] using king
  have perm := sub.perm_of_length_le (by rw [two]; exact le_rfl)
  exact (kings_append_plain cards).symm.trans (perm.append_right _)

theorem Hand.value_plain (hand : Hand true n cards) : ∀ card ∈ plain cards, getCardValue card ≤ 13 := by
  intro card inside
  obtain ⟨present, other⟩ := mem_plain.mp inside
  have low := (value_of_mem card (hand.mem present)).2.2
  rw [other] at low
  exact Nat.le_of_not_lt fun high => Bool.false_ne_true (low.mpr high)

theorem value_king {king : ℕ} (isKing_ : isKing king = true) : 13 < getCardValue king := by
  rw [isKing, decide_eq_true_eq] at isKing_
  rcases isKing_ with rfl | rfl <;> decide

theorem sortKey_le_king {card king : ℕ} (low : getCardValue card ≤ 13) (isKing_ : isKing king = true) :
    sortKey card ≤ sortKey king :=
  Prod.Lex.toLex_le_toLex.mpr (.inl (low.trans_lt (value_king isKing_)))

/-- The sort puts a joker in front. -/
theorem Hand.sort_one (hand : Hand true n cards) {king : ℕ} (isKing_ : isKing king = true)
    (perm : cards.Perm (king :: plain cards)) : sortCardList cards = king :: sortCardList (plain cards) := by
  apply sortCardList_eq (((sortCardList_perm _).cons king).trans perm.symm)
  refine List.pairwise_cons.mpr ⟨fun card inside => ?_, sortCardList_sorted _⟩
  exact sortKey_le_king (hand.value_plain card ((sortCardList_perm _).subset inside)) isKing_

theorem Hand.sort_two (hand : Hand true n cards) (perm : cards.Perm (0x4F :: 0x4E :: plain cards)) :
    sortCardList cards = 0x4F :: 0x4E :: sortCardList (plain cards) := by
  apply sortCardList_eq ((((sortCardList_perm _).cons _).cons _).trans perm.symm)
  have low (card : ℕ) (inside : card ∈ sortCardList (plain cards)) : getCardValue card ≤ 13 :=
    hand.value_plain card ((sortCardList_perm _).subset inside)
  refine List.pairwise_cons.mpr ⟨List.forall_mem_cons.mpr ⟨by decide, fun card inside => ?_⟩,
    List.pairwise_cons.mpr ⟨fun card inside => ?_, sortCardList_sorted _⟩⟩
  · exact sortKey_le_king (low card inside) (by decide)
  · exact sortKey_le_king (low card inside) (by decide)

/-! ## What the searches find -/

/-- The types of a hand with jokers. -/
theorem Hand.searchMaxTypeOne_cases (hand : Hand true 5 cards) (one : cards.countP isKing = 1) :
    isBomb cards = true ∧ searchMaxTypeOne cards = (ctBombNiu, 0) ∨
    isBomb cards = false ∧ isGoldenBull cards = true ∧ searchMaxTypeOne cards = (ctWuhuaNiu, 0) ∨
    isBomb cards = false ∧ isGoldenBull cards = false ∧
      isOtherNiu cards ≤ (searchMaxTypeOne cards).1 ∧
      (∀ rank ∈ ranks, isOtherNiu (rank :: plain cards) ≤ (searchMaxTypeOne cards).1) ∧
      (searchMaxTypeOne cards = (isOtherNiu cards, 0) ∨
        ∃ rank ∈ ranks, searchMaxTypeOne cards = (isOtherNiu (rank :: plain cards), 48 + rank)) := by
  rw [searchMaxTypeOne]
  split_ifs with bomb golden
  · exact .inl ⟨bomb, rfl⟩
  · exact .inr (.inl ⟨Bool.eq_false_of_not_eq_true bomb, golden, rfl⟩)
  · refine .inr (.inr ⟨Bool.eq_false_of_not_eq_true bomb, Bool.eq_false_of_not_eq_true golden, ?_⟩)
    obtain ⟨king, isKing_, perm⟩ := exists_king one
    rw [hand.sort_one isKing_ perm]
    have still : isOtherNiu (king :: sortCardList (plain cards)) = isOtherNiu cards :=
      isOtherNiu_of_perm hand.values (((sortCardList_perm _).cons king).trans perm.symm)
    have values (rank : ℕ) (inside : rank ∈ ranks) : ∀ card ∈ rank :: plain cards, 0 < getCardValue card :=
      List.forall_mem_cons.mpr ⟨value_of_rank rank inside, fun card here => hand.values card (mem_plain.mp here).1⟩
    have changed (rank : ℕ) (inside : rank ∈ ranks) :
        isOtherNiu ((king :: sortCardList (plain cards)).set 0 rank) = isOtherNiu (rank :: plain cards) :=
      isOtherNiu_of_perm (values rank inside) ((sortCardList_perm _).cons rank)
    obtain ⟨low, all, result⟩ := searchTypes_spec (king :: sortCardList (plain cards)) 11
      (isOtherNiu (king :: sortCardList (plain cards)), 0) (fun rank inside => .inl (by
        rw [changed rank inside]
        exact Nat.lt_succ_of_le (isOtherNiu_le (values rank inside))))
    dsimp only at low all result ⊢
    refine ⟨still ▸ low, fun rank inside => changed rank inside ▸ all rank inside, ?_⟩
    rcases result with result | ⟨rank, inside, result⟩
    · exact .inl (by rw [result, still])
    · exact .inr ⟨rank, inside, by rw [result, changed rank inside]⟩

/-- A joker alone gives some points. -/
theorem Hand.searchMaxTypeOne_pos (hand : Hand true 5 cards) (one : cards.countP isKing = 1) :
    0 < (searchMaxTypeOne cards).1 := by
  rcases hand.searchMaxTypeOne_cases one with ⟨-, result⟩ | ⟨-, -, result⟩ | ⟨-, -, -, all, -⟩
  · rw [result]
    decide
  · rw [result]
    decide
  · obtain ⟨king, isKing_, perm⟩ := exists_king one
    have four := perm.length_eq
    rw [hand.length, List.length_cons] at four
    have values : ∀ card ∈ plain cards, 0 < getCardValue card := fun card here => hand.values card (mem_plain.mp here).1
    match plain cards, four, values, all with
    | [a, b, c, d], _, values, all =>
      have inside := filler_mem (getLogicValue a + getLogicValue b)
      apply lt_of_lt_of_le _ (all _ inside)
      have niu : HasNiu [filler (getLogicValue a + getLogicValue b), a, b, c, d] := by
        rw [hasNiu_iff rfl]
        refine ⟨c, d, filler (getLogicValue a + getLogicValue b), a, b, ?_, ?_⟩
        · exact @List.perm_append_comm _ [_, a, b] [c, d]
        · have tens := filler_tens (getLogicValue a + getLogicValue b)
          omega
      rw [isOtherNiu_eq (List.forall_mem_cons.mpr ⟨value_of_rank _ inside, values⟩), if_pos niu, points]
      split_ifs <;> omega

/-- All that two jokers can become: nothing, the small one, or both. -/
theorem Hand.searchMaxTypeTwo_cases (hand : Hand true 5 cards) (two : cards.countP isKing = 2) :
    (∀ card ∈ plain cards, 10 ≤ getCardValue card) ∧ searchMaxTypeTwo cards = (ctWuhuaNiu, (0, 0)) ∨
    ¬(∀ card ∈ plain cards, 10 ≤ getCardValue card) ∧
      (isOtherNiu cards = ctNiuniu ∧ searchMaxTypeTwo cards = (ctNiuniu, (0, 0)) ∨
      (∃ small ∈ ranks, isOtherNiu (0x4F :: small :: plain cards) = ctNiuniu ∧
        searchMaxTypeTwo cards = (ctNiuniu, (48 + small, 0))) ∨
      isOtherNiu cards ≠ ctNiuniu ∧ (∀ small ∈ ranks, isOtherNiu (0x4F :: small :: plain cards) ≠ ctNiuniu) ∧
        ∃ small ∈ ranks, ∃ big ∈ ranks, isOtherNiu (big :: small :: plain cards) = ctNiuniu ∧
          searchMaxTypeTwo cards = (ctNiuniu, (48 + small, 48 + big))) := by
  have perm := both_kings hand.nodup two
  have three := perm.length_eq
  rw [hand.length, List.length_cons, List.length_cons] at three
  have values : ∀ card ∈ plain cards, 0 < getCardValue card := fun card here => hand.values card (mem_plain.mp here).1
  have order : (sortCardList (plain cards)).Perm (plain cards) := sortCardList_perm _
  have still : isOtherNiu (0x4F :: 0x4E :: sortCardList (plain cards)) = isOtherNiu cards :=
    isOtherNiu_of_perm hand.values (((order.cons _).cons _).trans perm.symm)
  have one (small : ℕ) (inside : small ∈ ranks) :
      isOtherNiu ((0x4F :: 0x4E :: sortCardList (plain cards)).set 1 small) =
        isOtherNiu (0x4F :: small :: plain cards) := by
    apply isOtherNiu_of_perm _ ((order.cons _).cons _)
    exact List.forall_mem_cons.mpr ⟨by decide, List.forall_mem_cons.mpr ⟨value_of_rank small inside, values⟩⟩
  have both (small : ℕ) (inside : small ∈ ranks) (big : ℕ) (inside' : big ∈ ranks) :
      isOtherNiu (((0x4F :: 0x4E :: sortCardList (plain cards)).set 1 small).set 0 big) =
        isOtherNiu (big :: small :: plain cards) := by
    apply isOtherNiu_of_perm _ ((order.cons _).cons _)
    exact List.forall_mem_cons.mpr
      ⟨value_of_rank big inside', List.forall_mem_cons.mpr ⟨value_of_rank small inside, values⟩⟩
  have flowers : ((0x4F :: 0x4E :: sortCardList (plain cards)).drop 2).countP (fun card => 10 ≤ getCardValue card) = 3 ↔
      ∀ card ∈ plain cards, 10 ≤ getCardValue card := by
    rw [List.drop_succ_cons, List.drop_succ_cons, List.drop_zero, order.countP_eq,
      show 3 = (plain cards).length by omega, List.countP_eq_length]
    simp only [decide_eq_true_eq]
  rw [searchMaxTypeTwo, hand.sort_two perm]
  simp only [flowers, still]
  split_ifs with all unchanged found
  · exact .inl ⟨all, rfl⟩
  · exact .inr ⟨all, .inl ⟨unchanged, by rw [unchanged]⟩⟩
  all_goals
    refine .inr ⟨all, .inr ?_⟩
    rcases searchSmall_spec (0x4F :: 0x4E :: sortCardList (plain cards)) (isOtherNiu cards, (0, 0)) with
      ⟨small, inside, ten, result⟩ | ⟨none_, result⟩
  · exact .inl ⟨small, inside, one small inside ▸ ten, result⟩
  · exact absurd (by rw [result] at found; exact found) unchanged
  · exact absurd (by rw [result]) found
  · refine .inr ⟨unchanged, fun small inside => one small inside ▸ none_ small inside, ?_⟩
    rw [result]
    rcases searchBoth_spec (0x4F :: 0x4E :: sortCardList (plain cards)) (isOtherNiu cards, (0, 0)) with
      ⟨small, first, big, second, ten, result⟩ | none_
    · exact ⟨small, first, big, second, both small first big second ▸ ten, result⟩
    · obtain ⟨x, y, z, shape⟩ := List.length_eq_three.mp (show (plain cards).length = 3 by omega)
      rw [shape] at values both none_
      · -- one joker fills two of the cards, the other one fills the third
        have first := filler_mem (getLogicValue z)
        have second := filler_mem (getLogicValue x + getLogicValue y)
        have tens := filler_tens (getLogicValue z)
        have tens' := filler_tens (getLogicValue x + getLogicValue y)
        refine absurd ?_ (none_ _ first _ second)
        rw [both _ first _ second, isOtherNiu_eq_ten_iff _ rfl]
        · refine ⟨filler (getLogicValue z), z, filler (getLogicValue x + getLogicValue y), x, y, ?_, tens, by omega⟩
          exact (List.Perm.swap _ _ _).trans (List.Perm.cons _ (@List.perm_append_comm _ [_, x, y] [z]))
        · exact List.forall_mem_cons.mpr
            ⟨value_of_rank _ second, List.forall_mem_cons.mpr ⟨value_of_rank _ first, values⟩⟩

end H5Server.Bbqznn
