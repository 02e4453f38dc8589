import H5Server.Erqs.Win

/-! # Ready hands

`findTingOptInfos` tries every tile with the win check. Up to four copies this finds the tiles that complete the hand;
a fifth copy is offered where the check leaves five honours out or lets a sequence take one of five suit tiles.
-/

namespace H5Server.Erqs

open Lib

/-! ## What is waited for -/

/-- One more tile. -/
def Table.add (table : Table) (card : Int) : Table :=
  table.set (getCardIdx card) (table.get (getCardIdx card) + 1)

/-- A tile that is not used up and completes the table. -/
def Waits (table : Table) (card : Int) : Prop :=
  Plain card ∧ table.get (getCardIdx card) < 4 ∧ Wins (table.add card)

/-- The entries of a discard list the tiles that are waited for. -/
structure ListsWaits (infos : List TingOptInfo) (outCard : Int) (table : Table) : Prop where
  entry : (∃ info ∈ infos, info.outCard = outCard) ↔ ∃ card, Waits table card
  tiles : ∀ info ∈ infos, info.outCard = outCard → ∀ card, card ∈ info.tingInfos ↔ Waits table card

/-- The ready-hand options of a hand: of the hand itself, or of the hand without one of its tiles. -/
structure ListsTing (cards : List Int) (infos : List TingOptInfo) : Prop where
  single : (infos.map (·.outCard)).Nodup
  whole : cards.length % 3 = 1 →
    (∀ info ∈ infos, info.outCard = gameInvalidCard) ∧ ListsWaits infos gameInvalidCard (cardsToTable cards)
  discard : cards.length % 3 = 2 → (∀ info ∈ infos, info.outCard ∈ cards)
    ∧ ∀ card ∈ cards, ListsWaits infos card (cardsToTable (cards.erase card))

/-- What the tiles of a hand without the discard can be. -/
def IsBase (cards : List Int) (table : Table) : Prop :=
  cards.length % 3 = 1 ∧ table = cardsToTable cards
    ∨ cards.length % 3 = 2 ∧ ∃ card ∈ cards, table = cardsToTable (cards.erase card)

/-- Four honours are left out and the rest are triplets and sequences. -/
def FifthHonour (table : Table) (card : Int) : Prop :=
  0x31 ≤ card ∧ ∃ threes : List ThreeCard, (∀ three ∈ threes, IsTriplet three ∨ IsSequence three)
    ∧ cardsToTable (threes.flatMap (·.cards)) = table.set (getCardIdx card) 0

/-- With a fifth suit tile there is a standard form in which a sequence has one of the five behind its first tile. -/
def FifthSuit (table : Table) (card : Int) : Prop :=
  card ≤ 0x29 ∧ ∃ d, Decomposes d (table.add card) ∧ ∃ three ∈ d.threes, three.type = .straight ∧ card ∈ three.cards.tail

/-- A fifth copy is taken for a winning tile. -/
def FifthWins (table : Table) (card : Int) : Prop :=
  Plain card ∧ table.get (getCardIdx card) = 4 ∧ (FifthHonour table card ∨ FifthSuit table card)

/-! ## A fifth copy -/

variable {table : Table} {card : Int} {d : ComposeCard}

theorem Plain.idx (plain : Plain card) : 1 ≤ getCardIdx card ∧ getCardIdx card < 35 ∧ getCardByIdx (getCardIdx card) = card := by
  obtain ⟨idx, low, high, rfl⟩ := plain_iff.mp plain
  rw [(getCardByIdx_valid low (by rw [tableSize]; omega)).2]
  exact ⟨low, high, rfl⟩

theorem get_add (table : Table) (card : Int) (i : ℕ) :
    (table.add card).get i = table.get i + if getCardIdx card = i then 1 else 0 := by
  rw [Table.add]
  rcases eq_or_ne (getCardIdx card) i with rfl | other
  · rw [Table.get_set_self _ _ (getCardIdx_lt card), if_pos rfl]
  · rw [Table.get_set_of_ne _ _ other, if_neg other, Nat.add_zero]

theorem suit_or_honour (plain : Plain card) :
    card ≤ 0x29 ∧ getCardIdx card < 28 ∨ 0x31 ≤ card ∧ 28 ≤ getCardIdx card := by
  obtain ⟨idx, low, high, rfl⟩ := plain_iff.mp plain
  have all : ∀ i < 35, 1 ≤ i → (getCardByIdx i ≤ 0x29 ∧ i < 28 ∨ 0x31 ≤ getCardByIdx i ∧ 28 ≤ i) := by decide
  rw [(getCardByIdx_valid low (by rw [tableSize]; omega)).2]
  exact all idx high low

theorem Legal.sequence {three : ThreeCard} (legal : Legal three) (type : three.type = .straight) : IsSequence three :=
  legal.resolve_left fun ⟨other, _⟩ => nomatch type.symm.trans other

/-- A sequence has the tile behind its first one. -/
theorem mem_tail_iff (plain : Plain card) {three : ThreeCard} (sequence : IsSequence three) :
    card ∈ three.cards.tail ↔ three = straight (getCardIdx card - 1) ∨ three = straight (getCardIdx card - 2) := by
  obtain ⟨idx, opens, rfl⟩ := isSequence_iff.mp sequence
  obtain ⟨idx', low', high', rfl⟩ := plain_iff.mp plain
  have all : ∀ i ≤ 25, 1 ≤ i ∧ i % 9 ≠ 0 ∧ i % 9 ≠ 8 →
      getCardByIdx i + 1 = getCardByIdx (i + 1) ∧ getCardByIdx i + 2 = getCardByIdx (i + 2) := by decide
  obtain ⟨second, third⟩ := all idx opens.2.1 ⟨opens.1, opens.2.2⟩
  have low := opens.1
  have high := opens.2.1
  have size : tableSize = 43 := rfl
  rw [(getCardByIdx_valid low' (by omega)).2, straight_inj low (by omega) (by omega), straight_inj low (by omega) (by omega)]
  simp only [straight, List.tail_cons, List.mem_cons, List.not_mem_nil, or_false, second, third]
  rw [getCardByIdx_inj low' (by omega) (by omega), getCardByIdx_inj low' (by omega) (by omega)]
  omega

theorem noFlower_add (plain : Plain card) : NoFlower (table.add card) ↔ NoFlower table := by
  refine forall_congr' fun k => imp_congr_right fun below => ?_
  have := plain.idx
  rw [get_add, if_neg (by omega), Nat.add_zero]

theorem reads_fifth_suit (plain : Plain card) (four : ∀ i, table.get i ≤ 4) (suit : getCardIdx card < 28)
    (full : table.get (getCardIdx card) = 4) (placeholder : table.get 0 = 0) (none_ : NoFlower table)
    (pair : (table.add card).counts.sum % 3 = 2) :
    Reads (table.add card) d ↔ Decomposes d (table.add card)
      ∧ ∃ three ∈ d.threes, three.type = .straight ∧ card ∈ three.cards.tail := by
  obtain ⟨low, high, -⟩ := plain.idx
  have here : (table.add card).get (getCardIdx card) = 5 := by rw [get_add, if_pos rfl, full]
  have other {i : ℕ} (ne : getCardIdx card ≠ i) : (table.add card).get i ≤ 4 := by
    rw [get_add, if_neg ne]
    exact four i
  constructor
  · intro reads
    have zero : (table.add card).get 0 = 0 := by rw [get_add, if_neg (by omega), placeholder]
    refine ⟨reads.decomposes zero ((noFlower_add plain).mpr none_) (fun i low _ => other (by omega)) pair, ?_⟩
    obtain ⟨all, few⟩ := reads.suits _ low suit
    rw [here, reach] at all
    have either : 0 < (d.melds (getCardIdx card - 1)).runs ∨ 0 < (d.melds (getCardIdx card - 2)).runs := by omega
    rcases either with before | before
    · have present : straight (getCardIdx card - 1) ∈ d.threes := List.count_pos_iff.mp before
      exact ⟨_, present, rfl, (mem_tail_iff plain ((reads.legal _ present).sequence rfl)).mpr (.inl rfl)⟩
    · have present : straight (getCardIdx card - 2) ∈ d.threes := List.count_pos_iff.mp before
      exact ⟨_, present, rfl, (mem_tail_iff plain ((reads.legal _ present).sequence rfl)).mpr (.inr rfl)⟩
  · rintro ⟨decomposes, three, present, type, behind⟩
    have all {i : ℕ} (high : i < 35) := decomposes.get_eq (i := i) (by rw [tableSize]; omega)
    refine ⟨decomposes.three, decomposes.plain, fun i low high => ⟨all (by omega), ?_⟩, fun i low high => ?_⟩
    · have count := all (i := i) (by omega)
      rw [reach] at count
      rcases eq_or_ne (getCardIdx card) i with rfl | ne
      · rw [here] at count
        have some_ : 0 < (d.melds (getCardIdx card - 1)).runs ∨ 0 < (d.melds (getCardIdx card - 2)).runs := by
          rcases (mem_tail_iff plain (Legal.sequence (decomposes.three _ present) type)).mp behind with rfl | rfl
          · exact .inl (List.count_pos_iff.mpr present)
          · exact .inr (List.count_pos_iff.mpr present)
        omega
      · have few := other ne
        omega
    · exact .inl ⟨all high, other (by omega)⟩

theorem sum_set (table : Table) {i : ℕ} (bound : i < tableSize) (n : ℕ) :
    (table.set i n).counts.sum + table.get i = table.counts.sum + n := by
  have list (counts : List ℕ) (i : ℕ) (bound : i < counts.length) :
      (counts.set i n).sum + counts.getD i 0 = counts.sum + n := by
    induction counts generalizing i with
    | nil => exact absurd bound (Nat.not_lt_zero i)
    | cons count counts ih =>
      cases i with
      | zero =>
        rw [List.set_cons_zero, List.sum_cons, List.sum_cons, List.getD_cons_zero]
        omega
      | succ i =>
        have later := ih i (Nat.lt_of_succ_lt_succ bound)
        rw [List.set_cons_succ, List.sum_cons, List.sum_cons, List.getD_cons_succ]
        omega
  exact list table.counts i (table.size_eq ▸ bound)

theorem exists_reads_fifth_honour (plain : Plain card) (four : ∀ i, table.get i ≤ 4) (honour : 28 ≤ getCardIdx card)
    (full : table.get (getCardIdx card) = 4) (placeholder : table.get 0 = 0) (none_ : NoFlower table)
    (pair : (table.add card).counts.sum % 3 = 2) :
    (∃ d, Reads (table.add card) d) ↔ ∃ threes : List ThreeCard, (∀ three ∈ threes, IsTriplet three ∨ IsSequence three)
      ∧ cardsToTable (threes.flatMap (·.cards)) = table.set (getCardIdx card) 0 := by
  obtain ⟨low, high, -⟩ := plain.idx
  have here : (table.add card).get (getCardIdx card) = 5 := by rw [get_add, if_pos rfl, full]
  have other {i : ℕ} (ne : getCardIdx card ≠ i) : (table.add card).get i = table.get i := by rw [get_add, if_neg ne, Nat.add_zero]
  have bound := getCardIdx_lt card
  have zero : (table.add card).get 0 = 0 := by rw [other (by omega), placeholder]
  constructor
  · rintro ⟨d, reads⟩
    have tiles : cardsToTable d.tiles = table.set (getCardIdx card) 0 := by
      refine Table.ext_get fun i inside => ?_
      rw [reads.get_tiles zero ((noFlower_add plain).mpr none_) inside]
      rcases eq_or_ne (getCardIdx card) i with rfl | ne
      · rw [Table.get_set_self _ _ bound, here, if_pos ⟨honour, high, le_rfl⟩]
      · have few := four i
        rw [Table.get_set_of_ne _ _ ne, other ne, if_neg (by omega)]
    -- The number of the other tiles leaves no room for a pair.
    have size := sum_cardsToTable d.tiles
    have without := sum_set table bound 0
    have with_ := sum_set table bound (table.get (getCardIdx card) + 1)
    rw [tiles, length_tiles reads.legal] at size
    change (table.add card).counts.sum + _ = _ at with_
    have alone : d.eye = none := by
      cases eq : d.eye with
      | none => rfl
      | some pair_ =>
        rw [eq] at size
        change _ = _ + 2 * 1 at size
        omega
    rw [ComposeCard.tiles, alone, Option.toList_none, List.flatMap_nil, List.append_nil] at tiles
    exact ⟨d.threes, reads.legal, tiles⟩
  · rintro ⟨threes, legal, tiles⟩
    have noEye : ∀ tile, (⟨threes, none⟩ : ComposeCard).eye = some tile → Plain tile := by
      intro tile eye
      cases eye
    have all {i : ℕ} (inside : i < tableSize) :
        (table.set (getCardIdx card) 0).get i = reach (ComposeCard.melds ⟨threes, none⟩) i := by
      have counted := count_tiles legal noEye inside
      rw [ComposeCard.tiles, Option.toList_none, List.flatMap_nil, List.append_nil] at counted
      rw [← tiles, cardsToTable_get, counted]
      rfl
    have size : tableSize = 43 := rfl
    refine ⟨⟨threes, none⟩, legal, noEye, fun i low' high' => ?_, fun i low' high' => ?_⟩
    · have count := all (i := i) (by omega)
      have few := four i
      rw [Table.get_set_of_ne _ _ (by omega)] at count
      rw [other (by omega)]
      refine ⟨count, ?_⟩
      rw [reach] at count
      omega
    · have count := all (i := i) (by omega)
      rcases eq_or_ne (getCardIdx card) i with rfl | ne
      · obtain ⟨used, none_⟩ := reach_honour (d := ⟨threes, none⟩) legal low' high'
        rw [Table.get_set_self _ _ bound, used] at count
        refine .inr ⟨here.ge, ?_⟩
        generalize ComposeCard.melds ⟨threes, none⟩ (getCardIdx card) = m at *
        obtain ⟨triplets, runs, pairs⟩ := m
        simp only [Melds.used, Melds.mk.injEq] at *
        omega
      · rw [Table.get_set_of_ne _ _ ne] at count
        rw [other ne]
        exact .inl ⟨count, four i⟩

/-! ## One search -/

/-- A hand without the discard: no placeholder, at most four of each tile, one tile short of a winning hand. -/
structure Base (table : Table) : Prop where
  placeholder : table.get 0 = 0
  four : ∀ i, table.get i ≤ 4
  small : table.counts.sum ≤ 13
  short : table.counts.sum % 3 = 1

theorem sum_add (table : Table) (card : Int) : (table.add card).counts.sum = table.counts.sum + 1 := by
  have := sum_set table (getCardIdx_lt card) (table.get (getCardIdx card) + 1)
  rw [Table.add]
  omega

theorem FifthHonour.noFlower (honour : FifthHonour table card) (plain : Plain card) : NoFlower table := by
  obtain ⟨-, threes, legal, tiles⟩ := honour
  intro k below
  have inside : 35 + k < tableSize := by rw [tableSize]; omega
  have := plain.idx
  have noEye : ∀ tile, (⟨threes, none⟩ : ComposeCard).eye = some tile → Plain tile := by
    intro tile eye
    cases eye
  have counted := count_tiles legal noEye inside
  rw [ComposeCard.tiles, Option.toList_none, List.flatMap_nil, List.append_nil] at counted
  rw [← Table.get_set_of_ne table 0 (i := getCardIdx card) (by omega), ← tiles, cardsToTable_get, counted]
  exact reach_flower legal (hasMelds_melds legal noEye) (by omega) inside

/-- The check takes a tile that is waited for or a fifth copy. -/
theorem canHuTable_add_iff (base : Base table) (plain : Plain card) :
    (canHuTable (table.add card) []).1 = true ↔ Waits table card ∨ FifthWins table card := by
  have small : (table.add card).counts.sum ≤ 14 := by
    rw [sum_add]
    exact Nat.succ_le_succ base.small
  have pair : (table.add card).counts.sum % 3 = 2 := by
    have := base.short
    rw [sum_add]
    omega
  have at_ := plain.idx
  have few := base.four (getCardIdx card)
  rcases few.lt_or_eq with free | full
  · have four (i : ℕ) : (table.add card).get i ≤ 4 := by
      have := base.four i
      rw [get_add]
      split
      next same => rw [← same]; exact free
      next => omega
    rw [canHuTable_iff_wins (by rw [get_add, if_neg (by omega), base.placeholder]) four small pair]
    refine ⟨fun wins => .inl ⟨plain, free, wins⟩, ?_⟩
    rintro (⟨-, -, wins⟩ | ⟨-, full, -⟩)
    · exact wins
    · exact absurd full free.ne
  · have here : (table.add card).get (getCardIdx card) = 5 := by rw [get_add, if_pos rfl, full]
    have five (i : ℕ) : (table.add card).get i ≤ 5 := by
      have := base.four i
      rw [get_add]
      split <;> omega
    have odd : ¬isTableQiDui (table.add card) = true := by
      intro pairs
      have even := ((isTableQiDui_iff five small).mp pairs).2 _ (getCardIdx_lt card)
      rw [here] at even
      exact absurd even (by decide)
    have enough := fewSuits_of_sum_le small
    have read : (∃ s, Splits (table.add card) s) ↔ ∃ d, Reads (table.add card) d := by
      constructor
      · rintro ⟨s, splits⟩
        obtain ⟨-, d, -, has⟩ := splits.exists_mem enough
        exact ⟨d, splits.reads has⟩
      · rintro ⟨d, reads⟩
        exact ⟨_, reads.splits.1⟩
    have waits : ¬Waits table card := fun waits => absurd full waits.2.1.ne
    rw [canHuTable_iff enough, or_iff_left odd, read, or_iff_right waits, noFlower_add plain, FifthWins]
    rcases suit_or_honour plain with ⟨value, suit⟩ | ⟨value, honour⟩
    · have other : ¬FifthHonour table card := fun honour => by
        have := honour.1
        omega
      rw [or_iff_right other]
      constructor
      · rintro ⟨none_, d, reads⟩
        exact ⟨plain, full, value, d, (reads_fifth_suit plain base.four suit full base.placeholder none_ pair).mp reads⟩
      · rintro ⟨-, -, -, d, decomposes⟩
        have none_ := (noFlower_add plain).mp decomposes.1.noFlower
        exact ⟨none_, d, (reads_fifth_suit plain base.four suit full base.placeholder none_ pair).mpr decomposes⟩
    · have other : ¬FifthSuit table card := fun suit => by
        have := suit.1
        omega
      rw [or_iff_left other]
      constructor
      · rintro ⟨none_, reads⟩
        exact ⟨plain, full, value,
          (exists_reads_fifth_honour plain base.four honour full base.placeholder none_ pair).mp reads⟩
      · rintro ⟨-, -, fifth⟩
        have none_ := fifth.noFlower plain
        exact ⟨none_, (exists_reads_fifth_honour plain base.four honour full base.placeholder none_ pair).mpr fifth.2⟩

/-- The tiles that a search finds. -/
def found (table : Table) : List Int :=
  (List.range 34).filterMap fun k =>
    if (canHuTable (table.set (k + 1) (table.get (k + 1) + 1)) []).1 then some (getCardByIdx (k + 1)) else none

theorem mem_found (base : Base table) : card ∈ found table ↔ Waits table card ∨ FifthWins table card := by
  have add (k : ℕ) (below : k < 34) :
      table.set (k + 1) (table.get (k + 1) + 1) = table.add (getCardByIdx (k + 1)) := by
    rw [Table.add, (getCardByIdx_valid (by omega) (by rw [tableSize]; omega)).2]
  rw [found, List.mem_filterMap]
  constructor
  · rintro ⟨k, present, put⟩
    have below := List.mem_range.mp present
    rw [add k below] at put
    split at put
    next hu =>
      obtain rfl := Option.some.inj put
      exact (canHuTable_add_iff base (plain_iff.mpr ⟨k + 1, by omega, by omega, rfl⟩)).mp hu
    next => cases put
  · intro either
    have plain : Plain card := either.elim (·.1) (·.1)
    obtain ⟨idx, low, high, rfl⟩ := plain_iff.mp plain
    obtain ⟨k, rfl⟩ := Nat.exists_eq_add_of_le' low
    refine ⟨k, List.mem_range.mpr (by omega), ?_⟩
    rw [add k (by omega), if_pos ((canHuTable_add_iff base plain).mpr either)]

theorem searchTingInfo_eq (table : Table) (outCard : Int) :
    searchTingInfo table outCard = if found table = [] then [] else [⟨outCard, found table⟩] := by
  rw [searchTingInfo, ← found]
  simp only [List.isEmpty_iff]

/-- The search lists what is waited for unless a fifth copy is taken for a winning tile. -/
theorem listsWaits_searchTingInfo (base : Base table) (outCard : Int) :
    ListsWaits (searchTingInfo table outCard) outCard table ↔ ∀ card, ¬FifthWins table card := by
  rw [searchTingInfo_eq]
  constructor
  · intro lists card fifth
    have present := (mem_found base).mpr (.inr fifth)
    rw [if_neg (List.ne_nil_of_mem present)] at lists
    have waits := (lists.tiles _ (List.mem_singleton_self _) rfl card).mp present
    exact absurd fifth.2.1 waits.2.1.ne
  · intro none_
    have same (card : Int) : card ∈ found table ↔ Waits table card := (mem_found base).trans (or_iff_left (none_ card))
    split
    next empty =>
      refine ⟨iff_of_false (by simp) ?_, nofun⟩
      rintro ⟨card, waits⟩
      rw [← same, empty] at waits
      exact absurd waits List.not_mem_nil
    next some_ =>
      obtain ⟨card, present⟩ := List.exists_mem_of_ne_nil _ some_
      refine ⟨iff_of_true ⟨_, List.mem_singleton_self _, rfl⟩ ⟨card, (same card).mp present⟩, fun info inside _ => ?_⟩
      rw [List.mem_singleton.mp inside]
      exact same

/-! ## All discards -/

variable {cards : List Int}

theorem base_cardsToTable (valid : ∀ card ∈ cards, isValidCard card = true) (four : ∀ card, cards.count card ≤ 4)
    (small : cards.length ≤ 13) (short : cards.length % 3 = 1) : Base (cardsToTable cards) := by
  have placeholder : (cardsToTable cards).get 0 = 0 := by
    rw [cardsToTable_get]
    refine List.count_eq_zero_of_not_mem fun present => ?_
    obtain ⟨card, inside, eq⟩ := List.mem_map.mp present
    have back := getCardByIdx_getCardIdx (valid card inside)
    have real := valid card inside
    rw [← back, eq] at real
    exact absurd real (by decide)
  refine ⟨placeholder, fun i => ?_, by rwa [sum_cardsToTable], by rwa [sum_cardsToTable]⟩
  rcases i.eq_zero_or_pos with rfl | low
  · rw [placeholder]
    exact Nat.zero_le 4
  · rcases Nat.lt_or_ge i tableSize with high | outside
    · obtain ⟨real, same⟩ := getCardByIdx_valid low high
      have count := cardsToTable_get_card valid real
      rw [same] at count
      rw [count]
      exact four _
    · rw [cardsToTable_get]
      refine (List.count_eq_zero_of_not_mem fun present => ?_).trans_le (Nat.zero_le 4)
      obtain ⟨card, -, rfl⟩ := List.mem_map.mp present
      exact absurd (getCardIdx_lt card) outside.not_gt

/-- The table without one tile. -/
theorem set_cardsToTable {card : Int} (present : card ∈ cards) :
    (cardsToTable cards).set (getCardIdx card) ((cardsToTable cards).get (getCardIdx card) - 1)
      = cardsToTable (cards.erase card) := by
  have counts (i : ℕ) : (cardsToTable cards).get i
      = (cardsToTable (cards.erase card)).get i + if getCardIdx card = i then 1 else 0 := by
    rw [cardsToTable_get, cardsToTable_get, ((List.perm_cons_erase present).map getCardIdx).count_eq, List.map_cons,
      List.count_cons]
    simp only [beq_iff_eq]
  refine Table.ext_get fun i _ => ?_
  rcases eq_or_ne (getCardIdx card) i with rfl | ne
  · rw [Table.get_set_self _ _ (getCardIdx_lt card), counts, if_pos rfl, Nat.add_sub_cancel]
  · rw [Table.get_set_of_ne _ _ ne, counts, if_neg ne, Nat.add_zero]

theorem outCard_of_mem {info : TingOptInfo} {outCard : Int} (present : info ∈ searchTingInfo table outCard) :
    info.outCard = outCard := by
  rw [searchTingInfo_eq] at present
  split at present
  · exact absurd present List.not_mem_nil
  · rw [List.mem_singleton.mp present]

theorem nodup_outCards (table : Table) (outCard : Int) : ((searchTingInfo table outCard).map (·.outCard)).Nodup := by
  rw [searchTingInfo_eq]
  split
  · exact List.nodup_nil
  · exact List.nodup_singleton _

/-- Only the entries of the discard matter. -/
theorem listsWaits_congr {infos infos' : List TingOptInfo} {outCard : Int}
    (same : ∀ info : TingOptInfo, info.outCard = outCard → (info ∈ infos ↔ info ∈ infos')) :
    ListsWaits infos outCard table ↔ ListsWaits infos' outCard table := by
  have entries : (∃ info ∈ infos, info.outCard = outCard) ↔ ∃ info ∈ infos', info.outCard = outCard :=
    exists_congr fun info => and_congr_left fun eq => same info eq
  constructor
  · rintro ⟨entry, tiles⟩
    exact ⟨entries.symm.trans entry, fun info present eq => tiles info ((same info eq).mpr present) eq⟩
  · rintro ⟨entry, tiles⟩
    exact ⟨entries.trans entry, fun info present eq => tiles info ((same info eq).mp present) eq⟩

/-- The options of one index. -/
def optionsAt (cards : List Int) (i : ℕ) : List TingOptInfo :=
  let table := cardsToTable cards
  if 0 < table.get i then searchTingInfo (table.set i (table.get i - 1)) (getCardByIdx i) else []

theorem findTingOptInfos_eq (size : cards.length % 3 = 2) :
    findTingOptInfos cards = (List.range tableSize).flatMap (optionsAt cards) := by
  rw [findTingOptInfos]
  rw [if_neg (by omega)]
  rfl

theorem exists_of_get_pos {i : ℕ} (some_ : 0 < (cardsToTable cards).get i) : ∃ card ∈ cards, getCardIdx card = i := by
  rw [cardsToTable_get] at some_
  exact List.mem_map.mp (List.count_pos_iff.mp some_)

theorem get_pos {card : Int} (present : card ∈ cards) : 0 < (cardsToTable cards).get (getCardIdx card) := by
  rw [cardsToTable_get]
  exact List.count_pos_iff.mpr (List.mem_map_of_mem present)

theorem optionsAt_idx (valid : ∀ card ∈ cards, isValidCard card = true) {card : Int} (present : card ∈ cards) :
    optionsAt cards (getCardIdx card) = searchTingInfo (cardsToTable (cards.erase card)) card := by
  rw [optionsAt]
  rw [if_pos (get_pos present), set_cardsToTable present, getCardByIdx_getCardIdx (valid card present)]

theorem mem_findTingOptInfos (valid : ∀ card ∈ cards, isValidCard card = true) (size : cards.length % 3 = 2)
    {info : TingOptInfo} : info ∈ findTingOptInfos cards
      ↔ ∃ card ∈ cards, info ∈ searchTingInfo (cardsToTable (cards.erase card)) card := by
  rw [findTingOptInfos_eq size, List.mem_flatMap]
  constructor
  · rintro ⟨i, -, present⟩
    rcases Nat.eq_zero_or_pos ((cardsToTable cards).get i) with none_ | some_
    · rw [optionsAt] at present
      rw [none_, if_neg (lt_irrefl 0)] at present
      exact absurd present List.not_mem_nil
    · obtain ⟨card, inside, rfl⟩ := exists_of_get_pos some_
      rw [optionsAt_idx valid inside] at present
      exact ⟨card, inside, present⟩
  · rintro ⟨card, inside, present⟩
    refine ⟨getCardIdx card, List.mem_range.mpr (getCardIdx_lt card), ?_⟩
    rwa [optionsAt_idx valid inside]

/-- Every discard has one entry at most. -/
theorem nodup_findTingOptInfos (valid : ∀ card ∈ cards, isValidCard card = true) (size : cards.length % 3 = 2) :
    ((findTingOptInfos cards).map (·.outCard)).Nodup := by
  rw [findTingOptInfos_eq size, List.map_flatMap, List.nodup_flatMap]
  constructor
  · intro i _
    rw [optionsAt]
    split
    · exact nodup_outCards _ _
    · exact List.nodup_nil
  · have outCard {i : ℕ} {card : Int} (present : card ∈ (optionsAt cards i).map (·.outCard)) : getCardIdx card = i := by
      obtain ⟨info, inside, rfl⟩ := List.mem_map.mp present
      rcases Nat.eq_zero_or_pos ((cardsToTable cards).get i) with none_ | some_
      · rw [optionsAt] at inside
        rw [none_, if_neg (lt_irrefl 0)] at inside
        exact absurd inside List.not_mem_nil
      · obtain ⟨card, held, rfl⟩ := exists_of_get_pos some_
        rw [optionsAt_idx valid held] at inside
        rw [outCard_of_mem inside]
    refine List.nodup_range.pairwise_of_forall_ne fun i _ j _ other card here there => ?_
    exact other ((outCard here).symm.trans (outCard there))

end H5Server.Erqs
