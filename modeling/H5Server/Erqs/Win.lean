import H5Server.Erqs.WinSplits

/-! # The win check is exact

A hand wins with one pair and triplets and sequences, or with seven pairs. The splits that the search reads are the
decompositions in this sense, so `canHu` answers rightly and gives all decompositions.
-/

namespace H5Server.Erqs

open Lib

/-! ## Winning hands -/

/-- The tiles of a decomposition. -/
def ComposeCard.tiles (d : ComposeCard) : List Int :=
  d.threes.flatMap (·.cards) ++ d.eye.toList.flatMap fun card => [card, card]

/-- A suit tile or an honour. -/
def Plain (card : Int) : Prop := isValidCard card = true ∧ card ≤ 0x37

/-- Three tiles of a kind. -/
def IsTriplet (three : ThreeCard) : Prop :=
  three.type = .repeat ∧ ∃ card, Plain card ∧ three.cards = [card, card, card]

/-- Three tiles in a row, of one suit. -/
def IsSequence (three : ThreeCard) : Prop :=
  three.type = .straight ∧ ∃ card, Plain card ∧ card ≤ 0x29 ∧ getCardValue card ≤ 7
    ∧ three.cards = [card, card + 1, card + 2]

/-- The standard form: one pair and triplets and sequences, which make up the table. -/
structure Decomposes (d : ComposeCard) (table : Table) : Prop where
  three : ∀ three ∈ d.threes, IsTriplet three ∨ IsSequence three
  eye : ∃ card, Plain card ∧ d.eye = some card
  tiles : cardsToTable d.tiles = table

/-- Seven pairs, two of which may be the same. -/
def SevenPairs (table : Table) : Prop :=
  ∃ pairs : List Int, pairs.length = 7 ∧ (∀ card ∈ pairs, isValidCard card = true)
    ∧ cardsToTable (pairs.flatMap fun card => [card, card]) = table

/-- A winning hand has no flower. -/
def Wins (table : Table) : Prop :=
  NoFlower table ∧ ((∃ d, Decomposes d table) ∨ table.counts.sum = 14 ∧ SevenPairs table)

/-! ## Melds by index -/

/-- The indices at which sequences begin. -/
def Opens (idx : Nat) : Prop := 1 ≤ idx ∧ idx ≤ 25 ∧ idx % 9 ≠ 0 ∧ idx % 9 ≠ 8

theorem plain_iff {card : Int} : Plain card ↔ ∃ idx, 1 ≤ idx ∧ idx < 35 ∧ card = getCardByIdx idx := by
  constructor
  · rintro ⟨valid, high⟩
    refine ⟨getCardIdx card, ?_, ?_, (getCardByIdx_getCardIdx valid).symm⟩
    all_goals
      simp only [isValidCard, decide_eq_true_eq] at valid
      unfold getCardIdx
      split_ifs <;> omega
  · rintro ⟨idx, low, high, rfl⟩
    have all : ∀ i < 35, 1 ≤ i → isValidCard (getCardByIdx i) = true ∧ getCardByIdx i ≤ 0x37 := by decide
    exact all idx high low

theorem isTriplet_iff {three : ThreeCard} : IsTriplet three ↔ ∃ idx, 1 ≤ idx ∧ idx < 35 ∧ three = triplet idx := by
  obtain ⟨cards, type⟩ := three
  simp only [IsTriplet, plain_iff, triplet, ThreeCard.mk.injEq]
  constructor
  · rintro ⟨rfl, card, ⟨idx, low, high, rfl⟩, rfl⟩
    exact ⟨idx, low, high, rfl, rfl⟩
  · rintro ⟨idx, low, high, rfl, rfl⟩
    exact ⟨rfl, _, ⟨idx, low, high, rfl⟩, rfl⟩

theorem opens_iff {idx : Nat} (low : 1 ≤ idx) (high : idx < 35) :
    Opens idx ↔ getCardByIdx idx ≤ 0x29 ∧ getCardValue (getCardByIdx idx) ≤ 7 := by
  have all : ∀ i < 35, 1 ≤ i → (1 ≤ i ∧ i ≤ 25 ∧ i % 9 ≠ 0 ∧ i % 9 ≠ 8 ↔
    getCardByIdx i ≤ 0x29 ∧ getCardValue (getCardByIdx i) ≤ 7) := by decide
  exact all idx high low

theorem isSequence_iff {three : ThreeCard} : IsSequence three ↔ ∃ idx, Opens idx ∧ three = straight idx := by
  obtain ⟨cards, type⟩ := three
  simp only [IsSequence, plain_iff, straight, ThreeCard.mk.injEq]
  constructor
  · rintro ⟨rfl, card, ⟨idx, low, high, rfl⟩, suit, rank, rfl⟩
    exact ⟨idx, (opens_iff low high).mpr ⟨suit, rank⟩, rfl, rfl⟩
  · rintro ⟨idx, opens, rfl, rfl⟩
    have inside : 1 ≤ idx ∧ idx < 35 := ⟨opens.1, by have := opens.2.1; omega⟩
    obtain ⟨suit, rank⟩ := (opens_iff inside.1 inside.2).mp opens
    exact ⟨rfl, _, ⟨idx, inside.1, inside.2, rfl⟩, suit, rank, rfl⟩

/-! ## Counting tiles -/

theorem straight_inj {idx idx' : Nat} (low : 1 ≤ idx) (high : idx < tableSize) (high' : idx' < tableSize) :
    straight idx = straight idx' ↔ idx = idx' := by
  simp only [straight, ThreeCard.mk.injEq, List.cons.injEq, and_true, Int.add_left_inj, and_self]
  exact getCardByIdx_inj low high high'

theorem triplet_inj {idx idx' : Nat} (low : 1 ≤ idx) (high : idx < tableSize) (high' : idx' < tableSize) :
    triplet idx = triplet idx' ↔ idx = idx' := by
  simp only [triplet, ThreeCard.mk.injEq, List.cons.injEq, and_true, and_self]
  exact getCardByIdx_inj low high high'

/-- The indices of the tiles of a sequence follow each other. -/
theorem straight_idx {idx : Nat} (opens : Opens idx) :
    (straight idx).cards.map getCardIdx = [idx, idx + 1, idx + 2] := by
  have all : ∀ i ≤ 25, 1 ≤ i ∧ i % 9 ≠ 0 ∧ i % 9 ≠ 8 → (straight i).cards.map getCardIdx = [i, i + 1, i + 2] := by decide
  exact all idx opens.2.1 ⟨opens.1, opens.2.2⟩

theorem triplet_idx {idx : Nat} (low : 1 ≤ idx) (high : idx < tableSize) :
    (triplet idx).cards.map getCardIdx = [idx, idx, idx] := by
  have here := (getCardByIdx_valid low high).2
  simp only [triplet, List.map_cons, List.map_nil, here]

/-- What melds take of a tile. -/
def reach (s : ℕ → Melds) (idx : ℕ) : ℕ := (s idx).used + (s (idx - 1)).runs + (s (idx - 2)).runs

def Legal (three : ThreeCard) : Prop := IsTriplet three ∨ IsSequence three

theorem count_three {three : ThreeCard} (legal : Legal three) {idx : Nat} (high : idx < tableSize) :
    (three.cards.map getCardIdx).count idx = 3 * [three].count (triplet idx) + [three].count (straight idx)
      + [three].count (straight (idx - 1)) + [three].count (straight (idx - 2)) := by
  simp only [List.count_singleton, beq_iff_eq]
  rcases legal with three_ | sequence
  · obtain ⟨idx', low, high', rfl⟩ := isTriplet_iff.mp three_
    have other (j : Nat) : triplet idx' ≠ straight j := fun same => by cases congrArg ThreeCard.type same
    have inside : idx' < tableSize := by rw [tableSize]; omega
    rw [triplet_idx low inside]
    simp only [other, if_false, triplet_inj low inside high, List.count_cons, List.count_nil, beq_iff_eq]
    split <;> rfl
  · obtain ⟨idx', opens, rfl⟩ := isSequence_iff.mp sequence
    have other (j : Nat) : straight idx' ≠ triplet j := fun same => by cases congrArg ThreeCard.type same
    have low := opens.1
    have inside : idx' < tableSize := by have := opens.2.1; rw [tableSize]; omega
    have same (j : Nat) (high' : j < tableSize) := straight_inj low inside high'
    rw [straight_idx opens]
    simp only [other, if_false, same idx high, same (idx - 1) (by omega), same (idx - 2) (by omega), List.count_cons,
      List.count_nil, beq_iff_eq]
    split_ifs <;> omega

theorem count_threes {threes : List ThreeCard} (legal : ∀ three ∈ threes, Legal three) {idx : Nat}
    (high : idx < tableSize) : ((threes.flatMap (·.cards)).map getCardIdx).count idx = 3 * threes.count (triplet idx)
      + threes.count (straight idx) + threes.count (straight (idx - 1)) + threes.count (straight (idx - 2)) := by
  induction threes with
  | nil => rfl
  | cons three threes ih =>
    obtain ⟨here, later⟩ := List.forall_mem_cons.mp legal
    have first := count_three here high
    rw [List.flatMap_cons, List.map_append, List.count_append, ih later, first]
    simp only [List.count_cons, List.count_nil]
    omega

theorem count_pair {card : Int} (plain : Plain card) {idx : Nat} (high : idx < tableSize) :
    ([card, card].map getCardIdx).count idx = 2 * [card].count (getCardByIdx idx) := by
  obtain ⟨idx', low, high', rfl⟩ := plain_iff.mp plain
  have inside : idx' < tableSize := by rw [tableSize]; omega
  have same := getCardByIdx_inj low inside high
  simp only [List.map_cons, List.map_nil, (getCardByIdx_valid low inside).2, List.count_cons, List.count_nil, beq_iff_eq,
    same]
  split <;> rfl

/-- The tiles of a decomposition are what its melds take. -/
theorem count_tiles {d : ComposeCard} (legal : ∀ three ∈ d.threes, Legal three) (eye : ∀ card, d.eye = some card → Plain card)
    {idx : Nat} (high : idx < tableSize) :
    (d.tiles.map getCardIdx).count idx = reach (meldsBy d.threes d.eye.toList) idx := by
  rw [ComposeCard.tiles, List.map_append, List.count_append, count_threes legal high]
  have pair : ((d.eye.toList.flatMap fun card => [card, card]).map getCardIdx).count idx
      = 2 * d.eye.toList.count (getCardByIdx idx) := by
    cases eq : d.eye with
    | none => rfl
    | some card =>
      rw [Option.toList_some, List.flatMap_singleton]
      exact count_pair (eye card eq) high
  rw [pair]
  simp only [reach, meldsBy, Melds.used]
  omega

/-! ## What the search reads -/

variable {table : Table} {d : ComposeCard} {s : ℕ → Melds}

/-- The melds of a card, by index. -/
def ComposeCard.melds (d : ComposeCard) : ℕ → Melds := meldsBy d.threes d.eye.toList

/-- A decomposition as the search reads it: at most four tiles of one kind are used by melds that begin there, and
honours of which there are five are left out. -/
structure Reads (table : Table) (d : ComposeCard) : Prop where
  legal : ∀ three ∈ d.threes, Legal three
  eye : ∀ card, d.eye = some card → Plain card
  suits : ∀ i, 1 ≤ i → i < 28 → table.get i = reach d.melds i ∧ (d.melds i).used ≤ 4
  honours : ∀ i, 28 ≤ i → i < 35 →
    table.get i = reach d.melds i ∧ table.get i ≤ 4 ∨ 5 ≤ table.get i ∧ d.melds i = ⟨0, 0, 0⟩

theorem opens_of_runs (legal : ∀ three ∈ d.threes, Legal three) {i : ℕ} (high : i < tableSize)
    (some_ : (d.melds i).runs ≠ 0) : Opens i := by
  have present : straight i ∈ d.threes := List.count_pos_iff.mp (Nat.pos_of_ne_zero some_)
  rcases legal _ present with three_ | sequence
  · obtain ⟨j, -, -, same⟩ := isTriplet_iff.mp three_
    cases congrArg ThreeCard.type same
  · obtain ⟨j, opens, same⟩ := isSequence_iff.mp sequence
    have inside : j < tableSize := by have := opens.2.1; rw [tableSize]; omega
    rwa [← (straight_inj opens.1 inside high).mp same.symm]

theorem pairs_le_one (d : ComposeCard) (i : ℕ) : (d.melds i).pairs ≤ 1 := by
  change d.eye.toList.count _ ≤ 1
  cases d.eye with
  | none => exact Nat.zero_le 1
  | some card => exact List.count_le_length

/-- In each suit the counts are what the melds take. -/
theorem fits_iff_reach (legal : ∀ three ∈ d.threes, Legal three) {offset : ℕ} (one_of : offset ∈ [1, 10, 19]) (t : ℕ → ℕ) :
    Fits 9 offset t d.melds ↔ ∀ j, offset ≤ j → j < offset + 9 → t j = reach d.melds j := by
  simp only [List.mem_cons, List.not_mem_nil, or_false] at one_of
  have begins {i : ℕ} (high : i < tableSize) : (d.melds i).runs = 0 ∨ Opens i := by
    rcases (d.melds i).runs.eq_zero_or_pos with none_ | some_
    · exact .inl none_
    · exact .inr (opens_of_runs legal high some_.ne')
  rw [fits_iff]
  refine forall_congr' fun j => imp_congr_right fun low => imp_congr_right fun high => ?_
  have here := @begins j (by rw [tableSize]; omega)
  have before := @begins (j - 1) (by rw [tableSize]; omega)
  have before' := @begins (j - 2) (by rw [tableSize]; omega)
  have same : (d.melds j).used + carried d.melds offset j = reach d.melds j := by
    rw [carried, reach]
    simp only [Opens] at before before'
    split_ifs <;> omega
  rw [same]
  simp only [pairs_le_one, true_and, and_iff_left_iff_imp]
  intro _
  simp only [Opens] at here
  omega

/-- No sequence takes an honour. -/
theorem reach_honour (legal : ∀ three ∈ d.threes, Legal three) {i : ℕ} (low : 28 ≤ i) (high : i < 35) :
    reach d.melds i = (d.melds i).used ∧ (d.melds i).runs = 0 := by
  have none_ {j : ℕ} (far : 26 ≤ j) (inside : j < tableSize) : (d.melds j).runs = 0 := by
    refine Decidable.byContradiction fun some_ => ?_
    have := (opens_of_runs legal inside some_).2.1
    omega
  have bound : i < tableSize := by rw [tableSize]; omega
  rw [reach, none_ (j := i - 1) (by omega) (by omega), none_ (j := i - 2) (by omega) (by omega)]
  exact ⟨rfl, none_ (by omega) bound⟩

theorem mem_threesFrom {three : ThreeCard} {left cur : ℕ} (present : three ∈ threesFrom left cur s) :
    ∃ j, cur ≤ j ∧ j < cur + left ∧ (three = triplet j ∨ three = straight j ∧ (s j).runs ≠ 0) := by
  induction left generalizing cur with
  | zero => exact absurd present List.not_mem_nil
  | succ left ih =>
    rw [threesFrom, threesAt_eq, List.mem_append, List.mem_append] at present
    rcases present with (here | here) | later
    · exact ⟨cur, le_rfl, by omega, .inl (List.eq_of_mem_replicate here)⟩
    · refine ⟨cur, le_rfl, by omega, .inr ⟨List.eq_of_mem_replicate here, ?_⟩⟩
      exact (List.mem_replicate.mp here).1
    · obtain ⟨j, low, high, either⟩ := ih later
      exact ⟨j, by omega, by omega, either⟩

theorem mem_eyesFrom {card : Int} {left cur : ℕ} (present : card ∈ eyesFrom left cur s) :
    ∃ j, cur ≤ j ∧ j < cur + left ∧ card = getCardByIdx j := by
  induction left generalizing cur with
  | zero => exact absurd present List.not_mem_nil
  | succ left ih =>
    rw [eyesFrom, eyesAt, List.mem_append] at present
    rcases present with here | later
    · exact ⟨cur, le_rfl, by omega, List.eq_of_mem_replicate here⟩
    · obtain ⟨j, low, high, eq⟩ := ih later
      exact ⟨j, by omega, by omega, eq⟩

theorem HasMelds.melds_eq (has : HasMelds d s) {i : ℕ} (high : i < tableSize) :
    d.melds i = if 1 ≤ i ∧ i < 35 then s i else ⟨0, 0, 0⟩ := by
  rw [ComposeCard.melds, meldsBy_perm has.threes has.eye, meldsBy_from le_rfl (by decide) high]

theorem Splits.reads (splits : Splits table s) (has : HasMelds d s) : Reads table d := by
  have same {i : ℕ} (low : 1 ≤ i) (high : i < 35) : s i = d.melds i := by
    rw [has.melds_eq (by rw [tableSize]; omega), if_pos ⟨low, high⟩]
  have legal : ∀ three ∈ d.threes, Legal three := by
    intro three present
    obtain ⟨j, low, high, rfl | ⟨rfl, runs⟩⟩ := mem_threesFrom (has.threes.mem_iff.mp present)
    · exact .inl (isTriplet_iff.mpr ⟨j, low, by omega, rfl⟩)
    · refine .inr (isSequence_iff.mpr ⟨j, ?_, rfl⟩)
      rcases Nat.lt_or_ge j 28 with suit | honour
      · have inside {offset : ℕ} (one_of : offset ∈ [1, 10, 19]) (low : offset ≤ j) (high : j < offset + 9) :=
          ((fits_iff.mp (splits.fits offset one_of) j low high).2.2).resolve_left runs
        rw [Opens]
        rcases Nat.lt_or_ge j 10 with first | later
        · have := inside (by simp : 1 ∈ [1, 10, 19]) low first
          omega
        · rcases Nat.lt_or_ge j 19 with second | third
          · have := inside (by simp : 10 ∈ [1, 10, 19]) later second
            omega
          · have := inside (by simp : 19 ∈ [1, 10, 19]) third suit
            omega
      · rw [← splits.zi_eq honour high] at runs
        exact absurd rfl runs
  refine ⟨legal, fun card eq => ?_, fun i low high => ⟨?_, ?_⟩, fun i low high => ?_⟩
  · have present : card ∈ d.eye.toList := by rw [eq]; exact List.mem_singleton_self _
    obtain ⟨j, low, high, rfl⟩ := mem_eyesFrom (has.eye.mem_iff.mp present)
    exact plain_iff.mpr ⟨j, low, high, rfl⟩
  · have fits {offset : ℕ} (one_of : offset ∈ [1, 10, 19]) (low : offset ≤ i) (high : i < offset + 9) :=
      (fits_iff_reach legal one_of table.get).mp
        ((splits.fits offset one_of).congr fun j low' high' => same (by simp at one_of; omega) (by simp at one_of; omega))
        i low high
    rcases Nat.lt_or_ge i 10 with first | later
    · exact fits (by simp : 1 ∈ [1, 10, 19]) low first
    · rcases Nat.lt_or_ge i 19 with second | third
      · exact fits (by simp : 10 ∈ [1, 10, 19]) later second
      · exact fits (by simp : 19 ∈ [1, 10, 19]) third high
  · rw [← same low (by omega)]
    exact splits.small i low high
  · obtain ⟨one, four, eq⟩ := splits.zi i low high
    rw [(reach_honour legal low high).1, ← same (by omega) high, eq, ziMelds, Melds.used]
    dsimp only
    rcases Nat.lt_or_ge (table.get i) 5 with few | many
    · refine .inl ⟨?_, by omega⟩
      split_ifs <;> omega
    · rw [if_neg (by omega), if_neg (by omega)]
      exact .inr ⟨many, rfl⟩

/-- Legal melds of plain tiles are those that are counted. -/
theorem perm_threesFrom {threes : List ThreeCard} (legal : ∀ three ∈ threes, Legal three) (eyes : List Int) :
    threes.Perm (threesFrom 34 1 (meldsBy threes eyes)) := by
  have counted {i : ℕ} (low : 1 ≤ i) (high : i < 35) :
      meldsBy (threesFrom 34 1 (meldsBy threes eyes)) (eyesFrom 34 1 (meldsBy threes eyes)) i = meldsBy threes eyes i := by
    rw [meldsBy_from le_rfl (by decide) (by rw [tableSize]; omega), if_pos ⟨low, high⟩]
  have found {three : ThreeCard} (present : three ∈ threes ∨ three ∈ threesFrom 34 1 (meldsBy threes eyes)) :
      ∃ i, 1 ≤ i ∧ i < 35 ∧ (three = triplet i ∨ three = straight i) := by
    rcases present with inside | inside
    · rcases legal three inside with three_ | sequence
      · obtain ⟨i, low, high, eq⟩ := isTriplet_iff.mp three_
        exact ⟨i, low, high, .inl eq⟩
      · obtain ⟨i, opens, eq⟩ := isSequence_iff.mp sequence
        exact ⟨i, opens.1, by have := opens.2.1; omega, .inr eq⟩
    · obtain ⟨i, low, high, eq | ⟨eq, -⟩⟩ := mem_threesFrom inside
      · exact ⟨i, low, high, .inl eq⟩
      · exact ⟨i, low, high, .inr eq⟩
  refine List.perm_iff_count.mpr fun three => ?_
  rcases Classical.em (three ∈ threes ∨ three ∈ threesFrom 34 1 (meldsBy threes eyes)) with present | absent
  · obtain ⟨i, low, high, rfl | rfl⟩ := found present
    · exact (congrArg Melds.triplets (counted low high)).symm
    · exact (congrArg Melds.runs (counted low high)).symm
  · rw [List.count_eq_zero_of_not_mem fun inside => absent (.inl inside),
      List.count_eq_zero_of_not_mem fun inside => absent (.inr inside)]

theorem perm_eyesFrom {eyes : List Int} (plain : ∀ card ∈ eyes, Plain card) (threes : List ThreeCard) :
    eyes.Perm (eyesFrom 34 1 (meldsBy threes eyes)) := by
  have counted {i : ℕ} (low : 1 ≤ i) (high : i < 35) :
      meldsBy (threesFrom 34 1 (meldsBy threes eyes)) (eyesFrom 34 1 (meldsBy threes eyes)) i = meldsBy threes eyes i := by
    rw [meldsBy_from le_rfl (by decide) (by rw [tableSize]; omega), if_pos ⟨low, high⟩]
  have found {card : Int} (present : card ∈ eyes ∨ card ∈ eyesFrom 34 1 (meldsBy threes eyes)) :
      ∃ i, 1 ≤ i ∧ i < 35 ∧ card = getCardByIdx i := by
    rcases present with inside | inside
    · exact plain_iff.mp (plain card inside)
    · exact mem_eyesFrom inside
  refine List.perm_iff_count.mpr fun card => ?_
  rcases Classical.em (card ∈ eyes ∨ card ∈ eyesFrom 34 1 (meldsBy threes eyes)) with present | absent
  · obtain ⟨i, low, high, rfl⟩ := found present
    exact (congrArg Melds.pairs (counted low high)).symm
  · rw [List.count_eq_zero_of_not_mem fun inside => absent (.inl inside),
      List.count_eq_zero_of_not_mem fun inside => absent (.inr inside)]

theorem hasMelds_melds (legal : ∀ three ∈ d.threes, Legal three) (eye : ∀ card, d.eye = some card → Plain card) :
    HasMelds d d.melds := by
  refine ⟨perm_threesFrom legal _, perm_eyesFrom (fun card present => ?_) _⟩
  exact eye card (Option.mem_toList.mp present)

theorem Reads.splits (reads : Reads table d) : Splits table d.melds ∧ HasMelds d d.melds := by
  have has := hasMelds_melds reads.legal reads.eye
  refine ⟨⟨fun i low high => ?_, fun offset one_of => ?_, fun i low high => (reads.suits i low high).2, ?_⟩, has⟩
  · have one := pairs_le_one d i
    obtain ⟨used, none_⟩ := reach_honour reads.legal low high
    have either := reads.honours i low high
    rw [used, Melds.used] at either
    rw [ziMelds]
    generalize table.get i = n at *
    generalize d.melds i = m at *
    obtain ⟨triplets, runs, pairs⟩ := m
    simp only [Melds.mk.injEq] at *
    subst none_
    refine ⟨by omega, by omega, ?_, rfl, ?_⟩ <;> split <;> omega
  · refine (fits_iff_reach reads.legal one_of table.get).mpr fun j low high => ?_
    simp only [List.mem_cons, List.not_mem_nil, or_false] at one_of
    exact (reads.suits j (by omega) (by omega)).1
  · rw [← has.eye.length_eq]
    cases d.eye <;> simp

/-- The search reads the decompositions whose tiles the table has. -/
theorem splits_iff_reads : (∃ s, Splits table s ∧ HasMelds d s) ↔ Reads table d :=
  ⟨fun ⟨_, splits, has⟩ => splits.reads has, fun reads => ⟨_, reads.splits⟩⟩

/-! ## Counts -/

theorem sum_counts (table : Table) (f : ℕ → ℕ) :
    (table.counts.map f).sum = total (fun i => f (table.get i)) 0 tableSize := by
  rw [sum_map_eq_total, table.size_eq]
  rfl

/-- A table has as many tiles as were put into it. -/
theorem sum_cardsToTable (cards : List Int) : (cardsToTable cards).counts.sum = cards.length := by
  rw [← List.map_id (cardsToTable cards).counts, sum_counts]
  have each : (fun i => id ((cardsToTable cards).get i)) = fun i => (cards.map getCardIdx).count i := by
    funext i
    exact cardsToTable_get cards i
  rw [each, total_count, List.length_map]
  intro x present
  obtain ⟨card, -, rfl⟩ := List.mem_map.mp present
  exact getCardIdx_lt card

theorem fewSuits_of_sum_le (small : table.counts.sum ≤ 14) : FewSuits table := by
  rw [← List.map_id table.counts, sum_counts, show tableSize = 1 + (9 + (9 + (9 + 15))) from rfl, total_append, total_append,
    total_append, total_append] at small
  simp only [id_eq] at small
  change _ + (total table.get 1 9 + (total table.get 10 9 + (total table.get 19 9 + _))) ≤ 14 at small
  rw [FewSuits]
  omega

theorem length_tiles (legal : ∀ three ∈ d.threes, Legal three) :
    d.tiles.length = 3 * d.threes.length + 2 * d.eye.toList.length := by
  have threes (threes : List ThreeCard) (legal : ∀ three ∈ threes, Legal three) :
      (threes.flatMap (·.cards)).length = 3 * threes.length := by
    induction threes with
    | nil => rfl
    | cons three threes ih =>
      obtain ⟨here, later⟩ := List.forall_mem_cons.mp legal
      have size : three.cards.length = 3 := by
        rcases here with ⟨-, card, -, eq⟩ | ⟨-, card, -, -, -, eq⟩ <;> rw [eq] <;> rfl
      rw [List.flatMap_cons, List.length_append, ih later, size, List.length_cons]
      omega
  rw [ComposeCard.tiles, List.length_append, threes d.threes legal]
  cases d.eye <;> rfl

theorem Decomposes.plain (decomposes : Decomposes d table) : ∀ card, d.eye = some card → Plain card := by
  obtain ⟨pair, plain, eq⟩ := decomposes.eye
  intro card same
  obtain rfl := Option.some.inj (eq.symm.trans same)
  exact plain

theorem Decomposes.get_eq (decomposes : Decomposes d table) {i : ℕ} (high : i < tableSize) :
    table.get i = reach d.melds i := by
  rw [← decomposes.tiles, cardsToTable_get, count_tiles decomposes.three decomposes.plain high]
  rfl

/-- With at most four tiles of each kind the search reads the standard forms. -/
theorem Decomposes.reads (decomposes : Decomposes d table) (four : ∀ i, table.get i ≤ 4) : Reads table d := by
  refine ⟨decomposes.three, decomposes.plain, fun i low high => ?_, fun i low high => ?_⟩
  · have all := decomposes.get_eq (i := i) (by rw [tableSize]; omega)
    have few := four i
    refine ⟨all, ?_⟩
    rw [reach] at all
    omega
  · exact .inl ⟨decomposes.get_eq (by rw [tableSize]; omega), four i⟩

/-- No meld takes a flower. -/
theorem reach_flower (legal : ∀ three ∈ d.threes, Legal three) (has : HasMelds d s) {i : ℕ} (low : 35 ≤ i)
    (high : i < tableSize) : reach d.melds i = 0 := by
  have none_ {j : ℕ} (far : 26 ≤ j) (inside : j < tableSize) : (d.melds j).runs = 0 := by
    refine Decidable.byContradiction fun some_ => ?_
    have := (opens_of_runs legal inside some_).2.1
    omega
  rw [reach, none_ (j := i - 1) (by omega) (by omega), none_ (j := i - 2) (by omega) (by omega), has.melds_eq high,
    if_neg (by omega)]
  rfl

/-- The tiles of what is read are those of the table, without the honours that are left out. -/
theorem Reads.get_tiles (reads : Reads table d) (placeholder : table.get 0 = 0) (none_ : NoFlower table) {i : ℕ}
    (high : i < tableSize) :
    (cardsToTable d.tiles).get i = if 28 ≤ i ∧ i < 35 ∧ 5 ≤ table.get i then 0 else table.get i := by
  obtain ⟨-, has⟩ := reads.splits
  rw [cardsToTable_get, count_tiles reads.legal reads.eye high]
  change reach d.melds i = _
  rcases i.eq_zero_or_pos with rfl | low
  · rw [if_neg (by omega), placeholder, reach, has.melds_eq high, if_neg (by omega)]
    rfl
  · rcases Nat.lt_or_ge i 28 with suit | honour
    · rw [if_neg (by omega)]
      exact (reads.suits i low suit).1.symm
    · rcases Nat.lt_or_ge i 35 with honour' | flower
      · rcases reads.honours i honour honour' with ⟨all, few⟩ | ⟨many, out⟩
        · rw [if_neg (by omega)]
          exact all.symm
        · rw [if_pos ⟨honour, honour', many⟩, (reach_honour reads.legal honour honour').1, out]
          rfl
      · have zero := none_ (i - 35) (by rw [tableSize] at high; omega)
        rw [Nat.add_sub_cancel' flower] at zero
        rw [if_neg (by omega), reach_flower reads.legal has flower high, zero]

theorem Reads.counts (reads : Reads table d) (placeholder : table.get 0 = 0) (none_ : NoFlower table)
    (four : ∀ i, 28 ≤ i → i < 35 → table.get i ≤ 4) : cardsToTable d.tiles = table := by
  refine Table.ext_get fun i high => ?_
  rw [reads.get_tiles placeholder none_ high, if_neg]
  rintro ⟨honour, honour', many⟩
  have := four i honour honour'
  omega

theorem Reads.decomposes (reads : Reads table d) (placeholder : table.get 0 = 0) (none_ : NoFlower table)
    (four : ∀ i, 28 ≤ i → i < 35 → table.get i ≤ 4) (pair : table.counts.sum % 3 = 2) : Decomposes d table := by
  have tiles := reads.counts placeholder none_ four
  refine ⟨reads.legal, ?_, tiles⟩
  have size := sum_cardsToTable d.tiles
  rw [tiles, length_tiles reads.legal] at size
  cases eq : d.eye with
  | none =>
    rw [eq] at size
    change _ = _ + 2 * 0 at size
    omega
  | some card => exact ⟨card, reads.eye card eq, rfl⟩

theorem Decomposes.noFlower (decomposes : Decomposes d table) : NoFlower table := by
  intro k below
  have inside : 35 + k < tableSize := by rw [tableSize]; omega
  rw [decomposes.get_eq inside]
  exact reach_flower decomposes.three (hasMelds_melds decomposes.three decomposes.plain) (by omega) inside

/-! ## Seven pairs -/

theorem getEyeNum_eq (few : ∀ i, table.get i ≤ 5) : getEyeNum table = total (fun i => table.get i / 2) 0 tableSize := by
  have fold (counts : List ℕ) (few : ∀ count ∈ counts, count ≤ 5) (num : ℕ) :
      counts.foldl (fun acc count => acc.bind fun num =>
        if 35 ≤ count then none
        else if count = 0 ∨ count = 1 then some num
        else if count = 2 ∨ count = 3 then some (num + 1)
        else some (num + 2)) (some num) = some (num + (counts.map (· / 2)).sum) := by
    induction counts generalizing num with
    | nil => rfl
    | cons count counts ih =>
      obtain ⟨here, later⟩ := List.forall_mem_cons.mp few
      have half : (if 35 ≤ count then none else if count = 0 ∨ count = 1 then some num
          else if count = 2 ∨ count = 3 then some (num + 1) else some (num + 2)) = some (num + count / 2) := by
        split_ifs <;> (congr 1; omega)
      rw [List.foldl_cons, Option.bind_some, half, ih later, List.map_cons, List.sum_cons, Nat.add_assoc]
  rw [getEyeNum, fold table.counts ?_ 0, Option.getD_some, Nat.zero_add, sum_counts]
  intro count present
  obtain ⟨i, bound, rfl⟩ := List.getElem_of_mem present
  have here := few i
  rwa [Table.get, List.getD_eq_getElem?_getD, List.getElem?_eq_getElem bound, Option.getD_some] at here

theorem sum_halves (table : Table) : table.counts.sum
    = 2 * total (fun i => table.get i / 2) 0 tableSize + total (fun i => table.get i % 2) 0 tableSize := by
  rw [← total_halves, ← List.map_id table.counts, sum_counts]
  rfl

theorem SevenPairs.even (pairs : SevenPairs table) (i : ℕ) : table.get i % 2 = 0 := by
  obtain ⟨pairs, -, -, rfl⟩ := pairs
  rw [cardsToTable_get]
  induction pairs with
  | nil => rfl
  | cons card pairs ih =>
    simp only [List.flatMap_cons, List.map_append, List.count_append, List.map_cons, List.map_nil, List.count_cons,
      List.count_nil]
    split <;> omega

/-- The check counts seven pairs in fourteen tiles whose counts are all even. -/
theorem isTableQiDui_iff (few : ∀ i, table.get i ≤ 5) (small : table.counts.sum ≤ 14) :
    isTableQiDui table = true ↔ table.counts.sum = 14 ∧ ∀ i < tableSize, table.get i % 2 = 0 := by
  rw [isTableQiDui, getEyeNum_eq few, beq_iff_eq]
  have halves := sum_halves table
  constructor
  · intro seven
    refine ⟨by omega, fun i bound => ?_⟩
    have odd : table.get i % 2 ≤ total (fun i => table.get i % 2) 0 tableSize :=
      le_total (t := fun i => table.get i % 2) (Nat.zero_le i) (by omega)
    omega
  · rintro ⟨full, even⟩
    have none_ : total (fun i => table.get i % 2) 0 tableSize = total (fun _ => 0) 0 tableSize :=
      total_congr fun j _ high => even j (by omega)
    have zero : total (fun _ => 0) 0 tableSize = 0 := rfl
    omega

theorem sevenPairs_iff (placeholder : table.get 0 = 0) :
    table.counts.sum = 14 ∧ SevenPairs table ↔ table.counts.sum = 14 ∧ ∀ i < tableSize, table.get i % 2 = 0 := by
  refine and_congr_right fun full => ⟨fun pairs i _ => pairs.even i, fun even => ?_⟩
  have copies (num : ℕ) (card : Int) (i : ℕ) :
      (((List.replicate num card).flatMap fun card => [card, card]).map getCardIdx).count i
        = if getCardIdx card = i then 2 * num else 0 := by
    induction num with
    | zero => split <;> rfl
    | succ num ih =>
      rw [List.replicate_succ, List.flatMap_cons, List.map_append, List.count_append, ih]
      simp only [List.map_cons, List.map_nil, List.count_cons, List.count_nil, beq_iff_eq]
      split <;> omega
  let pairs (bound : ℕ) : List Int := (List.range bound).flatMap fun i => List.replicate (table.get i / 2) (getCardByIdx i)
  have next (bound : ℕ) : pairs (bound + 1) = pairs bound ++ List.replicate (table.get bound / 2) (getCardByIdx bound) := by
    simp only [pairs, List.range_succ, List.flatMap_append, List.flatMap_singleton]
  have counts (bound : ℕ) (high : bound ≤ tableSize) {i : ℕ} (inside : i < tableSize) :
      (((pairs bound).flatMap fun card => [card, card]).map getCardIdx).count i = if i < bound then table.get i else 0 := by
    induction bound with
    | zero => rfl
    | succ bound ih =>
      rw [next, List.flatMap_append, List.map_append, List.count_append, ih (by omega), copies]
      have whole := even bound (by omega)
      rcases bound.eq_zero_or_pos with rfl | low
      · rw [placeholder, Nat.zero_div, Nat.mul_zero, ite_self, if_neg (by omega)]
        split
        next first =>
          obtain rfl : i = 0 := by omega
          rw [placeholder]
        next => rfl
      · rw [(getCardByIdx_valid low (by omega)).2]
        rcases Nat.lt_trichotomy i bound with before | rfl | behind
        · rw [if_pos before, if_neg (by omega), if_pos (by omega), Nat.add_zero]
        · rw [if_neg (by omega), if_pos rfl, if_pos (by omega)]
          omega
        · rw [if_neg (by omega), if_neg (by omega), if_neg (by omega)]
  have length (bound : ℕ) : (pairs bound).length = total (fun i => table.get i / 2) 0 bound := by
    induction bound with
    | zero => rfl
    | succ bound ih =>
      rw [next, List.length_append, ih, List.length_replicate, total_append, total, total, Nat.zero_add, Nat.add_zero]
  have valid (bound : ℕ) (high : bound ≤ tableSize) : ∀ card ∈ pairs bound, isValidCard card = true := by
    intro card present
    obtain ⟨i, below, inside⟩ := List.mem_flatMap.mp present
    obtain ⟨some_, rfl⟩ := List.mem_replicate.mp inside
    rcases i.eq_zero_or_pos with rfl | low
    · rw [placeholder] at some_
      exact absurd rfl some_
    · have := List.mem_range.mp below
      exact (getCardByIdx_valid low (by omega)).1
  refine ⟨pairs tableSize, ?_, valid tableSize le_rfl, Table.ext_get fun i inside => ?_⟩
  · have odd : total (fun i => table.get i % 2) 0 tableSize = total (fun _ => 0) 0 tableSize :=
      total_congr fun j _ high => even j (by omega)
    have zero : total (fun _ => 0) 0 tableSize = 0 := rfl
    have halves := sum_halves table
    rw [length]
    omega
  · rw [cardsToTable_get, counts tableSize le_rfl inside, if_pos inside]

/-! ## Exactness -/

/-- With at most four tiles of each kind `canHu` accepts exactly the winning tables. -/
theorem canHuTable_iff_wins (placeholder : table.get 0 = 0) (four : ∀ i, table.get i ≤ 4) (small : table.counts.sum ≤ 14)
    (pair : table.counts.sum % 3 = 2) (composeCards : List ComposeCard) :
    (canHuTable table composeCards).1 = true ↔ Wins table := by
  have few := fewSuits_of_sum_le small
  have five (i : ℕ) : table.get i ≤ 5 := by
    have := four i
    omega
  have pairs := (isTableQiDui_iff five small).trans (sevenPairs_iff placeholder).symm
  refine (canHuTable_iff few composeCards).trans (and_congr_right fun none_ => or_congr ?_ pairs)
  refine ⟨fun ⟨s, splits⟩ => ?_, fun ⟨d, decomposes⟩ => ?_⟩
  · obtain ⟨-, d, -, has⟩ := splits.exists_mem few
    exact ⟨d, (splits.reads has).decomposes placeholder none_ (fun i _ _ => four i) pair⟩
  · exact ⟨_, (decomposes.reads four).splits.1⟩

/-- `canHu` accepts exactly the winning tables, and then gives every standard form once. -/
theorem canHuTable_exact (table : Table) (placeholder : table.get 0 = 0) (four : ∀ i, table.get i ≤ 4)
    (size : table.counts.sum ∈ [2, 5, 8, 11, 14]) (composeCards : List ComposeCard) :
    ((canHuTable table composeCards).1 = true ↔ Wins table)
    ∧ ((∃ d, Decomposes d table) →
      (∀ d ∈ (canHuTable table composeCards).2, Decomposes d table)
      ∧ (∀ d, Decomposes d table → ∃ d' ∈ (canHuTable table composeCards).2, Same d' d)
      ∧ (canHuTable table composeCards).2.Pairwise fun d d' => ¬Same d d') := by
  have small : table.counts.sum ≤ 14 := by
    simp only [List.mem_cons, List.not_mem_nil, or_false] at size
    omega
  have pair : table.counts.sum % 3 = 2 := by
    simp only [List.mem_cons, List.not_mem_nil, or_false] at size
    omega
  have few := fewSuits_of_sum_le small
  refine ⟨canHuTable_iff_wins placeholder four small pair composeCards, fun ⟨d, decomposes⟩ => ?_⟩
  have none_ := decomposes.noFlower
  have parts := ((decomposes.reads four).splits.1.exists_mem few).1
  rw [canHuTable_of_partsFit none_ parts]
  dsimp only
  refine ⟨fun d present => ?_, fun d decomposes => ?_, pairwise_readings few⟩
  · obtain ⟨s, splits, has⟩ := exists_splits few parts present
    exact (splits.reads has).decomposes placeholder none_ (fun i _ _ => four i) pair
  · obtain ⟨splits, has⟩ := (decomposes.reads four).splits
    obtain ⟨-, d', present, has'⟩ := splits.exists_mem few
    exact ⟨d', present, has'.threes.trans has.threes.symm, eye_eq_of_perm (has'.eye.trans has.eye.symm)⟩

theorem get_le_of_counts {bound : ℕ} (all : ∀ count ∈ table.counts, count ≤ bound) (i : ℕ) : table.get i ≤ bound := by
  rw [Table.get, List.getD_eq_getElem?_getD]
  cases eq : table.counts[i]? with
  | none => exact Nat.zero_le bound
  | some count => exact all count (List.mem_of_getElem? eq)

theorem canHuTable_exact_three_ranks :
    let table := cardsToTable [0x01, 0x01, 0x01, 0x02, 0x02, 0x02, 0x03, 0x03, 0x03, 0x31, 0x31]
    (canHuTable table []).1 = true ↔ Wins table :=
  (canHuTable_exact (cardsToTable [0x01, 0x01, 0x01, 0x02, 0x02, 0x02, 0x03, 0x03, 0x03, 0x31, 0x31]) (by decide)
    (get_le_of_counts (by decide)) (by decide) []).1

end H5Server.Erqs
