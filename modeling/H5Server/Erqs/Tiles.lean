import Mathlib.Data.Multiset.Basic
import Mathlib.Algebra.BigOperators.Group.List.Basic

/-! # Tiles and tile tables of Erqs (two-player mahjong)

Tile values are the hexadecimal codes of `CARDS` (`int32_t`, with -1 for no tile); a tile table
counts the tiles of a hand by index.
-/

namespace H5Server.Erqs

/-- `GAME_INVALID_CARD`. -/
def gameInvalidCard : Int := -1

def tableSize : Nat := 43

/-- `CARDS`: nine ranks of three suits, seven honours, eight flowers. -/
def CARDS : List Int :=
  [0x01, 0x02, 0x03, 0x04, 0x05, 0x06, 0x07, 0x08, 0x09,
   0x11, 0x12, 0x13, 0x14, 0x15, 0x16, 0x17, 0x18, 0x19,
   0x21, 0x22, 0x23, 0x24, 0x25, 0x26, 0x27, 0x28, 0x29,
   0x31, 0x32, 0x33, 0x34, 0x35, 0x36, 0x37,
   0x41, 0x42, 0x43, 0x44, 0x45, 0x46, 0x47, 0x48]

def getCardIdx (card : Int) : Nat :=
  if 0x01 ≤ card ∧ card ≤ 0x09 then card.toNat
  else if 0x11 ≤ card ∧ card ≤ 0x19 then (card - 0x10 + 9).toNat
  else if 0x21 ≤ card ∧ card ≤ 0x29 then (card - 0x20 + 18).toNat
  else if 0x31 ≤ card ∧ card ≤ 0x37 then (card - 0x30 + 27).toNat
  else if 0x41 ≤ card ∧ card ≤ 0x48 then (card - 0x40 + 27 + 7).toNat
  else 0

def getCardByIdx (idx : Nat) : Int :=
  if 1 ≤ idx ∧ idx ≤ 9 then idx
  else if 10 ≤ idx ∧ idx ≤ 18 then 0x10 + idx - 9
  else if 19 ≤ idx ∧ idx ≤ 27 then 0x20 + idx - 18
  else if 28 ≤ idx ∧ idx ≤ 34 then 0x30 + idx - 27
  else if 35 ≤ idx ∧ idx ≤ 42 then 0x40 + idx - 34
  else 0

/-- `(card & 0xf0) >> 4`. -/
def getColor (card : Int) : Int := card / 16 % 16

/-- `card & 0x0f`. -/
def getCardValue (card : Int) : Int := card % 16

def isValidCard (card : Int) : Bool :=
  decide ((0x01 ≤ card ∧ card ≤ 0x09) ∨ (0x11 ≤ card ∧ card ≤ 0x19) ∨ (0x21 ≤ card ∧ card ≤ 0x29) ∨
    (0x31 ≤ card ∧ card ≤ 0x37) ∨ (0x41 ≤ card ∧ card ≤ 0x48))

/-- `array<int32_t, TABLE_SIZE>`: tile counts by index. Entry 0 is a placeholder, and no count ever
becomes negative. -/
structure Table where
  counts : List Nat
  size_eq : counts.length = tableSize
deriving DecidableEq

namespace Table

def empty : Table := ⟨List.replicate tableSize 0, List.length_replicate⟩

def get (table : Table) (i : Nat) : Nat := table.counts.getD i 0

/-- One array assignment `table[i] = n`. -/
def set (table : Table) (i n : Nat) : Table :=
  ⟨table.counts.set i n, (List.length_set ..).trans table.size_eq⟩

end Table

def cardsToTable (cards : List Int) : Table :=
  cards.foldl (fun table card => table.set (getCardIdx card) (table.get (getCardIdx card) + 1)) .empty

/-- The 72 tiles of a round before the shuffle: `OnGameStart` skips the suits at 9..26. -/
def initialCards : List Int :=
  (List.range 42).flatMap fun i =>
    if 9 ≤ i ∧ i < 27 then [] else List.replicate (if i < 34 then 4 else 1) (CARDS.getD i 0)

namespace Table

theorem get_set_self (table : Table) {i : Nat} (n : Nat) (bound : i < tableSize) :
    (table.set i n).get i = n := by
  have inside : i < table.counts.length := table.size_eq ▸ bound
  simp only [get, set, List.getD_eq_getElem?_getD, List.getElem?_set_self inside, Option.getD_some]

theorem get_set_of_ne (table : Table) {i j : Nat} (n : Nat) (ne : i ≠ j) :
    (table.set i n).get j = table.get j := by
  simp only [get, set, List.getD_eq_getElem?_getD, List.getElem?_set_ne ne]

/-- Tables are determined by their entries. -/
theorem ext_get {left right : Table} (same : ∀ i < tableSize, left.get i = right.get i) :
    left = right := by
  obtain ⟨leftCounts, leftSize⟩ := left
  obtain ⟨rightCounts, rightSize⟩ := right
  congr 1
  refine List.ext_getElem (leftSize.trans rightSize.symm) fun i leftBound rightBound => ?_
  have entry := same i (leftSize ▸ leftBound)
  change leftCounts.getD i 0 = rightCounts.getD i 0 at entry
  simpa only [List.getD_eq_getElem?_getD, List.getElem?_eq_getElem leftBound,
    List.getElem?_eq_getElem rightBound, Option.getD_some] using entry

@[simp] theorem get_empty (i : Nat) : empty.get i = 0 := by
  simp only [get, empty, List.getD_eq_getElem?_getD, List.getElem?_replicate]
  split <;> rfl

end Table

theorem getCardIdx_lt (card : Int) : getCardIdx card < tableSize := by
  unfold getCardIdx tableSize
  repeat' split
  all_goals omega

theorem cardsToTable_foldl (cards : List Int) (table : Table) (i : Nat) :
    (cards.foldl (fun table card => table.set (getCardIdx card) (table.get (getCardIdx card) + 1)) table).get i =
      table.get i + (cards.map getCardIdx).count i := by
  induction cards generalizing table with
  | nil => simp
  | cons card rest ih =>
    rw [List.foldl_cons, ih, List.map_cons, List.count_cons]
    by_cases same : getCardIdx card = i
    · subst same
      rw [Table.get_set_self _ _ (getCardIdx_lt card)]
      simp only [BEq.rfl, ↓reduceIte]
      omega
    · rw [Table.get_set_of_ne _ _ same]
      simp only [beq_iff_eq, same, ↓reduceIte, Nat.add_zero]

/-- The table counts, for each index, the tiles of that index. -/
theorem cardsToTable_get (cards : List Int) (i : Nat) :
    (cardsToTable cards).get i = (cards.map getCardIdx).count i := by
  simp only [cardsToTable, cardsToTable_foldl, Table.get_empty, Nat.zero_add]

/-! ## Indices -/

theorem getCardByIdx_valid {idx : Nat} (low : 1 ≤ idx) (high : idx < tableSize) :
    isValidCard (getCardByIdx idx) = true ∧ getCardIdx (getCardByIdx idx) = idx := by
  have all : ∀ i < tableSize, 1 ≤ i → isValidCard (getCardByIdx i) = true ∧ getCardIdx (getCardByIdx i) = i := by decide
  exact all idx high low

theorem getCardByIdx_getCardIdx {card : Int} (valid : isValidCard card = true) :
    getCardByIdx (getCardIdx card) = card := by
  have all : ∀ n : Nat, n < 0x49 → isValidCard n = true → getCardByIdx (getCardIdx n) = n := by decide
  have bounds : 0 ≤ card ∧ card < 0x49 := by
    simp only [isValidCard, decide_eq_true_eq] at valid
    omega
  lift card to Nat using bounds.1
  exact all card (by omega) valid

theorem getCardIdx_injective {card other : Int} (valid : isValidCard card = true)
    (otherValid : isValidCard other = true) (same : getCardIdx card = getCardIdx other) : card = other := by
  rw [← getCardByIdx_getCardIdx valid, same, getCardByIdx_getCardIdx otherValid]

/-- On valid tiles a table entry is the count of the tile. -/
theorem cardsToTable_get_card {cards : List Int} (allValid : ∀ card ∈ cards, isValidCard card = true)
    {card : Int} (valid : isValidCard card = true) :
    (cardsToTable cards).get (getCardIdx card) = cards.count card := by
  rw [cardsToTable_get]
  induction cards with
  | nil => rfl
  | cons head rest ih =>
    rw [List.map_cons, List.count_cons, List.count_cons,
      ih fun tile present => allValid tile (List.mem_cons_of_mem _ present)]
    have same : (getCardIdx head == getCardIdx card) = (head == card) := by
      rw [Bool.eq_iff_iff, beq_iff_eq, beq_iff_eq]
      exact ⟨getCardIdx_injective (allValid head List.mem_cons_self) valid, congrArg getCardIdx⟩
    rw [same]

end H5Server.Erqs
