import H5Server.Erqs.WinCheck
import Mathlib.Data.Finset.Insert
import Mathlib.Data.Nat.Digits.Defs

/-! # The winning-shape generator (`CTableMgr.cpp`)

`GenTableItem` adds triplets and sequences to nine counts, up to four deep, and stores every vector on the way with and
without a pair. No vector is missed by the guards, which only look at the counts that are reached.
-/

namespace H5Server.Erqs

/-! ## Generator -/

/-- The working vector, and the items stored for each number of tiles. -/
structure TableMgr where
  cards : List Nat
  tables : Nat → Finset Nat
  ziTables : Nat → Finset Nat

/-- `m_tables[sum]->add(value)`. -/
def addTo (tables : Nat → Finset Nat) (sum value : Nat) : Nat → Finset Nat :=
  Function.update tables sum (insert value (tables sum))

/-- `cards[i] += n`. -/
def addAt (cards : List Nat) (i n : Nat) : List Nat := cards.set i (cards.getD i 0 + n)

/-- `cards[i] -= n`. -/
def subAt (cards : List Nat) (i n : Nat) : List Nat := cards.set i (cards.getD i 0 - n)

/-- The value and the sum that `AddItemToTable` reads off a vector. -/
def itemOf (cards : List Nat) : Nat × Nat :=
  cards.zipIdx.foldl (fun (value, sum) (card, i) =>
    (if i ≠ cards.length - 1 then (value + card) * 10 else value + card, sum + card)) (0, 0)

def addItemToTable (mgr : TableMgr) : TableMgr :=
  let (value, sum) := itemOf mgr.cards
  if sum ≠ 0 then
    if mgr.cards.length = 7 then { mgr with ziTables := addTo mgr.ziTables sum value }
    else { mgr with tables := addTo mgr.tables sum value }
  else mgr

def addItemAndAllEyeToTable (mgr : TableMgr) : TableMgr :=
  (List.range mgr.cards.length).foldl (fun mgr i =>
    if mgr.cards.getD i 0 < 3 then
      let mgr := addItemToTable { mgr with cards := addAt mgr.cards i 2 }
      { mgr with cards := subAt mgr.cards i 2 }
    else mgr) (addItemToTable mgr)

/-- One group of the loop: `i` below the size is a triplet, otherwise a sequence. -/
def genGroup (deeper : TableMgr → TableMgr) (mgr : TableMgr) (i : Nat) : TableMgr :=
  let cards := mgr.cards
  let idx := i - cards.length
  let restore (mgr : TableMgr) : TableMgr :=
    if i < 9 then { mgr with cards := subAt mgr.cards i 3 }
    else { mgr with cards := subAt (subAt (subAt mgr.cards (i - 9) 1) (i - 9 + 1) 1) (i - 9 + 2) 1 }
  if i < cards.length then
    if 2 ≤ cards.getD i 0 then mgr
    else restore (deeper (addItemAndAllEyeToTable { mgr with cards := addAt cards i 3 }))
  else if 4 ≤ cards.getD idx 0 ∨ 4 ≤ cards.getD (idx + 1) 0 ∨ 4 ≤ cards.getD (idx + 2) 0 then mgr
  else restore (deeper (addItemAndAllEyeToTable
    { mgr with cards := addAt (addAt (addAt cards idx 1) (idx + 1) 1) (idx + 2) 1 }))

/-- `GenTableItem`, where `left` levels follow: `4 - level`. -/
def genTableItem : Nat → TableMgr → TableMgr
  | 0, mgr => (List.range 16).foldl (genGroup id) mgr
  | left + 1, mgr => (List.range 16).foldl (genGroup (genTableItem left)) mgr

/-- The generator from empty tables. -/
def genTable : TableMgr :=
  genTableItem 3 (addItemAndAllEyeToTable ⟨List.replicate 9 0, fun _ => ∅, fun _ => ∅⟩)

/-! ## Groups -/

/-- A triplet of one rank, or a sequence of three. -/
inductive Group where
  | triplet (rank : Fin 9)
  | sequence (first : Fin 7)
deriving DecidableEq, Repr

/-- How many tiles of a rank a group has. -/
def Group.count (group : Group) (j : ℕ) : ℕ :=
  match group with
  | triplet rank => if j = rank then 3 else 0
  | sequence first => if first ≤ j ∧ j ≤ first + 2 then 1 else 0

/-- The tiles of groups and perhaps a pair. -/
def ranksOf (groups : List Group) (eye : Option (Fin 9)) (j : ℕ) : ℕ :=
  (groups.map (·.count j)).sum + if eye.map (·.val) = some j then 2 else 0

/-- The counts of nine ranks are split into groups, with a pair if two tiles are over. -/
def SplitsRanks (counts : List Nat) : Prop :=
  ∃ (groups : List Group) (eye : Option (Fin 9)), groups.length = counts.sum / 3 ∧ (eye.isSome ↔ counts.sum % 3 = 2)
    ∧ ∀ j < 9, counts.getD j 0 = ranksOf groups eye j

/-- The decimal number of a vector. -/
def encode (counts : List Nat) : Nat := counts.foldl (fun value card => 10 * value + card) 0

/-! ## Vectors -/

variable {cards cards' : List Nat} {mgr mgr' mgr'' : TableMgr}

theorem length_addAt (cards : List Nat) (i n : Nat) : (addAt cards i n).length = cards.length := List.length_set ..

theorem getD_addAt (cards : List Nat) (i n j : Nat) :
    (addAt cards i n).getD j 0 = cards.getD j 0 + if i = j ∧ i < cards.length then n else 0 := by
  rw [addAt, List.getD_eq_getElem?_getD, List.getElem?_set]
  rcases eq_or_ne i j with rfl | other
  · rw [if_pos rfl]
    rcases Nat.lt_or_ge i cards.length with inside | outside
    · rw [if_pos inside, if_pos ⟨rfl, inside⟩]
      rfl
    · rw [if_neg outside.not_gt, if_neg (by omega), List.getD_eq_getElem?_getD, List.getElem?_eq_none outside]
      rfl
  · rw [if_neg other, if_neg (by tauto), ← List.getD_eq_getElem?_getD, Nat.add_zero]

theorem length_subAt (cards : List Nat) (i n : Nat) : (subAt cards i n).length = cards.length := List.length_set ..

theorem getD_subAt (cards : List Nat) (i n j : Nat) :
    (subAt cards i n).getD j 0 = cards.getD j 0 - if i = j ∧ i < cards.length then n else 0 := by
  rw [subAt, List.getD_eq_getElem?_getD, List.getElem?_set]
  rcases eq_or_ne i j with rfl | other
  · rw [if_pos rfl]
    rcases Nat.lt_or_ge i cards.length with inside | outside
    · rw [if_pos inside, if_pos ⟨rfl, inside⟩]
      rfl
    · rw [if_neg outside.not_gt, if_neg (by omega), List.getD_eq_getElem?_getD, List.getElem?_eq_none outside]
      rfl
  · rw [if_neg other, if_neg (by tauto), ← List.getD_eq_getElem?_getD, Nat.sub_zero]

theorem ext_getD (length : cards.length = cards'.length) (same : ∀ j, cards.getD j 0 = cards'.getD j 0) : cards = cards' := by
  refine List.ext_getElem length fun j inside inside' => ?_
  have here := same j
  rwa [List.getD_eq_getElem?_getD, List.getD_eq_getElem?_getD, List.getElem?_eq_getElem inside,
    List.getElem?_eq_getElem inside'] at here

/-- A vector with groups and perhaps a pair added. -/
def plus (cards : List Nat) (groups : List Group) (eye : Option (Fin 9)) : List Nat :=
  (List.range 9).map fun j => cards.getD j 0 + ranksOf groups eye j

theorem length_plus (cards : List Nat) (groups : List Group) (eye : Option (Fin 9)) : (plus cards groups eye).length = 9 := by
  rw [plus, List.length_map, List.length_range]

theorem getD_plus (cards : List Nat) (groups : List Group) (eye : Option (Fin 9)) {j : Nat} (inside : j < 9) :
    (plus cards groups eye).getD j 0 = cards.getD j 0 + ranksOf groups eye j := by
  rw [plus, List.getD_eq_getElem?_getD, List.getElem?_map, List.getElem?_range inside]
  rfl

theorem eq_plus (nine : cards'.length = 9) {groups : List Group} {eye : Option (Fin 9)}
    (same : ∀ j < 9, cards'.getD j 0 = cards.getD j 0 + ranksOf groups eye j) : cards' = plus cards groups eye := by
  refine ext_getD (nine.trans (length_plus ..).symm) fun j => ?_
  rcases Nat.lt_or_ge j 9 with inside | outside
  · rw [same j inside, getD_plus _ _ _ inside]
  · rw [List.getD_eq_getElem?_getD, List.getD_eq_getElem?_getD, List.getElem?_eq_none (by omega),
      List.getElem?_eq_none (by rw [length_plus]; omega)]

/-- At most four tiles of each rank. -/
def Bounded (cards : List Nat) : Prop := ∀ j < 9, cards.getD j 0 ≤ 4

/-! ## What is stored -/

/-- The vector is left as it was, and these vectors are stored. -/
structure Stores (mgr mgr' : TableMgr) (vectors : List Nat → Prop) : Prop where
  cards : mgr'.cards = mgr.cards
  tables : ∀ s x, x ∈ mgr'.tables s ↔ x ∈ mgr.tables s ∨ ∃ v, vectors v ∧ v.sum = s ∧ s ≠ 0 ∧ encode v = x

theorem Stores.congr {vectors vectors' : List Nat → Prop} (stores : Stores mgr mgr' vectors)
    (same : ∀ v, vectors v ↔ vectors' v) : Stores mgr mgr' vectors' :=
  ⟨stores.cards, fun s x => by rw [stores.tables s x]; simp only [same]⟩

theorem Stores.trans {vectors vectors' : List Nat → Prop} (first : Stores mgr mgr' vectors)
    (second : Stores mgr' mgr'' vectors') : Stores mgr mgr'' fun v => vectors v ∨ vectors' v := by
  refine ⟨second.cards.trans first.cards, fun s x => ?_⟩
  rw [second.tables, first.tables]
  simp only [or_and_right, exists_or, or_assoc]

theorem Stores.refl (mgr : TableMgr) : Stores mgr mgr fun _ => False :=
  ⟨rfl, fun s x => by simp⟩

/-- One step after another, each from the same vector. -/
theorem stores_foldl {step : TableMgr → Nat → TableMgr} {vectors : Nat → List Nat → Prop} {items : List Nat}
    (each : ∀ i ∈ items, ∀ mgr : TableMgr, mgr.cards = cards → Stores mgr (step mgr i) (vectors i))
    (start : mgr.cards = cards) : Stores mgr (items.foldl step mgr) fun v => ∃ i ∈ items, vectors i v := by
  induction items generalizing mgr with
  | nil => exact (Stores.refl mgr).congr fun v => by simp
  | cons i items ih =>
    obtain ⟨here, later⟩ := List.forall_mem_cons.mp each
    have first := here mgr start
    exact (first.trans (ih later (first.cards.trans start))).congr fun v => by simp

theorem itemOf_eq (cards : List Nat) : itemOf cards = (encode cards, cards.sum) := by
  have fold (cards : List Nat) (size i value sum : Nat) (at_ : i + cards.length = size) :
      (cards.zipIdx i).foldl (fun (value, sum) (card, i) =>
        (if i ≠ size - 1 then (value + card) * 10 else value + card, sum + card)) (10 * value, sum)
        = if cards = [] then (10 * value, sum)
          else (cards.foldl (fun value card => 10 * value + card) value, sum + cards.sum) := by
    induction cards generalizing i value sum with
    | nil => rfl
    | cons card cards ih =>
      rw [List.zipIdx_cons, List.foldl_cons, if_neg (List.cons_ne_nil _ _), List.foldl_cons, List.sum_cons, ← Nat.add_assoc]
      dsimp only
      cases cards with
      | nil =>
        rw [if_neg (by rw [← at_]; simp)]
        rfl
      | cons card' cards =>
        rw [if_pos (by rw [← at_]; simp), Nat.mul_comm _ 10, ih _ _ _ (by simp only [List.length_cons] at at_ ⊢; omega),
          if_neg (List.cons_ne_nil _ _)]
  have whole := fold cards cards.length 0 0 0 (Nat.zero_add _)
  rw [itemOf, encode]
  refine whole.trans ?_
  split
  next empty => rw [empty]; rfl
  next => rw [Nat.zero_add]

theorem mem_addTo {tables : Nat → Finset Nat} {sum value s x : Nat} :
    x ∈ addTo tables sum value s ↔ x ∈ tables s ∨ s = sum ∧ x = value := by
  rw [addTo]
  rcases eq_or_ne s sum with rfl | other
  · rw [Function.update_self, Finset.mem_insert]
    tauto
  · rw [Function.update_of_ne other]
    tauto

theorem stores_addItem (nine : mgr.cards.length = 9) : Stores mgr (addItemToTable mgr) fun v => v = mgr.cards := by
  rw [addItemToTable, itemOf_eq]
  dsimp only
  split
  next some_ =>
    rw [if_neg (by omega)]
    refine ⟨rfl, fun s x => ?_⟩
    rw [mem_addTo]
    refine or_congr_right ⟨?_, ?_⟩
    · rintro ⟨rfl, rfl⟩
      exact ⟨_, rfl, rfl, some_, rfl⟩
    · rintro ⟨v, rfl, rfl, -, rfl⟩
      exact ⟨rfl, rfl⟩
  next none_ =>
    refine ⟨rfl, fun s x => ?_⟩
    refine (or_iff_left ?_).symm
    rintro ⟨v, rfl, rfl, some_, -⟩
    exact none_ some_

/-- What is stored in a changed vector that is put back afterwards. -/
theorem Stores.back {vectors : List Nat → Prop} (stores : Stores { mgr with cards := cards } mgr' vectors)
    (same : cards' = mgr.cards) : Stores mgr { mgr' with cards := cards' } vectors :=
  ⟨same, stores.tables⟩

theorem subAt_addAt (cards : List Nat) (i n : Nat) : subAt (addAt cards i n) i n = cards := by
  refine ext_getD (by rw [length_subAt, length_addAt]) fun j => ?_
  rw [getD_subAt, getD_addAt, length_addAt]
  split <;> omega

theorem ranksOf_nil (eye : Option (Fin 9)) (j : ℕ) : ranksOf [] eye j = if eye.map (·.val) = some j then 2 else 0 := by
  rw [ranksOf, List.map_nil, List.sum_nil, Nat.zero_add]

/-- The vector with and without each pair. -/
theorem stores_addItemAndAllEye (nine : mgr.cards.length = 9) (bounded : Bounded mgr.cards) :
    Stores mgr (addItemAndAllEyeToTable mgr) fun v => ∃ eye, v = plus mgr.cards [] eye ∧ Bounded v := by
  have first := stores_addItem nine
  have each : ∀ i ∈ List.range mgr.cards.length, ∀ mgr' : TableMgr, mgr'.cards = mgr.cards →
      Stores mgr' (if mgr'.cards.getD i 0 < 3 then
        let mgr := addItemToTable { mgr' with cards := addAt mgr'.cards i 2 }
        { mgr with cards := subAt mgr.cards i 2 }
        else mgr') fun v => mgr.cards.getD i 0 < 3 ∧ v = addAt mgr.cards i 2 := by
    intro i inside mgr' same
    rw [same]
    split
    next room =>
      have stored := @stores_addItem { mgr' with cards := addAt mgr.cards i 2 } ((length_addAt ..).trans nine)
      refine (stored.back ?_).congr fun v => (and_iff_right room).symm
      rw [stored.cards, same]
      exact subAt_addAt _ _ _
    next full => exact (Stores.refl mgr').congr fun v => iff_of_false id fun both => full both.1
  refine (first.trans (stores_foldl each first.cards)).congr fun v => ?_
  constructor
  · rintro (rfl | ⟨i, inside, room, rfl⟩)
    · refine ⟨none, eq_plus nine fun j _ => ?_, bounded⟩
      rw [ranksOf_nil]
      simp
    · rw [List.mem_range, nine] at inside
      refine ⟨some ⟨i, inside⟩, eq_plus ((length_addAt ..).trans nine) fun j _ => ?_, fun j below => ?_⟩
      · rw [ranksOf_nil, getD_addAt, nine]
        simp [inside]
      · have few := bounded j below
        rw [getD_addAt]
        split
        next same => rw [← same.1]; omega
        next => omega
  · rintro ⟨eye, rfl, within⟩
    cases eye with
    | none =>
      refine .inl (eq_plus nine fun j _ => ?_).symm
      rw [ranksOf_nil]
      simp
    | some i =>
      have room := within i i.isLt
      rw [getD_plus _ _ _ i.isLt, ranksOf_nil] at room
      simp only [Option.map_some, if_true] at room
      refine .inr ⟨i, List.mem_range.mpr (by rw [nine]; exact i.isLt), by omega, ?_⟩
      refine (eq_plus ((length_addAt ..).trans nine) fun j _ => ?_).symm
      rw [ranksOf_nil, getD_addAt, nine]
      simp

/-! ## Levels -/

/-- The place of a group in the loop. -/
def Group.index : Group → ℕ
  | triplet rank => rank
  | sequence first => 9 + first

/-- The vector with a group. -/
def Group.add (cards : List Nat) : Group → List Nat
  | triplet rank => addAt cards rank 3
  | sequence first => addAt (addAt (addAt cards first 1) (first + 1) 1) (first + 2) 1

theorem exists_index_eq {i : ℕ} (inside : i < 16) : ∃ group : Group, group.index = i := by
  rcases Nat.lt_or_ge i 9 with low | high
  · exact ⟨.triplet ⟨i, low⟩, rfl⟩
  · exact ⟨.sequence ⟨i - 9, by omega⟩, Nat.add_sub_cancel' high⟩

theorem index_injective {group group' : Group} (same : group.index = group'.index) : group = group' := by
  rcases group with ⟨rank, low⟩ | ⟨first, low⟩ <;> rcases group' with ⟨rank', low'⟩ | ⟨first', low'⟩ <;>
    simp only [Group.index] at same
  · subst same; rfl
  · omega
  · omega
  · obtain rfl : first = first' := by omega
    rfl

theorem length_add (cards : List Nat) (group : Group) : (group.add cards).length = cards.length := by
  cases group <;> simp only [Group.add, length_addAt]

theorem getD_add (nine : cards.length = 9) (group : Group) (j : ℕ) :
    (group.add cards).getD j 0 = cards.getD j 0 + group.count j := by
  cases group with
  | triplet rank =>
    have := rank.isLt
    rw [Group.add, getD_addAt, Group.count, nine]
    simp only [this, and_true, eq_comm]
  | sequence first =>
    have := first.isLt
    rw [Group.add, getD_addAt, getD_addAt, getD_addAt, Group.count]
    simp only [length_addAt, nine]
    split_ifs <;> omega

theorem ranksOf_cons (group : Group) (groups : List Group) (eye : Option (Fin 9)) (j : ℕ) :
    ranksOf (group :: groups) eye j = group.count j + ranksOf groups eye j := by
  rw [ranksOf, ranksOf, List.map_cons, List.sum_cons, Nat.add_assoc]

theorem plus_add (nine : cards.length = 9) (group : Group) (groups : List Group) (eye : Option (Fin 9)) :
    plus (group.add cards) groups eye = plus cards (group :: groups) eye := by
  refine eq_plus (length_plus ..) fun j inside => ?_
  rw [getD_plus _ _ _ inside, getD_add nine, ranksOf_cons, Nat.add_assoc]

/-- The vectors in which a group comes first and at most so many follow. -/
def Behind (cards : List Nat) (left : ℕ) (group : Group) (v : List Nat) : Prop :=
  ∃ groups eye, groups.length ≤ left ∧ v = plus cards (group :: groups) eye ∧ Bounded v

/-- What a level stores: the vectors with at least one group. -/
def Deep (left : ℕ) (deeper : TableMgr → TableMgr) : Prop :=
  ∀ mgr : TableMgr, mgr.cards.length = 9 → Bounded mgr.cards → Stores mgr (deeper mgr) fun v =>
    ∃ groups eye, 1 ≤ groups.length ∧ groups.length ≤ left ∧ v = plus mgr.cards groups eye ∧ Bounded v

theorem bounded_add_of_behind (nine : cards.length = 9) {left : ℕ} {group : Group} {v : List Nat}
    (behind : Behind cards left group v) : Bounded (group.add cards) := by
  obtain ⟨groups, eye, -, rfl, bounded⟩ := behind
  intro j inside
  have few := bounded j inside
  rw [getD_plus _ _ _ inside, ranksOf_cons] at few
  rw [getD_add nine]
  omega

/-- With the group taken in, the vector and the deeper levels store what is behind it. -/
theorem Deep.stores {left : ℕ} {deeper : TableMgr → TableMgr} (deep : Deep left deeper) (nine : mgr.cards.length = 9)
    (group : Group) (bounded : Bounded (group.add mgr.cards)) :
    Stores { mgr with cards := group.add mgr.cards }
      (deeper (addItemAndAllEyeToTable { mgr with cards := group.add mgr.cards })) (Behind mgr.cards left group) := by
  have nine' : (group.add mgr.cards).length = 9 := (length_add ..).trans nine
  have here := @stores_addItemAndAllEye { mgr with cards := group.add mgr.cards } nine' bounded
  have later := deep (addItemAndAllEyeToTable { mgr with cards := group.add mgr.cards }) (by rw [here.cards]; exact nine')
    (by rw [here.cards]; exact bounded)
  refine (here.trans later).congr fun v => ?_
  rw [here.cards]
  simp only [plus_add nine]
  constructor
  · rintro (⟨eye, eq, within⟩ | ⟨groups, eye, -, few, eq, within⟩)
    · exact ⟨[], eye, Nat.zero_le left, eq, within⟩
    · exact ⟨groups, eye, few, eq, within⟩
  · rintro ⟨groups, eye, few, eq, within⟩
    cases groups with
    | nil => exact .inl ⟨eye, eq, within⟩
    | cons group' groups => exact .inr ⟨group' :: groups, eye, by rw [List.length_cons]; omega, few, eq, within⟩

theorem stores_genGroup {left : ℕ} {deeper : TableMgr → TableMgr} (deep : Deep left deeper) (nine : mgr.cards.length = 9)
    (bounded : Bounded mgr.cards) (group : Group) :
    Stores mgr (genGroup deeper mgr group.index) (Behind mgr.cards left group) := by
  have stored := deep.stores nine group
  have none_ (more : ¬Bounded (group.add mgr.cards)) : Stores mgr mgr (Behind mgr.cards left group) :=
    (Stores.refl mgr).congr fun v => iff_of_false id fun behind => more (bounded_add_of_behind nine behind)
  have counts := getD_add nine group
  rw [genGroup]
  dsimp only
  cases group with
  | triplet rank =>
    have inside := rank.isLt
    rw [Group.index, nine, if_pos inside]
    split
    next full =>
      refine none_ fun within => ?_
      have few := within rank inside
      rw [counts, Group.count, if_pos rfl] at few
      omega
    next room =>
      have within : Bounded ((Group.triplet rank).add mgr.cards) := by
        intro j below
        have few := bounded j below
        rw [counts, Group.count]
        split
        next same => rw [same]; omega
        next => exact few
      refine (stored within).back ?_
      have same : subAt ((Group.triplet rank).add mgr.cards) rank 3 = mgr.cards := subAt_addAt _ _ _
      exact (congrArg (subAt · rank 3) (stored within).cards).trans same
  | sequence first =>
    have inside := first.isLt
    rw [Group.index, nine, if_neg (by omega), Nat.add_sub_cancel_left]
    split
    next full =>
      refine none_ fun within => ?_
      have few := within first (by omega)
      have few' := within (first + 1) (by omega)
      have few'' := within (first + 2) (by omega)
      rw [counts, Group.count, if_pos (by omega)] at few few' few''
      omega
    next room =>
      have within : Bounded ((Group.sequence first).add mgr.cards) := by
        intro j below
        have few := bounded j below
        rw [counts, Group.count]
        split
        next near =>
          obtain rfl | rfl | rfl : j = first ∨ j = first + 1 ∨ j = first + 2 := by omega
          all_goals omega
        next => exact few
      rw [if_neg (by omega)]
      refine (stored within).back ?_
      have same : subAt (subAt (subAt ((Group.sequence first).add mgr.cards) first 1) (first + 1) 1) (first + 2) 1
          = mgr.cards := by
        refine ext_getD (by simp only [length_subAt, length_add]) fun j => ?_
        rw [getD_subAt, getD_subAt, getD_subAt, counts, Group.count]
        simp only [length_subAt, length_add, nine]
        split_ifs <;> omega
      exact (congrArg (fun cards => subAt (subAt (subAt cards first 1) (first + 1) 1) (first + 2) 1)
        (stored within).cards).trans same

theorem deep_id : Deep 0 id := fun mgr _ _ =>
  (Stores.refl mgr).congr fun v => iff_of_false id fun ⟨_, _, some_, none_, _⟩ => absurd (some_.trans none_) (by decide)

theorem Deep.next {left : ℕ} {deeper : TableMgr → TableMgr} (deep : Deep left deeper) :
    Deep (left + 1) fun mgr => (List.range 16).foldl (genGroup deeper) mgr := by
  intro mgr nine bounded
  have each : ∀ i ∈ List.range 16, ∀ mgr' : TableMgr, mgr'.cards = mgr.cards →
      Stores mgr' (genGroup deeper mgr' i) fun v => ∃ group : Group, group.index = i ∧ Behind mgr.cards left group v := by
    intro i inside mgr' same
    obtain ⟨group, rfl⟩ := exists_index_eq (List.mem_range.mp inside)
    have stored := @stores_genGroup mgr' _ _ deep (by rw [same]; exact nine) (by rw [same]; exact bounded) group
    refine stored.congr fun v => ?_
    rw [same]
    constructor
    · exact fun behind => ⟨group, rfl, behind⟩
    · rintro ⟨group', index, behind⟩
      rwa [← index_injective index]
  refine (stores_foldl each rfl).congr fun v => ?_
  constructor
  · rintro ⟨i, -, group, -, groups, eye, few, eq, within⟩
    exact ⟨group :: groups, eye, by rw [List.length_cons]; omega, by rw [List.length_cons]; omega, eq, within⟩
  · rintro ⟨groups, eye, some_, few, eq, within⟩
    cases groups with
    | nil => exact absurd some_ (by decide)
    | cons group groups =>
      refine ⟨group.index, List.mem_range.mpr ?_, group, rfl, groups, eye, Nat.le_of_succ_le_succ few, eq, within⟩
      cases group with
      | triplet rank => exact rank.isLt.trans (by decide)
      | sequence first => exact Nat.add_lt_add_left first.isLt 9

theorem deep_genTableItem (left : ℕ) : Deep (left + 1) (genTableItem left) := by
  induction left with
  | zero => exact deep_id.next
  | succ left ih => exact ih.next

/-- The generator restores its vector and stores the vectors of at most four groups, with and without a pair. -/
theorem stores_genTable : Stores ⟨List.replicate 9 0, fun _ => ∅, fun _ => ∅⟩ genTable fun v =>
    ∃ groups eye, groups.length ≤ 4 ∧ v = plus (List.replicate 9 0) groups eye ∧ Bounded v := by
  have bounded : Bounded (List.replicate 9 0) := by
    rw [Bounded]
    decide
  have first := @stores_addItemAndAllEye ⟨List.replicate 9 0, fun _ => ∅, fun _ => ∅⟩ rfl bounded
  have later := deep_genTableItem 3 _ (by rw [first.cards]; rfl) (by rw [first.cards]; exact bounded)
  refine (first.trans later).congr fun v => ?_
  rw [first.cards]
  constructor
  · rintro (⟨eye, eq, within⟩ | ⟨groups, eye, -, few, eq, within⟩)
    · exact ⟨[], eye, by decide, eq, within⟩
    · exact ⟨groups, eye, few, eq, within⟩
  · rintro ⟨groups, eye, few, eq, within⟩
    cases groups with
    | nil => exact .inl ⟨eye, eq, within⟩
    | cons group groups => exact .inr ⟨_, eye, by rw [List.length_cons]; omega, few, eq, within⟩

end H5Server.Erqs
