import H5Server.Erqs.TableGen
import Mathlib.Data.List.GetD
import Mathlib.Data.Nat.Digits.Lemmas

/-! # The generator and the win check

Groups on nine ranks are melds as the check of one suit reads them. So the generator stores the numbers of the vectors
that `check_color` accepts.
-/

namespace H5Server.Erqs

open Lib

variable {groups : List Group} {eye : Option (Fin 9)} {counts : List Nat} {offset : Nat} {table : Table} {s : ℕ → Melds}

/-! ## Groups as melds -/

/-- The melds of groups, rank by rank. -/
def meldsOfGroups (groups : List Group) (eye : Option (Fin 9)) (j : ℕ) : Melds where
  triplets := (groups.map (·.index)).count j
  runs := (groups.map (·.index)).count (9 + j)
  pairs := if eye.map (·.val) = some j then 1 else 0

theorem index_lt (group : Group) : group.index < 16 := by
  cases group with
  | triplet rank => exact rank.isLt.trans (by decide)
  | sequence first => exact Nat.add_lt_add_left first.isLt 9

theorem count_eq_index (group : Group) {j : ℕ} (inside : j < 9) : group.count j =
    3 * [group.index].count j + [group.index].count (9 + j) + (if 1 ≤ j then [group.index].count (9 + (j - 1)) else 0)
      + if 2 ≤ j then [group.index].count (9 + (j - 2)) else 0 := by
  simp only [List.count_singleton, beq_iff_eq]
  cases group with
  | triplet rank =>
    have := rank.isLt
    rw [Group.count, Group.index]
    split_ifs <;> omega
  | sequence first =>
    have := first.isLt
    rw [Group.count, Group.index]
    split_ifs <;> omega

theorem sum_counts_eq (groups : List Group) {j : ℕ} (inside : j < 9) : (groups.map (·.count j)).sum =
    3 * (groups.map (·.index)).count j + (groups.map (·.index)).count (9 + j)
      + (if 1 ≤ j then (groups.map (·.index)).count (9 + (j - 1)) else 0)
      + if 2 ≤ j then (groups.map (·.index)).count (9 + (j - 2)) else 0 := by
  induction groups with
  | nil => simp
  | cons group groups ih =>
    have here := count_eq_index group inside
    simp only [List.map_cons, List.sum_cons, List.count_cons, List.count_nil] at ih here ⊢
    rw [ih, here]
    split_ifs <;> omega

/-- The tiles of groups are what their melds use. -/
theorem ranksOf_eq (groups : List Group) (eye : Option (Fin 9)) {j : ℕ} (inside : j < 9) : ranksOf groups eye j =
    (meldsOfGroups groups eye j).used + carried (meldsOfGroups groups eye) 0 j := by
  rw [ranksOf, sum_counts_eq groups inside, Melds.used, carried]
  simp only [meldsOfGroups]
  split_ifs <;> omega

/-- Any melds are those of some groups. -/
theorem exists_groups (m : ℕ → Melds) : ∃ groups : List Group,
    (∀ j < 9, (groups.map (·.index)).count j = (m j).triplets) ∧ ∀ j < 7, (groups.map (·.index)).count (9 + j) = (m j).runs := by
  let number (i : ℕ) : ℕ := if i < 9 then (m i).triplets else (m (i - 9)).runs
  have all (bound : ℕ) (high : bound ≤ 16) :
      ∃ groups : List Group, ∀ i, (groups.map (·.index)).count i = if i < bound then number i else 0 := by
    induction bound with
    | zero => exact ⟨[], fun i => rfl⟩
    | succ bound ih =>
      obtain ⟨groups, counted⟩ := ih (by omega)
      obtain ⟨group, index⟩ := exists_index_eq (show bound < 16 by omega)
      refine ⟨List.replicate (number bound) group ++ groups, fun i => ?_⟩
      rw [List.map_append, List.count_append, counted, List.map_replicate, index, List.count_replicate]
      simp only [beq_iff_eq]
      split_ifs <;> first | omega | (subst_vars; omega)
  obtain ⟨groups, counted⟩ := all 16 le_rfl
  refine ⟨groups, fun j inside => ?_, fun j inside => ?_⟩
  · rw [counted, if_pos (by omega)]
    exact if_pos inside
  · rw [counted, if_pos (by omega)]
    simp only [number, if_neg (show ¬9 + j < 9 by omega), Nat.add_sub_cancel_left]

/-! ## One suit -/

/-- The counts of one suit. -/
def ranks (offset : Nat) (table : Table) : List Nat := (List.range 9).map fun k => table.get (offset + k)

theorem getD_ranks (offset : Nat) (table : Table) {j : ℕ} (inside : j < 9) :
    (ranks offset table).getD j 0 = table.get (offset + j) := by
  rw [ranks, List.getD_eq_getElem?_getD, List.getElem?_map, List.getElem?_range inside]
  rfl

theorem runs_eq_zero (groups : List Group) (eye : Option (Fin 9)) {j : ℕ} (high : 7 ≤ j) :
    (meldsOfGroups groups eye j).runs = 0 := by
  refine List.count_eq_zero_of_not_mem fun present => ?_
  obtain ⟨group, -, eq⟩ := List.mem_map.mp present
  have := index_lt group
  omega

theorem carried_shift (m : ℕ → Melds) (offset j : ℕ) :
    carried (fun i => m (i - offset)) offset (offset + j) = carried m 0 j := by
  rw [carried, carried, show offset + j - 1 - offset = j - 1 by omega, show offset + j - 2 - offset = j - 2 by omega]
  split_ifs <;> omega

theorem total_eye (eye : Option (Fin 9)) (offset : ℕ) :
    total (fun i => if eye.map (·.val) = some (i - offset) then 1 else 0) offset 9 = if eye.isSome then 1 else 0 := by
  cases eye with
  | none => rfl
  | some e =>
    have inside := e.isLt
    have same : total (fun i => if (some e).map (·.val) = some (i - offset) then 1 else 0) offset 9
        = total (fun i => if offset + e.val = i then 1 else 0) offset 9 := by
      refine total_congr fun i low high => ?_
      simp only [Option.map_some, Option.some.injEq]
      exact if_congr (by omega) rfl rfl
    rw [same, total_single, if_pos (by omega)]
    rfl

/-- Groups give melds of the suit. -/
theorem suitMelds_of_groups (four : ∀ i, table.get i ≤ 4)
    (all : ∀ j < 9, (ranks offset table).getD j 0 = ranksOf groups eye j) :
    SuitMelds offset table fun i => meldsOfGroups groups eye (i - offset) := by
  have counts {j : ℕ} (inside : j < 9) : table.get (offset + j) = (meldsOfGroups groups eye j).used
      + carried (meldsOfGroups groups eye) 0 j := by
    rw [← getD_ranks offset table inside, all j inside, ranksOf_eq groups eye inside]
  refine ⟨fits_iff.mpr fun i low high => ?_, fun i low high => ?_, ?_⟩
  · obtain ⟨j, rfl⟩ := Nat.exists_eq_add_of_le low
    rw [carried_shift, Nat.add_sub_cancel_left]
    refine ⟨counts (by omega), ?_, ?_⟩
    · rw [meldsOfGroups]
      dsimp only
      split <;> decide
    · rcases Nat.lt_or_ge j 7 with inside | outside
      · exact .inr (by omega)
      · exact .inl (runs_eq_zero groups eye outside)
  · obtain ⟨j, rfl⟩ := Nat.exists_eq_add_of_le low
    have few := four (offset + j)
    rw [counts (by omega)] at few
    rw [Nat.add_sub_cancel_left]
    omega
  · refine (total_eye eye offset).trans_le ?_
    split <;> decide

/-- Melds of the suit are groups. -/
theorem SuitMelds.exists_groups (melds : SuitMelds offset table s) :
    ∃ groups eye, ∀ j < 9, (ranks offset table).getD j 0 = ranksOf groups eye j := by
  obtain ⟨groups, triplets, runs⟩ := Erqs.exists_groups fun j => s (offset + j)
  have fits := fits_iff.mp melds.fits
  have single : ∃ eye : Option (Fin 9), ∀ j < 9, (s (offset + j)).pairs = if eye.map (·.val) = some j then 1 else 0 := by
    rcases Classical.em (∃ j < 9, (s (offset + j)).pairs ≠ 0) with ⟨e, inside, some_⟩ | none_
    · refine ⟨some ⟨e, inside⟩, fun j below => ?_⟩
      have one := (fits (offset + j) (by omega) (by omega)).2.1
      have one' := (fits (offset + e) (by omega) (by omega)).2.1
      have most := melds.one
      simp only [Option.map_some, Option.some.injEq]
      rcases Nat.lt_trichotomy j e with before | rfl | behind
      · have both := add_le_total (t := fun i => (s i).pairs) (show offset ≤ offset + j by omega)
          (show offset + j < offset + e by omega) (show offset + e < offset + 9 by omega)
        rw [if_neg (by omega)]
        omega
      · rw [if_pos rfl]
        omega
      · have both := add_le_total (t := fun i => (s i).pairs) (show offset ≤ offset + e by omega)
          (show offset + e < offset + j by omega) (show offset + j < offset + 9 by omega)
        rw [if_neg (by omega)]
        omega
    · refine ⟨none, fun j below => Decidable.byContradiction fun some_ => none_ ⟨j, below, some_⟩⟩
  obtain ⟨eye, pairs⟩ := single
  have same {j : ℕ} (inside : j < 9) : meldsOfGroups groups eye j = s (offset + j) := by
    have run : (groups.map (·.index)).count (9 + j) = (s (offset + j)).runs := by
      rcases Nat.lt_or_ge j 7 with low | high
      · exact runs j low
      · have none_ := (fits (offset + j) (by omega) (by omega)).2.2
        rw [none_.resolve_right (by omega)]
        exact runs_eq_zero groups eye high
    rw [meldsOfGroups, triplets j inside, run, ← pairs j inside]
  refine ⟨groups, eye, fun j inside => ?_⟩
  rw [getD_ranks offset table inside, ranksOf_eq groups eye inside, (fits (offset + j) (by omega) (by omega)).1, same inside,
    carried, carried]
  congr 2
  · refine if_ctx_congr (by omega) (fun after => ?_) fun _ => rfl
    rw [same (by omega), show offset + j - 1 = offset + (j - 1) by omega]
  · refine if_ctx_congr (by omega) (fun after => ?_) fun _ => rfl
    rw [same (by omega), show offset + j - 2 = offset + (j - 2) by omega]

/-! ## Agreement -/

theorem sum_ranksOf (groups : List Group) (eye : Option (Fin 9)) :
    ((List.range 9).map (ranksOf groups eye)).sum = 3 * groups.length + if eye.isSome then 2 else 0 := by
  induction groups with
  | nil =>
    rw [funext (ranksOf_nil eye)]
    cases eye with
    | none => rfl
    | some e =>
      have all : ∀ e : Fin 9, ((List.range 9).map fun j => if (some e).map (·.val) = some j then 2 else 0).sum = 2 := by decide
      exact all e
  | cons group groups ih =>
    have one : ((List.range 9).map group.count).sum = 3 := by
      cases group with
      | triplet rank =>
        have all : ∀ rank : Fin 9, ((List.range 9).map (Group.triplet rank).count).sum = 3 := by decide
        exact all rank
      | sequence first =>
        have all : ∀ first : Fin 7, ((List.range 9).map (Group.sequence first).count).sum = 3 := by decide
        exact all first
    rw [funext (ranksOf_cons group groups eye), List.sum_map_add, ih, one, List.length_cons]
    omega

theorem eq_ranksOf (nine : counts.length = 9) (all : ∀ j < 9, counts.getD j 0 = ranksOf groups eye j) :
    counts = (List.range 9).map (ranksOf groups eye) := by
  refine List.ext_getElem (by rw [nine, List.length_map, List.length_range]) fun j inside _ => ?_
  have here := all j (nine ▸ inside)
  rw [List.getD_eq_getElem?_getD, List.getElem?_eq_getElem inside, Option.getD_some] at here
  rw [here, List.getElem_map, List.getElem_range]

/-- The number of groups and the pair follow from the number of tiles. -/
theorem splitsRanks_iff (nine : counts.length = 9) :
    SplitsRanks counts ↔ ∃ groups eye, ∀ j < 9, counts.getD j 0 = ranksOf groups eye j := by
  constructor
  · rintro ⟨groups, eye, -, -, all⟩
    exact ⟨groups, eye, all⟩
  · rintro ⟨groups, eye, all⟩
    have sum := sum_ranksOf groups eye
    rw [← eq_ranksOf nine all] at sum
    refine ⟨groups, eye, ?_, ?_, all⟩
    · split at sum <;> omega
    · split at sum
      next some_ => exact iff_of_true some_ (by omega)
      next none_ => exact iff_of_false none_ (by omega)

theorem encode_eq_ofDigits (counts : List Nat) : encode counts = Nat.ofDigits 10 counts.reverse := by
  induction counts using List.reverseRecOn with
  | nil => rfl
  | append_singleton counts card ih =>
    rw [encode, List.foldl_append, ← encode, ih, List.reverse_append, List.reverse_singleton, List.singleton_append,
      Nat.ofDigits_cons, List.foldl_cons, List.foldl_nil, Nat.add_comm]

theorem encode_injective {counts' : List Nat} (length : counts.length = counts'.length) (few : ∀ c ∈ counts, c ≤ 4)
    (few' : ∀ c ∈ counts', c ≤ 4) (same : encode counts = encode counts') : counts = counts' := by
  rw [encode_eq_ofDigits, encode_eq_ofDigits] at same
  refine List.reverse_injective (Nat.ofDigits_inj_of_len_eq (by decide : 1 < 10) ?_ ?_ ?_ same)
  · rw [List.length_reverse, List.length_reverse, length]
  · intro c present
    have := few c (List.mem_reverse.mp present)
    omega
  · intro c present
    have := few' c (List.mem_reverse.mp present)
    omega

/-- What the generator has stored. -/
theorem mem_genTable {s value : Nat} (some_ : s ≠ 0) (small : s ≤ 14) : value ∈ genTable.tables s ↔
    ∃ counts : List Nat, counts.length = 9 ∧ (∀ c ∈ counts, c ≤ 4) ∧ counts.sum = s ∧ SplitsRanks counts
      ∧ value = encode counts := by
  have zeros (groups : List Group) (eye : Option (Fin 9)) :
      plus (List.replicate 9 0) groups eye = (List.range 9).map (ranksOf groups eye) := by
    refine List.map_congr_left fun j inside => ?_
    rw [List.getD_replicate _ (List.mem_range.mp inside), Nat.zero_add]
  rw [stores_genTable.tables]
  constructor
  · rintro (absent | ⟨v, ⟨groups, eye, -, rfl, within⟩, rfl, -, rfl⟩)
    · exact absurd absent (Finset.notMem_empty _)
    · have nine := length_plus (List.replicate 9 0) groups eye
      refine ⟨_, nine, fun c present => ?_, rfl, (splitsRanks_iff nine).mpr ⟨groups, eye, fun j inside => ?_⟩, rfl⟩
      · obtain ⟨j, inside, rfl⟩ := List.getElem_of_mem present
        have few := within j (nine ▸ inside)
        rwa [List.getD_eq_getElem?_getD, List.getElem?_eq_getElem inside] at few
      · rw [getD_plus _ _ _ inside, List.getD_replicate _ inside, Nat.zero_add]
  · rintro ⟨counts, nine, few, rfl, ⟨groups, eye, number, -, all⟩, rfl⟩
    refine .inr ⟨counts, ⟨groups, eye, by omega, ?_, fun j inside => ?_⟩, rfl, some_, rfl⟩
    · rw [zeros, eq_ranksOf nine all]
    · rw [List.getD_eq_getElem?_getD]
      cases eq : counts[j]? with
      | none => exact Nat.zero_le 4
      | some c => exact few c (List.mem_of_getElem? eq)

/-- `check_color` accepts a suit with tiles exactly when its counts are split. -/
theorem checkColor_isSome_iff (suit : offset ≤ 19) (four : ∀ i, table.get i ≤ 4) (some_ : (ranks offset table).sum ≠ 0) :
    (checkColor offset table).isSome = true ↔ SplitsRanks (ranks offset table) := by
  rw [ranks, sum_eq_total] at some_
  rw [checkColor_eq suit, if_neg some_, splitsRanks_iff (by rw [ranks, List.length_map, List.length_range])]
  constructor
  · intro accepted
    rcases List.eq_nil_or_concat (compositions offset table) with none_ | ⟨front, d, eq⟩
    · rw [if_pos none_] at accepted
      exact absurd accepted Bool.false_ne_true
    · obtain ⟨s, melds, -⟩ := exists_melds_of_mem suit (d := d) (by rw [eq]; simp)
      exact melds.exists_groups
  · rintro ⟨groups, eye, all⟩
    obtain ⟨d, present, -⟩ := exists_mem_of_melds suit (suitMelds_of_groups four all)
    rw [if_neg (List.ne_nil_of_mem present)]
    rfl

/-- The generator stores exactly the splittable vectors, which are those that the win check accepts in a suit, and
leaves its vector as it was. -/
theorem genTable_exact :
    genTable.cards = List.replicate 9 0
    ∧ ∀ s ∈ [2, 3, 5, 6, 8, 9, 11, 12, 14],
      (∀ value, value ∈ genTable.tables s ↔ ∃ counts : List Nat, counts.length = 9 ∧ (∀ c ∈ counts, c ≤ 4)
        ∧ counts.sum = s ∧ SplitsRanks counts ∧ value = encode counts)
      ∧ ∀ offset ∈ [1, 10, 19], ∀ table : Table, (∀ i, table.get i ≤ 4) → (ranks offset table).sum = s →
        ((checkColor offset table).isSome = true ↔ encode (ranks offset table) ∈ genTable.tables s) := by
  refine ⟨stores_genTable.cards, fun s key => ?_⟩
  have size : s ≠ 0 ∧ s ≤ 14 := by
    simp only [List.mem_cons, List.not_mem_nil, or_false] at key
    omega
  have stored (value : Nat) : value ∈ genTable.tables s ↔ _ := mem_genTable size.1 size.2
  refine ⟨stored, fun offset one_of table four sum => ?_⟩
  have suit : offset ≤ 19 := by
    simp only [List.mem_cons, List.not_mem_nil, or_false] at one_of
    omega
  have nine : (ranks offset table).length = 9 := by rw [ranks, List.length_map, List.length_range]
  have few : ∀ c ∈ ranks offset table, c ≤ 4 := by
    intro c present
    obtain ⟨k, -, rfl⟩ := List.mem_map.mp present
    exact four _
  rw [checkColor_isSome_iff suit four (by rw [sum]; exact size.1), stored]
  constructor
  · exact fun splits => ⟨_, nine, few, sum, splits, rfl⟩
  · rintro ⟨counts, nine', few', -, splits, same⟩
    rwa [encode_injective (nine.trans nine'.symm) few few' same]

end H5Server.Erqs
