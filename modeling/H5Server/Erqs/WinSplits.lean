import H5Server.Erqs.WinMerge

/-! # Winning tables

`canHu` accepts a table without flowers that is split into melds with at most one pair, or that has seven pairs. With
up to fourteen tiles the decompositions it gives are all there are, each once.
-/

namespace H5Server.Erqs

open Lib

variable {offset : Nat} {table : Table} {s s' : ℕ → Melds} {zi d : ComposeCard}

/-! ## The parts together -/

theorem walk_of_total_eq_zero {left : Nat} (within : left ≤ 9) (none_ : total table.get (offset + (9 - left)) left = 0) :
    walk offset left table = [[]] := by
  induction left with
  | zero => rfl
  | succ left ih =>
    rw [total] at none_
    obtain ⟨here, later⟩ := Nat.add_eq_zero_iff.mp none_
    rw [show offset + (9 - (left + 1)) + 1 = offset + (9 - left) by omega] at later
    rw [walk]
    dsimp only
    rw [if_pos here]
    exact ih (by omega) later

/-- The decompositions that `check_color` adds for a suit. -/
def suitCards (offset : Nat) (table : Table) : List ComposeCard :=
  if total table.get offset 9 = 0 then [] else compositions offset table

theorem compositions_of_total_eq_zero (none_ : total table.get offset 9 = 0) : compositions offset table = [{}] := by
  rw [compositions, walk_of_total_eq_zero le_rfl none_]
  rfl

theorem choices_suitCards (some_ : compositions offset table ≠ []) :
    choices (suitCards offset table) = compositions offset table := by
  rw [suitCards]
  split
  next none_ => rw [compositions_of_total_eq_zero none_, choices, if_pos rfl]
  next => rw [choices, if_neg some_]

theorem checkColor_eq_suitCards (suit : offset ≤ 19) (table : Table) : checkColor offset table =
    if compositions offset table = [] then none else some (table, suitCards offset table) := by
  rw [checkColor_eq suit, suitCards]
  split
  next none_ => rw [compositions_of_total_eq_zero none_, if_neg (List.cons_ne_nil _ _)]
  next => rfl

/-- The card of the honours. -/
def ziCard (table : Table) : ComposeCard :=
  ⟨threesFrom 7 28 (ziMelds table), (eyesFrom 7 28 (ziMelds table)).head?⟩

/-- All decompositions that `canHu` puts together. -/
def readings (table : Table) : List ComposeCard :=
  mergeComposeCards (ziCard table) [suitCards 1 table, suitCards 10 table, suitCards 19 table]

def NoFlower (table : Table) : Prop := ∀ k < 8, table.get (35 + k) = 0

/-- Every part passes its check. -/
structure PartsFit (table : Table) : Prop where
  zi : ZiFits table 7
  wan : compositions 1 table ≠ []
  tiao : compositions 10 table ≠ []
  tong : compositions 19 table ≠ []

theorem canHuTable_of_flower (flower : ¬NoFlower table) (composeCards : List ComposeCard) :
    canHuTable table composeCards = (false, composeCards) := by
  rw [canHuTable, if_pos]
  simpa [NoFlower] using flower

theorem canHuTable_of_not_partsFit (none_ : NoFlower table) (parts : ¬PartsFit table) (composeCards : List ComposeCard) :
    canHuTable table composeCards = (isTableQiDui table, composeCards) := by
  have clear_ : ¬(List.range 8).any (fun k => decide (table.get (35 + k) ≠ 0)) = true := by
    simpa [NoFlower] using none_
  rw [canHuTable, if_neg clear_, checkZi_eq]
  rcases Decidable.em (ZiFits table 7) with zi | zi
  · rw [if_pos zi]
    dsimp only
    rw [checkColor_eq_suitCards (by omega)]
    rcases eq_or_ne (compositions 1 table) [] with wan | wan
    · rw [if_pos wan]
    · rw [if_neg wan]
      dsimp only
      rw [checkColor_eq_suitCards (by omega)]
      rcases eq_or_ne (compositions 10 table) [] with tiao | tiao
      · rw [if_pos tiao]
      · rw [if_neg tiao]
        dsimp only
        rw [checkColor_eq_suitCards (by omega)]
        rcases eq_or_ne (compositions 19 table) [] with tong | tong
        · rw [if_pos tong]
        · exact absurd ⟨zi, wan, tiao, tong⟩ parts
  · rw [if_neg zi]

theorem canHuTable_of_partsFit (none_ : NoFlower table) (parts : PartsFit table) (composeCards : List ComposeCard) :
    canHuTable table composeCards = (!(readings table).isEmpty || isTableQiDui table, readings table) := by
  have clear_ : ¬(List.range 8).any (fun k => decide (table.get (35 + k) ≠ 0)) = true := by
    simpa [NoFlower] using none_
  rw [canHuTable, if_neg clear_, checkZi_eq, if_pos parts.zi]
  dsimp only
  rw [checkColor_eq_suitCards (by omega), if_neg parts.wan]
  dsimp only
  rw [checkColor_eq_suitCards (by omega), if_neg parts.tiao]
  dsimp only
  rw [checkColor_eq_suitCards (by omega), if_neg parts.tong]
  rfl

/-! ## Counting melds -/

theorem getCardByIdx_inj {idx idx' : Nat} (low : 1 ≤ idx) (high : idx < tableSize) (high' : idx' < tableSize) :
    getCardByIdx idx = getCardByIdx idx' ↔ idx = idx' := by
  have all : ∀ i < tableSize, 1 ≤ i → ∀ j < tableSize, getCardByIdx i = getCardByIdx j → i = j := by decide
  exact ⟨all idx high low idx' high', congrArg _⟩

def triplet (idx : Nat) : ThreeCard := ⟨[getCardByIdx idx, getCardByIdx idx, getCardByIdx idx], .repeat⟩

def straight (idx : Nat) : ThreeCard := ⟨[getCardByIdx idx, getCardByIdx idx + 1, getCardByIdx idx + 2], .straight⟩

theorem threesAt_eq (idx : Nat) (m : Melds) :
    threesAt idx m = List.replicate m.triplets (triplet idx) ++ List.replicate m.runs (straight idx) := rfl

/-- The melds among some cards, by index. -/
def meldsBy (threes : List ThreeCard) (eyes : List Int) (idx : ℕ) : Melds where
  triplets := threes.count (triplet idx)
  runs := threes.count (straight idx)
  pairs := eyes.count (getCardByIdx idx)

variable {idx cur left : Nat}

theorem meldsBy_at (low : 1 ≤ cur) (high : cur < tableSize) (high' : idx < tableSize) (m : Melds) :
    meldsBy (threesAt cur m) (eyesAt cur m) idx = if cur = idx then m else ⟨0, 0, 0⟩ := by
  have card := getCardByIdx_inj low high high'
  rw [meldsBy, threesAt_eq, eyesAt]
  simp only [List.count_append, List.count_replicate, triplet, straight, beq_iff_eq, ThreeCard.mk.injEq, List.cons.injEq,
    card, and_true, and_self, reduceCtorEq, and_false, if_false, Nat.add_zero, Nat.zero_add, Int.add_left_inj]
  split <;> rfl

theorem meldsBy_append (threes threes' : List ThreeCard) (eyes eyes' : List Int) (idx : ℕ) :
    meldsBy (threes ++ threes') (eyes ++ eyes') idx =
      ⟨(meldsBy threes eyes idx).triplets + (meldsBy threes' eyes' idx).triplets,
        (meldsBy threes eyes idx).runs + (meldsBy threes' eyes' idx).runs,
        (meldsBy threes eyes idx).pairs + (meldsBy threes' eyes' idx).pairs⟩ := by
  simp only [meldsBy, List.count_append]

/-- The melds are found again. -/
theorem meldsBy_from (low : 1 ≤ cur) (high : cur + left ≤ tableSize) (high' : idx < tableSize) :
    meldsBy (threesFrom left cur s) (eyesFrom left cur s) idx =
      if cur ≤ idx ∧ idx < cur + left then s idx else ⟨0, 0, 0⟩ := by
  induction left generalizing cur with
  | zero =>
    rw [if_neg (by omega)]
    rfl
  | succ left ih =>
    have later := @ih (cur + 1) (by omega) (by omega)
    have here := meldsBy_at low (by omega) high' (s cur)
    rw [threesFrom, eyesFrom, meldsBy_append, here, later]
    rcases eq_or_ne cur idx with rfl | other
    · rw [if_pos rfl, if_neg (by omega), if_pos (by omega)]
      rfl
    · rw [if_neg other]
      simp only [Nat.zero_add]
      exact if_congr (by omega) rfl rfl

theorem meldsBy_perm {threes threes' : List ThreeCard} {eyes eyes' : List Int} (perm : threes.Perm threes')
    (perm' : eyes.Perm eyes') : meldsBy threes eyes = meldsBy threes' eyes' := by
  funext idx
  rw [meldsBy, meldsBy, perm.count_eq, perm.count_eq, perm'.count_eq]

/-- A suit gives no decomposition twice. -/
theorem pairwise_compositions (low : 1 ≤ offset) (suit : offset ≤ 19) (table : Table) :
    (compositions offset table).Pairwise fun d d' => ¬Same d d' := by
  rw [compositions, List.pairwise_filterMap]
  refine (nodup_walk offset 9 table).pairwise_of_forall_ne fun path present path' present' other => ?_
  intro d put d' put' same
  obtain ⟨s, along⟩ := exists_path_of_mem_walk le_rfl present
  obtain ⟨s', along'⟩ := exists_path_of_mem_walk le_rfl present'
  have melds {path : List (Nat × ComposeCard)} {s : ℕ → Melds} {d : ComposeCard} (along : Path offset 9 table path s)
      (put : assemble (path.map (·.2)) = some d) {j : ℕ} (below : offset ≤ j) (above : j < offset + 9) :
      meldsBy d.threes d.eye.toList j = s j := by
    obtain ⟨threes, eyes⟩ := along.pieces le_rfl
    have joined := joined_of_assemble put
    rw [meldsBy_perm joined.threes joined.eye, List.flatMap_map, List.flatMap_map, threes, eyes,
      meldsBy_from (by omega) (by rw [tableSize]; omega) (by rw [tableSize]; omega), if_pos (by omega)]
  refine other ((along.congr le_rfl fun j below above => ?_).unique along')
  rw [← melds along put (by omega) above, ← melds along' put' (by omega) above, meldsBy_perm same.1 (.of_eq (by rw [same.2]))]

/-! ## Splits -/

/-- Melds that split a table as the search reads it. -/
structure Splits (table : Table) (s : ℕ → Melds) : Prop where
  zi : ∀ i, 28 ≤ i → i < 35 → table.get i ≠ 1 ∧ table.get i ≠ 4 ∧ s i = ziMelds table i
  fits : ∀ offset ∈ [1, 10, 19], Fits 9 offset table.get s
  small : ∀ i, 1 ≤ i → i < 28 → (s i).used ≤ 4
  one : (eyesFrom 34 1 s).length ≤ 1

/-- The card has these melds, in any order. -/
structure HasMelds (d : ComposeCard) (s : ℕ → Melds) : Prop where
  threes : d.threes.Perm (threesFrom 34 1 s)
  eye : d.eye.toList.Perm (eyesFrom 34 1 s)

theorem threesFrom_all (s : ℕ → Melds) :
    threesFrom 34 1 s = threesFrom 9 1 s ++ (threesFrom 9 10 s ++ (threesFrom 9 19 s ++ threesFrom 7 28 s)) := by
  rw [show 34 = 9 + (9 + (9 + 7)) from rfl, threesFrom_add, threesFrom_add, threesFrom_add]

theorem eyesFrom_all (s : ℕ → Melds) :
    eyesFrom 34 1 s = eyesFrom 9 1 s ++ (eyesFrom 9 10 s ++ (eyesFrom 9 19 s ++ eyesFrom 7 28 s)) := by
  rw [show 34 = 9 + (9 + (9 + 7)) from rfl, eyesFrom_add, eyesFrom_add, eyesFrom_add]

/-- The suits have few tiles, so that at most one of them has several decompositions. -/
def FewSuits (table : Table) : Prop :=
  total table.get 1 9 + total table.get 10 9 + total table.get 19 9 ≤ 14

theorem FewSuits.single (few : FewSuits table) : Single [suitCards 1 table, suitCards 10 table, suitCards 19 table] := by
  have size {offset : Nat} (suit : offset ≤ 19) (small : total table.get offset 9 ≤ 7) :
      (suitCards offset table).length ≤ 1 := by
    rw [suitCards]
    split
    · exact Nat.zero_le 1
    · exact length_compositions_le suit small
  have small (left right : Nat) (low : left ≤ 19) (high : right ≤ 19)
      (both : total table.get left 9 + total table.get right 9 ≤ 14) :
      (suitCards left table).length ≤ 1 ∨ (suitCards right table).length ≤ 1 := by
    rcases Nat.lt_or_ge 7 (total table.get left 9) with large | few
    · exact .inr (size high (by omega))
    · exact .inl (size low few)
  rw [FewSuits] at few
  simp only [Single, List.pairwise_cons, List.mem_cons, List.not_mem_nil, or_false, forall_eq_or_imp, forall_eq,
    false_implies, implies_true, List.Pairwise.nil, and_true]
  exact ⟨⟨small 1 10 (by omega) (by omega) (by omega), small 1 19 (by omega) (by omega) (by omega)⟩,
    small 10 19 (by omega) (by omega) (by omega)⟩

theorem exists_splits (few : FewSuits table) (parts : PartsFit table) (present : d ∈ readings table) :
    ∃ s, Splits table s ∧ HasMelds d s := by
  obtain ⟨picks, chosen, joined⟩ := exists_chosen rfl few.single present
  obtain _ | ⟨inside1, _ | ⟨inside2, _ | ⟨inside3, _ | _⟩⟩⟩ := chosen
  rw [choices_suitCards parts.wan] at inside1
  rw [choices_suitCards parts.tiao] at inside2
  rw [choices_suitCards parts.tong] at inside3
  obtain ⟨s1, melds1, composed1⟩ := exists_melds_of_mem (by omega) inside1
  obtain ⟨s2, melds2, composed2⟩ := exists_melds_of_mem (by omega) inside2
  obtain ⟨s3, melds3, composed3⟩ := exists_melds_of_mem (by omega) inside3
  let s : ℕ → Melds := fun i =>
    if i < 10 then s1 i else if i < 19 then s2 i else if i < 28 then s3 i else ziMelds table i
  have same1 (j : ℕ) (high : j < 10) : s1 j = s j := (if_pos high).symm
  have same2 (j : ℕ) (low : 10 ≤ j) (high : j < 19) : s2 j = s j := by
    simp only [s, if_neg low.not_gt, if_pos high]
  have same3 (j : ℕ) (low : 19 ≤ j) (high : j < 28) : s3 j = s j := by
    simp only [s, if_neg (show ¬j < 10 by omega), if_neg low.not_gt, if_pos high]
  have same4 (j : ℕ) (low : 28 ≤ j) : ziMelds table j = s j := by
    simp only [s, if_neg (show ¬j < 10 by omega), if_neg (show ¬j < 19 by omega), if_neg low.not_gt]
  have has : HasMelds d s := by
    constructor
    · rw [threesFrom_all, ← threesFrom_congr fun j low high => same1 j (by omega),
        ← threesFrom_congr fun j low high => same2 j low (by omega),
        ← threesFrom_congr fun j low high => same3 j low (by omega),
        ← threesFrom_congr fun j low high => same4 j low]
      refine joined.threes.trans ?_
      simp only [List.flatMap_cons, List.flatMap_nil, List.append_nil]
      refine List.perm_append_comm.trans ?_
      rw [List.append_assoc, List.append_assoc]
      exact composed1.threes.append (composed2.threes.append (composed3.threes.append_right _))
    · rw [eyesFrom_all, ← eyesFrom_congr fun j low high => same1 j (by omega),
        ← eyesFrom_congr fun j low high => same2 j low (by omega),
        ← eyesFrom_congr fun j low high => same3 j low (by omega),
        ← eyesFrom_congr fun j low high => same4 j low, ← composed1.eye, ← composed2.eye, ← composed3.eye,
        ← eye_of_length_le_one parts.zi.2]
      refine joined.eye.trans ?_
      simp only [List.flatMap_cons, List.flatMap_nil, List.append_nil]
      refine List.perm_append_comm.trans ?_
      rw [List.append_assoc, List.append_assoc]
      rfl
  refine ⟨s, ⟨fun i low high => ?_, ?_, fun i low high => ?_, ?_⟩, has⟩
  · obtain ⟨one, four⟩ := parts.zi.1 (i - 28) (by omega)
    rw [Nat.add_sub_cancel' low] at one four
    exact ⟨one, four, (same4 i low).symm⟩
  · simp only [List.mem_cons, List.not_mem_nil, or_false, forall_eq_or_imp, forall_eq]
    exact ⟨melds1.fits.congr fun j low high => same1 j (by omega), melds2.fits.congr fun j low high => same2 j low (by omega),
      melds3.fits.congr fun j low high => same3 j low (by omega)⟩
  · rcases Nat.lt_or_ge i 10 with first | later
    · rw [← same1 i first]
      exact melds1.small i low first
    · rcases Nat.lt_or_ge i 19 with second | third
      · rw [← same2 i later second]
        exact melds2.small i later second
      · rw [← same3 i third high]
        exact melds3.small i third high
  · rw [← has.eye.length_eq]
    cases d.eye <;> simp

theorem Splits.suit (splits : Splits table s) {offset : Nat} (one_of : offset ∈ [1, 10, 19]) : SuitMelds offset table s := by
  have one := splits.one
  rw [eyesFrom_all] at one
  simp only [List.length_append] at one
  have fits := splits.fits offset one_of
  simp only [List.mem_cons, List.not_mem_nil, or_false] at one_of
  refine ⟨fits, fun j low high => splits.small j (by omega) (by omega), ?_⟩
  rw [← length_eyesFrom]
  rcases one_of with rfl | rfl | rfl <;> omega

theorem Splits.zi_eq (splits : Splits table s) {j : ℕ} (low : 28 ≤ j) (high : j < 35) : ziMelds table j = s j :=
  (splits.zi j low high).2.2.symm

theorem Splits.ziFits (splits : Splits table s) : ZiFits table 7 := by
  have one := splits.one
  rw [eyesFrom_all] at one
  simp only [List.length_append] at one
  constructor
  · intro k below
    obtain ⟨alone, four, -⟩ := splits.zi (28 + k) (by omega) (by omega)
    exact ⟨alone, four⟩
  · have same : eyesFrom 7 28 (ziMelds table) = eyesFrom 7 28 s :=
      eyesFrom_congr fun j low high => splits.zi_eq low (by omega)
    rw [same]
    omega

theorem Splits.exists_mem (few : FewSuits table) (splits : Splits table s) :
    PartsFit table ∧ ∃ d ∈ readings table, HasMelds d s := by
  obtain ⟨d1, inside1, composed1⟩ := exists_mem_of_melds (by omega) (splits.suit (by simp : 1 ∈ [1, 10, 19]))
  obtain ⟨d2, inside2, composed2⟩ := exists_mem_of_melds (by omega) (splits.suit (by simp : 10 ∈ [1, 10, 19]))
  obtain ⟨d3, inside3, composed3⟩ := exists_mem_of_melds (by omega) (splits.suit (by simp : 19 ∈ [1, 10, 19]))
  have parts : PartsFit table :=
    ⟨splits.ziFits, List.ne_nil_of_mem inside1, List.ne_nil_of_mem inside2, List.ne_nil_of_mem inside3⟩
  have chosen : Chosen [d1, d2, d3] [suitCards 1 table, suitCards 10 table, suitCards 19 table] := by
    refine .cons ?_ (.cons ?_ (.cons ?_ .nil))
    · rwa [choices_suitCards parts.wan]
    · rwa [choices_suitCards parts.tiao]
    · rwa [choices_suitCards parts.tong]
  have zi : (ziCard table).eye.toList = eyesFrom 7 28 s := by
    rw [ziCard, eye_of_length_le_one parts.zi.2]
    exact eyesFrom_congr fun j low high => splits.zi_eq low (by omega)
  have zi' : (ziCard table).threes = threesFrom 7 28 s :=
    threesFrom_congr fun j low high => splits.zi_eq low (by omega)
  have eyes : ((ziCard table :: [d1, d2, d3]).flatMap (·.eye.toList)).Perm (eyesFrom 34 1 s) := by
    simp only [List.flatMap_cons, List.flatMap_nil, List.append_nil]
    rw [eyesFrom_all, zi, composed1.eye, composed2.eye, composed3.eye]
    refine List.perm_append_comm.trans ?_
    rw [List.append_assoc, List.append_assoc]
  have threes : ((ziCard table :: [d1, d2, d3]).flatMap (·.threes)).Perm (threesFrom 34 1 s) := by
    simp only [List.flatMap_cons, List.flatMap_nil, List.append_nil]
    rw [threesFrom_all, zi']
    refine List.perm_append_comm.trans ?_
    rw [List.append_assoc, List.append_assoc]
    exact composed1.threes.append (composed2.threes.append (composed3.threes.append_right _))
  obtain ⟨d, present, joined⟩ := chosen.exists_mem rfl few.single (eyes.length_eq.trans_le splits.one)
  exact ⟨parts, d, present, joined.threes.trans threes, joined.eye.trans eyes⟩

/-- No decomposition is given twice. -/
theorem pairwise_readings (few : FewSuits table) : (readings table).Pairwise fun d d' => ¬Same d d' := by
  refine pairwise_mergeComposeCards rfl few.single fun composeCards present => ?_
  have suit {offset : Nat} (low : 1 ≤ offset) (high : offset ≤ 19) :
      (suitCards offset table).Pairwise fun d d' => ¬Same d d' := by
    rw [suitCards]
    split
    · exact .nil
    · exact pairwise_compositions low high table
  simp only [List.mem_cons, List.not_mem_nil, or_false] at present
  rcases present with rfl | rfl | rfl
  · exact suit (by omega) (by omega)
  · exact suit (by omega) (by omega)
  · exact suit (by omega) (by omega)

/-- What `canHu` answers. -/
theorem canHuTable_iff (few : FewSuits table) (composeCards : List ComposeCard) :
    (canHuTable table composeCards).1 = true ↔ NoFlower table ∧ ((∃ s, Splits table s) ∨ isTableQiDui table = true) := by
  rcases Classical.em (NoFlower table) with none_ | flower
  · rcases Classical.em (PartsFit table) with parts | parts
    · rw [canHuTable_of_partsFit none_ parts]
      simp only [Bool.or_eq_true, Bool.not_eq_true', List.isEmpty_eq_false_iff, none_, true_and]
      refine or_congr_left ⟨fun some_ => ?_, fun ⟨s, splits⟩ => ?_⟩
      · obtain ⟨d, present⟩ := List.exists_mem_of_ne_nil _ some_
        obtain ⟨s, splits, -⟩ := exists_splits few parts present
        exact ⟨s, splits⟩
      · obtain ⟨-, d, present, -⟩ := splits.exists_mem few
        exact List.ne_nil_of_mem present
    · rw [canHuTable_of_not_partsFit none_ parts]
      refine ⟨fun pairs => ⟨none_, .inr pairs⟩, fun ⟨_, either⟩ => either.resolve_left fun ⟨s, splits⟩ => ?_⟩
      exact parts (splits.exists_mem few).1
  · rw [canHuTable_of_flower flower]
    exact iff_of_false Bool.false_ne_true fun both => flower both.1

end H5Server.Erqs
