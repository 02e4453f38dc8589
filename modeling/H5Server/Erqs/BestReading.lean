import H5Server.Erqs.MaxCompose

/-! # When the scored reading is the best one

The seven-pairs pass asks two checkers about the decomposition it is given: those of `quandaiyao` and `dandiaojiang`.
Neither switches another type off, so a decomposition left there can only add to what the pairs count as.
-/

namespace H5Server.Erqs

open Lib

variable {mjInfo : MjInfo}

/-! ## Two passes side by side -/

/-- The second pass found what the first found, and perhaps more; the same types still count. -/
structure Extends (pass pass' : CheckPass) : Prop where
  switches : pass.checkSwitches = pass'.checkSwitches
  types : pass.types.Sublist pass'.types

theorem CheckPass.push_types (checkInfo : ComposeTypeInfo) (num : Nat) (pass : CheckPass) :
    (pass.push checkInfo num).types = pass.types ++ List.replicate num checkInfo.type := by
  induction num generalizing pass with
  | zero => rw [push, List.replicate_zero, List.append_nil]
  | succ num ih => rw [push, ih, List.append_assoc, List.singleton_append, List.replicate_succ]

/-- A type that excludes none leaves the switches as they are. -/
theorem CheckPass.push_switches {checkInfo : ComposeTypeInfo} (alone : checkInfo.mutexes = []) (num : Nat)
    (pass : CheckPass) : (pass.push checkInfo num).checkSwitches = pass.checkSwitches := by
  induction num generalizing pass with
  | zero => rfl
  | succ num ih =>
    rw [push, ih]
    funext type
    rw [alone]
    exact Bool.and_true _

theorem CheckPass.push_congr (checkInfo : ComposeTypeInfo) (num : Nat) {pass pass' : CheckPass}
    (same : pass.checkSwitches = pass'.checkSwitches) :
    (pass.push checkInfo num).checkSwitches = (pass'.push checkInfo num).checkSwitches := by
  induction num generalizing pass pass' with
  | zero => exact same
  | succ num ih =>
    rw [push, push]
    apply ih
    funext type
    rw [same]

/-- A checker finds no less with the second decomposition, and as much unless its type excludes none. -/
def Grows (mjInfo : MjInfo) (composeCard composeCard' : ComposeCard) (checker : ComposeTypeChecker) : Prop :=
  checker.checkFunc mjInfo composeCard = checker.checkFunc mjInfo composeCard' ∨
    (checker.checkInfo.mutexes = [] ∧ checker.checkFunc mjInfo composeCard ≤ checker.checkFunc mjInfo composeCard')

variable {composeCard composeCard' : ComposeCard} {kind : MutuallyType}

theorem Extends.check {pass pass' : CheckPass} (extends_ : Extends pass pass') {checker : ComposeTypeChecker}
    (grows : checker.checkInfo.mutuallytype = kind ∨ checker.checkInfo.mutuallytype = .otherhu000 →
      Grows mjInfo composeCard composeCard' checker) :
    Extends (pass.check mjInfo composeCard kind checker) (pass'.check mjInfo composeCard' kind checker) := by
  rw [CheckPass.check, CheckPass.check, ← extends_.switches]
  split_ifs with read on
  · obtain same | ⟨alone, more⟩ := grows read
    · rw [same]
      constructor
      · exact CheckPass.push_congr _ _ extends_.switches
      · rw [CheckPass.push_types, CheckPass.push_types]
        exact extends_.types.append_right _
    · constructor
      · rw [CheckPass.push_switches alone, CheckPass.push_switches alone]
        exact extends_.switches
      · rw [CheckPass.push_types, CheckPass.push_types]
        exact extends_.types.append (List.replicate_sublist_replicate _ |>.mpr more)
  · exact extends_
  · exact extends_

theorem Extends.foldl (checkers : List ComposeTypeChecker) {pass pass' : CheckPass} (extends_ : Extends pass pass')
    (grows : ∀ checker ∈ checkers, checker.checkInfo.mutuallytype = kind ∨
      checker.checkInfo.mutuallytype = .otherhu000 → Grows mjInfo composeCard composeCard' checker) :
    Extends (checkers.foldl (CheckPass.check mjInfo composeCard kind) pass)
      (checkers.foldl (CheckPass.check mjInfo composeCard' kind) pass') := by
  induction checkers generalizing pass pass' with
  | nil => exact extends_
  | cons checker checkers ih =>
    rw [List.foldl_cons, List.foldl_cons]
    apply ih (extends_.check (grows checker List.mem_cons_self))
    intro other present
    exact grows other (List.mem_cons_of_mem _ present)

/-! ## What the pairs count as -/

theorem isQuanDaiYao_empty (mjInfo : MjInfo) : isQuanDaiYao mjInfo {} = 0 := by
  rw [isQuanDaiYao, show isYao9Card (ComposeCard.eyeCard {}) = false from rfl, Bool.and_false]
  rfl

theorem isDanDiaoJiang_empty (tiles : ∀ card ∈ mjInfo.cards, isValidCard card = true) :
    isDanDiaoJiang mjInfo {} = 0 := by
  have none_ : (getTargetUseType {} mjInfo.cards mjInfo.targetCard).eye = false := by
    dsimp only [getTargetUseType]
    rw [beq_eq_false_iff_ne]
    change gameInvalidCard ≠ _
    split_ifs with self
    · rcases List.eq_nil_or_concat' mjInfo.cards with nil | ⟨front, last, eq⟩
      · rw [nil]
        decide
      · have valid := tiles last (by rw [eq]; exact List.mem_append_right _ (List.mem_singleton_self _))
        rw [eq, List.getLastD_concat]
        rintro rfl
        exact absurd valid (by decide)
    · exact Ne.symm self
  rw [isDanDiaoJiang, none_, Bool.false_and]
  rfl

/-- A decomposition put into the pass over the pairs only adds to it. -/
theorem grows_sevenPairs (tiles : ∀ card ∈ mjInfo.cards, isValidCard card = true) (composeCard : ComposeCard) :
    ∀ checker ∈ composeTypeCheckers, checker.checkInfo.mutuallytype = .qiduizi222 ∨
      checker.checkInfo.mutuallytype = .otherhu000 → Grows mjInfo {} composeCard checker := by
  have yao : Grows mjInfo {} composeCard ⟨⟨.quandaiyao, .otherhu000, 4, []⟩, isQuanDaiYao⟩ :=
    .inr ⟨rfl, (isQuanDaiYao_empty mjInfo).trans_le (Nat.zero_le _)⟩
  have dan : Grows mjInfo {} composeCard ⟨⟨.dandiaojiang, .otherhu000, 1, []⟩, isDanDiaoJiang⟩ :=
    .inr ⟨rfl, (isDanDiaoJiang_empty tiles).trans_le (Nat.zero_le _)⟩
  -- The checkers of melds are not asked here, and all but two of the others ignore the decomposition.
  rw [composeTypeCheckers]
  repeat' refine List.forall_mem_cons.mpr ⟨fun read => ?_, ?_⟩
  all_goals first
    | exact yao
    | exact dan
    | exact .inl rfl
    | exact absurd read (by decide)
    | exact nofun

theorem sevenPairsTypes_sublist (tiles : ∀ card ∈ mjInfo.cards, isValidCard card = true) (composeCard : ComposeCard) :
    (sevenPairsTypes mjInfo {}).Sublist (sevenPairsTypes mjInfo composeCard) :=
  (Extends.foldl composeTypeCheckers ⟨rfl, List.Sublist.refl _⟩ (grows_sevenPairs tiles composeCard)).types

theorem typeTimes_pos (type : ComposeType) : 0 < typeTimes type := by
  cases type <;> decide

/-- More types are worth more. -/
theorem getTimes_of_sublist {types types' : List ComposeType} (sub : types.Sublist types') :
    getTimes types ≤ getTimes types' ∧ (getTimes types' ≤ getTimes types → types = types') := by
  induction sub with
  | slnil => exact ⟨le_rfl, fun _ => rfl⟩
  | cons type _ ih =>
    have worth := typeTimes_pos type
    rw [getTimes, getTimes, List.map_cons, List.sum_cons] at *
    exact ⟨by omega, fun less => by omega⟩
  | cons_cons type _ ih =>
    rw [getTimes, getTimes, List.map_cons, List.sum_cons, List.map_cons, List.sum_cons] at *
    refine ⟨by omega, fun less => ?_⟩
    rw [ih.2 (by omega)]

/-! ## The types of a pass -/

theorem mem_foldl_check (checkers : List ComposeTypeChecker) (pass : CheckPass) {type : ComposeType}
    (present : type ∈ (checkers.foldl (CheckPass.check mjInfo composeCard kind) pass).types) :
    type ∈ pass.types ∨ ∃ checker ∈ checkers, checker.checkInfo.type = type ∧
      (checker.checkInfo.mutuallytype = kind ∨ checker.checkInfo.mutuallytype = .otherhu000) := by
  induction checkers generalizing pass with
  | nil => exact .inl present
  | cons checker checkers ih =>
    rcases ih _ present with before | ⟨other, behind, read⟩
    · rw [CheckPass.check] at before
      split_ifs at before with asked on
      · rw [CheckPass.push_types] at before
        rcases List.mem_append.mp before with before | found
        · exact .inl before
        · exact .inr ⟨checker, List.mem_cons_self, (List.eq_of_mem_replicate found).symm, asked⟩
      · exact .inl before
      · exact .inl before
    · exact .inr ⟨other, List.mem_cons_of_mem _ behind, read⟩

/-- The checkers asked about pairs look for no straights. -/
theorem straightless : ∀ checker ∈ composeTypeCheckers, checker.checkInfo.mutuallytype = .qiduizi222 ∨
    checker.checkInfo.mutuallytype = .otherhu000 → isFourStraightType checker.checkInfo.type = false ∧
      isThreeStraightType checker.checkInfo.type = false ∧ isOneStraightType checker.checkInfo.type = false := by
  rw [composeTypeCheckers]
  repeat' refine List.forall_mem_cons.mpr ⟨fun read => ?_, ?_⟩
  all_goals first
    | exact ⟨rfl, rfl, rfl⟩
    | exact absurd read (by decide)
    | exact nofun

theorem straightless_sevenPairs (mjInfo : MjInfo) (composeCard : ComposeCard) :
    ∀ type ∈ sevenPairsTypes mjInfo composeCard, isFourStraightType type = false ∧
      isThreeStraightType type = false ∧ isOneStraightType type = false := by
  intro type present
  rcases mem_foldl_check composeTypeCheckers _ present with none_ | ⟨checker, inside, rfl, read⟩
  · exact absurd none_ List.not_mem_nil
  · exact straightless checker inside read

/-- Nothing among the types of seven pairs is taken back. -/
theorem calculateBFLL_sevenPairs (mjInfo : MjInfo) (composeCard composeCard' : ComposeCard) :
    calculateBFLL mjInfo composeCard' (sevenPairsTypes mjInfo composeCard) = sevenPairsTypes mjInfo composeCard := by
  have none_ := straightless_sevenPairs mjInfo composeCard
  have four : (sevenPairsTypes mjInfo composeCard).any isFourStraightType = false :=
    List.any_eq_false.mpr fun type present => by rw [(none_ type present).1]; exact Bool.false_ne_true
  have three : (sevenPairsTypes mjInfo composeCard).any isThreeStraightType = false :=
    List.any_eq_false.mpr fun type present => by rw [(none_ type present).2.1]; exact Bool.false_ne_true
  have one : (sevenPairsTypes mjInfo composeCard).filter isOneStraightType = [] :=
    List.filter_eq_nil_iff.mpr fun type present => by rw [(none_ type present).2.2]; exact Bool.false_ne_true
  simp [calculateBFLL, four, three, one]

/-! ## The decompositions found -/

theorem canHu_eq (mjInfo : MjInfo) (composeCards : List ComposeCard) :
    canHu mjInfo.cards mjInfo.targetCard composeCards = canHuTable mjInfo.table composeCards := rfl

/-- The decompositions are written, or the vector stays as it was. -/
theorem canHuTable_stale (table : Table) :
    (∃ hu found, ∀ composeCards, canHuTable table composeCards = (hu, found) ∧
      hu = (!found.isEmpty || isTableQiDui table)) ∨
      ∃ hu, (hu = true → isTableQiDui table = true) ∧
        ∀ composeCards, canHuTable table composeCards = (hu, composeCards) := by
  simp only [canHuTable]
  split_ifs with flower
  · exact .inr ⟨false, nofun, fun _ => rfl⟩
  · split
    · exact .inr ⟨isTableQiDui table, id, fun _ => rfl⟩
    · split
      · exact .inr ⟨isTableQiDui table, id, fun _ => rfl⟩
      · split
        · exact .inr ⟨isTableQiDui table, id, fun _ => rfl⟩
        · split
          · exact .inr ⟨isTableQiDui table, id, fun _ => rfl⟩
          · exact .inl ⟨_, _, fun _ => ⟨rfl, rfl⟩⟩

/-- A hand with a decomposition gets all of them, whatever the vector held. -/
theorem canHu_decompositions (some_ : decompositions mjInfo ≠ []) (composeCards : List ComposeCard) :
    (canHu mjInfo.cards mjInfo.targetCard composeCards).2 = decompositions mjInfo := by
  rw [decompositions, canHu_eq, canHu_eq] at *
  obtain ⟨hu, found, same⟩ | ⟨hu, -, same⟩ := canHuTable_stale mjInfo.table
  · rw [(same composeCards).1, (same []).1]
  · rw [same []] at some_
    exact absurd rfl some_

/-- A hand that wins without seven pairs has a decomposition. -/
theorem decompositions_ne_nil (accepted : (canHu mjInfo.cards mjInfo.targetCard []).1 = true)
    (pairs : isTableQiDui mjInfo.table = false) : decompositions mjInfo ≠ [] := by
  rw [decompositions, canHu_eq] at *
  obtain ⟨hu, found, same⟩ | ⟨hu, pure_, same⟩ := canHuTable_stale mjInfo.table
  · obtain ⟨eq, wins⟩ := same []
    rw [eq] at accepted ⊢
    rw [show hu = true from accepted, pairs, Bool.or_false] at wins
    rintro rfl
    exact absurd wins (by decide)
  · rw [same []] at accepted
    exact absurd (pure_ accepted) (ne_true_of_eq_false pairs)

/-! ## The scored reading -/

variable {first : ComposeCard} {behind : List ComposeCard}

theorem scoredReadings_eq (mjInfo : MjInfo) : scoredReadings mjInfo = (decompositions mjInfo).map (standardTypes mjInfo) ++
    if isTableQiDui mjInfo.table then [sevenPairsTypes mjInfo {}] else [] := by
  rw [scoredReadings, calculateBFLL_sevenPairs]

theorem flatMap_roundTypes (pairs : isTableQiDui mjInfo.table = true) (left : ComposeCard) :
    behind.flatMap (roundTypes mjInfo left) =
      (behind.map (standardTypes mjInfo)).flatMap fun types => [types, sevenPairsTypes mjInfo left] := by
  rw [List.flatMap_map]
  apply List.flatMap_congr
  intro composeCard _
  rw [roundTypes, if_pos pairs]

/-- What is scored of a seven-pairs hand with decompositions: the best of them, or the pairs. -/
theorem hu_of_pairs (pairs : isTableQiDui mjInfo.table = true) (some_ : decompositions mjInfo = first :: behind)
    (composeCards : List ComposeCard) (huCompose : Compose) :
    let best := firstBest getTimes (standardTypes mjInfo first) (behind.map (standardTypes mjInfo))
    let extra := sevenPairsTypes mjInfo huCompose.composeCard
    let kept := if getTimes extra ≤ getTimes (standardTypes mjInfo first) ∨ getTimes extra < getTimes best then best
      else extra
    (hu mjInfo composeCards huCompose).types = kept ∧ (hu mjInfo composeCards huCompose).times = getTimes kept := by
  have scored := @findMaxCompose_eq mjInfo first behind huCompose
  rw [if_pos pairs, List.singleton_append, flatMap_roundTypes pairs, firstBest_interleaved] at scored
  rw [hu, canHu_decompositions (by rw [some_]; exact List.cons_ne_nil _ _), some_]
  exact scored

/-- What is scored of another hand: the best decomposition. -/
theorem hu_of_not_pairs (pairs : isTableQiDui mjInfo.table = false) (some_ : decompositions mjInfo = first :: behind)
    (composeCards : List ComposeCard) (huCompose : Compose) :
    let best := firstBest getTimes (standardTypes mjInfo first) (behind.map (standardTypes mjInfo))
    (hu mjInfo composeCards huCompose).types = best ∧ (hu mjInfo composeCards huCompose).times = getTimes best := by
  have scored := @findMaxCompose_eq mjInfo first behind huCompose
  have single : behind.flatMap (roundTypes mjInfo huCompose.composeCard) = behind.map (standardTypes mjInfo) := by
    rw [← List.flatMap_pure_eq_map]
    apply List.flatMap_congr
    intro composeCard _
    rw [roundTypes, if_neg (ne_true_of_eq_false pairs)]
    rfl
  rw [if_neg (ne_true_of_eq_false pairs), List.nil_append, single] at scored
  rw [hu, canHu_decompositions (by rw [some_]; exact List.cons_ne_nil _ _), some_]
  exact scored

/-- Without a decomposition nothing is scored: what an earlier call left stays. -/
theorem hu_of_pure (none_ : decompositions mjInfo = []) (huCompose : Compose) : hu mjInfo [] huCompose = huCompose := by
  rw [hu, show (canHu mjInfo.cards mjInfo.targetCard []).2 = [] from none_]
  rfl

theorem scoresBest_of_not_pairs (accepted : (canHu mjInfo.cards mjInfo.targetCard []).1 = true)
    (pairs : isTableQiDui mjInfo.table = false) : ScoresBest mjInfo := by
  obtain ⟨first, behind, some_⟩ := List.exists_cons_of_ne_nil (decompositions_ne_nil accepted pairs)
  have all : scoredReadings mjInfo = standardTypes mjInfo first :: behind.map (standardTypes mjInfo) := by
    rw [scoredReadings_eq, if_neg (ne_true_of_eq_false pairs), List.append_nil, some_, List.map_cons]
  refine ⟨firstBest getTimes (standardTypes mjInfo first) (behind.map (standardTypes mjInfo)), ?_, ?_, ?_⟩
  · rw [all]
    exact firstBest_mem getTimes _ _
  · rw [all]
    exact le_firstBest getTimes _ _
  · exact hu_of_not_pairs pairs some_

/-- Seven pairs without melds. -/
def sevenPairs : MjInfo where
  cpgs := []
  cards := [0x01, 0x01, 0x03, 0x03, 0x05, 0x05, 0x07, 0x07, 0x09, 0x09, 0x31, 0x31, 0x35]
  targetCard := 0x35
  huaNum := 0
  huType := 0

/-- Four straights and a pair. -/
def fourStraights : MjInfo where
  cpgs := []
  cards := [0x01, 0x02, 0x03, 0x04, 0x05, 0x06, 0x07, 0x08, 0x09, 0x02, 0x03, 0x04, 0x31]
  targetCard := 0x31
  huaNum := 0
  huType := 0

end H5Server.Erqs
