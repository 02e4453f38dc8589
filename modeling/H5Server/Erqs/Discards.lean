import H5Server.Erqs.Probability

/-! # What the discards are evaluated on

The loop over the discards counts a tile down and up again, but leaves it counted down where the evaluation finds no
way to win, and never counts the flowers down that the second part table has behind the honours.
-/

namespace H5Server.Erqs.Probability

/-- Every discard is evaluated on the hand without it, and the hand is restored at the end. -/
structure EvaluatesTrueHand (evaluate : List (List Nat) → PrInfo) (outCardsExclude : List Int) (coin : Nat → Bool)
    (hand : Table) (fastHuPrInfo : PrInfo) : Prop where
  each : ∀ i, 1 ≤ i → i < tableSize → 0 < hand.get i → getCardByIdx i ∉ outCardsExclude →
    evaluatedOn outCardsExclude (prLoop evaluate outCardsExclude coin hand fastHuPrInfo i) i
      = some (partTables (hand.set i (hand.get i - 1)).get)
  handTable : (prLoop evaluate outCardsExclude coin hand fastHuPrInfo tableSize).handTable = hand
  handPartTables : (prLoop evaluate outCardsExclude coin hand fastHuPrInfo tableSize).handPartTables = partTables hand.get

/-- A discard after which there is no flower miscounted and some way to win. -/
def Evaluable (evaluate : List (List Nat) → PrInfo) (hand : Table) (i : Nat) : Prop :=
  getCardByIdx i ≠ 0x41 ∧ getCardByIdx i ≠ 0x42
    ∧ (evaluate (partTables (hand.set i (hand.get i - 1)).get)).probability ≠ 0

theorem Evaluable.plain {evaluate : List (List Nat) → PrInfo} {hand : Table} {i : Nat} (evaluable : Evaluable evaluate hand i) :
    i ≠ 35 ∧ i ≠ 36 := by
  obtain ⟨first, second, -⟩ := evaluable
  constructor <;> rintro rfl
  · exact first rfl
  · exact second rfl

variable {evaluate : List (List Nat) → PrInfo} {outCardsExclude : List Int} {coin : Nat → Bool} {hand : Table}
  {fastHuPrInfo : PrInfo} {st : PrState}

/-! ## Part tables -/

theorem modify_map_range (g : Nat → Nat) (n j : Nat) (f : Nat → Nat) :
    ((List.range n).map g).modify j f = (List.range n).map fun k => if k = j then f (g k) else g k := by
  refine List.ext_getElem (by simp) fun k inside _ => ?_
  rw [List.getElem_modify, List.getElem_map, List.getElem_map, List.getElem_range]
  exact if_congr eq_comm rfl rfl

/-- The entries that are counted. -/
def Counted (i : Nat) : Prop := i ≤ 9 ∨ 28 ≤ i ∧ i ≤ 34

instance (i : Nat) : Decidable (Counted i) := inferInstanceAs (Decidable (_ ∨ _))

theorem modifyParts_partTables (g : Nat → Nat) {i : Nat} (low : 1 ≤ i) (f : Nat → Nat) :
    modifyParts (partTables g) i f = partTables fun j => if j = i ∧ Counted i then f (g j) else g j := by
  rw [modifyParts, partTables, partTables, List.map_cons, List.map_cons, List.map_nil, List.map_cons, List.map_cons,
    List.map_nil]
  split
  next suit =>
    rw [List.modify_zero_cons, modify_map_range]
    congr 1
    · refine List.map_congr_left fun k _ => if_congr ?_ rfl rfl
      rw [Counted]
      omega
    · congr 1
      refine List.map_congr_left fun k _ => ?_
      rw [if_neg (by omega)]
  next honour =>
    split
    next inside =>
      rw [List.modify_succ_cons, List.modify_zero_cons, modify_map_range]
      congr 1
      · refine List.map_congr_left fun k present => ?_
        have := List.mem_range.mp present
        rw [if_neg (by omega)]
      · congr 1
        refine List.map_congr_left fun k _ => if_congr ?_ rfl rfl
        rw [Counted]
        omega
    next outside =>
      have none_ : ¬Counted i := fun counted => counted.elim honour outside
      simp only [none_, and_false, if_false]

theorem partTables_congr {g g' : Nat → Nat} (same : ∀ j, j ≤ 9 ∨ 28 ≤ j ∧ j ≤ 36 → g j = g' j) :
    partTables g = partTables g' := by
  simp only [partTables, List.map_cons, List.map_nil]
  congr 1
  · refine List.map_congr_left fun k present => same _ ?_
    have := List.mem_range.mp present
    omega
  · congr 1
    refine List.map_congr_left fun k present => same _ ?_
    have := List.mem_range.mp present
    omega

theorem get_of_partTables_eq {g g' : Nat → Nat} (same : partTables g = partTables g') {j : Nat} (low : 28 ≤ j)
    (high : j ≤ 36) : g j = g' j := by
  have second : (List.range 9).map (fun k => g (28 + k)) = (List.range 9).map fun k => g' (28 + k) :=
    congrArg (fun parts => parts.getD 1 []) same
  have here := List.map_inj_left.mp second (j - 28) (List.mem_range.mpr (by omega))
  rwa [Nat.add_sub_cancel' low] at here

/-! ## Steps -/

/-- The table of a discard, as the part tables count it. -/
theorem modifyParts_hand {i : Nat} (low : 1 ≤ i) (high : i < tableSize) (plain : i ≠ 35 ∧ i ≠ 36) :
    modifyParts (partTables hand.get) i (· - 1) = partTables (hand.set i (hand.get i - 1)).get := by
  rw [modifyParts_partTables _ low]
  refine partTables_congr fun j read => ?_
  rcases eq_or_ne j i with rfl | other
  · rw [Table.get_set_self _ _ high, if_pos ⟨rfl, by rw [Counted]; omega⟩]
  · rw [Table.get_set_of_ne _ _ other.symm, if_neg fun both => other both.1]

/-- Counting down and up again. -/
theorem modifyParts_back {g : Nat → Nat} {i : Nat} (low : 1 ≤ i) (some_ : 0 < g i) :
    modifyParts (modifyParts (partTables g) i (· - 1)) i (· + 1) = partTables g := by
  rw [modifyParts_partTables _ low, modifyParts_partTables _ low]
  refine partTables_congr fun j _ => ?_
  split
  next here =>
    rw [here.1]
    omega
  next => rfl

/-- A step leaves the other entries of the hand alone. -/
theorem prStep_get {i j : Nat} (other : i ≠ j) :
    (prStep evaluate outCardsExclude coin st i).handTable.get j = st.handTable.get j := by
  rw [prStep]
  split
  · rfl
  · dsimp only
    split
    · exact Table.get_set_of_ne _ _ other
    · split
      all_goals
        dsimp only
        rw [Table.get_set_of_ne _ _ other, Table.get_set_of_ne _ _ other]

/-- The flowers behind the honours are never counted down. -/
theorem prStep_flowers {i : Nat} (low : 1 ≤ i) {g : Nat → Nat} (parts : st.handPartTables = partTables g) :
    ∃ g', (prStep evaluate outCardsExclude coin st i).handPartTables = partTables g' ∧ g' 35 = g 35 ∧ g' 36 = g 36 := by
  have away (g : Nat → Nat) (f : Nat → Nat) : ∃ g', modifyParts (partTables g) i f = partTables g' ∧ g' 35 = g 35
      ∧ g' 36 = g 36 := by
    refine ⟨_, modifyParts_partTables g low f, if_neg ?_, if_neg ?_⟩ <;> rw [Counted] <;> omega
  rw [prStep]
  split
  next => exact ⟨g, parts, rfl, rfl⟩
  next eq =>
    rw [evaluatedOn] at eq
    split at eq
    next =>
      obtain rfl := Option.some.inj eq
      rw [parts]
      obtain ⟨g', down, first, second⟩ := away g (· - 1)
      obtain ⟨g'', up, first', second'⟩ := away g' (· + 1)
      dsimp only
      rw [down]
      split
      · exact ⟨g', rfl, first, second⟩
      · split
        all_goals exact ⟨g'', up, first'.trans first, second'.trans second⟩
    next => exact absurd eq nofun

/-- Where there is no way to win, the discard stays counted down. -/
theorem prStep_lost {i : Nat} (high : i < tableSize) {parts : List (List Nat)}
    (on : evaluatedOn outCardsExclude st i = some parts) (none_ : (evaluate parts).probability = 0) :
    (prStep evaluate outCardsExclude coin st i).handTable.get i = st.handTable.get i - 1 := by
  rw [prStep, on]
  dsimp only
  rw [if_pos none_]
  exact Table.get_set_self _ _ high

/-- From the true hand, an evaluable discard is evaluated on the hand without it, and counted up again. -/
theorem prStep_true {i : Nat} (low : 1 ≤ i) (high : i < tableSize) (table : st.handTable = hand)
    (parts : st.handPartTables = partTables hand.get)
    (good : 0 < hand.get i → getCardByIdx i ∉ outCardsExclude → Evaluable evaluate hand i) :
    (prStep evaluate outCardsExclude coin st i).handTable = hand
      ∧ (prStep evaluate outCardsExclude coin st i).handPartTables = partTables hand.get := by
  rw [prStep]
  split
  next => exact ⟨table, parts⟩
  next eq =>
    rw [evaluatedOn, table, parts] at eq
    split at eq
    next candidate =>
      obtain rfl := Option.some.inj eq
      have evaluable := good candidate.1 candidate.2
      have way : ¬(evaluate (modifyParts (partTables hand.get) i (· - 1))).probability = 0 := by
        rw [modifyParts_hand low high evaluable.plain]
        exact evaluable.2.2
      have back := modifyParts_back low candidate.1
      have restored : (hand.set i (hand.get i - 1)).set i ((hand.set i (hand.get i - 1)).get i + 1) = hand := by
        have := candidate.1
        refine Table.ext_get fun j _ => ?_
        rcases eq_or_ne i j with rfl | other
        · rw [Table.get_set_self _ _ high, Table.get_set_self _ _ high]
          omega
        · rw [Table.get_set_of_ne _ _ other, Table.get_set_of_ne _ _ other]
      dsimp only
      rw [if_neg way, table]
      split
      all_goals exact ⟨restored, back⟩
    next => exact absurd eq nofun

/-! ## Runs -/

theorem prLoop_succ {bound : Nat} (low : 1 ≤ bound) : prLoop evaluate outCardsExclude coin hand fastHuPrInfo (bound + 1)
    = prStep evaluate outCardsExclude coin (prLoop evaluate outCardsExclude coin hand fastHuPrInfo bound) bound := by
  obtain ⟨bound, rfl⟩ := Nat.exists_eq_add_of_le' low
  rw [prLoop, Nat.add_sub_cancel, List.range'_1_concat, List.foldl_append, List.foldl_cons, List.foldl_nil, prLoop,
    Nat.add_sub_cancel, Nat.add_comm 1]

/-- Over evaluable discards the hand is restored before each. -/
theorem prLoop_true (good : ∀ i, 1 ≤ i → i < tableSize → 0 < hand.get i → getCardByIdx i ∉ outCardsExclude →
    Evaluable evaluate hand i) {bound : Nat} (low : 1 ≤ bound) (high : bound ≤ tableSize) :
    (prLoop evaluate outCardsExclude coin hand fastHuPrInfo bound).handTable = hand
      ∧ (prLoop evaluate outCardsExclude coin hand fastHuPrInfo bound).handPartTables = partTables hand.get := by
  induction bound, low using Nat.le_induction with
  | base => exact ⟨rfl, rfl⟩
  | succ bound low ih =>
    obtain ⟨table, parts⟩ := ih (by omega)
    rw [prLoop_succ low]
    exact prStep_true low (by omega) table parts (good bound low (by omega))

theorem prLoop_flowers {bound : Nat} (low : 1 ≤ bound) : ∃ g,
    (prLoop evaluate outCardsExclude coin hand fastHuPrInfo bound).handPartTables = partTables g
      ∧ g 35 = hand.get 35 ∧ g 36 = hand.get 36 := by
  induction bound, low using Nat.le_induction with
  | base => exact ⟨hand.get, rfl, rfl, rfl⟩
  | succ bound low ih =>
    obtain ⟨g, parts, first, second⟩ := ih
    rw [prLoop_succ low]
    obtain ⟨g', parts', first', second'⟩ := prStep_flowers low parts
    exact ⟨g', parts', first'.trans first, second'.trans second⟩

/-- An entry is the hand's until its discard, and is not changed afterwards. -/
theorem prLoop_get_before {bound i : Nat} (low : 1 ≤ bound) (before : bound ≤ i) :
    (prLoop evaluate outCardsExclude coin hand fastHuPrInfo bound).handTable.get i = hand.get i := by
  induction bound, low using Nat.le_induction with
  | base => rfl
  | succ bound low ih =>
    rw [prLoop_succ low, prStep_get (by omega)]
    exact ih (by omega)

theorem prLoop_get_after {bound i : Nat} (low : 1 ≤ i) (after : i + 1 ≤ bound) :
    (prLoop evaluate outCardsExclude coin hand fastHuPrInfo bound).handTable.get i
      = (prLoop evaluate outCardsExclude coin hand fastHuPrInfo (i + 1)).handTable.get i := by
  induction bound, after using Nat.le_induction with
  | base => rfl
  | succ bound after ih => rw [prLoop_succ (by omega), prStep_get (by omega), ih]

/-- The discards are evaluated on the true hand exactly when each is evaluable. -/
theorem evaluatesTrueHand_iff_evaluable :
    EvaluatesTrueHand evaluate outCardsExclude coin hand fastHuPrInfo ↔ ∀ i, 1 ≤ i → i < tableSize → 0 < hand.get i →
      getCardByIdx i ∉ outCardsExclude → Evaluable evaluate hand i := by
  constructor
  · intro true_ i low high some_ free
    have on := true_.each i low high some_ free
    have parts := on
    rw [evaluatedOn, prLoop_get_before low le_rfl, if_pos ⟨some_, free⟩] at parts
    obtain ⟨g, before, first, second⟩ : ∃ g, (prLoop evaluate outCardsExclude coin hand fastHuPrInfo i).handPartTables
      = partTables g ∧ g 35 = hand.get 35 ∧ g 36 = hand.get 36 := prLoop_flowers low
    rw [before, modifyParts_partTables g low] at parts
    have same := Option.some.inj parts
    refine ⟨fun flower => ?_, fun flower => ?_, fun none_ => ?_⟩
    · obtain rfl : i = 35 := by
        have := (getCardByIdx_valid low high).2
        rw [flower] at this
        exact this.symm
      have here := get_of_partTables_eq same (j := 35) (by decide) (by decide)
      rw [if_neg (by decide), Table.get_set_self _ _ high, first] at here
      omega
    · obtain rfl : i = 36 := by
        have := (getCardByIdx_valid low high).2
        rw [flower] at this
        exact this.symm
      have here := get_of_partTables_eq same (j := 36) (by decide) (by decide)
      rw [if_neg (by decide), Table.get_set_self _ _ high, second] at here
      omega
    · have last : (prLoop evaluate outCardsExclude coin hand fastHuPrInfo tableSize).handTable.get i
          = (prLoop evaluate outCardsExclude coin hand fastHuPrInfo (i + 1)).handTable.get i := prLoop_get_after low high
      rw [true_.handTable, prLoop_succ low, prStep_lost high on none_, prLoop_get_before low le_rfl] at last
      omega
  · intro good
    have run {bound : Nat} (low : 1 ≤ bound) (high : bound ≤ tableSize) :
        (prLoop evaluate outCardsExclude coin hand fastHuPrInfo bound).handTable = hand
          ∧ (prLoop evaluate outCardsExclude coin hand fastHuPrInfo bound).handPartTables = partTables hand.get :=
      prLoop_true good low high
    refine ⟨fun i low high some_ free => ?_, (run (by decide) le_rfl).1, (run (by decide) le_rfl).2⟩
    obtain ⟨table, parts⟩ := run low high.le
    rw [evaluatedOn, table, parts, if_pos ⟨some_, free⟩, modifyParts_hand low high (good i low high some_ free).plain]

/-! ## The search -/

/-- `findPrInfo` evaluates each discard on the true hand exactly when the hand has no discard among the two flowers of
the second part table, and each leaves some way to win. -/
theorem findPrInfo_true_iff (loaded : HuTables) (cards outCardsExclude : List Int) (leftTable : Nat → Int)
    (coin : Nat → Bool) (fastHuPrInfo : PrInfo) :
    EvaluatesTrueHand (evaluateHand loaded cards leftTable cards.length {}) outCardsExclude coin (cardsToTable cards)
        fastHuPrInfo
      ↔ ∀ i, 1 ≤ i → i < tableSize → 0 < (cardsToTable cards).get i → getCardByIdx i ∉ outCardsExclude →
        Evaluable (evaluateHand loaded cards leftTable cards.length {}) (cardsToTable cards) i :=
  evaluatesTrueHand_iff_evaluable

/-- The pairs, which are all the shapes of two tiles. -/
def pairTables (key : TableKey) : List (List Nat) :=
  if key.qidui ∨ key.sum ≠ 2 then []
  else (List.range (if key.zi then 7 else 9)).map fun i => (List.replicate 9 0).set i 2

/-- Without tiles left the first discard of 1 and 2 is not put back. -/
theorem not_findPrInfo_true_without_tiles :
    ¬EvaluatesTrueHand (evaluateHand pairTables [0x01, 0x02] (fun _ => 0) 2 {}) [] (fun _ => true)
      (cardsToTable [0x01, 0x02]) {} := by
  intro true_
  have evaluable := evaluatesTrueHand_iff_evaluable.mp true_ 1 (by decide) (by decide) (by decide) (by decide)
  exact evaluable.2.2 (by decide)

end H5Server.Erqs.Probability
