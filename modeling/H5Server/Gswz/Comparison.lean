import H5Server.Gswz.Types
import Mathlib.Order.Compare

/-! # Comparisons of hands of one type

Each of the comparisons reads off the hand which card decides and which values come after it, and decides as the
strengths do. Only the comparison of straights reads past the last card, where a hand of four has an ace.
-/

namespace H5Server.Gswz

variable {n : ℕ} {type : CardType} {h h' tail tail' : List ℕ} {a b c d e key key' card : ℕ}

/-- The card that decides, and the values after its own. -/
structure Key (type : CardType) (h : List ℕ) (key : ℕ) (tail : List ℕ) : Prop where
  ranks : decidingRanks type (h.map getCardLogicValue) = getCardLogicValue key :: tail
  color : colorOf (getCardLogicValue key) h = getCardColor key
  inside : key ∈ h

theorem Key.strengthOf_lt (sorted : Sorted n h) (sorted' : Sorted n h') (reads : Key type h key tail)
    (reads' : Key type h' key' tail') :
    strengthOf type h' < strengthOf type h ↔ getCardLogicValue key' < getCardLogicValue key
      ∨ getCardLogicValue key' = getCardLogicValue key ∧ (tail' < tail ∨ tail' = tail ∧ key' < key) := by
  have order := color_lt_iff key' (sorted'.deck _ reads'.inside) key (sorted.deck _ reads.inside)
  simp only [strengthOf, reads.ranks, reads'.ranks, Prod.Lex.toLex_lt_toLex, List.headD_cons, reads.color, reads'.color,
    lt_self_iff_false, false_or, true_and, List.cons_lt_cons_iff, List.cons.injEq]
  constructor
  · rintro ((less | ⟨same, less⟩) | ⟨⟨same, rest⟩, less⟩)
    · exact Or.inl less
    · exact Or.inr ⟨same, Or.inl less⟩
    · exact Or.inr ⟨same, Or.inr ⟨rest, (order same).mp less⟩⟩
  · rintro (less | ⟨same, less | ⟨rest, less⟩⟩)
    · exact Or.inl (Or.inl less)
    · exact Or.inl (Or.inr ⟨same, less⟩)
    · exact Or.inr ⟨⟨same, rest⟩, (order same).mpr less⟩

/-- A comparison that reads no card past the last one, and holds exactly where the property does. -/
def Decides (result : Option Bool) (wins : Prop) : Prop := ∃ won, result = some won ∧ (won = true ↔ wins)

theorem Decides.congr {result : Option Bool} {wins wins' : Prop} (decides : Decides result wins)
    (same : wins ↔ wins') : Decides result wins' := by
  obtain ⟨won, runs, iff_⟩ := decides
  exact ⟨won, runs, iff_.trans same⟩

/-- The first values that differ decide. -/
theorem compareValues_spec {first second : List ℕ} (length : first.length = second.length) :
    ∃ order, compareValues first.length first second = some order
      ∧ (order = .gt ↔ second.map getCardLogicValue < first.map getCardLogicValue)
      ∧ (order = .eq ↔ second.map getCardLogicValue = first.map getCardLogicValue) := by
  induction first generalizing second with
  | nil =>
    obtain rfl := List.length_eq_zero_iff.mp length.symm
    exact ⟨.eq, rfl, by simp, by simp⟩
  | cons x first ih =>
    cases second with
    | nil => exact absurd length (Nat.succ_ne_zero _)
    | cons y second =>
      simp only [List.length_cons, compareValues, List.map_cons, List.cons_lt_cons_iff, List.cons.injEq]
      rcases Nat.lt_trichotomy (getCardLogicValue x) (getCardLogicValue y) with less | same | more
      · rw [if_neg (by omega), if_pos less]
        refine ⟨.lt, rfl, ?_, ?_⟩
        · simp only [reduceCtorEq, false_iff]
          omega
        · simp only [reduceCtorEq, false_iff]
          omega
      · obtain ⟨order, runs, above, equal⟩ := ih (Nat.succ.inj length)
        rw [if_neg (by omega), if_neg (by omega), runs]
        refine ⟨order, rfl, ?_, ?_⟩
        · rw [above]
          simp [same]
        · rw [equal]
          simp [same]
      · rw [if_pos more]
        refine ⟨.gt, rfl, ?_, ?_⟩
        · simp [more]
        · simp only [reduceCtorEq, false_iff]
          omega

/-! ## Single cards -/

theorem colorOf_head : colorOf (getCardLogicValue card) (card :: tail) = getCardColor card := by
  simp [colorOf]

theorem key_of_nodup (straight : type.isStraight = false) (nodup : ((card :: tail).map getCardLogicValue).Nodup) :
    Key type (card :: tail) card (tail.map getCardLogicValue) where
  ranks := by
    rw [decidingRanks, if_neg (Bool.eq_false_iff.mp straight), groupedRanks_of_nodup nodup, List.map_cons]
  color := colorOf_head
  inside := List.mem_cons_self

theorem compareSingle_spec (length : h.length = n) (length' : h'.length = n) (head : h[0]? = some key)
    (head' : h'[0]? = some key') :
    Decides (compareSingle h h' n) (h'.map getCardLogicValue < h.map getCardLogicValue
      ∨ h'.map getCardLogicValue = h.map getCardLogicValue ∧ key' < key) := by
  obtain ⟨order, runs, above, equal⟩ := compareValues_spec (length.trans length'.symm)
  rw [length] at runs
  rw [Decides, ← above, ← equal, compareSingle, runs]
  cases order with
  | gt => exact ⟨true, rfl, by simp⟩
  | lt => exact ⟨false, rfl, by simp⟩
  | eq => exact ⟨decide (key > key'), by simp [head, head'], by simp⟩

/-! ## Repeated cards -/

theorem isDouble_split {pre post : List ℕ} {card card' : ℕ} (same : getCardLogicValue card' = getCardLogicValue card)
    (strict : ((pre ++ card :: post).map getCardLogicValue).Pairwise (· > ·)) :
    repeated 2 (pre ++ card :: card' :: post) (pre ++ card :: card' :: post).length = some card := by
  induction pre with
  | nil => simp [repeated, sameCards, same]
  | cons first pre ih =>
    have strict' := strict
    rw [List.cons_append, List.map_cons, List.pairwise_cons] at strict
    have step := ih strict.2
    cases pre with
    | nil =>
      have below := strict.1 (getCardLogicValue card) (by simp)
      simp [repeated, sameCards, same, below.ne]
    | cons second pre =>
      have below := strict.1 (getCardLogicValue second) (by simp)
      simp only [repeated, List.cons_append, List.length_cons, Nat.add_sub_cancel] at step ⊢
      rw [sameCards, if_neg below.ne]
      simpa using step

theorem others_eq (length : h.length = n) :
    others card h n = some (h.filter fun other => getCardLogicValue card != getCardLogicValue other) := by
  rw [others, copied, if_pos length.ge, ← length, List.take_length]
  rfl

/-- The cards beside the pair. -/
theorem filter_pair {pre post : List ℕ} {card card' : ℕ} (same : getCardLogicValue card' = getCardLogicValue card)
    (strict : ((pre ++ card :: post).map getCardLogicValue).Pairwise (· > ·)) :
    (pre ++ card :: card' :: post).filter (fun other => getCardLogicValue card != getCardLogicValue other)
      = pre ++ post := by
  rw [List.map_append, List.map_cons, List.pairwise_append, List.pairwise_cons] at strict
  obtain ⟨-, ⟨below, -⟩, above⟩ := strict
  rw [List.filter_append, List.filter_cons_of_neg (by simp), List.filter_cons_of_neg (by simp [same])]
  congr 1
  · apply List.filter_eq_self.mpr
    intro other inside
    have := above _ (List.mem_map_of_mem inside) _ List.mem_cons_self
    simp only [bne_iff_ne]
    omega
  · apply List.filter_eq_self.mpr
    intro other inside
    have := below _ (List.mem_map_of_mem inside)
    simp only [bne_iff_ne]
    omega

theorem OnePair.reads (pair : OnePair h) (length : h.length = n) : ∃ key rest, repeated 2 h n = some key
    ∧ others key h n = some rest ∧ rest.length + 2 = n ∧ Key .double h key (rest.map getCardLogicValue) := by
  obtain ⟨pre, card, card', post, rfl, same, strict⟩ := pair
  refine ⟨card, pre ++ post, length ▸ isDouble_split same strict, ?_, ?_, ?_, ?_, ?_⟩
  · rw [others_eq length, filter_pair same strict]
  · simp only [List.length_append, List.length_cons] at length ⊢
    omega
  · have nodup : ((pre ++ card :: post).map getCardLogicValue).Nodup := strict.imp Nat.ne_of_gt
    rw [List.map_append, List.map_cons] at nodup
    simp only [List.map_append, List.map_cons, same]
    exact groupedRanks_pair nodup
  · have above : ∀ other ∈ pre, ¬(getCardLogicValue other == getCardLogicValue card) = true := by
      intro other inside
      rw [List.map_append, List.pairwise_append] at strict
      have := strict.2.2 _ (List.mem_map_of_mem inside) (getCardLogicValue card) (by simp)
      rw [beq_iff_eq]
      omega
    rw [colorOf, List.find?_append, List.find?_eq_none.mpr above, Option.none_or, ← colorOf]
    exact colorOf_head
  · exact List.mem_append_right _ List.mem_cons_self

theorem compareRepeat_spec {times : ℕ} {rest rest' : List ℕ} (found : repeated times h n = some key)
    (found' : repeated times h' n = some key') (beside : others key h n = some rest)
    (beside' : others key' h' n = some rest') (length : rest.length = rest'.length) :
    Decides (compareRepeat h h' times n) (getCardLogicValue key' < getCardLogicValue key
      ∨ getCardLogicValue key' = getCardLogicValue key
        ∧ (rest'.map getCardLogicValue < rest.map getCardLogicValue
          ∨ rest'.map getCardLogicValue = rest.map getCardLogicValue ∧ key' < key)) := by
  obtain ⟨order, runs, above, equal⟩ := compareValues_spec length
  simp only [compareRepeat, found, found', beside, beside', runs, Option.bind_eq_bind, Option.bind_some, ← above,
    ← equal]
  rcases eq_or_ne (getCardLogicValue key) (getCardLogicValue key') with same | different
  · rw [if_pos same]
    cases order with
    | gt => exact ⟨true, rfl, by simp [same]⟩
    | lt => exact ⟨false, rfl, by simp [same]⟩
    | eq => exact ⟨decide (key > key'), rfl, by simp [same]⟩
  · rw [if_neg different]
    exact ⟨_, rfl, by simp [different.symm]⟩

/-- Where the repeated values differ, they decide. -/
theorem compareRepeat_of_ne {times : ℕ} (found : repeated times h n = some key)
    (found' : repeated times h' n = some key') (different : getCardLogicValue key ≠ getCardLogicValue key') :
    Decides (compareRepeat h h' times n) (getCardLogicValue key' < getCardLogicValue key) := by
  simp only [compareRepeat, found, found', Option.bind_eq_bind, Option.bind_some, if_neg different]
  exact ⟨_, rfl, by simp⟩

/-- There are not enough cards of one value for two hands. -/
theorem Most.ne {times : ℕ} (three : 3 ≤ times) (sorted : Sorted n h) (sorted' : Sorted n h')
    (disjoint : h.Disjoint h') (most : Most times h key) (most' : Most times h' key') :
    getCardLogicValue key ≠ getCardLogicValue key' := by
  intro same
  have both : (h ++ h').Nodup := List.nodup_append'.mpr ⟨sorted.nodup, sorted'.nodup, disjoint⟩
  have deck : h ++ h' ⊆ cardListData := List.append_subset.mpr ⟨sorted.deck, sorted'.deck⟩
  have count := most.count
  have count' := most'.count
  have few : ((h ++ h').countP fun other => getCardLogicValue other = getCardLogicValue key) ≤ 4 :=
    (countP_deck key (sorted.deck key most.inside)) ▸ (List.subperm_of_subset both deck).countP_le _
  rw [List.countP_append] at few
  rw [List.count, List.countP_map] at count count'
  rw [← same] at count'
  have rewritten (cards : List ℕ) : cards.countP ((· == getCardLogicValue key) ∘ getCardLogicValue)
      = cards.countP fun other => getCardLogicValue other = getCardLogicValue key := rfl
  rw [rewritten] at count count'
  omega

theorem Most.head {times : ℕ} (most : Most times h key) (three : 3 ≤ times) (four : times ≤ 4)
    (straight : type.isStraight = false) :
    ∃ tail, decidingRanks type (h.map getCardLogicValue) = getCardLogicValue key :: tail := by
  rw [decidingRanks, if_neg (Bool.eq_false_iff.mp straight)]
  exact groupedRanks_most three four most.count most.others

theorem strengthOf_lt_of_ne {rank rank' : ℕ} (ranks : decidingRanks type (h.map getCardLogicValue) = rank :: tail)
    (ranks' : decidingRanks type (h'.map getCardLogicValue) = rank' :: tail') (different : rank ≠ rank') :
    strengthOf type h' < strengthOf type h ↔ rank' < rank := by
  simp only [strengthOf, ranks, ranks', Prod.Lex.toLex_lt_toLex, lt_self_iff_false, false_or, true_and,
    List.cons_lt_cons_iff, List.cons.injEq, different.symm, false_and, or_false]

/-! ## Two pairs -/

section TwoPairs

variable {x y z : ℕ}

private theorem groupedRanks_four (xy : x ≠ y) : groupedRanks [x, x, y, y] = [x, y] := by
  simp [groupedRanks, List.count_cons, List.filter_cons, xy, xy.symm]

private theorem groupedRanks_last (xy : x ≠ y) (xz : x ≠ z) (yz : y ≠ z) :
    groupedRanks [x, x, y, y, z] = [x, y, z] := by
  simp [groupedRanks, List.count_cons, List.filter_cons, xy, xy.symm, xz, xz.symm, yz, yz.symm]

private theorem groupedRanks_middle (xy : x ≠ y) (xz : x ≠ z) (yz : y ≠ z) :
    groupedRanks [x, x, z, y, y] = [x, y, z] := by
  simp [groupedRanks, List.count_cons, List.filter_cons, xy, xy.symm, xz, xz.symm, yz, yz.symm]

private theorem groupedRanks_first (xy : x ≠ y) (xz : x ≠ z) (yz : y ≠ z) :
    groupedRanks [z, x, x, y, y] = [x, y, z] := by
  simp [groupedRanks, List.count_cons, List.filter_cons, xy, xy.symm, xz, xz.symm, yz, yz.symm]

theorem TwoPairs.length (pairs : TwoPairs h) : h.length = 4 ∨ h.length = 5 := by
  cases pairs with
  | four => exact Or.inl rfl
  | last => exact Or.inr rfl
  | middle => exact Or.inr rfl
  | first => exact Or.inr rfl

theorem TwoPairs.reads_four (pairs : TwoPairs h) (length : h.length = 4) :
    ∃ key middle low, h[0]? = some key ∧ h[1]? = some middle ∧ h[3]? = some low
      ∧ getCardLogicValue middle = getCardLogicValue key ∧ Key .twoDouble h key [getCardLogicValue low] := by
  cases pairs with
  | @four a b c d first below second =>
    refine ⟨a, b, d, rfl, rfl, rfl, first, ?_, colorOf_head, List.mem_cons_self⟩
    simp only [List.map_cons, List.map_nil, first, ← second]
    exact groupedRanks_four (by omega)
  | last => exact absurd length (by simp)
  | middle => exact absurd length (by simp)
  | first => exact absurd length (by simp)

theorem TwoPairs.reads_five (pairs : TwoPairs h) (length : h.length = 5) :
    ∃ key middle low single, h[1]? = some middle ∧ h[3]? = some low ∧ pairsRest h middle low = some (key, single)
      ∧ getCardLogicValue middle = getCardLogicValue key
      ∧ Key .twoDouble h key [getCardLogicValue low, getCardLogicValue single] := by
  cases pairs with
  | four => exact absurd length (by simp)
  | @last a b c d e first below second single =>
    refine ⟨a, b, d, e, rfl, rfl, by simp [pairsRest, first, second], first, ?_, colorOf_head, List.mem_cons_self⟩
    simp only [List.map_cons, List.map_nil, first, ← second]
    exact groupedRanks_last (by omega) (by omega) (by omega)
  | @middle a b c d e first single below second =>
    refine ⟨a, b, d, c, rfl, rfl, by simp [pairsRest, first, below.ne'], first, ?_, colorOf_head, List.mem_cons_self⟩
    simp only [List.map_cons, List.map_nil, first, second]
    exact groupedRanks_middle (by omega) (by omega) (by omega)
  | @first a b c d e single first below second =>
    refine ⟨b, b, d, a, rfl, rfl, by simp [pairsRest, single.ne'], rfl, ?_, ?_, List.mem_cons_of_mem _ List.mem_cons_self⟩
    · simp only [List.map_cons, List.map_nil, first, second]
      exact groupedRanks_first (by omega) (by omega) (by omega)
    · simp [colorOf, single.ne']

end TwoPairs

theorem compareTwoDouble_spec_four {middle middle' low low' : ℕ} (head : h[0]? = some key) (head' : h'[0]? = some key')
    (second : h[1]? = some middle) (second' : h'[1]? = some middle') (fourth : h[3]? = some low)
    (fourth' : h'[3]? = some low') (same : getCardLogicValue middle = getCardLogicValue key)
    (same' : getCardLogicValue middle' = getCardLogicValue key') :
    Decides (compareTwoDouble h h' 4) (getCardLogicValue key' < getCardLogicValue key
      ∨ getCardLogicValue key' = getCardLogicValue key
        ∧ ([getCardLogicValue low'] < [getCardLogicValue low]
          ∨ [getCardLogicValue low'] = [getCardLogicValue low] ∧ key' < key)) := by
  simp only [compareTwoDouble, head, head', second, second', fourth, fourth', same, same', Option.bind_eq_bind,
    Option.bind_some, if_true, List.cons_lt_cons_iff, List.cons.injEq, and_true]
  split_ifs with above below above' below'
  · exact ⟨true, rfl, by simp [above]⟩
  · exact ⟨false, rfl, by simp; omega⟩
  · exact ⟨true, rfl, by simp; omega⟩
  · exact ⟨false, rfl, by simp; omega⟩
  · exact ⟨decide (key > key'), rfl, by simp; omega⟩

theorem compareTwoDouble_spec_five {middle middle' low low' single single' : ℕ}
    (second : h[1]? = some middle) (second' : h'[1]? = some middle') (fourth : h[3]? = some low)
    (fourth' : h'[3]? = some low') (rest : pairsRest h middle low = some (key, single))
    (rest' : pairsRest h' middle' low' = some (key', single'))
    (same : getCardLogicValue middle = getCardLogicValue key)
    (same' : getCardLogicValue middle' = getCardLogicValue key') :
    Decides (compareTwoDouble h h' 5) (getCardLogicValue key' < getCardLogicValue key
      ∨ getCardLogicValue key' = getCardLogicValue key
        ∧ ([getCardLogicValue low', getCardLogicValue single'] < [getCardLogicValue low, getCardLogicValue single]
          ∨ [getCardLogicValue low', getCardLogicValue single'] = [getCardLogicValue low, getCardLogicValue single]
            ∧ key' < key)) := by
  simp only [compareTwoDouble, second, second', fourth, fourth', rest, rest', same, same', Option.bind_eq_bind,
    Option.bind_some, List.cons_lt_cons_iff, List.cons.injEq, and_true]
  rw [if_neg (show ¬5 = 4 by decide)]
  split_ifs with above below above' below' equal
  · exact ⟨true, rfl, by simp [above]⟩
  · exact ⟨false, rfl, by simp; omega⟩
  · exact ⟨true, rfl, by simp; omega⟩
  · exact ⟨false, rfl, by simp; omega⟩
  · exact ⟨decide (key > key'), rfl, by simp; omega⟩
  · exact ⟨decide (getCardLogicValue single > getCardLogicValue single'), rfl, by simp; omega⟩

/-! ## Straights -/

theorem Straight.length (straight : Straight h) : h.length = 4 ∨ h.length = 5 := by
  cases straight with
  | four => exact Or.inl rfl
  | five => exact Or.inr rfl

theorem Straight.reads_five (straight : Straight h) (length : h.length = 5) (sorted : Sorted 5 h)
    (link : type.isStraight = true) : ∃ key, linkMaxCard h = some key ∧ Key type h key [] := by
  cases straight with
  | four => exact absurd length (by simp)
  | @five a b c d e third fourth fifth second =>
    have low := (logicValue_of_mem e (sorted.deck e (by simp))).1
    have ranks : decidingRanks type ([a, b, c, d, e].map getCardLogicValue)
        = [if getCardLogicValue a = 14 ∧ getCardLogicValue e = 8 then 11 else getCardLogicValue a] := by
      rw [decidingRanks, if_pos link, straightRank]
      congr 1
      simp only [List.map_cons, List.map_nil, List.mem_cons, List.not_mem_nil, or_false, List.headD_cons]
      split_ifs <;> omega
    rcases Decidable.em (getCardLogicValue a = 14 ∧ getCardLogicValue e = 8) with lowest | higher
    · rw [if_pos lowest] at ranks
      refine ⟨b, by simp [linkMaxCard, lowest.1, lowest.2], ?_, ?_, by simp⟩
      · rw [ranks]
        congr 1
        omega
      · have : getCardLogicValue a ≠ getCardLogicValue b := by omega
        simp [colorOf, this]
    · rw [if_neg higher] at ranks
      refine ⟨a, ?_, ranks, colorOf_head, List.mem_cons_self⟩
      simp only [linkMaxCard, List.getElem?_cons_zero, List.getElem?_cons_succ, Option.bind_eq_bind, Option.bind_some]
      split_ifs with ace eight
      · exact absurd ⟨ace, eight⟩ higher
      · rfl
      · rfl

/-- Without an ace a straight of four cards is read as one of five. -/
theorem Straight.reads_four (straight : Straight h) (length : h.length = 4) (link : type.isStraight = true)
    (noAce : ∀ card ∈ h, getCardLogicValue card ≠ 14) : ∃ key, linkMaxCard h = some key ∧ Key type h key [] := by
  cases straight with
  | five => exact absurd length (by simp)
  | @four a b c d second third fourth =>
    refine ⟨a, by simp [linkMaxCard, noAce a List.mem_cons_self], ?_, colorOf_head, List.mem_cons_self⟩
    rw [decidingRanks, if_pos link, straightRank, if_neg]
    · rfl
    · rintro ⟨ace, -⟩
      obtain ⟨card, inside, same⟩ := List.mem_map.mp ace
      exact noAce card inside same

/-- With an ace the fifth of four cards is read. -/
theorem Straight.reads_beyond (straight : Straight h) (length : h.length = 4)
    (ace : ∃ card ∈ h, getCardLogicValue card = 14) (sorted : Sorted 4 h) : linkMaxCard h = none := by
  cases straight with
  | five => exact absurd length (by simp)
  | @four a b c d second third fourth =>
    have high := (logicValue_of_mem a (sorted.deck a List.mem_cons_self)).2.1
    have first : getCardLogicValue a = 14 := by
      obtain ⟨card, inside, same⟩ := ace
      simp only [List.mem_cons, List.not_mem_nil, or_false] at inside
      rcases inside with rfl | rfl | rfl | rfl <;> omega
    simp [linkMaxCard, first]

theorem compareLink_spec (reads : linkMaxCard h = some key) (reads' : linkMaxCard h' = some key')
    (color : getCardLogicValue key' = getCardLogicValue key → (getCardColor key' < getCardColor key ↔ key' < key)) :
    Decides (compareLink h h') (getCardLogicValue key' < getCardLogicValue key
      ∨ getCardLogicValue key' = getCardLogicValue key ∧ key' < key) := by
  simp only [compareLink, reads, reads', Option.bind_eq_bind, Option.bind_some]
  rcases eq_or_ne (getCardLogicValue key) (getCardLogicValue key') with same | different
  · rw [if_pos same]
    exact ⟨_, rfl, by simp [same, color same.symm]⟩
  · rw [if_neg different]
    exact ⟨_, rfl, by simp [different.symm]⟩

/-! ## Every type -/

/-- The straights of four cards with an ace, in whose comparison a fifth card is read. -/
def ReadsBeyond (n : ℕ) (type : CardType) (h h' : List ℕ) : Prop :=
  n = 4 ∧ type.isStraight = true ∧ ∃ card ∈ h ++ h', getCardLogicValue card = 14

private theorem compareSorted_straight (sorted : Sorted n h) (sorted' : Sorted n h') (straight : Straight h)
    (straight' : Straight h') (link : type.isStraight = true) (inside : ¬ReadsBeyond n type h h') :
    Decides (compareLink h h') (strengthOf type h' < strengthOf type h) := by
  obtain ⟨key, key', reads, reads', decides, decides'⟩ : ∃ key key', linkMaxCard h = some key
      ∧ linkMaxCard h' = some key' ∧ Key type h key [] ∧ Key type h' key' [] := by
    rcases sorted.length ▸ straight.length with rfl | rfl
    · have noAce : ∀ card ∈ h ++ h', getCardLogicValue card ≠ 14 :=
        fun card present ace => inside ⟨rfl, link, card, present, ace⟩
      obtain ⟨key, reads, decides⟩ := straight.reads_four sorted.length link fun card present =>
        noAce card (List.mem_append_left _ present)
      obtain ⟨key', reads', decides'⟩ := straight'.reads_four sorted'.length link fun card present =>
        noAce card (List.mem_append_right _ present)
      exact ⟨key, key', reads, reads', decides, decides'⟩
    · obtain ⟨key, reads, decides⟩ := straight.reads_five sorted.length sorted link
      obtain ⟨key', reads', decides'⟩ := straight'.reads_five sorted'.length sorted' link
      exact ⟨key, key', reads, reads', decides, decides'⟩
  have color := color_lt_iff key' (sorted'.deck _ decides'.inside) key (sorted.deck _ decides.inside)
  apply (compareLink_spec reads reads' color).congr
  rw [decides.strengthOf_lt sorted sorted' decides']
  simp

private theorem compareSorted_nodup (sorted : Sorted n h) (sorted' : Sorted n h') (positive : 1 ≤ n)
    (nodup : (h.map getCardLogicValue).Nodup) (nodup' : (h'.map getCardLogicValue).Nodup)
    (straight : type.isStraight = false) :
    Decides (compareSingle h h' n) (strengthOf type h' < strengthOf type h) := by
  cases h with
  | nil => exact absurd sorted.length (by simp; omega)
  | cons card rest =>
    cases h' with
    | nil => exact absurd sorted'.length (by simp; omega)
    | cons card' rest' =>
      have decides := compareSingle_spec sorted.length sorted'.length List.getElem?_cons_zero List.getElem?_cons_zero
      apply decides.congr
      rw [(key_of_nodup straight nodup).strengthOf_lt sorted sorted' (key_of_nodup straight nodup'), List.map_cons,
        List.map_cons, List.cons_lt_cons_iff, List.cons.injEq]
      tauto

private theorem compareSorted_most {times : ℕ} (sorted : Sorted n h) (sorted' : Sorted n h')
    (disjoint : h.Disjoint h') (three : 3 ≤ times) (four : times ≤ 4) (straight : type.isStraight = false)
    (most : ∃ found, Most times h found) (most' : ∃ found, Most times h' found) :
    Decides (compareRepeat h h' times n) (strengthOf type h' < strengthOf type h) := by
  obtain ⟨key, most⟩ := most
  obtain ⟨key', most'⟩ := most'
  have different := most.ne three sorted sorted' disjoint most'
  obtain ⟨tail, ranks⟩ := most.head three four straight
  obtain ⟨tail', ranks'⟩ := most'.head three four straight
  have found := most.repeated
  have found' := most'.repeated
  rw [sorted.length] at found
  rw [sorted'.length] at found'
  apply (compareRepeat_of_ne found found' different).congr
  rw [strengthOf_lt_of_ne ranks ranks' different]

private theorem compareSorted_onePair (sorted : Sorted n h) (sorted' : Sorted n h') (pair : OnePair h)
    (pair' : OnePair h') :
    Decides (compareRepeat h h' 2 n) (strengthOf .double h' < strengthOf .double h) := by
  obtain ⟨key, rest, found, beside, size, decides⟩ := pair.reads sorted.length
  obtain ⟨key', rest', found', beside', size', decides'⟩ := pair'.reads sorted'.length
  apply (compareRepeat_spec found found' beside beside' (by omega)).congr
  rw [decides.strengthOf_lt sorted sorted' decides']

private theorem compareSorted_twoPairs (sorted : Sorted n h) (sorted' : Sorted n h') (pairs : TwoPairs h)
    (pairs' : TwoPairs h') :
    Decides (compareTwoDouble h h' n) (strengthOf .twoDouble h' < strengthOf .twoDouble h) := by
  rcases sorted.length ▸ pairs.length with rfl | rfl
  · obtain ⟨key, middle, low, head, second, fourth, same, decides⟩ := pairs.reads_four sorted.length
    obtain ⟨key', middle', low', head', second', fourth', same', decides'⟩ := pairs'.reads_four sorted'.length
    apply (compareTwoDouble_spec_four head head' second second' fourth fourth' same same').congr
    rw [decides.strengthOf_lt sorted sorted' decides']
  · obtain ⟨key, middle, low, single, second, fourth, rest, same, decides⟩ := pairs.reads_five sorted.length
    obtain ⟨key', middle', low', single', second', fourth', rest', same', decides'⟩ := pairs'.reads_five sorted'.length
    apply (compareTwoDouble_spec_five second second' fourth fourth' rest rest' same same').congr
    rw [decides.strengthOf_lt sorted sorted' decides']

/-- Two sorted hands of one type are compared as their strengths are. -/
theorem compareSorted_spec (sorted : Sorted n h) (sorted' : Sorted n h') (positive : 1 ≤ n)
    (disjoint : h.Disjoint h') (shape : Shape type h) (shape' : Shape type h') (inside : ¬ReadsBeyond n type h h') :
    Decides (compareSorted type h h' n) (strengthOf type h' < strengthOf type h) := by
  cases type with
  | single => exact compareSorted_nodup sorted sorted' positive shape shape' rfl
  | sameFlower => exact compareSorted_nodup sorted sorted' positive shape shape' rfl
  | double => exact compareSorted_onePair sorted sorted' shape shape'
  | twoDouble => exact compareSorted_twoPairs sorted sorted' shape shape'
  | third => exact compareSorted_most sorted sorted' disjoint (by omega) (by omega) rfl shape shape'
  | calabash => exact compareSorted_most sorted sorted' disjoint (by omega) (by omega) rfl shape shape'
  | four => exact compareSorted_most sorted sorted' disjoint (by omega) (by omega) rfl shape shape'
  | link => exact compareSorted_straight sorted sorted' shape shape' rfl inside
  | sameFlowerLink => exact compareSorted_straight sorted sorted' shape shape' rfl inside
  | maxSameFlowerLink => exact compareSorted_straight sorted sorted' shape shape' rfl inside

/-- Straights of four cards with an ace are not compared within their cards. -/
theorem compareSorted_beyond (sorted : Sorted n h) (sorted' : Sorted n h') (shape : Shape type h)
    (shape' : Shape type h') (beyond : ReadsBeyond n type h h') : compareSorted type h h' n = none := by
  obtain ⟨rfl, link, card, present, ace⟩ := beyond
  have straight : Straight h ∧ Straight h' ∧ compareSorted type h h' 4 = compareLink h h' := by
    cases type <;> first | exact ⟨shape, shape', rfl⟩ | exact absurd link Bool.false_ne_true
  obtain ⟨straight, straight', runs⟩ := straight
  rw [runs, compareLink]
  rcases List.mem_append.mp present with first | second
  · rw [straight.reads_beyond sorted.length ⟨card, first, ace⟩ sorted]
    rfl
  · rw [straight'.reads_beyond sorted'.length ⟨card, second, ace⟩ sorted']
    cases linkMaxCard h <;> rfl

end H5Server.Gswz
