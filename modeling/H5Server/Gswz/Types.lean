import H5Server.Gswz.Strength
import Mathlib.Tactic.SplitIfs

/-! # The types of sorted hands

What the loops of `GetCardType` find in a sorted hand, and from it the shape of the hands of each type. None of them
reads past the last card.
-/

namespace H5Server.Gswz

variable {n : ℕ} {h rest : List ℕ} {a b c d e card : ℕ}

/-! ## The loops -/

/-- `seen` are the cards up to the current one, among which no value occurs often enough. -/
theorem sameCards_spec {wanted : ℕ} (two : 2 ≤ wanted) (front : List ℕ) (tmpCard : ℕ)
    (descending : ((front ++ tmpCard :: rest).map getCardLogicValue).Pairwise (· ≥ ·))
    (few : ∀ rank, ((front ++ [tmpCard]).map getCardLogicValue).count rank < wanted)
    (nonzero : ∀ card ∈ front ++ tmpCard :: rest, card ≠ 0) :
    ∃ found, sameCards wanted tmpCard
        (((front ++ [tmpCard]).map getCardLogicValue).count (getCardLogicValue tmpCard)) rest.length rest = some found
      ∧ (found = 0 → ∀ rank, ((front ++ tmpCard :: rest).map getCardLogicValue).count rank < wanted)
      ∧ (found ≠ 0 → found ∈ front ++ tmpCard :: rest
        ∧ wanted ≤ ((front ++ tmpCard :: rest).map getCardLogicValue).count (getCardLogicValue found)) := by
  induction rest generalizing front tmpCard with
  | nil => exact ⟨0, rfl, fun _ => few, fun found => absurd rfl found⟩
  | cons card rest ih =>
    have split : front ++ tmpCard :: card :: rest = front ++ [tmpCard] ++ card :: rest := by simp
    have snoc : (front ++ [tmpCard] ++ [card]).map getCardLogicValue
        = (front ++ [tmpCard]).map getCardLogicValue ++ [getCardLogicValue card] := List.map_append
    -- the count of the source is that of the value of `card` among the cards up to it
    have counted : (if getCardLogicValue card = getCardLogicValue tmpCard
          then ((front ++ [tmpCard]).map getCardLogicValue).count (getCardLogicValue tmpCard) + 1 else 1)
        = ((front ++ [tmpCard] ++ [card]).map getCardLogicValue).count (getCardLogicValue card) := by
      rw [snoc, List.count_append, List.count_singleton_self]
      rcases eq_or_ne (getCardLogicValue card) (getCardLogicValue tmpCard) with same | different
      · rw [if_pos same, same]
      · have new : getCardLogicValue card ∉ (front ++ [tmpCard]).map getCardLogicValue := by
          intro inside
          rw [split, List.map_append, List.pairwise_append] at descending
          have above := descending.2.2 _ (List.mem_map_of_mem (List.mem_append_right front List.mem_cons_self))
            _ (List.mem_map_of_mem List.mem_cons_self)
          have below : getCardLogicValue tmpCard ≤ getCardLogicValue card := by
            have parts := descending.1
            rw [List.map_append, List.pairwise_append] at parts
            obtain ⟨other, present, same⟩ := List.mem_map.mp inside
            rcases List.mem_append.mp present with before | last
            · have := parts.2.2 _ (List.mem_map_of_mem before) _ (List.mem_singleton_self _)
              omega
            · rw [← same, List.mem_singleton.mp last]
          exact different (Nat.le_antisymm above below)
        rw [if_neg different, List.count_eq_zero.mpr new]
    rw [List.length_cons, sameCards, counted]
    rcases eq_or_ne (((front ++ [tmpCard] ++ [card]).map getCardLogicValue).count (getCardLogicValue card)) wanted
      with enough | short
    · refine ⟨tmpCard, if_pos enough, fun zero => ?_, fun _ => ?_⟩
      · exact absurd zero (nonzero tmpCard (List.mem_append_right _ List.mem_cons_self))
      · have same : getCardLogicValue card = getCardLogicValue tmpCard := by
          by_contra different
          rw [if_neg different, enough] at counted
          omega
        refine ⟨List.mem_append_right _ List.mem_cons_self, ?_⟩
        rw [split, ← List.singleton_append (x := card), ← List.append_assoc, List.map_append, List.count_append, ← same,
          enough]
        omega
    · rw [if_neg short, split]
      rw [split] at descending nonzero
      apply ih (front ++ [tmpCard]) card descending
      · intro rank
        rw [snoc, List.count_append]
        rcases eq_or_ne rank (getCardLogicValue card) with rfl | different
        · rw [snoc, List.count_append] at short
          have := few (getCardLogicValue card)
          rw [List.count_singleton_self] at short ⊢
          omega
        · rw [List.count_singleton, if_neg (by simpa using different.symm)]
          exact few rank
      · exact nonzero

/-- Whether a value occurs often enough, and a card of such a value. -/
theorem Sorted.repeated_spec {wanted : ℕ} (two : 2 ≤ wanted) (sorted : Sorted n h) (positive : 0 < n) :
    ∃ found, repeated wanted h n = some found
      ∧ (found = 0 → ∀ rank, (h.map getCardLogicValue).count rank < wanted)
      ∧ (found ≠ 0 → found ∈ h ∧ wanted ≤ (h.map getCardLogicValue).count (getCardLogicValue found)) := by
  cases h with
  | nil => exact absurd sorted.length positive.ne
  | cons card rest =>
    have length := sorted.length
    rw [List.length_cons] at length
    obtain ⟨found, runs, least, most⟩ := sameCards_spec two [] card sorted.descending
      (fun rank => Nat.lt_of_le_of_lt (List.count_le_length) two) fun card inside =>
        (logicValue_of_mem card (sorted.deck card inside)).2.2
    refine ⟨found, ?_, least, most⟩
    rw [repeated, ← length, Nat.add_sub_cancel]
    simpa using runs

theorem oneColor_eq (color : ℕ) (rest : List ℕ) :
    oneColor color rest.length rest = some (rest.all fun card => getCardColor card == color) := by
  induction rest with
  | nil => rfl
  | cons card rest ih =>
    rw [List.length_cons, oneColor, ih, List.all_cons]
    rcases eq_or_ne (getCardColor card) color with same | different
    · rw [if_neg (not_not.mpr same), beq_iff_eq.mpr same, Bool.true_and]
    · rw [if_pos different, beq_eq_false_iff_ne.mpr different, Bool.false_and]

theorem isLink_four : isLink [a, b, c, d] 4 = some (decide (getCardLogicValue b + 1 = getCardLogicValue a
    ∧ getCardLogicValue c + 1 = getCardLogicValue b ∧ getCardLogicValue d + 1 = getCardLogicValue c)) := by
  simp only [isLink, linked, Nat.reduceSub]
  split_ifs <;> simp_all

theorem isLink_five : isLink [a, b, c, d, e] 5 = some (decide (getCardLogicValue c + 1 = getCardLogicValue b
    ∧ getCardLogicValue d + 1 = getCardLogicValue c ∧ getCardLogicValue e + 1 = getCardLogicValue d
    ∧ (getCardLogicValue b + 1 = getCardLogicValue a ∨ getCardLogicValue a = 14 ∧ getCardLogicValue e = 8))) := by
  simp only [isLink, linked, Nat.reduceSub]
  rcases eq_or_ne (getCardLogicValue a) 14 with ace | other <;> split_ifs <;> simp_all
  rcases eq_or_ne (getCardLogicValue e) 8 with eight | other <;> simp_all

private theorem ite_bne_zero (p : Prop) [Decidable p] (x y : ℕ) :
    ((if p then x else y) != 0) = (decide p && x != 0 || !decide p && y != 0) := by
  rcases Decidable.em p with holds | fails
  · simp [holds]
  · simp [fails]

theorem isDouble_two : isDouble [c, d] 2 = some (if getCardLogicValue d = getCardLogicValue c then c else 0) := by
  simp only [isDouble, repeated, sameCards, Nat.reduceSub]
  split_ifs <;> simp_all

theorem isDouble_three : isDouble [c, d, e] 3 = some (if getCardLogicValue d = getCardLogicValue c then c
    else if getCardLogicValue e = getCardLogicValue d then d else 0) := by
  simp only [isDouble, repeated, sameCards, Nat.reduceSub]
  split_ifs <;> simp_all

theorem isThird_three : isThird [c, d, e] 3
    = some (if getCardLogicValue d = getCardLogicValue c ∧ getCardLogicValue e = getCardLogicValue d then d else 0) := by
  simp only [isThird, repeated, sameCards, Nat.reduceSub]
  split_ifs <;> simp_all

theorem isCalabash_five (nonzero : ∀ card ∈ [a, b, c, d, e], card ≠ 0) :
    isCalabash [a, b, c, d, e] 5 = some (decide (getCardLogicValue b = getCardLogicValue a
      ∧ getCardLogicValue e = getCardLogicValue d
      ∧ (getCardLogicValue c = getCardLogicValue a ∧ getCardLogicValue d ≠ getCardLogicValue a
        ∨ getCardLogicValue c ≠ getCardLogicValue a ∧ getCardLogicValue d = getCardLogicValue c))) := by
  simp only [isCalabash, firstBlock, Nat.reduceSub]
  split_ifs <;> simp_all [isDouble_two, isThird_three, ite_bne_zero, and_comm]

theorem isTwoDouble_four (nonzero : ∀ card ∈ [a, b, c, d], card ≠ 0) :
    isTwoDouble [a, b, c, d] 4 = some (decide (getCardLogicValue b = getCardLogicValue a
      ∧ getCardLogicValue c ≠ getCardLogicValue b ∧ getCardLogicValue d = getCardLogicValue c)) := by
  simp only [isTwoDouble, firstPair, Nat.reduceSub]
  split_ifs <;> simp_all [isDouble_two, ite_bne_zero]

theorem isTwoDouble_five (nonzero : ∀ card ∈ [a, b, c, d, e], card ≠ 0) :
    isTwoDouble [a, b, c, d, e] 5 = some (decide (
      getCardLogicValue b = getCardLogicValue a ∧ getCardLogicValue c ≠ getCardLogicValue b
        ∧ (getCardLogicValue d = getCardLogicValue c ∨ getCardLogicValue e = getCardLogicValue d)
      ∨ getCardLogicValue b ≠ getCardLogicValue a ∧ getCardLogicValue c = getCardLogicValue b
        ∧ getCardLogicValue d ≠ getCardLogicValue c ∧ getCardLogicValue e = getCardLogicValue d)) := by
  simp only [isTwoDouble, firstPair, Nat.reduceSub]
  split_ifs <;> simp_all [isDouble_two, isDouble_three, ite_bne_zero]
  rcases eq_or_ne (getCardLogicValue d) (getCardLogicValue c) with same | different <;> simp_all

theorem isThird_four : isThird [a, b, c, d] 4
    = some (if getCardLogicValue b = getCardLogicValue a ∧ getCardLogicValue c = getCardLogicValue b then b
      else if getCardLogicValue c = getCardLogicValue b ∧ getCardLogicValue d = getCardLogicValue c then c else 0) := by
  simp only [isThird, repeated, sameCards, Nat.reduceSub]
  split_ifs <;> simp_all

theorem isThird_five : isThird [a, b, c, d, e] 5
    = some (if getCardLogicValue b = getCardLogicValue a ∧ getCardLogicValue c = getCardLogicValue b then b
      else if getCardLogicValue c = getCardLogicValue b ∧ getCardLogicValue d = getCardLogicValue c then c
      else if getCardLogicValue d = getCardLogicValue c ∧ getCardLogicValue e = getCardLogicValue d then d else 0) := by
  simp only [isThird, repeated, sameCards, Nat.reduceSub]
  split_ifs <;> simp_all

/-! ## Counts -/

theorem Sorted.count_le_four (sorted : Sorted n h) (rank : ℕ) : (h.map getCardLogicValue).count rank ≤ 4 := by
  rcases Nat.eq_zero_or_pos ((h.map getCardLogicValue).count rank) with none_ | some_
  · omega
  obtain ⟨card, inside, rfl⟩ := List.mem_map.mp (List.count_pos_iff.mp some_)
  calc
    (h.map getCardLogicValue).count (getCardLogicValue card)
        = h.countP fun other => getCardLogicValue other = getCardLogicValue card := by
      rw [List.count, List.countP_map]
      rfl
    _ ≤ cardListData.countP fun other => getCardLogicValue other = getCardLogicValue card :=
      (List.subperm_of_subset sorted.nodup sorted.deck).countP_le _
    _ = 4 := countP_deck card (sorted.deck card inside)

theorem count_add_count_le {rank rank' : ℕ} (different : rank ≠ rank') (ranks : List ℕ) :
    ranks.count rank + ranks.count rank' ≤ ranks.length := by
  induction ranks with
  | nil => exact Nat.le_refl 0
  | cons first rest ih =>
    rw [List.count_cons, List.count_cons, List.length_cons]
    rcases eq_or_ne first rank with rfl | other
    · simp only [beq_self_eq_true, if_true, beq_eq_false_iff_ne.mpr different, Bool.false_eq_true, if_false]
      omega
    · simp only [beq_eq_false_iff_ne.mpr other, Bool.false_eq_true, if_false]
      split <;> omega

/-- A value that occurs as often as wanted, and none does so twice. -/
structure Most (times : ℕ) (h : List ℕ) (found : ℕ) : Prop where
  repeated : repeated times h h.length = some found
  inside : found ∈ h
  count : (h.map getCardLogicValue).count (getCardLogicValue found) = times
  others : ∀ rank, rank ≠ getCardLogicValue found → (h.map getCardLogicValue).count rank < times

theorem Sorted.most {times found : ℕ} (sorted : Sorted n h) (positive : 0 < n) (few : n ≤ 5) (three : 3 ≤ times)
    (runs : repeated times h n = some found) (present : found ≠ 0)
    (bound : ∀ rank, (h.map getCardLogicValue).count rank ≤ times) : Most times h found := by
  obtain ⟨found', runs', -, most⟩ := sorted.repeated_spec (by omega : 2 ≤ times) positive
  obtain rfl : found' = found := Option.some.inj (runs'.symm.trans runs)
  obtain ⟨inside, enough⟩ := most present
  refine ⟨sorted.length ▸ runs, inside, Nat.le_antisymm (bound _) enough, fun rank different => ?_⟩
  have total := count_add_count_le different (h.map getCardLogicValue)
  rw [List.length_map, sorted.length] at total
  omega

/-! ## Shapes -/

/-- Two cards of one value, and others of different values. -/
def OnePair (h : List ℕ) : Prop :=
  ∃ pre card card' post, h = pre ++ card :: card' :: post ∧ getCardLogicValue card' = getCardLogicValue card
    ∧ ((pre ++ card :: post).map getCardLogicValue).Pairwise (· > ·)

/-- The hands with two pairs, by the position of the single card. -/
inductive TwoPairs : List ℕ → Prop where
  | four {a b c d : ℕ} (first : getCardLogicValue b = getCardLogicValue a)
    (below : getCardLogicValue c < getCardLogicValue b) (second : getCardLogicValue d = getCardLogicValue c) :
    TwoPairs [a, b, c, d]
  | last {a b c d e : ℕ} (first : getCardLogicValue b = getCardLogicValue a)
    (below : getCardLogicValue c < getCardLogicValue b) (second : getCardLogicValue d = getCardLogicValue c)
    (single : getCardLogicValue e < getCardLogicValue d) : TwoPairs [a, b, c, d, e]
  | middle {a b c d e : ℕ} (first : getCardLogicValue b = getCardLogicValue a)
    (single : getCardLogicValue c < getCardLogicValue b) (below : getCardLogicValue d < getCardLogicValue c)
    (second : getCardLogicValue e = getCardLogicValue d) : TwoPairs [a, b, c, d, e]
  | first {a b c d e : ℕ} (single : getCardLogicValue b < getCardLogicValue a)
    (first : getCardLogicValue c = getCardLogicValue b) (below : getCardLogicValue d < getCardLogicValue c)
    (second : getCardLogicValue e = getCardLogicValue d) : TwoPairs [a, b, c, d, e]

inductive Straight : List ℕ → Prop where
  | four {a b c d : ℕ} (second : getCardLogicValue b + 1 = getCardLogicValue a)
    (third : getCardLogicValue c + 1 = getCardLogicValue b) (fourth : getCardLogicValue d + 1 = getCardLogicValue c) :
    Straight [a, b, c, d]
  | five {a b c d e : ℕ} (third : getCardLogicValue c + 1 = getCardLogicValue b)
    (fourth : getCardLogicValue d + 1 = getCardLogicValue c) (fifth : getCardLogicValue e + 1 = getCardLogicValue d)
    (second : getCardLogicValue b + 1 = getCardLogicValue a ∨ getCardLogicValue a = 14 ∧ getCardLogicValue e = 8) :
    Straight [a, b, c, d, e]

/-- What the hands of a type look like. -/
def Shape : CardType → List ℕ → Prop
  | .single, h | .sameFlower, h => (h.map getCardLogicValue).Nodup
  | .double, h => OnePair h
  | .twoDouble, h => TwoPairs h
  | .third, h | .calabash, h => ∃ found, Most 3 h found
  | .four, h => ∃ found, Most 4 h found
  | .link, h | .sameFlowerLink, h | .maxSameFlowerLink, h => Straight h

section Classified

variable {sameFlower link calabash twoDouble : Bool} {four third double : ℕ}

private theorem typeOfSorted_four (flower : isSameFlower [a, b, c, d] 4 = some sameFlower)
    (linked : isLink [a, b, c, d] 4 = some link) (foured : isFour [a, b, c, d] 4 = some four)
    (thirded : isThird [a, b, c, d] 4 = some third) (paired : isTwoDouble [a, b, c, d] 4 = some twoDouble)
    (doubled : isDouble [a, b, c, d] 4 = some double) :
    typeOfSorted [a, b, c, d] 4 = some (if sameFlower && link then .sameFlowerLink
      else if four ≠ 0 then .four
      else if sameFlower then .sameFlower
      else if link then .link
      else if third ≠ 0 then .third
      else if twoDouble then .twoDouble
      else if double ≠ 0 then .double else .single) := by
  simp only [typeOfSorted, flower, linked, foured, thirded, paired, doubled, Option.bind_eq_bind, Option.bind_some,
    apply_ite some]
  rfl

private theorem typeOfSorted_five (flower : isSameFlower [a, b, c, d, e] 5 = some sameFlower)
    (linked : isLink [a, b, c, d, e] 5 = some link) (foured : isFour [a, b, c, d, e] 5 = some four)
    (full : isCalabash [a, b, c, d, e] 5 = some calabash)
    (thirded : isThird [a, b, c, d, e] 5 = some third) (paired : isTwoDouble [a, b, c, d, e] 5 = some twoDouble)
    (doubled : isDouble [a, b, c, d, e] 5 = some double) :
    typeOfSorted [a, b, c, d, e] 5 = some (if sameFlower && link then
        if getCardLogicValue e = 10 then .maxSameFlowerLink else .sameFlowerLink
      else if four ≠ 0 then .four
      else if sameFlower then .sameFlower
      else if calabash then .calabash
      else if link then .link
      else if third ≠ 0 then .third
      else if twoDouble then .twoDouble
      else if double ≠ 0 then .double else .single) := by
  simp only [typeOfSorted, flower, linked, foured, full, thirded, paired, doubled, Option.bind_eq_bind, Option.bind_some,
    apply_ite some]
  rfl

end Classified

theorem isSameFlower_eq {card : ℕ} {rest : List ℕ} (length : (card :: rest).length = n) :
    isSameFlower (card :: rest) n = some (rest.all fun other => getCardColor other == getCardColor card) := by
  rw [isSameFlower, ← oneColor_eq, ← length, List.length_cons, Nat.add_sub_cancel]

/-- Cards of one colour have different values. -/
theorem Sorted.nodup_of_flower (sorted : Sorted n (card :: rest))
    (flower : (rest.all fun other => getCardColor other == getCardColor card) = true) :
    ((card :: rest).map getCardLogicValue).Nodup := by
  have color : ∀ other ∈ card :: rest, getCardColor other = getCardColor card := by
    intro other inside
    rcases List.mem_cons.mp inside with rfl | later
    · rfl
    · exact beq_iff_eq.mp (List.all_eq_true.mp flower other later)
  apply sorted.nodup.map_on
  intro x inside y inside' same
  have below := color_lt_iff x (sorted.deck x inside) y (sorted.deck y inside') same
  have above := color_lt_iff y (sorted.deck y inside') x (sorted.deck x inside) same.symm
  rw [color x inside, color y inside'] at below above
  omega

theorem Sorted.nodup_of_isDouble (sorted : Sorted n h) (positive : 0 < n) (none_ : isDouble h n = some 0) :
    (h.map getCardLogicValue).Nodup := by
  obtain ⟨found, runs, least, -⟩ := sorted.repeated_spec (Nat.le_refl 2) positive
  obtain rfl : found = 0 := Option.some.inj (runs.symm.trans none_)
  apply List.nodup_iff_count_le_one.mpr
  intro rank
  have := least rfl rank
  omega

private theorem Sorted.nonzero (sorted : Sorted n h) : ∀ card ∈ h, card ≠ 0 :=
  fun card inside => (logicValue_of_mem card (sorted.deck card inside)).2.2

theorem Sorted.shape_two (sorted : Sorted 2 [a, b]) : ∃ type, typeOfSorted [a, b] 2 = some type ∧ Shape type [a, b] := by
  have found := isDouble_two (c := a) (d := b)
  rcases eq_or_ne (getCardLogicValue b) (getCardLogicValue a) with same | different
  · rw [if_pos same] at found
    have nonzero := sorted.nonzero a List.mem_cons_self
    refine ⟨.double, by simp [typeOfSorted, found, nonzero], [], a, b, [], rfl, same, by simp⟩
  · rw [if_neg different] at found
    exact ⟨.single, by simp [typeOfSorted, found], sorted.nodup_of_isDouble Nat.two_pos found⟩

theorem Sorted.shape_three (sorted : Sorted 3 [a, b, c]) :
    ∃ type, typeOfSorted [a, b, c] 3 = some type ∧ Shape type [a, b, c] := by
  have thirded := isThird_three (c := a) (d := b) (e := c)
  have doubled := isDouble_three (c := a) (d := b) (e := c)
  have nonzero := sorted.nonzero
  have descending := sorted.descending
  simp only [List.forall_mem_cons, List.map_cons, List.map_nil, List.pairwise_cons] at nonzero descending
  obtain ⟨⟨above, -⟩, ⟨below, -⟩, -⟩ := descending
  rcases eq_or_ne (getCardLogicValue b) (getCardLogicValue a) with first | first
  · rcases eq_or_ne (getCardLogicValue c) (getCardLogicValue b) with second | second
    · rw [if_pos ⟨first, second⟩] at thirded
      refine ⟨.third, by simp [typeOfSorted, thirded, nonzero], b, ?_⟩
      apply sorted.most (by omega) (by omega) (by omega) thirded nonzero.2.1
      exact fun rank => List.count_le_length
    · rw [if_neg fun both => second both.2] at thirded
      rw [if_pos first] at doubled
      refine ⟨.double, by simp [typeOfSorted, thirded, doubled, nonzero], [], a, b, [c], rfl, first, ?_⟩
      simp only [List.nil_append, List.map_cons, List.map_nil, List.pairwise_pair]
      omega
  · rw [if_neg fun both => first both.1] at thirded
    rcases eq_or_ne (getCardLogicValue c) (getCardLogicValue b) with second | second
    · rw [if_neg first, if_pos second] at doubled
      refine ⟨.double, by simp [typeOfSorted, thirded, doubled, nonzero], [a], b, c, [], rfl, second, ?_⟩
      simp only [List.singleton_append, List.map_cons, List.map_nil, List.pairwise_pair]
      omega
    · rw [if_neg first, if_neg second] at doubled
      exact ⟨.single, by simp [typeOfSorted, thirded, doubled], sorted.nodup_of_isDouble (by omega) doubled⟩

theorem Sorted.not_nodup_of_isDouble {double : ℕ} (sorted : Sorted n h) (positive : 0 < n)
    (doubled : isDouble h n = some double) (present : double ≠ 0) : ¬(h.map getCardLogicValue).Nodup := by
  obtain ⟨found, runs, -, most⟩ := sorted.repeated_spec (Nat.le_refl 2) positive
  obtain rfl : found = double := Option.some.inj (runs.symm.trans doubled)
  intro nodup
  have := List.nodup_iff_count_le_one.mp nodup (getCardLogicValue found)
  have := (most present).2
  omega

private theorem noThree_four (nonzero : ∀ card ∈ [a, b, c, d], card ≠ 0) (thirded : isThird [a, b, c, d] 4 = some 0) :
    ¬(getCardLogicValue b = getCardLogicValue a ∧ getCardLogicValue c = getCardLogicValue b)
      ∧ ¬(getCardLogicValue c = getCardLogicValue b ∧ getCardLogicValue d = getCardLogicValue c) := by
  simp only [List.forall_mem_cons] at nonzero
  rw [isThird_four, Option.some_inj] at thirded
  split_ifs at thirded with low high
  · exact absurd thirded nonzero.2.1
  · exact absurd thirded nonzero.2.2.1
  · exact ⟨low, high⟩

private theorem noThree_five (nonzero : ∀ card ∈ [a, b, c, d, e], card ≠ 0)
    (thirded : isThird [a, b, c, d, e] 5 = some 0) :
    ¬(getCardLogicValue b = getCardLogicValue a ∧ getCardLogicValue c = getCardLogicValue b)
      ∧ ¬(getCardLogicValue c = getCardLogicValue b ∧ getCardLogicValue d = getCardLogicValue c)
      ∧ ¬(getCardLogicValue d = getCardLogicValue c ∧ getCardLogicValue e = getCardLogicValue d) := by
  simp only [List.forall_mem_cons] at nonzero
  rw [isThird_five, Option.some_inj] at thirded
  split_ifs at thirded with low middle high
  · exact absurd thirded nonzero.2.1
  · exact absurd thirded nonzero.2.2.1
  · exact absurd thirded nonzero.2.2.2.1
  · exact ⟨low, middle, high⟩

/-- One pair among four descending values of which no three are equal. -/
private theorem onePair_four (ab : getCardLogicValue b ≤ getCardLogicValue a)
    (bc : getCardLogicValue c ≤ getCardLogicValue b) (cd : getCardLogicValue d ≤ getCardLogicValue c)
    (noThree : ¬(getCardLogicValue b = getCardLogicValue a ∧ getCardLogicValue c = getCardLogicValue b)
      ∧ ¬(getCardLogicValue c = getCardLogicValue b ∧ getCardLogicValue d = getCardLogicValue c))
    (noPairs : ¬(getCardLogicValue b = getCardLogicValue a ∧ getCardLogicValue c ≠ getCardLogicValue b
      ∧ getCardLogicValue d = getCardLogicValue c))
    (pair : getCardLogicValue b = getCardLogicValue a ∨ getCardLogicValue c = getCardLogicValue b
      ∨ getCardLogicValue d = getCardLogicValue c) : OnePair [a, b, c, d] := by
  rcases pair with first | second | third
  · refine ⟨[], a, b, [c, d], rfl, first, ?_⟩
    simp
    omega
  · refine ⟨[a], b, c, [d], rfl, second, ?_⟩
    simp
    omega
  · refine ⟨[a, b], c, d, [], rfl, third, ?_⟩
    simp
    omega

private theorem onePair_five (ab : getCardLogicValue b ≤ getCardLogicValue a)
    (bc : getCardLogicValue c ≤ getCardLogicValue b) (cd : getCardLogicValue d ≤ getCardLogicValue c)
    (de : getCardLogicValue e ≤ getCardLogicValue d)
    (noThree : ¬(getCardLogicValue b = getCardLogicValue a ∧ getCardLogicValue c = getCardLogicValue b)
      ∧ ¬(getCardLogicValue c = getCardLogicValue b ∧ getCardLogicValue d = getCardLogicValue c)
      ∧ ¬(getCardLogicValue d = getCardLogicValue c ∧ getCardLogicValue e = getCardLogicValue d))
    (noPairs : ¬(getCardLogicValue b = getCardLogicValue a ∧ getCardLogicValue c ≠ getCardLogicValue b
        ∧ (getCardLogicValue d = getCardLogicValue c ∨ getCardLogicValue e = getCardLogicValue d)
      ∨ getCardLogicValue b ≠ getCardLogicValue a ∧ getCardLogicValue c = getCardLogicValue b
        ∧ getCardLogicValue d ≠ getCardLogicValue c ∧ getCardLogicValue e = getCardLogicValue d))
    (pair : getCardLogicValue b = getCardLogicValue a ∨ getCardLogicValue c = getCardLogicValue b
      ∨ getCardLogicValue d = getCardLogicValue c ∨ getCardLogicValue e = getCardLogicValue d) :
    OnePair [a, b, c, d, e] := by
  rcases pair with first | second | third | fourth
  · refine ⟨[], a, b, [c, d, e], rfl, first, ?_⟩
    simp
    omega
  · refine ⟨[a], b, c, [d, e], rfl, second, ?_⟩
    simp
    omega
  · refine ⟨[a, b], c, d, [e], rfl, third, ?_⟩
    simp
    omega
  · refine ⟨[a, b, c], d, e, [], rfl, fourth, ?_⟩
    simp
    omega

theorem Sorted.shape_four (sorted : Sorted 4 [a, b, c, d]) :
    ∃ type, typeOfSorted [a, b, c, d] 4 = some type ∧ Shape type [a, b, c, d] := by
  obtain ⟨four, foured, -, -⟩ := sorted.repeated_spec (show 2 ≤ 4 by omega) (by omega)
  obtain ⟨third, thirded, -, -⟩ := sorted.repeated_spec (show 2 ≤ 3 by omega) (by omega)
  obtain ⟨double, doubled, -, -⟩ := sorted.repeated_spec (Nat.le_refl 2) (by omega)
  have nonzero := sorted.nonzero
  have descending := sorted.descending
  have flower := isSameFlower_eq sorted.length
  have paired := isTwoDouble_four nonzero
  refine ⟨_, typeOfSorted_four flower isLink_four foured thirded paired doubled, ?_⟩
  obtain ⟨four', foured', noFour, -⟩ := sorted.repeated_spec (show 2 ≤ 4 by omega) (by omega)
  obtain rfl : four' = four := Option.some.inj (foured'.symm.trans foured)
  simp only [List.map_cons, List.map_nil, List.pairwise_cons, List.forall_mem_cons] at descending nonzero
  split_ifs with straightFlush quadruple suited straight triple pairs pair
  · have straight := of_decide_eq_true (Bool.and_eq_true_iff.mp straightFlush).2
    exact .four straight.1 straight.2.1 straight.2.2
  · exact ⟨four', sorted.most (by omega) (by omega) (by omega) foured quadruple sorted.count_le_four⟩
  · exact sorted.nodup_of_flower suited
  · have straight := of_decide_eq_true straight
    exact .four straight.1 straight.2.1 straight.2.2
  · have bound (rank : ℕ) : ([a, b, c, d].map getCardLogicValue).count rank ≤ 3 :=
      Nat.le_of_lt_succ (noFour (not_not.mp quadruple) rank)
    exact ⟨third, sorted.most (by omega) (by omega) (by omega) thirded triple bound⟩
  · obtain ⟨first, different, second⟩ := of_decide_eq_true pairs
    exact .four first (by omega) second
  · obtain rfl := not_not.mp triple
    rw [decide_eq_true_eq] at pairs
    obtain ⟨⟨ab, -⟩, ⟨bc, -⟩, ⟨cd, -⟩, -⟩ := descending
    apply onePair_four ab bc cd (noThree_four sorted.nonzero thirded) pairs
    by_contra different
    apply sorted.not_nodup_of_isDouble (by omega) doubled pair
    simp
    omega
  · obtain rfl := not_not.mp pair
    exact sorted.nodup_of_isDouble (by omega) doubled

theorem Sorted.shape_five (sorted : Sorted 5 [a, b, c, d, e]) :
    ∃ type, typeOfSorted [a, b, c, d, e] 5 = some type ∧ Shape type [a, b, c, d, e] := by
  obtain ⟨four, foured, noFour, -⟩ := sorted.repeated_spec (show 2 ≤ 4 by omega) (by omega)
  obtain ⟨third, thirded, noThird, -⟩ := sorted.repeated_spec (show 2 ≤ 3 by omega) (by omega)
  obtain ⟨double, doubled, -, -⟩ := sorted.repeated_spec (Nat.le_refl 2) (by omega)
  have nonzero := sorted.nonzero
  have descending := sorted.descending
  have flower := isSameFlower_eq sorted.length
  have paired := isTwoDouble_five nonzero
  have full := isCalabash_five nonzero
  refine ⟨_, typeOfSorted_five flower isLink_five foured full thirded paired doubled, ?_⟩
  simp only [List.map_cons, List.map_nil, List.pairwise_cons, List.forall_mem_cons] at descending
  obtain ⟨⟨ab, -⟩, ⟨bc, -⟩, ⟨cd, -⟩, ⟨de, -⟩, -⟩ := descending
  have three (noQuadruple : four = 0) (triple : third ≠ 0) : ∃ found, Most 3 [a, b, c, d, e] found := by
    have bound (rank : ℕ) : ([a, b, c, d, e].map getCardLogicValue).count rank ≤ 3 :=
      Nat.le_of_lt_succ (noFour noQuadruple rank)
    exact ⟨third, sorted.most (by omega) (by omega) (by omega) thirded triple bound⟩
  split_ifs with straightFlush ten quadruple suited house straight triple pairs pair
  · obtain ⟨third, fourth, fifth, second⟩ := of_decide_eq_true (Bool.and_eq_true_iff.mp straightFlush).2
    exact .five third fourth fifth second
  · obtain ⟨third, fourth, fifth, second⟩ := of_decide_eq_true (Bool.and_eq_true_iff.mp straightFlush).2
    exact .five third fourth fifth second
  · exact ⟨four, sorted.most (by omega) (by omega) (by omega) foured quadruple sorted.count_le_four⟩
  · exact sorted.nodup_of_flower suited
  · apply three (not_not.mp quadruple)
    rintro rfl
    have noThree := noThree_five nonzero thirded
    have house := of_decide_eq_true house
    omega
  · obtain ⟨third, fourth, fifth, second⟩ := of_decide_eq_true straight
    exact .five third fourth fifth second
  · exact three (not_not.mp quadruple) triple
  · obtain rfl := not_not.mp triple
    have noThree := noThree_five nonzero thirded
    rw [decide_eq_true_eq] at pairs house
    rcases pairs with ⟨first, different, second | second⟩ | ⟨different, first, other, second⟩
    · exact .last first (by omega) second (by omega)
    · exact .middle first (by omega) (by omega) second
    · exact .first (by omega) first (by omega) second
  · obtain rfl := not_not.mp triple
    rw [decide_eq_true_eq] at pairs
    apply onePair_five ab bc cd de (noThree_five nonzero thirded) pairs
    by_contra different
    apply sorted.not_nodup_of_isDouble (by omega) doubled pair
    simp
    omega
  · obtain rfl := not_not.mp pair
    exact sorted.nodup_of_isDouble (by omega) doubled

/-- Every sorted hand has a type, and looks as its type says. -/
theorem Sorted.shape (sorted : Sorted n h) (positive : 1 ≤ n) (few : n ≤ 5) :
    ∃ type, typeOfSorted h n = some type ∧ Shape type h := by
  have length := sorted.length
  rcases (show n = 1 ∨ n = 2 ∨ n = 3 ∨ n = 4 ∨ n = 5 by omega) with rfl | rfl | rfl | rfl | rfl
  · obtain ⟨a, rfl⟩ := List.length_eq_one_iff.mp length
    exact ⟨.single, rfl, List.nodup_singleton _⟩
  · obtain ⟨a, b, rfl⟩ := List.length_eq_two.mp length
    exact sorted.shape_two
  · obtain ⟨a, b, c, rfl⟩ := List.length_eq_three.mp length
    exact sorted.shape_three
  · obtain ⟨a, b, c, d, rfl⟩ := List.length_eq_four.mp length
    exact sorted.shape_four
  · obtain ⟨a, b, c, d, e, rfl⟩ : ∃ a b c d e, h = [a, b, c, d, e] := by
      match h, length with
      | [a, b, c, d, e], _ => exact ⟨a, b, c, d, e, rfl⟩
    exact sorted.shape_five

end H5Server.Gswz
