import H5Server.Ddz.GameLogic
import H5Server.Lib.Blocks
import Mathlib.Data.List.GetD
import Mathlib.Data.List.Range
import Mathlib.Tactic.IntervalCases

/-! # Order of the cards of a play

The type is read off the blocks of cards of one value that stand together. Put apart, the cards of most plays are no
play.
-/

namespace H5Server.Ddz

open Lib

/-- How many of the cards have a value. -/
def valueCount (cards : List ℕ) (value : ℕ) : ℕ := (cards.map getCardLogicValue).count value

/-- Four of one value with two cards, or with two pairs. -/
def FourWings (cards : List ℕ) : Prop :=
  ∃ value, valueCount cards value = 4
    ∧ (cards.length = 6 ∨ cards.length = 8 ∧ ∀ other, Even (valueCount cards other))

/-- Three of each of some values in a line, alone, with as many cards, or with as many pairs. -/
def Plane (cards : List ℕ) : Prop :=
  ∃ low k, 0 < k ∧ (k = 1 ∨ low + k ≤ 15) ∧ (∀ i < k, 3 ≤ valueCount cards (low + i))
    ∧ (cards.length = 3 * k ∨ cards.length = 4 * k ∨ cards.length = 5 * k
      ∧ (∀ i < k, valueCount cards (low + i) = 3) ∧ ∀ value, value < low ∨ low + k ≤ value → Even (valueCount cards value))

/-- Equally many of each of some values in a line, and nothing else. -/
def Line (size least : ℕ) (cards : List ℕ) : Prop :=
  ∃ low k, least ≤ k ∧ low + k ≤ 15 ∧ cards.length = size * k ∧ ∀ i < k, valueCount cards (low + i) = size

/-- Two values, of which some order is a play. -/
def Breakable (cards : List ℕ) : Prop :=
  (∃ card ∈ cards, ∃ card' ∈ cards, getCardLogicValue card < getCardLogicValue card')
    ∧ (FourWings cards ∨ Plane cards ∨ Line 2 3 cards ∨ Line 1 5 cards)

/-! ## Types by blocks -/

/-- Every value is one below the value before, and none is above an ace; no value reads as that of an empty card. -/
def falls (values : List ℕ) : Bool :=
  values.headD 13 < 15 && (List.range values.length).all fun i => values.headD 13 == values.getD i 13 + i

/-- The values of the blocks of a size. -/
def valuesOf (runs : List (ℕ × ℕ)) (size : ℕ) : List ℕ := (runs.filter (·.2 = size)).map (·.1)

/-- The blocks of three cards and more that are a play. -/
def Accepts (count : ℕ) (runs : List (ℕ × ℕ)) : Prop :=
  ((valuesOf runs 4).length = 1 ∧ (count = 4 ∨ count = 6 ∨ count = 8 ∧ (valuesOf runs 2).length = 2))
    ∨ (valuesOf runs 4).length = 0 ∧ 0 < (valuesOf runs 3).length
      ∧ ((valuesOf runs 3).length = 1 ∨ falls (valuesOf runs 3) = true)
      ∧ ((valuesOf runs 3).length * 3 = count ∨ (valuesOf runs 3).length * 4 = count
        ∨ (valuesOf runs 3).length * 5 = count ∧ (valuesOf runs 2).length = (valuesOf runs 3).length)
    ∨ (valuesOf runs 4).length = 0 ∧ (valuesOf runs 3).length = 0
      ∧ (3 ≤ (valuesOf runs 2).length ∧ falls (valuesOf runs 2) = true ∧ (valuesOf runs 2).length * 2 = count
        ∨ (valuesOf runs 2).length < 3 ∧ 5 ≤ (valuesOf runs 1).length ∧ (valuesOf runs 1).length = count
          ∧ falls (valuesOf runs 1) = true)

section Blocks

variable {cards : List ℕ} {runs : List (ℕ × ℕ)}

/-- The blocks of the cards, by value and size. -/
structure Blocks (cards : List ℕ) (runs : List (ℕ × ℕ)) : Prop extends Proper runs where
  word : expand runs = cards.map getCardLogicValue
  small : ∀ run ∈ runs, run.2 ≤ 4

theorem Blocks.sameBlocks_map (blocks : Blocks cards runs) :
    (sameBlocks cards).map (fun block => (blockValue block, block.length)) = runs := by
  have cut := splitBy_key blocks.toProper blocks.word
  have read : (fun block : List ℕ => (blockValue block, block.length))
      = (fun values : List ℕ => (values.headD (getCardLogicValue 0), values.length)) ∘ List.map getCardLogicValue := by
    funext block
    cases block <;> simp [blockValue]
  rw [read, ← List.map_map, sameBlocks, cut, List.map_map]
  refine (List.map_congr_left fun run present => ?_).trans (List.map_id runs)
  obtain ⟨size, eq⟩ := Nat.exists_eq_succ_of_ne_zero (blocks.some_ run present).ne'
  rw [Function.comp_apply, eq, List.length_replicate]
  exact Prod.ext rfl eq.symm

theorem Blocks.analysebCardData_map (blocks : Blocks cards runs) (size : ℕ) :
    (analysebCardData cards size).map blockValue = valuesOf runs size := by
  have fits : ((sameBlocks cards).any fun block => decide (4 < block.length)) = false := by
    rw [List.any_eq_false]
    intro block present large
    have inside : (blockValue block, block.length) ∈ runs := by
      rw [← blocks.sameBlocks_map]
      exact List.mem_map_of_mem present
    exact absurd (of_decide_eq_true large) (blocks.small _ inside).not_gt
  rw [analysebCardData, fits, if_neg Bool.false_ne_true, valuesOf, ← blocks.sameBlocks_map, List.filter_map, List.map_map]
  rfl

theorem isLine_eq (blocks : List (List ℕ)) : isLine blocks = falls (blocks.map blockValue) := by
  have none_ : blockValue [] = 13 := rfl
  rw [isLine, falls, List.length_map]
  have head : (blocks.map blockValue).headD 13 = blockValue (blocks.headD []) := by cases blocks <;> rfl
  have get (i : ℕ) : (blocks.map blockValue).getD i 13 = blockValue (blocks.getD i []) := by
    rw [← none_, List.getD_map]
  simp only [head, get]

theorem ite_ne_error {p : Prop} [Decidable p] {kind : CardType} (rest : CardType) (named : kind ≠ .error) :
    (if p then kind else rest) ≠ .error ↔ p ∨ rest ≠ .error := by
  by_cases holds : p
  · rw [if_pos holds]
    exact ⟨fun _ => .inl holds, fun _ => named⟩
  · rw [if_neg holds, or_iff_right holds]

theorem error_ite_ne_error {p : Prop} [Decidable p] (rest : CardType) :
    (if p then CardType.error else rest) ≠ .error ↔ ¬p ∧ rest ≠ .error := by
  by_cases holds : p
  · rw [if_pos holds]
    exact ⟨fun differ => absurd rfl differ, fun both => absurd holds both.1⟩
  · rw [if_neg holds, and_iff_right holds]

/-- From three cards on, the type is read off the blocks. -/
theorem Blocks.accepts_iff (blocks : Blocks cards runs) (many : 3 ≤ cards.length) :
    getCardType cards ≠ .error ↔ Accepts cards.length runs := by
  have count (size : ℕ) : (analysebCardData cards size).length = (valuesOf runs size).length := by
    rw [← blocks.analysebCardData_map, List.length_map]
  have line (size : ℕ) : isLine (analysebCardData cards size) = falls (valuesOf runs size) := by
    rw [isLine_eq, blocks.analysebCardData_map]
  have refused : ¬CardType.error ≠ .error := fun differ => differ rfl
  rw [getCardType, Accepts]
  simp only [count, line]
  rw [if_neg (by omega), if_neg (by omega), if_neg (by omega)]
  generalize (valuesOf runs 4).length = four
  generalize (valuesOf runs 3).length = three
  generalize (valuesOf runs 2).length = two
  generalize (valuesOf runs 1).length = one
  generalize falls (valuesOf runs 3) = line₃
  generalize falls (valuesOf runs 2) = line₂
  generalize falls (valuesOf runs 1) = line₁
  generalize cards.length = all at many
  rcases four.eq_zero_or_pos with rfl | some_
  · rw [if_neg (Nat.lt_irrefl 0)]
    simp only [Nat.zero_ne_one, false_and, true_and, false_or]
    rcases three.eq_zero_or_pos with rfl | some_
    · rw [if_neg (Nat.lt_irrefl 0)]
      simp only [Nat.lt_irrefl, false_and, true_and, false_or]
      by_cases pairs : 3 ≤ two
      · rw [if_pos pairs, error_ite_ne_error, ite_ne_error _ (by decide)]
        simp only [refused, or_false, not_not, pairs, true_and, Nat.not_lt.mpr pairs, false_and]
      · rw [if_neg pairs]
        simp only [pairs, false_and, false_or, Nat.lt_of_not_le pairs, true_and]
        by_cases singles : 5 ≤ one ∧ one = all
        · rw [if_pos singles, ite_ne_error _ (by decide)]
          obtain ⟨long, rfl⟩ := singles
          simp only [refused, or_false, long, true_and]
        · rw [if_neg singles]
          simp only [refused, false_iff]
          exact fun accepted => singles ⟨accepted.1, accepted.2.1⟩
    · have some' : three ≠ 0 := some_.ne'
      rw [if_pos some_, error_ite_ne_error]
      simp only [ite_ne_error _ (show CardType.three ≠ .error by decide),
        ite_ne_error _ (show CardType.threeLine ≠ .error by decide),
        ite_ne_error _ (show CardType.threeTakeOne ≠ .error by decide),
        ite_ne_error _ (show CardType.threeTakeTwo ≠ .error by decide), refused, or_false, some_, some', true_and,
        false_and]
      refine and_congr ?_ ?_
      · rw [not_and_or, not_not, Nat.not_lt]
        exact or_congr_left ⟨fun few => le_antisymm few some_, Nat.le_of_eq⟩
      · refine ⟨Or.rec (fun alone => .inl ?_) id, .inr⟩
        rw [alone.1, alone.2]
  · have some' : four ≠ 0 := some_.ne'
    rw [if_pos some_]
    simp only [ite_ne_error _ (show CardType.bombCard ≠ .error by decide),
      ite_ne_error _ (show CardType.fourTakeOne ≠ .error by decide),
      ite_ne_error _ (show CardType.fourTakeTwo ≠ .error by decide), refused, or_false, some', false_and, and_or_left]

/-! ## Counts -/

theorem valuesOf_cons (run : ℕ × ℕ) (runs : List (ℕ × ℕ)) (size : ℕ) :
    valuesOf (run :: runs) size = if run.2 = size then run.1 :: valuesOf runs size else valuesOf runs size := by
  rw [valuesOf, List.filter_cons]
  split
  next same =>
    rw [if_pos (of_decide_eq_true same)]
    rfl
  next other =>
    rw [if_neg (by simpa using other)]
    rfl

theorem valuesOf_append (runs runs' : List (ℕ × ℕ)) (size : ℕ) :
    valuesOf (runs ++ runs') size = valuesOf runs size ++ valuesOf runs' size := by
  rw [valuesOf, List.filter_append, List.map_append]
  rfl

theorem valuesOf_eq_nil {size : ℕ} (none_ : ∀ run ∈ runs, run.2 ≠ size) : valuesOf runs size = [] := by
  rw [valuesOf, List.filter_eq_nil_iff.mpr fun run there => by simpa using none_ run there]
  rfl

/-- How many cards of a value there are in the blocks of each size. -/
theorem count_by_size (some_ : ∀ run ∈ runs, 0 < run.2) (small : ∀ run ∈ runs, run.2 ≤ 4) (value : ℕ) :
    (expand runs).count value = (valuesOf runs 1).count value + 2 * (valuesOf runs 2).count value
      + 3 * (valuesOf runs 3).count value + 4 * (valuesOf runs 4).count value := by
  induction runs with
  | nil => rfl
  | cons run runs ih =>
    obtain ⟨positive, some_⟩ := List.forall_mem_cons.mp some_
    obtain ⟨four, small⟩ := List.forall_mem_cons.mp small
    rw [expand_cons, List.count_append, List.count_replicate, ih some_ small]
    simp only [valuesOf_cons]
    obtain ⟨v, size⟩ := run
    dsimp only at positive four ⊢
    rcases eq_or_ne v value with rfl | other
    · interval_cases size <;> simp <;> omega
    · interval_cases size <;> simp [other, List.count_cons_of_ne]

theorem length_by_size (some_ : ∀ run ∈ runs, 0 < run.2) (small : ∀ run ∈ runs, run.2 ≤ 4) :
    (expand runs).length = (valuesOf runs 1).length + 2 * (valuesOf runs 2).length + 3 * (valuesOf runs 3).length
      + 4 * (valuesOf runs 4).length := by
  induction runs with
  | nil => rfl
  | cons run runs ih =>
    obtain ⟨positive, some_⟩ := List.forall_mem_cons.mp some_
    obtain ⟨four, small⟩ := List.forall_mem_cons.mp small
    rw [expand_cons, List.length_append, List.length_replicate, ih some_ small]
    simp only [valuesOf_cons]
    obtain ⟨v, size⟩ := run
    dsimp only at positive four ⊢
    interval_cases size <;> simp <;> omega

theorem Blocks.valueCount_eq (blocks : Blocks cards runs) (value : ℕ) :
    valueCount cards value = (valuesOf runs 1).count value + 2 * (valuesOf runs 2).count value
      + 3 * (valuesOf runs 3).count value + 4 * (valuesOf runs 4).count value := by
  rw [valueCount, ← blocks.word, count_by_size blocks.some_ blocks.small]

theorem Blocks.length_eq (blocks : Blocks cards runs) :
    cards.length = (valuesOf runs 1).length + 2 * (valuesOf runs 2).length + 3 * (valuesOf runs 3).length
      + 4 * (valuesOf runs 4).length := by
  rw [← length_by_size blocks.some_ blocks.small, blocks.word, List.length_map]

/-! ## Lines -/

/-- `k` values from the top down to `low`. -/
def downTo (low k : ℕ) : List ℕ := (List.range' low k).reverse

theorem length_downTo (low k : ℕ) : (downTo low k).length = k := by
  rw [downTo, List.length_reverse, List.length_range']

theorem getElem_downTo {low k i : ℕ} (within : i < (downTo low k).length) :
    (downTo low k)[i] = low + k - 1 - i := by
  rw [length_downTo] at within
  simp only [downTo, List.getElem_reverse, List.getElem_range', List.length_range']
  omega

theorem count_downTo (low k value : ℕ) :
    (downTo low k).count value = if low ≤ value ∧ value < low + k then 1 else 0 := by
  rw [downTo, List.count_reverse, List.Nodup.count List.nodup_range', if_congr List.mem_range'_1 rfl rfl]

theorem pairwise_downTo (low k : ℕ) : (downTo low k).Pairwise (· > ·) :=
  List.pairwise_reverse.mpr (List.pairwise_lt_range')

theorem falls_iff {values : List ℕ} (some_ : values ≠ []) :
    falls values = true ↔ ∃ low, low + values.length ≤ 15 ∧ values = downTo low values.length := by
  obtain ⟨first, rest, rfl⟩ := List.exists_cons_of_ne_nil some_
  rw [falls, Bool.and_eq_true, decide_eq_true_eq, List.all_eq_true]
  constructor
  · rintro ⟨top, steps⟩
    have step (i : ℕ) (within : i < (first :: rest).length) : first = (first :: rest)[i] + i := by
      have := steps i (List.mem_range.mpr within)
      rwa [beq_iff_eq, List.getD_eq_getElem _ _ within] at this
    have last := step rest.length (Nat.lt_succ_self _)
    rw [List.length_cons]
    refine ⟨first - rest.length, by dsimp only [List.headD_cons] at top; omega, ?_⟩
    refine List.ext_getElem (by rw [length_downTo, List.length_cons]) fun i within within' => ?_
    rw [getElem_downTo]
    have := step i within
    omega
  · rintro ⟨low, top, eq⟩
    have get (i : ℕ) (within : i < (first :: rest).length) :
        (first :: rest).getD i 13 = low + (rest.length + 1) - 1 - i := by
      rw [List.getD_eq_getElem _ _ within, List.getElem_of_eq eq within, getElem_downTo, List.length_cons]
    have head := get 0 (Nat.succ_pos _)
    rw [List.getD_cons_zero] at head
    rw [List.length_cons] at top
    refine ⟨by rw [List.headD_cons]; omega, fun i within => ?_⟩
    rw [List.mem_range] at within
    rw [beq_iff_eq, List.headD_cons, get i within]
    rw [List.length_cons] at within
    omega

/-! ## Plays by counts -/

/-- There are not two values. -/
theorem no_two_values {value : ℕ} (all : valueCount cards value = cards.length) :
    ¬∃ card ∈ cards, ∃ card' ∈ cards, getCardLogicValue card < getCardLogicValue card' := by
  rintro ⟨card, there, card', there', less⟩
  have length : (cards.map getCardLogicValue).length = cards.length := List.length_map _
  rw [valueCount, ← length, List.count_eq_length] at all
  rw [← all _ (List.mem_map_of_mem there), ← all _ (List.mem_map_of_mem there')] at less
  exact absurd less (Nat.lt_irrefl _)

theorem mem_valuesOf_count {size value : ℕ} (blocks : Blocks cards runs) (present : value ∈ valuesOf runs size) :
    size ≤ valueCount cards value := by
  obtain ⟨run, there, rfl⟩ := List.mem_map.mp present
  obtain ⟨there, same⟩ := List.mem_filter.mp there
  rw [← of_decide_eq_true same, valueCount, ← blocks.word]
  exact le_count_expand there

theorem count_eq_zero_of_length {l : List ℕ} (none_ : l.length = 0) (value : ℕ) : l.count value = 0 := by
  rw [List.eq_nil_of_length_eq_zero none_]
  rfl

/-- What is accepted has the counts of a play, or is four of one value. -/
theorem Blocks.playable (blocks : Blocks cards runs) (four : ∀ value, valueCount cards value ≤ 4)
    (accepts : Accepts cards.length runs)
    (two : ∃ card ∈ cards, ∃ card' ∈ cards, getCardLogicValue card < getCardLogicValue card') :
    FourWings cards ∨ Plane cards ∨ Line 2 3 cards ∨ Line 1 5 cards := by
  have length := blocks.length_eq
  have counts := blocks.valueCount_eq
  rcases accepts with ⟨one, sizes⟩ | ⟨none₄, some_, line, sizes⟩ | ⟨none₄, none₃, ⟨many, line, size⟩ | ⟨few, many, size, line⟩⟩
  · obtain ⟨value, eq⟩ := List.length_eq_one_iff.mp one
    have full : valueCount cards value = 4 :=
      Nat.le_antisymm (four value) (mem_valuesOf_count blocks (eq ▸ List.mem_singleton_self value))
    rcases sizes with alone | six | ⟨eight, pairs⟩
    · exact absurd two (no_two_values (full.trans alone.symm))
    · exact .inl ⟨value, full, .inl six⟩
    · refine .inl ⟨value, full, .inr ⟨eight, fun other => ?_⟩⟩
      rw [counts, count_eq_zero_of_length (l := valuesOf runs 1) (by omega),
        count_eq_zero_of_length (l := valuesOf runs 3) (by omega)]
      exact ⟨(valuesOf runs 2).count other + 2 * (valuesOf runs 4).count other, by omega⟩
  · -- The blocks of three are a line, which says nothing if there is one.
    have line' : ∃ low, ((valuesOf runs 3).length = 1 ∨ low + (valuesOf runs 3).length ≤ 15)
        ∧ valuesOf runs 3 = downTo low (valuesOf runs 3).length := by
      rcases line with one | falling
      · obtain ⟨value, eq⟩ := List.length_eq_one_iff.mp one
        exact ⟨value, .inl one, by rw [eq]; rfl⟩
      · obtain ⟨low, top, eq⟩ := (falls_iff (List.ne_nil_of_length_pos some_)).mp falling
        exact ⟨low, .inr top, eq⟩
    obtain ⟨low, top, eq⟩ := line'
    generalize (valuesOf runs 3).length = k at *
    have inside (value : ℕ) : (valuesOf runs 3).count value = if low ≤ value ∧ value < low + k then 1 else 0 := by
      rw [eq, count_downTo]
    have three : ∀ i < k, 3 ≤ valueCount cards (low + i) := fun i within => by
      rw [counts, inside, if_pos ⟨Nat.le_add_right _ _, by omega⟩]
      omega
    refine .inr (.inl ⟨low, k, some_, top, three, ?_⟩)
    rcases sizes with alone | singles | ⟨all, pairs⟩
    · exact .inl (by omega)
    · exact .inr (.inl (by omega))
    · refine .inr (.inr ⟨by omega, fun i within => ?_, fun value outside => ?_⟩)
      · have := four (low + i)
        rw [counts, inside, if_pos ⟨Nat.le_add_right _ _, by omega⟩,
          count_eq_zero_of_length (l := valuesOf runs 1) (by omega),
          count_eq_zero_of_length none₄] at this ⊢
        omega
      · rw [counts, inside, if_neg (by omega), count_eq_zero_of_length (l := valuesOf runs 1) (by omega),
          count_eq_zero_of_length none₄]
        exact ⟨(valuesOf runs 2).count value, by omega⟩
  · obtain ⟨low, top, eq⟩ := (falls_iff (List.ne_nil_of_length_pos (by omega))).mp line
    refine .inr (.inr (.inl ⟨low, (valuesOf runs 2).length, many, top, by omega, fun i within => ?_⟩))
    rw [counts, count_eq_zero_of_length none₃, count_eq_zero_of_length none₄,
      count_eq_zero_of_length (l := valuesOf runs 1) (by omega), eq, count_downTo,
      if_pos ⟨Nat.le_add_right _ _, by omega⟩]
  · obtain ⟨low, top, eq⟩ := (falls_iff (List.ne_nil_of_length_pos (by omega))).mp line
    refine .inr (.inr (.inr ⟨low, (valuesOf runs 1).length, many, top, by omega, fun i within => ?_⟩))
    rw [counts, count_eq_zero_of_length none₃, count_eq_zero_of_length none₄,
      count_eq_zero_of_length (l := valuesOf runs 2) (by omega), eq, count_downTo,
      if_pos ⟨Nat.le_add_right _ _, by omega⟩]

/-! ## Orders -/

/-- Whatever blocks rearrange the values come from an order of the cards. -/
theorem exists_order (four : ∀ value, valueCount cards value ≤ 4) (proper : Proper runs)
    (perm : (cards.map getCardLogicValue).Perm (expand runs)) :
    ∃ cards' : List ℕ, cards'.Perm cards ∧ Blocks cards' runs := by
  obtain ⟨cards', perm', word⟩ := exists_perm_of_map perm
  refine ⟨cards', perm', ⟨proper, word.symm, fun run there => ?_⟩⟩
  exact (le_count_expand there).trans ((perm.count_eq run.1).symm.trans_le (four run.1))

theorem exists_blocks (four : ∀ value, valueCount cards value ≤ 4) : ∃ runs, Blocks cards runs := by
  obtain ⟨runs, proper, word⟩ := exists_runs (cards.map getCardLogicValue)
  refine ⟨runs, ⟨proper, word, fun run there => ?_⟩⟩
  have fits := le_count_expand there
  rw [word] at fits
  exact fits.trans (four run.1)

/-- Given blocks can stand in the middle of some order. -/
theorem exists_order_around (middle : List (ℕ × ℕ)) {t b : ℕ} (four : ∀ value, valueCount cards value ≤ 4)
    (proper : Proper middle) (some_ : middle ≠ []) (first : ∀ run ∈ middle.head?, run.1 = t)
    (last : ∀ run ∈ middle.getLast?, run.1 = b)
    (within : ∀ value, (expand middle).count value ≤ valueCount cards value)
    (top : valueCount cards t ≤ (expand middle).count t + 2) (bottom : valueCount cards b ≤ (expand middle).count b + 2)
    (differ : t = b → valueCount cards t = (expand middle).count t) :
    ∃ front back, ∃ cards' : List ℕ, cards'.Perm cards ∧ Blocks cards' (front ++ middle ++ back)
      ∧ ∀ run ∈ front ++ back, run.2 ≤ 2 ∧ (Even (valueCount cards run.1 - (expand middle).count run.1) → run.2 = 2) := by
  have rest_count (value : ℕ) : ((cards.map getCardLogicValue).diff (expand middle)).count value
      = valueCount cards value - (expand middle).count value := List.count_diff ..
  obtain ⟨front, back, proper', perm, sizes⟩ := exists_around ((cards.map getCardLogicValue).diff (expand middle))
    proper some_ first last (fun value => by rw [rest_count]; have := four value; omega) (by rw [rest_count]; omega)
    (by rw [rest_count]; omega) (fun same => by rw [rest_count, differ same]; omega)
  have all : (cards.map getCardLogicValue).Perm (expand (front ++ middle ++ back)) := by
    rw [List.perm_iff_count] at perm ⊢
    intro value
    have := perm value
    rw [List.count_append, rest_count] at this
    rw [expand_append, expand_append, List.count_append, List.count_append]
    have := within value
    rw [valueCount] at *
    omega
  obtain ⟨cards', perm', blocks⟩ := exists_order four proper' all
  refine ⟨front, back, cards', perm', blocks, fun run there => ?_⟩
  rw [← rest_count]
  exact sizes run there

/-- Blocks of one size, down a line. -/
def lineRuns (size low k : ℕ) : List (ℕ × ℕ) := (downTo low k).map fun value => (value, size)

theorem valuesOf_lineRuns (size low k other : ℕ) :
    valuesOf (lineRuns size low k) other = if other = size then downTo low k else [] := by
  rcases eq_or_ne other size with rfl | differ
  · rw [if_pos rfl, valuesOf, lineRuns, List.filter_eq_self.mpr, List.map_map]
    · exact List.map_id _
    · intro run there
      obtain ⟨value, -, rfl⟩ := List.mem_map.mp there
      exact decide_eq_true rfl
  · rw [if_neg differ]
    refine valuesOf_eq_nil fun run there => ?_
    obtain ⟨value, -, rfl⟩ := List.mem_map.mp there
    exact differ.symm

theorem count_lineRuns (size low k value : ℕ) :
    (expand (lineRuns size low k)).count value = if low ≤ value ∧ value < low + k then size else 0 := by
  rw [lineRuns, count_expand_map (pairwise_downTo low k).nodup]
  refine if_congr ?_ rfl rfl
  rw [downTo, List.mem_reverse, List.mem_range'_1]

theorem proper_lineRuns {size : ℕ} (positive : 0 < size) (low k : ℕ) : Proper (lineRuns size low k) := by
  constructor
  · intro run there
    obtain ⟨value, -, rfl⟩ := List.mem_map.mp there
    exact positive
  · rw [lineRuns, List.isChain_map]
    exact (pairwise_downTo low k).isChain.imp fun _ _ less => less.ne'

theorem count_lineRuns_le {size low k : ℕ} (enough : ∀ i < k, size ≤ valueCount cards (low + i)) (value : ℕ) :
    (expand (lineRuns size low k)).count value ≤ valueCount cards value := by
  rw [count_lineRuns]
  split
  next inside =>
    have := enough (value - low) (by omega)
    rwa [Nat.add_sub_cancel' inside.1] at this
  · exact Nat.zero_le _

theorem length_lineRuns (size low k : ℕ) : (expand (lineRuns size low k)).length = size * k := by
  rw [length_expand, lineRuns, List.map_map, Function.comp_def, List.map_const', List.sum_replicate_nat, length_downTo,
    Nat.mul_comm]

/-- A line and nothing else, in order. -/
theorem exists_line {size low k : ℕ} (four : ∀ value, valueCount cards value ≤ 4) (positive : 0 < size)
    (length : cards.length = size * k) (exact_ : ∀ i < k, valueCount cards (low + i) = size) :
    ∃ cards' : List ℕ, cards'.Perm cards ∧ Blocks cards' (lineRuns size low k) := by
  refine exists_order four (proper_lineRuns positive low k) (List.Perm.symm ?_)
  have inside : (expand (lineRuns size low k)).Subperm (cards.map getCardLogicValue) :=
    List.subperm_ext_iff.mpr fun value _ => count_lineRuns_le (fun i within => (exact_ i within).ge) value
  refine inside.perm_of_length_le ?_
  rw [List.length_map, length_lineRuns, length]

theorem falls_downTo {low k : ℕ} (some_ : 0 < k) (top : low + k ≤ 15) : falls (downTo low k) = true := by
  have length := length_downTo low k
  rw [falls_iff (List.ne_nil_of_length_pos (by omega)), length]
  exact ⟨low, top, rfl⟩

/-- Around a line there may be no blocks of some size. -/
theorem valuesOf_around {front back : List (ℕ × ℕ)} {other : ℕ} (size low k : ℕ)
    (outside : ∀ run ∈ front ++ back, run.2 ≠ other) :
    valuesOf (front ++ lineRuns size low k ++ back) other = if other = size then downTo low k else [] := by
  rw [valuesOf_append, valuesOf_append, valuesOf_lineRuns,
    valuesOf_eq_nil fun run there => outside run (List.mem_append_left _ there),
    valuesOf_eq_nil fun run there => outside run (List.mem_append_right _ there), List.append_nil, List.nil_append]

/-- A line of blocks can stand in the middle of some order. -/
theorem exists_line_order (size low k : ℕ) (four : ∀ value, valueCount cards value ≤ 4) (positive : 0 < size)
    (some_ : 0 < k) (enough : ∀ i < k, size ≤ valueCount cards (low + i))
    (most : ∀ i < k, valueCount cards (low + i) ≤ size + 2) (single : k = 1 → valueCount cards low = size) :
    ∃ front back, ∃ cards' : List ℕ, cards'.Perm cards ∧ Blocks cards' (front ++ lineRuns size low k ++ back)
      ∧ ∀ run ∈ front ++ back, run.2 ≤ 2 ∧ (Even (valueCount cards run.1
        - if low ≤ run.1 ∧ run.1 < low + k then size else 0) → run.2 = 2) := by
  have length : (lineRuns size low k).length = k := by rw [lineRuns, List.length_map, length_downTo]
  have get {i : ℕ} (inside : i < (lineRuns size low k).length) : ((lineRuns size low k)[i]).1 = low + k - 1 - i := by
    simp only [lineRuns, List.getElem_map, getElem_downTo]
  have counts {value : ℕ} (inside : low ≤ value ∧ value < low + k) : (expand (lineRuns size low k)).count value = size := by
    rw [count_lineRuns, if_pos inside]
  have first : ∀ run ∈ (lineRuns size low k).head?, run.1 = low + k - 1 := by
    intro run there
    rw [Option.mem_def, List.head?_eq_getElem?] at there
    obtain ⟨inside, rfl⟩ := List.getElem?_eq_some_iff.mp there
    exact get inside
  have bottom : ∀ run ∈ (lineRuns size low k).getLast?, run.1 = low := by
    intro run there
    rw [Option.mem_def, List.getLast?_eq_getElem?] at there
    obtain ⟨inside, rfl⟩ := List.getElem?_eq_some_iff.mp there
    rw [get inside, length]
    omega
  have least := most 0 some_
  have last := most (k - 1) (by omega)
  rw [Nat.add_zero] at least
  rw [show low + (k - 1) = low + k - 1 by omega] at last
  obtain ⟨front, back, cards', perm, blocks, sizes⟩ := exists_order_around (t := low + k - 1) (b := low)
    (lineRuns size low k) four (proper_lineRuns positive low k) (List.ne_nil_of_length_pos (by omega)) first bottom (count_lineRuns_le enough) (by rw [counts (by omega)]; exact last) (by rw [counts (by omega)]; exact least)
    (fun same => by
      rw [counts (by omega), same]
      exact single (by omega))
  refine ⟨front, back, cards', perm, blocks, fun run there => ?_⟩
  rw [← count_lineRuns]
  exact sizes run there

/-- By its counts, a play can be put in an order that is accepted. -/
theorem exists_accepted_order (four : ∀ value, valueCount cards value ≤ 4)
    (two : ∃ card ∈ cards, ∃ card' ∈ cards, getCardLogicValue card < getCardLogicValue card')
    (play : FourWings cards ∨ Plane cards ∨ Line 2 3 cards ∨ Line 1 5 cards) :
    ∃ cards' : List ℕ, cards'.Perm cards ∧ ∃ runs, Blocks cards' runs ∧ Accepts cards'.length runs := by
  rcases play with ⟨value, full, size⟩ | ⟨low, k, some_, top, three, size⟩ | ⟨low, k, many, top, length, exact_⟩
    | ⟨low, k, many, top, length, exact_⟩
  · obtain ⟨front, back, cards', perm, blocks, sizes⟩ := exists_line_order 4 value 1 four (by omega) (by omega)
      (fun i within => by rw [Nat.lt_one_iff.mp within]; exact full.ge) (fun i _ => (four _).trans (by omega)) fun _ => full
    have fours := valuesOf_around 4 value 1 fun run there => (by have := (sizes run there).1; omega : run.2 ≠ 4)
    have threes := valuesOf_around 4 value 1 fun run there => (by have := (sizes run there).1; omega : run.2 ≠ 3)
    refine ⟨cards', perm, _, blocks, .inl ⟨by rw [fours, if_pos rfl, length_downTo], ?_⟩⟩
    rw [perm.length_eq]
    rcases size with six | ⟨eight, even⟩
    · exact .inr (.inl six)
    · have ones := valuesOf_around 4 value 1 fun run there => by
        have two := (sizes run there).2 (by
          obtain ⟨half, eq⟩ := even run.1
          split
          · exact ⟨half - 2, by omega⟩
          · exact ⟨half, eq⟩)
        exact (by omega : run.2 ≠ 1)
      rw [if_neg (by decide)] at ones threes
      have length := blocks.length_eq
      rw [fours, threes, ones, perm.length_eq, if_pos rfl, length_downTo, eight] at length
      refine .inr (.inr ⟨eight, ?_⟩)
      simp only [List.length_nil] at length
      omega
  · have single : k = 1 → valueCount cards low = 3 := by
      rintro rfl
      have least := three 0 Nat.one_pos
      have all : valueCount cards low ≠ cards.length := fun all => no_two_values all two
      have := four low
      have inside : valueCount cards low ≤ cards.length := List.count_le_length.trans (List.length_map _).le
      rw [Nat.add_zero] at least
      rcases size with alone | wings | ⟨-, exact_, -⟩
      · omega
      · omega
      · exact exact_ 0 Nat.one_pos
    obtain ⟨front, back, cards', perm, blocks, sizes⟩ := exists_line_order 3 low k four (by omega) some_ three
      (fun i _ => (four _).trans (by omega)) single
    have fours := valuesOf_around 3 low k fun run there => (by have := (sizes run there).1; omega : run.2 ≠ 4)
    have threes := valuesOf_around 3 low k fun run there => (by have := (sizes run there).1; omega : run.2 ≠ 3)
    rw [if_neg (by decide)] at fours
    rw [if_pos rfl] at threes
    refine ⟨cards', perm, _, blocks, .inr (.inl ⟨?_, ?_, ?_, ?_⟩)⟩
    · rw [fours]
      rfl
    · rw [threes, length_downTo]
      exact some_
    · rw [threes, length_downTo]
      exact top.imp_right (falls_downTo some_)
    · rw [threes, length_downTo, perm.length_eq]
      rcases size with alone | wings | ⟨pairs, exact_, even⟩
      · exact .inl (by omega)
      · exact .inr (.inl (by omega))
      · have ones := valuesOf_around 3 low k fun run there => by
          have two := (sizes run there).2 (by
            split
            next inside =>
              have := exact_ (run.1 - low) (by omega)
              rw [Nat.add_sub_cancel' inside.1] at this
              rw [this]
              exact ⟨0, rfl⟩
            next outside => exact even run.1 (by omega))
          exact (by omega : run.2 ≠ 1)
        rw [if_neg (by decide)] at ones
        have length := blocks.length_eq
        rw [fours, threes, ones, perm.length_eq, length_downTo] at length
        refine .inr (.inr ⟨by omega, ?_⟩)
        simp only [List.length_nil] at length
        omega
  · obtain ⟨cards', perm, blocks⟩ := exists_line four (by omega) length exact_
    refine ⟨cards', perm, _, blocks, .inr (.inr ⟨?_, ?_, .inl ?_⟩)⟩
    · rw [valuesOf_lineRuns]
      rfl
    · rw [valuesOf_lineRuns]
      rfl
    · rw [valuesOf_lineRuns, if_pos rfl, length_downTo, perm.length_eq]
      exact ⟨many, falls_downTo (by omega) top, by omega⟩
  · obtain ⟨cards', perm, blocks⟩ := exists_line four (by omega) length exact_
    refine ⟨cards', perm, _, blocks, .inr (.inr ⟨?_, ?_, .inr ?_⟩)⟩
    · rw [valuesOf_lineRuns]
      rfl
    · rw [valuesOf_lineRuns]
      rfl
    · rw [valuesOf_lineRuns, valuesOf_lineRuns, if_pos rfl, if_neg (by decide), length_downTo, perm.length_eq]
      exact ⟨by decide, many, by omega, falls_downTo (by omega) top⟩

/-! ## Refused orders -/

theorem pairwise_of_falls {values : List ℕ} (falling : falls values = true) : values.Pairwise (· > ·) := by
  rcases eq_or_ne values [] with rfl | some_
  · exact List.Pairwise.nil
  · obtain ⟨low, -, eq⟩ := (falls_iff some_).mp falling
    rw [eq]
    exact pairwise_downTo _ _

/-- If all blocks are of one size, two of them the wrong way round are no line. -/
theorem not_falls {front back : List (ℕ × ℕ)} {t b x y size : ℕ} (less : t < b) (first : x = size) (second : y = size) :
    falls (valuesOf (front ++ [(t, x), (b, y)] ++ back) size) = false := by
  rw [Bool.eq_false_iff]
  intro falling
  have falling := pairwise_of_falls falling
  rw [valuesOf_append, valuesOf_append, valuesOf_cons, if_pos first, valuesOf_cons, if_pos second] at falling
  have both := (List.pairwise_append.mp (List.pairwise_append.mp falling).1).2.1
  exact absurd (List.rel_of_pairwise_cons both List.mem_cons_self) less.not_gt

/-- Two values can stand next to each other the wrong way round, and no three cards of one value together. -/
theorem exists_refused_order (four : ∀ value, valueCount cards value ≤ 4)
    (two : ∃ card ∈ cards, ∃ card' ∈ cards, getCardLogicValue card < getCardLogicValue card') :
    ∃ cards' : List ℕ, cards'.Perm cards ∧ ∃ runs, Blocks cards' runs ∧ ¬Accepts cards'.length runs := by
  obtain ⟨card, there, card', there', less⟩ := two
  have count_pos {card : ℕ} (there : card ∈ cards) : 0 < valueCount cards (getCardLogicValue card) :=
    List.count_pos_iff.mpr (List.mem_map_of_mem there)
  have first_pos := count_pos there
  have second_pos := count_pos there'
  generalize getCardLogicValue card = t at less first_pos
  generalize getCardLogicValue card' = b at less second_pos
  have middle (value : ℕ) : (expand [(t, min (valueCount cards t) 2), (b, min (valueCount cards b) 2)]).count value
      = (if t = value then min (valueCount cards t) 2 else 0) + if b = value then min (valueCount cards b) 2 else 0 := by
    simp [List.count_append, List.count_replicate]
  have first := four t
  have second := four b
  obtain ⟨front, back, cards', perm, blocks, sizes⟩ := exists_order_around (t := t) (b := b)
    [(t, min (valueCount cards t) 2), (b, min (valueCount cards b) 2)] four
    ⟨by simp; omega, by simp; omega⟩ (List.cons_ne_nil _ _) (by simp) (by simp)
    (fun value => by
      rw [middle]
      split <;> split <;> first | omega | (subst_vars; omega))
    (by rw [middle, if_pos rfl, if_neg less.ne']; omega) (by rw [middle, if_neg less.ne, if_pos rfl]; omega)
    (fun same => absurd same less.ne)
  refine ⟨cards', perm, _, blocks, ?_⟩
  have length := blocks.length_eq
  have small (size : ℕ) (large : 2 < size) :
      valuesOf (front ++ [(t, min (valueCount cards t) 2), (b, min (valueCount cards b) 2)] ++ back) size = [] := by
    refine valuesOf_eq_nil fun run inside => ?_
    have fits : run.2 ≤ 2 := by
      rcases List.mem_append.mp inside with inside | behind
      · rcases List.mem_append.mp inside with before | between
        · exact (sizes run (List.mem_append_left _ before)).1
        · rcases List.mem_pair.mp between with rfl | rfl
          · exact min_le_right _ _
          · exact min_le_right _ _
      · exact (sizes run (List.mem_append_right _ behind)).1
    omega
  have threes := small 3 (by omega)
  have fours := small 4 (by omega)
  have first_le : min (valueCount cards t) 2 ≤ 2 := min_le_right _ _
  have second_le : min (valueCount cards b) 2 ≤ 2 := min_le_right _ _
  have first_pos : 0 < min (valueCount cards t) 2 := lt_min first_pos Nat.two_pos
  have second_pos : 0 < min (valueCount cards b) 2 := lt_min second_pos Nat.two_pos
  generalize min (valueCount cards t) 2 = x at *
  generalize min (valueCount cards b) 2 = y at *
  have none_of (size : ℕ) (none_ : (valuesOf (front ++ [(t, x), (b, y)] ++ back) size).length = 0) : x ≠ size ∧ y ≠ size := by
    rw [valuesOf_append, valuesOf_append, valuesOf_cons, valuesOf_cons, List.length_append, List.length_append] at none_
    constructor
    · rintro rfl
      rw [if_pos rfl, List.length_cons] at none_
      omega
    · rintro rfl
      rw [if_pos rfl] at none_
      split at none_ <;> rw [List.length_cons] at none_ <;> omega
  rw [Accepts, fours, threes]
  rw [fours, threes] at length
  rintro (⟨one, -⟩ | ⟨-, some_, -⟩ | ⟨-, -, ⟨-, line, all⟩ | ⟨-, -, all, line⟩⟩)
  · exact absurd one Nat.zero_ne_one
  · exact absurd some_ (Nat.lt_irrefl 0)
  · rw [List.length_nil] at length
    obtain ⟨one, one'⟩ := none_of 1 (by omega)
    rw [not_falls less (by omega) (by omega)] at line
    exact Bool.false_ne_true line
  · rw [List.length_nil] at length
    obtain ⟨two, two'⟩ := none_of 2 (by omega)
    rw [not_falls less (by omega) (by omega)] at line
    exact Bool.false_ne_true line

/-! ## The type of an order -/

/-- From three cards on, the type is that of the values in their order. -/
theorem Blocks.getCardType_eq {cards' : List ℕ} (blocks : Blocks cards runs) (blocks' : Blocks cards' runs)
    (many : 3 ≤ cards.length) : getCardType cards' = getCardType cards := by
  have length : cards'.length = cards.length := by rw [blocks.length_eq, blocks'.length_eq]
  have values (size : ℕ) : (analysebCardData cards' size).map blockValue = (analysebCardData cards size).map blockValue := by
    rw [blocks.analysebCardData_map, blocks'.analysebCardData_map]
  have count (size : ℕ) : (analysebCardData cards' size).length = (analysebCardData cards size).length := by
    simpa using congrArg List.length (values size)
  have line (size : ℕ) : isLine (analysebCardData cards' size) = isLine (analysebCardData cards size) := by
    rw [isLine_eq, isLine_eq, values]
  rw [getCardType, getCardType]
  simp only [count, line, length]
  have zero : ¬cards.length = 0 := by omega
  have one : ¬cards.length = 1 := by omega
  have two : ¬cards.length = 2 := by omega
  rw [if_neg zero, if_neg one, if_neg two, if_neg zero, if_neg one, if_neg two]

/-- No value is held more often than in the deck. -/
theorem valueCount_le_four (nodup : cards.Nodup) (deck : ∀ card ∈ cards, card ∈ cardData) (value : ℕ) :
    valueCount cards value ≤ 4 := by
  have counted (cards : List ℕ) : (cards.map getCardLogicValue).count value
      = cards.countP ((· == value) ∘ getCardLogicValue) := by rw [List.count, List.countP_map]
  rw [valueCount, counted]
  refine ((List.subperm_of_subset nodup deck).countP_le _).trans ?_
  rw [← counted]
  rcases Nat.lt_or_ge value 18 with low | high
  · have all : ∀ v < 18, (cardData.map getCardLogicValue).count v ≤ 4 := by decide
    exact all value low
  · have all : ∀ v ∈ cardData.map getCardLogicValue, v < 18 := by decide
    rw [List.count_eq_zero_of_not_mem fun present => absurd (all value present) high.not_gt]
    exact Nat.zero_le 4

theorem three_le_of_play (play : FourWings cards ∨ Plane cards ∨ Line 2 3 cards ∨ Line 1 5 cards) : 3 ≤ cards.length := by
  rcases play with ⟨_, -, size⟩ | ⟨_, k, some_, -, -, size⟩ | ⟨_, k, many, -, size, -⟩ | ⟨_, k, many, -, size, -⟩
  all_goals omega

theorem getCardType_pair (x y : ℕ) (plain : ¬[x, y].Perm [0x4F, 0x4E]) : getCardType [x, y] = getCardType [y, x] := by
  have forward : ¬(x = 0x4F ∧ y = 0x4E) := by
    rintro ⟨rfl, rfl⟩
    exact plain (.refl _)
  have backward : ¬(y = 0x4F ∧ x = 0x4E) := by
    rintro ⟨rfl, rfl⟩
    exact plain (.swap _ _ _)
  have symm : (getCardLogicValue x = getCardLogicValue y) = (getCardLogicValue y = getCardLogicValue x) :=
    propext eq_comm
  simp [getCardType, forward, backward, symm]

end Blocks

/-- The type depends on the order of the cards if they are both jokers, or if some order of two values is a play. -/
theorem getCardType_perm_iff {cards : List ℕ} (some_ : cards ≠ []) (nodup : cards.Nodup)
    (deck : ∀ card ∈ cards, card ∈ cardData) :
    (∀ cards' : List ℕ, cards'.Perm cards → getCardType cards' = getCardType cards)
      ↔ ¬(cards.Perm [0x4F, 0x4E] ∨ Breakable cards) := by
  have four := valueCount_le_four nodup deck
  constructor
  · rintro same (rocket | ⟨two, play⟩)
    · have forward := same _ rocket.symm
      have backward := same [0x4E, 0x4F] ((List.Perm.swap _ _ _).trans rocket.symm)
      exact absurd (forward.trans backward.symm) (by decide)
    · have many := three_le_of_play play
      obtain ⟨cards₁, perm₁, runs₁, blocks₁, accepts⟩ := exists_accepted_order four two play
      obtain ⟨cards₂, perm₂, runs₂, blocks₂, refuses⟩ := exists_refused_order four two
      have accepted := (blocks₁.accepts_iff (perm₁.length_eq ▸ many)).mpr accepts
      have refused := mt (blocks₂.accepts_iff (perm₂.length_eq ▸ many)).mp refuses
      rw [same _ perm₁] at accepted
      rw [same _ perm₂] at refused
      exact refused accepted
  · intro plain cards' perm
    rw [not_or] at plain
    rcases Nat.lt_or_ge cards.length 3 with few | many
    · match cards, some_, few, perm, plain with
      | [x], _, _, perm, _ => rw [List.perm_singleton.mp perm]
      | [x, y], _, _, perm, plain =>
        obtain ⟨a, b, rfl⟩ := List.length_eq_two.mp perm.length_eq
        rcases List.mem_pair.mp (perm.subset List.mem_cons_self) with rfl | rfl
        · rw [List.perm_singleton.mp perm.cons_inv]
        · rw [List.perm_singleton.mp (perm.trans (.swap _ _ _)).cons_inv]
          exact (getCardType_pair _ _ plain.1).symm
    · obtain ⟨runs, blocks⟩ := exists_blocks four
      by_cases two : ∃ card ∈ cards, ∃ card' ∈ cards, getCardLogicValue card < getCardLogicValue card'
      · have refused {cards' : List ℕ} (perm : cards'.Perm cards) : getCardType cards' = .error := by
          by_contra accepted
          have count : valueCount cards' = valueCount cards := funext fun value => (perm.map _).count_eq value
          obtain ⟨runs, blocks⟩ : ∃ runs, Blocks cards' runs := exists_blocks (count ▸ four)
          have accepts := (blocks.accepts_iff (perm.length_eq ▸ many)).mp accepted
          have two' : ∃ card ∈ cards', ∃ card' ∈ cards', getCardLogicValue card < getCardLogicValue card' := by
            obtain ⟨card, there, card', there', less⟩ := two
            exact ⟨card, perm.mem_iff.mpr there, card', perm.mem_iff.mpr there', less⟩
          have play := blocks.playable (count ▸ four) accepts two'
          simp only [FourWings, Plane, Line, count, perm.length_eq] at play
          exact plain.2 ⟨two, play⟩
        rw [refused perm, refused (.refl _)]
      · -- All cards are of one value, so their values read the same in every order.
        have one {card card' : ℕ} (there : card ∈ cards) (there' : card' ∈ cards) :
            getCardLogicValue card = getCardLogicValue card' := by
          rcases Nat.lt_trichotomy (getCardLogicValue card) (getCardLogicValue card') with less | same | less
          · exact absurd ⟨card, there, card', there', less⟩ two
          · exact same
          · exact absurd ⟨card', there', card, there, less⟩ two
        obtain ⟨card, there⟩ := List.exists_mem_of_ne_nil _ some_
        have values : cards'.map getCardLogicValue = cards.map getCardLogicValue := by
          have replicate : cards.map getCardLogicValue = List.replicate cards.length (getCardLogicValue card) :=
            List.eq_replicate_iff.mpr ⟨List.length_map _, fun value inside => by
              obtain ⟨card', there', rfl⟩ := List.mem_map.mp inside
              exact one there' there⟩
          have perm' := perm.map getCardLogicValue
          rw [replicate] at perm' ⊢
          exact List.perm_replicate.mp perm'
        exact blocks.getCardType_eq ⟨blocks.toProper, blocks.word.trans values.symm, blocks.small⟩ many

/-- Three of one value, in another order. -/
theorem getCardType_perm_iff_three : getCardType [0x23, 0x03, 0x13] = getCardType [0x03, 0x13, 0x23] :=
  (getCardType_perm_iff (by decide) (by decide) (by decide)).mpr (by
    rintro (rocket | ⟨two, -⟩)
    · exact absurd rocket.length_eq (by decide)
    · exact absurd two (by decide)) [0x23, 0x03, 0x13] (by decide)

/-- Two fours are no play, but with the pairs of one around the other they are taken for four with two pairs. -/
theorem pairs_around_four :
    getCardType [0x05, 0x15, 0x04, 0x14, 0x24, 0x34, 0x25, 0x35] = .fourTakeTwo
      ∧ getCardType (sortCardList [0x05, 0x15, 0x04, 0x14, 0x24, 0x34, 0x25, 0x35]) = .error
      ∧ (sortCardList [0x05, 0x15, 0x04, 0x14, 0x24, 0x34, 0x25, 0x35]).Perm
        [0x05, 0x15, 0x04, 0x14, 0x24, 0x34, 0x25, 0x35] :=
  ⟨by decide, by decide, List.perm_insertionSort _ _⟩

end H5Server.Ddz
