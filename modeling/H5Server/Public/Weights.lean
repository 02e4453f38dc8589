import H5Server.Lib.WeightedChoice
import Mathlib.Algebra.Order.BigOperators.Group.List
import Mathlib.Algebra.Order.Group.Int
import Mathlib.Algebra.Ring.Int.Defs
import Mathlib.Data.List.Enum
import Mathlib.Data.List.GetD
import Mathlib.Data.List.Zip

/-! # Weighted choice (`weights.cpp`)

A pool keeps the weights and, in a second array, the index that each had at first. Shuffling swaps both arrays at the
same places.
-/

namespace H5Server.Public

open Lib

/-- `MAX_WEIGHT`. -/
def maxWeight : Nat := 10

/-- The loop of `GetResultByWeight`, with nothing returned behind the last weight. -/
def weightLoop : Int → List Int → Option Nat
  | _, [] => none
  | c, weight :: weights => if c - weight ≤ 0 then some 0 else (weightLoop (c - weight) weights).map (· + 1)

/-- `GetResultByWeight` with the draw `r`, which is only made for a sum above one. -/
def getResultByWeight (weights : List Int) (r : Int) : Option Nat :=
  if weights.sum ≤ 1 then some 0 else weightLoop r weights

/-- `CWeight`: the first `count_` entries of its arrays. -/
structure CWeight where
  weights : List Int := []
  indexID : List Nat := []
deriving DecidableEq, Repr

namespace CWeight

def count (pool : CWeight) : Nat := pool.weights.length

/-- `init`: too many weights are refused. -/
def init (pool : CWeight) (weight : List Int) : CWeight :=
  if maxWeight < weight.length then pool else ⟨weight, List.range weight.length⟩

/-- `std::swap` of two entries of an array. -/
def swapAt {α : Type} (items : List α) (i j : Nat) : List α :=
  match items[i]?, items[j]? with
  | some a, some b => (items.set i b).set j a
  | _, _ => items

def swap (pool : CWeight) (i j : Nat) : CWeight :=
  if i ≠ j then ⟨swapAt pool.weights i j, swapAt pool.indexID i j⟩ else pool

/-- `shuffleSeq` with the numbers drawn in each round for each entry. -/
def shuffleSeq (pool : CWeight) (draws : List (Nat → Nat)) : CWeight :=
  draws.foldl (fun pool draw =>
    (List.range pool.count).foldl (fun pool i => pool.swap i (draw i % pool.count)) pool) pool

/-- `CWeight::getResultByWeight`; the arrays hold zeros at first. -/
def getResultByWeight (pool : CWeight) (r : Int) : Option Nat :=
  (Public.getResultByWeight pool.weights r).map fun i => pool.indexID.getD i 0

/-! ## Shuffling -/

/-- The weights with their indices. -/
def entries (pool : CWeight) : List (Int × Nat) := pool.weights.zip pool.indexID

/-- The pool holds these weights in some order, each with its index. -/
structure Holds (pool : CWeight) (weight : List Int) : Prop where
  length_eq : pool.weights.length = pool.indexID.length
  perm : pool.entries.Perm weight.zipIdx

variable {pool : CWeight} {weight : List Int}

theorem zip_set {α β : Type} (items : List α) (others : List β) (n : Nat) (a : α) (b : β) :
    (items.set n a).zip (others.set n b) = (items.zip others).set n (a, b) := by
  induction items generalizing others n with
  | nil => rfl
  | cons x items ih =>
    cases others with
    | nil => rw [List.set_nil, List.zip_nil_right, List.zip_nil_right, List.set_nil]
    | cons y others =>
      cases n with
      | zero => rfl
      | succ n =>
        rw [List.set_cons_succ, List.set_cons_succ, List.zip_cons_cons, List.zip_cons_cons, List.set_cons_succ, ih]

theorem length_swapAt {α : Type} (items : List α) (i j : Nat) : (swapAt items i j).length = items.length := by
  rw [swapAt]
  split
  · rw [List.length_set, List.length_set]
  · rfl

theorem swapAt_eq {α : Type} {items : List α} {i j : Nat} (inside : i < items.length) (inside' : j < items.length) :
    swapAt items i j = (items.set i items[j]).set j items[i] := by
  rw [swapAt, List.getElem?_eq_getElem inside, List.getElem?_eq_getElem inside']

/-- A swap keeps every weight with its index. -/
theorem Holds.swap (holds : Holds pool weight) {i j : Nat} (inside : i < pool.count) (inside' : j < pool.count) :
    Holds (pool.swap i j) weight ∧ (pool.swap i j).count = pool.count := by
  rw [CWeight.swap]
  split_ifs
  · have first : i < pool.indexID.length := holds.length_eq ▸ inside
    have second : j < pool.indexID.length := holds.length_eq ▸ inside'
    refine ⟨⟨?_, ?_⟩, length_swapAt _ _ _⟩
    · rw [length_swapAt, length_swapAt, holds.length_eq]
    · have bound : i < pool.entries.length := by
        rw [entries, List.length_zip]
        exact lt_min inside first
      have bound' : j < pool.entries.length := by
        rw [entries, List.length_zip]
        exact lt_min inside' second
      refine List.Perm.trans ?_ holds.perm
      rw [entries, swapAt_eq inside inside', swapAt_eq first second, zip_set, zip_set]
      have swapped := List.set_set_perm bound bound'
      simp only [entries, List.getElem_zip] at swapped
      exact swapped
  · exact ⟨holds, rfl⟩

theorem Holds.round (holds : Holds pool weight) (draw : Nat → Nat) (places : List Nat)
    (inside : ∀ i ∈ places, i < pool.count) :
    Holds (places.foldl (fun pool i => pool.swap i (draw i % pool.count)) pool) weight := by
  induction places generalizing pool with
  | nil => exact holds
  | cons i places ih =>
    rw [List.foldl_cons]
    have here := inside i List.mem_cons_self
    obtain ⟨kept, same⟩ := holds.swap here (Nat.mod_lt (draw i) (by omega))
    apply ih kept
    intro other present
    rw [same]
    exact inside other (List.mem_cons_of_mem _ present)

theorem Holds.shuffleSeq (holds : Holds pool weight) (draws : List (Nat → Nat)) :
    Holds (pool.shuffleSeq draws) weight := by
  rw [CWeight.shuffleSeq]
  induction draws generalizing pool with
  | nil => exact holds
  | cons draw draws ih =>
    rw [List.foldl_cons]
    exact ih (holds.round draw _ fun i inside => List.mem_range.mp inside)

theorem holds_init (few : weight.length ≤ maxWeight) : Holds (CWeight.init {} weight) weight := by
  rw [CWeight.init, if_neg few.not_gt]
  constructor
  · exact List.length_range.symm
  · rw [entries, List.zipIdx_eq_zip_range']
    rw [List.range_eq_range']

/-! ## Choosing -/

/-- The entries with their weights as natural numbers. -/
def choices (pool : CWeight) : List (ℕ × ℕ) := pool.entries.map fun entry => (entry.1.toNat, entry.2)

theorem weightLoop_eq (weights : List Int) (nonneg : ∀ w ∈ weights, 0 ≤ w) (indexID : List Nat)
    (length_eq : weights.length = indexID.length) {r : Nat} (low : 1 ≤ r) :
    (weightLoop r weights).map (fun i => indexID.getD i 0) =
      pick ((weights.zip indexID).map fun entry => (entry.1.toNat, entry.2)) r := by
  induction weights generalizing indexID r with
  | nil => rfl
  | cons w weights ih =>
    cases indexID with
    | nil => exact absurd length_eq (Nat.succ_ne_zero _)
    | cons index indexID =>
      have here := nonneg w List.mem_cons_self
      rw [weightLoop, List.zip_cons_cons, List.map_cons, pick]
      rcases le_or_gt r w.toNat with within | behind
      · rw [if_pos (by omega), if_pos within]
        rfl
      · rw [if_neg (by omega), if_neg behind.not_ge,
          ← ih (fun other present => nonneg other (List.mem_cons_of_mem _ present)) indexID
            (Nat.succ_injective length_eq) (by omega), Option.map_map,
          show (r : Int) - w = ((r - w.toNat : Nat) : Int) by omega]
        rfl

/-- The entries of a list of weights, each with its index. -/
def indexed (weight : List Int) (n : Nat) : List (ℕ × ℕ) :=
  (weight.zipIdx n).map fun entry => (entry.1.toNat, entry.2)

theorem weightOf_indexed_lt (weight : List Int) {n i : Nat} (before : i < n) : weightOf i (indexed weight n) = 0 := by
  induction weight generalizing n with
  | nil => rfl
  | cons w weight ih =>
    rw [indexed, List.zipIdx_cons, List.map_cons, weightOf_cons, if_neg before.ne']
    exact (Nat.zero_add _).trans (ih (before.trans (Nat.lt_succ_self n)))

theorem weightOf_indexed (weight : List Int) (n i : Nat) :
    weightOf (n + i) (indexed weight n) = (weight.getD i 0).toNat := by
  induction weight generalizing n i with
  | nil => rfl
  | cons w weight ih =>
    rw [indexed, List.zipIdx_cons, List.map_cons, weightOf_cons]
    cases i with
    | zero =>
      rw [Nat.add_zero, if_pos rfl]
      exact congrArg (w.toNat + ·) (weightOf_indexed_lt weight (Nat.lt_succ_self n))
    | succ i =>
      rw [if_neg (by omega), Nat.zero_add, show n + (i + 1) = n + 1 + i by omega]
      exact ih (n + 1) i

theorem totalWeight_indexed {weight : List Int} (nonneg : ∀ w ∈ weight, 0 ≤ w) (n : Nat) :
    (totalWeight (indexed weight n) : Int) = weight.sum := by
  induction weight generalizing n with
  | nil => rfl
  | cons w weight ih =>
    have rest := ih (fun other present => nonneg other (List.mem_cons_of_mem _ present)) (n + 1)
    have here := nonneg w List.mem_cons_self
    have split_ : totalWeight (indexed (w :: weight) n) = w.toNat + totalWeight (indexed weight (n + 1)) := by
      rw [indexed, List.zipIdx_cons]
      rfl
    rw [split_, List.sum_cons, ← rest]
    omega

/-- Every draw returns an index that has weight, and each index is returned by as many draws as its weight. -/
def Faithful (pool : CWeight) (weight : List Int) : Prop :=
  (∀ r : Nat, 1 ≤ r → (r : Int) ≤ weight.sum →
    ∃ i < weight.length, pool.getResultByWeight r = some i ∧ 0 < weight.getD i 0) ∧
  ∀ i < weight.length, ((List.range weight.sum.toNat).countP fun k =>
    pool.getResultByWeight ((k + 1 : Nat) : Int) = some i) = weight.getD i 0

theorem Holds.perm_choices (holds : Holds pool weight) : pool.choices.Perm (indexed weight 0) := holds.perm.map _

theorem Holds.sum_eq (holds : Holds pool weight) : pool.weights.sum = weight.sum := by
  have fsts := (holds.perm.map Prod.fst).sum_eq
  rwa [entries, List.map_fst_zip holds.length_eq.le, List.zipIdx_map_fst] at fsts

theorem Holds.nonneg (holds : Holds pool weight) (nonneg : ∀ w ∈ weight, 0 ≤ w) : ∀ w ∈ pool.weights, 0 ≤ w := by
  intro w present
  rw [← List.map_fst_zip holds.length_eq.le] at present
  obtain ⟨entry, inside, rfl⟩ := List.mem_map.mp present
  exact nonneg _ (List.fst_mem_of_mem_zipIdx (holds.perm.mem_iff.mp inside))

/-- A pool that picks by weight is faithful. -/
theorem Holds.faithful (holds : Holds pool weight) (nonneg : ∀ w ∈ weight, 0 ≤ w)
    (picks : ∀ r : Nat, 1 ≤ r → (r : Int) ≤ weight.sum → pool.getResultByWeight r = pick pool.choices r) :
    Faithful pool weight := by
  have total : (totalWeight pool.choices : Int) = weight.sum := by
    rw [totalWeight_perm holds.perm_choices]
    exact totalWeight_indexed nonneg 0
  constructor
  · intro r low high
    rw [picks r low high]
    obtain ⟨entry, present, some_, picked⟩ := exists_pick pool.choices low (by omega)
    obtain ⟨original, inside, rfl⟩ := List.mem_map.mp (holds.perm_choices.mem_iff.mp present)
    obtain ⟨bound, same⟩ := List.mem_zipIdx' inside
    refine ⟨original.2, bound, picked, ?_⟩
    rw [List.getD_eq_getElem _ _ bound, ← same]
    dsimp only at some_
    omega
  · intro i bound
    have value := nonneg (weight.getD i 0) (by rw [List.getD_eq_getElem _ _ bound]; exact List.getElem_mem bound)
    have count : (List.range weight.sum.toNat).countP (fun k => pool.getResultByWeight ((k + 1 : Nat) : Int) = some i) =
        (List.range (totalWeight pool.choices)).countP fun k => pick pool.choices (k + 1) = some i := by
      rw [show weight.sum.toNat = totalWeight pool.choices by omega]
      apply List.countP_congr
      intro k inside
      rw [picks (k + 1) (by omega) (by have := List.mem_range.mp inside; omega)]
    rw [count, countP_pick, weightOf_perm holds.perm_choices, ← Nat.zero_add i, weightOf_indexed, Nat.zero_add]
    omega

theorem Holds.getResultByWeight_eq_pick (holds : Holds pool weight) (nonneg : ∀ w ∈ weight, 0 ≤ w)
    (several : 1 < weight.sum) {r : Nat} (low : 1 ≤ r) : pool.getResultByWeight r = pick pool.choices r := by
  rw [CWeight.getResultByWeight, Public.getResultByWeight, if_neg (by rw [holds.sum_eq]; omega)]
  exact weightLoop_eq _ (holds.nonneg nonneg) _ holds.length_eq low

/-- With a sum of one the first entry is returned whatever its weight. -/
theorem Holds.single (holds : Holds pool weight) (one : weight.sum = 1) :
    ∃ first behind, pool.entries = first :: behind ∧ first.1 = pool.weights.getD 0 0 ∧
      ∀ r, pool.getResultByWeight r = some first.2 := by
  have length_eq := holds.length_eq
  have result : ∀ r, pool.getResultByWeight r = some (pool.indexID.getD 0 0) := by
    intro r
    rw [CWeight.getResultByWeight, Public.getResultByWeight, if_pos (by rw [holds.sum_eq]; omega)]
    rfl
  have sum_eq := holds.sum_eq
  rw [entries]
  rcases weights : pool.weights with - | ⟨w, weights⟩
  · rw [weights, one] at sum_eq
    exact absurd sum_eq (by decide)
  · rcases ids : pool.indexID with - | ⟨index, indexID⟩
    · rw [weights, ids] at length_eq
      exact absurd length_eq (Nat.succ_ne_zero _)
    · rw [ids] at result
      exact ⟨(w, index), _, rfl, rfl, result⟩

/-- Weights refused by `init` leave a pool that always returns index 0. -/
theorem init_refused (many : maxWeight < weight.length) (draws : List (Nat → Nat)) (r : Int) :
    ((CWeight.init {} weight).shuffleSeq draws).getResultByWeight r = some 0 := by
  have empty : (CWeight.shuffleSeq {} draws) = {} := by
    rw [CWeight.shuffleSeq]
    induction draws with
    | nil => rfl
    | cons draw draws ih =>
      rw [List.foldl_cons]
      exact ih
  rw [CWeight.init, if_pos many, empty]
  rfl

theorem faithful_of_refused {pool : CWeight} (nonneg : ∀ w ∈ weight, 0 ≤ w) (positive : 0 < weight.sum)
    (zero : ∀ r, pool.getResultByWeight r = some 0) : Faithful pool weight ↔ weight.getD 0 0 = weight.sum := by
  rcases weight with - | ⟨w, weight⟩
  · exact absurd positive (by decide)
  constructor
  · rintro ⟨-, counts⟩
    have first := counts 0 (Nat.succ_pos _)
    rw [List.countP_eq_length.mpr (by simp [zero]), List.length_range] at first
    omega
  · intro all
    have rest : weight.sum = 0 := by
      rw [List.getD_cons_zero, List.sum_cons] at all
      omega
    constructor
    · intro r _ _
      exact ⟨0, Nat.succ_pos _, zero r, by rw [all]; exact positive⟩
    · intro i bound
      cases i with
      | zero =>
        rw [List.countP_eq_length.mpr (by simp [zero]), List.length_range, all]
        omega
      | succ i =>
        have inside : i < weight.length := Nat.lt_of_succ_lt_succ bound
        have member : weight[i] ∈ weight := List.getElem_mem inside
        have low := nonneg _ (List.mem_cons_of_mem w member)
        have high := List.single_le_sum (fun x present => nonneg x (List.mem_cons_of_mem w present)) _ member
        rw [List.countP_eq_zero.mpr (by simp [zero]), List.getD_cons_succ, List.getD_eq_getElem _ _ inside]
        omega

/-- The choice is faithful after a shuffle exactly when the pool takes the weights and either they sum up to two or more
or the single unit of weight has been shuffled to the front, or when the pool refuses them and all the weight is first. -/
theorem faithful_iff (nonneg : ∀ w ∈ weight, 0 ≤ w) (positive : 0 < weight.sum) (draws : List (Nat → Nat)) :
    Faithful ((CWeight.init {} weight).shuffleSeq draws) weight ↔
      (weight.length ≤ maxWeight ∧
        (2 ≤ weight.sum ∨ 0 < ((CWeight.init {} weight).shuffleSeq draws).weights.getD 0 0)) ∨
      (maxWeight < weight.length ∧ weight.getD 0 0 = weight.sum) := by
  rcases lt_or_ge maxWeight weight.length with many | few
  · rw [faithful_of_refused nonneg positive (init_refused many draws)]
    constructor
    · exact fun all => .inr ⟨many, all⟩
    · rintro (⟨few, -⟩ | ⟨-, all⟩)
      · exact absurd many few.not_gt
      · exact all
  have holds := (holds_init few).shuffleSeq draws
  rcases (show 2 ≤ weight.sum ∨ weight.sum = 1 by omega) with several | one
  · apply iff_of_true
    · exact holds.faithful nonneg fun r low _ => holds.getResultByWeight_eq_pick nonneg (by omega) low
    · exact .inl ⟨few, .inl several⟩
  obtain ⟨first, behind, entries_eq, weight_eq, result⟩ := holds.single one
  have member : first ∈ weight.zipIdx := holds.perm.mem_iff.mp (entries_eq ▸ List.mem_cons_self)
  obtain ⟨bound, same⟩ := List.mem_zipIdx' member
  rw [← weight_eq]
  constructor
  · rintro ⟨draws_, -⟩
    obtain ⟨i, -, returned, some_⟩ := draws_ 1 le_rfl (by omega)
    rw [result, Option.some_inj] at returned
    rw [← returned, List.getD_eq_getElem _ _ bound, ← same] at some_
    exact .inl ⟨few, .inr some_⟩
  · rintro (⟨-, several | some_⟩ | ⟨many, -⟩)
    · omega
    · apply holds.faithful nonneg
      intro r low high
      -- The only draw picks the first entry, which has the unit.
      rw [result, choices, entries_eq, List.map_cons, pick, if_pos (by omega)]
    · exact absurd many few.not_gt

/-- The single unit of weight stands behind an index without weight. -/
theorem not_faithful_unit : ¬Faithful ((CWeight.init {} [0, 1]).shuffleSeq [fun i => i]) [0, 1] := by
  rintro ⟨draws, -⟩
  obtain ⟨i, -, returned, some_⟩ := draws 1 (by decide) (by decide)
  have first : ((CWeight.init {} [0, 1]).shuffleSeq [fun i => i]).getResultByWeight 1 = some 0 := by decide
  obtain rfl : 0 = i := Option.some_inj.mp (first.symm.trans returned)
  exact absurd some_ (by decide)

theorem faithful_three : Faithful ((CWeight.init {} [2, 0, 1]).shuffleSeq [fun i => i + 1]) [2, 0, 1] :=
  (faithful_iff (by decide) (by decide) [fun i => i + 1]).mpr (.inl ⟨by decide, .inl (by decide)⟩)

end CWeight

end H5Server.Public
