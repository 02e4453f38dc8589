import Mathlib.Algebra.GroupWithZero.Nat
import Mathlib.Algebra.Order.Group.Nat
import Mathlib.Tactic.Cases

/-! # Melds

Counts of things in a row are split into triplets, runs of three neighbours and pairs. Read from the left, what is not
yet used at a place has to be used by the triplets, the pair and the runs that begin there.
-/

namespace H5Server.Lib

/-- The melds that begin at a place: triplets, runs, pairs. -/
structure Melds where
  triplets : ℕ
  runs : ℕ
  pairs : ℕ
deriving DecidableEq

namespace Melds

/-- How many things of its own place are used. -/
def used (m : Melds) : ℕ := 3 * m.triplets + 2 * m.pairs + m.runs

/-- How many things are used in all. -/
def size (m : Melds) : ℕ := 3 * m.triplets + 3 * m.runs + 2 * m.pairs

end Melds

/-- What is left behind a place where so many runs begin. -/
def takeRuns (t : ℕ → ℕ) (cur runs : ℕ) : ℕ → ℕ := fun j =>
  if j = cur then 0 else if j = cur + 1 ∨ j = cur + 2 then t j - runs else t j

/-- The counts of `left` places from `cur` on are split into melds, read from the left. -/
def Fits : ℕ → ℕ → (ℕ → ℕ) → (ℕ → Melds) → Prop
  | 0, _, _, _ => True
  | left + 1, cur, t, s =>
    t cur = (s cur).used ∧ (s cur).pairs ≤ 1
      ∧ ((s cur).runs = 0 ∨ 2 ≤ left ∧ (s cur).runs ≤ t (cur + 1) ∧ (s cur).runs ≤ t (cur + 2))
      ∧ Fits left (cur + 1) (takeRuns t cur (s cur).runs) s

/-- The sum of `left` counts from `cur` on. -/
def total (t : ℕ → ℕ) (cur : ℕ) : ℕ → ℕ
  | 0 => 0
  | left + 1 => t cur + total t (cur + 1) left

variable {t t' : ℕ → ℕ} {s s' : ℕ → Melds} {left cur : ℕ}

theorem total_congr (same : ∀ j, cur ≤ j → j < cur + left → t j = t' j) : total t cur left = total t' cur left := by
  induction left generalizing cur with
  | zero => rfl
  | succ left ih =>
    rw [total, total, same cur le_rfl (by omega), ih fun j low high => same j (by omega) (by omega)]

theorem total_add (t t' : ℕ → ℕ) (cur left : ℕ) :
    total (fun j => t j + t' j) cur left = total t cur left + total t' cur left := by
  induction left generalizing cur with
  | zero => rfl
  | succ left ih =>
    rw [total, total, total, ih]
    omega

theorem total_append (t : ℕ → ℕ) (cur left left' : ℕ) :
    total t cur (left + left') = total t cur left + total t (cur + left) left' := by
  induction left generalizing cur with
  | zero => rw [Nat.zero_add, total, Nat.zero_add, Nat.add_zero]
  | succ left ih =>
    rw [Nat.add_right_comm, total, ih, total, show cur + 1 + left = cur + (left + 1) by omega, Nat.add_assoc]

/-- A sum over a list is one over its places. -/
theorem sum_map_eq_total (f : ℕ → ℕ) (counts : List ℕ) :
    (counts.map f).sum = total (fun j => f (counts.getD j 0)) 0 counts.length := by
  have shifted (counts : List ℕ) (x cur left : ℕ) :
      total (fun j => f ((x :: counts).getD j 0)) (cur + 1) left = total (fun j => f (counts.getD j 0)) cur left := by
    induction left generalizing cur with
    | zero => rfl
    | succ left ih => rw [total, total, ih, List.getD_cons_succ]
  induction counts with
  | nil => rfl
  | cons x counts ih => rw [List.map_cons, List.sum_cons, ih, List.length_cons, total, shifted, List.getD_cons_zero]

theorem total_single (x cur left : ℕ) :
    total (fun j => if x = j then 1 else 0) cur left = if cur ≤ x ∧ x < cur + left then 1 else 0 := by
  induction left generalizing cur with
  | zero => rw [total, if_neg (by omega)]
  | succ left ih =>
    rw [total, ih]
    split_ifs <;> omega

/-- How often each thing is in a list, in all. -/
theorem total_count {things : List ℕ} {bound : ℕ} (below : ∀ x ∈ things, x < bound) :
    total (fun j => things.count j) 0 bound = things.length := by
  induction things with
  | nil =>
    simp only [List.count_nil, List.length_nil]
    induction bound with
    | zero => rfl
    | succ bound ih => rw [total_append, ih nofun, total, total]
  | cons x things ih =>
    obtain ⟨here, later⟩ := List.forall_mem_cons.mp below
    have each (j : ℕ) : (x :: things).count j = things.count j + if x = j then 1 else 0 := by
      simp only [List.count_cons, beq_iff_eq]
    simp only [each]
    rw [total_add, ih later, total_single, if_pos ⟨Nat.zero_le x, by omega⟩, List.length_cons]

/-- A sum is twice the halves and the odd ones. -/
theorem total_halves (t : ℕ → ℕ) (cur left : ℕ) :
    total t cur left = 2 * total (fun j => t j / 2) cur left + total (fun j => t j % 2) cur left := by
  induction left generalizing cur with
  | zero => rfl
  | succ left ih =>
    rw [total, total, total, ih]
    omega

/-- A count that is one of those that are summed. -/
theorem le_total {j : ℕ} (low : cur ≤ j) (high : j < cur + left) : t j ≤ total t cur left := by
  induction left generalizing cur with
  | zero => omega
  | succ left ih =>
    rw [total]
    rcases low.eq_or_lt with rfl | later
    · exact Nat.le_add_right _ _
    · exact (ih later (by omega)).trans (Nat.le_add_left _ _)

/-- Two counts that are both summed. -/
theorem add_le_total {i j : ℕ} (low : cur ≤ i) (before : i < j) (high : j < cur + left) : t i + t j ≤ total t cur left := by
  have parts : left = (j - cur) + (left - (j - cur)) := by omega
  rw [parts, total_append, show cur + (j - cur) = j by omega]
  exact Nat.add_le_add (le_total low (by omega)) (le_total le_rfl (by omega))

/-- Counts that are not read do not matter. -/
theorem fits_congr (same : ∀ j, cur ≤ j → j < cur + left → t j = t' j) : Fits left cur t s ↔ Fits left cur t' s := by
  induction left generalizing cur t t' with
  | zero => exact Iff.rfl
  | succ left ih =>
    rw [Fits, Fits, same cur le_rfl (by omega)]
    have later : Fits left (cur + 1) (takeRuns t cur (s cur).runs) s ↔ Fits left (cur + 1) (takeRuns t' cur (s cur).runs) s :=
      ih fun j low high => by
        rw [takeRuns, takeRuns, same j (by omega) (by omega)]
    rw [later]
    rcases Nat.lt_or_ge left 2 with few | more
    · simp only [few.not_ge, false_and]
    · rw [same (cur + 1) (by omega) (by omega), same (cur + 2) (by omega) (by omega)]

/-- Melds of other places do not matter. -/
theorem Fits.congr (fits : Fits left cur t s) (same : ∀ j, cur ≤ j → j < cur + left → s j = s' j) :
    Fits left cur t s' := by
  induction left generalizing cur t with
  | zero => trivial
  | succ left ih =>
    obtain ⟨used, pairs, runs, later⟩ := fits
    have here := same cur le_rfl (by omega)
    rw [Fits, ← here]
    exact ⟨used, pairs, runs, ih later fun j low high => same j (by omega) (by omega)⟩

/-- The runs that begin at the two places before, within the places that are read. -/
def carried (s : ℕ → Melds) (cur j : ℕ) : ℕ :=
  (if cur + 1 ≤ j then (s (j - 1)).runs else 0) + if cur + 2 ≤ j then (s (j - 2)).runs else 0

theorem carried_self (s : ℕ → Melds) (cur : ℕ) : carried s cur cur = 0 := by
  rw [carried, if_neg (by omega), if_neg (by omega)]

/-- One place further less is carried by the runs of the first place. -/
theorem carried_succ (s : ℕ → Melds) {j : ℕ} (after : cur + 1 ≤ j) :
    carried s cur j = carried s (cur + 1) j + if j = cur + 1 ∨ j = cur + 2 then (s cur).runs else 0 := by
  rw [carried, carried, if_pos after]
  rcases Nat.lt_trichotomy j (cur + 2) with one | rfl | more
  · obtain rfl : j = cur + 1 := by omega
    rw [if_neg (by omega), if_neg (by omega), if_neg (by omega), if_pos (.inl rfl), Nat.add_sub_cancel]
    omega
  · rw [if_pos le_rfl, if_pos (by omega), if_neg (by omega), if_pos (.inr rfl), Nat.add_sub_cancel]
    omega
  · rw [if_pos (by omega), if_pos (by omega), if_pos (by omega), if_neg (by omega)]
    omega

/-- Each count is what its melds use and what the runs from before use. -/
theorem fits_iff : Fits left cur t s ↔ ∀ j, cur ≤ j → j < cur + left →
    t j = (s j).used + carried s cur j ∧ (s j).pairs ≤ 1 ∧ ((s j).runs = 0 ∨ j + 2 < cur + left) := by
  induction left generalizing cur t with
  | zero => exact iff_of_true trivial fun j low high => by omega
  | succ left ih =>
    rw [Fits, ih]
    constructor
    · rintro ⟨used, pairs, runs, later⟩ j low high
      rcases low.eq_or_lt with rfl | after
      · exact ⟨by rw [carried_self]; exact used, pairs, by omega⟩
      · obtain ⟨count, pairs', runs'⟩ := later j after (by omega)
        refine ⟨?_, pairs', by omega⟩
        rw [takeRuns, if_neg (by omega)] at count
        rw [carried_succ s after]
        rcases Classical.em (j = cur + 1 ∨ j = cur + 2) with near | far
        · rw [if_pos near] at count ⊢
          rcases near with rfl | rfl <;> omega
        · rw [if_neg far] at count ⊢
          exact count
    · intro all
      obtain ⟨used, pairs, runs⟩ := all cur le_rfl (by omega)
      have next : ∀ j, cur + 1 ≤ j → j < cur + (left + 1) → j = cur + 1 ∨ j = cur + 2 → (s cur).runs ≤ t j := by
        intro j after high near
        rw [(all j (by omega) high).1, carried_succ s after, if_pos near]
        omega
      refine ⟨by rw [used, carried_self]; rfl, pairs, ?_, fun j after high => ?_⟩
      · rcases runs with none_ | inside
        · exact .inl none_
        · exact .inr ⟨by omega, next _ (by omega) (by omega) (.inl rfl), next _ (by omega) (by omega) (.inr rfl)⟩
      · obtain ⟨count, pairs', runs'⟩ := all j (by omega) (by omega)
        refine ⟨?_, pairs', by omega⟩
        rw [carried_succ s after] at count
        rw [takeRuns, if_neg (by omega)]
        split
        next near =>
          rw [if_pos near] at count
          omega
        next far =>
          rw [if_neg far] at count
          exact count

/-! ## Sums -/

theorem total_takeRuns (t : ℕ → ℕ) {runs : ℕ} (enough : runs = 0 ∨ 2 ≤ left ∧ runs ≤ t (cur + 1) ∧ runs ≤ t (cur + 2)) :
    total (takeRuns t cur runs) (cur + 1) left + 2 * runs = total t (cur + 1) left := by
  rcases enough with rfl | ⟨room, first, second⟩
  · refine total_congr fun j low high => ?_
    rw [takeRuns, if_neg (by omega)]
    split <;> omega
  · obtain ⟨rest, rfl⟩ := Nat.exists_eq_add_of_le room
    rw [show 2 + rest = rest + 1 + 1 by omega, total, total, total, total]
    have far : total (takeRuns t cur runs) (cur + 1 + 1 + 1) rest = total t (cur + 1 + 1 + 1) rest :=
      total_congr fun j low high => by rw [takeRuns, if_neg (by omega), if_neg (by omega)]
    have near : takeRuns t cur runs (cur + 1) = t (cur + 1) - runs := by
      rw [takeRuns, if_neg (by omega), if_pos (.inl rfl)]
    have next : takeRuns t cur runs (cur + 1 + 1) = t (cur + 2) - runs := by
      rw [takeRuns, if_neg (by omega), if_pos (.inr rfl)]
    rw [far, near, next, show cur + 1 + 1 = cur + 2 by omega]
    omega

/-- All that is counted is in the melds. -/
theorem Fits.total_eq (fits : Fits left cur t s) : total t cur left = total (fun j => (s j).size) cur left := by
  induction left generalizing cur t with
  | zero => rfl
  | succ left ih =>
    obtain ⟨used, pairs, runs, later⟩ := fits
    rw [total, total, ← ih later, ← total_takeRuns t runs, used, Melds.used, Melds.size]
    omega

theorem total_size (s : ℕ → Melds) (cur left : ℕ) : total (fun j => (s j).size) cur left =
    3 * total (fun j => (s j).triplets + (s j).runs) cur left + 2 * total (fun j => (s j).pairs) cur left := by
  induction left generalizing cur with
  | zero => rfl
  | succ left ih =>
    rw [total, total, total, ih, Melds.size]
    omega

/-- What one run uses up is not a pair. -/
theorem not_run_or_pair (fits : Fits left (cur + 1) (takeRuns t cur 0) s) (room : 2 ≤ left) (some_ : 1 ≤ t (cur + 1))
    (pairs : total (fun j => (s j).triplets + (s j).runs) (cur + 1) left = 0) :
    total (takeRuns t cur 1) (cur + 1) left ≠ 0 := by
  intro none_
  obtain ⟨used, -, -⟩ := fits_iff.mp fits (cur + 1) le_rfl (by omega)
  rw [takeRuns, if_neg (by omega), if_pos (.inl rfl), carried_self, Melds.used] at used
  have alone : (s (cur + 1)).triplets + (s (cur + 1)).runs ≤ total (fun j => (s j).triplets + (s j).runs) (cur + 1) left :=
    le_total (t := fun j => (s j).triplets + (s j).runs) le_rfl (by omega)
  have rest : takeRuns t cur 1 (cur + 1) ≤ total (takeRuns t cur 1) (cur + 1) left := le_total le_rfl (by omega)
  rw [none_, takeRuns, if_neg (by omega), if_pos (.inl rfl)] at rest
  omega

/-- With two melds at most, and one beside a pair, only a triplet can stand for a pair and a run. -/
theorem used_cases {m m' : Melds} (same : m.used = m'.used) (few : m.triplets + m.runs ≤ 2)
    (few' : m'.triplets + m'.runs ≤ 2) (one : m.pairs ≤ 1) (one' : m'.pairs ≤ 1)
    (single : m.pairs = 1 ∨ m'.pairs = 1 → m.triplets + m.runs ≤ 1 ∧ m'.triplets + m'.runs ≤ 1) :
    m = m' ∨ m = ⟨1, 0, 0⟩ ∧ m' = ⟨0, 1, 1⟩ ∨ m' = ⟨1, 0, 0⟩ ∧ m = ⟨0, 1, 1⟩ := by
  obtain ⟨triplets, runs, pairs⟩ := m
  obtain ⟨triplets', runs', pairs'⟩ := m'
  simp only [Melds.used, Melds.mk.injEq] at *
  obtain rfl | rfl : pairs = 0 ∨ pairs = 1 := by omega
  · obtain rfl | rfl : pairs' = 0 ∨ pairs' = 1 := by omega
    · omega
    · obtain ⟨few, few'⟩ := single (.inr rfl)
      omega
  · obtain ⟨few, few'⟩ := single (.inl rfl)
    obtain rfl | rfl : triplets = 0 ∨ triplets = 1 := by omega
    all_goals
      obtain rfl | rfl : triplets' = 0 ∨ triplets' = 1 := by omega
      all_goals omega

/-- Seven things and fewer are split in one way, if there is at most one pair. -/
theorem Fits.unique (fits : Fits left cur t s) (fits' : Fits left cur t s') (few : total t cur left ≤ 7)
    (one : total (fun j => (s j).pairs) cur left ≤ 1) (one' : total (fun j => (s' j).pairs) cur left ≤ 1) :
    ∀ j, cur ≤ j → j < cur + left → s j = s' j := by
  induction left generalizing cur t with
  | zero => exact fun j low high => absurd high (by omega)
  | succ left ih =>
    have all : total t cur (left + 1) = (s cur).size + total (fun j => (s j).size) (cur + 1) left := fits.total_eq
    have all' : total t cur (left + 1) = (s' cur).size + total (fun j => (s' j).size) (cur + 1) left := fits'.total_eq
    change (s cur).pairs + total (fun j => (s j).pairs) (cur + 1) left ≤ 1 at one
    change (s' cur).pairs + total (fun j => (s' j).pairs) (cur + 1) left ≤ 1 at one'
    rw [total_size, Melds.size] at all all'
    obtain ⟨used, pairs, runs, later⟩ := fits
    obtain ⟨used', pairs', runs', later'⟩ := fits'
    have rest := later.total_eq
    have rest' := later'.total_eq
    rw [total_size] at rest rest'
    generalize count : total (fun j => (s j).triplets + (s j).runs) (cur + 1) left = melds at *
    generalize count' : total (fun j => (s' j).triplets + (s' j).runs) (cur + 1) left = melds' at *
    have alike : (s cur).pairs + total (fun j => (s j).pairs) (cur + 1) left
        = (s' cur).pairs + total (fun j => (s' j).pairs) (cur + 1) left := by omega
    have number : (s cur).triplets + (s cur).runs + melds = (s' cur).triplets + (s' cur).runs + melds' := by omega
    have same : s cur = s' cur := by
      rcases used_cases (used.symm.trans used') (by omega) (by omega) pairs pairs' (by omega) with
        same | ⟨triplet, run⟩ | ⟨triplet, run⟩
      · exact same
      · rw [triplet] at later number one alike all
        rw [run] at rest' runs' number one' alike all'
        dsimp only at *
        exact absurd (by omega) (not_run_or_pair later (by omega) (by omega) (count.trans (by omega)))
      · rw [triplet] at later' number one' alike all'
        rw [run] at rest runs number one alike all
        dsimp only at *
        exact absurd (by omega) (not_run_or_pair later' (by omega) (by omega) (count'.trans (by omega)))
    rw [← same] at later'
    rw [same] at one
    intro j low high
    rcases low.eq_or_lt with rfl | after
    · exact same
    · refine ih later later' ?_ (by omega) (by omega) j after (by omega)
      have := total_takeRuns t runs
      rw [total] at few
      omega

end H5Server.Lib
