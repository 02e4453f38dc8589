import H5Server.Lib.Shares
import H5Server.Qhb.TableFrameSink
import Mathlib.Algebra.Order.BigOperators.Group.List
import Mathlib.Tactic.Linarith
import Mathlib.Tactic.Ring

/-! # The packets of a round (`GetResultArr`)

Every packet but the last is a rounded share of the money, and one more. The last gets what is left, which is
positive when there is enough money for the worst weights.
-/

namespace H5Server.Qhb

open Lib

variable {money allWeight left x y : ℤ} {weights vec rest : List ℤ}

theorem toInt32_eq (low : -2 ^ 31 ≤ x) (high : x < 2 ^ 31) : toInt32 x = x := by
  rw [toInt32, Int.bmod_eq_of_le] <;> omega

/-- What the packets before the last come to. -/
def shares (money allWeight : ℤ) (weights : List ℤ) : ℤ :=
  (weights.dropLast.map fun weight => share money allWeight weight + 1).sum

theorem shares_cons (weight : ℤ) (nonempty : weights ≠ []) :
    shares money allWeight (weight :: weights) = share money allWeight weight + 1 + shares money allWeight weights := by
  rw [shares, List.dropLast_cons_of_ne_nil nonempty, List.map_cons, List.sum_cons, shares]

theorem shares_nonneg (enough : 0 ≤ money) (whole : 0 ≤ allWeight) (parts : ∀ weight ∈ weights, 0 ≤ weight) :
    0 ≤ shares money allWeight weights := by
  apply List.sum_nonneg
  intro x present
  obtain ⟨weight, inside, rfl⟩ := List.mem_map.mp present
  have := share_nonneg enough whole (parts weight (List.mem_of_mem_dropLast inside))
  omega

/-- The packets are positive and come to the money, as long as something is left for the last one. -/
theorem weighed_spec (enough : 0 ≤ money) (whole : 0 ≤ allWeight) (nonempty : weights ≠ [])
    (parts : ∀ weight ∈ weights, 0 ≤ weight) (nonneg : 0 ≤ left) (small : money < 2 ^ 31)
    (remains : left + shares money allWeight weights < money) :
    (weighed money allWeight left weights).length = weights.length
      ∧ (weighed money allWeight left weights).sum = money - left
      ∧ ∀ x ∈ weighed money allWeight left weights, 0 < x := by
  induction weights generalizing left with
  | nil => exact absurd rfl nonempty
  | cons weight rest ih =>
    cases rest with
    | nil =>
      have last : weighed money allWeight left [weight] = [money - left] := by rw [weighed]
      have none_ : shares money allWeight [weight] = 0 := rfl
      rw [last, List.sum_singleton]
      refine ⟨rfl, rfl, fun x present => ?_⟩
      rw [List.mem_singleton.mp present]
      omega
    | cons next rest =>
      have nonempty' := List.cons_ne_nil next rest
      have parts' : ∀ weight ∈ next :: rest, 0 ≤ weight := fun a present => parts a (List.mem_cons_of_mem _ present)
      have first := share_nonneg enough whole (parts weight List.mem_cons_self)
      have later := shares_nonneg enough whole parts'
      rw [shares_cons weight nonempty'] at remains
      have unfolded : weighed money allWeight left (weight :: next :: rest)
          = (share money allWeight weight + 1)
            :: weighed money allWeight (left + (share money allWeight weight + 1)) (next :: rest) := by
        have exact_ := toInt32_eq (x := left + (share money allWeight weight + 1)) (by omega) (by omega)
        rw [← exact_, share, mul_comm money weight]
        rfl
      obtain ⟨length, sum, positive⟩ := ih nonempty' parts' (show 0 ≤ left + (share money allWeight weight + 1) by omega)
        (by omega)
      rw [unfolded, List.length_cons, length, List.sum_cons, sum]
      refine ⟨rfl, by ring, List.forall_mem_cons.mpr ⟨by omega, positive⟩⟩

theorem mul_sum_share_le (enough : 0 ≤ money) (parts : ∀ weight ∈ weights, 0 ≤ weight) :
    allWeight * (weights.map (share money allWeight)).sum ≤ money * weights.sum := by
  induction weights with
  | nil => simp
  | cons weight rest ih =>
    have later := ih fun a present => parts a (List.mem_cons_of_mem _ present)
    have exact_ := mul_share_add_tmod money allWeight weight
    have rest_ := Int.tmod_nonneg allWeight (mul_nonneg enough (parts weight List.mem_cons_self))
    rw [List.map_cons, List.sum_cons, List.sum_cons, mul_add, mul_add]
    omega

theorem sum_le_mul_length (bounds : ∀ weight ∈ weights, weight ≤ 100) : weights.sum ≤ 100 * weights.length := by
  induction weights with
  | nil => exact le_rfl
  | cons weight rest ih =>
    have first := bounds weight List.mem_cons_self
    have later := ih fun a present => bounds a (List.mem_cons_of_mem _ present)
    rw [List.sum_cons, List.length_cons]
    push_cast
    omega

/-- With the least weight last and all others at their most something is left. -/
theorem shares_lt {n : ℕ} (length : weights.length = n) (two : 2 ≤ n)
    (bounds : ∀ weight ∈ weights, 1 ≤ weight ∧ weight ≤ 100) (enough : (n - 1 : ℤ) * (100 * (n - 1) + 1) < money) :
    shares money weights.sum weights < money := by
  have nonempty : weights ≠ [] := by
    rintro rfl
    rw [List.length_nil] at length
    omega
  obtain ⟨front, last, rfl⟩ : ∃ front last, weights = front ++ [last] :=
    ⟨_, _, (List.dropLast_append_getLast nonempty).symm⟩
  rw [List.length_append, List.length_singleton] at length
  have count : (front.length : ℤ) = n - 1 := by omega
  have positive : 1 ≤ last := (bounds last (List.mem_append_right _ (List.mem_singleton_self last))).1
  have most := sum_le_mul_length fun weight present => (bounds weight (List.mem_append_left _ present)).2
  have least : 0 ≤ front.sum := List.sum_nonneg fun weight present => by
    have := (bounds weight (List.mem_append_left _ present)).1
    omega
  have money_pos : 0 ≤ money := by nlinarith
  have shared : (front ++ [last]).sum * _ ≤ _ := mul_sum_share_le money_pos fun weight present => by
    have := (bounds weight (List.mem_append_left _ present)).1
    omega
  have total : shares money (front ++ [last]).sum (front ++ [last])
      = (front.map (share money (front ++ [last]).sum)).sum + (n - 1) := by
    rw [shares, List.dropLast_concat, List.sum_map_add, List.map_const', List.sum_replicate, nsmul_eq_mul, mul_one, count]
  have whole : (front ++ [last]).sum = front.sum + last := by rw [List.sum_append, List.sum_singleton]
  rw [count] at most
  rw [total]
  rw [whole] at shared ⊢
  -- the roundings cost less than the share of the last weight
  have roundings : (front.sum + last) * (n - 1) < money * last := by
    have bound : front.sum + last ≤ last * (100 * (n - 1) + 1) := by nlinarith
    calc (front.sum + last) * (n - 1) ≤ last * (100 * (n - 1) + 1) * (n - 1) :=
          mul_le_mul_of_nonneg_right bound (by omega)
      _ = last * ((n - 1) * (100 * (n - 1) + 1)) := by ring
      _ < last * money := mul_lt_mul_of_pos_left enough (by omega)
      _ = money * last := mul_comm _ _
  by_contra more
  have scaled : (front.sum + last) * money ≤ (front.sum + last)
      * ((front.map (share money (front.sum + last))).sum + (n - 1)) :=
    mul_le_mul_of_nonneg_left (not_lt.mp more) (by omega)
  nlinarith

/-! ## Sorting -/

/-- The pass leaves the largest amount in its place. -/
theorem exchange_spec (small : ∀ a ∈ x :: rest, 0 < a ∧ a < 2 ^ 31) :
    ((exchange x rest).1 :: (exchange x rest).2).Perm (x :: rest)
      ∧ ∀ a ∈ (exchange x rest).1 :: (exchange x rest).2, a ≤ (exchange x rest).1 := by
  induction rest generalizing x with
  | nil =>
    refine ⟨List.Perm.refl _, fun a present => ?_⟩
    rw [List.mem_singleton.mp present]
  | cons y rest ih =>
    obtain ⟨here, others⟩ := List.forall_mem_cons.mp small
    obtain ⟨next, later⟩ := List.forall_mem_cons.mp others
    rw [exchange]
    split
    · rename_i le
      obtain ⟨perm, top⟩ := ih (List.forall_mem_cons.mpr ⟨here, later⟩)
      refine ⟨(List.Perm.swap _ _ _).trans ((perm.cons y).trans (List.Perm.swap _ _ _)), ?_⟩
      have bound := top x (perm.mem_iff.mpr List.mem_cons_self)
      obtain ⟨first, rest'⟩ := List.forall_mem_cons.mp top
      exact List.forall_mem_cons.mpr ⟨first, List.forall_mem_cons.mpr ⟨le.trans bound, rest'⟩⟩
    · rename_i lt
      obtain ⟨perm, top⟩ := ih (List.forall_mem_cons.mpr ⟨next, later⟩)
      rw [toInt32_eq (by omega) here.2]
      refine ⟨(List.Perm.swap _ _ _).trans (perm.cons x), ?_⟩
      have bound := top y (perm.mem_iff.mpr List.mem_cons_self)
      obtain ⟨first, rest'⟩ := List.forall_mem_cons.mp top
      exact List.forall_mem_cons.mpr ⟨first, List.forall_mem_cons.mpr ⟨(not_le.mp lt).le.trans bound, rest'⟩⟩

theorem sortDown_spec {fuel : ℕ} (enough : vec.length ≤ fuel) (small : ∀ a ∈ vec, 0 < a ∧ a < 2 ^ 31) :
    (sortDown fuel vec).Perm vec ∧ (sortDown fuel vec).Pairwise (· ≥ ·) := by
  induction fuel generalizing vec with
  | zero =>
    rw [List.eq_nil_of_length_eq_zero (Nat.le_zero.mp enough)]
    exact ⟨List.Perm.refl _, List.Pairwise.nil⟩
  | succ fuel ih =>
    cases vec with
    | nil => exact ⟨List.Perm.refl _, List.Pairwise.nil⟩
    | cons x rest =>
      obtain ⟨perm, top⟩ := exchange_spec small
      have small' : ∀ a ∈ (exchange x rest).2, 0 < a ∧ a < 2 ^ 31 := fun a present =>
        small a (perm.mem_iff.mp (List.mem_cons_of_mem _ present))
      have length := perm.length_eq
      rw [List.length_cons, List.length_cons] at length
      rw [List.length_cons] at enough
      obtain ⟨perm', sorted⟩ := ih (by omega) small'
      refine ⟨(perm'.cons _).trans perm, List.pairwise_cons.mpr ⟨fun a present => ?_, sorted⟩⟩
      exact top a (List.mem_cons_of_mem _ (perm'.mem_iff.mp present))

/-! ## The result -/

/-- The packets come to the money, and the best one is the only one of its amount. -/
theorem getResultArr_spec {cfg : Config} (two : 2 ≤ cfg.sendEnvelopeNum)
    (enough : (cfg.sendEnvelopeNum - 1 : ℤ) * (100 * (cfg.sendEnvelopeNum - 1) + 1) < cfg.sendEnvelopeScore)
    (small : cfg.sendEnvelopeScore < 2 ^ 31) (returned : getResultArr cfg weights = some vec) :
    vec.length = cfg.sendEnvelopeNum ∧ (∀ x ∈ vec, 0 < x) ∧ vec.sum = cfg.sendEnvelopeScore
      ∧ vec.Pairwise (· ≥ ·) ∧ ∀ x ∈ vec.tail, x < vec.headD 0 := by
  rw [getResultArr] at returned
  split at returned
  · rename_i valid
    obtain ⟨length, bounds⟩ := valid
    have money_pos : 0 ≤ cfg.sendEnvelopeScore := by nlinarith
    have nonempty : weights ≠ [] := by
      rintro rfl
      rw [List.length_nil] at length
      omega
    have parts : ∀ weight ∈ weights, 0 ≤ weight := fun weight present => by
      have := (bounds weight present).1
      omega
    have left := shares_lt length two bounds enough
    obtain ⟨length', sum, positive⟩ := weighed_spec money_pos (List.sum_nonneg parts) nonempty parts le_rfl small
      (by rw [zero_add]; exact left)
    set drawn := weighed cfg.sendEnvelopeScore weights.sum 0 weights
    have bounded : ∀ a ∈ drawn, 0 < a ∧ a < 2 ^ 31 := by
      intro a present
      have part := List.single_le_sum (fun b inside => (positive b inside).le) a present
      exact ⟨positive a present, by omega⟩
    obtain ⟨perm, sorted⟩ := sortDown_spec length'.le bounded
    split at returned
    · rename_i first second others same
      split at returned
      · cases returned
      · rename_i different
        cases returned
        rw [same] at perm sorted
        refine ⟨perm.length_eq.trans (length'.trans length), fun x present => positive x (perm.mem_iff.mp present),
          perm.sum_eq.trans (sum.trans (sub_zero _)), sorted, fun x present => ?_⟩
        obtain ⟨top, sorted'⟩ := List.pairwise_cons.mp sorted
        have second_lt : second < first := lt_of_le_of_ne (top second List.mem_cons_self) (Ne.symm different)
        rcases List.mem_cons.mp present with rfl | later
        · exact second_lt
        · exact lt_of_le_of_lt ((List.pairwise_cons.mp sorted').1 x later) second_lt
    · cases returned
  · cases returned

/-- Three packets of a thousand. -/
theorem getResultArr_three : getResultArr ⟨1000, 3⟩ [10, 20, 70] = some [698, 201, 101]
    ∧ ([698, 201, 101] : List ℤ).sum = 1000 ∧ ∀ x ∈ ([201, 101] : List ℤ), x < 698 := by
  have returned : getResultArr ⟨1000, 3⟩ [10, 20, 70] = some [698, 201, 101] := by decide +kernel
  have spec := getResultArr_spec (by decide) (by decide) (by decide) returned
  exact ⟨returned, spec.2.2.1, spec.2.2.2.2⟩

end H5Server.Qhb
