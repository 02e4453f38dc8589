import H5Server.Slwh.SlwhAlgorithm
import Mathlib.Algebra.Order.Ring.Int
import Mathlib.Data.List.MinMax
import Mathlib.Tactic.Linarith

/-! # Whether a redraw can finish

A result is acceptable by what it pays, and less pay is never worse unless the table wants to give away. So what counts
is the smallest pay among the results that have a weight. A loop for which no result is acceptable never ends.
-/

namespace H5Server.Slwh.SlwhAlgorithm

variable {alg : SlwhAlgorithm} {weights : Weights} {tmpID : Fin 5 → Animal} {outcome : Outcome}

/-- The results that a redraw can choose: animals and other ways to open, each with a positive weight. -/
def outcomes (weights : Weights) (tmpID : Fin 5 → Animal) : List Outcome :=
  ((List.finRange 12).filter fun animal => 0 < weights.animal animal).map (⟨·, .normal⟩) ++
    ((List.finRange 4).filter fun j => 0 < weights.special j).map fun j => ⟨tmpID j.succ, specialType j⟩

/-- The smallest pay among some results. -/
def leastPay (alg : SlwhAlgorithm) (outcomes : List Outcome) : Option Int := (outcomes.map alg.calculatWinScore).min?

/-- The most that the table pays: no more than is bet when it wants to win, and not beyond the lower red line. -/
def allowance (alg : SlwhAlgorithm) (killOrReword : Int) : Int :=
  if killOrReword = -1 then min alg.betting (alg.betting + max alg.thresholdNum (-alg.redLine))
  else alg.betting + max alg.thresholdNum (-alg.redLine)

theorem exists_le_iff (outcomes : List Outcome) (bound : Int) :
    (∃ outcome ∈ outcomes, alg.calculatWinScore outcome ≤ bound) ↔ ∃ pay ∈ leastPay alg outcomes, pay ≤ bound := by
  constructor
  · rintro ⟨outcome, present, within⟩
    have some_ : (leastPay alg outcomes).isSome := List.isSome_min?_of_mem (List.mem_map_of_mem present)
    obtain ⟨pay, least⟩ := Option.isSome_iff_exists.mp some_
    exact ⟨pay, least, ((List.min?_eq_some_iff.mp least).2 _ (List.mem_map_of_mem present)).trans within⟩
  · rintro ⟨pay, least, within⟩
    obtain ⟨outcome, present, rfl⟩ := List.mem_map.mp (List.min?_eq_some_iff.mp least).1
    exact ⟨outcome, present, within⟩

/-- When the table does not give away, a result is acceptable up to the allowance. -/
theorem openCardAgain_eq_false {killOrReword : Int} (other : killOrReword ≠ 1) :
    alg.openCardAgain killOrReword outcome = false ↔ alg.calculatWinScore outcome ≤ alg.allowance killOrReword := by
  rw [openCardAgain, decide_eq_false_iff_not, allowance, winscore]
  split_ifs with kill
  · simp only [kill, true_and, false_and, false_or, show (-1 : Int) ≠ 1 by decide]
    omega
  · simp only [kill, other, false_and, false_or]
    omega

theorem blackOpenCardAgain_eq_false {killOrReword : Int} (other : killOrReword ≠ 1) :
    alg.blackOpenCardAgain killOrReword outcome = false ↔
      alg.calculatWinScore outcome ≤ alg.allowance killOrReword := by
  rw [blackOpenCardAgain, decide_eq_false_iff_not, allowance, winscore]
  split_ifs with kill
  · simp only [kill, true_and, false_and, false_or, show (-1 : Int) ≠ 1 by decide]
    omega
  · simp only [kill, other, false_and, false_or]
    omega

/-- Some result that a redraw can choose is accepted. -/
def CanFinish (weights : Weights) (tmpID : Fin 5 → Animal) (again : Outcome → Bool) : Prop :=
  ∃ outcome ∈ outcomes weights tmpID, again outcome = false

/-- The table goes on giving away: the drawn result costs it something, but not more than a bound. -/
def Gives (alg : SlwhAlgorithm) (outcome : Outcome) (bound : Int) : Prop :=
  alg.killOrReword = 1 ∧ alg.betting < alg.calculatWinScore outcome ∧
    alg.calculatWinScore outcome ≤ alg.betting + bound

instance (outcome : Outcome) (bound : Int) : Decidable (Gives alg outcome bound) := instDecidableAnd

/-- The flag of a table that does not go on giving away. -/
def orKill (alg : SlwhAlgorithm) : Int := if alg.killOrReword = 1 then -1 else alg.killOrReword

theorem orKill_ne_one : orKill alg ≠ 1 := by
  rw [orKill]
  split_ifs with give
  · decide
  · exact give

/-- A table that goes on giving away has a result whose pay lies between what is bet and a red line; in every other case
the smallest pay is within the allowance. -/
def Finishable (alg : SlwhAlgorithm) (outcomes : List Outcome) (outcome : Outcome) (bound most : Int) : Prop :=
  if Gives alg outcome bound then
    ∃ other ∈ outcomes, alg.betting ≤ alg.calculatWinScore other ∧ alg.calculatWinScore other ≤ alg.betting + most
  else
    ∃ pay ∈ leastPay alg outcomes, pay ≤ alg.allowance (orKill alg)

theorem openCardCheck_eq (positive : 0 < alg.betting) :
    alg.openCardCheck outcome = if Gives alg outcome (-alg.redLine) then 1 else orKill alg := by
  simp only [openCardCheck, Gives, orKill, winscore]
  split_ifs <;> omega

theorem blackOpenCardCheck_eq (positive : 0 < alg.betting) :
    alg.blackOpenCardCheck outcome =
      if Gives alg outcome (min alg.thresholdNum (-alg.redLine)) then 1 else orKill alg := by
  simp only [blackOpenCardCheck, Gives, orKill, winscore]
  split_ifs <;> omega

theorem canFinish_openCard_iff (positive : 0 < alg.betting) :
    CanFinish weights tmpID (alg.openCardAgain (alg.openCardCheck outcome)) ↔
      Finishable alg (outcomes weights tmpID) outcome (-alg.redLine) (-alg.redLine) := by
  rw [Finishable, CanFinish, openCardCheck_eq positive]
  split_ifs with gives
  · apply exists_congr
    intro other
    apply and_congr_right
    intro _
    rw [openCardAgain, decide_eq_false_iff_not, winscore]
    omega
  · rw [← exists_le_iff]
    exact exists_congr fun other => and_congr_right fun _ => openCardAgain_eq_false orKill_ne_one

theorem canFinish_blackOpenCard_iff (positive : 0 < alg.betting) :
    CanFinish weights tmpID (alg.blackOpenCardAgain (alg.blackOpenCardCheck outcome)) ↔
      Finishable alg (outcomes weights tmpID) outcome (min alg.thresholdNum (-alg.redLine))
        (max alg.thresholdNum (-alg.redLine)) := by
  rw [Finishable, CanFinish, blackOpenCardCheck_eq positive]
  split_ifs with gives
  · apply exists_congr
    intro other
    apply and_congr_right
    intro _
    rw [blackOpenCardAgain, decide_eq_false_iff_not, winscore]
    omega
  · rw [← exists_le_iff]
    exact exists_congr fun other => and_congr_right fun _ => blackOpenCardAgain_eq_false orKill_ne_one

/-! ## Draws

Every result with a positive weight comes up for some number within the total weight, and no other does.
-/

theorem exists_drawIdx {list : List ℚ} (nonneg : ∀ weight ∈ list, 0 ≤ weight) {i : ℕ} (inside : i < list.length)
    (positive : 0 < list[i]) : ∃ pribility, 0 < pribility ∧ pribility ≤ list.sum ∧ drawIdx list pribility = some i := by
  induction list generalizing i with
  | nil => exact absurd inside (Nat.not_lt_zero i)
  | cons weight list ih =>
    have nonneg' := fun weight present => nonneg weight (List.mem_cons_of_mem _ present)
    have first := nonneg weight List.mem_cons_self
    rw [List.sum_cons]
    cases i with
    | zero =>
      refine ⟨weight, positive, le_add_of_nonneg_right (List.sum_nonneg nonneg'), ?_⟩
      rw [drawIdx, if_pos (sub_self weight).le]
    | succ i =>
      obtain ⟨pribility, some_, within, found⟩ := ih nonneg' (Nat.lt_of_succ_lt_succ inside) positive
      refine ⟨weight + pribility, by linarith, by linarith, ?_⟩
      rw [drawIdx, add_sub_cancel_left, if_neg (not_le.mpr some_), found]
      rfl

theorem drawIdx_positive (list : List ℚ) {pribility : ℚ} (some_ : 0 < pribility) (within : pribility ≤ list.sum) :
    ∃ i, ∃ inside : i < list.length, 0 < list[i] ∧ drawIdx list pribility = some i := by
  induction list generalizing pribility with
  | nil => exact absurd (some_.trans_le within) (lt_irrefl 0)
  | cons weight list ih =>
    rw [List.sum_cons] at within
    rw [drawIdx]
    rcases le_or_gt (pribility - weight) 0 with reached | behind
    · refine ⟨0, Nat.succ_pos _, ?_, if_pos reached⟩
      rw [List.getElem_cons_zero]
      linarith
    · obtain ⟨i, inside, positive, found⟩ := ih behind (by linarith)
      refine ⟨i + 1, Nat.succ_lt_succ inside, positive, ?_⟩
      rw [if_neg (not_le.mpr behind), found]
      rfl

theorem length_sortprobirity (weights : Weights) : (sortprobirity weights).length = 16 := by
  simp [sortprobirity]

theorem getElem_sortprobirity_animal (weights : Weights) (i : Fin 12)
    (inside : i.val < (sortprobirity weights).length) :
    (sortprobirity weights)[i.val] = weights.animal (sortProbirityAndAnimal weights i) := by
  simp [sortprobirity]

theorem getElem_sortprobirity_special (weights : Weights) (j : Fin 4)
    (inside : j.val + 12 < (sortprobirity weights).length) :
    (sortprobirity weights)[j.val + 12] = weights.special j := by
  simp [sortprobirity]

theorem redraw_of_animal {pribility : ℚ} {i : Fin 12}
    (found : drawIdx (sortprobirity weights) pribility = some i.val) :
    redraw weights tmpID pribility outcome = ⟨sortProbirityAndAnimal weights i, .normal⟩ := by
  rw [redraw, found]
  exact dif_pos i.isLt

theorem redraw_of_special {pribility : ℚ} {j : Fin 4}
    (found : drawIdx (sortprobirity weights) pribility = some (j.val + 12)) :
    redraw weights tmpID pribility outcome = ⟨tmpID j.succ, specialType j⟩ := by
  rw [redraw, found]
  dsimp only
  rw [dif_neg (by omega), dif_pos (by omega)]
  rfl

theorem exists_redraw (nonneg : ∀ weight ∈ sortprobirity weights, 0 ≤ weight) {other : Outcome}
    (present : other ∈ outcomes weights tmpID) :
    ∃ pribility, 0 < pribility ∧ pribility ≤ (sortprobirity weights).sum ∧
      redraw weights tmpID pribility outcome = other := by
  rcases List.mem_append.mp present with inside | inside
  · obtain ⟨animal, kept, rfl⟩ := List.mem_map.mp inside
    have positive := of_decide_eq_true (List.mem_filter.mp kept).2
    obtain ⟨i, rfl⟩ := (sortProbirityAndAnimal weights).surjective animal
    have inside : i.val < (sortprobirity weights).length := by
      rw [length_sortprobirity]
      omega
    obtain ⟨pribility, some_, within, found⟩ := exists_drawIdx nonneg inside
      (by rwa [getElem_sortprobirity_animal])
    exact ⟨pribility, some_, within, redraw_of_animal found⟩
  · obtain ⟨j, kept, rfl⟩ := List.mem_map.mp inside
    have positive := of_decide_eq_true (List.mem_filter.mp kept).2
    have inside : j.val + 12 < (sortprobirity weights).length := by
      rw [length_sortprobirity]
      omega
    obtain ⟨pribility, some_, within, found⟩ := exists_drawIdx nonneg inside
      (by rwa [getElem_sortprobirity_special])
    exact ⟨pribility, some_, within, redraw_of_special found⟩

theorem redraw_mem {pribility : ℚ} (some_ : 0 < pribility) (within : pribility ≤ (sortprobirity weights).sum) :
    redraw weights tmpID pribility outcome ∈ outcomes weights tmpID := by
  obtain ⟨i, inside, positive, found⟩ := drawIdx_positive _ some_ within
  rw [length_sortprobirity] at inside
  rw [outcomes, List.mem_append]
  rcases Nat.lt_or_ge i 12 with animal | special
  · obtain ⟨i, rfl⟩ : ∃ j : Fin 12, j.val = i := ⟨⟨i, animal⟩, rfl⟩
    rw [getElem_sortprobirity_animal] at positive
    rw [redraw_of_animal found]
    exact .inl (List.mem_map_of_mem (List.mem_filter.mpr ⟨List.mem_finRange _, decide_eq_true positive⟩))
  · obtain ⟨j, rfl⟩ : ∃ j : Fin 4, j.val + 12 = i := ⟨⟨i - 12, by omega⟩, by dsimp only; omega⟩
    rw [getElem_sortprobirity_special] at positive
    rw [redraw_of_special found]
    exact .inr (List.mem_map.mpr ⟨j, List.mem_filter.mpr ⟨List.mem_finRange _, decide_eq_true positive⟩, rfl⟩)

/-- When some result is accepted, one more number can end the loop. -/
theorem redrawLoop_of_canFinish {again : Outcome → Bool} (nonneg : ∀ weight ∈ sortprobirity weights, 0 ≤ weight)
    (finishes : CanFinish weights tmpID again) :
    ∃ pribility, 0 < pribility ∧ pribility ≤ (sortprobirity weights).sum ∧
      (redrawLoop weights tmpID again [pribility] outcome).isSome := by
  obtain ⟨other, present, accepted⟩ := finishes
  obtain ⟨pribility, some_, within, drawn⟩ := exists_redraw nonneg present
  refine ⟨pribility, some_, within, ?_⟩
  rw [redrawLoop, drawn, redrawLoop, accepted]
  cases again outcome with
  | false => rfl
  | true => rfl

/-- Otherwise the loop goes on whatever is drawn. -/
theorem redrawLoop_of_not_canFinish {again : Outcome → Bool} (stuck : ¬CanFinish weights tmpID again)
    (draws : List ℚ) (drawn : ∀ pribility ∈ draws, 0 < pribility ∧ pribility ≤ (sortprobirity weights).sum)
    (rejected : again outcome = true) : redrawLoop weights tmpID again draws outcome = none := by
  induction draws generalizing outcome with
  | nil => rw [redrawLoop, if_pos rejected]
  | cons pribility draws ih =>
    rw [redrawLoop, if_pos rejected]
    obtain ⟨some_, within⟩ := drawn pribility List.mem_cons_self
    apply ih (fun other present => drawn other (List.mem_cons_of_mem _ present))
    rw [← Bool.not_eq_false]
    exact fun accepted => stuck ⟨_, redraw_mem some_ within, accepted⟩

/-! ## Tie, banker and player -/

/-- The most that the table wins of the three. -/
def bestGate (alg : SlwhAlgorithm) : Int :=
  max (alg.gateWinscore .he) (max (alg.gateWinscore .zhuang) (alg.gateWinscore .xian))

theorem exists_gate_iff (bound : Int) : (∃ gate, bound ≤ alg.gateWinscore gate) ↔ bound ≤ bestGate alg := by
  rw [bestGate, le_max_iff, le_max_iff]
  constructor
  · rintro ⟨gate, enough⟩
    cases gate with
    | he => exact .inl enough
    | zhuang => exact .inr (.inl enough)
    | xian => exact .inr (.inr enough)
  · rintro (enough | enough | enough)
    · exact ⟨.he, enough⟩
    · exact ⟨.zhuang, enough⟩
    · exact ⟨.xian, enough⟩

/-- The check of tie and banker leaves the table giving away only when one of them can be given. -/
theorem exists_gate_of_check (give : alg.hzxCheck = 1) : ∃ gate, alg.hzxAgain 1 gate = false := by
  rw [hzxCheck] at give
  dsimp only at give
  split_ifs at give with reward none_
  · exact absurd give (by decide)
  · obtain ⟨-, good⟩ := not_or.mp none_
    obtain ⟨winscore, present, fine⟩ : ∃ winscore ∈ ([Gate.he, .zhuang].map alg.gateWinscore).filter (· < 0),
        -alg.thresholdNum ≤ winscore ∨ alg.redLine ≤ winscore := by
      by_contra! all
      refine good (congrArg List.length (List.filter_eq_self.mpr fun winscore present => ?_))
      have bad := all winscore present
      simp only [not_or, decide_eq_true_eq]
      omega
    obtain ⟨inside, lost⟩ := List.mem_filter.mp present
    obtain ⟨gate, -, rfl⟩ := List.mem_map.mp inside
    refine ⟨gate, ?_⟩
    rw [decide_eq_true_eq] at lost
    rw [hzxAgain, if_neg (by decide), if_pos rfl, decide_eq_false_iff_not]
    omega
  · exact absurd give reward

theorem hzxCheck_of_ne (other : alg.killOrReword ≠ 1) : alg.hzxCheck = alg.killOrReword := if_neg other

theorem hzxCheck_of_reward (reward : alg.killOrReword = 1) : alg.hzxCheck = 0 ∨ alg.hzxCheck = 1 := by
  rw [hzxCheck, if_pos reward]
  dsimp only
  split_ifs
  · exact .inl rfl
  · exact .inr reward

/-- What the table has to win at least with the best of the three: nothing lost, or a loss within one red line. -/
def GateFinishable (alg : SlwhAlgorithm) : Prop :=
  (if alg.killOrReword = -1 then 0 else min (-alg.thresholdNum) alg.redLine) ≤ bestGate alg

theorem hzxAgain_eq_false {killOrReword : Int} {gate : Gate} (other : killOrReword ≠ 1) :
    alg.hzxAgain killOrReword gate = false ↔
      (if killOrReword = -1 then 0 else min (-alg.thresholdNum) alg.redLine) ≤ alg.gateWinscore gate := by
  rw [hzxAgain]
  split_ifs with kill
  · rw [decide_eq_false_iff_not, not_lt]
  · rw [decide_eq_false_iff_not]
    omega

theorem exists_gate_accepted_iff :
    (∃ gate, alg.hzxAgain alg.hzxCheck gate = false) ↔ GateFinishable alg := by
  rw [GateFinishable, ← exists_gate_iff]
  rcases eq_or_ne alg.killOrReword 1 with reward | other
  · rw [if_neg (by omega)]
    rcases hzxCheck_of_reward reward with dropped | kept
    · rw [dropped]
      exact exists_congr fun gate => hzxAgain_eq_false (by decide)
    · obtain ⟨gate, accepted⟩ := exists_gate_of_check kept
      refine iff_of_true ⟨gate, by rw [kept, accepted]⟩ ⟨gate, ?_⟩
      rw [hzxAgain, if_neg (by decide), if_pos rfl, decide_eq_false_iff_not] at accepted
      omega
  · rw [hzxCheck_of_ne other]
    exact exists_congr fun gate => hzxAgain_eq_false other

/-- The same bet on every animal, each of which pays more than all that is bet. -/
def evenBets (killOrReword : Int) : SlwhAlgorithm where
  bettingQuantity _ := 1
  muticleArr _ := 13
  curProfit := 0
  lowLimit := 0
  thresholdNum := 0
  killOrReword := killOrReword
  iwinTagSd := 0

def evenWeights : Weights := ⟨fun _ => 1, fun _ => 1⟩

end H5Server.Slwh.SlwhAlgorithm
