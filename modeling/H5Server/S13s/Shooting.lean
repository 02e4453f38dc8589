import H5Server.S13s.Records
import Mathlib.Tactic.Ring

/-! # Who shot whom

A player who wins all three duns shoots the other, and the other is shot. Two players cannot both
have shot everybody, so the marks left by the loop over the chairs are those of a single player.
-/

namespace H5Server.S13s

open Lib

/-! ## One duel -/

theorem countP_flip (items : List CompareItem) (n : ℤ) :
    (items.map CompareItem.flip).countP (fun item => item.winlost = n) = items.countP fun item => item.winlost = -n := by
  rw [List.countP_map]
  apply List.countP_congr
  intro item _
  show decide (-item.winlost = n) = true ↔ decide (item.winlost = -n) = true
  rw [decide_eq_true_iff, decide_eq_true_iff]
  exact neg_eq_iff_eq_neg

theorem sum_score_flip (items : List CompareItem) :
    ((items.map CompareItem.flip).map CompareItem.score).sum = -(items.map CompareItem.score).sum := by
  induction items with
  | nil => rfl
  | cons item rest ih =>
    simp only [List.map_cons, List.sum_cons, ih, CompareItem.flip]
    ring

/-- The side that is shot sees the opposite mark. -/
theorem shootOf_flip {special : Bool} {items : List CompareItem} (some_ : special = false → items ≠ []) :
    shootOf special (items.map CompareItem.flip) = -shootOf special items := by
  rcases special with _ | _
  · have length := List.length_pos_iff.mpr (some_ rfl)
    have both : items.countP (fun item => item.winlost = 1) + items.countP (fun item => item.winlost = -1)
        ≤ items.length := by
      rw [items.length_eq_countP_add_countP fun item => item.winlost = 1]
      apply Nat.add_le_add_left
      apply List.countP_mono_left
      intro item _ lost
      simp only [decide_eq_true_eq] at lost ⊢
      omega
    rw [shootOf, shootOf]
    simp only [countP_flip, List.length_map, neg_neg, Bool.false_eq_true, if_false]
    split_ifs <;> omega
  · rfl

namespace Showdown

variable {s : Showdown}

/-- The judged duel of `a` with `b`. -/
def judgement (s : Showdown) (a b : ℕ) : Duel := judgeDuel (s.selected a).specialTy (s.duel a b)

/-- All comparisons went through. -/
def AllComparable (s : Showdown) : Prop := ∀ p ∈ s.pairs, s.Comparable p.1 p.2

section Pair

variable (all : s.AllComparable) {a b : ℕ} (first : a ∈ s.chairIDs) (second : b ∈ s.chairIDs) (apart : a ≠ b)

include all first second apart

/-- The comparison of two chairs, started by the later one. -/
theorem compared : ∃ both,
    comparePair s.compareCards (s.selected (max a b)) (s.selected (min a b)) = some both ∧
      s.record (max a b) (min a b) = both.1 ∧ s.record (min a b) (max a b) = both.2 := by
  have order : min a b < max a b := by omega
  have member : (max a b, min a b) ∈ s.pairs := by
    have inside : max a b ∈ s.chairIDs.reverse ∧ min a b ∈ s.chairIDs.reverse := by
      simp only [List.mem_reverse]
      rcases max_choice a b with high | high <;> rcases min_choice a b with low | low <;> rw [high, low] <;>
        exact ⟨by assumption, by assumption⟩
    rcases mem_pairings_or inside.1 inside.2 order.ne' with given | turned
    · exact given
    · exact absurd (lt_of_mem_pairs turned) order.not_gt
  obtain ⟨both, done⟩ := Option.isSome_iff_exists.mp (all _ member)
  have known : s.results (max a b) (min a b) = both := by
    rw [results, done]
    rfl
  refine ⟨both, done, ?_, ?_⟩
  · rw [record, if_pos order, known]
  · rw [record, if_neg order.not_gt, known]

theorem record_opposite : Opposite (s.record a b) (s.record b a) := by
  obtain ⟨both, done, high, low⟩ := compared all first second apart
  have opposite := comparePair_opposite done
  rcases lt_or_gt_of_ne apart with less | more
  · rw [max_eq_right less.le, min_eq_left less.le] at high low
    rw [high, low]
    exact opposite.symm
  · rw [max_eq_left more.le, min_eq_right more.le] at high low
    rw [high, low]
    exact opposite

theorem record_items :
    if (s.selected a).specialTy.special || (s.selected b).specialTy.special then (s.record a b).items = []
    else (s.record a b).items.length = 3 := by
  obtain ⟨both, done, high, low⟩ := compared all first second apart
  have items := comparePair_items done
  have opposite := (comparePair_opposite done).items
  rcases lt_or_gt_of_ne apart with less | more
  · rw [max_eq_right less.le, min_eq_left less.le] at high low items
    rw [Bool.or_comm] at items
    rw [low, opposite]
    split_ifs at items ⊢
    · rw [items]
      rfl
    · rw [List.length_map]
      exact items
  · rw [max_eq_left more.le, min_eq_right more.le] at high low items
    rw [high]
    exact items

theorem judgement_shoot : (s.judgement b a).result.shoot = -(s.judgement a b).result.shoot := by
  have items := record_items all first second apart
  have opposite := (record_opposite all first second apart).items
  show shootOf ((s.selected b).specialTy.special || (s.selected a).specialTy.special) (s.record b a).items =
    -shootOf ((s.selected a).specialTy.special || (s.selected b).specialTy.special) (s.record a b).items
  rw [opposite, Bool.or_comm]
  apply shootOf_flip
  intro ordinary
  rw [ordinary] at items
  exact List.ne_nil_of_length_pos (by rw [if_neg Bool.false_ne_true] at items; omega)

theorem judgement_score : (s.judgement b a).result.score = -(s.judgement a b).result.score := by
  have opposite := (record_opposite all first second apart).items
  show ((s.record b a).items.map CompareItem.score).sum = -((s.record a b).items.map CompareItem.score).sum
  rw [opposite, sum_score_flip]

end Pair

/-! ## The loop over the chairs -/

/-- The judged duels of a chair. -/
def judged (s : Showdown) (a : ℕ) : List Duel := (opponents a s.pairs).map (s.judgement a)

/-- The player among the given chairs who shot everybody. -/
def shooter (s : Showdown) (chairs : List ℕ) : Option ℕ := chairs.find? fun a => shootsAll (s.judged a)

/-- The records once the given chairs have been judged. -/
def judgedTable (s : Showdown) (chairs : List ℕ) (a : ℕ) : CompareCards where
  duels := if a ∈ chairs then s.judged a else (opponents a s.pairs).map (s.duel a)
  allshoot :=
    match s.shooter chairs with
    | none => 0
    | some x => if a = x then 1 else if a ∈ s.chairIDs then -1 else 0
  fromchairid :=
    match s.shooter chairs with
    | none => 0
    | some x => if a = x then 0 else if a ∈ s.chairIDs then x else 0
  deltascore := 0
  itemscores := []
  itemscorepure := []

theorem mem_opponents {a b : ℕ} (first : a ∈ s.chairIDs) : b ∈ opponents a s.pairs ↔ b ≠ a ∧ b ∈ s.chairIDs := by
  have met := opponents_pairings (List.nodup_reverse.mpr s.chairIDs_nodup) (List.mem_reverse.mpr first)
  rw [pairs, met.mem_iff, (List.nodup_reverse.mpr s.chairIDs_nodup).mem_erase_iff, List.mem_reverse]

/-- A player who shot everybody shot each of the others. -/
theorem shoot_of_shootsAll {a b : ℕ} (first : a ∈ s.chairIDs) (everybody : shootsAll (s.judged a))
    (second : b ∈ s.chairIDs) (apart : b ≠ a) : (s.judgement a b).result.shoot = 1 := by
  rw [shootsAll, Bool.and_eq_true, decide_eq_true_eq, List.countP_eq_length] at everybody
  have member : s.judgement a b ∈ s.judged a := List.mem_map_of_mem ((mem_opponents first).mpr ⟨apart, second⟩)
  exact of_decide_eq_true (everybody.1 _ member)

/-- Only one player can have shot everybody. -/
theorem shootsAll_unique (all : s.AllComparable) {a b : ℕ} (first : a ∈ s.chairIDs) (second : b ∈ s.chairIDs)
    (mine : shootsAll (s.judged a)) (yours : shootsAll (s.judged b)) : a = b := by
  by_contra apart
  have given := shoot_of_shootsAll first mine second (Ne.symm apart)
  have received := shoot_of_shootsAll second yours first apart
  have opposite := judgement_shoot all first second apart
  omega

theorem shooter_snoc (s : Showdown) (done : List ℕ) (i : ℕ) :
    s.shooter (done ++ [i]) = (s.shooter done).or (if shootsAll (s.judged i) then some i else none) := by
  rw [shooter, shooter, List.find?_append, List.find?_singleton]

theorem mem_of_shooter {chairs : List ℕ} {x : ℕ} (found : s.shooter chairs = some x) :
    x ∈ chairs ∧ shootsAll (s.judged x) :=
  ⟨List.mem_of_find?_eq_some found, (List.find?_some found :)⟩

/-- A chair that has been judged already keeps its duels. -/
private theorem judgedTable_duels {done : List ℕ} {i k : ℕ} (other : k ≠ i) :
    (s.judgedTable (done ++ [i]) k).duels = (s.judgedTable done k).duels := by
  have same : k ∈ done ++ [i] ↔ k ∈ done := by
    rw [List.mem_append, List.mem_singleton, or_iff_left other]
  simp only [judgedTable, same]

theorem judge_judgedTable (all : s.AllComparable) {done : List ℕ} (inside : ∀ x ∈ done, x ∈ s.chairIDs) {i : ℕ}
    (chair : i ∈ s.chairIDs) (fresh : i ∉ done) :
    s.judge (s.judgedTable done) i = s.judgedTable (done ++ [i]) := by
  have raw : (s.judgedTable done i).duels.map (judgeDuel (s.selected i).specialTy) = s.judged i := by
    simp only [judgedTable, if_neg fresh, judged, List.map_map]
    rfl
  have own : (s.judgedTable (done ++ [i]) i).duels = s.judged i := by
    simp only [judgedTable, List.mem_append, List.mem_singleton, or_true, if_true]
  have more := s.shooter_snoc done i
  rw [judge, raw]
  dsimp only
  split_ifs with everybody
  · have nobody : s.shooter done = none := by
      rcases found : s.shooter done with _ | x
      · rfl
      · obtain ⟨early, shoots⟩ := mem_of_shooter found
        have same := shootsAll_unique all (inside x early) chair shoots everybody
        rw [same] at early
        exact absurd early fresh
    rw [nobody, if_pos everybody, Option.none_or] at more
    funext k
    rcases eq_or_ne k i with rfl | other
    · rw [if_pos rfl, Function.update_self]
      apply CompareCards.ext
      · exact own.symm
      · simp [judgedTable, more]
      · simp [judgedTable, more, nobody]
      · rfl
      · rfl
      · rfl
    · have kept : (s.judgedTable (done ++ [i]) k).duels = (s.judgedTable done k).duels := judgedTable_duels other
      rw [if_neg other, Function.update_of_ne other]
      split_ifs with present
      · apply CompareCards.ext
        · exact kept.symm
        · simp [judgedTable, more, other, present]
        · simp [judgedTable, more, other, present]
        · rfl
        · rfl
        · rfl
      · apply CompareCards.ext
        · exact kept.symm
        · simp [judgedTable, more, nobody, other, present]
        · simp [judgedTable, more, nobody, other, present]
        · rfl
        · rfl
        · rfl
  · rw [if_neg everybody, Option.or_none] at more
    funext k
    rcases eq_or_ne k i with rfl | other
    · rw [Function.update_self]
      apply CompareCards.ext
      · exact own.symm
      · simp only [judgedTable, more]
      · simp only [judgedTable, more]
      · rfl
      · rfl
      · rfl
    · rw [Function.update_of_ne other]
      apply CompareCards.ext
      · exact (judgedTable_duels other).symm
      · simp only [judgedTable, more]
      · simp only [judgedTable, more]
      · rfl
      · rfl
      · rfl

/-- The loop over the chairs judges all of them. -/
theorem foldl_judge (all : s.AllComparable) (rest : List ℕ) {done : List ℕ} (chairs : done ++ rest = s.chairIDs) :
    rest.foldl s.judge (s.judgedTable done) = s.judgedTable s.chairIDs := by
  induction rest generalizing done with
  | nil => rw [List.foldl_nil, ← chairs, List.append_nil]
  | cons i rest ih =>
    have distinct := s.chairIDs_nodup
    rw [← chairs] at distinct
    have fresh : i ∉ done := by
      intro early
      exact (List.nodup_append.mp distinct).2.2 i early i List.mem_cons_self rfl
    have inside : ∀ x ∈ done, x ∈ s.chairIDs := by
      intro x early
      rw [← chairs]
      exact List.mem_append_left _ early
    have chair : i ∈ s.chairIDs := by
      rw [← chairs]
      exact List.mem_append_right _ List.mem_cons_self
    rw [List.foldl_cons, judge_judgedTable all inside chair fresh]
    apply ih
    rw [List.append_assoc]
    exact chairs

end Showdown

end H5Server.S13s
