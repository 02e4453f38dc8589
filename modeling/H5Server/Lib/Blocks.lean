import Mathlib.Algebra.Group.Nat.Even
import Mathlib.Algebra.GroupWithZero.Nat
import Mathlib.Algebra.Order.BigOperators.Group.List
import Mathlib.Algebra.Order.Group.Nat
import Mathlib.Data.List.Dedup
import Mathlib.Data.List.Perm.Basic
import Mathlib.Data.List.Perm.Subperm
import Mathlib.Data.List.SplitBy
import Mathlib.Tactic.Cases

/-! # Blocks of equal letters

A word is cut into maximal blocks of one letter. Given the blocks that are to stand in the middle, the remaining
letters can be put around them in blocks of one or two.
-/

namespace H5Server.Lib

variable {α β : Type*}

/-- The word of the given blocks, each a letter and a length. -/
def expand (runs : List (α × ℕ)) : List α := runs.flatMap fun run => List.replicate run.2 run.1

/-- No block is empty, and neighbours have different letters. -/
structure Proper (runs : List (α × ℕ)) : Prop where
  some_ : ∀ run ∈ runs, 0 < run.2
  apart : runs.IsChain fun run run' => run.1 ≠ run'.1

section Words

variable {runs : List (α × ℕ)}

@[simp] theorem expand_nil : expand ([] : List (α × ℕ)) = [] := rfl

@[simp] theorem expand_cons (run : α × ℕ) (runs : List (α × ℕ)) :
    expand (run :: runs) = List.replicate run.2 run.1 ++ expand runs := rfl

theorem expand_append (runs runs' : List (α × ℕ)) : expand (runs ++ runs') = expand runs ++ expand runs' :=
  List.flatMap_append

theorem length_expand : (expand runs).length = (runs.map (·.2)).sum := by
  induction runs with
  | nil => rfl
  | cons run runs ih => rw [expand_cons, List.length_append, List.length_replicate, ih, List.map_cons, List.sum_cons]

/-- Every word comes from its blocks. -/
theorem exists_runs [DecidableEq α] (word : List α) : ∃ runs, Proper runs ∧ expand runs = word := by
  induction word with
  | nil => exact ⟨[], ⟨nofun, List.isChain_nil⟩, rfl⟩
  | cons a word ih =>
    obtain ⟨runs, ⟨some_, apart⟩, rfl⟩ := ih
    cases runs with
    | nil => exact ⟨[(a, 1)], ⟨by simp, List.isChain_singleton _⟩, rfl⟩
    | cons run runs =>
      rcases eq_or_ne a run.1 with rfl | other
      · refine ⟨(run.1, run.2 + 1) :: runs, ⟨?_, ?_⟩, ?_⟩
        · exact List.forall_mem_cons.mpr ⟨Nat.succ_pos _, (List.forall_mem_cons.mp some_).2⟩
        · rw [List.isChain_cons] at apart ⊢
          exact apart
        · rw [expand_cons, List.replicate_succ]
          rfl
      · refine ⟨(a, 1) :: run :: runs, ⟨List.forall_mem_cons.mpr ⟨Nat.one_pos, some_⟩, ?_⟩, rfl⟩
        exact List.isChain_cons_cons.mpr ⟨other, apart⟩

/-- Cutting by a key is cutting the keys. -/
theorem splitBy_map (r : α → α → Bool) (f : β → α) (items : List β) :
    (items.map f).splitBy r = (items.splitBy fun x y => r (f x) (f y)).map (List.map f) := by
  obtain ⟨flat, none_, inside, between⟩ := List.splitBy_eq_iff.mp
    (rfl : items.splitBy (fun x y => r (f x) (f y)) = items.splitBy fun x y => r (f x) (f y))
  refine List.splitBy_eq_iff.mpr ⟨?_, ?_, ?_, ?_⟩
  · rw [← List.map_flatten, ← flat]
  · intro present
    obtain ⟨block, there, eq⟩ := List.mem_map.mp present
    rw [List.map_eq_nil_iff] at eq
    exact none_ (eq ▸ there)
  · intro m present
    obtain ⟨block, there, rfl⟩ := List.mem_map.mp present
    exact (List.isChain_map _).mpr (inside block there)
  · rw [List.isChain_map]
    refine between.imp fun a b ends => ?_
    obtain ⟨ha, hb, differ⟩ := ends
    refine ⟨by simpa using ha, by simpa using hb, ?_⟩
    rw [List.getLast_map, List.head_map]
    exact differ

/-- The blocks of a word are found again. -/
theorem splitBy_expand [DecidableEq α] (proper : Proper runs) :
    (expand runs).splitBy (fun a b => a == b) = runs.map fun run => List.replicate run.2 run.1 := by
  refine List.splitBy_eq_iff.mpr ⟨?_, ?_, ?_, ?_⟩
  · rw [expand, List.flatMap_def]
  · intro present
    obtain ⟨run, there, eq⟩ := List.mem_map.mp present
    rw [List.replicate_eq_nil_iff] at eq
    exact absurd eq (proper.some_ run there).ne'
  · intro m present
    obtain ⟨run, there, rfl⟩ := List.mem_map.mp present
    exact (List.isChain_replicate_of_rel _ (beq_self_eq_true _))
  · rw [List.isChain_map]
    refine proper.apart.imp_of_mem_imp fun run run' there there' differ => ?_
    have full := (proper.some_ run there).ne'
    have full' := (proper.some_ run' there').ne'
    refine ⟨by rwa [ne_eq, List.replicate_eq_nil_iff], by rwa [ne_eq, List.replicate_eq_nil_iff], ?_⟩
    rw [List.getLast_replicate, List.head_replicate]
    exact beq_false_of_ne differ

/-- The blocks of the items, by their keys. -/
theorem splitBy_key [DecidableEq α] {f : β → α} {items : List β} (proper : Proper runs)
    (word : expand runs = items.map f) :
    (items.splitBy fun x y => f x == f y).map (List.map f) = runs.map fun run => List.replicate run.2 run.1 := by
  rw [← splitBy_expand proper, word, splitBy_map]

/-! ## Counts -/

section Counts

variable [DecidableEq α]

theorem count_expand (a : α) : (expand runs).count a = ((runs.filter (·.1 = a)).map (·.2)).sum := by
  induction runs with
  | nil => rfl
  | cons run runs ih =>
    rw [expand_cons, List.count_append, List.count_replicate, ih]
    rcases eq_or_ne run.1 a with same | other
    · rw [List.filter_cons_of_pos (by simpa using same), if_pos (by simpa using same), List.map_cons, List.sum_cons]
    · rw [List.filter_cons_of_neg (by simpa using other), if_neg (by simpa using other), Nat.zero_add]

theorem le_count_expand {run : α × ℕ} (present : run ∈ runs) : run.2 ≤ (expand runs).count run.1 := by
  rw [count_expand]
  exact List.single_le_sum (fun _ _ => Nat.zero_le _) _
    (List.mem_map_of_mem (List.mem_filter.mpr ⟨present, by simp⟩))

theorem count_expand_map {letters : List α} (nodup : letters.Nodup) (size : α → ℕ) (a : α) :
    (expand (letters.map fun b => (b, size b))).count a = if a ∈ letters then size a else 0 := by
  induction letters with
  | nil => rfl
  | cons b letters ih =>
    obtain ⟨fresh, nodup⟩ := List.nodup_cons.mp nodup
    rw [List.map_cons, expand_cons, List.count_append, ih nodup, List.count_replicate]
    rcases eq_or_ne b a with rfl | other
    · rw [if_pos (beq_self_eq_true b), if_neg fresh, if_pos List.mem_cons_self, Nat.add_zero]
    · rw [if_neg (by simpa using other), Nat.zero_add]
      refine if_congr ?_ rfl rfl
      rw [List.mem_cons, or_iff_right other.symm]

end Counts

end Words

/-! ## Arrangements -/

section Around

variable [DecidableEq α] {middle : List (α × ℕ)} {t b : α}

/-- Before the blocks of the middle stand up to two of every other letter, and behind them what is left. -/
theorem exists_around (rest : List α) (proper : Proper middle) (some_ : middle ≠ []) (first : ∀ run ∈ middle.head?, run.1 = t)
    (last : ∀ run ∈ middle.getLast?, run.1 = b) (four : ∀ a, rest.count a ≤ 4) (top : rest.count t ≤ 2)
    (bottom : rest.count b ≤ 2) (differ : t = b → rest.count t = 0) :
    ∃ front back, Proper (front ++ middle ++ back) ∧ (expand front ++ expand back).Perm rest
      ∧ ∀ run ∈ front ++ back, run.2 ≤ 2 ∧ (Even (rest.count run.1) → run.2 = 2) := by
  have nodup : rest.dedup.Nodup := List.nodup_dedup rest
  have count_pos {a : α} : a ∈ rest.dedup ↔ 0 < rest.count a := by rw [List.mem_dedup, List.count_pos_iff]
  refine ⟨(rest.dedup.filter (· ≠ t)).map fun a => (a, min (rest.count a) 2),
    (rest.dedup.filter fun a => a = t ∨ 2 < rest.count a).map fun a =>
      (a, if a = t then rest.count a else rest.count a - 2), ⟨?_, ?_⟩, ?_, ?_⟩
  · intro run present
    rw [List.mem_append, List.mem_append, List.mem_map, List.mem_map] at present
    rcases present with (⟨a, there, rfl⟩ | inside) | ⟨a, there, rfl⟩
    · have := count_pos.mp (List.mem_filter.mp there).1
      exact lt_min this Nat.two_pos
    · exact proper.some_ run inside
    · obtain ⟨there, either⟩ := List.mem_filter.mp there
      have positive := count_pos.mp there
      rcases of_decide_eq_true either with rfl | many
      · rwa [if_pos rfl]
      · dsimp only
        split <;> omega
  · have apart {letters : List α} {size : α → ℕ} (nodup : letters.Nodup) :
        (letters.map fun a => (a, size a)).IsChain fun run run' => run.1 ≠ run'.1 := by
      rw [List.isChain_map]
      exact nodup.isChain
    rw [List.append_assoc, List.isChain_append, List.isChain_append]
    refine ⟨apart (nodup.filter _), ⟨proper.apart, apart (nodup.filter _), ?_⟩, ?_⟩
    · intro run there run' there'
      rw [last run there]
      obtain ⟨a, inside, rfl⟩ := List.mem_map.mp (List.mem_of_mem_head? there')
      obtain ⟨inside, either⟩ := List.mem_filter.mp inside
      have positive := count_pos.mp inside
      rintro rfl
      rcases of_decide_eq_true either with same | many
      · have := differ same.symm
        rw [same] at positive
        omega
      · omega
    · intro run there run' there'
      obtain ⟨a, inside, rfl⟩ := List.mem_map.mp (List.mem_of_mem_getLast? there)
      rw [List.head?_append_of_ne_nil _ some_] at there'
      rw [first run' there']
      exact of_decide_eq_true (List.mem_filter.mp inside).2
  · rw [List.perm_iff_count]
    intro a
    have before : a ∈ rest.dedup.filter (· ≠ t) ↔ 0 < rest.count a ∧ a ≠ t := by
      rw [List.mem_filter, count_pos, decide_eq_true_eq]
    have behind : a ∈ rest.dedup.filter (fun a => a = t ∨ 2 < rest.count a)
        ↔ 0 < rest.count a ∧ (a = t ∨ 2 < rest.count a) := by
      rw [List.mem_filter, count_pos, decide_eq_true_eq]
    rw [List.count_append, count_expand_map (nodup.filter _), count_expand_map (nodup.filter _), if_congr before rfl rfl,
      if_congr behind rfl rfl]
    have := four a
    rcases (rest.count a).eq_zero_or_pos with zero | positive
    · rw [if_neg fun both => both.1.ne' zero, if_neg fun both => both.1.ne' zero, zero]
    rcases eq_or_ne a t with rfl | other
    · rw [if_neg fun both => both.2 rfl, if_pos ⟨positive, .inl rfl⟩, if_pos rfl, Nat.zero_add]
    · rw [if_pos ⟨positive, other⟩, if_neg other]
      rcases le_or_gt (rest.count a) 2 with few | many
      · rw [if_neg fun both => both.2.elim other few.not_gt, min_eq_left few, Nat.add_zero]
      · rw [if_pos ⟨positive, .inr many⟩]
        omega
  · intro run present
    rw [List.mem_append, List.mem_map, List.mem_map] at present
    rcases present with ⟨a, there, rfl⟩ | ⟨a, there, rfl⟩
    · have positive := count_pos.mp (List.mem_filter.mp there).1
      refine ⟨min_le_right _ _, fun even => ?_⟩
      obtain ⟨half, eq⟩ := even
      dsimp only at eq ⊢
      omega
    · obtain ⟨there, either⟩ := List.mem_filter.mp there
      have positive := count_pos.mp there
      have := four a
      dsimp only
      rcases eq_or_ne a t with rfl | other
      · rw [if_pos rfl]
        refine ⟨top, fun even => ?_⟩
        obtain ⟨half, eq⟩ := even
        omega
      · rw [if_neg other]
        have many := (of_decide_eq_true either).resolve_left other
        refine ⟨by omega, fun even => ?_⟩
        obtain ⟨half, eq⟩ := even
        omega

end Around

/-! ## Keys -/

/-- A word that rearranges the keys comes from rearranged items. -/
theorem exists_perm_of_map {f : β → α} {items : List β} {word : List α} (perm : (items.map f).Perm word) :
    ∃ items' : List β, items'.Perm items ∧ items'.map f = word := by
  generalize keys : items.map f = start at perm
  induction perm generalizing items with
  | nil => exact ⟨items, .refl _, keys⟩
  | cons a _ ih =>
    obtain ⟨x, items, rfl, rfl, same⟩ := List.map_eq_cons_iff.mp keys
    obtain ⟨items', perm, rfl⟩ := ih same
    exact ⟨x :: items', perm.cons x, rfl⟩
  | swap a b word =>
    obtain ⟨x, items, rfl, rfl, same⟩ := List.map_eq_cons_iff.mp keys
    obtain ⟨y, items, rfl, rfl, rfl⟩ := List.map_eq_cons_iff.mp same
    exact ⟨y :: x :: items, .swap x y items, rfl⟩
  | trans _ _ ih ih' =>
    obtain ⟨items', perm, same⟩ := ih keys
    obtain ⟨items'', perm', same'⟩ := ih' same
    exact ⟨items'', perm'.trans perm, same'⟩

end H5Server.Lib
