import Mathlib.Data.List.Nodup
import Mathlib.Data.List.Perm.Subperm
import Mathlib.Order.Basic
import Mathlib.Order.Lattice

/-! # Selecting again and again

The best element of a list, then the best of the others, and so on: the list in descending order. Such a list may be
used up from both ends.
-/

namespace H5Server.Lib

variable {α β : Type*} [LinearOrder β] {list : List α} {better : α → α → Bool} {key : α → β}

/-- One round of a scan that replaces the element it keeps by a better one. -/
def keepBetter (better : α → α → Bool) (kept : Option α) (a : α) : Option α :=
  match kept with
  | none => some a
  | some b => if better a b then some a else some b

def select (better : α → α → Bool) (list : List α) : Option α := list.foldl (keepBetter better) none

/-- Some selections, each among the elements that are not selected yet. -/
def selections [DecidableEq α] (better : α → α → Bool) (list : List α) : ℕ → List (Option α)
  | 0 => []
  | n + 1 =>
    let chosen := selections better list n
    chosen ++ [select better (list.filter fun a => some a ∉ chosen)]

/-! ## One selection -/

/-- Only better elements have a greater key. -/
def Ranks (better : α → α → Bool) (key : α → β) (list : List α) : Prop :=
  ∀ a ∈ list, ∀ b ∈ list, a ≠ b → (better a b = true ↔ key b < key a)

theorem Ranks.sublist {part : List α} (ranks : Ranks better key list) (sub : part ⊆ list) : Ranks better key part :=
  fun a here b there => ranks a (sub here) b (sub there)

theorem foldl_keepBetter_mem (better : α → α → Bool) (list : List α) (b : α) :
    ∃ a ∈ b :: list, list.foldl (keepBetter better) (some b) = some a := by
  induction list generalizing b with
  | nil => exact ⟨b, List.mem_cons_self, rfl⟩
  | cons c list ih =>
    rw [List.foldl_cons, keepBetter]
    split_ifs
    · obtain ⟨a, inside, result⟩ := ih c
      exact ⟨a, List.mem_cons_of_mem _ inside, result⟩
    · obtain ⟨a, inside, result⟩ := ih b
      refine ⟨a, ?_, result⟩
      rcases List.mem_cons.mp inside with rfl | inside
      · exact List.mem_cons_self
      · exact List.mem_cons_of_mem _ (List.mem_cons_of_mem _ inside)

theorem exists_select (better : α → α → Bool) (some_ : list ≠ []) : ∃ a ∈ list, select better list = some a := by
  obtain ⟨b, list, rfl⟩ := List.exists_cons_of_ne_nil some_
  exact foldl_keepBetter_mem better list b

theorem select_mem {a : α} (result : select better list = some a) : a ∈ list := by
  cases list with
  | nil => cases result
  | cons b list =>
    obtain ⟨c, inside, found⟩ := foldl_keepBetter_mem better list b
    exact Option.some.inj (found.symm.trans result) ▸ inside

theorem foldl_keepBetter_most {a b : α} (nodup : (b :: list).Nodup) (ranks : Ranks better key (b :: list))
    (result : list.foldl (keepBetter better) (some b) = some a) : ∀ c ∈ b :: list, key c ≤ key a := by
  induction list generalizing b with
  | nil =>
    cases result
    exact fun c inside => (congrArg key (List.mem_singleton.mp inside)).le
  | cons d list ih =>
    obtain ⟨first, rest⟩ := List.nodup_cons.mp nodup
    have better_iff := ranks d (List.mem_cons_of_mem _ List.mem_cons_self) b List.mem_cons_self
      fun same => first (same ▸ List.mem_cons_self)
    rw [List.foldl_cons, keepBetter] at result
    split_ifs at result with more
    · have all := ih rest (ranks.sublist (List.subset_cons_self _ _)) result
      refine List.forall_mem_cons.mpr ⟨?_, all⟩
      exact (better_iff.mp more).le.trans (all d List.mem_cons_self)
    · have all := ih (nodup.sublist ((List.sublist_cons_self _ _).cons_cons _))
        (ranks.sublist (List.cons_subset_cons _ (List.subset_cons_self _ _))) result
      have least : key d ≤ key b := le_of_not_gt fun less => more (better_iff.mpr less)
      have last := all b List.mem_cons_self
      refine List.forall_mem_cons.mpr ⟨last, List.forall_mem_cons.mpr ⟨least.trans last, ?_⟩⟩
      exact fun c inside => all c (List.mem_cons_of_mem _ inside)

/-- What is selected has the greatest key. -/
theorem select_most {a : α} (nodup : list.Nodup) (ranks : Ranks better key list) (result : select better list = some a) :
    ∀ c ∈ list, key c ≤ key a := by
  cases list with
  | nil => exact fun c inside => absurd inside List.not_mem_nil
  | cons b list => exact foldl_keepBetter_most nodup ranks result

/-! ## Using up a list from both ends -/

/-- The first or the last element, and the others. -/
def takeEnd (front : Bool) (list : List α) : Option (α × List α) :=
  if front then list.head?.map fun a => (a, list.tail) else list.getLast?.map fun a => (a, list.dropLast)

/-- An element at an end of a list. -/
def joinEnd (front : Bool) (a : α) (rest : List α) : List α := if front then a :: rest else rest ++ [a]

theorem exists_joinEnd (front : Bool) (some_ : list ≠ []) : ∃ a rest, list = joinEnd front a rest := by
  cases front with
  | true => exact List.exists_cons_of_ne_nil some_
  | false => exact ⟨_, _, (List.dropLast_append_getLast some_).symm⟩

theorem takeEnd_joinEnd (front : Bool) (a : α) (rest : List α) :
    takeEnd front (joinEnd front a rest) = some (a, rest) := by
  cases front with
  | true => rfl
  | false => simp [takeEnd, joinEnd]

theorem joinEnd_perm (front : Bool) (a : α) (rest : List α) : (joinEnd front a rest).Perm (a :: rest) := by
  cases front with
  | true => exact .refl _
  | false => exact List.perm_append_singleton a rest

theorem map_joinEnd {γ : Type*} (f : α → γ) (front : Bool) (a : α) (rest : List α) :
    (joinEnd front a rest).map f = joinEnd front (f a) (rest.map f) := by
  cases front with
  | true => rfl
  | false => exact List.map_append

/-! ## All selections -/

theorem some_mem {a : α} {chosen : List α} : some a ∈ chosen.map some ↔ a ∈ chosen := by simp

variable [DecidableEq α]

/-- As long as there are elements left, the selections are distinct elements of the list. -/
theorem exists_selections (better : α → α → Bool) (nodup : list.Nodup) {n : ℕ} (enough : n ≤ list.length) :
    ∃ chosen : List α, selections better list n = chosen.map some ∧ chosen.length = n ∧ chosen.Nodup ∧
      chosen ⊆ list := by
  induction n with
  | zero => exact ⟨[], rfl, rfl, List.nodup_nil, List.nil_subset _⟩
  | succ n ih =>
    obtain ⟨chosen, result, length, distinct, sub⟩ := ih (Nat.le_of_succ_le enough)
    have left : list.filter (fun a => some a ∉ chosen.map some) ≠ [] := by
      intro none_
      have all : list ⊆ chosen := fun a inside => by
        have taken := List.filter_eq_nil_iff.mp none_ a inside
        rwa [decide_eq_true_eq, not_not, some_mem] at taken
      have many := (List.subperm_of_subset nodup all).length_le
      omega
    obtain ⟨a, inside, selected⟩ := exists_select better left
    obtain ⟨here, other⟩ := List.mem_filter.mp inside
    rw [decide_eq_true_eq, some_mem] at other
    refine ⟨chosen ++ [a], ?_, ?_, ?_, ?_⟩
    · rw [selections, result, selected, List.map_append, List.map_singleton]
    · rw [List.length_append, length, List.length_singleton]
    · exact distinct.append (List.nodup_singleton a) (List.disjoint_singleton.mpr other)
    · exact List.append_subset.mpr ⟨sub, fun b last => List.mem_singleton.mp last ▸ here⟩

/-- As many selections as there are elements are all of them. -/
theorem selections_perm (better : α → α → Bool) (nodup : list.Nodup) :
    ∃ chosen : List α, selections better list list.length = chosen.map some ∧ chosen.Perm list := by
  obtain ⟨chosen, result, length, distinct, sub⟩ := exists_selections better nodup (Nat.le_refl _)
  exact ⟨chosen, result, (List.subperm_of_subset distinct sub).perm_of_length_le (Nat.le_of_eq length.symm)⟩

/-- The selections come in descending order, and what is left is below them. -/
theorem selections_sorted (nodup : list.Nodup) (ranks : Ranks better key list) {n : ℕ} {chosen : List α}
    (result : selections better list n = chosen.map some) :
    chosen.Pairwise (fun a b => key b ≤ key a) ∧ ∀ a ∈ chosen, ∀ b ∈ list, b ∉ chosen → key b ≤ key a := by
  induction n generalizing chosen with
  | zero =>
    rw [selections, eq_comm, List.map_eq_nil_iff] at result
    rw [result]
    exact ⟨List.Pairwise.nil, fun a inside => absurd inside List.not_mem_nil⟩
  | succ n ih =>
    rw [selections, eq_comm, List.map_eq_append_iff] at result
    obtain ⟨front, last, rfl, before, single⟩ := result
    obtain ⟨a, rfl, selected⟩ := List.map_eq_singleton_iff.mp single
    obtain ⟨sorted, below⟩ := ih before.symm
    have most := select_most (nodup.filter _) (ranks.sublist List.filter_sublist.subset) selected.symm
    have left {b : α} (here : b ∈ list) (other : b ∉ front) :
        b ∈ list.filter fun a => some a ∉ selections better list n := by
      rw [List.mem_filter, decide_eq_true_eq, ← before, some_mem]
      exact ⟨here, other⟩
    obtain ⟨here, other⟩ := List.mem_filter.mp (select_mem selected.symm)
    rw [decide_eq_true_eq, ← before, some_mem] at other
    constructor
    · refine List.pairwise_append.mpr ⟨sorted, List.pairwise_singleton _ _, fun c inside d last => ?_⟩
      rw [List.mem_singleton.mp last]
      exact below c inside a here other
    · intro c inside b there unused
      have unused' : b ∉ front := fun taken => unused (List.mem_append_left _ taken)
      rcases List.mem_append.mp inside with inside | last
      · exact below c inside b there unused'
      · rw [List.mem_singleton.mp last]
        exact most b (left there unused')

end H5Server.Lib
