import Mathlib.Data.List.Perm.Subperm
import Mathlib.Data.Multiset.AddSub

/-! # Removing entries by overwriting them

An array keeps its length while entries are taken out of it: the first occurrence of what is taken is
overwritten by a mark, and the entries that are not marked remain. Nothing is lost and nothing is taken
that is not there, unless the mark itself is asked for.
-/

namespace H5Server.Lib

variable {α : Type*} [DecidableEq α] (mark : α)

/-- Overwrite the first occurrence of an entry. -/
def strike (items : List α) (item : α) : Option (List α) :=
  if item ∈ items then some (items.replace item mark) else none

def strikeAll (items taken : List α) : Option (List α) := taken.foldlM (strike mark) items

/-- What is left. -/
def unmarked (items : List α) : List α := items.filter (· ≠ mark)

variable {mark}

theorem unmarked_eq_self {items : List α} (clean : mark ∉ items) : unmarked mark items = items := by
  rw [unmarked, List.filter_eq_self]
  exact fun item present => decide_eq_true fun same => clean (same ▸ present)

theorem mark_notMem_unmarked (items : List α) : mark ∉ unmarked mark items := fun present =>
  of_decide_eq_true (List.mem_filter.mp present).2 rfl

theorem ne_of_mem_unmarked {items : List α} {item : α} (present : item ∈ unmarked mark items) : item ≠ mark :=
  of_decide_eq_true (List.mem_filter.mp present).2

theorem perm_unmarked_replace {items : List α} {item : α} (proper : item ≠ mark) (present : item ∈ items) :
    (unmarked mark items).Perm (item :: unmarked mark (items.replace item mark)) := by
  induction items with
  | nil => contradiction
  | cons head rest ih =>
    rcases eq_or_ne head item with rfl | other
    · rw [List.replace_cons_self, unmarked, unmarked, List.filter_cons, List.filter_cons,
        if_pos (decide_eq_true proper), if_neg (by simp)]
    · have later : item ∈ rest := (List.mem_cons.mp present).resolve_left other.symm
      have step : (head :: rest).replace item mark = head :: rest.replace item mark := by
        rw [List.replace_cons, beq_false_of_ne other.symm]
      rw [step, unmarked, unmarked, List.filter_cons, List.filter_cons]
      split_ifs
      · exact ((ih later).cons head).trans (.swap item head _)
      · exact ih later

theorem strike_eq_some {items rest : List α} {item : α} (struck : strike mark items item = some rest) :
    item ∈ items ∧ rest = items.replace item mark := by
  obtain ⟨present, eq⟩ := Option.ite_none_right_eq_some.mp struck
  exact ⟨present, (Option.some.inj eq).symm⟩

theorem strike_perm {items rest : List α} {item : α} (proper : item ≠ mark)
    (struck : strike mark items item = some rest) : (unmarked mark items).Perm (item :: unmarked mark rest) := by
  obtain ⟨present, rfl⟩ := strike_eq_some struck
  exact perm_unmarked_replace proper present

theorem strike_length {items rest : List α} {item : α} (struck : strike mark items item = some rest) :
    rest.length = items.length := by
  obtain ⟨_, rfl⟩ := strike_eq_some struck
  exact List.length_replace

theorem replace_self (items : List α) (item : α) : items.replace item item = items := by
  induction items with
  | nil => rfl
  | cons head rest ih =>
    rw [List.replace_cons]
    split
    · rename_i same
      rw [eq_of_beq same]
    · rw [ih]

/-- What is taken, up to marks, and what is left make up what there was. -/
theorem strikeAll_unmarked_perm {items rest taken : List α} (struck : strikeAll mark items taken = some rest) :
    (unmarked mark items).Perm (unmarked mark taken ++ unmarked mark rest) := by
  induction taken generalizing items with
  | nil =>
    obtain rfl := Option.some.inj struck
    exact .refl _
  | cons item later ih =>
    rw [strikeAll, List.foldlM_cons] at struck
    obtain ⟨middle, first, tail⟩ := Option.bind_eq_some_iff.mp struck
    have after := ih tail
    rcases eq_or_ne item mark with rfl | proper
    · obtain ⟨_, rfl⟩ := strike_eq_some first
      rw [replace_self] at after
      rwa [unmarked, unmarked, List.filter_cons, if_neg (by simp)]
    · rw [show unmarked mark (item :: later) = item :: unmarked mark later from
        List.filter_cons_of_pos (decide_eq_true proper)]
      exact (strike_perm proper first).trans (after.cons item)

/-- What is taken and what is left make up what there was. -/
theorem strikeAll_perm {items rest taken : List α} (proper : mark ∉ taken)
    (struck : strikeAll mark items taken = some rest) :
    (unmarked mark items).Perm (taken ++ unmarked mark rest) := by
  have perm := strikeAll_unmarked_perm struck
  rwa [unmarked_eq_self proper] at perm

theorem eq_or_mem_of_mem_replace {items : List α} {item other : α} (present : other ∈ items.replace item mark) :
    other = mark ∨ other ∈ items := by
  induction items with
  | nil => exact .inr present
  | cons head rest ih =>
    rw [List.replace_cons] at present
    split at present
    · rcases List.mem_cons.mp present with new | old
      · exact .inl new
      · exact .inr (List.mem_cons_of_mem head old)
    · rcases List.mem_cons.mp present with same | later
      · exact .inr (same ▸ List.mem_cons_self)
      · exact (ih later).imp_right (List.mem_cons_of_mem head)

theorem strikeAll_subset {items rest taken : List α} (struck : strikeAll mark items taken = some rest) :
    unmarked mark rest ⊆ unmarked mark items := by
  induction taken generalizing items with
  | nil => exact (Option.some.inj struck) ▸ List.Subset.refl _
  | cons item later ih =>
    rw [strikeAll, List.foldlM_cons] at struck
    obtain ⟨middle, first, tail⟩ := Option.bind_eq_some_iff.mp struck
    obtain ⟨_, rfl⟩ := strike_eq_some first
    intro other present
    have present := ih tail present
    have proper := ne_of_mem_unmarked present
    have there := (eq_or_mem_of_mem_replace (List.mem_of_mem_filter present)).resolve_left proper
    exact List.mem_filter.mpr ⟨there, decide_eq_true proper⟩

theorem strikeAll_length {items rest taken : List α} (struck : strikeAll mark items taken = some rest) :
    rest.length = items.length := by
  induction taken generalizing items with
  | nil => exact congrArg List.length (Option.some.inj struck).symm
  | cons item later ih =>
    rw [strikeAll, List.foldlM_cons] at struck
    obtain ⟨middle, first, tail⟩ := Option.bind_eq_some_iff.mp struck
    exact (ih tail).trans (strike_length first)

theorem mark_mem_replace {items : List α} {item : α} (present : item ∈ items) : mark ∈ items.replace item mark := by
  induction items with
  | nil => contradiction
  | cons head rest ih =>
    rw [List.replace_cons]
    split
    · exact List.mem_cons_self
    · rename_i other
      rcases List.mem_cons.mp present with rfl | later
      · simp at other
      · exact List.mem_cons_of_mem head (ih later)

/-- Among marks, entries can be taken exactly if those that are not marks are there: a mark can always be taken. -/
theorem strikeAll_isSome_of_mark {items taken : List α} (marked : mark ∈ items) :
    (strikeAll mark items taken).isSome ↔ (unmarked mark taken).Subperm (unmarked mark items) := by
  induction taken generalizing items with
  | nil => exact iff_of_true rfl List.nil_subperm
  | cons item later ih =>
    rw [strikeAll, List.foldlM_cons]
    rcases eq_or_ne item mark with rfl | proper
    · rw [strike, if_pos marked, replace_self,
        show unmarked item (item :: later) = unmarked item later from List.filter_cons_of_neg (by simp)]
      exact ih marked
    · rw [show unmarked mark (item :: later) = item :: unmarked mark later from
        List.filter_cons_of_pos (decide_eq_true proper)]
      rcases em (item ∈ items) with present | absent
      · rw [strike, if_pos present, (perm_unmarked_replace proper present).subperm_left, List.subperm_cons]
        exact ih (mark_mem_replace present)
      · rw [strike, if_neg absent]
        refine iff_of_false Bool.false_ne_true fun inside => ?_
        exact absurd (List.mem_filter.mp (inside.subset List.mem_cons_self)).1 absent

/-- Where nothing is marked yet, a mark cannot be taken first. -/
theorem strikeAll_isSome_iff_head {items taken : List α} (clean : mark ∉ items) :
    (strikeAll mark items taken).isSome ↔
      taken.head? ≠ some mark ∧ (unmarked mark taken).Subperm (unmarked mark items) := by
  cases taken with
  | nil => exact iff_of_true rfl ⟨nofun, List.nil_subperm⟩
  | cons item later =>
    rw [strikeAll, List.foldlM_cons, List.head?_cons]
    rcases eq_or_ne item mark with rfl | proper
    · rw [strike, if_neg clean]
      exact iff_of_false Bool.false_ne_true fun both => both.1 rfl
    · rw [show unmarked mark (item :: later) = item :: unmarked mark later from
        List.filter_cons_of_pos (decide_eq_true proper)]
      rw [and_iff_right fun same => proper (Option.some.inj same)]
      rcases em (item ∈ items) with present | absent
      · rw [strike, if_pos present, (perm_unmarked_replace proper present).subperm_left, List.subperm_cons]
        exact strikeAll_isSome_of_mark (mark_mem_replace present)
      · rw [strike, if_neg absent]
        refine iff_of_false Bool.false_ne_true fun inside => ?_
        exact absurd (List.mem_filter.mp (inside.subset List.mem_cons_self)).1 absent

/-- Entries that are not marks can be taken exactly if all of them are there. -/
theorem strikeAll_isSome_iff {items taken : List α} (proper : mark ∉ taken)
    (clean : mark ∉ items) : (strikeAll mark items taken).isSome ↔ taken.Subperm items := by
  rw [strikeAll_isSome_iff_head clean, unmarked_eq_self proper, unmarked_eq_self clean]
  exact and_iff_right fun first => proper (List.mem_of_mem_head? first)

end H5Server.Lib
