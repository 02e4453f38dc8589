import Mathlib.Data.List.Perm.Subperm

/-! # Choices of some elements

The nested loops over places in rising order run through the sublists of one length.
-/

namespace H5Server.Lib

variable {α : Type*}

/-- The sublists of `n` elements in the order in which nested loops find them. -/
def choices : ℕ → List α → List (List α)
  | 0, _ => [[]]
  | _ + 1, [] => []
  | n + 1, a :: list => (choices n list).map (a :: ·) ++ choices (n + 1) list

theorem mem_choices {n : ℕ} {chosen list : List α} :
    chosen ∈ choices n list ↔ chosen.Sublist list ∧ chosen.length = n := by
  induction n, list using choices.induct generalizing chosen with
  | case1 list =>
    rw [choices, List.mem_singleton]
    constructor
    · rintro rfl
      exact ⟨List.nil_sublist _, rfl⟩
    · rintro ⟨-, none_⟩
      exact List.eq_nil_of_length_eq_zero none_
  | case2 n =>
    rw [choices]
    refine iff_of_false List.not_mem_nil ?_
    rintro ⟨sub, length⟩
    rw [List.sublist_nil.mp sub] at length
    exact absurd length (Nat.succ_ne_zero n).symm
  | case3 n a list first second =>
    rw [choices, List.mem_append, List.mem_map, second]
    constructor
    · rintro (⟨rest, inside, rfl⟩ | ⟨sub, length⟩)
      · obtain ⟨sub, length⟩ := first.mp inside
        exact ⟨sub.cons_cons a, congrArg Nat.succ length⟩
      · exact ⟨sub.cons a, length⟩
    · rintro ⟨sub, length⟩
      cases sub with
      | cons _ sub => exact .inr ⟨sub, length⟩
      | cons_cons _ sub => exact .inl ⟨_, first.mpr ⟨sub, Nat.succ.inj length⟩, rfl⟩

/-- Whether some choice has a property that does not depend on the order is the same for every order of the list. -/
theorem exists_choices_perm {n : ℕ} {list list' : List α} {p : List α → Prop} (perm : list.Perm list')
    (respects : ∀ chosen chosen' : List α, chosen.Perm chosen' → p chosen → p chosen') :
    (∃ chosen ∈ choices n list, p chosen) → ∃ chosen ∈ choices n list', p chosen := by
  rintro ⟨chosen, inside, holds⟩
  obtain ⟨sub, length⟩ := mem_choices.mp inside
  obtain ⟨chosen', same, sub'⟩ := sub.subperm.trans perm.subperm
  exact ⟨chosen', mem_choices.mpr ⟨sub', same.length_eq.trans length⟩, respects chosen chosen' same.symm holds⟩

theorem exists_choices_iff {n : ℕ} {list list' : List α} {p : List α → Prop} (perm : list.Perm list')
    (respects : ∀ chosen chosen' : List α, chosen.Perm chosen' → p chosen → p chosen') :
    (∃ chosen ∈ choices n list, p chosen) ↔ ∃ chosen ∈ choices n list', p chosen :=
  ⟨exists_choices_perm perm respects, exists_choices_perm perm.symm respects⟩

/-- A choice and the elements not in it are the list in another order. -/
theorem choice_append_perm [DecidableEq α] {n : ℕ} {chosen list : List α} (nodup : list.Nodup)
    (inside : chosen ∈ choices n list) : (chosen ++ list.filter (· ∉ chosen)).Perm list := by
  have sub := (mem_choices.mp inside).1
  have same : (list.filter (· ∈ chosen)).Perm chosen := by
    rw [List.perm_ext_iff_of_nodup (nodup.filter _) (sub.nodup nodup)]
    intro a
    rw [List.mem_filter, decide_eq_true_eq]
    exact and_iff_right_of_imp fun here => sub.subset here
  have parted := List.filter_append_perm (· ∈ chosen) list
  simp only [← decide_not] at parted
  exact (same.symm.append_right _).trans parted

end H5Server.Lib
