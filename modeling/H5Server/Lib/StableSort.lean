import Mathlib.Data.List.Basic
import Mathlib.Data.List.Sublists
import Mathlib.Order.Lattice

/-! # Sorting by the first best

The first element with the greatest key is taken out of a list, and again out of what is left. The elements come in
descending order, and those with one key in the order they had.
-/

namespace H5Server.Lib

variable {α β : Type*} [LinearOrder β] (key : α → β)

/-- The first element with the greatest key. -/
def firstMost (a : α) : List α → α
  | [] => a
  | b :: rest => firstMost (if key a < key b then b else a) rest

/-- Greater keys first, and equal ones in the order of the list. -/
def Ranking (list sorted : List α) : Prop :=
  sorted.Perm list ∧
    sorted.Pairwise fun a b => key b < key a ∨ key b = key a ∧ List.Sublist [a, b] list

/-- The loop, with the number of its rounds. -/
def takeMost [DecidableEq α] : ℕ → List α → List α
  | 0, _ => []
  | _ + 1, [] => []
  | n + 1, a :: rest => firstMost key a rest :: takeMost n ((a :: rest).erase (firstMost key a rest))

/-- What stands before the first best is below it, and what stands behind is not above. -/
theorem firstMost_spec (a : α) (rest : List α) :
    ∃ before after, a :: rest = before ++ firstMost key a rest :: after ∧
      (∀ b ∈ before, key b < key (firstMost key a rest)) ∧ ∀ b ∈ after, key b ≤ key (firstMost key a rest) := by
  induction rest generalizing a with
  | nil => exact ⟨[], [], rfl, by simp, by simp⟩
  | cons b rest ih =>
    rw [firstMost]
    split_ifs with less
    · obtain ⟨before, after, split, lower, upper⟩ := ih b
      refine ⟨a :: before, after, by rw [split, List.cons_append], ?_, upper⟩
      have most : key b ≤ key (firstMost key b rest) := by
        have here : b ∈ before ++ firstMost key b rest :: after := split ▸ List.mem_cons_self
        rcases List.mem_append.mp here with here | here
        · exact (lower b here).le
        · rcases List.mem_cons.mp here with same | here
          · exact (congrArg key same).le
          · exact upper b here
      exact List.forall_mem_cons.mpr ⟨less.trans_le most, lower⟩
    · obtain ⟨before, after, split, lower, upper⟩ := ih a
      cases before with
      | nil =>
        obtain ⟨same, rfl⟩ := List.cons.inj split
        refine ⟨[], b :: rest, by rw [← same, List.nil_append], by simp, ?_⟩
        exact List.forall_mem_cons.mpr ⟨same ▸ not_lt.mp less, upper⟩
      | cons c before =>
        obtain ⟨rfl, rest_eq⟩ := List.cons.inj split
        refine ⟨a :: b :: before, after, congrArg (fun rest => a :: b :: rest) rest_eq, ?_, upper⟩
        obtain ⟨first, lower⟩ := List.forall_mem_cons.mp lower
        exact List.forall_mem_cons.mpr ⟨first, List.forall_mem_cons.mpr ⟨(not_lt.mp less).trans_lt first, lower⟩⟩

variable [DecidableEq α]

theorem takeMost_ranking {n : ℕ} {list : List α} (rounds : list.length = n) : Ranking key list (takeMost key n list) := by
  induction n generalizing list with
  | zero =>
    rw [List.length_eq_zero_iff.mp rounds]
    exact ⟨.refl _, .nil⟩
  | succ n ih =>
    obtain ⟨a, rest, rfl⟩ := List.exists_cons_of_length_eq_add_one rounds
    obtain ⟨before, after, split, lower, upper⟩ := firstMost_spec key a rest
    rw [takeMost]
    generalize firstMost key a rest = most at *
    rw [split] at rounds ⊢
    have fresh : most ∉ before := fun here => lt_irrefl _ (lower most here)
    have left : (before ++ most :: after).erase most = before ++ after := by
      rw [List.erase_append_right _ fresh, List.erase_cons_head]
    have sub : (before ++ after).Sublist (before ++ most :: after) :=
      (List.sublist_cons_self most after).append_left before
    rw [left]
    have length : (before ++ after).length = n := by
      rw [List.length_append, List.length_cons] at rounds
      rw [List.length_append]
      omega
    obtain ⟨perm, sorted⟩ := ih length
    refine ⟨(perm.cons most).trans List.perm_middle.symm, List.pairwise_cons.mpr ⟨?_, ?_⟩⟩
    · intro b inside
      rcases List.mem_append.mp (perm.subset inside) with early | late
      · exact .inl (lower b early)
      · refine (upper b late).lt_or_eq.imp_right fun same => ⟨same, ?_⟩
        apply List.Sublist.trans _ (List.sublist_append_right before _)
        exact (List.singleton_sublist.mpr late).cons_cons most
    · exact sorted.imp fun either => either.imp_right fun tie => ⟨tie.1, tie.2.trans sub⟩

end H5Server.Lib
