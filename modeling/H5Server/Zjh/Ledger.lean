import H5Server.Zjh.GameProcess
import Mathlib.Algebra.Order.BigOperators.Group.Finset
import Mathlib.Algebra.Order.BigOperators.Group.List
import Mathlib.Tactic.Ring

/-! # The stakes of a round

What holds of the money of every seat, and how a bet, a lost comparison and the end of the round change it.
-/

namespace H5Server.Zjh

open Lib

/-- The money of a seat: whether somebody sits there, whether he is out, his stake and bets, and what has been
written for him. -/
structure Seat (r : Round) (i : Chair) (exist out : Bool) (tableScore : ℤ) (bets writes : List ℤ) : Prop where
  absent : r.players i = false → exist = false ∧ out = false ∧ tableScore = 0
  bounds : r.players i = true → r.cellScore ≤ tableScore ∧ tableScore ≤ r.userScore i
  stays : r.players i = true → out = false → exist = true ∧ tableScore = r.cellScore + bets.sum
  bets : ∀ s ∈ bets, 0 ≤ s
  writes : writes = if out = true ∧ r.isAndroid i = false then [-tableScore] else []

namespace Seat

variable {r : Round} {i : Chair} {exist out : Bool} {tableScore s z : ℤ} {bets writes : List ℤ}

theorem bet (seat : Seat r i exist false tableScore bets writes) (plays : r.players i = true) (nonneg : 0 ≤ s)
    (covered : tableScore + s ≤ r.userScore i) : Seat r i exist false (tableScore + s) (bets ++ [s]) writes where
  absent away := by rw [plays] at away; cases away
  bounds _ := ⟨by have := (seat.bounds plays).1; omega, covered⟩
  stays _ _ := by
    obtain ⟨here, stake⟩ := seat.stays plays rfl
    rw [List.sum_append, List.sum_singleton, stake]
    exact ⟨here, by ring⟩
  bets b present := by
    rcases List.mem_append.mp present with old | new
    · exact seat.bets b old
    · rw [List.mem_singleton.mp new]
      exact nonneg
  writes := seat.writes

/-- A player who is out gets back at most what he has bet. -/
theorem drop (seat : Seat r i exist false tableScore bets writes) (plays : r.players i = true) (nonneg : 0 ≤ z)
    (covered : z ≤ bets.sum) :
    Seat r i exist true (tableScore - z) bets (writes ++ if r.isAndroid i then [] else [-(tableScore - z)]) where
  absent away := by rw [plays] at away; cases away
  bounds _ := by
    have stake := (seat.stays plays rfl).2
    have := seat.bounds plays
    omega
  stays _ outs := by cases outs
  bets := seat.bets
  writes := by
    rw [seat.writes, if_neg fun both => Bool.false_ne_true both.1, List.nil_append]
    cases r.isAndroid i
    · rfl
    · rfl

/-- A player who is out may leave. -/
theorem leave (seat : Seat r i exist true tableScore bets writes) : Seat r i false true tableScore bets writes where
  absent away := ⟨rfl, (seat.absent away).2⟩
  bounds := seat.bounds
  stays _ outs := by cases outs
  bets := seat.bets
  writes := seat.writes

end Seat

/-- The seats are in order and the stakes add up. -/
def Ledger (r : Round) (t : Table) : Prop :=
  (∀ i, Seat r i (t.existUser i) (t.out i) (t.tableScore i) (t.betinfo i) (t.writes i))
    ∧ t.tableAllScore = ∑ i, t.tableScore i

/-- Who is out stays out, and his stake does not change. -/
def Keeps (t t' : Table) : Prop := ∀ i, t.out i = true → t'.out i = true ∧ t'.tableScore i = t.tableScore i

variable {r : Round} {t t' : Table} {c i j : Chair}

theorem Keeps.refl (t : Table) : Keeps t t := fun _ outs => ⟨outs, rfl⟩

theorem Keeps.trans {t'' : Table} (first : Keeps t t') (second : Keeps t' t'') : Keeps t t'' := by
  intro i outs
  obtain ⟨outs', same⟩ := first i outs
  obtain ⟨outs'', same'⟩ := second i outs'
  exact ⟨outs'', same'.trans same⟩

/-- A change of one seat. -/
theorem Ledger.change (ledger : Ledger r t) (c : Chair)
    (others : ∀ i, i ≠ c → t'.existUser i = t.existUser i ∧ t'.out i = t.out i ∧ t'.tableScore i = t.tableScore i
      ∧ t'.betinfo i = t.betinfo i ∧ t'.writes i = t.writes i)
    (own : Seat r c (t'.existUser c) (t'.out c) (t'.tableScore c) (t'.betinfo c) (t'.writes c))
    (total : t'.tableAllScore - t'.tableScore c = t.tableAllScore - t.tableScore c) : Ledger r t' := by
  constructor
  · intro i
    rcases eq_or_ne i c with rfl | other
    · exact own
    · obtain ⟨exist, outs, stake, bets, writes⟩ := others i other
      rw [exist, outs, stake, bets, writes]
      exact ledger.1 i
  · have rest : ∑ i ∈ Finset.univ.erase c, t'.tableScore i = ∑ i ∈ Finset.univ.erase c, t.tableScore i :=
      Finset.sum_congr rfl fun i present => (others i (Finset.ne_of_mem_erase present)).2.2.1
    have before := ledger.2
    rw [← Finset.add_sum_erase _ _ (Finset.mem_univ c)] at before
    rw [← Finset.add_sum_erase _ _ (Finset.mem_univ c), rest]
    omega

/-! ## Who is in -/

theorem isIn_iff : t.isIn i = true ↔ t.existUser i = true ∧ t.out i = false := by
  rw [Table.isIn, Bool.and_eq_true, Bool.not_eq_true']

theorem Ledger.plays (ledger : Ledger r t) (here : t.isIn i = true) : r.players i = true := by
  by_contra away
  obtain ⟨exist, _⟩ := isIn_iff.mp here
  rw [((ledger.1 i).absent (Bool.eq_false_iff.mpr away)).1] at exist
  cases exist

/-- A player is in until he is out. -/
theorem Ledger.isIn_iff_not_out (ledger : Ledger r t) (plays : r.players i = true) :
    t.isIn i = true ↔ t.out i = false :=
  isIn_iff.trans ⟨And.right, fun stays => ⟨((ledger.1 i).stays plays stays).1, stays⟩⟩

/-- Nothing has been written for a player who is in. -/
theorem Ledger.score (ledger : Ledger r t) (here : t.isIn i = true) : scoreByChairId r t i = r.userScore i := by
  rw [scoreByChairId, (ledger.1 i).writes, if_neg, List.sum_nil, add_zero]
  rintro ⟨outs, _⟩
  rw [(isIn_iff.mp here).2] at outs
  cases outs

private theorem countP_of_flip {α : Type*} {p q : α → Bool} {l : List α} {c : α} (nodup : l.Nodup) (present : c ∈ l)
    (before : p c = true) (after : q c = false) (others : ∀ i ∈ l, i ≠ c → q i = p i) : l.countP q + 1 = l.countP p := by
  induction l with
  | nil => cases present
  | cons a rest ih =>
    obtain ⟨fresh, nodup'⟩ := List.nodup_cons.mp nodup
    rcases List.mem_cons.mp present with rfl | later
    · have same : rest.countP q = rest.countP p := by
        apply List.countP_congr
        intro i inside
        rw [others i (List.mem_cons_of_mem _ inside) fun equal => fresh (equal ▸ inside)]
      rw [List.countP_cons_of_neg (by rw [after]; exact Bool.false_ne_true), List.countP_cons_of_pos before, same]
    · have apart : a ≠ c := fun equal => fresh (equal ▸ later)
      have step := ih nodup' later fun i inside => others i (List.mem_cons_of_mem _ inside)
      rw [List.countP_cons, List.countP_cons, others a List.mem_cons_self apart]
      omega

/-- One player less. -/
theorem leftPlayerCount_of_drop (here : t.isIn c = true) (gone : t'.isIn c = false)
    (others : ∀ i, i ≠ c → t'.isIn i = t.isIn i) : t'.leftPlayerCount + 1 = t.leftPlayerCount :=
  countP_of_flip (List.nodup_finRange 5) (List.mem_finRange c) here gone fun i _ => others i

theorem mem_filter_isIn : i ∈ (List.finRange 5).filter t.isIn ↔ t.isIn i = true := by
  rw [List.mem_filter]
  exact ⟨And.right, fun here => ⟨List.mem_finRange i, here⟩⟩

/-- With two players left there is one beside any seat. -/
theorem exists_other (two : 2 ≤ t.leftPlayerCount) (c : Chair) : ∃ i, i ≠ c ∧ t.isIn i = true := by
  by_contra none_
  have only : (List.finRange 5).filter t.isIn ⊆ [c] := by
    intro i present
    rw [List.mem_singleton]
    by_contra other
    exact none_ ⟨i, other, mem_filter_isIn.mp present⟩
  have short := (((List.nodup_finRange 5).filter _).subperm only).length_le
  rw [Table.leftPlayerCount, List.countP_eq_length_filter] at two
  rw [List.length_singleton] at short
  omega

/-- With fewer than two players left there is nobody beside one of them. -/
theorem only_of_lt (few : ¬2 ≤ t.leftPlayerCount) (here : t.isIn c = true) : ∀ i, t.isIn i = true ↔ i = c := by
  intro i
  refine ⟨fun here' => ?_, fun same => same ▸ here⟩
  by_contra apart
  apply few
  rw [Table.leftPlayerCount, List.countP_eq_length_filter]
  have both : [i, c].Subperm ((List.finRange 5).filter t.isIn) := by
    apply List.subperm_of_subset
    · exact List.nodup_cons.mpr ⟨fun present => apart (List.mem_singleton.mp present), List.nodup_singleton c⟩
    · intro k present
      rcases List.mem_cons.mp present with rfl | present
      · exact mem_filter_isIn.mpr here'
      · rw [List.mem_singleton.mp present]
        exact mem_filter_isIn.mpr here
  exact both.length_le

theorem filter_isIn_eq (only : ∀ i, t.isIn i = true ↔ i = c) : (List.finRange 5).filter t.isIn = [c] := by
  apply List.perm_singleton.mp
  apply (List.perm_ext_iff_of_nodup ((List.nodup_finRange 5).filter _) (List.nodup_singleton c)).mpr
  intro i
  rw [mem_filter_isIn, List.mem_singleton, only]

/-- A player is found if there is one. -/
theorem exists_getNextUser (startUser : Chair) (ignoreCurrentUser : Bool)
    (someone : ∃ i, t.isIn i = true ∧ ¬(ignoreCurrentUser = true ∧ t.currentUser = some i)) :
    ∃ next, t.getNextUser startUser ignoreCurrentUser = some next ∧ t.isIn next = true
      ∧ ¬(ignoreCurrentUser = true ∧ t.currentUser = some next) := by
  have test : ∀ i, (t.isIn i && !(ignoreCurrentUser && decide (t.currentUser = some i))) = true
      ↔ t.isIn i = true ∧ ¬(ignoreCurrentUser = true ∧ t.currentUser = some i) := by
    intro i
    rw [Bool.and_eq_true, Bool.not_eq_true', Bool.eq_false_iff, ne_eq, Bool.and_eq_true, decide_eq_true_iff]
  obtain ⟨i, passes⟩ := someone
  obtain ⟨k, small, rfl⟩ := exists_seatAfter startUser i
  have found : (t.getNextUser startUser ignoreCurrentUser).isSome := by
    rw [Table.getNextUser, List.find?_isSome]
    exact ⟨_, List.mem_map_of_mem (List.mem_range.mpr small), (test _).mpr passes⟩
  obtain ⟨next, same⟩ := Option.isSome_iff_exists.mp found
  have passes' := List.find?_some same
  exact ⟨next, same, (test next).mp passes'⟩

end H5Server.Zjh
