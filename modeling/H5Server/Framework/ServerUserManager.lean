import H5Server.Lib.Runs
import Mathlib.Data.Int.Notation
import Mathlib.Data.Int.ModEq
import Mathlib.Logic.Function.Basic
import Mathlib.Data.List.Nodup
import Mathlib.Tactic.SplitIfs

/-! # The registry of the users (`CServerUserManager`)

Items are recycled: one in use goes to the free list when its user leaves, and the next user gets it. An item is known
by the number under which it was created, and of its data only the user's id matters here.
-/

namespace H5Server.Framework

open Lib

structure ServerUserManager where
  userMap : ℤ → Option ℕ
  usedUserItemList : List ℕ
  freeUserItemList : List ℕ
  userIds : ℕ → ℤ
  created : ℕ

/-- The conversion of `int64_t` to `int`. -/
def toInt32 (id : ℤ) : ℤ := id.bmod (2 ^ 32)

inductive Call where
  | getUserItem (userId : ℤ)
  | findUserItem (userId : ℤ)
  | deleteUserItem (item : Option ℕ)

namespace ServerUserManager

def empty : ServerUserManager := ⟨fun _ => none, [], [], fun _ => -1, 0⟩

variable (m : ServerUserManager)

/-- `SetUserBaseInfo` with a user's id. -/
def setUserId (item : ℕ) (userId : ℤ) : ServerUserManager := { m with userIds := Function.update m.userIds item userId }

def resetUserItem (item : ℕ) : ServerUserManager := m.setUserId item (-1)

/-- The last item of the free list, or a new one. -/
def takeItem : ℕ × ServerUserManager :=
  match m.freeUserItemList.getLast? with
  | some item => (item, { m with freeUserItemList := m.freeUserItemList.dropLast }.resetUserItem item)
  | none => (m.created, { m with created := m.created + 1 }.resetUserItem m.created)

def getUserItem (userId : ℤ) : ℕ × ServerUserManager :=
  let (item, m) := m.takeItem
  (item, { m with
    usedUserItemList := m.usedUserItemList ++ [item]
    userMap := Function.update m.userMap userId (some item) })

def findUserItem (userId : ℤ) : Option ℕ := m.userMap userId

/-- The key is erased as an `int`. -/
def deleteUserItem : Option ℕ → ServerUserManager
  | none => m
  | some item =>
    if item ∈ m.usedUserItemList then
      { m with
        freeUserItemList := m.freeUserItemList ++ [item]
        usedUserItemList := m.usedUserItemList.erase item
        userMap := Function.update m.userMap (toInt32 (m.userIds item)) none }.resetUserItem item
    else m

/-- A call of the server: who enters is stored in the item at once. -/
def step : Call → ServerUserManager
  | .getUserItem userId => (m.getUserItem userId).2.setUserId (m.getUserItem userId).1 userId
  | .findUserItem _ => m
  | .deleteUserItem item => m.deleteUserItem item

/-- Ids are 64-bit, and nobody enters twice. -/
def Legal : Call → Prop
  | .getUserItem userId => -2 ^ 63 ≤ userId ∧ userId < 2 ^ 63 ∧ ∀ item ∈ m.usedUserItemList, m.userIds item ≠ userId
  | _ => True

/-- The map has the users of the items in use, and no item is in a list twice. -/
structure Consistent : Prop where
  map_iff : ∀ userId item, m.userMap userId = some item ↔ item ∈ m.usedUserItemList ∧ m.userIds item = userId
  once : (m.usedUserItemList ++ m.freeUserItemList).Nodup

/-- Who was deleted is not found any more. -/
def Forgets : Call → Prop
  | .deleteUserItem (some item) => item ∈ m.usedUserItemList → (m.deleteUserItem item).findUserItem (m.userIds item) = none
  | _ => True

/-- The id of who is deleted fits into an `int`. -/
def Fits : Call → Prop
  | .deleteUserItem (some item) => item ∈ m.usedUserItemList → -2 ^ 31 ≤ m.userIds item ∧ m.userIds item < 2 ^ 31
  | _ => True

/-! ## One call -/

theorem toInt32_eq_iff (id : ℤ) : toInt32 id = id ↔ -2 ^ 31 ≤ id ∧ id < 2 ^ 31 := by
  rw [toInt32, Int.bmod_def]
  split_ifs <;> omega

/-- No item is known before it was created. -/
def Known : Prop := ∀ item ∈ m.usedUserItemList ++ m.freeUserItemList, item < m.created

variable {m}

theorem takeItem_spec (consistent : m.Consistent) (known : m.Known) :
    (m.usedUserItemList ++ [m.takeItem.1] ++ m.takeItem.2.freeUserItemList).Nodup
      ∧ (∀ item ∈ m.usedUserItemList ++ [m.takeItem.1] ++ m.takeItem.2.freeUserItemList, item < m.takeItem.2.created)
      ∧ m.takeItem.2.usedUserItemList = m.usedUserItemList ∧ m.takeItem.2.userMap = m.userMap
      ∧ m.takeItem.2.userIds = Function.update m.userIds m.takeItem.1 (-1) := by
  rw [takeItem]
  cases last : m.freeUserItemList.getLast? with
  | some item =>
    have perm : (m.usedUserItemList ++ [item] ++ m.freeUserItemList.dropLast).Perm
        (m.usedUserItemList ++ m.freeUserItemList) := by
      have split := List.dropLast_append_getLast? item last
      conv_rhs => rw [← split]
      rw [List.append_assoc]
      exact (List.perm_append_comm).append_left _
    exact ⟨perm.nodup_iff.mpr consistent.once, fun i there => known i (perm.mem_iff.mp there), rfl, rfl, rfl⟩
  | none =>
    obtain free := List.getLast?_eq_none_iff.mp last
    have once := consistent.once
    have known := known
    rw [Known, free, List.append_nil] at known
    rw [free, List.append_nil] at once
    refine ⟨?_, ?_, rfl, rfl, rfl⟩
    · show (m.usedUserItemList ++ [m.created] ++ m.freeUserItemList).Nodup
      rw [free, List.append_nil]
      refine List.nodup_append.mpr ⟨once, List.nodup_singleton _, fun i there j there' => ?_⟩
      rw [List.mem_singleton.mp there']
      exact (known i there).ne
    · intro i there
      have there : i ∈ m.usedUserItemList ++ [m.created] ++ m.freeUserItemList := there
      show i < m.created + 1
      rw [free, List.append_nil, List.mem_append, List.mem_singleton] at there
      rcases there with there | rfl
      · exact Nat.lt_succ_of_lt (known i there)
      · exact Nat.lt_succ_self _

/-- Whoever enters is registered. -/
theorem consistent_getUserItem (consistent : m.Consistent) (known : m.Known) {userId : ℤ}
    (legal : m.Legal (.getUserItem userId)) :
    (m.step (.getUserItem userId)).Consistent ∧ (m.step (.getUserItem userId)).Known := by
  obtain ⟨once, known', used, map, ids⟩ := takeItem_spec consistent known
  have fresh : m.takeItem.1 ∉ m.usedUserItemList := by
    intro there
    rw [List.append_assoc] at once
    exact (List.nodup_append.mp once).2.2 _ there _ (List.mem_append_left _ (List.mem_singleton_self _)) rfl
  have stepUsed : (m.step (.getUserItem userId)).usedUserItemList = m.usedUserItemList ++ [m.takeItem.1] := by
    show m.takeItem.2.usedUserItemList ++ [m.takeItem.1] = _
    rw [used]
  have stepMap : (m.step (.getUserItem userId)).userMap = Function.update m.userMap userId (some m.takeItem.1) := by
    show Function.update m.takeItem.2.userMap userId (some m.takeItem.1) = _
    rw [map]
  have stepIds : (m.step (.getUserItem userId)).userIds = Function.update m.userIds m.takeItem.1 userId := by
    show Function.update m.takeItem.2.userIds m.takeItem.1 userId = _
    rw [ids, Function.update_idem]
  refine ⟨⟨fun id item => ?_, ?_⟩, ?_⟩
  · rw [stepUsed, stepMap, stepIds, List.mem_append, List.mem_singleton, Function.update_apply, Function.update_apply]
    rcases eq_or_ne item m.takeItem.1 with rfl | other
    · rw [if_pos rfl]
      split_ifs with same
      · exact iff_of_true rfl ⟨.inr rfl, same.symm⟩
      · refine iff_of_false (fun found => fresh ((consistent.map_iff _ _).mp found).1) fun both => same both.2.symm
    · rw [if_neg other, or_iff_left other, ← consistent.map_iff]
      split_ifs with same
      · refine iff_of_false (fun eq => other (Option.some.inj eq).symm) fun found => ?_
        obtain ⟨there, eq⟩ := (consistent.map_iff _ _).mp found
        exact legal.2.2 item there (eq.trans same)
      · rfl
  · show ((m.step (.getUserItem userId)).usedUserItemList ++ m.takeItem.2.freeUserItemList).Nodup
    rw [stepUsed]
    exact once
  · show ∀ item ∈ (m.step (.getUserItem userId)).usedUserItemList ++ m.takeItem.2.freeUserItemList, _
    rw [stepUsed]
    exact known'

/-- Deleting a user keeps the registry and forgets him exactly if his id is the key erased. -/
theorem consistent_deleteUserItem (consistent : m.Consistent) (known : m.Known) {item : ℕ}
    (there : item ∈ m.usedUserItemList) :
    ((m.deleteUserItem item).Consistent ∧ (m.deleteUserItem item).findUserItem (m.userIds item) = none
        ↔ toInt32 (m.userIds item) = m.userIds item)
      ∧ (m.deleteUserItem item).Known := by
  have registered : m.userMap (m.userIds item) = some item := (consistent.map_iff _ _).mpr ⟨there, rfl⟩
  have usedOnce : m.usedUserItemList.Nodup := (List.nodup_append.mp consistent.once).1
  have deleted : m.deleteUserItem item = { m with
      freeUserItemList := m.freeUserItemList ++ [item]
      usedUserItemList := m.usedUserItemList.erase item
      userMap := Function.update m.userMap (toInt32 (m.userIds item)) none }.resetUserItem item := if_pos there
  have perm : (m.usedUserItemList.erase item ++ (m.freeUserItemList ++ [item])).Perm
      (m.usedUserItemList ++ m.freeUserItemList) := by
    refine (List.perm_append_comm.append_left _).trans ?_
    rw [← List.append_assoc]
    exact ((List.perm_append_singleton item _).trans (List.perm_cons_erase there).symm).append_right _
  rw [deleted]
  refine ⟨⟨?_, fun fits => ⟨⟨fun id other => ?_, perm.nodup_iff.mpr consistent.once⟩, ?_⟩⟩,
    fun i inside => known i (perm.mem_iff.mp inside)⟩
  · rintro ⟨-, gone⟩
    by_contra differ
    have kept : Function.update m.userMap (toInt32 (m.userIds item)) none (m.userIds item) = some item := by
      rw [Function.update_of_ne (Ne.symm differ), registered]
    exact absurd (kept.symm.trans gone) (Option.some_ne_none item)
  · show Function.update m.userMap (toInt32 (m.userIds item)) none id = some other ↔
      other ∈ m.usedUserItemList.erase item ∧ Function.update m.userIds item (-1) other = id
    rw [fits, usedOnce.mem_erase_iff, Function.update_apply, Function.update_apply]
    rcases eq_or_ne other item with rfl | differ
    · refine iff_of_false (fun found => ?_) fun both => both.1.1 rfl
      split_ifs at found with same
      · exact same ((consistent.map_iff _ _).mp found).2.symm
    · rw [if_neg differ, and_iff_right differ, ← consistent.map_iff]
      split_ifs with same
      · refine iff_of_false not_false fun found => ?_
        rw [same, registered] at found
        exact differ (Option.some.inj found).symm
      · rfl
  · show Function.update m.userMap (toInt32 (m.userIds item)) none (m.userIds item) = none
    rw [fits, Function.update_self]

theorem call_iff (call : Call) (inv : m.Consistent ∧ m.Known) (legal : m.Legal call) :
    ((m.step call).Consistent ∧ m.Forgets call ↔ m.Fits call) ∧ (m.step call).Known := by
  obtain ⟨consistent, known⟩ := inv
  cases call with
  | getUserItem userId =>
    obtain ⟨consistent', known'⟩ := consistent_getUserItem consistent known legal
    exact ⟨iff_of_true ⟨consistent', trivial⟩ trivial, known'⟩
  | findUserItem userId => exact ⟨iff_of_true ⟨consistent, trivial⟩ trivial, known⟩
  | deleteUserItem item =>
    cases item with
    | none => exact ⟨iff_of_true ⟨consistent, trivial⟩ trivial, known⟩
    | some item =>
      rcases Classical.em (item ∈ m.usedUserItemList) with there | absent
      · obtain ⟨exactly, known'⟩ := consistent_deleteUserItem consistent known there
        refine ⟨?_, known'⟩
        show (m.deleteUserItem item).Consistent ∧ (_ → _) ↔ (_ → _)
        rw [forall_prop_of_true there, forall_prop_of_true there, exactly, toInt32_eq_iff]
      · have same : m.deleteUserItem item = m := if_neg absent
        refine ⟨iff_of_true ⟨?_, fun there => absurd there absent⟩ fun there => absurd there absent, ?_⟩
        · show (m.deleteUserItem item).Consistent
          rwa [same]
        · show (m.deleteUserItem item).Known
          rwa [same]

/-! ## Runs -/

theorem consistent_empty : empty.Consistent ∧ empty.Known :=
  ⟨⟨fun _ _ => iff_of_false (Option.some_ne_none _).symm fun both => List.not_mem_nil both.1, List.nodup_nil⟩, nofun⟩

/-- The registry is consistent in every state of a run, and forgets everybody deleted, exactly if the ids of all who
are deleted fit into an `int`. -/
theorem registry_iff {calls : List Call} (legal : Each step Legal empty calls) :
    Each step (fun m call => (m.step call).Consistent ∧ m.Forgets call) empty calls ↔ Each step Fits empty calls :=
  each_iff (fun m => m.Consistent ∧ m.Known) (fun _ call inv allowed => (call_iff call inv allowed).1)
    (fun _ call inv allowed fits => ⟨((call_iff call inv allowed).1.mpr fits).1, (call_iff call inv allowed).2⟩)
    consistent_empty legal

theorem registry_iff_enter_leave :
    Each step (fun m call => (m.step call).Consistent ∧ m.Forgets call) empty
      [.getUserItem 10086, .findUserItem 10086, .deleteUserItem (some 0), .getUserItem 10087] :=
  (registry_iff (by simp [Each, Legal, step, getUserItem, takeItem, deleteUserItem, setUserId, resetUserItem, empty])).mpr
    (by simp [Each, Fits, step, getUserItem, takeItem, setUserId, resetUserItem, empty])

/-- A user whose id is `2 ^ 31` stays in the map. -/
theorem large_id_stays :
    Each step Legal empty [.getUserItem (2 ^ 31), .deleteUserItem (some 0)]
      ∧ ¬Each step (fun m call => (m.step call).Consistent ∧ m.Forgets call) empty
        [.getUserItem (2 ^ 31), .deleteUserItem (some 0)] := by
  refine ⟨by simp [Each, Legal, empty], fun each => ?_⟩
  obtain ⟨-, ⟨-, forgotten⟩, -⟩ := each
  have stays : ((empty.step (.getUserItem (2 ^ 31))).deleteUserItem (some 0)).findUserItem (2 ^ 31) = some 0 := by decide
  exact absurd (stays.symm.trans (forgotten (by decide))) (Option.some_ne_none 0)

end ServerUserManager

end H5Server.Framework
