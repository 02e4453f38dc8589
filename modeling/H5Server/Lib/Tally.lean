import Mathlib.Data.List.Induction
import Mathlib.Data.List.Nodup
import Mathlib.Data.List.Count
import Mathlib.Algebra.BigOperators.Group.List.Basic
import Mathlib.Logic.Function.Basic

/-! # Totals kept in a vector behind an index map

Amounts arrive one by one under a key. The first amount of a key opens a slot at the end of a
vector, and a map remembers where it is. The slots are the keys in the order of their first
arrival, each with the total of its amounts.
-/

namespace H5Server.Lib

/-- A map from keys to positions, and the vector of slots. -/
structure Tally (κ M : Type*) where
  slotOf : κ → Option ℕ
  slots : List (κ × M)

namespace Tally

variable {κ M : Type*} [DecidableEq κ] [AddCommMonoid M]

def empty : Tally κ M := ⟨fun _ => none, []⟩

/-- Add an amount to the slot of its key, which is opened when there is none. -/
def add (t : Tally κ M) (entry : κ × M) : Tally κ M :=
  match t.slotOf entry.1 with
  | some n => { t with slots := t.slots.modify n fun slot => (slot.1, slot.2 + entry.2) }
  | none =>
    { slotOf := Function.update t.slotOf entry.1 (some t.slots.length)
      slots := t.slots ++ [(entry.1, 0 + entry.2)] }

def collect (entries : List (κ × M)) : Tally κ M := entries.foldl add empty

/-- The keys in the order of their first arrival. -/
def keys (entries : List (κ × M)) : List κ := (entries.map Prod.fst).eraseDups

/-- The sum of the amounts under a key. -/
def total (entries : List (κ × M)) (key : κ) : M :=
  ((entries.filter fun entry => entry.1 = key).map Prod.snd).sum

variable (entries : List (κ × M)) (entry : κ × M)

omit [AddCommMonoid M] in
theorem mem_keys {key : κ} : key ∈ keys entries ↔ ∃ m, (key, m) ∈ entries := by
  rw [keys, List.mem_eraseDups, List.mem_map]
  constructor
  · rintro ⟨⟨_, m⟩, present, rfl⟩
    exact ⟨m, present⟩
  · rintro ⟨m, present⟩
    exact ⟨(key, m), present, rfl⟩

omit [AddCommMonoid M] in
theorem keys_snoc :
    keys (entries ++ [entry]) = if entry.1 ∈ keys entries then keys entries else keys entries ++ [entry.1] := by
  have known : entry.1 ∈ keys entries ↔ entry.1 ∈ entries.map Prod.fst := List.mem_eraseDups
  rw [keys, List.map_append, List.eraseDups_append, List.map_singleton, List.removeAll]
  split
  next old =>
    rw [List.filter_singleton, List.elem_eq_true_of_mem (known.mp old)]
    exact List.append_nil _
  next new =>
    have absent : (entries.map Prod.fst).elem entry.1 = false := by
      rw [List.elem_eq_mem, decide_eq_false_iff_not]
      exact known.not.mp new
    rw [List.filter_singleton, absent]
    rfl

omit [AddCommMonoid M] in
theorem nodup_keys : (keys entries).Nodup := by
  induction entries using List.reverseRecOn with
  | nil => exact List.nodup_nil
  | append_singleton rest last ih =>
    rw [keys_snoc]
    split
    next => exact ih
    next new =>
      apply ih.append (List.nodup_singleton _)
      exact List.disjoint_singleton.mpr new

theorem total_snoc (key : κ) :
    total (entries ++ [entry]) key = total entries key + if entry.1 = key then entry.2 else 0 := by
  rw [total, total, List.filter_append, List.map_append, List.sum_append, List.filter_singleton]
  split
  next same => simp [same]
  next other => simp [other]

/-- A key without amounts has total zero. -/
theorem total_of_notMem {key : κ} (new : key ∉ keys entries) : total entries key = 0 := by
  have none : entries.filter (fun entry => entry.1 = key) = [] := by
    rw [List.filter_eq_nil_iff]
    rintro ⟨k, m⟩ present same
    obtain rfl : k = key := by simpa using same
    exact new ((mem_keys entries).mpr ⟨m, present⟩)
  rw [total, none]
  rfl

/-- The slots and the index map after some amounts. -/
structure Holds (t : Tally κ M) (entries : List (κ × M)) : Prop where
  slots : t.slots = (keys entries).map fun key => (key, total entries key)
  slotOf : ∀ key n, t.slotOf key = some n ↔ (keys entries)[n]? = some key

omit [DecidableEq κ] in
/-- Positions of a list without repetitions. -/
private theorem getElem?_inj {keys : List κ} (nodup : keys.Nodup) {n m : ℕ} {key : κ}
    (first : keys[n]? = some key) (second : keys[m]? = some key) : n = m := by
  obtain ⟨bound, -⟩ := List.getElem?_eq_some_iff.mp first
  exact (List.getElem?_inj bound nodup).mp (first.trans second.symm)

variable {entries} in
theorem Holds.add {t : Tally κ M} (holds : Holds t entries) : Holds (t.add entry) (entries ++ [entry]) := by
  cases found : t.slotOf entry.1 with
  | some n =>
    have position := (holds.slotOf entry.1 n).mp found
    have same : keys (entries ++ [entry]) = keys entries := by
      rw [keys_snoc, if_pos (List.mem_of_getElem? position)]
    have result : t.add entry = { t with slots := t.slots.modify n fun slot => (slot.1, slot.2 + entry.2) } := by
      rw [Tally.add, found]
    rw [result]
    refine ⟨?_, fun key m => by rw [same]; exact holds.slotOf key m⟩
    rw [same, holds.slots]
    apply List.ext_getElem?
    intro m
    rw [List.getElem?_modify, List.getElem?_map, List.getElem?_map]
    cases there : (keys entries)[m]? with
    | none => rfl
    | some key =>
      have moved : n = m ↔ entry.1 = key := by
        constructor
        · rintro rfl
          exact Option.some.inj (position.symm.trans there)
        · rintro rfl
          exact getElem?_inj (nodup_keys entries) position there
      simp only [Option.map_some, Option.map_eq_map, total_snoc, moved]
      split
      next => rfl
      next => rw [add_zero]
  | none =>
    have new : entry.1 ∉ keys entries := fun old => by
      obtain ⟨n, position⟩ := List.getElem?_of_mem old
      exact absurd (((holds.slotOf _ _).mpr position).symm.trans found) (Option.some_ne_none n)
    have result : t.add entry = ⟨Function.update t.slotOf entry.1 (some t.slots.length),
        t.slots ++ [(entry.1, 0 + entry.2)]⟩ := by rw [Tally.add, found]
    rw [result]
    have grown := keys_snoc entries entry
    rw [if_neg new] at grown
    constructor
    · have kept : (keys entries).map (fun key => (key, total entries key)) =
          (keys entries).map fun key => (key, total (entries ++ [entry]) key) := by
        apply List.map_congr_left
        intro key old
        have other : entry.1 ≠ key := fun same => new (same ▸ old)
        rw [total_snoc, if_neg other, add_zero]
      change t.slots ++ _ = _
      rw [grown, List.map_append, holds.slots, kept, List.map_singleton, total_snoc, if_pos rfl,
        total_of_notMem entries new]
    · intro key n
      have length : t.slots.length = (keys entries).length := by rw [holds.slots, List.length_map]
      change Function.update t.slotOf entry.1 (some t.slots.length) key = some n ↔ _
      rw [grown, Function.update_apply, length]
      split
      next same =>
        subst same
        constructor
        · rintro ⟨⟩
          exact List.getElem?_concat_length
        · intro position
          rcases Nat.lt_or_ge n (keys entries).length with inside | outside
          · rw [List.getElem?_append_left inside] at position
            exact absurd (List.mem_of_getElem? position) new
          · obtain ⟨bound, -⟩ := List.getElem?_eq_some_iff.mp position
            rw [List.length_append, List.length_singleton] at bound
            exact congrArg some (by omega)
      next other =>
        rw [holds.slotOf]
        constructor
        · intro position
          obtain ⟨bound, -⟩ := List.getElem?_eq_some_iff.mp position
          rw [List.getElem?_append_left bound, position]
        · intro position
          rcases Nat.lt_or_ge n (keys entries).length with inside | outside
          · rwa [List.getElem?_append_left inside] at position
          · rw [List.getElem?_append_right outside] at position
            have last := List.mem_of_getElem? position
            exact absurd (List.mem_singleton.mp last) other

/-- The slots are the keys in the order of their first arrival, each with its total. -/
theorem slots_collect : (collect entries).slots = (keys entries).map fun key => (key, total entries key) := by
  have holds : Holds (collect entries) entries := by
    induction entries using List.reverseRecOn with
    | nil => exact ⟨rfl, fun key n => iff_of_false nofun nofun⟩
    | append_singleton rest last ih =>
      rw [collect, List.foldl_append]
      exact ih.add last
  exact holds.slots

/-- The amount in the slot of a key. -/
def get (t : Tally κ M) (key : κ) : M := ((t.slots.find? fun slot => slot.1 = key).map Prod.snd).getD 0

theorem get_collect (key : κ) : (collect entries).get key = total entries key := by
  rw [get, slots_collect, List.find?_map]
  cases found : (keys entries).find? ((fun slot : κ × M => decide (slot.1 = key)) ∘ fun key => (key, total entries key)) with
  | none =>
    have new : key ∉ keys entries := fun old => by
      have absent := List.find?_eq_none.mp found key old
      exact absent (decide_eq_true rfl)
    exact (total_of_notMem entries new).symm
  | some k =>
    obtain rfl : k = key := of_decide_eq_true (List.find?_some found :)
    rfl

/-- The total of the amounts that some items of a list carry. -/
theorem total_map_filter {ι : Type*} (items : List ι) (p : ι → Bool) (f : ι → κ × M) (key : κ) :
    total ((items.filter p).map f) key =
      (items.map fun i => if p i = true ∧ (f i).1 = key then (f i).2 else 0).sum := by
  induction items with
  | nil => rfl
  | cons i rest ih =>
    rw [List.map_cons, List.sum_cons, ← ih]
    cases counted : p i with
    | false => simp [counted]
    | true =>
      rw [List.filter_cons_of_pos counted, List.map_cons]
      by_cases same : (f i).1 = key <;> simp [total, same]

end Tally

end H5Server.Lib
