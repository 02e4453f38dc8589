import Mathlib.Algebra.BigOperators.Group.Finset.Sigma
import Mathlib.Algebra.BigOperators.Ring.Finset
import Mathlib.Data.List.Perm.Basic
import Mathlib.Tactic.Linarith

/-! # Everybody against everybody

The pairs of a list, each once, and what one member sees of them: all the others. What the two sides
of every pair get from each other adds up to zero when one gains what the other loses.
-/

namespace H5Server.Lib

variable {α : Type*} [DecidableEq α]

/-- Every member with every later one. -/
def pairings : List α → List (α × α)
  | [] => []
  | x :: rest => rest.map (x, ·) ++ pairings rest

/-- The other side of a pair. -/
def opponent (a : α) (pair : α × α) : Option α :=
  if pair.1 = a then some pair.2 else if pair.2 = a then some pair.1 else none

/-- The others in the order in which they are met. -/
def opponents (a : α) (pairs : List (α × α)) : List α := pairs.filterMap (opponent a)

omit [DecidableEq α] in
theorem mem_of_mem_pairings {l : List α} {p : α × α} (member : p ∈ pairings l) : p.1 ∈ l ∧ p.2 ∈ l := by
  induction l with
  | nil => exact absurd member List.not_mem_nil
  | cons x rest ih =>
    rw [pairings, List.mem_append, List.mem_map] at member
    rcases member with ⟨y, later, rfl⟩ | later
    · exact ⟨List.mem_cons_self, List.mem_cons_of_mem _ later⟩
    · exact ⟨List.mem_cons_of_mem _ (ih later).1, List.mem_cons_of_mem _ (ih later).2⟩

omit [DecidableEq α] in
theorem pairings_map {β : Type*} (f : β → α) (l : List β) :
    pairings (l.map f) = (pairings l).map fun p => (f p.1, f p.2) := by
  induction l with
  | nil => rfl
  | cons x rest ih =>
    rw [List.map_cons, pairings, pairings, List.map_append, ih, List.map_map, List.map_map]
    rfl

omit [DecidableEq α] in
theorem rel_of_mem_pairings {R : α → α → Prop} {l : List α} (ordered : l.Pairwise R) {p : α × α}
    (member : p ∈ pairings l) : R p.1 p.2 := by
  induction l with
  | nil => exact absurd member List.not_mem_nil
  | cons x rest ih =>
    obtain ⟨first, ordered⟩ := List.pairwise_cons.mp ordered
    rw [pairings, List.mem_append, List.mem_map] at member
    rcases member with ⟨y, later, rfl⟩ | later
    · exact first y later
    · exact ih ordered later

theorem opponents_pairings_of_not_mem {l : List α} {a : α} (absent : a ∉ l) : opponents a (pairings l) = [] := by
  rw [opponents, List.filterMap_eq_nil_iff]
  intro p member
  have inside := mem_of_mem_pairings member
  have first : p.1 ≠ a := fun same => absent (same ▸ inside.1)
  have second : p.2 ≠ a := fun same => absent (same ▸ inside.2)
  rw [opponent, if_neg first, if_neg second]

private theorem opponents_first (x : α) (rest : List α) : opponents x (rest.map (x, ·)) = rest := by
  rw [opponents, List.filterMap_map]
  have all : (opponent x ∘ fun y => (x, y)) = some := by
    funext y
    exact if_pos rfl
  rw [all, List.filterMap_some]

private theorem opponents_second {x a : α} (other : x ≠ a) {rest : List α} (distinct : rest.Nodup) (member : a ∈ rest) :
    opponents a (rest.map (x, ·)) = [x] := by
  induction rest with
  | nil => exact absurd member List.not_mem_nil
  | cons y rest ih =>
    obtain ⟨fresh, distinct⟩ := List.nodup_cons.mp distinct
    rw [opponents, List.map_cons, List.filterMap_cons, opponent, if_neg other]
    rcases eq_or_ne y a with rfl | away
    · have none_ : opponents y (rest.map (x, ·)) = [] := by
        rw [opponents, List.filterMap_eq_nil_iff]
        intro p inside
        obtain ⟨z, later, rfl⟩ := List.mem_map.mp inside
        have away : z ≠ y := fun same => fresh (same ▸ later)
        rw [opponent, if_neg other, if_neg away]
      rw [opponents] at none_
      rw [if_pos rfl, none_]
    · have later := ih distinct ((List.mem_cons.mp member).resolve_left away.symm)
      rw [opponents] at later
      rw [if_neg away, later]

/-- Each member meets all the others. -/
theorem opponents_pairings {l : List α} (distinct : l.Nodup) {a : α} (member : a ∈ l) :
    (opponents a (pairings l)).Perm (l.erase a) := by
  induction l with
  | nil => exact absurd member List.not_mem_nil
  | cons x rest ih =>
    obtain ⟨fresh, distinct⟩ := List.nodup_cons.mp distinct
    have split : opponents a (pairings (x :: rest)) = opponents a (rest.map (x, ·)) ++ opponents a (pairings rest) :=
      List.filterMap_append
    rw [split]
    rcases eq_or_ne x a with rfl | other
    · rw [opponents_first, opponents_pairings_of_not_mem fresh, List.append_nil, List.erase_cons_head]
    · have later := (List.mem_cons.mp member).resolve_left other.symm
      rw [opponents_second other distinct later, List.erase_cons_tail (by simpa using other)]
      exact (ih distinct later).cons x

/-- Nothing is left over where every gain is the loss of the other side. -/
theorem sum_erase_eq_zero {s : Finset α} {gain : α → α → ℤ}
    (opposite : ∀ a ∈ s, ∀ b ∈ s, a ≠ b → gain b a = -gain a b) : ∑ a ∈ s, ∑ b ∈ s.erase a, gain a b = 0 := by
  have turned : ∑ a ∈ s, ∑ b ∈ s.erase a, gain a b = -∑ a ∈ s, ∑ b ∈ s.erase a, gain a b := by
    calc
      ∑ a ∈ s, ∑ b ∈ s.erase a, gain a b = ∑ b ∈ s, ∑ a ∈ s.erase b, gain a b := by
        apply Finset.sum_comm'
        intro a b
        simp only [Finset.mem_erase]
        constructor
        · rintro ⟨first, apart, second⟩
          exact ⟨⟨apart.symm, first⟩, second⟩
        · rintro ⟨⟨apart, first⟩, second⟩
          exact ⟨first, apart.symm, second⟩
      _ = ∑ b ∈ s, ∑ a ∈ s.erase b, -gain b a := by
        apply Finset.sum_congr rfl
        intro b second
        apply Finset.sum_congr rfl
        intro a first
        obtain ⟨apart, first⟩ := Finset.mem_erase.mp first
        exact opposite b second a first apart.symm
      _ = -∑ a ∈ s, ∑ b ∈ s.erase a, gain a b := by
        simp only [Finset.sum_neg_distrib]
  linarith

/-- A sum over the others in the order in which they are met. -/
theorem sum_opponents {M : Type*} [AddCommMonoid M] {l : List α} (distinct : l.Nodup) {a : α} (member : a ∈ l)
    (f : α → M) : ((opponents a (pairings l)).map f).sum = ∑ b ∈ l.toFinset.erase a, f b := by
  have others : (l.erase a).toFinset = l.toFinset.erase a := by
    ext b
    rw [List.mem_toFinset, distinct.mem_erase_iff, Finset.mem_erase, List.mem_toFinset]
  rw [((opponents_pairings distinct member).map f).sum_eq, ← others, List.sum_toFinset f (distinct.erase a)]

omit [DecidableEq α] in
/-- Two members make a pair in one order or the other. -/
theorem mem_pairings_or {l : List α} {a b : α} (first : a ∈ l) (second : b ∈ l) (apart : a ≠ b) :
    (a, b) ∈ pairings l ∨ (b, a) ∈ pairings l := by
  induction l with
  | nil => exact absurd first List.not_mem_nil
  | cons x rest ih =>
    simp only [pairings, List.mem_append, List.mem_map, Prod.mk.injEq]
    rcases List.mem_cons.mp first with rfl | early
    · have later := (List.mem_cons.mp second).resolve_left apart.symm
      exact Or.inl (Or.inl ⟨b, later, rfl, rfl⟩)
    · rcases List.mem_cons.mp second with rfl | late
      · exact Or.inr (Or.inl ⟨a, early, rfl, rfl⟩)
      · exact (ih early late).imp Or.inr Or.inr

end H5Server.Lib
