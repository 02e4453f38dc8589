import Mathlib.Data.List.Perm.Subperm
import Mathlib.Tactic.SplitIfs

/-! # Drawing from an array

Entries are drawn at any place, and the last entry moves to the place of the one drawn. What is drawn
and what remains are a permutation of what there was.
-/

namespace H5Server.Lib

variable {α : Type*}

/-- What remains after the entry at `place` is drawn. -/
def fillGap [Inhabited α] (items : List α) (place : ℕ) : List α :=
  (items.set place (items.getLastD default)).dropLast

/-- Draw at the given places, as often as there are places. -/
def drawAll [Inhabited α] : List ℕ → List α → List α
  | [], _ => []
  | place :: places, items => items.getD place default :: drawAll places (fillGap items place)

theorem fillGap_concat [Inhabited α] (front : List α) (last : α) (place : ℕ) :
    fillGap (front ++ [last]) place = front.set place last := by
  rw [fillGap, List.getLastD_concat, List.set_append]
  split_ifs with inside
  · exact List.dropLast_concat
  · rw [List.set_eq_of_length_le (Nat.not_lt.mp inside)]
    cases place - front.length <;> exact List.dropLast_concat

theorem getD_concat [Inhabited α] {front : List α} {last : α} {place : ℕ} (within : place ≤ front.length) :
    (front ++ [last]).getD place default = front.getD place last := by
  rcases Nat.lt_or_eq_of_le within with inside | rfl
  · simp [List.getD_eq_getElem?_getD, List.getElem?_append_left inside, inside]
  · simp

theorem perm_cons_fillGap [Inhabited α] {items : List α} {place : ℕ} (within : place < items.length) :
    (items.getD place default :: fillGap items place).Perm items := by
  rcases List.eq_nil_or_concat items with rfl | ⟨front, last, rfl⟩
  · exact absurd within (Nat.not_lt_zero place)
  rw [List.concat_eq_append] at within ⊢
  rw [List.length_append, List.length_singleton, Nat.lt_succ_iff] at within
  rw [fillGap_concat, getD_concat within]
  exact (List.getD_set_perm_cons front place last).trans (List.perm_append_singleton last front).symm

theorem length_fillGap [Inhabited α] (items : List α) (place : ℕ) : (fillGap items place).length = items.length - 1 := by
  rw [fillGap, List.length_dropLast, List.length_set]

/-- Places that exist when they are drawn at. -/
def DrawsWithin : List ℕ → ℕ → Prop
  | [], _ => True
  | place :: places, count => place < count ∧ DrawsWithin places (count - 1)

instance decidableDrawsWithin : ∀ places count, Decidable (DrawsWithin places count)
  | [], _ => .isTrue trivial
  | place :: places, count => @instDecidableAnd _ _ (Nat.decLt place count) (decidableDrawsWithin places (count - 1))

/-- What is drawn is there. -/
theorem drawAll_subperm [Inhabited α] {places : List ℕ} {items : List α} (within : DrawsWithin places items.length) :
    (drawAll places items).Subperm items := by
  induction places generalizing items with
  | nil => exact List.nil_subperm
  | cons place places ih =>
    obtain ⟨inside, later⟩ := within
    rw [drawAll, ← (perm_cons_fillGap inside).subperm_left, List.subperm_cons]
    exact ih (length_fillGap items place ▸ later)

theorem length_drawAll [Inhabited α] (places : List ℕ) (items : List α) : (drawAll places items).length = places.length := by
  induction places generalizing items with
  | nil => rfl
  | cons place places ih => exact congrArg Nat.succ (ih _)

end H5Server.Lib
