import Mathlib.Data.List.Basic
import Mathlib.Data.Nat.Basic
import Mathlib.Order.Basic
import Mathlib.Algebra.BigOperators.Group.List.Basic

/-! # The first best of a list

A scan that keeps the best entry so far and replaces it only by a strictly better one.
-/

namespace H5Server.Lib

variable {α : Type*} (f : α → ℕ) {best other x : α} {entries : List α}

/-- The entry kept after the next one. -/
def better (best x : α) : α := if f best < f x then x else best

/-- The first best of an entry and the ones behind it. -/
def firstBest (best : α) (entries : List α) : α := entries.foldl (better f) best

theorem better_eq_or (best x : α) : better f best x = best ∨ better f best x = x := by
  rw [better]
  split_ifs
  · exact .inr rfl
  · exact .inl rfl

theorem le_better (best x : α) : f best ≤ f (better f best x) ∧ f x ≤ f (better f best x) := by
  rw [better]
  split_ifs with less
  · exact ⟨less.le, le_rfl⟩
  · exact ⟨le_rfl, not_lt.mp less⟩

theorem firstBest_mem (best : α) (entries : List α) : firstBest f best entries ∈ best :: entries := by
  induction entries generalizing best with
  | nil => exact List.mem_singleton_self best
  | cons x entries ih =>
    have present : firstBest f best (x :: entries) ∈ better f best x :: entries := ih (better f best x)
    rcases List.mem_cons.mp present with same | behind
    · rw [same]
      rcases better_eq_or f best x with kept | replaced
      · rw [kept]
        exact List.mem_cons_self
      · rw [replaced]
        exact List.mem_cons_of_mem _ List.mem_cons_self
    · exact List.mem_cons_of_mem _ (List.mem_cons_of_mem _ behind)

theorem le_firstBest (best : α) (entries : List α) : ∀ y ∈ best :: entries, f y ≤ f (firstBest f best entries) := by
  induction entries generalizing best with
  | nil =>
    intro y present
    rw [List.mem_singleton.mp present]
    exact le_rfl
  | cons x entries ih =>
    intro y present
    have kept : f (better f best x) ≤ f (firstBest f best (x :: entries)) := ih _ _ List.mem_cons_self
    rcases List.mem_cons.mp present with rfl | present
    · exact (le_better f y x).1.trans kept
    · rcases List.mem_cons.mp present with rfl | behind
      · exact (le_better f best y).2.trans kept
      · exact ih _ y (List.mem_cons_of_mem _ behind)

/-- The same entry offered again behind each other one wins when it beats the first strictly and no other beats it. -/
theorem firstBest_interleaved [DecidableEq α] (first extra : α) (entries : List α) :
    firstBest f first (extra :: entries.flatMap fun x => [x, extra]) =
      if f extra ≤ f first ∨ f extra < f (firstBest f first entries) then firstBest f first entries else extra := by
  -- Either scan has the same best, which the extra entry does not beat, or it holds the extra entry.
  have scan : ∀ (behind : List α) (best both : α),
      (both = best ∧ (f extra ≤ f first ∨ f extra < f best) ∧ f extra ≤ f best) ∨
        (both = extra ∧ f first < f extra ∧ f best ≤ f extra) →
      let best := firstBest f best behind
      let both := firstBest f both (behind.flatMap fun x => [x, extra])
      (both = best ∧ (f extra ≤ f first ∨ f extra < f best) ∧ f extra ≤ f best) ∨
        (both = extra ∧ f first < f extra ∧ f best ≤ f extra) := by
    intro behind
    induction behind with
    | nil =>
      intro best both either
      exact either
    | cons x behind ih =>
      intro best both either
      refine ih (better f best x) (better f (better f both x) extra) ?_
      obtain ⟨rfl, beaten, upper⟩ | ⟨rfl, strict, upper⟩ := either
      · have grown := (le_better f both x).1
        refine .inl ⟨?_, beaten.imp_right fun less => less.trans_le grown, upper.trans grown⟩
        rw [better, if_neg (upper.trans grown).not_gt]
      · rcases lt_or_ge (f both) (f x) with less | enough
        · rw [better, better, better, if_pos less, if_neg less.le.not_gt, if_pos (upper.trans_lt less)]
          exact .inl ⟨rfl, .inr less, less.le⟩
        · refine .inr ⟨?_, strict, ?_⟩
          · rw [better, better, if_neg enough.not_gt, if_neg (lt_irrefl _)]
          · rw [better]
            split_ifs
            · exact enough
            · exact upper
  have start : (better f first extra = first ∧ (f extra ≤ f first ∨ f extra < f first) ∧ f extra ≤ f first) ∨
      (better f first extra = extra ∧ f first < f extra ∧ f first ≤ f extra) := by
    rw [better]
    rcases lt_or_ge (f first) (f extra) with less | enough
    · rw [if_pos less]
      exact .inr ⟨rfl, less, less.le⟩
    · rw [if_neg enough.not_gt]
      exact .inl ⟨rfl, .inl enough, enough⟩
  obtain ⟨same, beaten, -⟩ | ⟨same, strict, upper⟩ := scan entries first (better f first extra) start
  · rw [if_pos beaten]
    exact same
  · rw [if_neg (by omega)]
    exact same

end H5Server.Lib
