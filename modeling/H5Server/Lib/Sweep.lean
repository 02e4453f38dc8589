import Mathlib.Data.List.Basic

/-! # Default actions for those who have not acted

When the time of a phase is over, a loop acts for everybody who still waits. If an action marks one as
done, and the last of them finishes the phase, then the loop finishes the phase.
-/

namespace H5Server.Lib

variable {σ ι : Type*} (waiting : σ → ι → Prop) [∀ s i, Decidable (waiting s i)] (act : σ → ι → Option σ)

/-- The loop that acts for all who wait. -/
def sweep (items : List ι) (s : σ) : Option σ :=
  items.foldlM (fun s i => if waiting s i then act s i else some s) s

/-- While `Inv` holds, an action marks one as done, and the phase finishes when nobody waits. -/
structure Completes (Inv : σ → Prop) (mark : σ → ι → σ) (finish : σ → Option σ) : Prop where
  goesOn : ∀ s i j, Inv s → waiting s i → waiting (mark s i) j → act s i = some (mark s i)
  finishes : ∀ s i, Inv s → waiting s i → (∀ j, ¬waiting (mark s i) j) → act s i = finish (mark s i)
  keep : ∀ s i, Inv s → waiting s i → Inv (mark s i)
  marked : ∀ s i j, Inv s → waiting s i → waiting (mark s i) j → j ≠ i ∧ waiting s j
  quiet : ∀ s s', Inv s → (∀ j, ¬waiting s j) → finish s = some s' → ∀ j, ¬waiting s' j

variable {waiting act} {items : List ι} {s : σ}

theorem sweep_cons (i : ι) (rest : List ι) :
    sweep waiting act (i :: rest) s = (if waiting s i then act s i else some s).bind (sweep waiting act rest) := rfl

/-- The loop does nothing when nobody waits. -/
theorem sweep_idle (idle : ∀ j, ¬waiting s j) : sweep waiting act items s = some s := by
  induction items with
  | nil => rfl
  | cons i rest ih => rw [sweep_cons, if_neg (idle i), Option.bind_some, ih]

/-- The loop finishes the phase in a state where nobody waits. -/
theorem Completes.sweep_eq {Inv : σ → Prop} {mark : σ → ι → σ} {finish : σ → Option σ}
    (completes : Completes waiting act Inv mark finish) (items : List ι) (start : Inv s)
    (pending : ∃ j, waiting s j) (all : ∀ j, waiting s j → j ∈ items) :
    ∃ last, Inv last ∧ (∀ j, ¬waiting last j) ∧ sweep waiting act items s = finish last := by
  induction items generalizing s with
  | nil =>
    obtain ⟨j, waits⟩ := pending
    exact absurd (all j waits) List.not_mem_nil
  | cons i rest ih =>
    rw [sweep_cons]
    rcases em (waiting s i) with waits | acted
    · have keep := completes.keep s i start waits
      rw [if_pos waits]
      rcases em (∃ j, waiting (mark s i) j) with ⟨j, still⟩ | none_
      · rw [completes.goesOn s i j start waits still, Option.bind_some]
        apply ih keep ⟨j, still⟩
        intro k waits'
        obtain ⟨other, before⟩ := completes.marked s i k start waits waits'
        exact List.mem_of_ne_of_mem other (all k before)
      · have idle : ∀ j, ¬waiting (mark s i) j := fun j still => none_ ⟨j, still⟩
        refine ⟨mark s i, keep, idle, ?_⟩
        rw [completes.finishes s i start waits idle]
        cases done : finish (mark s i) with
        | none => rfl
        | some s' => rw [Option.bind_some, sweep_idle (completes.quiet _ _ keep idle done)]
    · rw [if_neg acted, Option.bind_some]
      apply ih start pending
      intro k waits
      have other : k ≠ i := fun same => acted (same ▸ waits)
      exact List.mem_of_ne_of_mem other (all k waits)

/-- What every action keeps, the loop keeps. -/
theorem sweep_invariant (Inv : σ → Prop) (keep : ∀ s i s', Inv s → waiting s i → act s i = some s' → Inv s')
    {target : σ} (done : sweep waiting act items s = some target) (start : Inv s) : Inv target := by
  induction items generalizing s with
  | nil => cases done; exact start
  | cons i rest ih =>
    rw [sweep_cons] at done
    obtain ⟨middle, taken, tail⟩ := Option.bind_eq_some_iff.mp done
    split at taken
    next waits => exact ih tail (keep s i middle start waits taken)
    · cases taken; exact ih tail start

end H5Server.Lib
