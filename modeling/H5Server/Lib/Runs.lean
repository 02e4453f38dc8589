import Mathlib.Data.List.Basic

/-! # Finite runs of a partial step function

A component is a step function that is undefined where an event cannot happen. A run carries the
events taken, and a condition that each of its steps meets in the state it starts from. An
invariant of the steps that meet the condition is an invariant of the runs.
-/

namespace H5Server.Lib

variable {σ ε : Type*}

/-- A finite run whose every step meets `ok` in its source state. -/
inductive Run (step : σ → ε → Option σ) (ok : σ → ε → Prop) : σ → List ε → σ → Prop
  | nil (s : σ) : Run step ok s [] s
  | cons {source middle target : σ} {event : ε} {events : List ε}
      (allowed : ok source event) (taken : step source event = some middle)
      (tail : Run step ok middle events target) : Run step ok source (event :: events) target

namespace Run

variable {step : σ → ε → Option σ} {ok : σ → ε → Prop} {source target : σ} {events : List ε}

/-- What every allowed step keeps, every run keeps. -/
theorem invariant {Inv : σ → Prop}
    (keep : ∀ s event s', Inv s → ok s event → step s event = some s' → Inv s')
    (run : Run step ok source events target) (start : Inv source) : Inv target := by
  induction run with
  | nil => exact start
  | cons allowed taken _ ih => exact ih (keep _ _ _ start allowed taken)

/-- A condition may be weakened along a run. -/
theorem mono {weaker : σ → ε → Prop} (imp : ∀ s event, ok s event → weaker s event)
    (run : Run step ok source events target) : Run step weaker source events target := by
  induction run with
  | nil => exact .nil _
  | cons allowed taken _ ih => exact .cons (imp _ _ allowed) taken ih

theorem append {middle : σ} {first second : List ε} (left : Run step ok source first middle)
    (right : Run step ok middle second target) : Run step ok source (first ++ second) target := by
  induction left with
  | nil => exact right
  | cons allowed taken _ ih => exact .cons allowed taken (ih right)

/-- One more step at the end of a run. -/
theorem snoc {middle : σ} {event : ε} (run : Run step ok source events middle)
    (allowed : ok middle event) (taken : step middle event = some target) :
    Run step ok source (events ++ [event]) target :=
  run.append (.cons allowed taken (.nil _))

end Run

/-- Replay a list of events. -/
def replay (step : σ → ε → Option σ) : σ → List ε → Option σ
  | s, [] => some s
  | s, event :: events => (step s event).bind fun next => replay step next events

/-- A replay that does not get stuck is a run, if its events are allowed wherever they happen. -/
theorem run_of_replay_of {step : σ → ε → Option σ} {ok : σ → ε → Prop} {source target : σ} {events : List ε}
    (allowed : ∀ event ∈ events, ∀ s, ok s event) (success : replay step source events = some target) :
    Run step ok source events target := by
  induction events generalizing source with
  | nil => cases success; exact .nil _
  | cons event rest ih =>
    obtain ⟨middle, taken, tail⟩ := Option.bind_eq_some_iff.mp success
    exact .cons (allowed event List.mem_cons_self source) taken
      (ih (fun later present => allowed later (List.mem_cons_of_mem _ present)) tail)

/-- A replay is a run without a condition on its steps. -/
theorem run_of_replay {step : σ → ε → Option σ} {source target : σ} {events : List ε}
    (success : replay step source events = some target) :
    Run step (fun _ _ => True) source events target :=
  run_of_replay_of (fun _ _ _ => trivial) success

/-- What the steps of a replay leave behind, in order. -/
def record {α : Type*} (step : σ → ε → Option σ) (emit : σ → σ → List α) : σ → List ε → List α
  | _, [] => []
  | s, event :: events =>
    match step s event with
    | none => []
    | some next => emit s next ++ record step emit next events

/-- What every allowed step keeps of its state and of the record so far, every run keeps. -/
theorem Run.record_invariant {α : Type*} {step : σ → ε → Option σ} {ok : σ → ε → Prop} {emit : σ → σ → List α}
    {source target : σ} {events : List ε} (Inv : List α → σ → Prop)
    (keep : ∀ before s event s', Inv before s → ok s event → step s event = some s' → Inv (before ++ emit s s') s')
    (run : Run step ok source events target) (start : Inv [] source) : Inv (record step emit source events) target := by
  have later : ∀ before, Inv before source → Inv (before ++ record step emit source events) target := by
    clear start
    induction run with
    | nil =>
      intro before inv
      rwa [record, List.append_nil]
    | cons allowed taken _ ih =>
      intro before inv
      rw [record, taken, ← List.append_assoc]
      exact ih _ (keep _ _ _ _ inv allowed taken)
  exact later [] start

/-- The steps that are allowed. -/
def guarded (step : σ → ε → Option σ) (ok : σ → ε → Prop) [∀ s event, Decidable (ok s event)] (s : σ) (event : ε) :
    Option σ :=
  if ok s event then step s event else none

/-- A replay that also gets stuck where an event is not allowed is a run. -/
theorem run_of_guarded {step : σ → ε → Option σ} {ok : σ → ε → Prop} [∀ s event, Decidable (ok s event)]
    {source target : σ} {events : List ε} (success : replay (guarded step ok) source events = some target) :
    Run step ok source events target := by
  induction events generalizing source with
  | nil => cases success; exact .nil _
  | cons event rest ih =>
    obtain ⟨middle, taken, tail⟩ := Option.bind_eq_some_iff.mp success
    rw [guarded] at taken
    split at taken
    next allowed => exact .cons allowed taken (ih tail)
    · cases taken

/-- Steps that are defined everywhere do not get stuck. -/
theorem replay_total (step : σ → ε → σ) (s : σ) (events : List ε) :
    replay (fun s event => some (step s event)) s events = some (events.foldl step s) := by
  induction events generalizing s with
  | nil => rfl
  | cons event rest ih => exact ih (step s event)

/-- Along a run of steps that are defined everywhere, every event meets `ok` in the state it finds. -/
def Each (step : σ → ε → σ) (ok : σ → ε → Prop) : σ → List ε → Prop
  | _, [] => True
  | s, event :: events => ok s event ∧ Each step ok (step s event) events

theorem each_of_forall {step : σ → ε → σ} {ok : σ → ε → Prop} (all : ∀ s event, ok s event) (s : σ) (events : List ε) :
    Each step ok s events := by
  induction events generalizing s with
  | nil => trivial
  | cons event events ih => exact ⟨all s event, ih _⟩

/-- Where steps do their duty exactly under a condition, and keep an invariant under it, a run does so exactly if all its
steps meet the condition. -/
theorem each_iff {step : σ → ε → σ} (Inv : σ → Prop) {legal duty ok : σ → ε → Prop}
    (one : ∀ s event, Inv s → legal s event → (duty s event ↔ ok s event))
    (keep : ∀ s event, Inv s → legal s event → ok s event → Inv (step s event)) {s : σ} (start : Inv s)
    {events : List ε} (allowed : Each step legal s events) : Each step duty s events ↔ Each step ok s events := by
  induction events generalizing s with
  | nil => exact Iff.rfl
  | cons event events ih =>
    obtain ⟨here, later⟩ := allowed
    have first := one s event start here
    constructor
    · rintro ⟨good, rest⟩
      have met := first.mp good
      exact ⟨met, (ih (keep s event start here met) later).mp rest⟩
    · rintro ⟨met, rest⟩
      exact ⟨first.mpr met, (ih (keep s event start here met) later).mpr rest⟩

/-- What every round of a loop keeps, the loop keeps. -/
theorem foldlM_invariant {α : Type*} {body : σ → α → Option σ} (Inv : σ → Prop)
    (keep : ∀ s a s', Inv s → body s a = some s' → Inv s') {items : List α} {source target : σ}
    (done : items.foldlM body source = some target) (start : Inv source) : Inv target := by
  induction items generalizing source with
  | nil => cases done; exact start
  | cons a rest ih =>
    rw [List.foldlM_cons] at done
    obtain ⟨middle, taken, tail⟩ := Option.bind_eq_some_iff.mp done
    exact ih tail (keep _ _ _ start taken)

/-- A loop that is defined everywhere, with an invariant on what is behind it and on the state. -/
theorem foldl_invariant {α : Type*} {body : σ → α → σ} (Inv : List α → σ → Prop) {items : List α} {source : σ}
    (start : Inv [] source) (keep : ∀ behind s a, a ∈ items → Inv behind s → Inv (behind ++ [a]) (body s a)) :
    Inv items (items.foldl body source) := by
  have later (behind rest : List α) (s : σ) (sub : rest ⊆ items) (inv : Inv behind s) :
      Inv (behind ++ rest) (rest.foldl body s) := by
    induction rest generalizing behind s with
    | nil => rwa [List.append_nil]
    | cons a rest ih =>
      obtain ⟨here, there⟩ := List.cons_subset.mp sub
      rw [List.foldl_cons, List.append_cons]
      exact ih _ _ there (keep behind s a here inv)
  exact later [] items source (List.Subset.refl _) start

end H5Server.Lib
