import Mathlib.Data.List.Basic

/-! # Demands and the supplies that answer them

In a log some entries raise a demand and some entries supply. A demand stands until the next
supply. A log is faithful when every supply meets each demand that stands before it.
-/

namespace H5Server.Lib

variable {ε κ δ : Type*} (demand : ε → Option κ) (supply : ε → Option δ) (meets : κ → δ → Prop)

/-- A demand of the log that no later entry has answered. -/
def Stands (log : List ε) (need : κ) : Prop :=
  ∃ before entry after, log = before ++ entry :: after ∧ demand entry = some need ∧
    ∀ later ∈ after, supply later = none

/-- Every supply meets each demand that stands before it. -/
def Faithful (log : List ε) : Prop :=
  ∀ before entry after given, log = before ++ entry :: after → supply entry = some given →
    ∀ need, Stands demand supply before need → meets need given

variable {demand supply meets} {log : List ε} {entry : ε}

theorem not_stands_nil (need : κ) : ¬Stands demand supply [] need := by
  rintro ⟨before, entry, after, split, -⟩
  exact List.append_ne_nil_of_right_ne_nil before (List.cons_ne_nil entry after) split.symm

private theorem eq_nil_or_snoc (log : List ε) : log = [] ∨ ∃ front last, log = front ++ [last] := by
  simpa only [List.concat_eq_append] using List.eq_nil_or_concat log

/-- Where an entry of a longer log stands: in the log, or at its end. -/
private theorem split_snoc {before after : List ε} {found : ε} (split : log ++ [entry] = before ++ found :: after) :
    (before = log ∧ found = entry ∧ after = []) ∨
      ∃ front, after = front ++ [entry] ∧ log = before ++ found :: front := by
  obtain rfl | ⟨front, last, rfl⟩ := eq_nil_or_snoc after
  · obtain ⟨same, here⟩ := List.append_inj' split rfl
    exact .inl ⟨same.symm, (List.singleton_inj.mp here).symm, rfl⟩
  · have parts : log ++ [entry] = (before ++ found :: front) ++ [last] := by
      rw [split, List.append_assoc, List.cons_append]
    obtain ⟨shorter, here⟩ := List.append_inj' parts rfl
    obtain rfl := List.singleton_inj.mp here
    exact .inr ⟨front, rfl, shorter⟩

/-- A supply answers everything, unless it raises a demand of its own. -/
theorem not_stands_snoc_supply {given : δ} (supplies : supply entry = some given) (quiet : demand entry = none)
    (need : κ) : ¬Stands demand supply (log ++ [entry]) need := by
  rintro ⟨before, raised, after, split, raises, unanswered⟩
  obtain ⟨-, rfl, -⟩ | ⟨front, rfl, -⟩ := split_snoc split
  · rw [quiet] at raises
    cases raises
  · have silent := unanswered entry (List.mem_append_right _ List.mem_cons_self)
    rw [supplies] at silent
    cases silent

/-- An entry without a supply leaves the standing demands, and may add its own. -/
theorem stands_snoc (silent : supply entry = none) (need : κ) :
    Stands demand supply (log ++ [entry]) need ↔
      Stands demand supply log need ∨ demand entry = some need := by
  constructor
  · rintro ⟨before, raised, after, split, raises, unanswered⟩
    obtain ⟨-, rfl, -⟩ | ⟨front, rfl, shorter⟩ := split_snoc split
    · exact .inr raises
    · exact .inl ⟨before, raised, front, shorter, raises, fun later present =>
        unanswered later (List.mem_append_left _ present)⟩
  · rintro (⟨before, raised, after, rfl, raises, unanswered⟩ | raises)
    · refine ⟨before, raised, after ++ [entry], by simp, raises, fun later present => ?_⟩
      obtain present | here := List.mem_append.mp present
      · exact unanswered later present
      · rw [List.mem_singleton.mp here, silent]
    · exact ⟨log, entry, [], rfl, raises, nofun⟩

theorem faithful_nil : Faithful demand supply meets [] := by
  intro before entry after given split
  exact absurd split.symm (List.append_ne_nil_of_right_ne_nil before (List.cons_ne_nil entry after))

theorem faithful_snoc (faithful : Faithful demand supply meets log)
    (answers : ∀ given, supply entry = some given → ∀ need, Stands demand supply log need → meets need given) :
    Faithful demand supply meets (log ++ [entry]) := by
  intro before supplied after given split supplies need stands
  obtain ⟨rfl, rfl, -⟩ | ⟨front, -, shorter⟩ := split_snoc split
  · exact answers given supplies need stands
  · exact faithful before supplied front given shorter supplies need stands

/-- An entry that raises no demand: none stands after it that did not stand before. -/
theorem stands_of_snoc (quiet : demand entry = none) {need : κ}
    (stands : Stands demand supply (log ++ [entry]) need) : Stands demand supply log need := by
  cases supplies : supply entry with
  | some given => exact absurd stands (not_stands_snoc_supply supplies quiet need)
  | none =>
    refine ((stands_snoc supplies need).mp stands).resolve_right fun raises => ?_
    rw [quiet] at raises
    cases raises

theorem stands_of_append {entries : List ε} (quiet : ∀ entry ∈ entries, demand entry = none) {need : κ}
    (stands : Stands demand supply (log ++ entries) need) : Stands demand supply log need := by
  induction entries generalizing log with
  | nil => rwa [List.append_nil] at stands
  | cons entry rest ih =>
    rw [List.append_cons] at stands
    exact stands_of_snoc (quiet entry List.mem_cons_self)
      (ih (fun later present => quiet later (List.mem_cons_of_mem _ present)) stands)

/-- Entries that raise no demand and whose supplies meet the standing demands. -/
theorem faithful_append {entries : List ε} (faithful : Faithful demand supply meets log)
    (quiet : ∀ entry ∈ entries, demand entry = none)
    (answers : ∀ entry ∈ entries, ∀ given, supply entry = some given →
      ∀ need, Stands demand supply log need → meets need given) :
    Faithful demand supply meets (log ++ entries) := by
  induction entries generalizing log with
  | nil => rwa [List.append_nil]
  | cons entry rest ih =>
    rw [List.append_cons]
    refine ih (faithful_snoc faithful (answers entry List.mem_cons_self))
      (fun later present => quiet later (List.mem_cons_of_mem _ present)) ?_
    intro later present given supplies need stands
    exact answers later (List.mem_cons_of_mem _ present) given supplies need
      (stands_of_snoc (quiet entry List.mem_cons_self) stands)

end H5Server.Lib
