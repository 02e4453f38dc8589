import Mathlib.Data.List.Basic
import Mathlib.Data.List.Infix

/-! # Splitting at the first separator

A text is split at the first place where the separator stands. More text behind it splits off at the same place, so it
does not matter how much of what follows is already there.
-/

namespace H5Server.Lib

variable {α : Type*} [DecidableEq α] {separator text front back : List α}

/-- What stands before the first separator, and what behind it. -/
def splitFirst (separator : List α) : List α → Option (List α × List α)
  | [] => if separator = [] then some ([], []) else none
  | c :: text =>
    if separator <+: c :: text then some ([], (c :: text).drop separator.length)
    else (splitFirst separator text).map fun (front, back) => (c :: front, back)

/-- The parts make up the text. -/
theorem append_of_splitFirst (found : splitFirst separator text = some (front, back)) :
    text = front ++ (separator ++ back) := by
  induction text generalizing front with
  | nil =>
    rw [splitFirst] at found
    split at found
    · rename_i empty
      obtain ⟨rfl, rfl⟩ := Prod.mk.inj (Option.some.inj found)
      rw [empty]
      rfl
    · contradiction
  | cons c text ih =>
    rw [splitFirst] at found
    split at found
    · rename_i here
      obtain ⟨rfl, rfl⟩ := Prod.mk.inj (Option.some.inj found)
      exact (List.prefix_iff_eq_append.mp here).symm
    · obtain ⟨⟨front', back'⟩, later, eq⟩ := Option.map_eq_some_iff.mp found
      obtain ⟨rfl, rfl⟩ := Prod.mk.inj eq
      rw [ih later, List.cons_append]

theorem length_of_splitFirst (found : splitFirst separator text = some (front, back)) :
    front.length + separator.length + back.length = text.length := by
  have whole := congrArg List.length (append_of_splitFirst found)
  rw [List.length_append, List.length_append] at whole
  omega

/-- Where a separator is found, what is added behind the text changes nothing. -/
theorem splitFirst_append (found : splitFirst separator text = some (front, back)) (more : List α) :
    splitFirst separator (text ++ more) = some (front, back ++ more) := by
  induction text generalizing front with
  | nil =>
    rw [splitFirst] at found
    split at found
    · rename_i empty
      obtain ⟨rfl, rfl⟩ := Prod.mk.inj (Option.some.inj found)
      subst empty
      cases more with
      | nil => rfl
      | cons c more => exact if_pos List.nil_prefix
    · contradiction
  | cons c text ih =>
    rw [splitFirst] at found
    rw [List.cons_append, splitFirst]
    split at found
    · rename_i here
      obtain ⟨rfl, rfl⟩ := Prod.mk.inj (Option.some.inj found)
      have here' : separator <+: c :: (text ++ more) := here.trans (List.prefix_append (c :: text) more)
      rw [if_pos here', ← List.cons_append, List.drop_append_of_le_length here.length_le]
    · rename_i absent
      obtain ⟨⟨front', back'⟩, later, eq⟩ := Option.map_eq_some_iff.mp found
      obtain ⟨rfl, rfl⟩ := Prod.mk.inj eq
      have absent' : ¬separator <+: c :: (text ++ more) := by
        intro here
        have room : separator.length ≤ (c :: text).length := by
          have := length_of_splitFirst later
          rw [List.length_cons]
          omega
        exact absent (List.prefix_of_prefix_length_le here (List.prefix_append (c :: text) more) room)
      rw [if_neg absent', ih later]
      rfl

/-- The first separator is where its first letter is. -/
theorem splitFirst_of_notMem {c : α} {rest : List α} (absent : c ∉ front) (back : List α) :
    splitFirst (c :: rest) (front ++ (c :: rest ++ back)) = some (front, back) := by
  induction front with
  | nil =>
    have here : c :: rest <+: c :: (rest ++ back) := List.prefix_append (c :: rest) back
    rw [List.nil_append, List.cons_append, splitFirst, if_pos here, ← List.cons_append, List.drop_left]
  | cons d front ih =>
    obtain ⟨other, absent⟩ := not_or.mp (mt List.mem_cons.mpr absent)
    rw [List.cons_append, splitFirst, if_neg fun here => other (List.cons_prefix_cons.mp here).1, ih absent]
    rfl

theorem splitFirst_letter {c : α} (absent : c ∉ front) (back : List α) :
    splitFirst [c] (front ++ c :: back) = some (front, back) := splitFirst_of_notMem absent back

theorem splitFirst_eq_none {c : α} {rest : List α} (absent : c ∉ text) : splitFirst (c :: rest) text = none := by
  cases found : splitFirst (c :: rest) text with
  | none => rfl
  | some parts =>
    refine absurd ?_ absent
    rw [append_of_splitFirst found]
    simp

/-- Of a text that is not there up to the end of its first separator, nothing is split off. -/
theorem splitFirst_of_short {whole : List α} (there : text <+: whole)
    (first : splitFirst separator whole = some (front, back)) (short : text.length < front.length + separator.length) :
    splitFirst separator text = none := by
  cases found : splitFirst separator text with
  | none => rfl
  | some parts =>
    obtain ⟨more, rfl⟩ := there
    obtain ⟨rfl, -⟩ := Prod.mk.inj (Option.some.inj (first.symm.trans (splitFirst_append found more)))
    have := length_of_splitFirst found
    omega

end H5Server.Lib
