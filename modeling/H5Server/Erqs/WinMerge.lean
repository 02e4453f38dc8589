import H5Server.Erqs.WinCheck

/-! # Merging the parts of a winning hand

The honours give one card, each suit its decompositions. When at most one suit has several of them, `mergeComposeCards`
gives all ways to choose one of each that have at most one pair together.
-/

namespace H5Server.Erqs

open Lib

variable {table : Table} {s s' : ℕ → Melds} {zi d : ComposeCard}

/-! ## Honours -/

/-- The melds of the honours, which are not put into runs. -/
def ziMelds (table : Table) (i : ℕ) : Melds where
  triplets := if table.get i = 3 then 1 else 0
  runs := 0
  pairs := if table.get i = 2 then 1 else 0

theorem threesFrom_add (left left' cur : Nat) (s : ℕ → Melds) :
    threesFrom (left + left') cur s = threesFrom left cur s ++ threesFrom left' (cur + left) s := by
  induction left generalizing cur with
  | zero => rw [Nat.zero_add, threesFrom, List.nil_append, Nat.add_zero]
  | succ left ih =>
    rw [Nat.add_right_comm, threesFrom, ih, threesFrom, List.append_assoc, Nat.add_right_comm cur 1 left, Nat.add_assoc]

theorem eyesFrom_add (left left' cur : Nat) (s : ℕ → Melds) :
    eyesFrom (left + left') cur s = eyesFrom left cur s ++ eyesFrom left' (cur + left) s := by
  induction left generalizing cur with
  | zero => rw [Nat.zero_add, eyesFrom, List.nil_append, Nat.add_zero]
  | succ left ih =>
    rw [Nat.add_right_comm, eyesFrom, ih, eyesFrom, List.append_assoc, Nat.add_right_comm cur 1 left, Nat.add_assoc]

theorem threesFrom_succ (left cur : Nat) (s : ℕ → Melds) :
    threesFrom (left + 1) cur s = threesFrom left cur s ++ threesAt (cur + left) (s (cur + left)) := by
  rw [threesFrom_add, threesFrom, threesFrom, List.append_nil]

theorem eyesFrom_succ (left cur : Nat) (s : ℕ → Melds) :
    eyesFrom (left + 1) cur s = eyesFrom left cur s ++ eyesAt (cur + left) (s (cur + left)) := by
  rw [eyesFrom_add, eyesFrom, eyesFrom, List.append_nil]

theorem threesFrom_congr {left cur : Nat} (same : ∀ j, cur ≤ j → j < cur + left → s j = s' j) :
    threesFrom left cur s = threesFrom left cur s' := by
  induction left generalizing cur with
  | zero => rfl
  | succ left ih =>
    rw [threesFrom, threesFrom, same cur le_rfl (by omega), ih fun j low high => same j (by omega) (by omega)]

theorem eyesFrom_congr {left cur : Nat} (same : ∀ j, cur ≤ j → j < cur + left → s j = s' j) :
    eyesFrom left cur s = eyesFrom left cur s' := by
  induction left generalizing cur with
  | zero => rfl
  | succ left ih =>
    rw [eyesFrom, eyesFrom, same cur le_rfl (by omega), ih fun j low high => same j (by omega) (by omega)]

/-- One honour in the pass of `check_zi`. -/
def ziStep (table : Table) (acc : Option (Bool × ComposeCard)) (k : Nat) : Option (Bool × ComposeCard) :=
  acc.bind fun (eye, composeCard) =>
    let i := 28 + k
    if table.get i = 0 then some (eye, composeCard)
    else if table.get i = 1 ∨ table.get i = 4 then none
    else if eye ∧ table.get i = 2 then none
    else if table.get i = 2 then some (true, { composeCard with eye := some (getCardByIdx i) })
    else if table.get i = 3 then
      let card := getCardByIdx i
      some (eye, { composeCard with threes := composeCard.threes ++ [⟨[card, card, card], .repeat⟩] })
    else some (eye, composeCard)

/-- Honours are neither alone nor four, and at most one is a pair. -/
def ZiFits (table : Table) (count : Nat) : Prop :=
  (∀ k < count, table.get (28 + k) ≠ 1 ∧ table.get (28 + k) ≠ 4) ∧ (eyesFrom count 28 (ziMelds table)).length ≤ 1

instance (table : Table) (count : Nat) : Decidable (ZiFits table count) := inferInstanceAs (Decidable (_ ∧ _))

theorem ziFits_succ {count : Nat} : ZiFits table (count + 1) ↔ ZiFits table count
    ∧ (table.get (28 + count) ≠ 1 ∧ table.get (28 + count) ≠ 4)
    ∧ (table.get (28 + count) = 2 → eyesFrom count 28 (ziMelds table) = []) := by
  have pair : (eyesAt (28 + count) (ziMelds table (28 + count))).length = if table.get (28 + count) = 2 then 1 else 0 := by
    rw [eyesAt, List.length_replicate]
    rfl
  rw [ZiFits, ZiFits, eyesFrom_succ, List.length_append, pair, Nat.forall_lt_succ_right, ← List.length_eq_zero_iff]
  split <;> grind

theorem foldl_ziStep (table : Table) (count : Nat) :
    (List.range count).foldl (ziStep table) (some (false, {})) =
      if ZiFits table count then
        some (!(eyesFrom count 28 (ziMelds table)).isEmpty,
          ⟨threesFrom count 28 (ziMelds table), (eyesFrom count 28 (ziMelds table)).head?⟩)
      else none := by
  induction count with
  | zero => rfl
  | succ count ih =>
    rw [List.range_succ, List.foldl_append, ih, List.foldl_cons, List.foldl_nil]
    simp only [ziFits_succ]
    rw [threesFrom_succ, eyesFrom_succ]
    split
    next before =>
      have one := before.2
      rw [ziStep, Option.bind_some, threesAt, eyesAt, ziMelds]
      simp only [before, true_and]
      generalize eyesFrom count 28 (ziMelds table) = eyes at *
      generalize threesFrom count 28 (ziMelds table) = threes
      generalize table.get (28 + count) = n
      rcases eyes with _ | ⟨eye, _ | ⟨second, others⟩⟩
      · rcases n with _ | _ | _ | _ | _ | n <;> simp
      · rcases n with _ | _ | _ | _ | _ | n <;> simp
      · simp at one
    next before =>
      rw [if_neg fun both => before both.1]
      rfl

theorem checkZi_eq (table : Table) : checkZi table =
    if ZiFits table 7 then
      some (!(eyesFrom 7 28 (ziMelds table)).isEmpty,
        ⟨threesFrom 7 28 (ziMelds table), (eyesFrom 7 28 (ziMelds table)).head?⟩)
    else none :=
  foldl_ziStep table 7

/-! ## Suits -/

/-- What a suit offers: one without tiles has the empty decomposition. -/
def choices (composeCards : List ComposeCard) : List ComposeCard :=
  if composeCards = [] then [{}] else composeCards

/-- The melds and pairs of the pieces are those of the card, in any order. -/
structure Joined (pieces : List ComposeCard) (d : ComposeCard) : Prop where
  threes : d.threes.Perm (pieces.flatMap (·.threes))
  eye : d.eye.toList.Perm (pieces.flatMap (·.eye.toList))

theorem joined_of_assemble {pieces : List ComposeCard} (put : assemble pieces = some d) : Joined pieces d := by
  rw [assemble_eq] at put
  split at put
  next one =>
    obtain rfl := Option.some.inj put
    exact ⟨(List.reverse_perm pieces).flatMap_right _, .of_eq (eye_of_length_le_one one)⟩
  next => exact absurd put nofun

theorem exists_assemble {pieces : List ComposeCard} (one : (pieces.flatMap (·.eye.toList)).length ≤ 1) :
    ∃ d, assemble pieces = some d := by
  rw [assemble_eq, if_pos one]
  exact ⟨_, rfl⟩

theorem Joined.perm {pieces pieces' : List ComposeCard} (joined : Joined pieces d) (perm : pieces.Perm pieces') :
    Joined pieces' d :=
  ⟨joined.threes.trans (perm.flatMap_right _), joined.eye.trans (perm.flatMap_right _)⟩

theorem Joined.one {pieces : List ComposeCard} (joined : Joined pieces d) :
    (pieces.flatMap (·.eye.toList)).length ≤ 1 := by
  rw [← joined.eye.length_eq]
  cases d.eye <;> simp

/-- The suits in any order, where at most one has several decompositions. -/
def Single (colors : List (List ComposeCard)) : Prop :=
  colors.Pairwise fun left right => left.length ≤ 1 ∨ right.length ≤ 1

theorem sortComposeColors_perm (colors : List (List ComposeCard)) : (sortComposeColors colors).Perm colors :=
  List.perm_insertionSort _ _

theorem exists_sorted {colors : List (List ComposeCard)} (three : colors.length = 3) (single : Single colors) :
    ∃ first second third, sortComposeColors colors = [first, second, third] ∧ second.length ≤ 1 ∧ third.length ≤ 1
      ∧ (first = [] → second = []) ∧ (second = [] → third = []) := by
  have perm := sortComposeColors_perm colors
  have ordered : (sortComposeColors colors).Pairwise fun a b => b.length ≤ a.length := by
    have : Std.Total fun a b : List ComposeCard => b.length ≤ a.length := ⟨fun a b => Nat.le_total _ _⟩
    have : IsTrans (List ComposeCard) fun a b => b.length ≤ a.length := ⟨fun a b c first second => second.trans first⟩
    exact List.pairwise_insertionSort _ _
  have single' : Single (sortComposeColors colors) := (perm.pairwise_iff fun {a b} => Or.symm).mpr single
  have size : (sortComposeColors colors).length = 3 := perm.length_eq.trans three
  obtain ⟨first, second, third, eq⟩ := List.length_eq_three.mp size
  rw [eq] at ordered single'
  simp only [Single, List.pairwise_cons, List.mem_cons, List.not_mem_nil, or_false, forall_eq_or_imp, forall_eq,
    false_implies, implies_true, List.Pairwise.nil, and_true] at ordered single'
  refine ⟨first, second, third, eq, by omega, by omega, fun none_ => ?_, fun none_ => ?_⟩
  · rw [none_] at ordered
    exact List.eq_nil_of_length_eq_zero (by simpa using ordered.1.1)
  · rw [none_] at ordered
    exact List.eq_nil_of_length_eq_zero (by simpa using ordered.2)

theorem assemble_nil_right (pieces : List ComposeCard) : assemble (pieces ++ [({} : ComposeCard)]) = assemble pieces := by
  rw [assemble, List.foldl_append, ← assemble]
  cases assemble pieces <;> rfl

theorem assemble_append_singleton (pieces : List ComposeCard) (piece : ComposeCard) :
    assemble (pieces ++ [piece]) = (assemble pieces).bind (mergeComposeCard · piece) := by
  rw [assemble, List.foldl_append, ← assemble, List.foldl_cons, List.foldl_nil]
  refine congrArg _ (funext fun card => ?_)
  rw [mergeComposeCard]
  simp only [and_comm]

/-- The merge chooses one decomposition of each suit. -/
theorem mergeComposeCards_eq (zi : ComposeCard) {colors : List (List ComposeCard)} {first second third : List ComposeCard}
    (sorted : sortComposeColors colors = [first, second, third]) (one : second.length ≤ 1) (one' : third.length ≤ 1)
    (none_ : first = [] → second = []) (none' : second = [] → third = []) :
    mergeComposeCards zi colors = (choices first).filterMap fun card =>
      assemble (zi :: card :: (choices second ++ choices third)) := by
  have pair (card : ComposeCard) : assemble [zi, card] = mergeComposeCard zi card := by
    rw [← List.singleton_append, assemble_append_singleton]
    cases zi
    simp [assemble]
  have at0 : [first, second, third].getD 0 [] = first := rfl
  have at1 : [first, second, third].getD 1 [] = second := rfl
  have at2 : [first, second, third].getD 2 [] = third := rfl
  rw [mergeComposeCards, sorted]
  simp only [at0, at1, at2]
  clear at0 at1 at2
  cases first with
  | nil =>
    obtain rfl := none_ rfl
    obtain rfl := none' rfl
    cases zi
    simp [choices, assemble]
  | cons card1 rest =>
    simp only [List.isEmpty_cons, Bool.false_eq_true, if_false]
    rw [show choices (card1 :: rest) = card1 :: rest from if_neg (List.cons_ne_nil _ _)]
    refine List.filterMap_congr fun card _ => ?_
    rcases second with _ | ⟨card2, _ | ⟨other, others⟩⟩
    · rw [none' rfl, show zi :: card :: (choices [] ++ choices []) = ([zi, card] ++ [{}]) ++ [{}] from rfl,
        assemble_nil_right, assemble_nil_right, pair]
      cases mergeComposeCard zi card <;> rfl
    · rcases third with _ | ⟨card3, _ | ⟨other, others⟩⟩
      · rw [show zi :: card :: (choices [card2] ++ choices []) = ([zi, card] ++ [card2]) ++ [{}] from rfl,
          assemble_nil_right, assemble_append_singleton, pair]
        cases mergeComposeCard zi card with
        | none => rfl
        | some acc =>
          simp only [List.foldl_cons, List.foldl_nil, Option.bind_some]
          cases second : mergeComposeCard acc card2 <;> simp [mergeInto, second]
      · rw [show zi :: card :: (choices [card2] ++ choices [card3]) = ([zi, card] ++ [card2]) ++ [card3] from rfl,
          assemble_append_singleton, assemble_append_singleton, pair]
        cases mergeComposeCard zi card with
        | none => rfl
        | some acc =>
          simp only [List.foldl_cons, List.foldl_nil, Option.bind_some]
          cases second : mergeComposeCard acc card2 with
          | none => simp [mergeInto, second]
          | some next => cases third : mergeComposeCard next card3 <;> simp [mergeInto, second, third]
      · simp at one'
    · simp at one

/-- One decomposition is chosen of each suit. -/
def Chosen (picks : List ComposeCard) (colors : List (List ComposeCard)) : Prop :=
  List.Forall₂ (fun pick composeCards => pick ∈ choices composeCards) picks colors

variable {colors : List (List ComposeCard)} {picks : List ComposeCard}

theorem choices_of_length_le_one {composeCards : List ComposeCard} (one : composeCards.length ≤ 1) :
    ∃ pick, choices composeCards = [pick] := by
  match composeCards, one with
  | [], _ => exact ⟨{}, rfl⟩
  | [pick], _ => exact ⟨pick, rfl⟩

theorem Chosen.perm {colors' : List (List ComposeCard)} (chosen : Chosen picks colors) (perm : colors.Perm colors') :
    ∃ picks', Chosen picks' colors' ∧ picks.Perm picks' := by
  have both : Relation.Comp (List.Forall₂ fun pick composeCards => pick ∈ choices composeCards) List.Perm picks colors' :=
    ⟨colors, chosen, perm⟩
  rw [List.forall₂_comp_perm_eq_perm_comp_forall₂] at both
  obtain ⟨picks', perm', chosen'⟩ := both
  exact ⟨picks', chosen', perm'⟩

theorem exists_chosen (three : colors.length = 3) (single : Single colors) (present : d ∈ mergeComposeCards zi colors) :
    ∃ picks, Chosen picks colors ∧ Joined (zi :: picks) d := by
  obtain ⟨first, second, third, sorted, one, one', none_, none'⟩ := exists_sorted three single
  obtain ⟨pick2, eq2⟩ := choices_of_length_le_one one
  obtain ⟨pick3, eq3⟩ := choices_of_length_le_one one'
  rw [mergeComposeCards_eq zi sorted one one' none_ none', eq2, eq3] at present
  obtain ⟨pick1, inside, put⟩ := List.mem_filterMap.mp present
  have chosen : Chosen [pick1, pick2, pick3] (sortComposeColors colors) := by
    rw [sorted]
    exact .cons inside (.cons (eq2 ▸ List.mem_singleton_self _) (.cons (eq3 ▸ List.mem_singleton_self _) .nil))
  obtain ⟨picks, chosen', perm⟩ := chosen.perm (sortComposeColors_perm colors)
  exact ⟨picks, chosen', (joined_of_assemble put).perm (perm.cons zi)⟩

theorem Chosen.exists_mem (three : colors.length = 3) (single : Single colors) (chosen : Chosen picks colors)
    (one : ((zi :: picks).flatMap (·.eye.toList)).length ≤ 1) : ∃ d ∈ mergeComposeCards zi colors, Joined (zi :: picks) d := by
  obtain ⟨first, second, third, sorted, few, few', none_, none'⟩ := exists_sorted three single
  obtain ⟨pick2, eq2⟩ := choices_of_length_le_one few
  obtain ⟨pick3, eq3⟩ := choices_of_length_le_one few'
  obtain ⟨picks', chosen', perm⟩ := chosen.perm (sortComposeColors_perm colors).symm
  rw [sorted] at chosen'
  obtain _ | ⟨inside, _ | ⟨inside2, _ | ⟨inside3, _ | _⟩⟩⟩ := chosen'
  rw [eq2] at inside2
  rw [eq3] at inside3
  obtain rfl := List.mem_singleton.mp inside2
  obtain rfl := List.mem_singleton.mp inside3
  rw [((perm.cons zi).flatMap_right _).length_eq] at one
  obtain ⟨d, put⟩ := exists_assemble one
  refine ⟨d, ?_, (joined_of_assemble put).perm (perm.cons zi).symm⟩
  rw [mergeComposeCards_eq zi sorted few few' none_ none', eq2, eq3]
  exact List.mem_filterMap.mpr ⟨_, inside, put⟩

/-- Decompositions that differ at most in the order of their melds. -/
def Same (d d' : ComposeCard) : Prop := d.threes.Perm d'.threes ∧ d.eye = d'.eye

theorem eye_eq_of_perm {eye eye' : Option Int} (perm : eye.toList.Perm eye'.toList) : eye = eye' := by
  cases eye <;> cases eye' <;> simp_all

/-- No decomposition is given twice, if no suit gives one twice. -/
theorem pairwise_mergeComposeCards (three : colors.length = 3) (single : Single colors)
    (apart : ∀ composeCards ∈ colors, composeCards.Pairwise fun d d' => ¬Same d d') :
    (mergeComposeCards zi colors).Pairwise fun d d' => ¬Same d d' := by
  obtain ⟨first, second, third, sorted, one, one', none_, none'⟩ := exists_sorted three single
  rw [mergeComposeCards_eq zi sorted one one' none_ none', List.pairwise_filterMap]
  have inside : first ∈ colors := by
    rw [← (sortComposeColors_perm colors).mem_iff, sorted]
    exact List.mem_cons_self
  have apart' : (choices first).Pairwise fun d d' => ¬Same d d' := by
    rw [choices]
    split
    · exact List.pairwise_singleton _ _
    · exact apart first inside
  refine apart'.imp fun {card card'} differ d put d' put' same => differ ?_
  have joined := joined_of_assemble put
  have joined' := joined_of_assemble put'
  have threes := (joined.threes.symm.trans same.1).trans joined'.threes
  have eyes := (joined.eye.symm.trans (.of_eq (congrArg _ same.2))).trans joined'.eye
  simp only [List.flatMap_cons, List.perm_append_left_iff, List.perm_append_right_iff] at threes eyes
  exact ⟨threes, eye_eq_of_perm eyes⟩

end H5Server.Erqs
