import H5Server.Erqs.WinSearch
import Mathlib.Data.List.Induction
import Mathlib.Tactic.IntervalCases

/-! # Decompositions of one suit

The complete paths of the search are the ways to split the counts of the suit into melds, and `searchComposeCards`
keeps those with at most one pair.
-/

namespace H5Server.Erqs

open Lib

/-! ## Operations -/

/-- The melds that an operation takes. -/
def meldsOf (pi : HuisuItem) : Melds where
  triplets := if (if pi.eye then pi.a - 2 else pi.a) - pi.b = 3 then 1 else 0
  runs := pi.b
  pairs := if pi.eye then 1 else 0

theorem meldsOf_spec {n : Nat} {pi : HuisuItem} (present : pi ∈ getHuisuOps n) :
    (meldsOf pi).used = n ∧ (meldsOf pi).pairs ≤ 1 ∧ pi.c = pi.b ∧ n ≠ 0 := by
  rw [getHuisuOps] at present
  split_ifs at present with one two three four
  all_goals simp at present
  · subst present one
    decide
  · subst two
    rcases present with rfl | rfl <;> decide
  · subst three
    rcases present with rfl | rfl | rfl <;> decide
  · subst four
    rcases present with rfl | rfl | rfl <;> decide

/-- Up to four tiles are used by exactly one operation for given melds. -/
theorem exists_op {m : Melds} (some_ : m.used ≠ 0) (few : m.used ≤ 4) (one : m.pairs ≤ 1) :
    ∃ op ∈ (getHuisuOps m.used).zipIdx, meldsOf op.1 = m := by
  obtain ⟨triplets, runs, pairs⟩ := m
  simp only [Melds.used] at *
  have small : triplets ≤ 1 ∧ runs ≤ 4 := by omega
  obtain ⟨high, low⟩ := small
  interval_cases triplets <;> interval_cases pairs <;> interval_cases runs <;> first | omega | decide

theorem op_unique {n : Nat} {op op' : HuisuItem × Nat} (present : op ∈ (getHuisuOps n).zipIdx)
    (present' : op' ∈ (getHuisuOps n).zipIdx) (same : meldsOf op.1 = meldsOf op'.1) : op = op' := by
  have runs : op.1.b = op'.1.b := congrArg Melds.runs same
  rw [getHuisuOps] at present present'
  split_ifs at present present'
  all_goals simp [List.zipIdx] at present present'
  · rw [present, present']
  · rcases present with rfl | rfl <;> rcases present' with rfl | rfl <;> first | rfl | exact absurd runs (by decide)
  · rcases present with rfl | rfl | rfl <;> rcases present' with rfl | rfl | rfl <;>
      first | rfl | exact absurd runs (by decide)
  · rcases present with rfl | rfl | rfl <;> rcases present' with rfl | rfl | rfl <;>
      first | rfl | exact absurd runs (by decide)

/-! ## Paths -/

/-- A path takes the given melds, rank by rank. -/
inductive Path (offset : Nat) : Nat → Table → List (Nat × ComposeCard) → (ℕ → Melds) → Prop
  | nil (table : Table) (s : ℕ → Melds) : Path offset 0 table [] s
  | skip {left : Nat} {table : Table} {path : List (Nat × ComposeCard)} {s : ℕ → Melds}
    (none_ : table.get (offset + (9 - (left + 1))) = 0) (zero : s (offset + (9 - (left + 1))) = ⟨0, 0, 0⟩)
    (later : Path offset left table path s) : Path offset (left + 1) table path s
  | take {left : Nat} {table : Table} {path : List (Nat × ComposeCard)} {s : ℕ → Melds} {op : HuisuItem × Nat}
    (present : op ∈ (getHuisuOps (table.get (offset + (9 - (left + 1))))).zipIdx)
    (fits : splitFits table (offset + (9 - (left + 1))) (offset + 9) op.1 = true)
    (melds : s (offset + (9 - (left + 1))) = meldsOf op.1)
    (later : Path offset left (taken table (offset + (9 - (left + 1))) op.1) path s) :
    Path offset (left + 1) table
      (((9 - (left + 1) + 1) * 10 + op.2, splitPiece (offset + (9 - (left + 1))) op.1) :: path) s

variable {offset left : Nat} {table : Table} {path path' : List (Nat × ComposeCard)} {s s' : ℕ → Melds}

theorem Path.congr (along : Path offset left table path s) (within : left ≤ 9)
    (same : ∀ j, offset + (9 - left) ≤ j → j < offset + 9 → s j = s' j) : Path offset left table path s' := by
  induction along with
  | nil => exact .nil _ _
  | skip none_ zero _ ih =>
    exact .skip none_ ((same _ (by omega) (by omega)).symm.trans zero) (ih (by omega) fun j low => same j (by omega))
  | take present fits melds _ ih =>
    refine .take present fits ((same _ (by omega) (by omega)).symm.trans melds) ?_
    exact ih (by omega) fun j low => same j (by omega)

theorem Path.mem_walk (along : Path offset left table path s) : path ∈ walk offset left table := by
  induction along with
  | nil => exact List.mem_singleton_self _
  | skip none_ _ _ ih =>
    rw [walk]
    dsimp only
    rwa [if_pos none_]
  | take present fits _ _ ih =>
    have some_ := (meldsOf_spec (List.fst_mem_of_mem_zipIdx present)).2.2.2
    rw [walk]
    dsimp only
    rw [if_neg some_, List.mem_flatMap]
    refine ⟨_, present, ?_⟩
    rw [if_pos fits]
    exact List.mem_map_of_mem ih

theorem exists_path_of_mem_walk (within : left ≤ 9) (present : path ∈ walk offset left table) :
    ∃ s, Path offset left table path s := by
  induction left generalizing table path with
  | zero =>
    rw [List.mem_singleton.mp present]
    exact ⟨fun _ => ⟨0, 0, 0⟩, .nil _ _⟩
  | succ left ih =>
    have update (s : ℕ → Melds) (m : Melds) {table : Table} {path : List (Nat × ComposeCard)}
        (along : Path offset left table path s) :
        Path offset left table path (Function.update s (offset + (9 - (left + 1))) m) :=
      along.congr (by omega) fun j low _ => (Function.update_of_ne (by omega) _ _).symm
    rw [walk] at present
    dsimp only at present
    split at present
    next none_ =>
      obtain ⟨s, along⟩ := ih (by omega) present
      exact ⟨_, .skip none_ (Function.update_self _ _ _) (update s ⟨0, 0, 0⟩ along)⟩
    next some_ =>
      obtain ⟨op, inside, present⟩ := List.mem_flatMap.mp present
      split at present
      next fits =>
        obtain ⟨path, deeper, rfl⟩ := List.mem_map.mp present
        obtain ⟨s, along⟩ := ih (by omega) deeper
        exact ⟨_, .take inside fits (Function.update_self _ _ _) (update s (meldsOf op.1) along)⟩
      next => exact absurd present List.not_mem_nil

/-- A path is known by its melds. -/
theorem Path.unique (along : Path offset left table path s) (along' : Path offset left table path' s) : path = path' := by
  induction along generalizing path' with
  | nil =>
    cases along'
    rfl
  | skip none_ _ _ ih =>
    cases along' with
    | skip _ _ later' => exact ih later'
    | take present => exact absurd none_ (meldsOf_spec (List.fst_mem_of_mem_zipIdx present)).2.2.2
  | take present _ melds _ ih =>
    cases along' with
    | skip none_ => exact absurd none_ (meldsOf_spec (List.fst_mem_of_mem_zipIdx present)).2.2.2
    | take present' _ melds' later' =>
      obtain rfl := op_unique present present' (melds.symm.trans melds')
      rw [ih later']

/-- The counts after an operation. -/
theorem takeRuns_get {cur : Nat} {n : Nat} {pi : HuisuItem} (present : pi ∈ getHuisuOps n) (bound : cur + 2 < tableSize) :
    (taken table cur pi).get = takeRuns table.get cur pi.b := by
  have both := (meldsOf_spec present).2.2.1
  funext j
  rw [get_taken _ _ bound, takeRuns, both]
  split_ifs <;> first | rfl | omega

/-- A path splits the counts. -/
theorem Path.fits (along : Path offset left table path s) (suit : offset ≤ 19) (within : left ≤ 9) :
    Fits left (offset + (9 - left)) table.get s := by
  induction along with
  | nil => trivial
  | @skip left table path s none_ zero _ ih =>
    have later := ih (by omega)
    refine ⟨by rw [none_, zero]; rfl, by rw [zero]; exact Nat.zero_le 1, .inl (by rw [zero]), ?_⟩
    rw [zero, show offset + (9 - (left + 1)) + 1 = offset + (9 - left) by omega]
    refine (fits_congr fun j low high => ?_).mp later
    rw [takeRuns, if_neg (by omega), Nat.sub_zero, ite_self]
  | @take left table path s op present fits melds _ ih =>
    have later := ih (by omega)
    have bound : offset + (9 - (left + 1)) + 2 < tableSize := by
      rw [tableSize]
      omega
    have inside := List.fst_mem_of_mem_zipIdx present
    obtain ⟨used, one, both, -⟩ := meldsOf_spec inside
    obtain ⟨first, second⟩ := splitFits_iff.mp fits
    rw [takeRuns_get inside bound] at later
    have next : offset + (9 - (left + 1)) + 1 = offset + (9 - left) := by omega
    refine ⟨by rw [melds, used], by rw [melds]; exact one, ?_, by rw [melds, next]; exact later⟩
    rw [melds]
    change op.1.b = 0 ∨ 2 ≤ left ∧ op.1.b ≤ _ ∧ op.1.b ≤ _
    omega

/-- At every rank at most four tiles are left to use. -/
theorem Path.used_le (along : Path offset left table path s) {j : Nat} (low : offset + (9 - left) ≤ j)
    (within : left ≤ 9) (high : j < offset + 9) : (s j).used ≤ 4 := by
  induction along with
  | nil => omega
  | @skip left table path s none_ zero _ ih =>
    rcases low.eq_or_lt with rfl | after
    · rw [zero]
      decide
    · exact ih (by omega) (by omega)
  | @take left table path s op present fits melds _ ih =>
    rcases low.eq_or_lt with rfl | after
    · have inside := List.fst_mem_of_mem_zipIdx present
      rw [melds, (meldsOf_spec inside).1]
      rw [getHuisuOps] at inside
      split_ifs at inside <;> first | omega | exact absurd inside List.not_mem_nil
    · exact ih (by omega) (by omega)

/-- Melds with at most four tiles to use at every rank are those of a path. -/
theorem exists_path (suit : offset ≤ 19) (within : left ≤ 9)
    (small : ∀ j, offset + (9 - left) ≤ j → j < offset + 9 → (s j).used ≤ 4)
    (fits : Fits left (offset + (9 - left)) table.get s) : ∃ path, Path offset left table path s := by
  induction left generalizing table with
  | zero => exact ⟨[], .nil _ _⟩
  | succ left ih =>
    obtain ⟨used, one, runs, later⟩ := fits
    have next : offset + (9 - (left + 1)) + 1 = offset + (9 - left) := by omega
    have bound : offset + (9 - (left + 1)) + 2 < tableSize := by
      rw [tableSize]
      omega
    have smaller : ∀ j, offset + (9 - left) ≤ j → j < offset + 9 → (s j).used ≤ 4 :=
      fun j low high => small j (by omega) high
    rcases (table.get (offset + (9 - (left + 1)))).eq_zero_or_pos with none_ | some_
    · have zero : s (offset + (9 - (left + 1))) = ⟨0, 0, 0⟩ := by
        rw [none_] at used
        generalize s (offset + (9 - (left + 1))) = m at used
        obtain ⟨triplets, runs, pairs⟩ := m
        simp only [Melds.used] at used
        obtain ⟨rfl, rfl, rfl⟩ : triplets = 0 ∧ runs = 0 ∧ pairs = 0 := by omega
        rfl
      rw [zero, next] at later
      obtain ⟨path, along⟩ := ih (by omega) smaller ((fits_congr fun j low high => by
        rw [takeRuns, if_neg (by omega), Nat.sub_zero, ite_self]).mp later)
      exact ⟨path, .skip none_ zero along⟩
    · have few := small (offset + (9 - (left + 1))) le_rfl (by omega)
      obtain ⟨op, present, melds⟩ := exists_op (m := s (offset + (9 - (left + 1)))) (by omega) few one
      rw [← used] at present
      have inside := List.fst_mem_of_mem_zipIdx present
      have both := (meldsOf_spec inside).2.2.1
      have runs_ : (s (offset + (9 - (left + 1)))).runs = op.1.b := by rw [← melds]; rfl
      rw [runs_, next, ← takeRuns_get inside bound] at later
      rw [runs_] at runs
      obtain ⟨path, along⟩ := ih (by omega) smaller later
      exact ⟨_, .take present (splitFits_iff.mpr (by omega)) melds.symm along⟩

/-! ## Pieces -/

/-- The melds at an index, as the tiles they are made of. -/
def threesAt (idx : Nat) (m : Melds) : List ThreeCard :=
  let card := getCardByIdx idx
  List.replicate m.triplets ⟨[card, card, card], .repeat⟩ ++
    List.replicate m.runs ⟨[card, card + 1, card + 2], .straight⟩

def eyesAt (idx : Nat) (m : Melds) : List Int := List.replicate m.pairs (getCardByIdx idx)

/-- The melds of some ranks. -/
def threesFrom : Nat → Nat → (ℕ → Melds) → List ThreeCard
  | 0, _, _ => []
  | left + 1, cur, s => threesAt cur (s cur) ++ threesFrom left (cur + 1) s

def eyesFrom : Nat → Nat → (ℕ → Melds) → List Int
  | 0, _, _ => []
  | left + 1, cur, s => eyesAt cur (s cur) ++ eyesFrom left (cur + 1) s

theorem length_eyesFrom (left cur : Nat) (s : ℕ → Melds) :
    (eyesFrom left cur s).length = total (fun j => (s j).pairs) cur left := by
  induction left generalizing cur with
  | zero => rfl
  | succ left ih => rw [eyesFrom, List.length_append, eyesAt, List.length_replicate, ih, total]

theorem splitPiece_eq (cur : Nat) {n : Nat} {pi : HuisuItem} (present : pi ∈ getHuisuOps n) :
    (splitPiece cur pi).threes = threesAt cur (meldsOf pi) ∧ (splitPiece cur pi).eye.toList = eyesAt cur (meldsOf pi) := by
  rw [getHuisuOps] at present
  split_ifs at present
  all_goals simp at present
  · subst present
    exact ⟨rfl, rfl⟩
  · rcases present with rfl | rfl <;> exact ⟨rfl, rfl⟩
  · rcases present with rfl | rfl | rfl <;> exact ⟨rfl, rfl⟩
  · rcases present with rfl | rfl | rfl <;> exact ⟨rfl, rfl⟩

/-- The pieces of a path are its melds. -/
theorem Path.pieces (along : Path offset left table path s) (within : left ≤ 9) :
    (path.flatMap fun x => x.2.threes) = threesFrom left (offset + (9 - left)) s
      ∧ (path.flatMap fun x => x.2.eye.toList) = eyesFrom left (offset + (9 - left)) s := by
  induction along with
  | nil => exact ⟨rfl, rfl⟩
  | @skip left table path s none_ zero _ ih =>
    have next : offset + (9 - (left + 1)) + 1 = offset + (9 - left) := by omega
    rw [threesFrom, eyesFrom, zero, next]
    exact ih (by omega)
  | @take left table path s op present fits melds _ ih =>
    have next : offset + (9 - (left + 1)) + 1 = offset + (9 - left) := by omega
    obtain ⟨threes, eyes⟩ := splitPiece_eq (offset + (9 - (left + 1))) (List.fst_mem_of_mem_zipIdx present)
    obtain ⟨laterThrees, laterEyes⟩ := ih (by omega)
    rw [threesFrom, eyesFrom, melds, next, List.flatMap_cons, List.flatMap_cons, threes, eyes, laterThrees, laterEyes]
    exact ⟨rfl, rfl⟩

/-! ## Putting together -/

/-- The pieces of one path, if there is at most one pair among them. -/
def assemble (pieces : List ComposeCard) : Option ComposeCard :=
  pieces.foldl (fun acc piece => acc.bind fun composeCard =>
    if piece.eye.isSome ∧ composeCard.eye.isSome then none
    else some ⟨piece.threes ++ composeCard.threes, piece.eye.or composeCard.eye⟩) (some {})

theorem composePath_eq {map : List (List Nat × ComposeCard)}
    (recorded : ∀ front x back, path = front ++ x :: back → map.lookup (codes front ++ [x.1]) = some x.2) :
    composePath map (codes path) = assemble (path.map (·.2)) := by
  have prefixes (front back : List (Nat × ComposeCard)) (eq : path = front ++ back) :
      (List.range front.length).foldl (fun acc k => acc.bind fun composeCard =>
        (map.lookup ((codes path).take (k + 1))).bind fun piece =>
          if piece.eye.isSome ∧ composeCard.eye.isSome then none
          else some ⟨piece.threes ++ composeCard.threes, piece.eye.or composeCard.eye⟩) (some {})
        = assemble (front.map (·.2)) := by
    induction front using List.reverseRecOn generalizing back with
    | nil => rfl
    | append_singleton front x ih =>
      rw [List.append_assoc] at eq
      have here : map.lookup ((codes path).take (front.length + 1)) = some x.2 := by
        rw [← recorded front x back eq, eq, codes, List.map_append, codes, List.singleton_append, List.map_cons,
          List.take_append, List.take_of_length_le (by rw [List.length_map]; omega), List.length_map,
          Nat.add_sub_cancel_left]
        rfl
      rw [List.length_append, List.length_singleton, List.range_succ, List.foldl_append, ih _ eq, List.map_append,
        assemble, assemble, List.foldl_append, List.foldl_cons, List.foldl_nil, here]
      rfl
  have whole := prefixes path [] (List.append_nil path).symm
  rw [composePath, ← whole, codes, List.length_map]

/-- The melds in the order in which they were inserted, and the pair. -/
theorem assemble_eq (pieces : List ComposeCard) : assemble pieces =
    if (pieces.flatMap fun piece => piece.eye.toList).length ≤ 1 then
      some ⟨pieces.reverse.flatMap (·.threes), (pieces.flatMap fun piece => piece.eye.toList).head?⟩
    else none := by
  induction pieces using List.reverseRecOn with
  | nil => rfl
  | append_singleton pieces piece ih =>
    rw [assemble, List.foldl_append, ← assemble, ih, List.foldl_cons, List.foldl_nil, List.flatMap_append,
      List.reverse_append, List.flatMap_append]
    simp only [List.flatMap_singleton, List.reverse_singleton]
    generalize (pieces.flatMap fun piece => piece.eye.toList) = eyes
    obtain ⟨threes, eye⟩ := piece
    cases eyes with
    | nil => cases eye <;> simp
    | cons first rest =>
      cases eye with
      | none => split <;> simp_all
      | some card => split <;> simp

end H5Server.Erqs
