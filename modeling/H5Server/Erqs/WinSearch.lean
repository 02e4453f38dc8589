import H5Server.Erqs.MjAlgorithm
import H5Server.Lib.Melds

/-! # The search through one suit

`split_color` leaves the table as it was and records, under every prefix of every complete path, the pieces taken
there. So `searchComposeCards` puts together the pieces along each path.
-/

namespace H5Server.Erqs

open Lib

/-- The table while the pieces of an operation are taken out. -/
def taken (table : Table) (cur : Nat) (pi : HuisuItem) : Table :=
  let table := (table.set cur 0).set (cur + 1) (table.get (cur + 1) - pi.b)
  table.set (cur + 2) (table.get (cur + 2) - pi.c)

/-- The table after the pieces of an operation are put back. -/
def restored (table : Table) (cur : Nat) (pi : HuisuItem) : Table :=
  let table := (table.set cur pi.a).set (cur + 1) (table.get (cur + 1) + pi.b)
  table.set (cur + 2) (table.get (cur + 2) + pi.c)

/-- The complete paths, each a list of codes with the pieces taken there. -/
def walk (offset : Nat) : Nat → Table → List (List (Nat × ComposeCard))
  | 0, _ => [[]]
  | left + 1, table =>
    let idx := 9 - (left + 1)
    let cur := offset + idx
    if table.get cur = 0 then walk offset left table
    else (getHuisuOps (table.get cur)).zipIdx.flatMap fun (pi, i) =>
      if splitFits table cur (offset + 9) pi then
        (walk offset left (taken table cur pi)).map (((idx + 1) * 10 + i, splitPiece cur pi) :: ·)
      else []

/-- The codes of a path. -/
def codes (path : List (Nat × ComposeCard)) : List Nat := path.map (·.1)

theorem get_taken (table : Table) {cur : Nat} (pi : HuisuItem) (bound : cur + 2 < tableSize) (j : Nat) :
    (taken table cur pi).get j = if j = cur then 0 else if j = cur + 1 then table.get j - pi.b
      else if j = cur + 2 then table.get j - pi.c else table.get j := by
  rw [taken]
  rcases Nat.lt_trichotomy j (cur + 2) with before | rfl | behind
  · rw [Table.get_set_of_ne _ _ before.ne']
    rcases Nat.lt_trichotomy j (cur + 1) with first | rfl | second
    · rw [Table.get_set_of_ne _ _ first.ne']
      rcases eq_or_ne j cur with rfl | other
      · rw [Table.get_set_self _ _ (by omega), if_pos rfl]
      · rw [Table.get_set_of_ne _ _ other.symm, if_neg other, if_neg first.ne, if_neg before.ne]
    · rw [Table.get_set_self _ _ (by omega), if_neg (by omega), if_pos rfl]
    · omega
  · rw [Table.get_set_self _ _ bound, Table.get_set_of_ne _ _ (by omega), Table.get_set_of_ne _ _ (by omega),
      if_neg (by omega), if_neg (by omega), if_pos rfl]
  · rw [Table.get_set_of_ne _ _ (by omega), Table.get_set_of_ne _ _ (by omega), Table.get_set_of_ne _ _ (by omega),
      if_neg (by omega), if_neg (by omega), if_neg (by omega)]

theorem splitFits_iff {table : Table} {cur stop : Nat} {pi : HuisuItem} : splitFits table cur stop pi = true ↔
    (0 < pi.b → cur + 1 < stop ∧ pi.b ≤ table.get (cur + 1)) ∧ (0 < pi.c → cur + 2 < stop ∧ pi.c ≤ table.get (cur + 2)) := by
  rw [splitFits]
  simp only [Bool.not_eq_true', Bool.or_eq_false_iff, Bool.and_eq_false_iff, decide_eq_false_iff_not]
  omega

/-- What an operation takes it puts back. -/
theorem restored_taken {table : Table} {cur stop : Nat} {pi : HuisuItem} (bound : cur + 2 < tableSize)
    (all : pi.a = table.get cur) (fits : splitFits table cur stop pi = true) :
    restored (taken table cur pi) cur pi = table := by
  obtain ⟨first, second⟩ := splitFits_iff.mp fits
  refine Table.ext_get fun j _ => ?_
  have here := get_taken table pi bound
  rw [restored]
  rcases Nat.lt_trichotomy j (cur + 2) with before | rfl | behind
  · rw [Table.get_set_of_ne _ _ before.ne']
    rcases Nat.lt_trichotomy j (cur + 1) with lower | rfl | upper
    · rw [Table.get_set_of_ne _ _ lower.ne']
      rcases eq_or_ne j cur with rfl | other
      · rw [Table.get_set_self _ _ (by omega), all]
      · rw [Table.get_set_of_ne _ _ other.symm, here, if_neg other, if_neg lower.ne, if_neg before.ne]
    · rw [Table.get_set_self _ _ (by omega), here, if_neg (by omega), if_pos rfl]
      omega
    · omega
  · rw [Table.get_set_self _ _ bound, Table.get_set_of_ne _ _ (by omega), Table.get_set_of_ne _ _ (by omega), here,
      if_neg (by omega), if_neg (by omega), if_pos rfl]
    omega
  · rw [Table.get_set_of_ne _ _ (by omega), Table.get_set_of_ne _ _ (by omega), Table.get_set_of_ne _ _ (by omega), here,
      if_neg (by omega), if_neg (by omega), if_neg (by omega)]

/-- Operations on a count use all of it. -/
theorem a_of_mem_getHuisuOps {n : Nat} {pi : HuisuItem} (present : pi ∈ getHuisuOps n) : pi.a = n := by
  rw [getHuisuOps] at present
  split_ifs at present with one two three four
  all_goals simp at present
  · rw [present, one]
  · rcases present with rfl | rfl <;> exact two.symm
  · rcases present with rfl | rfl | rfl <;> exact three.symm
  · rcases present with rfl | rfl | rfl <;> exact four.symm

/-! ## What the search records -/

/-- The search from a path on, with the complete paths found, whose first codes are among the given ones. -/
structure Records (curPath : List Nat) (st st' : SplitState) (heads : List Nat)
    (found : List (List (Nat × ComposeCard))) : Prop where
  table : st'.table = st.table
  paths : st'.paths = st.paths ++ found.map fun path => curPath ++ codes path
  pieces : ∀ path ∈ found, ∀ front x back, path = front ++ x :: back →
    st'.composeCardMap.lookup (curPath ++ codes front ++ [x.1]) = some x.2
  other : ∀ key, (∀ c ∈ heads, ∀ rest, key ≠ curPath ++ c :: rest) →
    st'.composeCardMap.lookup key = st.composeCardMap.lookup key
  heads_eq : ∀ path ∈ found, ∀ x back, path = x :: back → x.1 ∈ heads

variable {curPath : List Nat} {st st' st'' : SplitState} {heads heads' : List Nat}
  {found found' : List (List (Nat × ComposeCard))}

/-- One search after another, where no first code is met again. -/
theorem Records.trans (first : Records curPath st st' heads found) (second : Records curPath st' st'' heads' found')
    (apart : heads.Disjoint heads') : Records curPath st st'' (heads ++ heads') (found ++ found') where
  table := second.table.trans first.table
  paths := by rw [second.paths, first.paths, List.map_append, List.append_assoc]
  pieces path present front x back eq := by
    rcases List.mem_append.mp present with early | late
    · rw [second.other _ fun c inside rest same => ?_]
      · exact first.pieces path early front x back eq
      · -- The first code of the path was met in the first search.
        rw [List.append_assoc, List.append_cancel_left_eq] at same
        refine apart ?_ inside
        cases front with
        | nil =>
          obtain ⟨rfl, -⟩ := List.cons_eq_cons.mp same
          exact first.heads_eq path early x back eq
        | cons y front =>
          obtain ⟨rfl, -⟩ := List.cons_eq_cons.mp same
          exact first.heads_eq path early y (front ++ x :: back) eq
    · exact second.pieces path late front x back eq
  other key none_ := by
    rw [second.other key fun c inside => none_ c (List.mem_append_right _ inside),
      first.other key fun c inside => none_ c (List.mem_append_left _ inside)]
  heads_eq path present x back eq := by
    rcases List.mem_append.mp present with early | late
    · exact List.mem_append_left _ (first.heads_eq path early x back eq)
    · exact List.mem_append_right _ (second.heads_eq path late x back eq)

theorem Records.nil (curPath : List Nat) (st : SplitState) : Records curPath st st [] [] where
  table := rfl
  paths := by rw [List.map_nil, List.append_nil]
  pieces := nofun
  other _ _ := rfl
  heads_eq := nofun

/-- One operation at a rank, with the search behind it. -/
def splitStep (offset left : Nat) (curPath : List Nat) (st : SplitState) (op : HuisuItem × Nat) : SplitState :=
  let idx := 9 - (left + 1)
  let cur := offset + idx
  if splitFits st.table cur (offset + 9) op.1 then
    let path := curPath ++ [(idx + 1) * 10 + op.2]
    let st := splitColor offset left path
      { st with table := taken st.table cur op.1
                composeCardMap := (path, splitPiece cur op.1) :: st.composeCardMap }
    { st with table := restored st.table cur op.1 }
  else st

theorem splitColor_succ (offset left : Nat) (curPath : List Nat) (st : SplitState) :
    splitColor offset (left + 1) curPath st =
      if st.table.get (offset + (9 - (left + 1))) = 0 then splitColor offset left curPath st
      else (getHuisuOps (st.table.get (offset + (9 - (left + 1))))).zipIdx.foldl (splitStep offset left curPath) st := rfl

/-- The search behind an operation is recorded behind its code. -/
theorem Records.step {c : Nat} {piece : ComposeCard} {table : Table}
    (inner : Records (curPath ++ [c]) { st with table := table, composeCardMap := (curPath ++ [c], piece) :: st.composeCardMap }
      st' heads found) (back : st'' = { st' with table := st.table }) :
    Records curPath st st'' [c] (found.map ((c, piece) :: ·)) where
  table := by rw [back]
  paths := by
    rw [back, inner.paths, List.map_map]
    refine congrArg (st.paths ++ ·) (List.map_congr_left fun path _ => ?_)
    rw [Function.comp_apply, List.append_assoc]
    rfl
  pieces path present front x rest eq := by
    obtain ⟨path, inside, rfl⟩ := List.mem_map.mp present
    rw [back]
    cases front with
    | nil =>
      obtain ⟨rfl, -⟩ := List.cons_eq_cons.mp eq
      rw [codes, List.map_nil, List.append_nil, inner.other]
      · exact List.lookup_cons_self
      · intro d _ more same
        have := congrArg List.length same
        simp at this
    | cons y front =>
      obtain ⟨rfl, deeper⟩ := List.cons_eq_cons.mp eq
      have recorded := inner.pieces path inside front x rest deeper
      rw [List.append_assoc, List.append_assoc] at recorded
      rw [List.append_assoc]
      exact recorded
  other key none_ := by
    have differ : (key == curPath ++ [c]) = false := beq_eq_false_iff_ne.mpr (none_ c List.mem_cons_self [])
    rw [back, inner.other key fun d _ more same => none_ c List.mem_cons_self (d :: more) (by
      rw [same, List.append_assoc, List.singleton_append]), List.lookup_cons, differ]
  heads_eq path present x rest eq := by
    obtain ⟨path, -, rfl⟩ := List.mem_map.mp present
    obtain ⟨rfl, -⟩ := List.cons_eq_cons.mp eq
    exact List.mem_cons_self

/-- The search leaves the table as it was and records its complete paths. -/
theorem records_splitColor (offset : Nat) (suit : offset ≤ 19) (left : Nat) (within : left ≤ 9) (curPath : List Nat)
    (st : SplitState) :
    ∃ heads, Records curPath st (splitColor offset left curPath st) heads (walk offset left st.table) := by
  induction left generalizing curPath st with
  | zero =>
    refine ⟨[], rfl, ?_, ?_, fun _ _ => rfl, ?_⟩
    · rw [splitColor, walk, List.map_singleton, codes, List.map_nil, List.append_nil]
    · intro path present front x back eq
      rw [List.mem_singleton.mp present] at eq
      exact absurd eq (by simp)
    · intro path present x back eq
      rw [List.mem_singleton.mp present] at eq
      exact absurd eq (by simp)
  | succ left ih =>
    rw [splitColor_succ, walk]
    dsimp only
    split
    · exact ih (by omega) curPath st
    · -- One operation after the other, each from the same table.
      have bound : offset + (9 - (left + 1)) + 2 < tableSize := by
        rw [tableSize]
        omega
      have fold (ops : List (HuisuItem × Nat)) (table : Table) (apart : (ops.map (·.2)).Nodup)
          (all : ∀ op ∈ ops, op.1.a = table.get (offset + (9 - (left + 1)))) (st : SplitState) (same : st.table = table) :
          Records curPath st (ops.foldl (splitStep offset left curPath) st)
            (ops.map fun op => (9 - (left + 1) + 1) * 10 + op.2)
            (ops.flatMap fun op => if splitFits table (offset + (9 - (left + 1))) (offset + 9) op.1 then
              (walk offset left (taken table (offset + (9 - (left + 1))) op.1)).map
                (((9 - (left + 1) + 1) * 10 + op.2, splitPiece (offset + (9 - (left + 1))) op.1) :: ·) else []) := by
        induction ops generalizing st with
        | nil => exact Records.nil curPath st
        | cons op ops ihOps =>
          obtain ⟨fresh, apart⟩ := List.nodup_cons.mp apart
          obtain ⟨whole, all⟩ := List.forall_mem_cons.mp all
          have first : Records curPath st (splitStep offset left curPath st op) [(9 - (left + 1) + 1) * 10 + op.2]
              (if splitFits table (offset + (9 - (left + 1))) (offset + 9) op.1 then
                (walk offset left (taken table (offset + (9 - (left + 1))) op.1)).map
                  (((9 - (left + 1) + 1) * 10 + op.2, splitPiece (offset + (9 - (left + 1))) op.1) :: ·) else []) := by
            rw [splitStep]
            dsimp only
            rw [same]
            split
            next fits =>
              obtain ⟨heads, inner⟩ := ih (by omega) (curPath ++ [(9 - (left + 1) + 1) * 10 + op.2])
                { st with table := taken table (offset + (9 - (left + 1))) op.1
                          composeCardMap := (curPath ++ [(9 - (left + 1) + 1) * 10 + op.2],
                            splitPiece (offset + (9 - (left + 1))) op.1) :: st.composeCardMap }
              refine inner.step ?_
              rw [inner.table, restored_taken bound whole fits, same]
            next =>
              exact ⟨rfl, by simp, nofun, fun _ _ => rfl, nofun⟩
          refine first.trans (ihOps apart all _ (first.table.trans same)) ?_
          intro code here there
          rw [List.mem_singleton.mp here] at there
          obtain ⟨other, inside, eq⟩ := List.mem_map.mp there
          exact fresh (List.mem_map.mpr ⟨other, inside, by dsimp only; omega⟩)
      refine ⟨_, fold _ st.table ?_ ?_ st rfl⟩
      · rw [List.zipIdx_map_snd]
        exact List.nodup_range'
      · intro op present
        exact a_of_mem_getHuisuOps (List.fst_mem_of_mem_zipIdx present)

end H5Server.Erqs
