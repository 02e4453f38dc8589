import H5Server.Erqs.WinPaths
import Mathlib.Data.List.Perm.Basic
import Mathlib.Data.List.Forall2

/-! # The parts of the win check

Each suit gives its decompositions with at most one pair. `mergeComposeCards` reuses one card for all the second and
third decompositions, which is no fault as long as only one suit has several of them.
-/

namespace H5Server.Erqs

open Lib

variable {offset : Nat} {table : Table} {s s' : ℕ → Melds}

/-! ## One suit -/

/-- The decompositions of a suit that the search finds. -/
def compositions (offset : Nat) (table : Table) : List ComposeCard :=
  (walk offset 9 table).filterMap fun path => assemble (path.map (·.2))

/-- Melds that split a suit with at most one pair, where at every rank at most four tiles are left to use. -/
structure SuitMelds (offset : Nat) (table : Table) (s : ℕ → Melds) : Prop where
  fits : Fits 9 offset table.get s
  small : ∀ j, offset ≤ j → j < offset + 9 → (s j).used ≤ 4
  one : total (fun j => (s j).pairs) offset 9 ≤ 1

/-- The melds as a decomposition. -/
structure Composed (offset : Nat) (s : ℕ → Melds) (d : ComposeCard) : Prop where
  threes : d.threes.Perm (threesFrom 9 offset s)
  eye : d.eye.toList = eyesFrom 9 offset s

theorem searchComposeCards_eq (suit : offset ≤ 19) (table : Table) :
    searchComposeCards (splitColor offset 9 [] ⟨[], table, []⟩).composeCardMap (splitColor offset 9 [] ⟨[], table, []⟩).paths
      = compositions offset table := by
  obtain ⟨heads, records⟩ := records_splitColor offset suit 9 le_rfl [] ⟨[], table, []⟩
  rw [searchComposeCards, records.paths, List.nil_append, List.filterMap_map, compositions]
  refine List.filterMap_congr fun path present => ?_
  rw [Function.comp_apply, List.nil_append]
  exact composePath_eq fun front x back eq => records.pieces path present front x back eq

theorem eye_of_length_le_one {eyes : List Int} (one : eyes.length ≤ 1) : eyes.head?.toList = eyes := by
  match eyes, one with
  | [], _ => rfl
  | [_], _ => rfl

theorem exists_melds_of_mem {d : ComposeCard} (suit : offset ≤ 19) (present : d ∈ compositions offset table) :
    ∃ s, SuitMelds offset table s ∧ Composed offset s d := by
  obtain ⟨path, inside, put⟩ := List.mem_filterMap.mp present
  obtain ⟨s, along⟩ := exists_path_of_mem_walk le_rfl inside
  obtain ⟨threes, eyes⟩ := along.pieces le_rfl
  rw [assemble_eq, List.flatMap_map, eyes] at put
  split at put
  next one =>
    refine ⟨s, ⟨along.fits suit le_rfl, fun j low high => along.used_le low le_rfl high, ?_⟩, ?_⟩
    · rw [← length_eyesFrom]
      exact one
    · obtain rfl := Option.some.inj put
      refine ⟨?_, eye_of_length_le_one one⟩
      rw [← List.map_reverse, List.flatMap_map]
      exact ((List.reverse_perm path).flatMap_right _).trans (.of_eq threes)
  next => exact absurd put nofun

theorem exists_mem_of_melds (suit : offset ≤ 19) (melds : SuitMelds offset table s) :
    ∃ d ∈ compositions offset table, Composed offset s d := by
  obtain ⟨path, along⟩ := exists_path suit le_rfl melds.small melds.fits
  obtain ⟨threes, eyes⟩ := along.pieces le_rfl
  have one := melds.one
  rw [← length_eyesFrom] at one
  refine ⟨⟨path.reverse.flatMap fun x => x.2.threes, (path.flatMap fun x => x.2.eye.toList).head?⟩,
    List.mem_filterMap.mpr ⟨path, along.mem_walk, ?_⟩, ?_⟩
  · rw [assemble_eq, List.flatMap_map, eyes, if_pos (by simpa using one), ← List.map_reverse, List.flatMap_map]
  · refine ⟨((List.reverse_perm path).flatMap_right _).trans (.of_eq threes), ?_⟩
    dsimp only
    rw [eyes]
    exact eye_of_length_le_one one

/-- The count of a suit with melds leaves no one when put into threes. -/
theorem SuitMelds.total_mod (melds : SuitMelds offset table s) : total table.get offset 9 % 3 ≠ 1 := by
  have one := melds.one
  rw [melds.fits.total_eq, total_size]
  omega

theorem sum_eq_total (table : Table) (offset : Nat) :
    ((List.range 9).map fun k => table.get (offset + k)).sum = total table.get offset 9 := by
  simp only [total, List.range, List.range.loop, List.map_cons, List.map_nil, List.sum_cons, List.sum_nil]
  rfl

theorem checkColor_eq (suit : offset ≤ 19) (table : Table) : checkColor offset table =
    if total table.get offset 9 = 0 then some (table, [])
    else if compositions offset table = [] then none else some (table, compositions offset table) := by
  obtain ⟨heads, records⟩ := records_splitColor offset suit 9 le_rfl [] ⟨[], table, []⟩
  rw [checkColor]
  dsimp only
  rw [sum_eq_total, searchComposeCards_eq suit, records.table]
  split
  next => rfl
  next =>
    rcases List.eq_nil_or_concat (compositions offset table) with none_ | ⟨front, d, eq⟩
    · rw [none_, if_pos rfl]
      split <;> rfl
    · obtain ⟨s, melds, -⟩ := exists_melds_of_mem suit (d := d) (by rw [eq]; simp)
      have some_ : compositions offset table ≠ [] := by rw [eq]; simp
      rw [if_neg melds.total_mod, if_neg some_, if_neg (by simpa using some_)]

/-! ## Only one suit with several decompositions -/

theorem length_filterMap_le_one {α β : Type} {f : α → Option β} {items : List α} (nodup : items.Nodup)
    (same : ∀ a ∈ items, ∀ b ∈ items, (f a).isSome → (f b).isSome → a = b) : (items.filterMap f).length ≤ 1 := by
  induction items with
  | nil => exact Nat.zero_le 1
  | cons a items ih =>
    obtain ⟨fresh, nodup⟩ := List.nodup_cons.mp nodup
    have later := ih nodup fun b inside c inside' => same b (List.mem_cons_of_mem _ inside) c (List.mem_cons_of_mem _ inside')
    rw [List.filterMap_cons]
    cases eq : f a with
    | none => exact later
    | some x =>
      have none_ : items.filterMap f = [] := by
        refine List.filterMap_eq_nil_iff.mpr fun b inside => ?_
        by_contra some_
        refine fresh ((same a List.mem_cons_self b (List.mem_cons_of_mem _ inside) (by rw [eq]; rfl) ?_) ▸ inside)
        exact Option.isSome_iff_ne_none.mpr some_
      rw [none_]
      exact le_rfl

theorem nodup_walk (offset left : Nat) (table : Table) : (walk offset left table).Nodup := by
  induction left generalizing table with
  | zero => exact List.nodup_singleton _
  | succ left ih =>
    rw [walk]
    dsimp only
    split
    · exact ih table
    · refine List.nodup_flatMap.mpr ⟨fun op _ => ?_, ?_⟩
      · split
        · exact (ih _).map (List.cons_injective)
        · exact List.nodup_nil
      · have apart : ((getHuisuOps (table.get (offset + (9 - (left + 1))))).zipIdx.map (·.2)).Nodup := by
          rw [List.zipIdx_map_snd]
          exact List.nodup_range'
        refine (List.pairwise_map.mp apart).imp fun {op op'} differ => ?_
        intro path here there
        dsimp only at here there
        split at here
        · split at there
          · obtain ⟨rest, -, rfl⟩ := List.mem_map.mp here
            obtain ⟨rest', -, eq⟩ := List.mem_map.mp there
            have code := congrArg (·.1) (List.cons_eq_cons.mp eq).1
            dsimp only at code
            exact differ (by omega)
          · exact absurd there List.not_mem_nil
        · exact absurd here List.not_mem_nil

/-- A suit of seven tiles and fewer has at most one decomposition. -/
theorem length_compositions_le (suit : offset ≤ 19) (few : total table.get offset 9 ≤ 7) :
    (compositions offset table).length ≤ 1 := by
  refine length_filterMap_le_one (nodup_walk offset 9 table) fun path present path' present' put put' => ?_
  obtain ⟨s, along⟩ := exists_path_of_mem_walk le_rfl present
  obtain ⟨s', along'⟩ := exists_path_of_mem_walk le_rfl present'
  have one {path : List (Nat × ComposeCard)} {s : ℕ → Melds} (along : Path offset 9 table path s)
      (put : (assemble (path.map (·.2))).isSome) : total (fun j => (s j).pairs) offset 9 ≤ 1 := by
    rw [assemble_eq, List.flatMap_map, (along.pieces le_rfl).2] at put
    split at put
    next one => exact (length_eyesFrom 9 offset s).symm.trans_le one
    next => exact absurd put Bool.false_ne_true
  have same := (along.fits suit le_rfl).unique (along'.fits suit le_rfl) few (one along put) (one along' put')
  exact (along.congr le_rfl fun j low high => same j (by omega) high).unique along'

end H5Server.Erqs
