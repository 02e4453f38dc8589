import H5Server.S13s.Compare

/-! # The records of the comparisons

Every player ends up with one record for each of the others, and the two records of a pair are
opposite.
-/

namespace H5Server.S13s

open Lib

/-! ## The order of the comparisons -/

private theorem staC_one (n : ℕ) : staC n 1 = (List.range n).reverse.map fun i => [i] := by
  rw [staC, List.range'_eq_map_range, ← List.map_reverse, List.flatMap_map]
  simp [List.map_eq_flatMap]

private theorem staC_succ_two (n : ℕ) :
    staC (n + 1) 2 = ((List.range n).reverse.map fun j => [n, j]) ++ staC n 2 := by
  cases n with
  | zero => rfl
  | succ n =>
    have numbers : List.range' (1 + 1) (n + 1) = List.range' (1 + 1) n ++ [n + 2] := by
      rw [List.range'_1_concat]
      congr 2
      omega
    rw [staC, staC]
    simp only [Nat.add_sub_cancel, numbers, List.reverse_append, List.reverse_singleton, List.singleton_append,
      List.flatMap_cons, one_ne_zero, if_false]
    congr 1
    rw [show n + 2 - 1 = n + 1 by omega, staC_one, List.map_map]
    rfl

/-- Every player but the first is compared with all before him, the last player first. -/
theorem staC_two (n : ℕ) : staC n 2 = (pairings (List.range n).reverse).map fun p => [p.1, p.2] := by
  induction n with
  | zero => rfl
  | succ n ih =>
    rw [staC_succ_two, ih, List.range_succ, List.reverse_append, List.reverse_singleton, List.singleton_append,
      pairings, List.map_append, List.map_map]
    rfl

/-! ## One pair -/

/-- The record the other side keeps. -/
def CompareItem.flip (item : CompareItem) : CompareItem := ⟨-item.winlost, -item.score, item.peerty, item.ty⟩

theorem CompareItem.flip_flip (item : CompareItem) : item.flip.flip = item := by
  simp [CompareItem.flip]

/-- Two results of one comparison. -/
structure Opposite (r r' : CompareResult) : Prop where
  items : r'.items = r.items.map CompareItem.flip
  specitem : r'.specitem = r.specitem.map CompareItem.flip

theorem Opposite.symm {r r' : CompareResult} (opposite : Opposite r r') : Opposite r' r := by
  have twice : CompareItem.flip ∘ CompareItem.flip = id := funext CompareItem.flip_flip
  constructor
  · rw [opposite.items, List.map_map, twice, List.map_id]
  · rw [opposite.specitem, Option.map_map, twice, Option.map_id_fun, id]

private theorem settle_flip (winner loser : HandTy) (score : ℤ) :
    (settle winner loser score).2 = (settle winner loser score).1.flip := rfl

private theorem settle_swap_flip (winner loser : HandTy) (score : ℤ) :
    (settle winner loser score).swap.2 = (settle winner loser score).swap.1.flip := by
  simp [settle, CompareItem.flip]

private theorem draw_flip (src dst : HandTy) : (draw src dst).2 = (draw src dst).1.flip := by
  simp [draw, CompareItem.flip]

theorem compareSpecial_flip (src dst : HandTy) :
    (compareSpecial src dst).2 = (compareSpecial src dst).1.map CompareItem.flip := by
  rw [compareSpecial]
  split_ifs with same higher
  · exact congrArg some (draw_flip src dst)
  · split
    · exact congrArg some (settle_flip src dst _)
    · rfl
  · split
    · exact congrArg some (settle_swap_flip dst src _)
    · rfl

variable {compareCards : List ℕ → List ℕ → HandTy → ℤ}

theorem compareDun_flip {dt : DunTy} {src dst : Dun} {items : CompareItem × CompareItem}
    (done : compareDun compareCards dt src dst = some items) : items.2 = items.1.flip := by
  have srcWins : (dunScore dt src.ty).map (settle src.ty dst.ty) = some items → items.2 = items.1.flip := by
    intro won
    obtain ⟨score, -, rfl⟩ := Option.map_eq_some_iff.mp won
    exact settle_flip _ _ _
  have dstWins : (dunScore dt dst.ty).map (fun score => (settle dst.ty src.ty score).swap) = some items →
      items.2 = items.1.flip := by
    intro won
    obtain ⟨score, -, rfl⟩ := Option.map_eq_some_iff.mp won
    exact settle_swap_flip _ _ _
  rw [compareDun] at done
  dsimp only at done
  split_ifs at done
  · exact srcWins done
  · exact dstWins done
  · exact srcWins done
  · exact dstWins done
  · obtain rfl := Option.some.inj done
    exact draw_flip _ _

theorem comparePair_opposite {src dst : GroupDun} {results : CompareResult × CompareResult}
    (done : comparePair compareCards src dst = some results) : Opposite results.1 results.2 := by
  rw [comparePair] at done
  split_ifs at done
  · obtain rfl := Option.some.inj done
    exact ⟨rfl, compareSpecial_flip _ _⟩
  · simp only [Option.bind_eq_bind, Option.bind_eq_some_iff] at done
    obtain ⟨first, one, second, two, last, three, same⟩ := done
    obtain rfl := Option.some.inj same
    constructor
    · show [first.2, second.2, last.2] = [first.1, second.1, last.1].map CompareItem.flip
      rw [compareDun_flip one, compareDun_flip two, compareDun_flip three]
      rfl
    · rfl

/-- A comparison dun by dun has three records, one with a special type has none. -/
theorem comparePair_items {src dst : GroupDun} {results : CompareResult × CompareResult}
    (done : comparePair compareCards src dst = some results) :
    if src.specialTy.special || dst.specialTy.special then results.1.items = [] else results.1.items.length = 3 := by
  rw [comparePair] at done
  split_ifs at done ⊢
  · obtain rfl := Option.some.inj done
    rfl
  · simp only [Option.bind_eq_bind, Option.bind_eq_some_iff] at done
    obtain ⟨first, -, second, -, last, -, same⟩ := done
    obtain rfl := Option.some.inj same
    rfl

/-! ## All pairs -/

namespace Showdown

variable (s : Showdown)

/-- Both results of a comparison that no assertion stops. -/
def results (src dst : ℕ) : CompareResult × CompareResult :=
  (comparePair s.compareCards (s.selected src) (s.selected dst)).getD (⟨[], none, 0, 0⟩, ⟨[], none, 0, 0⟩)

/-- What `a` keeps of the comparison with `b`, which the later chair starts. -/
def record (a b : ℕ) : CompareResult := if b < a then (s.results a b).1 else (s.results b a).2

def duel (a b : ℕ) : Duel := ⟨b, (s.selected b).specialTy, s.record a b⟩

/-- No assertion stops a comparison. -/
def Comparable (src dst : ℕ) : Prop := (comparePair s.compareCards (s.selected src) (s.selected dst)).isSome

variable {s}

theorem compareChairs_eq {src dst : ℕ} (comparable : s.Comparable src dst) (order : dst < src) (t : ℕ → CompareCards) :
    s.compareChairs t src dst = some fun a =>
      { t a with duels := (t a).duels ++ (opponents a [(src, dst)]).map (s.duel a) } := by
  obtain ⟨both, done⟩ := Option.isSome_iff_exists.mp comparable
  have known : s.results src dst = both := by
    rw [results, done]
    rfl
  have first : s.record src dst = both.1 := by
    rw [record, if_pos order, known]
  have second : s.record dst src = both.2 := by
    rw [record, if_neg order.not_gt, known]
  rw [compareChairs, done]
  apply congrArg some
  funext a
  rcases eq_or_ne a dst with rfl | notDst
  · rw [Function.update_self, Function.update_of_ne order.ne]
    have only : opponents a [(src, a)] = [src] := by
      rw [opponents, List.filterMap_cons, opponent, if_neg order.ne', if_pos rfl, List.filterMap_nil]
    rw [only, List.map_singleton, duel, second]
  · rw [Function.update_of_ne notDst]
    rcases eq_or_ne a src with rfl | notSrc
    · rw [Function.update_self]
      have only : opponents a [(a, dst)] = [dst] := by
        rw [opponents, List.filterMap_cons, opponent, if_pos rfl, List.filterMap_nil]
      rw [only, List.map_singleton, duel, first]
    · rw [Function.update_of_ne notSrc]
      have nobody : opponents a [(src, dst)] = [] := by
        rw [opponents, List.filterMap_cons, opponent, if_neg notSrc.symm, if_neg notDst.symm, List.filterMap_nil]
      rw [nobody, List.map_nil, List.append_nil]

/-- The comparisons of a list of pairs. -/
def comparePairs (s : Showdown) (pairs : List (ℕ × ℕ)) (t : ℕ → CompareCards) : Option (ℕ → CompareCards) :=
  pairs.foldlM (fun t p => s.compareChairs t p.1 p.2) t

theorem comparePairs_eq {pairs : List (ℕ × ℕ)} (comparable : ∀ p ∈ pairs, s.Comparable p.1 p.2)
    (order : ∀ p ∈ pairs, p.2 < p.1) (t : ℕ → CompareCards) :
    s.comparePairs pairs t = some fun a =>
      { t a with duels := (t a).duels ++ (opponents a pairs).map (s.duel a) } := by
  induction pairs generalizing t with
  | nil =>
    rw [comparePairs, List.foldlM_nil]
    simp [opponents]
  | cons p rest ih =>
    have one := compareChairs_eq (comparable p List.mem_cons_self) (order p List.mem_cons_self) t
    rw [comparePairs, List.foldlM_cons, one]
    refine (ih (fun q later => comparable q (List.mem_cons_of_mem p later))
      (fun q later => order q (List.mem_cons_of_mem p later)) _).trans ?_
    apply congrArg some
    funext a
    have split : opponents a (p :: rest) = opponents a [p] ++ opponents a rest := by
      rw [opponents, opponents, opponents, ← List.filterMap_append]
      rfl
    rw [split, List.map_append, ← List.append_assoc]

/-- A run of the comparisons meets no assertion. -/
theorem comparable_of_comparePairs {pairs : List (ℕ × ℕ)} {t last : ℕ → CompareCards}
    (done : s.comparePairs pairs t = some last) : ∀ p ∈ pairs, s.Comparable p.1 p.2 := by
  induction pairs generalizing t with
  | nil => exact fun p inside => absurd inside List.not_mem_nil
  | cons p rest ih =>
    rw [comparePairs, List.foldlM_cons] at done
    obtain ⟨middle, one, tail⟩ := Option.bind_eq_some_iff.mp done
    intro q inside
    rcases List.mem_cons.mp inside with rfl | later
    · obtain ⟨both, compared, -⟩ := Option.bind_eq_some_iff.mp one
      exact Option.isSome_iff_exists.mpr ⟨both, compared⟩
    · exact ih tail q later

theorem chairIDs_nodup (s : Showdown) : s.chairIDs.Nodup := List.nodup_range.filter _

theorem chairIDs_sorted (s : Showdown) : s.chairIDs.Pairwise (· < ·) := List.pairwise_lt_range.filter _

/-- The pairs of the chairs, the later chair first. -/
def pairs (s : Showdown) : List (ℕ × ℕ) := pairings s.chairIDs.reverse

theorem lt_of_mem_pairs {p : ℕ × ℕ} (member : p ∈ s.pairs) : p.2 < p.1 := by
  apply rel_of_mem_pairings (R := fun a b => b < a) _ member
  exact List.pairwise_reverse.mpr s.chairIDs_sorted

theorem foldlM_compareTwo (t : ℕ → CompareCards) :
    (staC s.chairIDs.length 2).foldlM s.compareTwo t = s.comparePairs s.pairs t := by
  have positions : s.chairIDs.reverse = (List.range s.chairIDs.length).reverse.map fun i => s.chairIDs.getD i 0 := by
    rw [List.map_reverse]
    apply congrArg List.reverse
    apply List.ext_getElem
    · simp
    · intro i inside _
      simp [List.getElem?_eq_getElem inside]
  rw [staC_two, pairs, positions, pairings_map, comparePairs, List.foldlM_map, List.foldlM_map]
  rfl

end Showdown

end H5Server.S13s
