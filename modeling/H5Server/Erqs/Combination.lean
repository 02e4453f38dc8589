import H5Server.Lib.Colex
import Mathlib.Algebra.Group.Nat.Defs
import Mathlib.Data.Char

/-! # Choices of places (`combination`)

A word of `from_` letters stands for the choice of the places of its ones. The words are pushed one after the other,
and then read with a counter of 32 bits.
-/

namespace H5Server.Erqs

open Lib

/-- `wk.find("10")` -/
def find10 : List Char → Option ℕ
  | a :: b :: rest => if a = '1' ∧ b = '0' then some 0 else (find10 (b :: rest)).map (· + 1)
  | _ => none

/-- The two letters change places, and those before them are sorted, ones first. -/
def moveOne (wk : List Char) (found : ℕ) : List Char :=
  let wk := (wk.set found (wk.getD (found + 1) '0')).set (found + 1) (wk.getD found '0')
  (wk.take found).insertionSort (· ≥ ·) ++ wk.drop found

/-- The loop of the first version; it has no result when the fuel runs out. -/
def combinationLoop : ℕ → List (List Char) → List Char → Option (List (List Char))
  | 0, _, _ => none
  | fuel + 1, strs, wk =>
    match find10 wk with
    | none => some strs
    | some found => combinationLoop fuel (strs ++ [moveOne wk found]) (moveOne wk found)

/-- `combination`, the first version. -/
def combinationStrs (fuel : ℕ) (strs : List (List Char)) (choose from_ : UInt32) : Option (List (List Char)) :=
  let wk := List.replicate choose.toNat '1' ++ List.replicate (from_ - choose).toNat '0'
  combinationLoop fuel (strs ++ [wk]) wk

/-- The places of the ones, pushed as `int32_t`. -/
def idxCombination (str : List Char) (from_ : UInt32) : List ℤ :=
  ((List.range from_.toNat).filter fun j => str.getD j '0' = '1').map fun j : ℕ => Int.bmod j (2 ^ 32)

/-- The loop of the second version; `i` is a `uint32_t`, and the size of a vector is not. -/
def idxLoop (strs : List (List Char)) (from_ : UInt32) : ℕ → UInt32 → List (List ℤ) → Option (List (List ℤ))
  | 0, _, _ => none
  | fuel + 1, i, idxCombinations =>
    if i.toNat = strs.length then some idxCombinations
    else idxLoop strs from_ fuel (i + 1) (idxCombinations ++ [idxCombination (strs.getD i.toNat []) from_])

/-- `combination`, the second version. -/
def idxCombinations (fuel : ℕ) (idxCombinations : List (List ℤ)) (choose from_ : UInt32) : Option (List (List ℤ)) :=
  (combinationStrs fuel [] choose from_).bind fun strs => idxLoop strs from_ fuel 0 idxCombinations

/-- The choices of `k` of the first `n` numbers, each once and in rising order. -/
structure Choices (n k : ℕ) (choices : List (List ℕ)) : Prop where
  nodup : choices.Nodup
  mem : ∀ chosen, chosen ∈ choices ↔ chosen.Pairwise (· < ·) ∧ chosen.length = k ∧ ∀ j ∈ chosen, j < n

/-- The letters of a word. -/
def letters (word : List Bool) : List Char := word.map fun one => if one then '1' else '0'

variable {word next : List Bool} {choose from_ : UInt32}

/-! ## The next word -/

theorem letters_append (word next : List Bool) : letters (word ++ next) = letters word ++ letters next :=
  List.map_append

theorem letters_replicate (n : ℕ) (one : Bool) : letters (List.replicate n one) = List.replicate n (if one then '1' else '0') :=
  List.map_replicate

theorem find10_zero (wk : List Char) : find10 ('0' :: wk) = (find10 wk).map (· + 1) := by
  cases wk with
  | nil => rfl
  | cons b rest => rw [find10, if_neg (by simp)]

theorem find10_zeros (n : ℕ) (wk : List Char) : find10 (List.replicate n '0' ++ wk) = (find10 wk).map (· + n) := by
  induction n with
  | zero => simp
  | succ n ih =>
    rw [List.replicate_succ, List.cons_append, find10_zero, ih, Option.map_map]
    congr 1

theorem find10_ones (n : ℕ) (rest : List Char) : find10 (List.replicate (n + 1) '1' ++ '0' :: rest) = some n := by
  induction n with
  | zero => rfl
  | succ n ih =>
    have split : List.replicate (n + 1 + 1) '1' ++ '0' :: rest = '1' :: '1' :: (List.replicate n '1' ++ '0' :: rest) := rfl
    have split' : List.replicate (n + 1) '1' ++ '0' :: rest = '1' :: (List.replicate n '1' ++ '0' :: rest) := rfl
    rw [split'] at ih
    rw [split, find10, if_neg (by simp), ih]
    rfl

theorem find10_only_ones (n : ℕ) : find10 (List.replicate n '1') = none := by
  induction n with
  | zero => rfl
  | succ n ih =>
    cases n with
    | zero => rfl
    | succ n =>
      rw [List.replicate_succ] at ih
      rw [List.replicate_succ, List.replicate_succ, find10, if_neg (by simp), ih]
      rfl

/-- The last word has no "10". -/
theorem find10_lastWord (n k : ℕ) : find10 (letters (lastWord n k)) = none := by
  rw [lastWord, letters_append, letters_replicate, letters_replicate]
  simp only [Bool.false_eq_true, if_false, if_true]
  rw [find10_zeros, find10_only_ones]
  rfl

theorem moveOne_append (before rest : List Char) (x y : Char) : moveOne (before ++ x :: y :: rest) before.length =
    before.insertionSort (· ≥ ·) ++ y :: x :: rest := by
  have first : (before ++ x :: y :: rest).getD before.length '0' = x := by simp
  have second : (before ++ x :: y :: rest).getD (before.length + 1) '0' = y := by simp
  rw [moveOne, first, second]
  simp [List.set_append_right]

theorem sort_zeros_ones (a b : ℕ) : (List.replicate a '0' ++ List.replicate b '1').insertionSort (· ≥ ·) =
    List.replicate b '1' ++ List.replicate a '0' := by
  refine List.Perm.eq_of_sortedGE List.sortedGE_insertionSort ?_ ((List.perm_insertionSort ..).trans List.perm_append_comm)
  rw [List.sortedGE_iff_pairwise, List.pairwise_append]
  refine ⟨List.pairwise_replicate.mpr (.inr (le_refl _)), List.pairwise_replicate.mpr (.inr (le_refl _)), ?_⟩
  intro x one y zero
  rw [List.eq_of_mem_replicate one, List.eq_of_mem_replicate zero]
  decide

/-- The loop moves on to the word that follows. -/
theorem find10_follows (follows : Follows word next) :
    ∃ found, find10 (letters word) = some found ∧ moveOne (letters word) found = letters next := by
  cases follows with
  | intro a b rest =>
    have before : letters (List.replicate a false ++ List.replicate (b + 1) true ++ false :: rest) =
        List.replicate a '0' ++ (List.replicate (b + 1) '1' ++ '0' :: letters rest) := by
      rw [letters_append, letters_append, letters_replicate, letters_replicate, List.append_assoc]
      rfl
    have split : List.replicate a '0' ++ (List.replicate (b + 1) '1' ++ '0' :: letters rest) =
        (List.replicate a '0' ++ List.replicate b '1') ++ '1' :: '0' :: letters rest := by
      rw [List.replicate_succ', List.append_assoc, List.append_assoc]
      rfl
    have place : (List.replicate a '0' ++ List.replicate b '1').length = b + a := by
      rw [List.length_append, List.length_replicate, List.length_replicate, Nat.add_comm]
    have after : letters (List.replicate b true ++ List.replicate (a + 1) false ++ true :: rest) =
        List.replicate b '1' ++ List.replicate a '0' ++ '0' :: '1' :: letters rest := by
      rw [letters_append, letters_append, letters_replicate, letters_replicate, List.replicate_succ', List.append_assoc,
        List.append_assoc, List.append_assoc]
      rfl
    refine ⟨b + a, ?_, ?_⟩
    · rw [before, find10_zeros, find10_ones]
      rfl
    · rw [before, split, ← place, moveOne_append, sort_zeros_ones, after]

theorem letters_injective : Function.Injective letters := by
  refine List.map_injective_iff.mpr fun one one' same => ?_
  cases one <;> cases one' <;> first | rfl | exact absurd same (by decide)

theorem count_letters (word : List Bool) : (letters word).count '1' = word.count true := by
  induction word with
  | nil => rfl
  | cons one word ih =>
    rw [letters, List.map_cons, List.count_cons, List.count_cons, ← letters, ih]
    cases one <;> rfl

/-- The words of zeros and ones are the images of words. -/
theorem exists_letters {wk : List Char} (only : ∀ letter ∈ wk, letter = '0' ∨ letter = '1') :
    ∃ word, letters word = wk := by
  induction wk with
  | nil => exact ⟨[], rfl⟩
  | cons letter wk ih =>
    rw [List.forall_mem_cons] at only
    obtain ⟨word, rfl⟩ := ih only.2
    rcases only.1 with rfl | rfl
    · exact ⟨false :: word, rfl⟩
    · exact ⟨true :: word, rfl⟩

theorem mem_map_letters {n k : ℕ} {wk : List Char} : wk ∈ (colex n k).map letters ↔
    wk.length = n ∧ (∀ letter ∈ wk, letter = '0' ∨ letter = '1') ∧ wk.count '1' = k := by
  rw [List.mem_map]
  constructor
  · rintro ⟨word, inside, rfl⟩
    obtain ⟨length, count⟩ := mem_colex.mp inside
    refine ⟨List.length_map _ |>.trans length, fun letter there => ?_, (count_letters word).trans count⟩
    obtain ⟨one, -, rfl⟩ := List.mem_map.mp there
    cases one
    · exact .inl rfl
    · exact .inr rfl
  · rintro ⟨length, only, count⟩
    obtain ⟨word, rfl⟩ := exists_letters only
    exact ⟨word, mem_colex.mpr ⟨(List.length_map _).symm.trans length, (count_letters word).symm.trans count⟩, rfl⟩

/-! ## All words -/

/-- The loop runs through a list of words each of which follows the one before. -/
theorem combinationLoop_of_isChain {words : List (List Bool)} (chain : (word :: words).IsChain Follows)
    (last : find10 (letters ((word :: words).getLast (List.cons_ne_nil _ _))) = none) {fuel : ℕ}
    (enough : words.length < fuel) (strs : List (List Char)) :
    combinationLoop fuel strs (letters word) = some (strs ++ words.map letters) := by
  induction words generalizing word fuel strs with
  | nil =>
    obtain ⟨fuel, rfl⟩ := Nat.exists_eq_succ_of_ne_zero enough.ne'
    rw [List.getLast_singleton] at last
    rw [combinationLoop, last, List.map_nil, List.append_nil]
  | cons next words ih =>
    obtain ⟨fuel, rfl⟩ := Nat.exists_eq_succ_of_ne_zero (Nat.zero_lt_of_lt enough).ne'
    rw [List.isChain_cons_cons] at chain
    obtain ⟨found, first, moved⟩ := find10_follows chain.1
    rw [List.getLast_cons_cons] at last
    rw [combinationLoop, first]
    dsimp only
    rw [moved, ih chain.2 last (Nat.lt_of_succ_lt_succ enough), List.map_cons, List.append_assoc, List.singleton_append]

theorem combination_eq (fits : choose ≤ from_) {fuel : ℕ} (enough : from_.toNat.choose choose.toNat ≤ fuel)
    (strs : List (List Char)) :
    combinationStrs fuel strs choose from_ = some (strs ++ (colex from_.toNat choose.toNat).map letters) := by
  have less : choose.toNat ≤ from_.toNat := UInt32.le_iff_toNat_le.mp fits
  have rest : (from_ - choose).toNat = from_.toNat - choose.toNat := UInt32.toNat_sub_of_le _ _ fits
  have start : List.replicate choose.toNat '1' ++ List.replicate (from_ - choose).toNat '0' =
      letters (firstWord from_.toNat choose.toNat) := by
    rw [firstWord, letters_append, letters_replicate, letters_replicate, rest]
    rfl
  have head := head?_colex less
  have final := getLast?_colex less
  have chain := isChain_colex from_.toNat choose.toNat
  have count := length_colex from_.toNat choose.toNat
  rw [combinationStrs, start]
  generalize colex from_.toNat choose.toNat = words at head final chain count
  cases words with
  | nil => cases head
  | cons word words =>
    obtain rfl := Option.some.inj head
    rw [List.getLast?_eq_some_getLast (List.cons_ne_nil _ _)] at final
    rw [combinationLoop_of_isChain chain (by rw [Option.some.inj final]; exact find10_lastWord _ _), List.map_cons,
      List.append_assoc, List.singleton_append]
    rw [List.length_cons] at count
    omega

/-- More fuel changes no result. -/
theorem combinationLoop_mono {fuel more : ℕ} (less : fuel ≤ more) {strs result : List (List Char)} {wk : List Char}
    (done : combinationLoop fuel strs wk = some result) : combinationLoop more strs wk = some result := by
  induction fuel generalizing more strs wk with
  | zero => cases done
  | succ fuel ih =>
    obtain ⟨more, rfl⟩ := Nat.exists_eq_succ_of_ne_zero (Nat.zero_lt_of_lt less).ne'
    rw [combinationLoop] at done ⊢
    split at done
    · exact done
    · exact ih (Nat.le_of_succ_le_succ less) done

theorem eq_of_combination (fits : choose ≤ from_) {fuel : ℕ} {strs result : List (List Char)}
    (done : combinationStrs fuel strs choose from_ = some result) :
    result = strs ++ (colex from_.toNat choose.toNat).map letters := by
  have more := combinationLoop_mono (Nat.le_add_right fuel (from_.toNat.choose choose.toNat)) done
  exact Option.some.inj (more.symm.trans (combination_eq fits (Nat.le_add_left _ fuel) strs))

/-! ## All choices -/

section Loop

variable {strs : List (List Char)} {i : UInt32} {acc : List (List ℤ)}

/-- The counter runs through the words if there are not too many for it. -/
theorem idxLoop_eq (small : strs.length < 2 ^ 32) {fuel : ℕ} (inside : i.toNat ≤ strs.length)
    (enough : strs.length - i.toNat < fuel) :
    idxLoop strs from_ fuel i acc = some (acc ++ (strs.drop i.toNat).map (idxCombination · from_)) := by
  induction fuel generalizing i acc with
  | zero => exact absurd enough (Nat.not_lt_zero _)
  | succ fuel ih =>
    rw [idxLoop]
    split_ifs with last
    · rw [last, List.drop_length, List.map_nil, List.append_nil]
    · have less : i.toNat < strs.length := lt_of_le_of_ne inside last
      have step : (i + 1).toNat = i.toNat + 1 := by
        rw [UInt32.toNat_add]
        exact Nat.mod_eq_of_lt (by simp only [UInt32.toNat_one]; omega)
      rw [ih (by omega) (by omega), step, List.drop_eq_getElem_cons less, List.map_cons, List.getD_eq_getElem _ _ less,
        List.append_assoc, List.singleton_append]

/-- Otherwise it never comes to their number. -/
theorem idxLoop_eq_none (long : 2 ^ 32 ≤ strs.length) (fuel : ℕ) : idxLoop strs from_ fuel i acc = none := by
  induction fuel generalizing i acc with
  | zero => rfl
  | succ fuel ih =>
    have below := i.toNat_lt
    rw [idxLoop, if_neg (by omega), ih]

theorem idxLoop_mono {fuel more : ℕ} (less : fuel ≤ more) {result : List (List ℤ)}
    (done : idxLoop strs from_ fuel i acc = some result) : idxLoop strs from_ more i acc = some result := by
  induction fuel generalizing more i acc with
  | zero => cases done
  | succ fuel ih =>
    obtain ⟨more, rfl⟩ := Nat.exists_eq_succ_of_ne_zero (Nat.zero_lt_of_lt less).ne'
    rw [idxLoop] at done ⊢
    split_ifs at done ⊢
    · exact done
    · exact ih (Nat.le_of_succ_le_succ less) done

end Loop

theorem idxCombination_letters (length : word.length = from_.toNat) :
    idxCombination (letters word) from_ = (places word).map fun j : ℕ => Int.bmod j (2 ^ 32) := by
  rw [idxCombination, places, length]
  congr 1
  refine List.filter_congr fun j _ => ?_
  have letter : (letters word).getD j '0' = if word.getD j false then '1' else '0' :=
    List.getD_map word false fun one => if one then '1' else '0'
  rw [letter]
  cases word.getD j false <;> rfl

theorem bmod_eq_self {j : ℕ} (small : j < 2 ^ 31) : Int.bmod j (2 ^ 32) = j :=
  Int.bmod_eq_of_le (by omega) (by omega)

theorem choices_colex (n k : ℕ) : Choices n k ((colex n k).map places) where
  nodup := (nodup_colex n k).map_on fun word one word' two same =>
    eq_of_places_eq ((mem_colex.mp one).1.trans (mem_colex.mp two).1.symm) same
  mem chosen := by
    rw [List.mem_map]
    constructor
    · rintro ⟨word, inside, rfl⟩
      obtain ⟨length, count⟩ := mem_colex.mp inside
      exact ⟨places_rise word, (length_places word).trans count, fun j there => length ▸ lt_of_mem_places there⟩
    · rintro ⟨rise, length, below⟩
      obtain ⟨word, whole, rfl⟩ := exists_places rise below
      exact ⟨word, mem_colex.mpr ⟨whole, (length_places word).symm.trans length⟩, rfl⟩

/-- What the second version returns, if it returns. -/
theorem eq_of_idxCombinations (fits : choose ≤ from_) {fuel : ℕ} {acc result : List (List ℤ)}
    (done : idxCombinations fuel acc choose from_ = some result) : from_.toNat.choose choose.toNat < 2 ^ 32 ∧
      result = acc ++ (colex from_.toNat choose.toNat).map fun word => (places word).map fun j : ℕ => Int.bmod j (2 ^ 32) := by
  obtain ⟨strs, first, second⟩ := Option.bind_eq_some_iff.mp done
  have words := eq_of_combination fits first
  rw [List.nil_append] at words
  have count : strs.length = from_.toNat.choose choose.toNat := by rw [words, List.length_map, length_colex]
  have small : strs.length < 2 ^ 32 := by
    by_contra long
    rw [idxLoop_eq_none (Nat.le_of_not_lt long)] at second
    cases second
  refine ⟨count ▸ small, ?_⟩
  have more := idxLoop_mono (Nat.le_add_right fuel (strs.length + 1)) second
  rw [idxLoop_eq small (Nat.zero_le _) (by rw [UInt32.toNat_zero]; omega)] at more
  rw [← Option.some.inj more, words, UInt32.toNat_zero, List.drop_zero, List.map_map]
  congr 1
  exact List.map_congr_left fun word inside => idxCombination_letters (mem_colex.mp inside).1

/-- A last place from 2 ^ 31 on does not fit into `int32_t`. -/
theorem exists_negative {n k : ℕ} (some_ : 0 < k) (less : k ≤ n) (large : 2 ^ 31 < n) (small : n < 2 ^ 32) :
    ∃ word ∈ colex n k, ∃ j ∈ places word, Int.bmod j (2 ^ 32) < 0 := by
  have last := List.mem_of_getLast? (getLast?_colex less)
  refine ⟨_, last, n - 1, mem_places.mpr ?_, ?_⟩
  · rw [lastWord, List.getD_append_right _ _ _ _ (by rw [List.length_replicate]; omega), List.length_replicate,
      List.getD_replicate _ (by omega)]
  · rw [Int.bmod_def]
    split_ifs <;> omega

end H5Server.Erqs
