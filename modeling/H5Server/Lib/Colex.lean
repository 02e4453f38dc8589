import Mathlib.Data.List.Chain
import Mathlib.Data.List.GetD
import Mathlib.Data.List.Nodup
import Mathlib.Data.List.Sort
import Mathlib.Data.Nat.Choose.Basic

/-! # Words of one weight

The words of `n` letters with `k` of them true in colexicographic order. The next word moves the first true letter
before a false one by a place and puts the true letters before it in front.
-/

namespace H5Server.Lib

/-- The words of `n` letters with `k` true ones, those that end in false first. -/
def colex : ℕ → ℕ → List (List Bool)
  | 0, 0 => [[]]
  | 0, _ + 1 => []
  | n + 1, 0 => (colex n 0).map (· ++ [false])
  | n + 1, k + 1 => (colex n (k + 1)).map (· ++ [false]) ++ (colex n k).map (· ++ [true])

/-- The second word is the next one of its weight. -/
inductive Follows : List Bool → List Bool → Prop
  | intro (a b : ℕ) (rest : List Bool) :
    Follows (List.replicate a false ++ List.replicate (b + 1) true ++ false :: rest)
      (List.replicate b true ++ List.replicate (a + 1) false ++ true :: rest)

/-- The first word with `k` true letters, and the last. -/
def firstWord (n k : ℕ) : List Bool := List.replicate k true ++ List.replicate (n - k) false

def lastWord (n k : ℕ) : List Bool := List.replicate (n - k) false ++ List.replicate k true

theorem append_injective (letter : Bool) : Function.Injective fun word : List Bool => word ++ [letter] := fun _ _ =>
  List.append_cancel_right

theorem exists_eq_append {n : ℕ} {word : List Bool} (length : word.length = n + 1) :
    ∃ rest letter, word = rest ++ [letter] := by
  rcases List.eq_nil_or_concat word with rfl | ⟨rest, letter, same⟩
  · exact absurd length (Nat.succ_ne_zero n).symm
  · exact ⟨rest, letter, same.trans List.concat_eq_append⟩

/-! ## Which words there are -/

theorem length_colex (n k : ℕ) : (colex n k).length = n.choose k := by
  induction n, k using colex.induct with
  | case1 => rfl
  | case2 k => rfl
  | case3 n ih => rw [colex, List.length_map, ih, Nat.choose_zero_right, Nat.choose_zero_right]
  | case4 n k ih ih' =>
    rw [colex, List.length_append, List.length_map, List.length_map, ih, ih', Nat.choose_succ_succ, Nat.add_comm]

theorem mem_colex {n k : ℕ} {word : List Bool} : word ∈ colex n k ↔ word.length = n ∧ word.count true = k := by
  induction n, k using colex.induct generalizing word with
  | case1 =>
    rw [colex, List.mem_singleton]
    constructor
    · rintro rfl
      exact ⟨rfl, rfl⟩
    · rintro ⟨none_, -⟩
      exact List.eq_nil_of_length_eq_zero none_
  | case2 k =>
    rw [colex]
    refine iff_of_false List.not_mem_nil ?_
    rintro ⟨none_, count⟩
    rw [List.eq_nil_of_length_eq_zero none_] at count
    exact absurd count (Nat.succ_ne_zero k).symm
  | case3 n ih =>
    rw [colex, List.mem_map]
    constructor
    · rintro ⟨word, inside, rfl⟩
      obtain ⟨length, count⟩ := ih.mp inside
      simp [length, count]
    · rintro ⟨length, count⟩
      obtain ⟨word, letter, rfl⟩ := exists_eq_append length
      cases letter with
      | false => exact ⟨word, ih.mpr (by simpa using And.intro length count), rfl⟩
      | true => simp at count
  | case4 n k ih ih' =>
    rw [colex, List.mem_append, List.mem_map, List.mem_map]
    constructor
    · rintro (⟨word, inside, rfl⟩ | ⟨word, inside, rfl⟩)
      · obtain ⟨length, count⟩ := ih.mp inside
        simp [length, count]
      · obtain ⟨length, count⟩ := ih'.mp inside
        simp [length, count]
    · rintro ⟨length, count⟩
      obtain ⟨word, letter, rfl⟩ := exists_eq_append length
      cases letter with
      | false => exact .inl ⟨word, ih.mpr (by simpa using And.intro length count), rfl⟩
      | true => exact .inr ⟨word, ih'.mpr (by simpa using And.intro length count), rfl⟩

theorem nodup_colex (n k : ℕ) : (colex n k).Nodup := by
  induction n, k using colex.induct with
  | case1 => exact List.nodup_singleton []
  | case2 k => exact List.nodup_nil
  | case3 n ih => exact ih.map (append_injective false)
  | case4 n k ih ih' =>
    refine (ih.map (append_injective false)).append (ih'.map (append_injective true)) ?_
    intro word one two
    obtain ⟨x, -, rfl⟩ := List.mem_map.mp one
    obtain ⟨y, -, same⟩ := List.mem_map.mp two
    exact absurd (List.append_inj' same rfl).2 (by decide)

/-! ## In which order -/

theorem head?_colex {n k : ℕ} (enough : k ≤ n) : (colex n k).head? = some (firstWord n k) := by
  induction n, k using colex.induct with
  | case1 => rfl
  | case2 k => exact absurd enough (Nat.not_succ_le_zero k)
  | case3 n ih =>
    rw [colex, List.head?_map, ih (Nat.zero_le n)]
    simp [firstWord, List.replicate_succ']
  | case4 n k ih ih' =>
    rw [colex, List.head?_append, List.head?_map, List.head?_map]
    rcases Nat.lt_or_eq_of_le (Nat.le_of_succ_le_succ enough) with more | rfl
    · have split : n + 1 - (k + 1) = n - (k + 1) + 1 := by omega
      rw [ih more, firstWord, firstWord, Nat.succ_eq_add_one, Nat.succ_eq_add_one, split, List.replicate_succ' (n := n - (k + 1))]
      simp
    · have none_ : colex k (k + 1) = [] := List.eq_nil_of_length_eq_zero ((length_colex ..).trans (Nat.choose_succ_self k))
      rw [none_, ih' (le_refl k), firstWord, firstWord, Nat.sub_self, Nat.sub_self, List.replicate_succ' (n := k)]
      simp

theorem getLast?_colex {n k : ℕ} (enough : k ≤ n) : (colex n k).getLast? = some (lastWord n k) := by
  induction n, k using colex.induct with
  | case1 => rfl
  | case2 k => exact absurd enough (Nat.not_succ_le_zero k)
  | case3 n ih =>
    rw [colex, List.getLast?_map, ih (Nat.zero_le n)]
    simp [lastWord, List.replicate_succ']
  | case4 n k ih ih' =>
    have less : k ≤ n := Nat.le_of_succ_le_succ enough
    rw [colex, List.getLast?_append, List.getLast?_map, ih' less, lastWord, lastWord, Nat.succ_sub_succ,
      Nat.succ_eq_add_one, List.replicate_succ' (n := k)]
    simp

theorem Follows.append {word next : List Bool} (follows : Follows word next) (rest : List Bool) :
    Follows (word ++ rest) (next ++ rest) := by
  cases follows with
  | intro a b tail =>
    have moved := Follows.intro a b (tail ++ rest)
    rwa [← List.cons_append, ← List.cons_append, ← List.append_assoc, ← List.append_assoc] at moved

/-- The words stand in the order in which each follows the one before. -/
theorem isChain_colex (n k : ℕ) : (colex n k).IsChain Follows := by
  induction n, k using colex.induct with
  | case1 => exact .singleton []
  | case2 k => exact .nil
  | case3 n ih => exact List.isChain_map_of_isChain _ (fun _ _ follows => follows.append [false]) ih
  | case4 n k ih ih' =>
    rw [colex, List.isChain_append]
    refine ⟨List.isChain_map_of_isChain _ (fun _ _ follows => follows.append [false]) ih,
      List.isChain_map_of_isChain _ (fun _ _ follows => follows.append [true]) ih', ?_⟩
    rcases Nat.lt_or_ge k n with more | full
    · have split : n - k = n - (k + 1) + 1 := by omega
      rw [List.getLast?_map, List.head?_map, getLast?_colex more, head?_colex more.le, lastWord, firstWord, split]
      rintro _ ⟨⟩ _ ⟨⟩
      exact .intro (n - (k + 1)) k []
    · have none_ : colex n (k + 1) = [] :=
        List.eq_nil_of_length_eq_zero ((length_colex ..).trans (Nat.choose_eq_zero_of_lt (Nat.lt_succ_of_le full)))
      rw [none_]
      exact fun _ impossible => absurd impossible (Option.not_mem_none _)

/-! ## Where the letters are true -/

/-- The places of the true letters, in rising order. -/
def places (word : List Bool) : List ℕ := (List.range word.length).filter (word.getD · false)

theorem mem_places {word : List Bool} {j : ℕ} : j ∈ places word ↔ word.getD j false = true := by
  rw [places, List.mem_filter, List.mem_range]
  refine and_iff_right_of_imp fun there => ?_
  by_contra outside
  rw [List.getD_eq_default _ _ (Nat.le_of_not_lt outside)] at there
  exact Bool.false_ne_true there

theorem places_rise (word : List Bool) : (places word).Pairwise (· < ·) := List.pairwise_lt_range.filter _

theorem lt_of_mem_places {word : List Bool} {j : ℕ} (inside : j ∈ places word) : j < word.length :=
  List.mem_range.mp (List.mem_filter.mp inside).1

theorem length_places (word : List Bool) : (places word).length = word.count true := by
  induction word using List.reverseRecOn with
  | nil => rfl
  | append_singleton word letter ih =>
    have before : (List.range word.length).filter ((word ++ [letter]).getD · false) = places word :=
      List.filter_congr fun j inside => by rw [List.getD_append _ _ _ _ (List.mem_range.mp inside)]
    rw [places, List.length_append, List.length_singleton, List.range_succ, List.filter_append, before,
      List.length_append, ih, List.count_append]
    cases letter <;> simp

/-- The words of one length are told apart by their places. -/
theorem eq_of_places_eq {word word' : List Bool} (length : word.length = word'.length) (same : places word = places word') :
    word = word' := by
  apply List.ext_getElem length
  intro j inside inside'
  have there : word.getD j false = true ↔ word'.getD j false = true := by rw [← mem_places, same, mem_places]
  rw [List.getD_eq_getElem _ _ inside, List.getD_eq_getElem _ _ inside'] at there
  exact Bool.eq_iff_iff.mpr there

/-- Every rising list is the places of a word. -/
theorem exists_places {n : ℕ} {chosen : List ℕ} (rise : chosen.Pairwise (· < ·)) (inside : ∀ j ∈ chosen, j < n) :
    ∃ word : List Bool, word.length = n ∧ places word = chosen := by
  refine ⟨(List.range n).map fun j => decide (j ∈ chosen), by rw [List.length_map, List.length_range], ?_⟩
  have same (j : ℕ) : j ∈ places ((List.range n).map fun j => decide (j ∈ chosen)) ↔ j ∈ chosen := by
    rw [mem_places]
    rcases Nat.lt_or_ge j n with less | more
    · rw [List.getD_eq_getElem _ _ (by rwa [List.length_map, List.length_range]), List.getElem_map, List.getElem_range,
        decide_eq_true_eq]
    · rw [List.getD_eq_default _ _ (by rwa [List.length_map, List.length_range])]
      exact iff_of_false Bool.false_ne_true fun there => absurd (inside j there) more.not_gt
  exact List.Perm.eq_of_pairwise' (places_rise _) rise
    ((List.perm_ext_iff_of_nodup (places_rise _).nodup rise.nodup).mpr same)

end H5Server.Lib
