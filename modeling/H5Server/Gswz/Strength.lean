import H5Server.Gswz.GameLogic
import Mathlib.Data.List.Dedup
import Mathlib.Data.List.Lex
import Mathlib.Data.Prod.Lex

/-! # The strength of a hand

Hands are ordered by their type, then by their values, those first that are held more often, and last by the
colour of the card that decides. A straight is as high as its highest card, where the ace of an ace, eight,
nine, ten and jack is the lowest.
-/

namespace H5Server.Gswz

/-- The values of a hand, from the highest, in the order in which they decide. -/
def groupedRanks (ranks : List ℕ) : List ℕ :=
  [4, 3, 2, 1].flatMap fun times => (ranks.filter fun rank => ranks.count rank = times).dedup

def CardType.isStraight : CardType → Bool
  | link | sameFlowerLink | maxSameFlowerLink => true
  | _ => false

def straightRank (ranks : List ℕ) : ℕ := if 14 ∈ ranks ∧ 8 ∈ ranks then 11 else ranks.headD 0

def decidingRanks (type : CardType) (ranks : List ℕ) : List ℕ :=
  if type.isStraight then [straightRank ranks] else groupedRanks ranks

/-- The colour of the highest card of a value. -/
def colorOf (rank : ℕ) (sortedCards : List ℕ) : ℕ :=
  ((sortedCards.find? fun card => getCardLogicValue card == rank).map getCardColor).getD 0

abbrev Strength := ℕ ×ₗ List ℕ ×ₗ ℕ

def strengthOf (type : CardType) (sortedCards : List ℕ) : Strength :=
  let ranks := decidingRanks type (sortedCards.map getCardLogicValue)
  toLex (type.value, toLex (ranks, colorOf (ranks.headD 0) sortedCards))

def strength (type : CardType) (cards : List ℕ) : Strength := strengthOf type (sortCardList cards)

/-! ## Cards -/

section Cards

variable {card card' : ℕ} {cards cards' h : List ℕ}

theorem logicValue_of_mem : ∀ card ∈ cardListData,
    8 ≤ getCardLogicValue card ∧ getCardLogicValue card ≤ 14 ∧ card ≠ 0 := by decide

theorem color_lt_iff : ∀ card ∈ cardListData, ∀ card' ∈ cardListData,
    getCardLogicValue card = getCardLogicValue card' → (getCardColor card < getCardColor card' ↔ card < card') := by
  decide

theorem countP_deck : ∀ card ∈ cardListData,
    (cardListData.countP fun card' => getCardLogicValue card' = getCardLogicValue card) = 4 := by decide

/-- `n` distinct cards of the deck. -/
structure Hand (n : ℕ) (cards : List ℕ) : Prop where
  length : cards.length = n
  nodup : cards.Nodup
  deck : ∀ card ∈ cards, card ∈ cardListData

/-- The order of distinct sorted cards. -/
def Above (card card' : ℕ) : Prop :=
  getCardLogicValue card' < getCardLogicValue card ∨ getCardLogicValue card' = getCardLogicValue card ∧ card' < card

theorem sortsBefore_iff : sortsBefore card card' ↔ Above card card' ∨ card = card' := by
  unfold sortsBefore compareSingleCard Above
  rcases Nat.lt_trichotomy (getCardLogicValue card) (getCardLogicValue card') with less | same | more
  · have : card ≠ card' := by
      rintro rfl
      exact absurd less (Nat.lt_irrefl _)
    rw [if_neg less.ne']
    simp only [decide_eq_false_iff_not]
    omega
  · rw [if_pos same.symm]
    simp only [decide_eq_false_iff_not]
    omega
  · rw [if_neg more.ne]
    simp only [decide_eq_false_iff_not]
    omega

instance : Std.Total sortsBefore where
  total a b := by
    rw [sortsBefore_iff, sortsBefore_iff, Above, Above]
    omega

instance : IsTrans ℕ sortsBefore where
  trans a b c first second := by
    rcases sortsBefore_iff.mp first with above | rfl
    · rcases sortsBefore_iff.mp second with above' | rfl
      · apply sortsBefore_iff.mpr
        rw [Above] at *
        omega
      · exact first
    · exact second

instance : Std.Antisymm sortsBefore where
  antisymm a b first second := by
    rw [sortsBefore_iff, Above] at *
    omega

/-- The sorted cards do not depend on the order in which they were given. -/
theorem sortCardList_eq_of_perm (same : cards.Perm cards') : sortCardList cards = sortCardList cards' := by
  apply List.Perm.eq_of_pairwise' (List.pairwise_insertionSort sortsBefore cards)
    (List.pairwise_insertionSort sortsBefore cards')
  calc
    (sortCardList cards).Perm cards := List.perm_insertionSort _ _
    cards.Perm cards' := same
    cards'.Perm (sortCardList cards') := (List.perm_insertionSort _ _).symm

/-- Cards that are sorted, one strictly above the next. -/
structure Sorted (n : ℕ) (h : List ℕ) : Prop extends Hand n h where
  above : h.Pairwise Above

theorem Hand.sorted {n : ℕ} (hand : Hand n cards) : Sorted n (sortCardList cards) where
  length := (List.length_insertionSort _ _).trans hand.length
  nodup := (List.perm_insertionSort _ _).nodup_iff.mpr hand.nodup
  deck card inside := hand.deck card ((List.perm_insertionSort _ _).mem_iff.mp inside)
  above := by
    have nodup : (sortCardList cards).Nodup := (List.perm_insertionSort _ _).nodup_iff.mpr hand.nodup
    apply ((List.pairwise_insertionSort sortsBefore cards).and nodup).imp
    rintro card card' ⟨order, different⟩
    exact (sortsBefore_iff.mp order).resolve_right different

theorem Sorted.descending {n : ℕ} (sorted : Sorted n h) : (h.map getCardLogicValue).Pairwise (· ≥ ·) := by
  apply List.pairwise_map.mpr
  apply sorted.above.imp
  intro card card' above
  rw [Above] at above
  omega

end Cards

/-! ## Grouped values -/

section Ranks

variable {ranks : List ℕ} {rank : ℕ}

private theorem filter_count_eq_nil {times : ℕ} (few : ∀ rank, ranks.count rank < times) :
    ranks.filter (fun rank => ranks.count rank = times) = [] := by
  apply List.filter_eq_nil_iff.mpr
  intro rank _
  have := few rank
  simp only [decide_eq_true_eq]
  omega

/-- Where no value occurs twice, they decide from the highest on. -/
theorem groupedRanks_of_nodup (nodup : ranks.Nodup) : groupedRanks ranks = ranks := by
  have once : ∀ rank, ranks.count rank ≤ 1 := List.nodup_iff_count_le_one.mp nodup
  have none_ (times : ℕ) (two : 2 ≤ times) : ranks.filter (fun rank => ranks.count rank = times) = [] :=
    filter_count_eq_nil fun rank => Nat.lt_of_le_of_lt (once rank) two
  have all : ranks.filter (fun rank => ranks.count rank = 1) = ranks := by
    apply List.filter_eq_self.mpr
    intro rank inside
    exact decide_eq_true (List.count_eq_one_of_mem nodup inside)
  simp only [groupedRanks, List.flatMap_cons, List.flatMap_nil, none_ 4 (by omega), none_ 3 (by omega), none_ 2 le_rfl,
    all, List.dedup_nil, List.nil_append, List.append_nil]
  exact nodup.dedup

/-- One value that occurs twice comes first. -/
theorem groupedRanks_pair {pre post : List ℕ} (nodup : (pre ++ rank :: post).Nodup) :
    groupedRanks (pre ++ rank :: rank :: post) = rank :: (pre ++ post) := by
  have counted (other : ℕ) : (pre ++ rank :: rank :: post).count other
      = (pre ++ rank :: post).count other + if rank = other then 1 else 0 := by
    simp only [List.count_append, List.count_cons, beq_iff_eq]
    omega
  have once (other : ℕ) : (pre ++ rank :: post).count other ≤ 1 := List.nodup_iff_count_le_one.mp nodup other
  have twice : (pre ++ rank :: rank :: post).count rank = 2 := by
    rw [counted, List.count_eq_one_of_mem nodup (List.mem_append_right _ List.mem_cons_self), if_pos rfl]
  have few (times : ℕ) (three : 3 ≤ times) :
      (pre ++ rank :: rank :: post).filter (fun other => (pre ++ rank :: rank :: post).count other = times) = [] := by
    apply filter_count_eq_nil
    intro other
    have := once other
    rw [counted]
    split <;> omega
  have alone (other : ℕ) (inside : other ∈ pre ++ post) :
      other ≠ rank ∧ (pre ++ rank :: rank :: post).count other = 1 := by
    have middle : (rank :: (pre ++ post)).Nodup := (List.perm_middle.nodup_iff).mp nodup
    have different : other ≠ rank := fun same => (List.nodup_cons.mp middle).1 (same ▸ inside)
    have present : other ∈ pre ++ rank :: post := by
      rcases List.mem_append.mp inside with before | after
      · exact List.mem_append_left _ before
      · exact List.mem_append_right _ (List.mem_cons_of_mem _ after)
    exact ⟨different, by rw [counted, List.count_eq_one_of_mem nodup present, if_neg different.symm]⟩
  have keep {part : List ℕ} (inside : part ⊆ pre ++ post) :
      part.filter (fun other => (pre ++ rank :: rank :: post).count other = 1) = part
        ∧ part.filter (fun other => (pre ++ rank :: rank :: post).count other = 2) = [] := by
    constructor
    · apply List.filter_eq_self.mpr
      intro other present
      exact decide_eq_true (alone other (inside present)).2
    · apply List.filter_eq_nil_iff.mpr
      intro other present
      rw [(alone other (inside present)).2]
      decide
  obtain ⟨pre_one, pre_two⟩ := keep (List.subset_append_left pre post)
  obtain ⟨post_one, post_two⟩ := keep (List.subset_append_right pre post)
  have rest : (pre ++ post).dedup = pre ++ post := by
    apply List.Nodup.dedup
    exact (List.nodup_cons.mp (List.perm_middle.nodup_iff.mp nodup)).2
  simp only [groupedRanks, List.flatMap_cons, List.flatMap_nil, few 4 (by omega), few 3 le_rfl, List.dedup_nil,
    List.nil_append, List.append_nil]
  simp [List.filter_append, twice, pre_one, pre_two, post_one, post_two, rest, -List.count_append]

/-- A value that occurs more often than all others comes first. -/
theorem groupedRanks_most {times : ℕ} (many : 3 ≤ times) (four : times ≤ 4) (present : ranks.count rank = times)
    (others : ∀ other, other ≠ rank → ranks.count other < times) : ∃ rest, groupedRanks ranks = rank :: rest := by
  have above (more : ℕ) (larger : times < more) : ranks.filter (fun other => ranks.count other = more) = [] := by
    apply filter_count_eq_nil
    intro other
    rcases eq_or_ne other rank with rfl | different
    · omega
    · exact (others other different).trans larger
  have only : (ranks.filter fun other => ranks.count other = times).dedup = [rank] := by
    apply List.perm_singleton.mp
    apply (List.perm_ext_iff_of_nodup (List.nodup_dedup _) (List.nodup_singleton rank)).mpr
    intro other
    rw [List.mem_dedup, List.mem_filter, decide_eq_true_eq, List.mem_singleton]
    constructor
    · rintro ⟨-, counted⟩
      by_contra different
      have := others other different
      omega
    · rintro rfl
      exact ⟨List.count_pos_iff.mp (by omega), present⟩
  rcases (show times = 3 ∨ times = 4 by omega) with rfl | rfl
  · simp only [groupedRanks, List.flatMap_cons, above 4 (by omega), only, List.dedup_nil, List.nil_append,
      List.singleton_append]
    exact ⟨_, rfl⟩
  · simp only [groupedRanks, List.flatMap_cons, only, List.singleton_append]
    exact ⟨_, rfl⟩

end Ranks

end H5Server.Gswz
