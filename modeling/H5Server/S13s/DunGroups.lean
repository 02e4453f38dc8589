import H5Server.Lib.Grouping
import H5Server.S13s.Checks
import H5Server.S13s.DunCards

/-! # The groups of equal cards in a dun

Sorted cards are groups of one value each. `EnumRepeatCards` picks the groups of a length when no group is longer, and
`RemoveRepeatCards` parts the groups by their lengths.
-/

namespace H5Server.S13s

open Lib

/-- The cards of a dun in any order. -/
structure IsDun (dt : DunTy) (cards : List ℕ) : Prop where
  length : cards.length = dt.needC
  nodup : cards.Nodup
  deck : ∀ card ∈ cards, card ∈ cardListData

/-- How many cards have a value. -/
def number (cards : List ℕ) (value : ℕ) : ℕ := cards.countP (getCardValue · = value)

variable {dt : DunTy} {cards : List ℕ} {n : ℕ}

/-! ## Cards -/

theorem value_of_mem {card : ℕ} (present : card ∈ cardListData) : 1 ≤ getCardValue card ∧ getCardValue card ≤ 13 := by
  have all : ∀ card ∈ cardListData, 1 ≤ getCardValue card ∧ getCardValue card ≤ 13 := by decide +kernel
  exact all card present

theorem color_of_mem {card : ℕ} (present : card ∈ cardListData) : getCardColor card ∈ [0x40, 0x30, 0x20, 0x10] := by
  have all : ∀ card ∈ cardListData, getCardColor card ∈ [0x40, 0x30, 0x20, 0x10] := by decide +kernel
  exact all card present

theorem card_eq_of_mem {card : ℕ} (present : card ∈ cardListData) : getCardColor card + getCardValue card = card := by
  have all : ∀ card ∈ cardListData, getCardColor card + getCardValue card = card := by decide +kernel
  exact all card present

theorem card_ext_color {card card' : ℕ} (present : card ∈ cardListData) (present' : card' ∈ cardListData)
    (color : getCardColor card = getCardColor card') (value : getCardValue card = getCardValue card') : card = card' := by
  rw [← card_eq_of_mem present, ← card_eq_of_mem present', color, value]

theorem point_eq_iff {card card' : ℕ} (present : card ∈ cardListData) (present' : card' ∈ cardListData) :
    getCardPoint card = getCardPoint card' ↔ getCardValue card = getCardValue card' := by
  have := value_of_mem present
  have := value_of_mem present'
  rw [getCardPoint, getCardPoint]
  split_ifs <;> omega

/-! ## Sorted cards -/

instance : Std.Total byCardValueColor := ⟨fun a b => by simp only [byCardValueColor]; omega⟩

instance : IsTrans ℕ byCardValueColor := ⟨fun a b c => by simp only [byCardValueColor]; omega⟩

theorem sortCards_perm (cards : List ℕ) : (sortCards cards).Perm cards := List.perm_insertionSort _ _

theorem sortCards_sorted (cards : List ℕ) :
    (sortCards cards).Pairwise fun x y => getCardValue x ≤ getCardValue y :=
  (List.pairwise_insertionSort byCardValueColor cards).imp fun {x y} before => by
    rcases before with less | ⟨same, -⟩
    · exact less.le
    · exact same.le

theorem sortCards_congr {cards' : List ℕ} (deck : ∀ card ∈ cards, card ∈ cardListData) (perm : cards.Perm cards') :
    sortCards cards = sortCards cards' := by
  have sorted := List.pairwise_insertionSort byCardValueColor
  refine List.Perm.eq_of_pairwise ?_ (sorted cards) (sorted cards')
    ((sortCards_perm cards).trans (perm.trans (sortCards_perm cards').symm))
  intro a b here there before after
  have here := deck a ((sortCards_perm cards).mem_iff.mp here)
  have there := deck b (perm.mem_iff.mpr ((sortCards_perm cards').mem_iff.mp there))
  simp only [byCardValueColor] at before after
  exact card_ext_color here there (by omega) (by omega)

/-! ## Groups -/

/-- Groups of cards, each of a value of its own. -/
structure Grouped (groups : List (List ℕ)) : Prop where
  some_ : ∀ g ∈ groups, g ≠ []
  same : ∀ g ∈ groups, ∀ x ∈ g, ∀ y ∈ g, getCardValue x = getCardValue y
  apart : groups.Pairwise fun g g' => ∀ x ∈ g, ∀ y ∈ g', getCardValue x ≠ getCardValue y

namespace Grouped

variable {groups : List (List ℕ)} {g : List ℕ}

theorem filter (grouped : Grouped groups) (p : List ℕ → Bool) : Grouped (groups.filter p) :=
  ⟨fun g there => grouped.some_ g (List.mem_filter.mp there).1, fun g there => grouped.same g (List.mem_filter.mp there).1,
    grouped.apart.filter p⟩

theorem tail (grouped : Grouped (g :: groups)) : Grouped groups :=
  ⟨fun g there => grouped.some_ g (List.mem_cons_of_mem _ there),
    fun g there => grouped.same g (List.mem_cons_of_mem _ there), (List.pairwise_cons.mp grouped.apart).2⟩

theorem nodup (grouped : Grouped groups) : groups.Nodup := by
  refine grouped.apart.imp_of_mem fun {g g'} here _ differ => ?_
  rintro rfl
  obtain ⟨x, there⟩ := List.exists_mem_of_ne_nil g (grouped.some_ g here)
  exact differ x there x there rfl

end Grouped

/-! ## Repeats -/

section Repeats

/-- Cards of the value held are added until there are `n`. -/
theorem repeatCards_same {first : ℕ} (held : List ℕ) {more : List ℕ} (rest : List ℕ)
    (same : ∀ card ∈ more, getCardValue first = getCardValue card) (room : held.length + 1 < n)
    (fits : held.length + 1 + more.length ≤ n) :
    repeatCards n (first :: held) (more ++ rest) =
      if held.length + 1 + more.length = n then
        ((first :: held ++ more) :: (repeatCards n [] rest).1, (repeatCards n [] rest).2)
      else repeatCards n (first :: held ++ more) rest := by
  induction more generalizing held with
  | nil => rw [List.nil_append, List.length_nil, if_neg (by omega), List.append_nil]
  | cons card more ih =>
    obtain ⟨this, later⟩ := List.forall_mem_cons.mp same
    rw [List.length_cons] at fits
    rw [List.cons_append, repeatCards, if_pos this]
    rcases eq_or_ne (held.length + 2) n with full | less
    · have none_ : more = [] := List.length_eq_zero_iff.mp (by omega)
      rw [if_pos full, none_, if_pos (by rw [List.length_singleton]; omega), List.nil_append]
    · have length : (held ++ [card]).length = held.length + 1 := by rw [List.length_append, List.length_singleton]
      rw [if_neg less, List.cons_append, ih _ later (by omega) (by omega), length, List.length_cons, List.cons_append,
        List.cons_append, List.append_assoc, List.singleton_append]
      exact if_congr (by omega) rfl rfl

/-- The groups of length `n` and the cards of the others, with one more group held or nothing. -/
theorem repeatCards_groups (two : 2 ≤ n) {groups : List (List ℕ)} (grouped : Grouped groups)
    (fits : ∀ g ∈ groups, g.length ≤ n) :
    repeatCards n [] groups.flatten = (groups.filter (·.length = n), (groups.filter (·.length ≠ n)).flatten)
      ∧ ∀ held, Grouped (held :: groups) → held.length < n →
        repeatCards n held groups.flatten =
          (groups.filter (·.length = n), held ++ (groups.filter (·.length ≠ n)).flatten) := by
  induction groups with
  | nil =>
    constructor
    · rfl
    · intro held grouped _
      obtain ⟨first, held, rfl⟩ := List.exists_cons_of_ne_nil (grouped.some_ held List.mem_cons_self)
      rw [List.filter_nil, List.filter_nil, List.flatten_nil, repeatCards, List.append_nil]
  | cons g groups ih =>
    obtain ⟨fit, fits⟩ := List.forall_mem_cons.mp fits
    obtain ⟨fresh, following⟩ := ih grouped.tail fits
    obtain ⟨first, more, rfl⟩ := List.exists_cons_of_ne_nil (grouped.some_ g List.mem_cons_self)
    have whole : repeatCards n [first] (more ++ groups.flatten) =
        (((first :: more) :: groups).filter (·.length = n),
          (((first :: more) :: groups).filter (·.length ≠ n)).flatten) := by
      have same : ∀ card ∈ more, getCardValue first = getCardValue card := fun card there =>
        grouped.same _ List.mem_cons_self first List.mem_cons_self card (List.mem_cons_of_mem _ there)
      rw [List.length_cons] at fit
      rw [repeatCards_same [] _ same (by rw [List.length_nil]; omega) (by rw [List.length_nil]; omega),
        List.singleton_append, List.length_nil]
      rcases eq_or_ne (more.length + 1) n with full | less
      · rw [if_pos (by omega), fresh, List.filter_cons_of_pos (by simpa using full),
          List.filter_cons_of_neg (by simpa using full)]
      · rw [if_neg (by omega), following _ grouped (by rw [List.length_cons]; omega),
          List.filter_cons_of_neg (by simpa using less), List.filter_cons_of_pos (by simpa using less), List.flatten_cons]
    constructor
    · rw [List.flatten_cons, List.cons_append, repeatCards]
      split_ifs with few
      · -- Too few cards are left for a group.
        have short : ∀ g' ∈ (first :: more) :: groups, g'.length ≠ n := by
          intro g' there
          have := (List.sublist_flatten_of_mem there).length_le
          rw [List.flatten_cons, List.cons_append, List.length_cons] at this
          omega
        rw [List.filter_eq_nil_iff.mpr (by simpa using short), List.filter_eq_self.mpr (by simpa using short),
          List.flatten_cons, List.cons_append]
      · exact whole
    · intro held grouped' _
      obtain ⟨card, held, rfl⟩ := List.exists_cons_of_ne_nil (grouped'.some_ held List.mem_cons_self)
      have differ : getCardValue card ≠ getCardValue first :=
        (List.pairwise_cons.mp grouped'.apart).1 _ List.mem_cons_self card List.mem_cons_self first List.mem_cons_self
      rw [List.flatten_cons, List.cons_append, repeatCards, if_neg differ, whole]

theorem enumRepeatCards_groups (two : 2 ≤ n) {groups : List (List ℕ)} (grouped : Grouped groups)
    (fits : ∀ g ∈ groups, g.length ≤ n) :
    enumRepeatCards n groups.flatten =
      if groups.filter (·.length = n) = [] then ([], [])
      else (groups.filter (·.length = n), (groups.filter (·.length ≠ n)).flatten) := by
  rw [enumRepeatCards, (repeatCards_groups two grouped fits).1]

/-- What is left for the next number is the same whether groups were found or not. -/
theorem enumRepeatCards_left (two : 2 ≤ n) {groups : List (List ℕ)} (grouped : Grouped groups)
    (fits : ∀ g ∈ groups, g.length ≤ n) :
    (enumRepeatCards n groups.flatten).1 = groups.filter (·.length = n)
      ∧ (if (enumRepeatCards n groups.flatten).1 = [] then groups.flatten else (enumRepeatCards n groups.flatten).2)
        = (groups.filter (·.length ≠ n)).flatten := by
  rw [enumRepeatCards_groups two grouped fits]
  rcases eq_or_ne (groups.filter (·.length = n)) [] with none_ | some_
  · rw [if_pos none_]
    refine ⟨none_.symm, ?_⟩
    rw [List.filter_eq_nil_iff] at none_
    rw [if_pos rfl, List.filter_eq_self.mpr (by simpa using none_)]
  · rw [if_neg some_, if_neg some_]
    exact ⟨rfl, rfl⟩

theorem removeRepeatCards_groups {groups : List (List ℕ)} (grouped : Grouped groups) (four : ∀ g ∈ groups, g.length ≤ 4) :
    removeRepeatCards groups.flatten =
      ⟨groups.filter (·.length = 4), groups.filter (·.length = 3), groups.filter (·.length = 2),
        (groups.filter (·.length = 1)).flatten⟩ := by
  obtain ⟨dst4, left4⟩ := enumRepeatCards_left (by norm_num) grouped four
  have three : ∀ g ∈ groups.filter (·.length ≠ 4), g.length ≤ 3 := by
    intro g there
    have := four g (List.mem_filter.mp there).1
    have := of_decide_eq_true (List.mem_filter.mp there).2
    omega
  obtain ⟨dst3, left3⟩ := enumRepeatCards_left (by norm_num) (grouped.filter _) three
  have two : ∀ g ∈ (groups.filter (·.length ≠ 4)).filter (·.length ≠ 3), g.length ≤ 2 := by
    intro g there
    have := three g (List.mem_filter.mp there).1
    have := of_decide_eq_true (List.mem_filter.mp there).2
    omega
  obtain ⟨dst2, left2⟩ := enumRepeatCards_left (by norm_num) ((grouped.filter _).filter _) two
  have full : ∀ g ∈ groups, 1 ≤ g.length := fun g there => List.length_pos_of_ne_nil (grouped.some_ g there)
  rw [removeRepeatCards]
  rw [left4, left3, left2, dst4, dst3, dst2]
  simp only [List.filter_filter]
  congr 1
  · refine List.filter_congr fun g _ => ?_
    rw [← Bool.decide_and, decide_eq_decide]
    omega
  · refine List.filter_congr fun g _ => ?_
    rw [← Bool.decide_and, ← Bool.decide_and, decide_eq_decide]
    omega
  · refine congrArg List.flatten (List.filter_congr fun g there => ?_)
    have := full g there
    have := four g there
    rw [← Bool.decide_and, ← Bool.decide_and, decide_eq_decide]
    omega

end Repeats

/-! ## The groups of a dun -/

/-- The cards of a value. -/
def block (cards : List ℕ) (value : ℕ) : List ℕ := (sortCards cards).filter (getCardValue · = value)

/-- The cards by their values, aces first. -/
def blocks (cards : List ℕ) : List (List ℕ) := ((List.range' 1 13).map (block cards)).filter (· ≠ [])

theorem length_block (cards : List ℕ) (value : ℕ) : (block cards value).length = number cards value := by
  rw [block, ← List.countP_eq_length_filter]
  exact (sortCards_perm cards).countP_eq _

theorem mem_block {value card : ℕ} : card ∈ block cards value ↔ card ∈ cards ∧ getCardValue card = value := by
  rw [block, List.mem_filter, (sortCards_perm cards).mem_iff, decide_eq_true_eq]

theorem blocks_flatten (deck : ∀ card ∈ cards, card ∈ cardListData) : (blocks cards).flatten = sortCards cards := by
  rw [blocks, List.flatten_filter_ne_nil, ← List.flatMap_def]
  refine flatMap_filter_of_sorted getCardValue (sortCards_sorted cards) fun card there => ?_
  have := value_of_mem (deck card ((sortCards_perm cards).mem_iff.mp there))
  omega

theorem blocks_grouped (cards : List ℕ) : Grouped (blocks cards) := by
  refine ⟨fun g there => of_decide_eq_true (List.mem_filter.mp there).2, ?_, ?_⟩
  · intro g there x inside y inside'
    obtain ⟨value, -, rfl⟩ := List.mem_map.mp (List.mem_filter.mp there).1
    rw [(mem_block.mp inside).2, (mem_block.mp inside').2]
  · refine List.Pairwise.filter _ (List.pairwise_map.mpr ?_)
    refine List.Pairwise.imp (fun {v w} less x inside y inside' => ?_) List.pairwise_lt_range'
    rw [(mem_block.mp inside).2, (mem_block.mp inside').2]
    exact less.ne

theorem number_eq_zero (deck : ∀ card ∈ cards, card ∈ cardListData) {value : ℕ} (other : value ∉ List.range' 1 13) :
    number cards value = 0 := by
  refine List.countP_eq_zero.mpr fun card there same => other ?_
  have := value_of_mem (deck card there)
  rw [of_decide_eq_true same] at this
  exact List.mem_range'_1.mpr (by omega)

/-- The groups are those of the values there are. -/
theorem mem_blocks (deck : ∀ card ∈ cards, card ∈ cardListData) {g : List ℕ} :
    g ∈ blocks cards ↔ ∃ value, 0 < number cards value ∧ block cards value = g := by
  rw [blocks, List.mem_filter, List.mem_map, decide_eq_true_eq]
  constructor
  · rintro ⟨⟨value, -, rfl⟩, full⟩
    exact ⟨value, length_block cards value ▸ List.length_pos_of_ne_nil full, rfl⟩
  · rintro ⟨value, positive, rfl⟩
    refine ⟨⟨value, ?_, rfl⟩, List.ne_nil_of_length_pos (by rwa [length_block])⟩
    by_contra other
    exact positive.ne' (number_eq_zero deck other)

/-- A value is in the deck four times. -/
theorem number_le_four (nodup : cards.Nodup) (deck : ∀ card ∈ cards, card ∈ cardListData) (value : ℕ) :
    number cards value ≤ 4 := by
  have colors : ((block cards value).map getCardColor).Nodup := by
    refine List.Nodup.map_on (fun x here y there same => ?_) (((sortCards_perm cards).nodup_iff.mpr nodup).filter _)
    obtain ⟨here, value⟩ := mem_block.mp here
    obtain ⟨there, value'⟩ := mem_block.mp there
    exact card_ext_color (deck x here) (deck y there) same (value.trans value'.symm)
  have known : ∀ color ∈ (block cards value).map getCardColor, color ∈ [0x40, 0x30, 0x20, 0x10] := by
    intro color there
    obtain ⟨card, inside, rfl⟩ := List.mem_map.mp there
    exact color_of_mem (deck card (mem_block.mp inside).1)
  have few := (colors.subperm known).length_le
  rw [List.length_map, length_block] at few
  exact few

theorem length_le_four (nodup : cards.Nodup) (deck : ∀ card ∈ cards, card ∈ cardListData) :
    ∀ g ∈ blocks cards, g.length ≤ 4 := by
  intro g there
  obtain ⟨value, -, rfl⟩ := (mem_blocks deck).mp there
  rw [length_block]
  exact number_le_four nodup deck value

theorem removeRepeatCards_blocks (nodup : cards.Nodup) (deck : ∀ card ∈ cards, card ∈ cardListData) :
    removeRepeatCards (sortCards cards) =
      ⟨(blocks cards).filter (·.length = 4), (blocks cards).filter (·.length = 3), (blocks cards).filter (·.length = 2),
        ((blocks cards).filter (·.length = 1)).flatten⟩ := by
  rw [← blocks_flatten deck, removeRepeatCards_groups (blocks_grouped cards) (length_le_four nodup deck)]

end H5Server.S13s
