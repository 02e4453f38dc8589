import H5Server.Gswz.Comparison

/-! # The order of the hands

`CompareCard` orders disjoint hands by their strength, whatever the order of their cards. The exception are straights
of four cards with an ace: the comparison then reads a fifth card, which such a hand does not have.
-/

namespace H5Server.Gswz

variable {n : ℕ} {type type' : CardType} {a b h h' : List ℕ} {hands : List (List ℕ)}

/-- The strength of a hand of `n` cards under its own type. -/
def strengthIn (cards : List ℕ) (n : ℕ) : Option Strength := (getCardType cards n).map (strength · cards)

/-- The hands in whose comparison a card past the last one is read. -/
def CompareReadsBeyond (n : ℕ) (a b : List ℕ) : Prop :=
  n = 4 ∧ getCardType a 4 = getCardType b 4 ∧ (getCardType a 4).any CardType.isStraight
    ∧ ∃ card ∈ a ++ b, getCardLogicValue card = 14

instance : Decidable (CompareReadsBeyond n a b) := inferInstanceAs (Decidable (_ ∧ _ ∧ _ ∧ _))

/-- What a strict total order by the cards alone comes to for the given hands. -/
structure StrictOrder (n : ℕ) (hands : List (List ℕ)) : Prop where
  inside : ∀ a ∈ hands, ∀ b ∈ hands, a ≠ b → (compareCard a b n).isSome
  one : ∀ a ∈ hands, ∀ b ∈ hands, a ≠ b → Xor (compareCard a b n = some true) (compareCard b a n = some true)
  trans : ∀ a ∈ hands, ∀ b ∈ hands, ∀ c ∈ hands, a ≠ b → b ≠ c → a ≠ c →
    compareCard a b n = some true → compareCard b c n = some true → compareCard a c n = some true
  unordered : ∀ a ∈ hands, ∀ b ∈ hands, ∀ a' b', a'.Perm a → b'.Perm b → compareCard a' b' n = compareCard a b n
  strongest : ∀ a ∈ hands, ∀ b ∈ hands, a ≠ b → ∃ x y, strengthIn a n = some x ∧ strengthIn b n = some y
    ∧ (compareCard a b n = some true ↔ y < x)

theorem copied_eq (length : a.length = n) : copied a n = some a := by
  rw [copied, if_pos length.ge, ← length, List.take_length]

theorem Hand.getCardType_eq (hand : Hand n a) : getCardType a n = typeOfSorted (sortCardList a) n := by
  rw [getCardType, copied_eq hand.length]
  rfl

theorem Hand.compareCard_eq (hand : Hand n a) (hand' : Hand n b) (typed : getCardType a n = some type)
    (typed' : getCardType b n = some type') :
    compareCard a b n = if type' = type then compareSorted type (sortCardList a) (sortCardList b) n
      else some (decide (type.value > type'.value)) := by
  simp only [compareCard, typed, typed', copied_eq hand.length, copied_eq hand'.length, Option.bind_eq_bind,
    Option.bind_some]
  rfl

/-- Every hand has a type, and a value from which the deciding ones start. -/
theorem Hand.exists_type (hand : Hand n a) (positive : 1 ≤ n) (few : n ≤ 5) :
    ∃ type, getCardType a n = some type ∧ Shape type (sortCardList a) := by
  rw [hand.getCardType_eq]
  exact hand.sorted.shape positive few

theorem mem_sortCardList {card : ℕ} : card ∈ sortCardList a ↔ card ∈ a := (List.perm_insertionSort _ _).mem_iff

theorem disjoint_sortCardList (disjoint : a.Disjoint b) : (sortCardList a).Disjoint (sortCardList b) :=
  fun _ first second => disjoint (mem_sortCardList.mp first) (mem_sortCardList.mp second)

theorem CardType.value_injective : Function.Injective CardType.value := by
  intro type type' same
  cases type <;> cases type' <;> first | rfl | exact absurd same (by decide)

/-- Disjoint hands are compared as their strengths are. -/
theorem Hand.compareCard_spec (hand : Hand n a) (hand' : Hand n b) (positive : 1 ≤ n) (few : n ≤ 5)
    (disjoint : a.Disjoint b) (typed : getCardType a n = some type) (typed' : getCardType b n = some type')
    (inside : ¬CompareReadsBeyond n a b) :
    Decides (compareCard a b n) (strength type' b < strength type a) := by
  obtain ⟨found, runs, shape⟩ := hand.exists_type positive few
  obtain rfl : found = type := Option.some.inj (runs.symm.trans typed)
  obtain ⟨found', runs', shape'⟩ := hand'.exists_type positive few
  obtain rfl : found' = type' := Option.some.inj (runs'.symm.trans typed')
  rw [hand.compareCard_eq hand' typed typed']
  rcases eq_or_ne found' found with rfl | different
  · rw [if_pos rfl]
    apply compareSorted_spec hand.sorted hand'.sorted positive (disjoint_sortCardList disjoint) shape shape'
    rintro ⟨rfl, link, card, present, ace⟩
    rw [List.mem_append, mem_sortCardList, mem_sortCardList, ← List.mem_append] at present
    exact inside ⟨rfl, typed.trans typed'.symm, by simpa [typed] using link, card, present, ace⟩
  · rw [if_neg different]
    refine ⟨_, rfl, ?_⟩
    have other : found'.value ≠ found.value := fun same => different (CardType.value_injective same)
    simp only [decide_eq_true_eq, strength, strengthOf, Prod.Lex.toLex_lt_toLex, other, false_and, or_false, gt_iff_lt]

theorem Hand.compareCard_beyond (hand : Hand n a) (hand' : Hand n b) (beyond : CompareReadsBeyond n a b) :
    compareCard a b n = none := by
  obtain ⟨rfl, same, link, card, present, ace⟩ := beyond
  obtain ⟨type, typed, shape⟩ := hand.exists_type (by omega) (by omega)
  obtain ⟨type', typed', shape'⟩ := hand'.exists_type (by omega) (by omega)
  obtain rfl : type = type' := Option.some.inj ((typed.symm.trans same).trans typed')
  rw [hand.compareCard_eq hand' typed typed', if_pos rfl]
  apply compareSorted_beyond hand.sorted hand'.sorted shape shape'
  refine ⟨rfl, by simpa [typed] using link, card, ?_, ace⟩
  rw [List.mem_append, mem_sortCardList, mem_sortCardList, ← List.mem_append]
  exact present

/-! ## Strengths of disjoint hands -/

theorem Straight.exists_rank (straight : Straight h) (sorted : Sorted n h) (link : type.isStraight = true) :
    ∃ rank tail, decidingRanks type (h.map getCardLogicValue) = rank :: tail ∧ rank ∈ h.map getCardLogicValue := by
  rcases straight.length with four | five
  · refine ⟨_, [], by rw [decidingRanks, if_pos link], ?_⟩
    cases straight with
    | five => exact absurd four (by simp)
    | @four a b c d second third fourth =>
      rw [straightRank, if_neg]
      · exact List.mem_cons_self
      · simp only [List.map_cons, List.map_nil, List.mem_cons, List.not_mem_nil, or_false]
        omega
  · obtain ⟨key, -, decides⟩ := straight.reads_five five (sorted.length.symm.trans five ▸ sorted) link
    exact ⟨_, _, decides.ranks, List.mem_map_of_mem decides.inside⟩

/-- The first deciding value is that of a card of the hand. -/
theorem Shape.exists_rank (shape : Shape type h) (sorted : Sorted n h) (positive : 1 ≤ n) :
    ∃ rank tail, decidingRanks type (h.map getCardLogicValue) = rank :: tail ∧ rank ∈ h.map getCardLogicValue := by
  have different (plain : type.isStraight = false) (nodup : (h.map getCardLogicValue).Nodup) :
      ∃ rank tail, decidingRanks type (h.map getCardLogicValue) = rank :: tail ∧ rank ∈ h.map getCardLogicValue := by
    cases h with
    | nil => exact absurd sorted.length (by simp; omega)
    | cons card rest =>
      have decides := key_of_nodup plain nodup
      exact ⟨_, _, decides.ranks, List.mem_map_of_mem decides.inside⟩
  have repeated_ {times : ℕ} (three : 3 ≤ times) (four : times ≤ 4) (plain : type.isStraight = false)
      (most : ∃ found, Most times h found) :
      ∃ rank tail, decidingRanks type (h.map getCardLogicValue) = rank :: tail ∧ rank ∈ h.map getCardLogicValue := by
    obtain ⟨found, most⟩ := most
    obtain ⟨tail, ranks⟩ := most.head three four plain
    exact ⟨_, tail, ranks, List.mem_map_of_mem most.inside⟩
  cases type with
  | single => exact different rfl shape
  | sameFlower => exact different rfl shape
  | double =>
    obtain ⟨key, rest, -, -, -, decides⟩ := OnePair.reads shape sorted.length
    exact ⟨_, _, decides.ranks, List.mem_map_of_mem decides.inside⟩
  | twoDouble =>
    rcases TwoPairs.length shape with four | five
    · obtain ⟨key, middle, low, -, -, -, -, decides⟩ := TwoPairs.reads_four shape four
      exact ⟨_, _, decides.ranks, List.mem_map_of_mem decides.inside⟩
    · obtain ⟨key, middle, low, single, -, -, -, -, decides⟩ := TwoPairs.reads_five shape five
      exact ⟨_, _, decides.ranks, List.mem_map_of_mem decides.inside⟩
  | third => exact repeated_ (by omega) (by omega) rfl shape
  | calabash => exact repeated_ (by omega) (by omega) rfl shape
  | four => exact repeated_ (by omega) (by omega) rfl shape
  | link => exact Straight.exists_rank shape sorted rfl
  | sameFlowerLink => exact Straight.exists_rank shape sorted rfl
  | maxSameFlowerLink => exact Straight.exists_rank shape sorted rfl

theorem exists_colorOf {rank : ℕ} (present : rank ∈ h.map getCardLogicValue) :
    ∃ card ∈ h, getCardLogicValue card = rank ∧ colorOf rank h = getCardColor card := by
  obtain ⟨card, inside, same⟩ := List.mem_map.mp present
  have some_ : (h.find? fun card => getCardLogicValue card == rank).isSome :=
    List.find?_isSome.mpr ⟨card, inside, beq_iff_eq.mpr same⟩
  obtain ⟨found, runs⟩ := Option.isSome_iff_exists.mp some_
  have value := List.find?_some runs
  refine ⟨found, List.mem_of_find?_eq_some runs, beq_iff_eq.mp value, ?_⟩
  rw [colorOf, runs]
  rfl

/-- The card that decides is in one of the hands only. -/
theorem strengthOf_ne (sorted : Sorted n h) (sorted' : Sorted n h') (positive : 1 ≤ n) (disjoint : h.Disjoint h')
    (shape : Shape type h) (shape' : Shape type' h') : strengthOf type h ≠ strengthOf type' h' := by
  intro same
  obtain ⟨rank, tail, ranks, present⟩ := shape.exists_rank sorted positive
  obtain ⟨rank', tail', ranks', present'⟩ := shape'.exists_rank sorted' positive
  simp only [strengthOf, ranks, ranks', EmbeddingLike.apply_eq_iff_eq, Prod.mk.injEq, List.headD_cons,
    List.cons.injEq] at same
  obtain ⟨-, ⟨rfl, -⟩, color⟩ := same
  obtain ⟨card, inside, value, colored⟩ := exists_colorOf present
  obtain ⟨card', inside', value', colored'⟩ := exists_colorOf present'
  rw [colored, colored'] at color
  have below := color_lt_iff card (sorted.deck card inside) card' (sorted'.deck card' inside') (value.trans value'.symm)
  have above := color_lt_iff card' (sorted'.deck card' inside') card (sorted.deck card inside) (value'.trans value.symm)
  obtain rfl : card = card' := by omega
  exact disjoint inside inside'

/-- The comparison does not look at the order of the cards. -/
theorem Hand.compareCard_of_perm {a' b' : List ℕ} (hand : Hand n a) (hand' : Hand n b) (same : a'.Perm a)
    (same' : b'.Perm b) : compareCard a' b' n = compareCard a b n := by
  have typed : getCardType a' n = getCardType a n := by
    rw [getCardType, getCardType, copied_eq hand.length, copied_eq (same.length_eq.trans hand.length)]
    exact congrArg (typeOfSorted · n) (sortCardList_eq_of_perm same)
  have typed' : getCardType b' n = getCardType b n := by
    rw [getCardType, getCardType, copied_eq hand'.length, copied_eq (same'.length_eq.trans hand'.length)]
    exact congrArg (typeOfSorted · n) (sortCardList_eq_of_perm same')
  simp only [compareCard, typed, typed', copied_eq hand.length, copied_eq hand'.length,
    copied_eq (same.length_eq.trans hand.length), copied_eq (same'.length_eq.trans hand'.length),
    sortCardList_eq_of_perm same, sortCardList_eq_of_perm same', Option.bind_some, Option.bind_eq_bind]

/-- Disjoint hands have strengths, which differ and decide between them. -/
theorem Hand.strengths (hand : Hand n a) (hand' : Hand n b) (positive : 1 ≤ n) (few : n ≤ 5) (disjoint : a.Disjoint b)
    (inside : ¬CompareReadsBeyond n a b) : ∃ x y, strengthIn a n = some x ∧ strengthIn b n = some y ∧ x ≠ y
      ∧ (compareCard a b n).isSome ∧ (compareCard a b n = some true ↔ y < x) := by
  obtain ⟨type, typed, shape⟩ := hand.exists_type positive few
  obtain ⟨type', typed', shape'⟩ := hand'.exists_type positive few
  obtain ⟨won, runs, iff_⟩ := hand.compareCard_spec hand' positive few disjoint typed typed' inside
  refine ⟨strength type a, strength type' b, by rw [strengthIn, typed, Option.map_some],
    by rw [strengthIn, typed', Option.map_some], ?_, by rw [runs]; rfl, by rw [runs, Option.some_inj, iff_]⟩
  exact strengthOf_ne hand.sorted hand'.sorted positive (disjoint_sortCardList disjoint) shape shape'

/-- Disjoint hands are strictly ordered by their cards exactly when no two of them are straights of four cards of one
type, one with an ace. -/
theorem compareCard_strictOrder_iff (positive : 1 ≤ n) (few : n ≤ 5) (dealt : ∀ a ∈ hands, Hand n a)
    (disjoint : ∀ a ∈ hands, ∀ b ∈ hands, a ≠ b → a.Disjoint b) :
    StrictOrder n hands ↔ ∀ a ∈ hands, ∀ b ∈ hands, a ≠ b → ¬CompareReadsBeyond n a b := by
  constructor
  · intro order a first b second different beyond
    have inside := order.inside a first b second different
    rw [(dealt a first).compareCard_beyond (dealt b second) beyond] at inside
    exact Bool.false_ne_true inside
  intro inside
  have wins (a) (first : a ∈ hands) (b) (second : b ∈ hands) (different : a ≠ b) :=
    (dealt a first).strengths (dealt b second) positive few (disjoint a first b second different)
      (inside a first b second different)
  refine ⟨?_, ?_, ?_, ?_, ?_⟩
  · intro a first b second different
    obtain ⟨x, y, -, -, -, some_, -⟩ := wins a first b second different
    exact some_
  · intro a first b second different
    obtain ⟨x, y, left, right, apart, -, iff_⟩ := wins a first b second different
    obtain ⟨y', x', right', left', -, -, iff_'⟩ := wins b second a first different.symm
    obtain rfl : x = x' := Option.some.inj (left.symm.trans left')
    obtain rfl : y = y' := Option.some.inj (right.symm.trans right')
    rw [iff_, iff_']
    rcases lt_or_gt_of_ne apart with less | more
    · exact Or.inr ⟨less, less.asymm⟩
    · exact Or.inl ⟨more, more.asymm⟩
  · intro a first b second c third ab bc ac
    obtain ⟨x, y, left, right, -, -, iff_⟩ := wins a first b second ab
    obtain ⟨y', z, left', right', -, -, iff_'⟩ := wins b second c third bc
    obtain ⟨x', z', left'', right'', -, -, iff_''⟩ := wins a first c third ac
    obtain rfl : y = y' := Option.some.inj (right.symm.trans left')
    obtain rfl : x = x' := Option.some.inj (left.symm.trans left'')
    obtain rfl : z = z' := Option.some.inj (right'.symm.trans right'')
    rw [iff_, iff_', iff_'']
    exact fun above below => lt_trans below above
  · intro a first b second a' b' same same'
    exact (dealt a first).compareCard_of_perm (dealt b second) same same'
  · intro a first b second different
    obtain ⟨x, y, left, right, -, -, iff_⟩ := wins a first b second different
    exact ⟨x, y, left, right, iff_⟩

/-- The lowest straight of five cards below the next one. -/
theorem compareCard_strictOrder_five :
    StrictOrder 5 [[0x08, 0x19, 0x0A, 0x3B, 0x01], [0x0C, 0x18, 0x2A, 0x09, 0x0B]] := by
  apply (compareCard_strictOrder_iff (by decide) (by decide) ?_ ?_).mpr (by decide)
  · intro a inside
    simp only [List.mem_cons, List.not_mem_nil, or_false] at inside
    rcases inside with rfl | rfl <;> exact ⟨rfl, by decide, by decide⟩
  · have apart : ∀ a ∈ [[0x08, 0x19, 0x0A, 0x3B, 0x01], [0x0C, 0x18, 0x2A, 0x09, 0x0B]],
        ∀ b ∈ [[0x08, 0x19, 0x0A, 0x3B, 0x01], [0x0C, 0x18, 0x2A, 0x09, 0x0B]], a ≠ b → ∀ card ∈ a, card ∉ b := by
      decide
    exact fun a first b second different => List.disjoint_left.mpr (apart a first b second different)

/-- Ace, king, queen and jack against king, queen, jack and ten: the comparison reads the fifth of four cards. -/
theorem compareCard_aceHigh_four :
    Hand 4 [0x01, 0x1D, 0x2C, 0x3B] ∧ Hand 4 [0x0D, 0x1C, 0x2B, 0x3A]
      ∧ [0x01, 0x1D, 0x2C, 0x3B].Disjoint [0x0D, 0x1C, 0x2B, 0x3A]
      ∧ compareCard [0x01, 0x1D, 0x2C, 0x3B] [0x0D, 0x1C, 0x2B, 0x3A] 4 = none
      ∧ ¬StrictOrder 4 [[0x01, 0x1D, 0x2C, 0x3B], [0x0D, 0x1C, 0x2B, 0x3A]] := by
  have beyond : compareCard [0x01, 0x1D, 0x2C, 0x3B] [0x0D, 0x1C, 0x2B, 0x3A] 4 = none := by decide
  refine ⟨⟨rfl, by decide, by decide⟩, ⟨rfl, by decide, by decide⟩, List.disjoint_left.mpr (by decide), beyond, fun order => ?_⟩
  have inside := order.inside [0x01, 0x1D, 0x2C, 0x3B] (by simp) [0x0D, 0x1C, 0x2B, 0x3A] (by simp) (by decide)
  rw [beyond] at inside
  exact Bool.false_ne_true inside

end H5Server.Gswz
