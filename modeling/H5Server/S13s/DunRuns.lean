import H5Server.S13s.DunGroups

/-! # The straights and flushes of a dun

A dun of `n` cards has a run of `n` places marked only if its values are all different, and `n` places of one colour
only if that is the colour of all its cards. There are no groups then, and what is found is the dun itself.
-/

namespace H5Server.S13s

open Lib

/-- The values follow each other, or the points, with the ace above the king. -/
def Straight (cards : List ℕ) : Prop :=
  ∃ low, (cards.map getCardValue).Perm (List.range' low cards.length)
    ∨ (cards.map getCardPoint).Perm (List.range' low cards.length)

def OneColor (cards : List ℕ) : Prop := ∀ x ∈ cards, ∀ y ∈ cards, getCardColor x = getCardColor y

variable {cards : List ℕ} {n : ℕ}

theorem OneColor.nodup (color : OneColor cards) (nodup : cards.Nodup) (deck : ∀ card ∈ cards, card ∈ cardListData) :
    (cards.map getCardValue).Nodup :=
  List.Nodup.map_on (fun x there y there' => card_ext_color (deck x there) (deck y there') (color x there y there')) nodup

/-! ## Groups and single cards -/

section Parts

variable (nodup : cards.Nodup) (deck : ∀ card ∈ cards, card ∈ cardListData)

include nodup deck

theorem mem_groups {g : List ℕ} :
    g ∈ (removeRepeatCards (sortCards cards)).groups ↔ g ∈ blocks cards ∧ 2 ≤ g.length := by
  rw [removeRepeatCards_blocks nodup deck, Classify.groups]
  simp only [List.mem_append, List.mem_filter, decide_eq_true_eq]
  have := length_le_four nodup deck g
  constructor
  · rintro ((⟨there, _⟩ | ⟨there, _⟩) | ⟨there, _⟩) <;> exact ⟨there, by omega⟩
  · rintro ⟨there, _⟩
    have := this there
    have : g.length = 4 ∨ g.length = 3 ∨ g.length = 2 := by omega
    tauto

theorem subset_of_mem_groups {g : List ℕ} (there : g ∈ (removeRepeatCards (sortCards cards)).groups) :
    ∀ card ∈ g, card ∈ cards := by
  obtain ⟨value, -, rfl⟩ := (mem_blocks deck).mp ((mem_groups nodup deck).mp there).1
  exact fun card inside => (mem_block.mp inside).1

theorem mem_of_mem_cpy {card : ℕ} (there : card ∈ (removeRepeatCards (sortCards cards)).cpy) : card ∈ cards := by
  rw [removeRepeatCards_blocks nodup deck] at there
  obtain ⟨g, here, inside⟩ := List.mem_flatten.mp there
  obtain ⟨value, -, rfl⟩ := (mem_blocks deck).mp (List.mem_filter.mp here).1
  exact (mem_block.mp inside).1

/-- Single cards and one card of every group: a card of the dun for each of its values. -/
theorem marked_cards :
    let c := removeRepeatCards (sortCards cards)
    (∀ card ∈ c.cpy ++ c.groups.map (·.headD 0), card ∈ cards)
      ∧ ∀ card ∈ cards, ∃ card' ∈ c.cpy ++ c.groups.map (·.headD 0), getCardValue card' = getCardValue card := by
  constructor
  · intro card there
    rcases List.mem_append.mp there with there | there
    · exact mem_of_mem_cpy nodup deck there
    · obtain ⟨g, here, rfl⟩ := List.mem_map.mp there
      obtain ⟨first, rest, rfl⟩ := List.exists_cons_of_ne_nil ((blocks_grouped cards).some_ g ((mem_groups nodup deck).mp here).1)
      exact subset_of_mem_groups nodup deck here first List.mem_cons_self
  · intro card there
    have present : card ∈ block cards (getCardValue card) := mem_block.mpr ⟨there, rfl⟩
    have inside : block cards (getCardValue card) ∈ blocks cards :=
      (mem_blocks deck).mpr ⟨_, length_block cards _ ▸ List.length_pos_of_mem present, rfl⟩
    rcases Nat.lt_or_ge 1 (block cards (getCardValue card)).length with many | few
    · have here := (mem_groups nodup deck).mpr ⟨inside, many⟩
      refine ⟨(block cards (getCardValue card)).headD 0, List.mem_append_right _ (List.mem_map_of_mem here), ?_⟩
      obtain ⟨first, rest, eq⟩ := List.exists_cons_of_ne_nil (List.ne_nil_of_mem present)
      rw [eq, List.headD_cons]
      exact (mem_block.mp (eq ▸ List.mem_cons_self : first ∈ block cards (getCardValue card))).2
    · refine ⟨card, List.mem_append_left _ ?_, rfl⟩
      rw [removeRepeatCards_blocks nodup deck]
      refine List.mem_flatten.mpr ⟨_, List.mem_filter.mpr ⟨inside, decide_eq_true ?_⟩, present⟩
      exact le_antisymm few (List.length_pos_of_mem present)

/-- Different values make no groups. -/
theorem removeRepeatCards_of_nodup (different : (cards.map getCardValue).Nodup) :
    removeRepeatCards (sortCards cards) = ⟨[], [], [], sortCards cards⟩ := by
  have one : ∀ g ∈ blocks cards, g.length = 1 := by
    intro g there
    obtain ⟨value, positive, rfl⟩ := (mem_blocks deck).mp there
    rw [length_block]
    refine le_antisymm ?_ positive
    have := List.nodup_iff_count_le_one.mp different value
    rwa [List.count, List.countP_map] at this
  have none_ {k : ℕ} (other : k ≠ 1) : (blocks cards).filter (·.length = k) = [] := by
    refine List.filter_eq_nil_iff.mpr fun g there => ?_
    rw [decide_eq_true_eq, one g there]
    exact other.symm
  rw [removeRepeatCards_blocks nodup deck, none_ (by norm_num), none_ (by norm_num), none_ (by norm_num),
    List.filter_eq_self.mpr (by simpa using one), blocks_flatten deck]

end Parts

/-! ## Marks -/

section Marks

variable {mark l : List ℕ} {i : ℕ}

theorem length_fillCardsMarkLoc (mark l : List ℕ) : (fillCardsMarkLoc mark l).length = mark.length := by
  induction l generalizing mark with
  | nil => rfl
  | cons card l ih => rw [fillCardsMarkLoc, List.foldl_cons, ← fillCardsMarkLoc, ih, List.length_set]

theorem fillCardsMarkLoc_append (mark l l' : List ℕ) :
    fillCardsMarkLoc (fillCardsMarkLoc mark l) l' = fillCardsMarkLoc mark (l ++ l') := (List.foldl_append).symm

/-- A place without a card keeps its mark. -/
theorem fillCardsMarkLoc_of_forall_ne (other : ∀ card ∈ l, getCardValue card - 1 ≠ i) :
    (fillCardsMarkLoc mark l).getD i 0 = mark.getD i 0 := by
  induction l generalizing mark with
  | nil => rfl
  | cons card l ih =>
    obtain ⟨this, later⟩ := List.forall_mem_cons.mp other
    rw [fillCardsMarkLoc, List.foldl_cons, ← fillCardsMarkLoc, ih later, List.getD_eq_getElem?_getD,
      List.getElem?_set_ne this, ← List.getD_eq_getElem?_getD]

/-- A place with a card is marked by one of its cards. -/
theorem fillCardsMarkLoc_of_mem (mark : List ℕ) (inside : i < mark.length) {card : ℕ} (there : card ∈ l)
    (place : getCardValue card - 1 = i) :
    ∃ card' ∈ l, getCardValue card' - 1 = i ∧ (fillCardsMarkLoc mark l).getD i 0 = card' := by
  induction l generalizing mark card with
  | nil => exact absurd there List.not_mem_nil
  | cons first l ih =>
    rw [fillCardsMarkLoc, List.foldl_cons, ← fillCardsMarkLoc]
    rcases Classical.em (∃ card ∈ l, getCardValue card - 1 = i) with ⟨card', later, place'⟩ | none_
    · obtain ⟨card', later, place', eq⟩ := ih (mark.set (getCardValue first - 1) first)
        (by rwa [List.length_set]) later place'
      exact ⟨card', List.mem_cons_of_mem first later, place', eq⟩
    · push Not at none_
      rcases List.mem_cons.mp there with rfl | there
      · refine ⟨card, List.mem_cons_self, place, ?_⟩
        rw [fillCardsMarkLoc_of_forall_ne none_, ← place, List.getD_eq_getElem?_getD, List.getElem?_set_self (by omega),
          Option.getD_some]
      · exact absurd place (none_ card there)

theorem getD_emptyMark : emptyMark.getD i 0 = 0 := by
  rw [emptyMark, List.getD_eq_getElem?_getD, List.getElem?_replicate]
  split_ifs <;> rfl

/-- A mark is a card of that place. -/
theorem mem_of_mark (marked : (fillCardsMarkLoc emptyMark l).getD i 0 ≠ 0) :
    (fillCardsMarkLoc emptyMark l).getD i 0 ∈ l
      ∧ getCardValue ((fillCardsMarkLoc emptyMark l).getD i 0) - 1 = i := by
  rcases Classical.em (∃ card ∈ l, getCardValue card - 1 = i) with ⟨card, there, place⟩ | none_
  · have inside : i < emptyMark.length := by
      by_contra outside
      rw [List.getD_eq_getElem?_getD, List.getElem?_eq_none (by rw [length_fillCardsMarkLoc]; omega)] at marked
      exact marked rfl
    obtain ⟨card', there', place', eq⟩ := fillCardsMarkLoc_of_mem emptyMark inside there place
    rw [eq]
    exact ⟨there', place'⟩
  · push Not at none_
    exact absurd ((fillCardsMarkLoc_of_forall_ne none_).trans getD_emptyMark) marked

/-- The marks of a dun are its cards, one of every value. -/
structure Marks (cards mark : List ℕ) : Prop where
  places : mark.length = 14
  card : ∀ i, mark.getD i 0 ≠ 0 → mark.getD i 0 ∈ cards ∧ getCardValue (mark.getD i 0) = i + 1
  value : ∀ x ∈ cards, mark.getD (getCardValue x - 1) 0 ≠ 0

theorem marks_fill (deck : ∀ card ∈ cards, card ∈ cardListData) (inside : ∀ card ∈ l, card ∈ cards)
    (covered : ∀ card ∈ cards, ∃ card' ∈ l, getCardValue card' = getCardValue card) :
    Marks cards (fillCardsMarkLoc emptyMark l) := by
  refine ⟨by rw [length_fillCardsMarkLoc]; rfl, fun i marked => ?_, fun x there => ?_⟩
  · obtain ⟨there, place⟩ := mem_of_mark marked
    have := value_of_mem (deck _ (inside _ there))
    exact ⟨inside _ there, by omega⟩
  · obtain ⟨card, there, same⟩ := covered x there
    have bound := value_of_mem (deck card (inside card there))
    obtain ⟨card', there', place', eq⟩ := fillCardsMarkLoc_of_mem emptyMark
      (by rw [emptyMark, List.length_replicate]; omega) there (congrArg (· - 1) same)
    rw [eq]
    rintro rfl
    have := value_of_mem (deck _ (inside _ there'))
    have : getCardValue 0 = 0 := rfl
    omega

namespace Marks

variable (marks : Marks cards mark)

include marks

theorem mark_iff :
    mark.getD i 0 ≠ 0 ↔ ∃ x ∈ cards, getCardValue x = i + 1 := by
  constructor
  · exact fun marked => ⟨_, marks.card i marked⟩
  · rintro ⟨x, there, value⟩
    have := marks.value x there
    rwa [value, Nat.add_sub_cancel] at this

theorem getCardValue_eq_iff :
    getCardValue (mark.getD i 0) = i + 1 ↔ mark.getD i 0 ≠ 0 := by
  constructor
  · intro value zero
    rw [zero] at value
    exact absurd value (by rw [show getCardValue 0 = 0 from rfl]; omega)
  · exact fun marked => (marks.card i marked).2

end Marks

end Marks

/-! ## Straights -/

section Straights

variable {mark : List ℕ} {i : ℕ}

/-- The marks of `n` places from `i` on. -/
def window (mark : List ℕ) (i n : ℕ) : List ℕ := (List.range n).map fun k => mark.getD (i + k) 0

theorem window_zero (mark : List ℕ) (inside : n ≤ mark.length) : window mark 0 n = mark.take n := by
  refine List.ext_getElem ?_ fun k here there => ?_
  · rw [window, List.length_map, List.length_range, List.length_take, min_eq_left inside]
  · rw [List.length_take] at there
    simp only [window, List.getElem_map, List.getElem_range, List.getElem_take, Nat.zero_add]
    rw [List.getD_eq_getElem?_getD, List.getElem?_eq_getElem (by omega), Option.getD_some]

theorem window_succ (card : ℕ) (mark : List ℕ) (i n : ℕ) : window (card :: mark) (i + 1) n = window mark i n := by
  refine List.map_congr_left fun k _ => ?_
  rw [Nat.add_right_comm, List.getD_cons_succ]

theorem mem_enumConsecCardsMarkLoc (positive : 0 < n) {run : List ℕ} :
    run ∈ enumConsecCardsMarkLoc n mark ↔ ∃ i, i + n ≤ mark.length ∧ 0 ∉ window mark i n ∧ window mark i n = run := by
  induction mark with
  | nil =>
    rw [enumConsecCardsMarkLoc]
    refine iff_of_false List.not_mem_nil fun ⟨i, bound, _⟩ => ?_
    rw [List.length_nil] at bound
    omega
  | cons card mark ih =>
    have later : run ∈ enumConsecCardsMarkLoc n mark ↔
        ∃ i, i + 1 + n ≤ mark.length + 1 ∧ 0 ∉ window (card :: mark) (i + 1) n ∧ window (card :: mark) (i + 1) n = run := by
      rw [ih]
      refine exists_congr fun i => ?_
      rw [window_succ]
      exact and_congr_left fun _ => by omega
    have first (inside : n ≤ mark.length + 1) : window (card :: mark) 0 n = (card :: mark).take n := window_zero _ inside
    rw [enumConsecCardsMarkLoc, List.length_cons]
    split_ifs with here
    · rw [List.mem_cons, later, ← first here.1]
      rw [← first here.1] at here
      constructor
      · rintro (rfl | ⟨i, found⟩)
        · exact ⟨0, by omega, here.2, rfl⟩
        · exact ⟨i + 1, found⟩
      · rintro ⟨i, bound, full, rfl⟩
        cases i with
        | zero => exact .inl rfl
        | succ i => exact .inr ⟨i, bound, full, rfl⟩
    · rw [later]
      constructor
      · rintro ⟨i, found⟩
        exact ⟨i + 1, found⟩
      · rintro ⟨i, bound, full, rfl⟩
        cases i with
        | zero =>
          rw [Nat.zero_add] at bound
          exact absurd ⟨bound, first bound ▸ full⟩ here
        | succ i => exact ⟨i, bound, full, rfl⟩

/-- `n` places that rise by a key are all the cards. -/
theorem perm_of_window (mark : List ℕ) (i : ℕ) (key : ℕ → ℕ) (length : cards.length = n)
    (risen : ∀ k < n, mark.getD (i + k) 0 ∈ cards ∧ key (mark.getD (i + k) 0) = i + 1 + k) :
    cards.Perm (window mark i n) ∧ (cards.map key).Perm (List.range' (i + 1) n) := by
  have keys : (window mark i n).map key = List.range' (i + 1) n := by
    rw [window, List.map_map, List.range'_eq_map_range]
    exact List.map_congr_left fun k there => (risen k (List.mem_range.mp there)).2
  have nodup : (window mark i n).Nodup := List.Nodup.of_map key (keys ▸ List.nodup_range')
  have perm : cards.Perm (window mark i n) := by
    refine perm_of_forall_mem nodup (fun card there => ?_) ?_
    · obtain ⟨k, inside, rfl⟩ := List.mem_map.mp there
      exact (risen k (List.mem_range.mp inside)).1
    · rw [length, window, List.length_map, List.length_range]
  exact ⟨perm, keys ▸ perm.map key⟩

theorem Straight.nodup (straight : Straight cards) :
    (cards.map getCardValue).Nodup := by
  obtain ⟨low, values | points⟩ := straight
  · exact values.nodup_iff.mpr List.nodup_range'
  · have different := points.nodup_iff.mpr List.nodup_range'
    rw [List.Nodup, List.pairwise_map] at different ⊢
    exact different.imp fun {x y} differ same => differ (by rw [getCardPoint, getCardPoint, same])

section Ace

variable (deck : ∀ card ∈ cards, card ∈ cardListData) {c : Classify}
  (marks : Marks cards (fillCardsMarkLoc (fillCardsMarkLoc emptyMark c.cpy) (c.groups.map (·.headD 0))))

include deck marks

/-- The places up to the king are the marks of the dun, and that behind the king is the ace's where all places of
the last straight have cards. -/
theorem consecMark_spec (two : 2 ≤ n) (thirteen : n ≤ 13) :
    let mark := fillCardsMarkLoc (fillCardsMarkLoc emptyMark c.cpy) (c.groups.map (·.headD 0))
    let top := mark.getD 0 0 ≠ 0 ∧ ∀ i, 14 - n ≤ i → i ≤ 12 → mark.getD i 0 ≠ 0
    (consecMark c n).length = 14 ∧ (∀ i < 13, (consecMark c n).getD i 0 = mark.getD i 0)
      ∧ (top → (consecMark c n).getD 13 0 = mark.getD 0 0) ∧ ((consecMark c n).getD 13 0 ≠ 0 → top) := by
  intro mark top
  have last : mark.getD 13 0 = 0 := by
    by_contra marked
    obtain ⟨there, value⟩ := marks.card 13 marked
    have := value_of_mem (deck _ there)
    omega
  have same : (getCardValue (mark.getD 0 0) = 1 ∧ getCardValue (mark.getD 12 0) = 13
      ∧ (List.range' (14 - n) (n - 2)).all fun i => mark.getD i 0 != 0) ↔ top := by
    rw [marks.getCardValue_eq_iff (i := 0), marks.getCardValue_eq_iff (i := 12), List.all_eq_true]
    refine and_congr_right fun _ => ?_
    constructor
    · rintro ⟨king, others⟩ i low high
      rcases eq_or_lt_of_le high with rfl | high
      · exact king
      · simpa using others i (List.mem_range'_1.mpr (by omega))
    · intro all
      refine ⟨all 12 (by omega) le_rfl, fun i inside => ?_⟩
      rw [List.mem_range'_1] at inside
      simpa using all i (by omega) (by omega)
  have cases_ : consecMark c n = if top then mark.set 13 (mark.getD 0 0) else mark := by
    rw [consecMark]
    exact if_congr same rfl rfl
  rw [cases_]
  split_ifs with here
  · refine ⟨by rw [List.length_set, marks.places], fun i inside => ?_, fun _ => ?_, fun _ => here⟩
    · rw [List.getD_eq_getElem?_getD, List.getElem?_set_ne inside.ne', ← List.getD_eq_getElem?_getD]
    · rw [List.getD_eq_getElem?_getD, List.getElem?_set_self (by rw [marks.places]; norm_num), Option.getD_some]
  · exact ⟨marks.places, fun i _ => rfl, fun top => absurd top here, fun marked => absurd last marked⟩

/-- The runs of a dun are straights of all its cards. -/
theorem straight_of_mem {run : List ℕ} (length : cards.length = n) (two : 2 ≤ n) (thirteen : n ≤ 13)
    (found : run ∈ enumConsecCardsMarkLoc n (consecMark c n)) : cards.Perm run ∧ Straight cards := by
  obtain ⟨places, same, ace, top⟩ := consecMark_spec deck marks two thirteen
  obtain ⟨i, bound, full, rfl⟩ := (mem_enumConsecCardsMarkLoc (by omega)).mp found
  rw [places] at bound
  have marked (k : ℕ) (inside : k < n) : (consecMark c n).getD (i + k) 0 ≠ 0 := fun zero =>
    full (List.mem_map.mpr ⟨k, List.mem_range.mpr inside, zero⟩)
  have low (k : ℕ) (inside : k < n) (before : i + k < 13) : (consecMark c n).getD (i + k) 0 ∈ cards
      ∧ getCardValue ((consecMark c n).getD (i + k) 0) = i + 1 + k := by
    have here := marked k inside
    rw [same _ before] at here ⊢
    obtain ⟨there, value⟩ := marks.card _ here
    exact ⟨there, by omega⟩
  rcases Nat.lt_or_ge 13 (i + n) with over_ | under
  · -- The last place is that behind the king.
    obtain ⟨perm, points⟩ := perm_of_window (consecMark c n) i getCardPoint length <| by
      intro k inside
      rcases Nat.lt_or_ge (i + k) 13 with before | behind
      · obtain ⟨there, value⟩ := low k inside before
        refine ⟨there, ?_⟩
        rw [getCardPoint, value, if_neg (by omega)]
      · have king : i + k = 13 := by omega
        have here := marked k inside
        rw [king] at here ⊢
        have first := ace (top here)
        rw [first] at here ⊢
        obtain ⟨there, value⟩ := marks.card _ here
        refine ⟨there, ?_⟩
        rw [getCardPoint, if_pos value]
        omega
    exact ⟨perm, i + 1, .inr (length ▸ points)⟩
  · obtain ⟨perm, values⟩ := perm_of_window (consecMark c n) i getCardValue length fun k inside => low k inside (by omega)
    exact ⟨perm, i + 1, .inl (length ▸ values)⟩

/-- The places of a straight are found. -/
theorem exists_run (length : cards.length = n) (two : 2 ≤ n) (thirteen : n ≤ 13) (straight : Straight cards) :
    ∃ run, run ∈ enumConsecCardsMarkLoc n (consecMark c n) := by
  obtain ⟨places, same, ace, top⟩ := consecMark_spec deck marks two thirteen
  obtain ⟨low, run⟩ := straight
  rw [length] at run
  have of_values (values : ∀ k < n, ∃ x ∈ cards, getCardValue x = low + k) :
      ∃ run, run ∈ enumConsecCardsMarkLoc n (consecMark c n) := by
    obtain ⟨x, there, first⟩ := values 0 (by omega)
    obtain ⟨y, there', final⟩ := values (n - 1) (by omega)
    have := value_of_mem (deck x there)
    have := value_of_mem (deck y there')
    refine ⟨_, (mem_enumConsecCardsMarkLoc (by omega)).mpr ⟨low - 1, by omega, fun zero => ?_, rfl⟩⟩
    obtain ⟨k, inside, zero⟩ := List.mem_map.mp zero
    have inside := List.mem_range.mp inside
    obtain ⟨x, there, value⟩ := values k inside
    rw [same _ (by omega)] at zero
    exact marks.mark_iff.mpr ⟨x, there, by omega⟩ zero
  rcases run with values | points
  · refine of_values fun k inside => List.mem_map.mp (values.mem_iff.mpr (List.mem_range'_1.mpr ?_))
    omega
  · have points (k : ℕ) (inside : k < n) : ∃ x ∈ cards, getCardPoint x = low + k :=
      List.mem_map.mp (points.mem_iff.mpr (List.mem_range'_1.mpr (by omega)))
    have value_of_point {x k : ℕ} (there : x ∈ cards) (point : getCardPoint x = k) :
        if k = 14 then getCardValue x = 1 else getCardValue x = k ∧ 2 ≤ k ∧ k ≤ 13 := by
      have := value_of_mem (deck x there)
      rw [getCardPoint] at point
      split_ifs at point ⊢ <;> omega
    rcases eq_or_ne (low + n) 15 with high | other
    · have below (i : ℕ) (from_ : 14 - n ≤ i) (to_ : i ≤ 12) :
          (fillCardsMarkLoc (fillCardsMarkLoc emptyMark c.cpy) (c.groups.map (·.headD 0))).getD i 0 ≠ 0 := by
        obtain ⟨x, there, point⟩ := points (i + 1 - low) (by omega)
        have value := value_of_point there point
        rw [if_neg (by omega)] at value
        exact marks.mark_iff.mpr ⟨x, there, by omega⟩
      have first : (fillCardsMarkLoc (fillCardsMarkLoc emptyMark c.cpy) (c.groups.map (·.headD 0))).getD 0 0 ≠ 0 := by
        obtain ⟨x, there, point⟩ := points (n - 1) (by omega)
        have value := value_of_point there point
        rw [if_pos (by omega)] at value
        exact marks.mark_iff.mpr ⟨x, there, value⟩
      refine ⟨_, (mem_enumConsecCardsMarkLoc (by omega)).mpr ⟨14 - n, by omega, fun zero => ?_, rfl⟩⟩
      obtain ⟨k, inside, zero⟩ := List.mem_map.mp zero
      have inside := List.mem_range.mp inside
      rcases Nat.lt_or_ge (14 - n + k) 13 with before | behind
      · rw [same _ before] at zero
        exact below _ (by omega) (by omega) zero
      · rw [show 14 - n + k = 13 by omega, ace ⟨first, below⟩] at zero
        exact first zero
    · refine of_values fun k inside => ?_
      obtain ⟨x, there, point⟩ := points k inside
      obtain ⟨y, there', final⟩ := points (n - 1) (by omega)
      have value := value_of_point there point
      have value' := value_of_point there' final
      refine ⟨x, there, ?_⟩
      split_ifs at value value' <;> omega

end Ace

variable (nodup : cards.Nodup) (deck : ∀ card ∈ cards, card ∈ cardListData)

include nodup deck

theorem marks_dun :
    Marks cards (fillCardsMarkLoc (fillCardsMarkLoc emptyMark (removeRepeatCards (sortCards cards)).cpy)
      ((removeRepeatCards (sortCards cards)).groups.map (·.headD 0))) := by
  rw [fillCardsMarkLoc_append]
  obtain ⟨inside, covered⟩ := marked_cards nodup deck
  exact marks_fill deck inside covered

/-- The straights found are the dun itself. -/
theorem enumConsecCards_dun (length : cards.length = n) (two : 2 ≤ n) (thirteen : n ≤ 13) :
    (∀ run ∈ enumConsecCards (removeRepeatCards (sortCards cards)) n, cards.Perm run ∧ Straight cards)
      ∧ (Straight cards → ∃ run, run ∈ enumConsecCards (removeRepeatCards (sortCards cards)) n) := by
  have marks := marks_dun nodup deck
  have alone (straight : Straight cards) (run : List ℕ) :
      consecChoices (removeRepeatCards (sortCards cards)).groups run = [run] := by
    rw [removeRepeatCards_of_nodup nodup deck straight.nodup, consecChoices]
    exact if_pos (List.filterMap_eq_nil_iff.mpr fun _ _ => rfl)
  constructor
  · intro run found
    obtain ⟨run', found', chosen⟩ := List.mem_flatMap.mp found
    obtain ⟨perm, straight⟩ := straight_of_mem deck marks length two thirteen found'
    rw [alone straight, List.mem_singleton] at chosen
    exact ⟨chosen ▸ perm, straight⟩
  · intro straight
    obtain ⟨run, found⟩ := exists_run deck marks length two thirteen straight
    exact ⟨run, List.mem_flatMap.mpr ⟨run, found, alone straight run ▸ List.mem_singleton_self run⟩⟩

end Straights

/-! ## Flushes -/

section Flushes

theorem staC_self (n : ℕ) : staC (n + 1) (n + 1) = [(List.range (n + 1)).reverse] := by
  induction n with
  | zero => rfl
  | succ n ih =>
    rw [staC, Nat.add_sub_cancel_left, List.range'_one, List.reverse_singleton, List.flatMap_singleton,
      if_neg n.succ_ne_zero, Nat.add_sub_cancel, ih, List.map_singleton, List.range_succ (n := n + 1),
      List.reverse_append, List.reverse_singleton, List.singleton_append]

/-- The places of a colour, as `enumSameColorCards` has them. -/
def colorPlaces (mark : List ℕ) (color : ℕ) : List ℕ :=
  (List.range 14).filter fun i => getCardColor (mark.getD i 0) == color

theorem colorPlaces_sorted (mark : List ℕ) (color : ℕ) : (colorPlaces mark color).Pairwise (· < ·) :=
  List.Pairwise.filter _ List.pairwise_lt_range

theorem mem_colorPlaces {mark : List ℕ} {color i : ℕ} :
    i ∈ colorPlaces mark color ↔ i < 14 ∧ getCardColor (mark.getD i 0) = color := by
  rw [colorPlaces, List.mem_filter, List.mem_range, beq_iff_eq]

/-- As many places of one colour as there are cards hold all of them. -/
theorem oneColor_of_places (mark : List ℕ) {color : ℕ} (some_ : color ≠ 0)
    (card : ∀ i, mark.getD i 0 ≠ 0 → mark.getD i 0 ∈ cards ∧ getCardValue (mark.getD i 0) - 1 = i)
    (many : cards.length ≤ (colorPlaces mark color).length) : OneColor cards := by
  have here : ∀ i ∈ colorPlaces mark color, mark.getD i 0 ∈ cards ∧ getCardValue (mark.getD i 0) - 1 = i := by
    intro i there
    refine card i fun zero => some_ ?_
    rw [← (mem_colorPlaces.mp there).2, zero]
    rfl
  have nodup : ((colorPlaces mark color).map (mark.getD · 0)).Nodup := by
    refine List.Nodup.map_on (fun i inside j inside' same => ?_) ((colorPlaces_sorted mark color).imp ne_of_lt)
    rw [← (here i inside).2, ← (here j inside').2, same]
  have perm : cards.Perm ((colorPlaces mark color).map (mark.getD · 0)) := by
    refine perm_of_forall_mem nodup (fun x there => ?_) (by rwa [List.length_map])
    obtain ⟨i, inside, rfl⟩ := List.mem_map.mp there
    exact (here i inside).1
  have all : ∀ x ∈ cards, getCardColor x = color := by
    intro x there
    obtain ⟨i, inside, rfl⟩ := List.mem_map.mp (perm.mem_iff.mp there)
    exact (mem_colorPlaces.mp inside).2
  exact fun x there y there' => (all x there).trans (all y there').symm

/-- Places taken for a straight are one. -/
theorem straight_of_consecPlaces (deck : ∀ card ∈ cards, card ∈ cardListData) {mark places : List ℕ}
    (three : 3 ≤ cards.length) (thirteen : cards.length ≤ 13) (sorted : places.Pairwise (· < ·))
    (perm : (cards.map (getCardValue · - 1)).Perm places) (value : ∀ i ∈ places, getCardValue (mark.getD i 0) = i + 1)
    (consec : consecPlaces mark cards.length places.reverse = true) : Straight cards := by
  have length : places.length = cards.length := by rw [← perm.length_eq, List.length_map]
  obtain ⟨a, b, init, z, rfl⟩ : ∃ a b init z, places = a :: b :: (init ++ [z]) := by
    match places, length with
    | a :: b :: c :: rest, _ =>
      obtain ⟨init, z, eq⟩ := List.eq_nil_or_concat (c :: rest) |>.resolve_left (List.cons_ne_nil _ _)
      exact ⟨a, b, init, z, by rw [eq, List.concat_eq_append]⟩
    | [], length | [_], length | [_, _], length => simp at length; omega
  have size : init.length + 3 = cards.length := by
    rw [← length]
    simp
  obtain ⟨first, rest⟩ := List.pairwise_cons.mp sorted
  obtain ⟨second, last⟩ := List.pairwise_cons.mp rest
  have final : ∀ i ∈ init, i < z := fun i there =>
    (List.pairwise_append.mp last).2.2 i there z (List.mem_singleton_self z)
  have ab := first b List.mem_cons_self
  have bz := second z (List.mem_append_right _ (List.mem_singleton_self z))
  have upTo : ∀ i ∈ b :: (init ++ [z]), b ≤ i ∧ i ≤ z := by
    intro i there
    rcases List.mem_cons.mp there with rfl | later
    · exact ⟨le_rfl, bz.le⟩
    · refine ⟨(second i later).le, ?_⟩
      rcases List.mem_append.mp later with inside | same
      · exact (final i inside).le
      · exact (List.mem_singleton.mp same).le
  have ends : (a :: b :: (init ++ [z])).reverse = z :: (init.reverse ++ [b, a]) := by simp
  have before : (z :: (init.reverse ++ [b, a])).getD ((z :: (init.reverse ++ [b, a])).length - 2) 0 = b := by simp
  have back : (z :: (init.reverse ++ [b, a])).getLastD 0 = a := by
    rw [List.getLastD_cons]
    simp
  have ofPlaces {f : ℕ → ℕ} (g : ℕ → ℕ) (same : ∀ x ∈ cards, f x = g (getCardValue x - 1)) :
      (cards.map f).Perm ((a :: b :: (init ++ [z])).map g) := by
    rw [List.map_congr_left same, ← Function.comp_def g, ← List.map_map]
    exact perm.map g
  rw [consecPlaces, ends, before, back, List.headD_cons, Bool.or_eq_true, Bool.and_eq_true, Bool.and_eq_true, beq_iff_eq,
    beq_iff_eq, beq_iff_eq, beq_iff_eq] at consec
  have values : ∀ x ∈ cards, 1 ≤ getCardValue x := fun x there => (value_of_mem (deck x there)).1
  rcases consec with near | ⟨⟨ace, king⟩, near⟩
  · have eq : a :: b :: (init ++ [z]) = List.range' a cards.length := by
      rw [← length]
      refine eq_range'_of_sorted sorted fun i there => ?_
      rcases List.mem_cons.mp there with rfl | there
      · omega
      · have := upTo i there
        omega
    refine ⟨1 + a, .inl ((ofPlaces (1 + ·) fun x there => ?_).trans (.of_eq ?_))⟩
    · have := values x there
      omega
    · rw [eq, List.map_add_range']
  · rw [value a List.mem_cons_self] at ace
    rw [value z (by simp)] at king
    have eq : b :: (init ++ [z]) = List.range' b (cards.length - 1) := by
      rw [← length, List.length_cons, Nat.add_sub_cancel]
      refine eq_range'_of_sorted rest fun i there => ?_
      have := upTo i there
      simp only [List.length_cons, List.length_append, List.length_nil]
      omega
    refine ⟨1 + b, .inr ((ofPlaces (fun i => if i = 0 then 14 else 1 + i) fun x there => ?_).trans ?_)⟩
    · have := values x there
      rw [getCardPoint]
      split_ifs <;> omega
    · have risen : (List.range' b (cards.length - 1)).map (fun i => if i = 0 then 14 else 1 + i) =
          List.range' (1 + b) (cards.length - 1) := by
        rw [← List.map_add_range']
        refine List.map_congr_left fun i there => if_neg ?_
        have := (List.mem_range'_1.mp there).1
        omega
      obtain ⟨m, size'⟩ : ∃ m, cards.length = m + 1 := ⟨cards.length - 1, by omega⟩
      rw [List.map_cons, eq, risen, if_pos (by omega), size', Nat.add_sub_cancel, List.range'_1_concat,
        show 1 + b + m = 14 by omega]
      exact (List.perm_append_singleton 14 _).symm

variable (nodup : cards.Nodup) (deck : ∀ card ∈ cards, card ∈ cardListData)

include nodup deck

/-- Flushes are found in duns of one colour, and in all of these that are no straights. -/
theorem enumSameColorCards_dun (length : cards.length = n) (three : 3 ≤ n) (thirteen : n ≤ 13) :
    (enumSameColorCards (removeRepeatCards (sortCards cards)) n ≠ [] → OneColor cards)
      ∧ (OneColor cards → ¬Straight cards → enumSameColorCards (removeRepeatCards (sortCards cards)) n ≠ []) := by
  constructor
  · intro found
    obtain ⟨flush, found⟩ := List.exists_mem_of_ne_nil _ found
    obtain ⟨color, known, found⟩ := List.mem_flatMap.mp found
    dsimp only at found
    split_ifs at found with many
    · refine oneColor_of_places (colorMark (removeRepeatCards (sortCards cards)) color) ?_ (fun i marked => ?_)
        (length ▸ many)
      · rintro rfl
        exact absurd known (by decide)
      · rw [colorMark, fillCardsMarkLoc_append] at marked ⊢
        obtain ⟨there, place⟩ := mem_of_mark marked
        refine ⟨?_, place⟩
        rcases List.mem_append.mp there with there | there
        · exact mem_of_mem_cpy nodup deck there
        · obtain ⟨g, here, found⟩ := List.mem_filterMap.mp there
          exact subset_of_mem_groups nodup deck here _ (List.mem_of_find?_eq_some found)
    · exact absurd found List.not_mem_nil
  · intro color none_
    have different := color.nodup nodup deck
    obtain ⟨x₀, first⟩ := List.exists_mem_of_length_pos (show 0 < cards.length by omega)
    rw [removeRepeatCards_of_nodup nodup deck different]
    set mark := fillCardsMarkLoc emptyMark (sortCards cards) with mark_eq
    have marks : Marks cards mark :=
      marks_fill deck (fun x there => (sortCards_perm cards).mem_iff.mp there)
        fun x there => ⟨x, (sortCards_perm cards).mem_iff.mpr there, rfl⟩
    have known := color_of_mem (deck x₀ first)
    have card : ∀ i ∈ colorPlaces mark (getCardColor x₀), mark.getD i 0 ≠ 0 := by
      intro i inside zero
      have here := (mem_colorPlaces.mp inside).2
      rw [zero] at here
      rw [← here] at known
      exact absurd known (by decide)
    have perm : (cards.map (getCardValue · - 1)).Perm (colorPlaces mark (getCardColor x₀)) := by
      have apart : (cards.map (getCardValue · - 1)).Nodup := by
        refine List.Nodup.map_on (fun x there y there' same => ?_) nodup
        have := value_of_mem (deck x there)
        have := value_of_mem (deck y there')
        exact List.inj_on_of_nodup_map different there there' (by omega)
      refine (List.perm_ext_iff_of_nodup apart ((colorPlaces_sorted mark _).imp ne_of_lt)).mpr fun i => ?_
      rw [List.mem_map]
      constructor
      · rintro ⟨x, there, rfl⟩
        have := value_of_mem (deck x there)
        exact mem_colorPlaces.mpr ⟨by omega, color _ (marks.card _ (marks.value x there)).1 x₀ first⟩
      · intro inside
        obtain ⟨there, value⟩ := marks.card i (card i inside)
        exact ⟨_, there, by omega⟩
    have size : (colorPlaces mark (getCardColor x₀)).length = n := by rw [← perm.length_eq, List.length_map, length]
    have whole : (List.range n).reverse.map ((colorPlaces mark (getCardColor x₀)).getD · 0) =
        (colorPlaces mark (getCardColor x₀)).reverse := by
      rw [List.map_reverse]
      refine congrArg List.reverse ?_
      have := window_zero (colorPlaces mark (getCardColor x₀)) size.ge
      rw [window, List.take_of_length_le size.le] at this
      simpa using this
    obtain ⟨m, rfl⟩ : ∃ m, n = m + 1 := ⟨n - 1, by omega⟩
    have found : (colorPlaces mark (getCardColor x₀)).reverse.reverse.map (mark.getD · 0)
        ∈ enumSameColorCards ⟨[], [], [], sortCards cards⟩ (m + 1) := by
      refine List.mem_flatMap.mpr ⟨getCardColor x₀, known, ?_⟩
      show _ ∈ if m + 1 ≤ (colorPlaces mark (getCardColor x₀)).length then _ else _
      rw [if_pos size.ge]
      refine List.mem_filterMap.mpr ⟨(colorPlaces mark (getCardColor x₀)).reverse, List.mem_map.mpr ⟨_, ?_, whole⟩,
        if_neg ?_⟩
      · show _ ∈ staC (colorPlaces mark (getCardColor x₀)).length (m + 1)
        rw [size, staC_self]
        exact List.mem_singleton_self _
      · intro consec
        rw [← length] at three thirteen consec
        exact none_ (straight_of_consecPlaces deck three thirteen (colorPlaces_sorted mark _) perm
          (fun i inside => (marks.card i (card i inside)).2) consec)
    exact List.ne_nil_of_mem found

end Flushes

end H5Server.S13s
