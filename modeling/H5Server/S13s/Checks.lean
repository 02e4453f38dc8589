import H5Server.S13s.Choices

/-! # The checks on thirteen cards

A dun that passes them has cards of the hand and none twice, and an arrangement of the whole hand
passes them.
-/

namespace H5Server.S13s

/-- `s_CardListData` -/
def cardListData : List ℕ :=
  [0x11, 0x12, 0x13, 0x14, 0x15, 0x16, 0x17, 0x18, 0x19, 0x1A, 0x1B, 0x1C, 0x1D,
    0x21, 0x22, 0x23, 0x24, 0x25, 0x26, 0x27, 0x28, 0x29, 0x2A, 0x2B, 0x2C, 0x2D,
    0x31, 0x32, 0x33, 0x34, 0x35, 0x36, 0x37, 0x38, 0x39, 0x3A, 0x3B, 0x3C, 0x3D,
    0x41, 0x42, 0x43, 0x44, 0x45, 0x46, 0x47, 0x48, 0x49, 0x4A, 0x4B, 0x4C, 0x4D]

/-- Thirteen cards of one deck. -/
structure IsHand (hand : List ℕ) : Prop where
  thirteen : hand.length = 13
  nodup : hand.Nodup
  cards : ∀ card ∈ hand, card ∈ cardListData

/-! ## The checks -/

theorem isValid_of_mem {card : ℕ} (present : card ∈ cardListData) :
    card ≠ 0 ∧ cardColorIndex card < 4 ∧ getCardValue card ≤ 0x0D := by
  have all : ∀ card ∈ cardListData, card ≠ 0 ∧ cardColorIndex card < 4 ∧ getCardValue card ≤ 0x0D := by
    decide +kernel
  exact all card present

theorem card_ext {card card' : ℕ} (present : card ∈ cardListData) (present' : card' ∈ cardListData)
    (same : (cardColorIndex card, getCardValue card) = (cardColorIndex card', getCardValue card')) :
    card = card' := by
  have all : ∀ card ∈ cardListData, ∀ card' ∈ cardListData,
      (cardColorIndex card, getCardValue card) = (cardColorIndex card', getCardValue card') → card = card' := by
    decide +kernel
  exact all card present card' present' same

theorem noRepeats_iff {cards : List ℕ} (deck : ∀ card ∈ cards, card ∈ cardListData) (seen : List (ℕ × ℕ)) :
    noRepeats cards seen ↔
      cards.Nodup ∧ ∀ card ∈ cards, (cardColorIndex card, getCardValue card) ∉ seen := by
  induction cards generalizing seen with
  | nil => simp [noRepeats]
  | cons card rest ih =>
    obtain ⟨nonzero, color, _⟩ := isValid_of_mem (deck card List.mem_cons_self)
    rw [noRepeats, if_neg nonzero, if_pos color]
    have later := ih fun c present => deck c (List.mem_cons_of_mem _ present)
    split_ifs with repeated
    · simp only [false_iff, not_and]
      intro _ fresh
      exact fresh card List.mem_cons_self repeated
    · rw [later, List.nodup_cons, List.forall_mem_cons]
      constructor
      · rintro ⟨nodup, fresh⟩
        refine ⟨⟨fun present => fresh card present List.mem_cons_self, nodup⟩, repeated, fun c present old => ?_⟩
        exact fresh c present (List.mem_cons_of_mem _ old)
      · rintro ⟨⟨absent, nodup⟩, _, fresh⟩
        refine ⟨nodup, fun c present old => ?_⟩
        rcases List.mem_cons.mp old with same | old
        · have eq := card_ext (deck c (List.mem_cons_of_mem _ present)) (deck card List.mem_cons_self) same
          exact absent (eq ▸ present)
        · exact fresh c present old

/-- The cards of a checked dun are in the hand, each once. -/
theorem laid_of_acceptsDun {t : Table} {chairId : ℕ} {dt : DunTy} {cards : List ℕ} {ty : HandTy}
    (deal : IsHand (t.handCards chairId)) (accepted : t.acceptsDun chairId dt cards) (some_ : 0 < cards.length) :
    Dun.Laid (t.handCards chairId) dt ⟨ty, sortCards cards⟩ := by
  simp only [Table.acceptsDun, bCheckCard, Bool.and_eq_true, Bool.or_eq_true, beq_iff_eq, decide_eq_true_eq,
    List.all_eq_true, List.contains_iff_mem] at accepted
  obtain ⟨⟨⟨size, _⟩, _⟩, ⟨_, held⟩, once⟩ := accepted
  have sorted : (sortCards cards).Perm cards := List.perm_insertionSort _ _
  have nodup := ((noRepeats_iff (fun card present => deal.cards card (held card present)) []).mp once).1
  refine ⟨?_, fun card present => held card (sorted.mem_iff.mp present), sorted.nodup_iff.mpr nodup⟩
  rcases size with none | size
  · omega
  · exact sorted.length_eq.trans size

/-- An arrangement of the hand passes the checks. -/
theorem GroupDun.Valid.checks {rules : CardRules} {hand : List ℕ} {g : GroupDun} (valid : g.Valid rules hand)
    (deal : IsHand hand) : bCheckCardIsValid g.cards ∧ bCheckCard hand g.cards := by
  have held : ∀ card ∈ g.cards, card ∈ hand := fun card => valid.uses.mem_iff.mp
  have deck : ∀ card ∈ g.cards, card ∈ cardListData := fun card present => deal.cards card (held card present)
  have nodup : g.cards.Nodup := valid.uses.nodup_iff.mpr deal.nodup
  have once := (noRepeats_iff deck []).mpr ⟨nodup, fun _ _ => List.not_mem_nil⟩
  simp only [bCheckCardIsValid, bCheckCard, Bool.and_eq_true, decide_eq_true_eq, List.all_eq_true,
    List.contains_iff_mem, bne_iff_ne]
  refine ⟨fun card present => ?_, ⟨?_, held⟩, once⟩
  · obtain ⟨nonzero, color, value⟩ := isValid_of_mem (deck card present)
    exact ⟨⟨nonzero, by omega⟩, value⟩
  · rw [valid.uses.length_eq, deal.thirteen]

end H5Server.S13s
