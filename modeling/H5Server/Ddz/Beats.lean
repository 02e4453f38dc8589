import H5Server.Ddz.Orders

/-! # What beats what

The rocket is above the bombs and these above the other plays, of which only those of one type and one size compare.
Plays that share no card are so in a strict order.
-/

namespace H5Server.Ddz

open Lib

/-- Sorted cards of the deck that are a combination. -/
structure Play where
  cards : List ℕ
  sorted : cards.Pairwise sortsBefore
  nodup : cards.Nodup
  deck : ∀ card ∈ cards, card ∈ cardData
  typed : getCardType cards ≠ .error

namespace Play

def type (p : Play) : CardType := getCardType p.cards

/-- The value by which the play is compared. -/
def rank (p : Play) : ℕ := comparedValue p.type p.cards

/-- The second play beats the first. -/
def BeatenBy (p q : Play) : Prop := compareCard p.cards q.cards = true

instance (p q : Play) : Decidable (p.BeatenBy q) := inferInstanceAs (Decidable (_ = true))

/-- The two could lie in one trick. -/
def Apart (p q : Play) : Prop := p.cards.Disjoint q.cards

/-- The rocket, the bombs, and all the rest. -/
def tier (p : Play) : ℕ :=
  match p.type with
  | .missileCard => 2
  | .bombCard => 1
  | _ => 0

/-! ## The order -/

variable {p q r : Play}

theorem Apart.symm (apart : p.Apart q) : q.Apart p := List.Disjoint.symm apart

/-- There is only one rocket. -/
theorem cards_of_missile (missile : p.type = .missileCard) : p.cards = [0x4F, 0x4E] := by
  rw [type, getCardType] at missile
  split_ifs at missile with none_ one two jokers
  obtain ⟨first, second, eq⟩ := List.length_eq_two.mp two
  rw [eq] at jokers ⊢
  obtain ⟨rfl, rfl⟩ := jokers
  rfl

theorem Apart.not_missiles (apart : p.Apart q) : ¬(p.type = .missileCard ∧ q.type = .missileCard) := by
  rintro ⟨first, second⟩
  rw [Apart, cards_of_missile first, cards_of_missile second] at apart
  exact apart List.mem_cons_self List.mem_cons_self

/-- A play beats those of the lower tiers, and of its own those of its type and size with a lower rank. -/
theorem Apart.beatenBy_iff (apart : p.Apart q) :
    p.BeatenBy q ↔ p.tier < q.tier
      ∨ p.tier = q.tier ∧ p.type = q.type ∧ p.cards.length = q.cards.length ∧ p.rank < q.rank := by
  have missiles := apart.not_missiles
  have typed := q.typed
  change q.type ≠ .error at typed
  have ranks : p.type = q.type → comparedValue q.type p.cards = p.rank := fun same => by rw [rank, same]
  rw [BeatenBy, compareCard]
  change (if q.type = .error then false
    else if q.type = .missileCard then true
    else if p.type = .missileCard then false
    else if p.type ≠ .bombCard ∧ q.type = .bombCard then true
    else if p.type = .bombCard ∧ q.type ≠ .bombCard then false
    else if p.type ≠ q.type ∨ p.cards.length ≠ q.cards.length then false
    else decide (comparedValue q.type p.cards < q.rank)) = true ↔ _
  rw [if_neg typed]
  rcases eq_or_ne p.type q.type with same | differ
  · have tiers : p.tier = q.tier := by rw [tier, tier, same]
    have plain : q.type ≠ .missileCard := fun missile => missiles ⟨same.trans missile, missile⟩
    rw [ranks same, if_neg plain, if_neg (same ▸ plain), if_neg (by rw [same]; exact fun both => both.1 both.2),
      if_neg (by rw [same]; exact fun both => both.2 both.1)]
    simp [same, tiers]
  · simp only [differ, false_and, and_false, or_false, ne_eq, not_false_eq_true, true_or, if_true, tier]
    cases first : p.type <;> cases second : q.type <;> simp_all

/-- Nothing beats what beats it. -/
theorem BeatenBy.asymm (apart : p.Apart q) (beaten : p.BeatenBy q) : ¬q.BeatenBy p := by
  rw [apart.beatenBy_iff] at beaten
  rw [apart.symm.beatenBy_iff]
  rcases beaten with lower | ⟨tier, -, -, lower⟩
  · rintro (lower' | ⟨tier', -⟩) <;> omega
  · rintro (lower' | ⟨-, -, -, lower'⟩) <;> omega

/-- What beats a play beats what this one beats. -/
theorem BeatenBy.trans (pq : p.Apart q) (qr : q.Apart r) (pr : p.Apart r) (first : p.BeatenBy q)
    (second : q.BeatenBy r) : p.BeatenBy r := by
  rw [pq.beatenBy_iff] at first
  rw [qr.beatenBy_iff] at second
  rw [pr.beatenBy_iff]
  rcases first with lower | ⟨tier, type, size, rank⟩
  · rcases second with lower' | ⟨tier', -⟩
    · exact .inl (lower.trans lower')
    · exact .inl (tier' ▸ lower)
  · rcases second with lower' | ⟨tier', type', size', rank'⟩
    · exact .inl (tier.symm ▸ lower')
    · exact .inr ⟨tier.trans tier', type.trans type', size.trans size', rank.trans rank'⟩

/-! ## Ranks that cannot be shared -/

/-- How many cards of the rank a play has at least. -/
theorem blocks_of_type (p : Play) :
    match p.type with
    | .three | .threeLine => 0 < p.cards.length ∧ (analysebCardData p.cards 3).length * 3 = p.cards.length
    | .bombCard => 0 < p.cards.length ∧ (analysebCardData p.cards 4).length * 4 = p.cards.length
    | .threeTakeOne | .threeTakeTwo => 0 < (analysebCardData p.cards 3).length
    | .fourTakeOne | .fourTakeTwo => 0 < (analysebCardData p.cards 4).length
    | _ => True := by
  rw [type, getCardType]
  generalize (analysebCardData p.cards 4).length = four
  generalize (analysebCardData p.cards 3).length = three
  split_ifs <;> simp only <;> omega

/-- The rank of a block of three or four that leads. -/
theorem le_valueCount_headD {cards : List ℕ} {runs : List (ℕ × ℕ)} {size : ℕ} (blocks : Blocks cards runs)
    (some_ : 0 < (analysebCardData cards size).length) :
    size ≤ valueCount cards (blockValue ((analysebCardData cards size).headD [])) := by
  obtain ⟨block, rest, eq⟩ := List.exists_cons_of_ne_nil (List.ne_nil_of_length_pos some_)
  refine mem_valuesOf_count blocks ?_
  rw [← blocks.analysebCardData_map, eq]
  exact List.mem_cons_self

/-- Where all blocks are of one size, the first card is in one of them. -/
theorem le_valueCount_head {cards : List ℕ} {runs : List (ℕ × ℕ)} {size : ℕ} (blocks : Blocks cards runs)
    (all : (analysebCardData cards size).length * size = cards.length) (big : 3 ≤ size) (small : size ≤ 4)
    (some_ : 0 < cards.length) : size ≤ valueCount cards (getCardLogicValue (cards.headD 0)) := by
  have length := blocks.length_eq
  rw [← List.length_map blockValue, blocks.analysebCardData_map] at all
  obtain ⟨card, rest, eq⟩ := List.exists_cons_of_ne_nil (List.ne_nil_of_length_pos some_)
  have word := blocks.word
  rw [eq, List.map_cons] at word
  rw [eq, List.headD_cons, ← eq]
  -- The first run is of the value of the first card, and of some size.
  obtain ⟨run, others, rfl⟩ : ∃ run others, runs = run :: others := by
    refine List.exists_cons_of_ne_nil fun none_ => ?_
    rw [none_] at word
    exact absurd word (by simp)
  have positive := blocks.some_ run List.mem_cons_self
  have fits := blocks.small run List.mem_cons_self
  obtain ⟨value, count⟩ := run
  dsimp only at positive fits
  have same : value = getCardLogicValue card := by
    obtain ⟨k, rfl⟩ := Nat.exists_eq_succ_of_ne_zero positive.ne'
    rw [expand_cons, List.replicate_succ, List.cons_append] at word
    exact (List.cons_eq_cons.mp word).1
  rw [← same]
  refine mem_valuesOf_count blocks ?_
  have inside : value ∈ valuesOf ((value, count) :: others) count := by
    rw [valuesOf_cons, if_pos rfl]
    exact List.mem_cons_self
  have there := List.length_pos_of_mem inside
  obtain rfl | rfl : size = 3 ∨ size = 4 := by omega
  all_goals
    interval_cases count
    all_goals first | exact inside | omega

/-- Ranks of three cards and more. -/
theorem three_le_rank (p : Play) (big : p.type ∉ [.single, .doubleCard, .singleLine, .doubleLine, .missileCard]) :
    3 ≤ valueCount p.cards p.rank := by
  obtain ⟨runs, blocks⟩ := exists_blocks (valueCount_le_four p.nodup p.deck)
  have sizes := p.blocks_of_type
  have typed := p.typed
  change p.type ≠ .error at typed
  rw [rank]
  cases type : p.type <;> simp only [type, List.mem_cons, reduceCtorEq, false_or, not_true_eq_false, or_true,
    true_or] at big sizes typed
  case three | threeLine => exact le_valueCount_head blocks sizes.2 le_rfl (by decide) sizes.1
  case threeTakeOne | threeTakeTwo => exact le_valueCount_headD blocks sizes
  case fourTakeOne | fourTakeTwo => exact (Nat.le_succ 3).trans (le_valueCount_headD blocks sizes)
  case bombCard => exact (Nat.le_succ 3).trans (le_valueCount_head blocks sizes.2 (by decide) le_rfl sizes.1)
  all_goals exact absurd rfl typed

/-- The deck has no two times three cards of one value. -/
theorem Apart.rank_ne (apart : p.Apart q) (same : p.type = q.type)
    (big : p.type ∉ [.single, .doubleCard, .singleLine, .doubleLine]) : p.rank ≠ q.rank := by
  intro ranks
  have plain : p.type ≠ .missileCard := fun missile => apart.not_missiles ⟨missile, same ▸ missile⟩
  have first := p.three_le_rank (by simp_all)
  have second := q.three_le_rank (by simp_all)
  have nodup : (p.cards ++ q.cards).Nodup := List.Nodup.append p.nodup q.nodup apart
  have both := valueCount_le_four nodup (fun card there => (List.mem_append.mp there).elim (p.deck card) (q.deck card))
    p.rank
  rw [valueCount, List.map_append, List.count_append] at both
  rw [← ranks] at second
  rw [valueCount] at first second
  omega

/-- Plays of one type and one size compare, unless they are cards, pairs or lines of these with one rank. -/
theorem Apart.comparable (apart : p.Apart q) (type : p.type = q.type) (size : p.cards.length = q.cards.length)
    (other : ¬(p.type ∈ [.single, .doubleCard, .singleLine, .doubleLine] ∧ p.rank = q.rank)) :
    p.BeatenBy q ∨ q.BeatenBy p := by
  rw [apart.beatenBy_iff, apart.symm.beatenBy_iff]
  have tiers : p.tier = q.tier := by rw [tier, tier, type]
  have ranks : p.rank ≠ q.rank := fun same =>
    (Decidable.em (p.type ∈ [.single, .doubleCard, .singleLine, .doubleLine])).elim (fun small => other ⟨small, same⟩)
      fun big => apart.rank_ne type big same
  rcases Nat.lt_or_gt_of_ne ranks with less | greater
  · exact .inl (.inr ⟨tiers, type, size, less⟩)
  · exact .inr (.inr ⟨tiers.symm, type.symm, size.symm, greater⟩)

/-! ## Tricks -/

/-- In a trick each play beats all the plays before. -/
theorem pairwise_of_trick {trick : List Play} (apart : trick.Pairwise Apart) (beats : trick.IsChain BeatenBy) :
    trick.Pairwise BeatenBy := by
  induction trick with
  | nil => exact List.Pairwise.nil
  | cons p rest ih =>
    obtain ⟨first, apart⟩ := List.pairwise_cons.mp apart
    have later := ih apart beats.of_cons
    refine List.pairwise_cons.mpr ⟨fun r there => ?_, later⟩
    cases rest with
    | nil => exact absurd there List.not_mem_nil
    | cons q rest =>
      have next : p.BeatenBy q := (List.isChain_cons_cons.mp beats).1
      rcases List.mem_cons.mp there with rfl | there
      · exact next
      · exact next.trans (first q List.mem_cons_self) ((List.pairwise_cons.mp apart).1 r there)
          (first r (List.mem_cons_of_mem _ there)) ((List.pairwise_cons.mp later).1 r there)

/-- Beating is a strict order of plays that share no card, total on the plays of one type and size but for those
of cards or pairs with one rank, and no play of a trick beats a later one. -/
theorem beatenBy_order :
    (∀ p q : Play, p.Apart q → p.BeatenBy q → ¬q.BeatenBy p)
      ∧ (∀ p q r : Play, p.Apart q → q.Apart r → p.Apart r → p.BeatenBy q → q.BeatenBy r → p.BeatenBy r)
      ∧ (∀ p q : Play, p.Apart q → p.type = q.type → p.cards.length = q.cards.length →
        ¬(p.type ∈ [.single, .doubleCard, .singleLine, .doubleLine] ∧ p.rank = q.rank) → p.BeatenBy q ∨ q.BeatenBy p)
      ∧ ∀ trick : List Play, trick.Pairwise Apart → trick.IsChain BeatenBy →
        trick.Pairwise fun earlier later => earlier.BeatenBy later ∧ ¬later.BeatenBy earlier :=
  ⟨fun _ _ apart beaten => beaten.asymm apart, fun _ _ _ pq qr pr first second => first.trans pq qr pr second,
    fun _ _ apart type size other => apart.comparable type size other, fun _ apart beats =>
      (apart.and (pairwise_of_trick apart beats)).imp fun {_ _} both => ⟨both.2, both.2.asymm both.1⟩⟩

/-- A four beats a three, four eights beat the four, and so do they the three. -/
theorem beatenBy_order_eights :
    BeatenBy ⟨[0x03], by decide, by decide, by decide, by decide⟩
      ⟨[0x38, 0x28, 0x18, 0x08], by decide, by decide, by decide, by decide⟩ :=
  beatenBy_order.2.1 _ ⟨[0x14], by decide, by decide, by decide, by decide⟩ _ (by simp [Apart]) (by simp [Apart])
    (by simp [Apart]) (by decide) (by decide)

end Play

end H5Server.Ddz
