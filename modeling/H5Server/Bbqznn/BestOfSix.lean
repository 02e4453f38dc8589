import H5Server.Bbqznn.FiveOfSix

/-! # The best five of six cards with both jokers

Four equal cards or three flowers are chosen at once. Otherwise no five cards are worth more than ten points, and the
loop over the fives has to come by king cards that give them.
-/

namespace H5Server.Bbqznn

variable {hand five cards : List ℕ} {behind : List (List ℕ)} {choice : TwoKingChoice}

/-! ## What the fives are worth -/

theorem plain_sublist (sub : five.Sublist hand) : (plain five).Sublist (plain hand) := sub.filter _

theorem countP_plain (cards : List ℕ) : (plain cards).countP isKing = 0 :=
  List.countP_eq_zero.mpr fun _ inside king => Bool.false_ne_true ((mem_plain.mp inside).2.symm.trans king)

theorem length_plain (cards : List ℕ) : cards.countP isKing + (plain cards).length = cards.length := by
  rw [← (kings_append_plain cards).length_eq, List.length_append, List.countP_eq_length_filter]

theorem Hand.erase_mem (six : Hand true 6 hand) {card : ℕ} (inside : card ∈ hand) : hand.erase card ∈ fiveOf hand := by
  refine (mem_fiveOf six.length).mpr ⟨List.erase_sublist, ?_⟩
  rw [List.length_erase_of_mem inside, six.length]

theorem erase_perm {card : ℕ} {rest : List ℕ} (perm : hand.Perm (card :: rest)) : (hand.erase card).Perm rest :=
  (perm.erase card).trans (List.Perm.of_eq (List.erase_cons_head card rest))

/-- With a joker the type of five cards is that of four equal cards, of flowers, or some points. -/
theorem Hand.handType_some (hand : Hand true 5 cards) (some_ : 0 < cards.countP isKing) :
    handType true cards = ctBombNiu ∧ FourEqual cards ∨
      handType true cards = ctWuhuaNiu ∧ (∀ card ∈ plain cards, 10 ≤ getCardValue card) ∨
      handType true cards ≤ ctNiuniu := by
  have counts : CountsAs cards (handType true cards) := hand.greatest_five.1
  generalize handType true cards = type at counts
  rcases counts with none_ | ⟨-, equal⟩ | ⟨-, high⟩ | ⟨-, replacement, replaces⟩
  · omega
  · exact .inl ⟨rfl, equal⟩
  · exact .inr (.inl ⟨rfl, high⟩)
  · exact .inr (.inr (hand.points_le replaces))

theorem Hand.length_plain_six (six : Hand true 6 hand) (two : hand.countP isKing = 2) : (plain hand).length = 4 := by
  have whole := length_plain hand
  rw [six.length, two] at whole
  omega

theorem Hand.some_king (six : Hand true 6 hand) (two : hand.countP isKing = 2) (inside : five ∈ fiveOf hand) :
    0 < five.countP isKing := by
  obtain ⟨sub, length⟩ := (mem_fiveOf six.length).mp inside
  have few := (plain_sublist sub).length_le
  have whole := length_plain five
  rw [six.length_plain_six two] at few
  omega

/-- Five cards with one joker have all the others. -/
theorem Hand.plain_of_one (six : Hand true 6 hand) (two : hand.countP isKing = 2) (inside : five ∈ fiveOf hand)
    (one : five.countP isKing = 1) : plain five = plain hand := by
  obtain ⟨sub, length⟩ := (mem_fiveOf six.length).mp inside
  have whole := length_plain five
  apply (plain_sublist sub).eq_of_length
  rw [six.length_plain_six two]
  omega

theorem Hand.fourEqual_of_five (six : Hand true 6 hand) (two : hand.countP isKing = 2) (inside : five ∈ fiveOf hand)
    (equal : FourEqual five) : FourEqual hand := by
  have whole := length_plain five
  rw [equal.1, ((mem_fiveOf six.length).mp inside).2] at whole
  rw [FourEqual, ← six.plain_of_one two inside (by omega)]
  exact equal

/-- A card besides the jokers is left out. -/
theorem Hand.erase_plain (six : Hand true 6 hand) (two : hand.countP isKing = 2) {card : ℕ} {rest : List ℕ}
    (perm : (plain hand).Perm (card :: rest)) :
    hand.erase card ∈ fiveOf hand ∧ (hand.erase card).countP isKing = 2 ∧
      (hand.erase card).Perm (0x4F :: 0x4E :: rest) := by
  have here : card ∈ hand := (mem_plain.mp (perm.symm.subset List.mem_cons_self)).1
  have five : (hand.erase card).Perm (0x4F :: 0x4E :: rest) := by
    have both := (both_kings six.nodup two).trans ((perm.cons _).cons _)
    exact erase_perm (both.trans (((List.Perm.swap _ _ _).cons _).trans (List.Perm.swap _ _ _)))
  have none_ : rest.countP isKing = 0 := by
    have all := countP_plain hand
    rw [perm.countP_eq, List.countP_cons] at all
    exact (Nat.add_eq_zero_iff.mp all).1
  refine ⟨six.erase_mem here, ?_, five⟩
  rw [five.countP_eq, List.countP_cons_of_pos (by decide), List.countP_cons_of_pos (by decide), none_]

/-! ## Four equal cards and flowers -/

theorem Hand.take_filter (six : Hand true 6 hand) {card : ℕ} (inside : card ∈ hand) :
    (hand.filter (· ≠ card)).take 5 = hand.erase card := by
  have same : hand.filter (· ≠ card) = hand.erase card := by
    rw [six.nodup.erase_eq_filter]
    exact List.filter_congr fun other _ => decide_not
  rw [same]
  apply List.take_of_length_le
  rw [List.length_erase_of_mem inside, six.length]

theorem Hand.optimal_bomb (six : Hand true 6 hand) (two : hand.countP isKing = 2) (equal : FourEqual hand)
    (kingChangCard : ℕ × ℕ) : Optimal hand ⟨ctBombNiu, (hand.filter (· ≠ 0x4E)).take 5, kingChangCard⟩ := by
  have perm := both_kings six.nodup two
  have here : 0x4E ∈ hand := perm.symm.subset (List.mem_cons_of_mem _ List.mem_cons_self)
  rw [six.take_filter here]
  have inside := six.erase_mem here
  have big : (hand.erase 0x4E).Perm (0x4F :: plain hand) := erase_perm (perm.trans (List.Perm.swap _ _ _))
  have one : (hand.erase 0x4E).countP isKing = 1 := by
    rw [big.countP_eq, List.countP_cons_of_pos (by decide), countP_plain]
  have equal' : FourEqual (hand.erase 0x4E) := by rwa [FourEqual, six.plain_of_one two inside one]
  have most (five : List ℕ) (inside : five ∈ fiveOf hand) : handType true five ≤ ctBombNiu := by
    rcases (six.of_mem_fiveOf inside).handType_some (six.some_king two inside) with ⟨type, -⟩ | ⟨type, -⟩ | type
    · exact type.le
    · rw [type]
      decide
    · exact type.trans (by decide)
  have least := (six.of_mem_fiveOf inside).greatest_five.2 (.bomb (six.some_king two inside) equal')
  exact six.optimal_of_bestOf ⟨inside, le_antisymm (most _ inside) least, most⟩ fun noBomb => absurd rfl noBomb

theorem logicValue_high {card : ℕ} : 10 ≤ getLogicValue card ↔ 10 ≤ getCardValue card := by
  rw [getLogicValue]
  split_ifs with high
  · exact iff_of_true le_rfl (by omega)
  · exact Iff.rfl

/-- Five flowers leave out the smallest card. -/
theorem Hand.optimal_flowers (six : Hand true 6 hand) (two : hand.countP isKing = 2) (other : ¬FourEqual hand)
    {least : ℕ} {front : List ℕ} (perm : (plain hand).Perm (least :: front))
    (high : ∀ card ∈ front, 10 ≤ getCardValue card) (kingChangCard : ℕ × ℕ) :
    Optimal hand ⟨ctWuhuaNiu, (hand.filter (· ≠ least)).take 5, kingChangCard⟩ := by
  obtain ⟨inside, -, rest⟩ := six.erase_plain two perm
  rw [six.take_filter (mem_plain.mp (perm.symm.subset List.mem_cons_self)).1]
  have high' : ∀ card ∈ plain (hand.erase least), 10 ≤ getCardValue card := by
    intro card present
    obtain ⟨present, plain_⟩ := mem_plain.mp present
    rcases List.mem_cons.mp (rest.subset present) with rfl | present
    · exact absurd plain_ (by decide)
    rcases List.mem_cons.mp present with rfl | present
    · exact absurd plain_ (by decide)
    · exact high card present
  have most (five : List ℕ) (inside : five ∈ fiveOf hand) : handType true five ≤ ctWuhuaNiu := by
    rcases (six.of_mem_fiveOf inside).handType_some (six.some_king two inside) with ⟨-, equal⟩ | ⟨type, -⟩ | type
    · exact absurd (six.fourEqual_of_five two inside equal) other
    · exact type.le
    · exact type.trans (by decide)
  have flowers := (six.of_mem_fiveOf inside).greatest_five.2 (.flowers (six.some_king two inside) high')
  exact six.optimal_of_bestOf ⟨inside, le_antisymm (most _ inside) flowers, most⟩ fun _ noFlowers => absurd rfl noFlowers

/-! ## The loop -/

/-- Nothing is chosen, or five cards with ten points; the king cards still have to be chosen where the first hand has the
big joker only and both jokers of all others have to change. -/
inductive TwoKingChosen (behind : List (List ℕ)) (choice : TwoKingChoice) : Prop
  | nothing (type : choice.maxType = 0) (kings : choice.twoKingChangCard = (0, 0))
      (second : choice.chooseTwoking = false) (none_ : ∀ five ∈ behind, five.countP isKing ≠ 2)
  | chosen (type : choice.maxType = ctNiuniu) (mem : choice.tmpMaxChangCard ∈ behind)
      (type_eq : handType true choice.tmpMaxChangCard = ctNiuniu)
      (points : isOtherNiu (replaced choice.twoKingChangCard choice.tmpMaxChangCard) = ctNiuniu)
  | pending (type : choice.maxType = ctNiuniu) (mem : choice.tmpMaxChangCard ∈ behind)
      (type_eq : handType true choice.tmpMaxChangCard = ctNiuniu)
      (kings : choice.twoKingChangCard = (0, 0)) (one : choice.tmpMaxChangCard.countP isKing = 1)
      (first : choice.chooseOneking = true) (second : choice.chooseTwoking = false)
      (both : ∀ five ∈ behind, five.countP isKing = 2 →
        (searchMaxTypeTwo five).2.1 ≠ 0 ∧ (searchMaxTypeTwo five).2.2 ≠ 0)

theorem forall_mem_concat {p : List ℕ → Prop} (all : ∀ other ∈ behind, p other) (here : p five) :
    ∀ other ∈ behind ++ [five], p other :=
  List.forall_mem_append.mpr ⟨all, List.forall_mem_singleton.mpr here⟩

/-- Five cards that are not chosen. -/
theorem TwoKingChosen.keep (state : TwoKingChosen behind choice) (one : five.countP isKing ≠ 2) :
    TwoKingChosen (behind ++ [five]) choice := by
  cases state with
  | nothing type kings second none_ => exact .nothing type kings second (forall_mem_concat none_ one)
  | chosen type mem type_eq points => exact .chosen type (List.mem_append_left _ mem) type_eq points
  | pending type mem type_eq kings only first second both =>
    exact .pending type (List.mem_append_left _ mem) type_eq kings only first second
      (forall_mem_concat both fun two => absurd two one)

theorem TwoKingChosen.seesBig (state : TwoKingChosen behind choice) :
    TwoKingChosen behind { choice with chooseOneking := true } := by
  cases state with
  | nothing type kings second none_ => exact .nothing type kings second none_
  | chosen type mem type_eq points => exact .chosen type mem type_eq points
  | pending type mem type_eq kings only first second both => exact .pending type mem type_eq kings only rfl second both

theorem TwoKingChosen.withBig (hand : Hand true 5 five) (one : five.countP isKing = 1) (big : 0x4F ∈ five)
    (state : TwoKingChosen behind choice) : TwoKingChosen (behind ++ [five]) (choice.withBig five) := by
  have types := handType_true hand.nodup
  rw [if_neg (by omega), if_pos one] at types
  have here : five ∈ behind ++ [five] := List.mem_append_right _ (List.mem_singleton_self five)
  have notTwo : five.countP isKing ≠ 2 := by omega
  rw [TwoKingChoice.withBig, getCardTypeOneKing]
  dsimp only
  rw [decide_eq_true big]
  split_ifs with start both
  · obtain ⟨ten, zero⟩ := start
    cases state with
    | nothing _ kings second none_ =>
      exact .pending ten here (types.trans ten) kings one rfl second
        (forall_mem_concat (fun five inside two => absurd two (none_ five inside)) fun two => absurd two notTwo)
    | chosen type => exact absurd (type.symm.trans zero) (by decide)
    | pending type => exact absurd (type.symm.trans zero) (by decide)
  · obtain ⟨ten, -⟩ := both
    have points := hand.replaced_one one (0, 0) (by rw [ten]; decide) (by rw [ten]; decide)
    rw [decide_eq_true big] at points
    exact .chosen ten here (types.trans ten) (points.trans ten)
  · exact state.seesBig.keep notTwo

/-- Five cards with both jokers that do not win. -/
theorem TwoKingChosen.stay (state : TwoKingChosen behind choice) (some_ : choice.maxType ≠ 0)
    (settled : choice.chooseTwoking = true ∨
      (searchMaxTypeTwo five).2.1 ≠ 0 ∧ (searchMaxTypeTwo five).2.2 ≠ 0) :
    TwoKingChosen (behind ++ [five]) choice := by
  cases state with
  | nothing type => exact absurd type some_
  | chosen type mem type_eq points => exact .chosen type (List.mem_append_left _ mem) type_eq points
  | pending type mem type_eq kings only first second both =>
    have changed := settled.resolve_left fun later => Bool.false_ne_true (second.symm.trans later)
    exact .pending type (List.mem_append_left _ mem) type_eq kings only first second
      (forall_mem_concat both fun _ => changed)

/-- Both jokers give ten points where they do not give flowers. -/
theorem Hand.searchMaxTypeTwo_eq_ten (hand : Hand true 5 five) (two : five.countP isKing = 2)
    (low : (searchMaxTypeTwo five).1 ≤ ctNiuniu) : (searchMaxTypeTwo five).1 = ctNiuniu := by
  rcases hand.searchMaxTypeTwo_cases two with
    ⟨-, result⟩ | ⟨-, ⟨-, result⟩ | ⟨small, -, -, result⟩ | ⟨-, -, small, -, big, -, -, result⟩⟩
  · rw [result] at low
    exact absurd low (by decide)
  all_goals rw [result]

theorem TwoKingChosen.withBoth (hand : Hand true 5 five) (two : five.countP isKing = 2)
    (low : handType true five ≤ ctNiuniu) (state : TwoKingChosen behind choice) :
    TwoKingChosen (behind ++ [five]) (choice.withBoth true five) := by
  have types := handType_true hand.nodup
  rw [if_neg (by omega), if_neg (by omega)] at types
  have here : five ∈ behind ++ [five] := List.mem_append_right _ (List.mem_singleton_self five)
  have ten := hand.searchMaxTypeTwo_eq_ten two (types ▸ low)
  have points := hand.replaced_two two (by rw [ten]; decide)
  have taken (cardData : List ℕ) (one second : Bool) : TwoKingChosen (behind ++ [five])
      ⟨(searchMaxTypeTwo five).1, cardData, (searchMaxTypeTwo five).2, five, one, second⟩ :=
    .chosen ten here (types.trans ten) (points.trans ten)
  rw [TwoKingChoice.withBoth]
  dsimp only
  rcases eq_or_ne choice.maxType 0 with zero | some_
  · rw [if_pos ⟨ten, zero⟩]
    exact taken _ _ _
  rw [if_neg fun start => some_ start.2, if_pos ten]
  split_ifs with first unchanged second _ _ second
  all_goals first
    | exact taken _ _ _
    | exact state.stay some_ (.inl second)
    | exact state.stay some_ (.inr (not_or.mp unchanged))

theorem TwoKingChosen.step (hand : Hand true 5 five) (low : handType true five ≤ ctNiuniu)
    (state : TwoKingChosen behind choice) : TwoKingChosen (behind ++ [five]) (choice.next true five) := by
  rw [TwoKingChoice.next]
  split_ifs with big two
  · exact state.withBig hand big.1 big.2
  · exact state.withBoth hand two low
  · exact state.keep two

/-! ## King cards for every hand -/

/-- Of five cards that make ten points any four hold three or two that make tens. -/
theorem triple_or_pair {other a b c d e : ℕ} {rest : List ℕ} (perm : (other :: rest).Perm [a, b, c, d, e])
    (pair : (getLogicValue a + getLogicValue b) % 10 = 0)
    (triple : (getLogicValue c + getLogicValue d + getLogicValue e) % 10 = 0) :
    (∃ x c d e, rest.Perm [x, c, d, e] ∧ (getLogicValue c + getLogicValue d + getLogicValue e) % 10 = 0) ∨
      ∃ x y a b, rest.Perm [x, y, a, b] ∧ (getLogicValue a + getLogicValue b) % 10 = 0 := by
  have rest_ {l : List ℕ} (same : [a, b, c, d, e].Perm (other :: l)) : rest.Perm l := (perm.trans same).cons_inv
  have last {x y : ℕ} : [a, b, x, y].Perm [x, y, a, b] := @List.perm_append_comm _ [a, b] [x, y]
  have inside : other ∈ [a, b, c, d, e] := perm.subset List.mem_cons_self
  simp only [List.mem_cons, List.not_mem_nil, or_false] at inside
  rcases inside with rfl | rfl | rfl | rfl | rfl
  · exact .inl ⟨b, c, d, e, rest_ (.refl _), triple⟩
  · exact .inl ⟨a, c, d, e, rest_ (.swap _ _ _), triple⟩
  · exact .inr ⟨d, e, a, b, (rest_ (@List.perm_middle _ other [a, b] [d, e])).trans last, pair⟩
  · exact .inr ⟨c, e, a, b, (rest_ (@List.perm_middle _ other [a, b, c] [e])).trans last, pair⟩
  · exact .inr ⟨c, d, a, b, (rest_ (@List.perm_middle _ other [a, b, c, d] [])).trans last, pair⟩

theorem Hand.ne_ten_of_both (hand : Hand true 5 five) (two : five.countP isKing = 2)
    (both : (searchMaxTypeTwo five).2.1 ≠ 0 ∧ (searchMaxTypeTwo five).2.2 ≠ 0) :
    isOtherNiu five ≠ ctNiuniu ∧ ∀ small ∈ ranks, isOtherNiu (0x4F :: small :: plain five) ≠ ctNiuniu := by
  rcases hand.searchMaxTypeTwo_cases two with
    ⟨-, result⟩ | ⟨-, ⟨-, result⟩ | ⟨small, -, -, result⟩ | ⟨unchanged, one, -⟩⟩
  · rw [result] at both
    exact absurd rfl both.1
  · rw [result] at both
    exact absurd rfl both.1
  · rw [result] at both
    exact absurd rfl both.2
  · exact ⟨unchanged, one⟩

/-- What stands for the only joker of five cards with ten points. -/
theorem Hand.exists_ten (hand : Hand true 5 five) (one : five.countP isKing = 1)
    (ten : handType true five = ctNiuniu) :
    ∃ other, 0 < getCardValue other ∧ isOtherNiu (other :: plain five) = ctNiuniu := by
  obtain ⟨type, same, counts⟩ : ∃ type, type = ctNiuniu ∧ CountsAs five type :=
    ⟨ctNiuniu, rfl, ten ▸ hand.greatest_five.1⟩
  rcases counts with none_ | _ | _ | ⟨-, replacement, replaces⟩
  · omega
  · exact absurd same (by decide)
  · exact absurd same (by decide)
  · rcases hand.points_one one replaces with kept | ⟨rank, inside, kept⟩
    · have big : isKing 0x4F = true := by decide
      exact ⟨0x4F, by decide, (hand.isOtherNiu_king one big).trans (kept.symm.trans same)⟩
    · exact ⟨rank, value_of_rank rank inside, kept.symm.trans same⟩

/-- Where one joker gives ten points, some five cards with both have them with the big joker as it is. -/
theorem Hand.exists_unchanged (six : Hand true 6 hand) (two : hand.countP isKing = 2) (inside : cards ∈ fiveOf hand)
    (one : cards.countP isKing = 1) (ten : handType true cards = ctNiuniu) :
    ∃ five ∈ fiveOf hand, five.countP isKing = 2 ∧
      (isOtherNiu five = ctNiuniu ∨ ∃ small ∈ ranks, isOtherNiu (0x4F :: small :: plain five) = ctNiuniu) := by
  have four := six.length_plain_six two
  obtain ⟨other, some_, ten⟩ := (six.of_mem_fiveOf inside).exists_ten one ten
  rw [six.plain_of_one two inside one] at ten
  have values := six.values_cons some_
  obtain ⟨a, b, c, d, e, perm, pair, triple⟩ :=
    (isOtherNiu_eq_ten_iff values (by rw [List.length_cons, four])).mp ten
  rcases triple_or_pair perm pair triple with ⟨x, c, d, e, rest, tens⟩ | ⟨x, y, a, b, rest, tens⟩
  · obtain ⟨here, both, five⟩ := six.erase_plain two rest
    refine ⟨_, here, both, .inl ?_⟩
    have hand := six.of_mem_fiveOf here
    exact (isOtherNiu_eq_ten_iff hand.values hand.length).mpr ⟨_, _, c, d, e, five, by decide, tens⟩
  · obtain ⟨here, both, five⟩ := six.erase_plain two rest
    refine ⟨_, here, both, .inr ⟨filler (10 + getLogicValue y), filler_mem _, ?_⟩⟩
    have five' := six.of_mem_fiveOf here
    have others := ((both_kings five'.nodup both).symm.trans five).cons_inv.cons_inv
    have inside := filler_mem (10 + getLogicValue y)
    have fills := filler_tens (10 + getLogicValue y)
    have big : getLogicValue 0x4F = 10 := by decide
    have order : (0x4F :: filler (10 + getLogicValue y) :: plain (hand.erase x)).Perm
        [a, b, 0x4F, filler (10 + getLogicValue y), y] :=
      ((others.cons _).cons _).trans (@List.perm_append_comm _ [_, _, y] [a, b])
    refine (isOtherNiu_eq_ten_iff (five'.values_two (by decide) (value_of_rank _ inside)) order.length_eq).mpr ?_
    exact ⟨a, b, _, _, y, order, tens, by omega⟩

/-! ## The choice of the cards -/

theorem Hand.optimal_loop (six : Hand true 6 hand) (two : hand.countP isKing = 2)
    (low : ∀ five ∈ fiveOf hand, handType true five ≤ ctNiuniu)
    (state : TwoKingChosen (fiveOf hand) choice) :
    Optimal hand ⟨choice.maxType, choice.tmpMaxChangCard, choice.twoKingChangCard⟩ := by
  have best (type : choice.maxType = ctNiuniu) (mem : choice.tmpMaxChangCard ∈ fiveOf hand)
      (type_eq : handType true choice.tmpMaxChangCard = ctNiuniu) :
      BestOf (fiveOf hand) choice.maxType choice.tmpMaxChangCard :=
    ⟨mem, type_eq.trans type.symm, fun five inside => type ▸ low five inside⟩
  cases state with
  | nothing _ _ _ none_ =>
    have four := six.length_plain_six two
    obtain ⟨card, rest, all⟩ := List.exists_cons_of_length_pos (by omega : 0 < (plain hand).length)
    obtain ⟨inside, both, -⟩ := six.erase_plain two (List.Perm.of_eq all)
    exact absurd both (none_ _ inside)
  | chosen type mem type_eq points =>
    exact six.optimal_of_bestOf (best type mem type_eq) fun _ _ _ => points.trans type.symm
  | pending _ mem type_eq _ one _ _ both =>
    obtain ⟨five, inside, here, ten⟩ := six.exists_unchanged two mem one type_eq
    obtain ⟨other, none_⟩ := (six.of_mem_fiveOf inside).ne_ten_of_both here (both five inside here)
    rcases ten with ten | ⟨small, rank, ten⟩
    · exact absurd ten other
    · exact absurd ten (none_ small rank)

theorem fourEqual_iff_countP {a b c d : ℕ} (perm : [a, b, c, d].Perm (plain hand)) :
    FourEqual hand ↔ [a, b, c, d].countP (fun card => getCardValue card = getCardValue b) = 4 := by
  have inside : b ∈ [a, b, c, d] := List.mem_cons_of_mem _ List.mem_cons_self
  have four : (plain hand).length = 4 := perm.length_eq.symm
  rw [FourEqual, and_iff_right four, show 4 = [a, b, c, d].length from rfl, List.countP_eq_length]
  simp only [decide_eq_true_eq]
  constructor
  · intro equal card here
    exact equal card (perm.subset here) b (perm.subset inside)
  · intro equal card here card' here'
    exact (equal card (perm.symm.subset here)).trans (equal card' (perm.symm.subset here')).symm

/-- Three flowers of four sorted cards are the first three. -/
theorem flowers_of_sorted {a b c d : ℕ}
    (sorted : [a, b, c, d].Pairwise fun card card' => sortKey card' ≤ sortKey card)
    (many : 3 ≤ [a, b, c, d].countP fun card => 10 ≤ getLogicValue card) :
    ∀ card ∈ [a, b, c], 10 ≤ getCardValue card := by
  intro card inside
  have le : getCardValue d ≤ getCardValue card := by
    have order : sortKey d ≤ sortKey card := (List.pairwise_append.mp sorted).2.2 card inside d (List.mem_singleton_self d)
    rcases Prod.Lex.toLex_le_toLex.mp order with less | ⟨same, -⟩
    · exact less.le
    · exact same.le
  refine Nat.le_of_not_lt fun low => ?_
  have two : 2 ≤ [a, b, c, d].countP fun card => ¬10 ≤ getLogicValue card := by
    rw [show [a, b, c, d] = [a, b, c] ++ [d] from rfl, List.countP_append]
    have first : 0 < [a, b, c].countP fun card => ¬10 ≤ getLogicValue card :=
      List.countP_pos_iff.mpr ⟨card, inside, decide_eq_true (by rw [logicValue_high]; omega)⟩
    have last : 0 < [d].countP fun card => ¬10 ≤ getLogicValue card :=
      List.countP_pos_iff.mpr ⟨d, List.mem_singleton_self d, decide_eq_true (by rw [logicValue_high]; omega)⟩
    omega
  have all : [a, b, c, d].length = _ := List.length_eq_countP_add_countP fun card => 10 ≤ getLogicValue card
  simp only [decide_eq_true_eq, List.length_cons, List.length_nil] at all
  omega

theorem Hand.optimal_twoKings (six : Hand true 6 hand) (two : hand.countP isKing = 2) (kingChangCard : ℕ × ℕ) :
    Optimal hand (getCardTypeTwoKingSix true hand kingChangCard) := by
  have four := six.length_plain_six two
  have order := sortCardList_perm (plain hand)
  have sorted := sortCardList_sorted (plain hand)
  have front := six.sort_two (both_kings six.nodup two)
  rw [getCardTypeTwoKingSix, front]
  generalize sortCardList (plain hand) = cards at order sorted
  match cards, order.length_eq.trans four, order, sorted with
  | [a, b, c, d], _, order, sorted =>
    simp only [List.getD_cons_succ, List.getD_cons_zero, List.drop_succ_cons, List.drop_zero]
    have fourEqual := fourEqual_iff_countP order
    split_ifs with equal flowers
    · exact six.optimal_bomb two (fourEqual.mpr equal) kingChangCard
    · have last : (plain hand).Perm (d :: [a, b, c]) := order.symm.trans (@List.perm_append_comm _ [a, b, c] [d])
      have other : ¬FourEqual hand := fun bomb => equal (fourEqual.mp bomb)
      exact six.optimal_flowers two other last (flowers_of_sorted sorted flowers) kingChangCard
    · have low (five : List ℕ) (inside : five ∈ fiveOf hand) : handType true five ≤ ctNiuniu := by
        rcases (six.of_mem_fiveOf inside).handType_some (six.some_king two inside) with ⟨-, bomb⟩ | ⟨-, high⟩ | low
        · exact absurd (fourEqual.mp (six.fourEqual_of_five two inside bomb)) equal
        · have many : (plain five).length ≤ (plain hand).countP fun card => 10 ≤ getLogicValue card := by
            rw [← List.countP_eq_length.mpr fun card here => decide_eq_true (logicValue_high.mpr (high card here))]
            exact (plain_sublist ((mem_fiveOf six.length).mp inside).1).countP_le
          have few := countP_isKing_le (six.of_mem_fiveOf inside).nodup
          have whole := length_plain five
          rw [(six.of_mem_fiveOf inside).length] at whole
          rw [order.countP_eq] at flowers
          omega
        · exact low
      have state : TwoKingChosen (fiveOf hand) ((fiveOf hand).foldl (TwoKingChoice.next true)
          ⟨0, [0, 0, 0, 0, 0], (0, 0), [0, 0, 0, 0, 0], false, false⟩) :=
        Lib.foldl_invariant TwoKingChosen (.nothing rfl rfl rfl fun _ inside => absurd inside List.not_mem_nil)
          fun _ _ five inside state => state.step (six.of_mem_fiveOf inside) (low five inside)
      exact six.optimal_loop two low state

end H5Server.Bbqznn
