import H5Server.Zjh.Showdown

/-! # Showdowns

`CompareHandCards` orders hands that share no card strictly and totally, as documented and whatever the order of
their cards. The rule for two, three and five changes nothing but their showdown with three aces.
-/

namespace H5Server.Zjh

variable {t t' : HandTy} {s s' a b c : Hand} {k k' : List ℕ}

/-! ## One type -/

/-- Where the first two numbers tell the third one, it does not matter how it is written. -/
theorem lt_iff_of_third {p q r d p' q' r' d' : ℕ} {l l' : List ℕ} (third : p' = p → q' = q → r' = r ∧ d' = d) :
    p' :: q' :: d' :: l' < p :: q :: d :: l ↔ p' :: q' :: r' :: l' < p :: q :: r :: l := by
  simp only [List.cons_lt_cons_iff]
  rcases eq_or_ne p' p with rfl | first
  · rcases eq_or_ne q' q with rfl | second
    · obtain ⟨rfl, rfl⟩ := third rfl rfl
      simp
    · simp [second]
  · simp [first]

theorem Shown.compareSameType_pos_iff (shown : Shown t s k) (shown' : Shown t s' k') :
    0 < compareSameType t s s' ↔ k' < k := by
  have same (n : ℕ) (xs ys : List ℕ) : n :: ys < n :: xs ↔ ys < xs := by
    rw [List.cons_lt_cons_iff]
    simp
  cases shown with
  | @baoZi x y z =>
    cases shown' with
    | @baoZi x' y' z' =>
      rw [same, List.cons_lt_cons_iff]
      change 0 < (getCardPoint x : ℤ) - getCardPoint x' ↔ _
      simp
  | @pair x y z =>
    cases shown' with
    | @pair x' y' z' =>
      rw [same]
      exact pos_iff_of_differences rfl rfl
  | @jinHua x y z =>
    cases shown' with
    | @jinHua x' y' z' =>
      rw [same]
      exact pos_iff_of_differences rfl rfl
  | @sanPai x y z =>
    cases shown' with
    | @sanPai x' y' z' =>
      rw [same]
      exact pos_iff_of_differences rfl rfl
  | @shunZi x y z xy yz low =>
    cases shown' with
    | @shunZi x' y' z' =>
      rw [same]
      exact pos_iff_of_differences rfl rfl
    | @shunZiA x' y' z' three two ace =>
      rw [same, ← three, ← two, lt_iff_of_third fun first second => by omega]
      exact pos_iff_of_differences rfl rfl
  | @shunZiA x y z three two ace =>
    cases shown' with
    | @shunZi x' y' z' xy' yz' low' =>
      rw [same, ← three, ← two, lt_iff_of_third fun first second => by omega]
      exact pos_iff_of_differences rfl rfl
    | @shunZiA x' y' z' three' two' ace' =>
      rw [same, lt_iff_of_third fun _ _ => ⟨ace'.trans ace.symm, rfl⟩]
      refine pos_iff_of_differences rfl ?_
      change differences [getCardPoint x, getCardPoint y, getCardPoint z, getCardColor x, getCardColor y, getCardColor z]
        [getCardPoint x', getCardPoint y', getCardPoint z', getCardColor x', getCardColor y', getCardColor z'] = _
      rw [three, two, three', two']
  | @shunJin x y z xy yz low =>
    cases shown' with
    | @shunJin x' y' z' =>
      rw [same]
      exact pos_iff_of_differences rfl rfl
    | @shunJinA x' y' z' three two ace =>
      rw [same, ← three, ← two, lt_iff_of_third fun first second => by omega]
      exact pos_iff_of_differences rfl rfl
  | @shunJinA x y z three two ace =>
    cases shown' with
    | @shunJin x' y' z' xy' yz' low' =>
      rw [same, ← three, ← two, lt_iff_of_third fun first second => by omega]
      exact pos_iff_of_differences rfl rfl
    | @shunJinA x' y' z' three' two' ace' =>
      rw [same, lt_iff_of_third fun _ _ => ⟨ace'.trans ace.symm, rfl⟩]
      refine pos_iff_of_differences rfl ?_
      change differences [getCardPoint x, getCardPoint y, getCardPoint z, getCardColor x]
        [getCardPoint x', getCardPoint y', getCardPoint z', getCardColor x'] = _
      rw [three, two, three', two']

theorem compareSameType_comm (t : HandTy) (s s' : Hand) : compareSameType t s' s = -compareSameType t s s' := by
  have first (l l' : List ℤ) (negated : l' = l.map Neg.neg) : firstDifference l' = -firstDifference l := by
    subst negated
    induction l with
    | nil => rfl
    | cons d ds ih =>
      rw [List.map_cons, firstDifference_cons, firstDifference_cons, ih]
      split_ifs <;> omega
  cases t <;> simp only [compareSameType, compareShunZi, compareShunJin, compareSanPai, compareDuiZi, compareJinHua,
    compareBaoZi]
  case tyNil | tysp235 => rfl
  case ty30 => exact (Int.neg_sub _ _).symm
  all_goals
    refine first _ _ ?_
    simp only [points, colors, List.map_cons, List.map_nil, List.cons.injEq, and_true]
    omega

/-! ## Any types -/

theorem plain_ne (t : HandTy) : plain t ≠ .tysp235 := by cases t <;> decide

theorem compareHandCards_comm (a b : Hand) (sp235 : Bool) : compareHandCards b a sp235 = -compareHandCards a b sp235 := by
  rw [compareHandCards, compareHandCards]
  obtain ⟨t, s⟩ := getHandCardsTypePrivate a
  obtain ⟨t', s'⟩ := getHandCardsTypePrivate b
  dsimp only
  have comm (t : HandTy) := compareSameType_comm t s s'
  cases sp235 <;> cases t <;> cases t' <;> simp [HandTy.rank, comm]
  all_goals split <;> rfl

/-- Without the rule for two, three and five, the types decide, and within one type what follows. -/
theorem compareHandCards_false (a b : Hand) : compareHandCards a b false =
    if plain (getHandCardsTypePrivate a).1 = plain (getHandCardsTypePrivate b).1 then
      compareSameType (plain (getHandCardsTypePrivate a).1) (getHandCardsTypePrivate a).2 (getHandCardsTypePrivate b).2
    else (plain (getHandCardsTypePrivate a).1).rank - (plain (getHandCardsTypePrivate b).1).rank := by
  rw [compareHandCards]
  obtain ⟨t, s⟩ := getHandCardsTypePrivate a
  obtain ⟨t', s'⟩ := getHandCardsTypePrivate b
  dsimp only
  cases t <;> cases t' <;> simp [plain, HandTy.rank]

theorem Shown.exists_rank (shown : Shown t s k) : ∃ n tail, k = n :: tail ∧ t.rank = n := by
  cases shown <;> exact ⟨_, _, rfl, rfl⟩

theorem rank_injective : Function.Injective HandTy.rank := by
  intro t t' same
  cases t <;> cases t' <;> first | rfl | exact absurd same (by decide)

/-- Hands are compared in the documented order. -/
theorem Dealt.compareHandCards_pos_iff (dealt : Dealt a) (dealt' : Dealt b) :
    0 < compareHandCards a b false ↔ documented b < documented a := by
  have shown := dealt.shown
  have shown' := dealt'.shown
  rw [compareHandCards_false]
  split
  next same =>
    rw [← same] at shown'
    exact shown.compareSameType_pos_iff shown'
  next differ =>
    obtain ⟨n, tail, eq, rank⟩ := shown.exists_rank
    obtain ⟨n', tail', eq', rank'⟩ := shown'.exists_rank
    have other : n' ≠ n := fun same => differ (rank_injective (by rw [rank, rank', same]))
    rw [rank, rank', eq, eq', List.cons_lt_cons_iff]
    simp [other]

/-- Two hands with the same numbers share a card, or all their cards have the same points. -/
theorem Shown.shared (shown : Shown t s k) (shown' : Shown t' s' k') (same : k = k') :
    (∃ w ∈ s, ∃ w' ∈ s', getCardPoint w = getCardPoint w' ∧ getCardColor w = getCardColor w')
      ∨ ∃ p, ∀ w ∈ s ++ s', getCardPoint w = p := by
  cases shown with
  | @baoZi x y z xy yz =>
    cases shown' <;> simp at same
    exact .inr ⟨getCardPoint x, by simp; omega⟩
  | @pair x y z w inside point color =>
    cases shown' <;> simp at same
    rename_i x' y' z' w' inside' point' color'
    exact .inl ⟨w, inside, w', inside', by omega, by omega⟩
  | @shunZi x y z | @shunZiA x y z | @jinHua x y z | @shunJin x y z | @shunJinA x y z | @sanPai x y z =>
    refine .inl ⟨x, List.mem_cons_self, ?_⟩
    cases shown' <;> simp at same
    all_goals exact ⟨_, List.mem_cons_self, by omega, by omega⟩

/-- The deck has only four cards of the same points. -/
theorem length_le_four {cards : List ℕ} {p : ℕ} (nodup : cards.Nodup) (deck : ∀ card ∈ cards, card ∈ cardListData)
    (same : ∀ card ∈ cards, getCardPoint card = p) : cards.length ≤ 4 := by
  have all : ∀ p < 15, (cardListData.filter fun card => getCardPoint card = p).length ≤ 4 := by decide
  have inside : cards.Subperm (cardListData.filter fun card => getCardPoint card = p) :=
    List.subperm_of_subset nodup fun card there => List.mem_filter.mpr ⟨deck card there, decide_eq_true (same card there)⟩
  rcases Nat.lt_or_ge p 15 with low | high
  · exact inside.length_le.trans (all p low)
  · cases cards with
    | nil => exact Nat.zero_le 4
    | cons card rest =>
      have range := getCardPoint_range (deck card List.mem_cons_self)
      have := same card List.mem_cons_self
      omega

theorem getHandCardsTypePrivate_perm (cards : Hand) : (getHandCardsTypePrivate cards).2.Perm cards := by
  have points := sortCards_perm getCardPoint cards
  rw [getHandCardsTypePrivate]
  dsimp only
  split_ifs
  all_goals first | exact points | exact (sortCards_perm getCardValue _).trans points

/-- Hands that share no card have different numbers. -/
theorem Dealt.documented_ne (dealt : Dealt a) (dealt' : Dealt b) (disjoint : a.Disjoint b) :
    documented a ≠ documented b := by
  intro same
  have perm := getHandCardsTypePrivate_perm a
  have perm' := getHandCardsTypePrivate_perm b
  rcases dealt.shown.shared dealt'.shown same with ⟨w, inside, w', inside', point, color⟩ | ⟨p, all⟩
  · rw [perm.mem_iff] at inside
    rw [perm'.mem_iff] at inside'
    obtain rfl := eq_of_point_color (dealt.deck w inside) (dealt'.deck w' inside') point color
    exact disjoint inside inside'
  · have nodup : (a ++ b).Nodup := List.Nodup.append dealt.nodup dealt'.nodup disjoint
    have few := length_le_four nodup
      (fun card there => (List.mem_append.mp there).elim (dealt.deck card) (dealt'.deck card))
      fun card there => all card ((perm.append perm').mem_iff.mpr there)
    rw [List.length_append, dealt.length, dealt'.length] at few
    omega

/-- Hands that share no card never tie. -/
theorem Dealt.compareHandCards_ne_zero (dealt : Dealt a) (dealt' : Dealt b) (disjoint : a.Disjoint b) :
    compareHandCards a b false ≠ 0 := by
  intro tie
  have first := mt (dealt.compareHandCards_pos_iff dealt').mpr
  have second := mt (dealt'.compareHandCards_pos_iff dealt).mpr
  rw [compareHandCards_comm a b] at second
  exact (lt_or_gt_of_ne (dealt.documented_ne dealt' disjoint)).elim (second (by omega)) (first (by omega))

/-! ## Two, three and five against three aces -/

/-- Two, three and five, not of one colour. -/
def Is235 (cards : Hand) : Prop :=
  (2 ∈ cards.map getCardPoint ∧ 3 ∈ cards.map getCardPoint ∧ 5 ∈ cards.map getCardPoint)
    ∧ ∃ card ∈ cards, ∃ card' ∈ cards, getCardColor card ≠ getCardColor card'

def IsAAA (cards : Hand) : Prop := ∀ card ∈ cards, getCardPoint card = 14

theorem Dealt.is235_iff (dealt : Dealt a) : (getHandCardsTypePrivate a).1 = .tysp235 ↔ Is235 a := by
  obtain ⟨x, y, z, sorted, xy, yz⟩ := dealt.exists_sorted
  have perm : [x, y, z].Perm a := sorted ▸ sortCards_perm getCardPoint a
  rw [Above] at xy yz
  have points : (2 ∈ a.map getCardPoint ∧ 3 ∈ a.map getCardPoint ∧ 5 ∈ a.map getCardPoint)
      ↔ getCardPoint x = 5 ∧ getCardPoint y = 3 ∧ getCardPoint z = 2 := by
    simp only [← (perm.map getCardPoint).mem_iff, List.map_cons, List.map_nil, List.mem_cons, List.not_mem_nil, or_false]
    omega
  have colors : (∃ card ∈ a, ∃ card' ∈ a, getCardColor card ≠ getCardColor card')
      ↔ ¬(getCardColor x = getCardColor y ∧ getCardColor y = getCardColor z) := by
    simp only [← perm.mem_iff]
    simp
    omega
  rw [Is235, points, colors, getHandCardsTypePrivate, sorted]
  simp only [List.getD_cons_zero, List.getD_cons_succ]
  constructor
  · intro special
    split_ifs at special with _ _ _ _ _ mixed low
    exact ⟨low, mixed⟩
  · rintro ⟨⟨px, py, pz⟩, mixed⟩
    simp [px, py, pz, mixed]

theorem Dealt.isAAA_iff (dealt : Dealt a) : (getHandCardsTypePrivate a).1 = .ty30
    ∧ getCardValue ((getHandCardsTypePrivate a).2.getD 0 0) = 1 ↔ IsAAA a := by
  obtain ⟨x, y, z, sorted, -, -⟩ := dealt.exists_sorted
  have perm : [x, y, z].Perm a := sorted ▸ sortCards_perm getCardPoint a
  have value : getCardValue x = 1 ↔ getCardPoint x = 14 := by
    have := getCardValue_eq (dealt.deck x (perm.subset List.mem_cons_self))
    have := getCardPoint_range (dealt.deck x (perm.subset List.mem_cons_self))
    split_ifs at * <;> omega
  have aces : IsAAA a ↔ getCardPoint x = 14 ∧ getCardPoint y = 14 ∧ getCardPoint z = 14 := by
    simp only [IsAAA, ← perm.mem_iff]
    simp
  rw [aces, getHandCardsTypePrivate, sorted]
  simp only [List.getD_cons_zero, List.getD_cons_succ]
  constructor
  · rintro ⟨three, ace⟩
    split_ifs at three with xy yz
    simp only [xy, yz, if_true, List.getD_cons_zero] at ace
    rw [value] at ace
    exact ⟨ace, by omega, by omega⟩
  · rintro ⟨px, py, pz⟩
    simp [px, py, pz, value]

/-- The rule for two, three and five. -/
theorem Dealt.compareHandCards_true (dealt : Dealt a) (dealt' : Dealt b) :
    (Is235 a ∧ IsAAA b → compareHandCards a b true = 1 ∧ compareHandCards a b false = -5)
      ∧ (IsAAA a ∧ Is235 b → compareHandCards a b true = -1 ∧ compareHandCards a b false = 5)
      ∧ (¬(Is235 a ∧ IsAAA b) → ¬(IsAAA a ∧ Is235 b) → compareHandCards a b true = compareHandCards a b false) := by
  rw [← dealt.is235_iff, ← dealt'.is235_iff, ← dealt.isAAA_iff, ← dealt'.isAAA_iff, compareHandCards, compareHandCards]
  obtain ⟨t, s⟩ := getHandCardsTypePrivate a
  obtain ⟨t', s'⟩ := getHandCardsTypePrivate b
  dsimp only
  refine ⟨?_, ?_, ?_⟩
  · rintro ⟨rfl, rfl, ace⟩
    simpa [HandTy.rank] using ace
  · rintro ⟨⟨rfl, ace⟩, rfl⟩
    simpa [HandTy.rank] using ace
  · intro first second
    cases t <;> cases t' <;> simp_all [HandTy.rank]

/-- Hands that share no card are in a strict total order, the documented one, whatever the order of their cards. The
rule for two, three and five turns their showdown with three aces around, and nothing else. -/
theorem showdown_order :
    (∀ a b, Dealt a → Dealt b → a.Disjoint b → compareHandCards a b false ≠ 0)
      ∧ (∀ a b, Dealt a → Dealt b → a.Disjoint b → (0 < compareHandCards a b false ↔ compareHandCards b a false < 0))
      ∧ (∀ a b c, Dealt a → Dealt b → Dealt c → a.Disjoint b → b.Disjoint c → a.Disjoint c →
        0 < compareHandCards a b false → 0 < compareHandCards b c false → 0 < compareHandCards a c false)
      ∧ (∀ a b a' b', Dealt a → Dealt b → a.Disjoint b → a'.Perm a → b'.Perm b → ∀ sp235,
        compareHandCards a' b' sp235 = compareHandCards a b sp235)
      ∧ (∀ a b, Dealt a → Dealt b → a.Disjoint b → (0 < compareHandCards a b false ↔ documented b < documented a))
      ∧ (∀ a b, Dealt a → Dealt b → a.Disjoint b → compareHandCards b a true = -compareHandCards a b true)
      ∧ (∀ a b, Dealt a → Dealt b → a.Disjoint b →
        (compareHandCards a b true ≠ compareHandCards a b false ↔ Is235 a ∧ IsAAA b ∨ IsAAA a ∧ Is235 b)
          ∧ (Is235 a → IsAAA b → 0 < compareHandCards a b true)) := by
  refine ⟨fun a b dealt dealt' disjoint => dealt.compareHandCards_ne_zero dealt' disjoint, ?_, ?_, ?_, ?_, ?_, ?_⟩
  · intro a b _ _ _
    rw [compareHandCards_comm a b, Int.neg_neg_iff_pos]
  · intro a b c dealt dealt' dealt'' _ _ _
    rw [dealt.compareHandCards_pos_iff dealt', dealt'.compareHandCards_pos_iff dealt'',
      dealt.compareHandCards_pos_iff dealt'']
    exact fun first second => second.trans first
  · intro a b a' b' dealt dealt' _ perm perm' sp235
    rw [compareHandCards, dealt.getHandCardsTypePrivate_eq perm, dealt'.getHandCardsTypePrivate_eq perm']
    rfl
  · exact fun a b dealt dealt' _ => dealt.compareHandCards_pos_iff dealt'
  · exact fun a b _ _ _ => compareHandCards_comm a b true
  · intro a b dealt dealt' _
    obtain ⟨wins, loses, same⟩ := dealt.compareHandCards_true dealt'
    refine ⟨⟨fun differ => ?_, ?_⟩, fun first second => ?_⟩
    · by_contra neither
      rw [not_or] at neither
      exact differ (same neither.1 neither.2)
    · rintro (special | special)
      · obtain ⟨first, second⟩ := wins special
        omega
      · obtain ⟨first, second⟩ := loses special
        omega
    · have := (wins ⟨first, second⟩).1
      omega

/-- Two, three and five of mixed colours beat three aces under their rule, and lose to them without it. -/
theorem showdown_order_235 : compareHandCards [0x05, 0x13, 0x02] [0x01, 0x11, 0x31] false ≠ 0
    ∧ 0 < compareHandCards [0x05, 0x13, 0x02] [0x01, 0x11, 0x31] true :=
  have dealt : Dealt [0x05, 0x13, 0x02] := ⟨by decide, by decide, by decide⟩
  have dealt' : Dealt [0x01, 0x11, 0x31] := ⟨by decide, by decide, by decide⟩
  ⟨showdown_order.1 _ _ dealt dealt' (by simp), (showdown_order.2.2.2.2.2.2 _ _ dealt dealt' (by simp)).2
    (by unfold Is235; decide) (by unfold IsAAA; decide)⟩

end H5Server.Zjh
