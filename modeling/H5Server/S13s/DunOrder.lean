import H5Server.S13s.DunTypes

/-! # The order of duns of one type

`CompareCards` reads the points of a dun group by group, larger groups first, and single cards from the highest one
down. Compared by that list, duns of one type are in a linear order of their points.
-/

namespace H5Server.S13s

open Lib

variable {dt : DunTy} {cards a b : List ℕ}

/-! ## Lists of points -/

theorem firstDiff_cons_self (p : ℕ) (src dst : List ℕ) : firstDiff (p :: src) (p :: dst) = firstDiff src dst :=
  if_neg (not_not_intro rfl)

theorem firstDiff_cons_of_ne {p q : ℕ} (differ : p ≠ q) (src dst : List ℕ) :
    firstDiff (p :: src) (q :: dst) = (p : ℤ) - q := if_pos differ

theorem firstDiff_swap (src dst : List ℕ) : firstDiff dst src = -firstDiff src dst := by
  induction src generalizing dst with
  | nil => cases dst <;> rfl
  | cons p src ih =>
    cases dst with
    | nil => rfl
    | cons q dst =>
      rcases eq_or_ne p q with rfl | differ
      · rw [firstDiff_cons_self, firstDiff_cons_self, ih]
      · rw [firstDiff_cons_of_ne differ, firstDiff_cons_of_ne differ.symm, neg_sub]

/-- Along lists of one length no difference gets lost. -/
theorem firstDiff_trans {x y z : List ℕ} (xy : x.length = y.length) (yz : y.length = z.length)
    (before : 0 ≤ firstDiff x y) (after : 0 ≤ firstDiff y z) :
    0 ≤ firstDiff x z ∧ (0 < firstDiff x y ∨ 0 < firstDiff y z → 0 < firstDiff x z) := by
  induction x generalizing y z with
  | nil =>
    obtain rfl := List.length_eq_zero_iff.mp xy.symm
    obtain rfl := List.length_eq_zero_iff.mp yz.symm
    exact ⟨le_rfl, fun either => either.elim id id⟩
  | cons p x ih =>
    obtain ⟨q, y, rfl⟩ := List.exists_cons_of_length_pos (xy ▸ Nat.succ_pos _ : 0 < y.length)
    obtain ⟨r, z, rfl⟩ := List.exists_cons_of_length_pos (yz ▸ Nat.succ_pos _ : 0 < z.length)
    rw [List.length_cons, List.length_cons, Nat.succ_inj] at xy yz
    rcases eq_or_ne p q with rfl | pq
    · rcases eq_or_ne p r with rfl | pr
      · rw [firstDiff_cons_self] at before after ⊢
        rw [firstDiff_cons_self, firstDiff_cons_self]
        exact ih xy yz before after
      · rw [firstDiff_cons_of_ne pr] at after ⊢
        exact ⟨after, fun _ => by omega⟩
    · rw [firstDiff_cons_of_ne pq] at before ⊢
      rcases eq_or_ne q r with rfl | qr
      · rw [firstDiff_cons_of_ne pq]
        exact ⟨before, fun _ => by omega⟩
      · rw [firstDiff_cons_of_ne qr] at after
        rw [firstDiff_cons_of_ne (by omega)]
        exact ⟨by omega, fun _ => by omega⟩

theorem firstDiff_replicate_append {k : ℕ} (positive : 0 < k) (p q : ℕ) (x y : List ℕ) :
    firstDiff (List.replicate k p ++ x) (List.replicate k q ++ y) =
      if p ≠ q then (p : ℤ) - q else firstDiff x y := by
  rcases eq_or_ne p q with rfl | differ
  · rw [if_neg (not_not_intro rfl)]
    clear positive
    induction k with
    | zero => rfl
    | succ k ih => rw [List.replicate_succ, List.cons_append, List.cons_append, firstDiff_cons_self, ih]
  · obtain ⟨k, rfl⟩ := Nat.exists_eq_succ_of_ne_zero positive.ne'
    rw [if_pos differ, List.replicate_succ, List.replicate_succ, List.cons_append, List.cons_append,
      firstDiff_cons_of_ne differ]

/-! ## The key of a dun -/

/-- Points of more cards come first, and of as many cards the higher ones. -/
def outranks (points : List ℕ) (p q : ℕ) : Prop :=
  points.count q < points.count p ∨ points.count p = points.count q ∧ q ≤ p

instance (points : List ℕ) : DecidableRel (outranks points) := fun p q =>
  inferInstanceAs (Decidable (points.count q < points.count p ∨ points.count p = points.count q ∧ q ≤ p))

instance (points : List ℕ) : Std.Total (outranks points) := ⟨fun p q => by simp only [outranks]; omega⟩

instance (points : List ℕ) : IsTrans ℕ (outranks points) := ⟨fun p q r => by simp only [outranks]; omega⟩

/-- The points of a dun by the sizes of their groups. -/
def rankKey (cards : List ℕ) : List ℕ := (cards.map getCardPoint).insertionSort (outranks (cards.map getCardPoint))

theorem rankKey_eq {points : List ℕ} (perm : points.Perm (cards.map getCardPoint))
    (sorted : points.Pairwise (outranks (cards.map getCardPoint))) : rankKey cards = points := by
  refine List.Perm.eq_of_pairwise (fun p q _ _ before after => ?_) (List.pairwise_insertionSort _ _) sorted
    ((List.perm_insertionSort _ _).trans perm.symm)
  simp only [outranks] at before after
  omega

theorem rankKey_congr (perm : a.Perm b) : rankKey a = rankKey b := by
  refine rankKey_eq ((List.perm_insertionSort _ _).trans (perm.map getCardPoint).symm) ?_
  have same : outranks (a.map getCardPoint) = outranks (b.map getCardPoint) := by
    funext p q
    simp only [outranks, (perm.map getCardPoint).count_eq]
  rw [same]
  exact List.pairwise_insertionSort _ _

theorem length_rankKey (cards : List ℕ) : (rankKey cards).length = cards.length := by
  rw [rankKey, List.length_insertionSort, List.length_map]

/-! ## Single cards -/

instance : Std.Total byCardPointColor := ⟨fun a b => by simp only [byCardPointColor]; omega⟩

instance : IsTrans ℕ byCardPointColor := ⟨fun a b c => by simp only [byCardPointColor]; omega⟩

/-- The points from the highest one down. -/
def falling (cards : List ℕ) : List ℕ := (sortCardsByPoint cards).reverse.map getCardPoint

theorem falling_perm (cards : List ℕ) : (falling cards).Perm (cards.map getCardPoint) :=
  ((List.reverse_perm _).trans (List.perm_insertionSort _ _)).map getCardPoint

theorem falling_sorted (cards : List ℕ) : (falling cards).Pairwise fun p q => q ≤ p := by
  rw [falling, List.pairwise_map, List.pairwise_reverse]
  refine (List.pairwise_insertionSort byCardPointColor cards).imp fun {x y} before => ?_
  rcases before with less | ⟨same, -⟩
  · exact less.le
  · exact same.le

theorem mem_falling {p : ℕ} : p ∈ falling cards ↔ ∃ x ∈ cards, getCardPoint x = p :=
  (falling_perm cards).mem_iff.trans List.mem_map

theorem falling_eq {points : List ℕ} (perm : points.Perm (cards.map getCardPoint))
    (sorted : points.Pairwise fun p q => q ≤ p) : falling cards = points :=
  ((falling_perm cards).trans perm.symm).eq_of_pairwise (fun _ _ _ _ before after => le_antisymm after before)
    (falling_sorted cards) sorted

theorem compareCardPointBy_eq (a b : List ℕ) : compareCardPointBy a b false = firstDiff (falling a) (falling b) := by
  show (if firstDiff (falling a) (falling b) ≠ 0 then firstDiff (falling a) (falling b) else _) = _
  rcases eq_or_ne (firstDiff (falling a) (falling b)) 0 with same | differ
  · rw [if_neg (not_not_intro same), same]
    rfl
  · exact if_pos differ

theorem falling_of_same (same : ∀ x ∈ cards, ∀ y ∈ cards, getCardPoint x = getCardPoint y) :
    falling cards = List.replicate cards.length (getCardPoint (cards.headD 0)) := by
  have length : (falling cards).length = cards.length := by rw [(falling_perm cards).length_eq, List.length_map]
  refine List.eq_replicate_iff.mpr ⟨length, fun p there => ?_⟩
  obtain ⟨x, inside, rfl⟩ := mem_falling.mp there
  cases cards with
  | nil => exact absurd inside List.not_mem_nil
  | cons y cards => exact same x inside y List.mem_cons_self

/-- Cards whose points are on equally many cards of the dun. -/
theorem falling_outranks {rest : List ℕ} {m : ℕ}
    (same : ∀ x ∈ rest, (cards.map getCardPoint).count (getCardPoint x) = m) :
    (falling rest).Pairwise (outranks (cards.map getCardPoint)) := by
  refine (falling_sorted rest).imp_of_mem fun {p q} here there below => .inr ⟨?_, below⟩
  obtain ⟨x, inside, rfl⟩ := mem_falling.mp here
  obtain ⟨y, inside', rfl⟩ := mem_falling.mp there
  rw [same x inside, same y inside']

/-! ## Groups -/

/-- The point of a value. -/
def pointOf (value : ℕ) : ℕ := if value = 0x01 then 0x0E else value

/-- The dun has a group of `k` cards for the comparison, and no larger one. -/
structure Led (cards : List ℕ) (k p : ℕ) (rest : List ℕ) : Prop where
  repeats : ∃ g, repeatsOf k 1 cards = some ([g], rest) ∧ groupPoint [g] 0 = p
  key : rankKey cards = List.replicate k p ++ falling rest
  length : k + rest.length = cards.length

/-- The cards that are in no group of `k`. -/
def others (cards : List ℕ) (k : ℕ) : List ℕ := ((blocks cards).filter (·.length ≠ k)).flatten

/-- The dun has two pairs for the comparison, and no larger group. -/
structure Paired (cards : List ℕ) (s p : ℕ) (rest : List ℕ) : Prop where
  repeats : ∃ groups, repeatsOf 2 2 cards = some (groups, rest) ∧ max (groupPoint groups 0) (groupPoint groups 1) = s
    ∧ min (groupPoint groups 0) (groupPoint groups 1) = p
  key : rankKey cards = List.replicate 2 s ++ (List.replicate 2 p ++ falling rest)
  length : 4 + rest.length = cards.length

section Groups

theorem number_pos {x : ℕ} (there : x ∈ cards) : 0 < number cards (getCardValue x) :=
  List.countP_pos_iff.mpr ⟨x, there, decide_eq_true rfl⟩

theorem map_block (value : ℕ) : (block cards value).map getCardPoint = List.replicate (number cards value) (pointOf value) := by
  rw [← length_block, ← List.length_map getCardPoint]
  refine List.eq_replicate_of_mem fun p there => ?_
  obtain ⟨x, inside, rfl⟩ := List.mem_map.mp there
  rw [← (mem_block.mp inside).2]
  rfl

theorem groupPoint_block (value : ℕ) (some_ : 0 < number cards value) (groups : List (List ℕ)) (i : ℕ)
    (here : groups.getD i [] = block cards value) : groupPoint groups i = pointOf value := by
  rw [groupPoint, here]
  obtain ⟨x, g, eq⟩ := List.exists_cons_of_length_pos (some_.trans_eq (length_block cards value).symm)
  rw [eq, List.headD_cons, ← (mem_block.mp (eq ▸ List.mem_cons_self : x ∈ block cards value)).2]
  rfl

variable (deck : ∀ card ∈ cards, card ∈ cardListData)

include deck

theorem count_point {x : ℕ} (there : x ∈ cards) :
    (cards.map getCardPoint).count (getCardPoint x) = number cards (getCardValue x) := by
  rw [List.count, List.countP_map, number]
  refine List.countP_congr fun y here => ?_
  rw [Function.comp_apply, beq_iff_eq, decide_eq_true_eq]
  exact point_eq_iff (deck y here) (deck x there)

/-- The groups of `k` are those of the values that often. -/
theorem groups_perm {k : ℕ} (two : 2 ≤ k) {values : List ℕ} (nodup : values.Nodup)
    (often : ∀ v, v ∈ values ↔ number cards v = k) :
    ((blocks cards).filter (·.length = k)).Perm (values.map (block cards)) := by
  have distinct : (values.map (block cards)).Nodup := by
    refine List.Nodup.map_on (fun v there w there' same => ?_) nodup
    obtain ⟨x, inside⟩ := List.exists_mem_of_length_pos
      (show 0 < (block cards v).length by rw [length_block, (often v).mp there]; omega)
    exact (mem_block.mp inside).2.symm.trans (mem_block.mp (same ▸ inside)).2
  refine (List.perm_ext_iff_of_nodup ((blocks_grouped cards).nodup.filter _) distinct).mpr fun g => ?_
  rw [List.mem_filter, mem_blocks deck, List.mem_map, decide_eq_true_eq]
  constructor
  · rintro ⟨⟨v, -, rfl⟩, length⟩
    exact ⟨v, (often v).mpr (length_block cards v ▸ length), rfl⟩
  · rintro ⟨v, there, rfl⟩
    have := (often v).mp there
    exact ⟨⟨v, by omega, rfl⟩, (length_block cards v).trans this⟩

theorem repeatsOf_eq {k : ℕ} (two : 2 ≤ k) (most : ∀ v, number cards v ≤ k) {values : List ℕ} (nodup : values.Nodup)
    (some_ : values ≠ []) (often : ∀ v, v ∈ values ↔ number cards v = k) :
    repeatsOf k values.length cards = some ((blocks cards).filter (·.length = k), others cards k) := by
  have fits : ∀ g ∈ blocks cards, g.length ≤ k := by
    intro g there
    obtain ⟨v, -, rfl⟩ := (mem_blocks deck).mp there
    exact length_block cards v ▸ most v
  have perm := groups_perm deck two nodup often
  have full : (blocks cards).filter (·.length = k) ≠ [] := by
    intro none_
    rw [none_, List.nil_perm, List.map_eq_nil_iff] at perm
    exact some_ perm
  have count : ((blocks cards).filter (·.length = k)).length = values.length := by rw [perm.length_eq, List.length_map]
  rw [repeatsOf, ← blocks_flatten deck, enumRepeatCards_groups two (blocks_grouped cards) fits, if_neg full]
  exact if_pos count

/-- The points of the groups and of the other cards are all. -/
theorem points_perm {k : ℕ} (two : 2 ≤ k) {values : List ℕ} (nodup : values.Nodup)
    (often : ∀ v, v ∈ values ↔ number cards v = k) :
    (cards.map getCardPoint).Perm (values.flatMap (fun v => List.replicate k (pointOf v)) ++ falling (others cards k)) := by
  have parts : cards.Perm (((blocks cards).filter (·.length = k)).flatten ++ others cards k) := by
    rw [others, ← List.flatten_append]
    refine (sortCards_perm cards).symm.trans ?_
    rw [← blocks_flatten deck]
    refine List.Perm.flatten ((List.filter_append_perm (·.length = k) (blocks cards)).symm.trans (.of_eq ?_))
    simp
  refine (parts.map getCardPoint).trans ?_
  rw [List.map_append]
  refine List.Perm.append (((groups_perm deck two nodup often).flatten.map getCardPoint).trans (.of_eq ?_))
    (falling_perm _).symm
  rw [← List.flatMap_def, List.map_flatMap]
  refine List.flatMap_congr fun v there => ?_
  rw [map_block, (often v).mp there]

theorem mem_others {k x : ℕ} (there : x ∈ others cards k) : x ∈ cards ∧ number cards (getCardValue x) ≠ k := by
  obtain ⟨g, here, inside⟩ := List.mem_flatten.mp there
  obtain ⟨here, other⟩ := List.mem_filter.mp here
  obtain ⟨v, -, rfl⟩ := (mem_blocks deck).mp here
  obtain ⟨present, rfl⟩ := mem_block.mp inside
  exact ⟨present, length_block cards _ ▸ of_decide_eq_true other⟩

/-- One group, and the other values equally often. -/
theorem led_of_number {k m v : ℕ} (two : 2 ≤ k) (here : number cards v = k) (less : m < k)
    (rest : ∀ w, w ≠ v → number cards w = 0 ∨ number cards w = m) : Led cards k (pointOf v) (others cards k) := by
  have often (w : ℕ) : w ∈ [v] ↔ number cards w = k := by
    rw [List.mem_singleton]
    constructor
    · rintro rfl
      exact here
    · intro many
      by_contra differ
      have := rest w differ
      omega
  have most (w : ℕ) : number cards w ≤ k := by
    rcases eq_or_ne w v with rfl | differ
    · exact here.le
    · have := rest w differ
      omega
  have perm := groups_perm deck two (List.nodup_singleton v) often
  rw [List.map_singleton, List.perm_singleton] at perm
  have points := points_perm deck two (List.nodup_singleton v) often
  rw [List.flatMap_singleton] at points
  refine ⟨⟨block cards v, ?_, ?_⟩, ?_, ?_⟩
  · rw [← perm]
    exact repeatsOf_eq deck two most (List.nodup_singleton v) (List.cons_ne_nil _ _) often
  · exact groupPoint_block v (by omega) _ 0 rfl
  · refine rankKey_eq points.symm (List.pairwise_append.mpr ⟨?_, ?_, ?_⟩)
    · exact List.pairwise_replicate.mpr (.inr (.inr ⟨rfl, le_rfl⟩))
    · refine falling_outranks (m := m) fun x there => ?_
      obtain ⟨present, other⟩ := mem_others deck there
      rw [count_point deck present]
      have differ : getCardValue x ≠ v := fun same => other (same ▸ here)
      have := number_pos present
      have := rest _ differ
      omega
    · intro p there q there'
      obtain rfl := List.eq_of_mem_replicate there
      obtain ⟨y, inside, rfl⟩ := mem_falling.mp there'
      obtain ⟨present, other⟩ := mem_others deck inside
      obtain ⟨x, present', value⟩ : ∃ x ∈ cards, getCardValue x = v := by
        obtain ⟨x, there, value⟩ := List.countP_pos_iff.mp (show 0 < number cards v by omega)
        exact ⟨x, there, of_decide_eq_true value⟩
      have differ : getCardValue y ≠ v := fun same => other (same ▸ here)
      have point : pointOf v = getCardPoint x := by rw [← value]; rfl
      refine .inl ?_
      rw [point, count_point deck present, count_point deck present', value, here]
      have := rest _ differ
      omega
  · have := points.length_eq
    rw [List.length_map, List.length_append, List.length_replicate, (falling_perm _).length_eq, List.length_map] at this
    exact this.symm

/-- Two pairs, and the other values once. -/
theorem paired_of_number {v w : ℕ} (higher : pointOf w < pointOf v) (first : number cards v = 2)
    (second : number cards w = 2) (rest : ∀ u, u ≠ v → u ≠ w → number cards u = 0 ∨ number cards u = 1) :
    Paired cards (pointOf v) (pointOf w) (others cards 2) := by
  have differ : v ≠ w := by
    rintro rfl
    exact higher.false
  have nodup : [v, w].Nodup := by simpa using differ
  have often (u : ℕ) : u ∈ [v, w] ↔ number cards u = 2 := by
    rw [List.mem_pair]
    constructor
    · rintro (rfl | rfl)
      · exact first
      · exact second
    · intro many
      by_contra other
      push Not at other
      have := rest u other.1 other.2
      omega
  have most (u : ℕ) : number cards u ≤ 2 := by
    rcases Classical.em (u ∈ [v, w]) with there | other
    · exact ((often u).mp there).le
    · rw [List.mem_pair] at other
      push Not at other
      have := rest u other.1 other.2
      omega
  have card {u : ℕ} (there : u ∈ [v, w]) : ∃ x ∈ cards, getCardPoint x = pointOf u ∧ getCardValue x = u := by
    have many := (often u).mp there
    obtain ⟨x, present, value⟩ := List.countP_pos_iff.mp (show 0 < number cards u by omega)
    have value := of_decide_eq_true value
    exact ⟨x, present, by rw [← value]; rfl, value⟩
  have counted {u : ℕ} (there : u ∈ [v, w]) : (cards.map getCardPoint).count (pointOf u) = 2 := by
    obtain ⟨x, present, point, value⟩ := card there
    rw [← point, count_point deck present, value, (often u).mp there]
  have single {x : ℕ} (there : x ∈ others cards 2) : (cards.map getCardPoint).count (getCardPoint x) = 1 := by
    obtain ⟨present, other⟩ := mem_others deck there
    rw [count_point deck present]
    have := number_pos present
    have := most (getCardValue x)
    omega
  have perm := groups_perm deck le_rfl nodup often
  have points := points_perm deck le_rfl nodup often
  rw [List.flatMap_cons, List.flatMap_singleton, List.append_assoc] at points
  have outside : ∀ p ∈ [v, w], ∀ q ∈ falling (others cards 2), outranks (cards.map getCardPoint) (pointOf p) q := by
    intro u there q inside
    obtain ⟨x, here, rfl⟩ := mem_falling.mp inside
    refine .inl ?_
    rw [counted there, single here]
    exact Nat.one_lt_two
  have order : [v, w].map (block cards) = [block cards v, block cards w] := rfl
  refine ⟨⟨_, repeatsOf_eq deck le_rfl most nodup (List.cons_ne_nil _ _) often, ?_⟩, ?_, ?_⟩
  · obtain ⟨g, g', eq⟩ := List.length_eq_two.mp (perm.length_eq.trans (by rw [order]; rfl))
    rw [eq] at perm ⊢
    rw [order] at perm
    rcases List.mem_pair.mp (perm.mem_iff.mp (List.mem_cons_self : g ∈ [g, g'])) with rfl | rfl
    · obtain rfl := List.singleton_perm_singleton.mp (perm.cons_inv)
      rw [groupPoint_block v (by omega) _ 0 rfl, groupPoint_block w (by omega) _ 1 rfl]
      exact ⟨max_eq_left higher.le, min_eq_right higher.le⟩
    · obtain rfl := List.singleton_perm_singleton.mp ((perm.trans (List.Perm.swap _ _ _)).cons_inv)
      rw [groupPoint_block w (by omega) _ 0 rfl, groupPoint_block v (by omega) _ 1 rfl]
      exact ⟨max_eq_right higher.le, min_eq_left higher.le⟩
  · refine rankKey_eq points.symm (List.pairwise_append.mpr ⟨?_, List.pairwise_append.mpr ⟨?_, ?_, ?_⟩, ?_⟩)
    · exact List.pairwise_replicate.mpr (.inr (.inr ⟨rfl, le_rfl⟩))
    · exact List.pairwise_replicate.mpr (.inr (.inr ⟨rfl, le_rfl⟩))
    · exact falling_outranks fun x there => single there
    · intro p there q inside
      obtain rfl := List.eq_of_mem_replicate there
      exact outside w (List.mem_cons_of_mem v List.mem_cons_self) q inside
    · intro p there q inside
      obtain rfl := List.eq_of_mem_replicate there
      rcases List.mem_append.mp inside with same | inside
      · obtain rfl := List.eq_of_mem_replicate same
        refine .inr ⟨?_, higher.le⟩
        rw [counted List.mem_cons_self, counted (List.mem_cons_of_mem v List.mem_cons_self)]
      · exact outside v List.mem_cons_self q inside
  · have := points.length_eq
    rw [List.length_map, List.length_append, List.length_append, List.length_replicate, List.length_replicate,
      (falling_perm _).length_eq, List.length_map] at this
    omega

theorem rankKey_of_number (once : ∀ v, number cards v ≤ 1) : rankKey cards = falling cards := by
  have single : ∀ x ∈ cards, (cards.map getCardPoint).count (getCardPoint x) = 1 := by
    intro x there
    rw [count_point deck there]
    exact le_antisymm (once _) (number_pos there)
  exact rankKey_eq (falling_perm cards) (falling_outranks single)

end Groups

/-! ## The groups of each type -/

section Shapes

variable {ty : HandTy} (dun : IsDun dt cards)

include dun

theorem IsDun.three_or_five : cards.length = 3 ∨ cards.length = 5 := by
  rw [dun.length]
  cases dt
  · exact .inl rfl
  · exact .inr rfl
  · exact .inr rfl

theorem led_of_ty20 (has : HasType cards .ty20) (no22 : ¬HasType cards .ty22) (no30 : ¬HasType cards .ty30) :
    ∃ p, Led cards 2 p (others cards 2) := by
  obtain ⟨v, two⟩ := has
  refine ⟨pointOf v, led_of_number dun.deck le_rfl (le_antisymm ?_ two) Nat.one_lt_two fun w differ => ?_⟩
  · by_contra three
    exact no30 ⟨v, by omega⟩
  · by_contra other
    exact no22 ⟨v, w, differ.symm, two, by omega⟩

theorem led_of_ty30 (has : HasType cards .ty30) (no32 : ¬HasType cards .ty32) (no40 : ¬HasType cards .ty40) :
    ∃ p, Led cards 3 p (others cards 3) := by
  obtain ⟨v, three⟩ := has
  refine ⟨pointOf v, led_of_number (m := 1) dun.deck (by norm_num) (le_antisymm ?_ three) (by norm_num)
    fun w differ => ?_⟩
  · by_contra four
    exact no40 ⟨v, by omega⟩
  · by_contra other
    exact no32 ⟨v, w, differ.symm, three, by omega⟩

theorem led_of_ty40 (has : HasType cards .ty40) : ∃ p, Led cards 4 p (others cards 4) := by
  obtain ⟨v, four⟩ := has
  refine ⟨pointOf v, led_of_number (m := 1) dun.deck (by norm_num)
    (le_antisymm (number_le_four dun.nodup dun.deck v) four) (by norm_num) fun w differ => ?_⟩
  have := number_add_le cards differ.symm
  have := dun.three_or_five
  omega

/-- Behind the three of a full house stands one pair. -/
theorem led_of_ty32 (has : HasType cards .ty32) :
    (∃ p, Led cards 3 p (others cards 3)) ∧ ∀ x ∈ others cards 3, ∀ y ∈ others cards 3, getCardPoint x = getCardPoint y := by
  obtain ⟨v, w, differ, three, two⟩ := has
  have size := dun.three_or_five
  have most := number_add_le cards differ
  have third (u : ℕ) (other : u ≠ v) (other' : u ≠ w) : number cards u = 0 := by
    have := number_add_add_le cards differ other.symm other'.symm
    omega
  have here : number cards v = 3 := by omega
  refine ⟨⟨pointOf v, led_of_number (m := 2) dun.deck (by norm_num) here (by norm_num) fun u other => ?_⟩, ?_⟩
  · rcases eq_or_ne u w with rfl | other'
    · exact .inr (by omega)
    · exact .inl (third u other other')
  · have pair : ∀ x ∈ others cards 3, getCardValue x = w := by
      intro x there
      obtain ⟨present, other⟩ := mem_others dun.deck there
      by_contra differ
      have := third (getCardValue x) (fun same => other (by rw [same, here])) differ
      have := number_pos present
      omega
    intro x there y there'
    rw [getCardPoint, getCardPoint, pair x there, pair y there']

theorem paired_of_ty22 (has : HasType cards .ty22) (no30 : ¬HasType cards .ty30) :
    ∃ s p, Paired cards s p (others cards 2) := by
  obtain ⟨v, w, differ, first, second⟩ := has
  have exactly {u : ℕ} (two : 2 ≤ number cards u) : number cards u = 2 := by
    by_contra other
    exact no30 ⟨u, by omega⟩
  have size := dun.three_or_five
  have rest (u : ℕ) (other : u ≠ v) (other' : u ≠ w) : number cards u = 0 ∨ number cards u = 1 := by
    have := number_add_add_le cards differ other.symm other'.symm
    omega
  have bound {u : ℕ} (two : 2 ≤ number cards u) : 1 ≤ u ∧ u ≤ 13 := by
    by_contra outside
    have none_ : number cards u = 0 := number_eq_zero dun.deck fun inside => by
      have := List.mem_range'_1.mp inside
      omega
    omega
  rcases lt_trichotomy (pointOf w) (pointOf v) with higher | same | lower
  · exact ⟨_, _, paired_of_number dun.deck higher (exactly first) (exactly second) rest⟩
  · have := bound first
    have := bound second
    rw [pointOf, pointOf] at same
    split_ifs at same <;> omega
  · exact ⟨_, _, paired_of_number dun.deck lower (exactly second) (exactly first) fun u other other' =>
      rest u other' other⟩

omit dun in
theorem number_of_no20 (no20 : ¬HasType cards .ty20) (v : ℕ) : number cards v ≤ 1 := by
  by_contra two
  exact no20 ⟨v, by omega⟩

omit dun in
theorem number_of_nodup (different : (cards.map getCardValue).Nodup) (v : ℕ) : number cards v ≤ 1 := by
  have := List.nodup_iff_count_le_one.mp different v
  rwa [List.count, List.countP_map] at this

end Shapes

/-! ## `CompareCards` -/

section Compare

theorem compareRest_eq {src dst : List ℕ} (length : src.length = dst.length) (compare : ℤ)
    (eq : src ≠ [] → compare = firstDiff (falling src) (falling dst)) :
    compareRest true src dst compare = firstDiff (falling src) (falling dst) := by
  cases src with
  | nil =>
    obtain rfl := List.length_eq_zero_iff.mp length.symm
    rfl
  | cons x src =>
    obtain ⟨y, dst, rfl⟩ := List.exists_cons_of_length_pos (length ▸ Nat.succ_pos _ : 0 < dst.length)
    rw [compareRest, if_pos ⟨rfl, List.cons_ne_nil _ _, List.cons_ne_nil _ _⟩]
    exact eq (List.cons_ne_nil _ _)

/-- Of cards of one point the first says all. -/
theorem single_eq {src dst : List ℕ} (some_ : src ≠ []) (length : src.length = dst.length)
    (same : ∀ x ∈ src, ∀ y ∈ src, getCardPoint x = getCardPoint y)
    (same' : ∀ x ∈ dst, ∀ y ∈ dst, getCardPoint x = getCardPoint y) :
    (getCardPoint (src.headD 0) : ℤ) - getCardPoint (dst.headD 0) = firstDiff (falling src) (falling dst) := by
  rw [falling_of_same same, falling_of_same same', ← length, ← List.append_nil (List.replicate _ _),
    ← List.append_nil (List.replicate _ (getCardPoint (dst.headD 0))),
    firstDiff_replicate_append (List.length_pos_of_ne_nil some_)]
  split_ifs with differ
  · rfl
  · rw [not_not.mp differ, sub_self]
    rfl

theorem same_of_length_one {l : List ℕ} (one : l.length = 1) : ∀ x ∈ l, ∀ y ∈ l, getCardPoint x = getCardPoint y := by
  obtain ⟨z, rfl⟩ := List.length_eq_one_iff.mp one
  intro x there y there'
  rw [List.mem_singleton.mp there, List.mem_singleton.mp there']

variable {k p q s t : ℕ} {r r' : List ℕ} {ty : HandTy}

theorem Led.firstDiff_eq (led : Led a k p r) (led' : Led b k q r') (positive : 0 < k) :
    firstDiff (rankKey a) (rankKey b) = if p ≠ q then (p : ℤ) - q else firstDiff (falling r) (falling r') := by
  rw [led.key, led'.key, firstDiff_replicate_append positive]

/-- `CompareCards` is the first difference of the keys. -/
theorem compareCards_eq (dunA : IsDun dt a) (dunB : IsDun dt b) (tyA : getDunCardHandTy dt a = some ty)
    (tyB : getDunCardHandTy dt b = some ty) :
    compareCards a b false ty true true true = some (firstDiff (rankKey a) (rankKey b)) := by
  have strongest {c : List ℕ} (dun : IsDun dt c) (tyC : getDunCardHandTy dt c = some ty) :
      HasType c ty ∧ ∀ ty', ty.rank < ty'.rank → ¬HasType c ty' := by
    obtain ⟨ty', eq, has, most⟩ := getDunCardHandTy_strongest dun
    obtain rfl := Option.some.inj (tyC.symm.trans eq)
    exact ⟨has, fun ty' higher has' => absurd (most ty' has') higher.not_ge⟩
  obtain ⟨hasA, noneA⟩ := strongest dunA tyA
  obtain ⟨hasB, noneB⟩ := strongest dunB tyB
  have length : a.length = b.length := dunA.length.trans dunB.length.symm
  have plain (onceA : ∀ v, number a v ≤ 1) (onceB : ∀ v, number b v ≤ 1) :
      some (compareCardPointBy a b false) = some (firstDiff (rankKey a) (rankKey b)) := by
    rw [compareCardPointBy_eq, rankKey_of_number dunA.deck onceA, rankKey_of_number dunB.deck onceB]
  cases ty with
  | tysp =>
    exact plain (number_of_no20 (noneA .ty20 (by decide))) (number_of_no20 (noneB .ty20 (by decide)))
  | ty123 => exact plain (number_of_nodup hasA.nodup) (number_of_nodup hasB.nodup)
  | tysc =>
    exact plain (number_of_nodup (hasA.nodup dunA.nodup dunA.deck)) (number_of_nodup (hasB.nodup dunB.nodup dunB.deck))
  | ty123sc => exact plain (number_of_nodup hasA.1.nodup) (number_of_nodup hasB.1.nodup)
  | ty20 =>
    obtain ⟨p, ledA⟩ := led_of_ty20 dunA hasA (noneA .ty22 (by decide)) (noneA .ty30 (by decide))
    obtain ⟨q, ledB⟩ := led_of_ty20 dunB hasB (noneB .ty22 (by decide)) (noneB .ty30 (by decide))
    obtain ⟨⟨g, repeatsA, rfl⟩, -, sizeA⟩ := id ledA
    obtain ⟨⟨g', repeatsB, rfl⟩, -, sizeB⟩ := id ledB
    rw [ledA.firstDiff_eq ledB two_pos, ← compareRest_eq (by omega) _ fun _ => compareCardPointBy_eq _ _]
    simp only [compareCards, repeatsA, repeatsB, Option.bind_eq_bind, Option.bind_some]
  | ty30 =>
    obtain ⟨p, ledA⟩ := led_of_ty30 dunA hasA (noneA .ty32 (by decide)) (noneA .ty40 (by decide))
    obtain ⟨q, ledB⟩ := led_of_ty30 dunB hasB (noneB .ty32 (by decide)) (noneB .ty40 (by decide))
    obtain ⟨⟨g, repeatsA, rfl⟩, -, sizeA⟩ := id ledA
    obtain ⟨⟨g', repeatsB, rfl⟩, -, sizeB⟩ := id ledB
    rw [ledA.firstDiff_eq ledB three_pos, ← compareRest_eq (by omega) _ fun _ => compareCardPointBy_eq _ _]
    simp only [compareCards, repeatsA, repeatsB, Option.bind_eq_bind, Option.bind_some]
  | ty40 =>
    obtain ⟨p, ledA⟩ := led_of_ty40 dunA hasA
    obtain ⟨q, ledB⟩ := led_of_ty40 dunB hasB
    obtain ⟨⟨g, repeatsA, rfl⟩, -, sizeA⟩ := id ledA
    obtain ⟨⟨g', repeatsB, rfl⟩, -, sizeB⟩ := id ledB
    have size := dunA.three_or_five
    rw [ledA.firstDiff_eq ledB four_pos, ← compareRest_eq (by omega) _ fun some_ => single_eq some_ (by omega)
      (same_of_length_one (by omega)) (same_of_length_one (by omega))]
    simp only [compareCards, repeatsA, repeatsB, Option.bind_eq_bind, Option.bind_some]
  | ty32 =>
    obtain ⟨⟨p, ledA⟩, sameA⟩ := led_of_ty32 dunA hasA
    obtain ⟨⟨q, ledB⟩, sameB⟩ := led_of_ty32 dunB hasB
    obtain ⟨⟨g, repeatsA, rfl⟩, -, sizeA⟩ := id ledA
    obtain ⟨⟨g', repeatsB, rfl⟩, -, sizeB⟩ := id ledB
    have pair : others a 3 ≠ [] := by
      obtain ⟨v, w, differ, three, two⟩ := hasA
      have := number_add_le a differ
      exact List.ne_nil_of_length_pos (by omega)
    rw [ledA.firstDiff_eq ledB three_pos, ← single_eq pair (by omega) sameA sameB]
    simp only [compareCards, repeatsA, repeatsB, Option.bind_eq_bind, Option.bind_some, if_true]
  | ty22 =>
    obtain ⟨s, p, pairedA⟩ := paired_of_ty22 dunA hasA (noneA .ty30 (by decide))
    obtain ⟨t, q, pairedB⟩ := paired_of_ty22 dunB hasB (noneB .ty30 (by decide))
    obtain ⟨⟨g, repeatsA, rfl, rfl⟩, keyA, sizeA⟩ := pairedA
    obtain ⟨⟨g', repeatsB, rfl, rfl⟩, keyB, sizeB⟩ := pairedB
    have size := dunA.three_or_five
    rw [keyA, keyB, firstDiff_replicate_append two_pos, firstDiff_replicate_append two_pos,
      ← compareRest_eq (by omega) _ fun some_ => single_eq some_ (by omega) (same_of_length_one (by omega))
        (same_of_length_one (by omega))]
    simp only [compareCards, repeatsA, repeatsB, Option.bind_eq_bind, Option.bind_some, true_and]
  | _ => exact absurd hasA id

end Compare

/-! ## Straights -/

/-- The place of a straight by its highest point; the one from the ace up is only below the one up to the ace. -/
def straightPlace (cards : List ℕ) : ℕ :=
  if 14 ∈ cards.map getCardPoint then if 13 ∈ cards.map getCardPoint then 15 else 14
  else (cards.map getCardPoint).foldr max 0

section Straights

theorem foldr_max_range' (low m : ℕ) : (List.range' low (m + 1)).foldr max 0 = low + m := by
  induction m generalizing low with
  | zero => simp
  | succ m ih =>
    rw [List.range'_succ, List.foldr_cons, ih]
    omega

/-- The points of a straight follow each other, but for the one from the ace up. -/
theorem Straight.points {m : ℕ} (straight : Straight cards) (deck : ∀ card ∈ cards, card ∈ cardListData)
    (length : cards.length = m + 2) :
    (∃ low, 2 ≤ low ∧ low + m + 1 ≤ 14 ∧ (cards.map getCardPoint).Perm (List.range' low (m + 2)))
      ∨ (cards.map getCardPoint).Perm (14 :: List.range' 2 (m + 1)) := by
  obtain ⟨low, values | points⟩ := straight
  · rw [length] at values
    have bound : ∀ v ∈ List.range' low (m + 2), 1 ≤ v ∧ v ≤ 13 := by
      intro v there
      obtain ⟨x, present, rfl⟩ := List.mem_map.mp (values.mem_iff.mpr there)
      exact value_of_mem (deck x present)
    have first := bound low (List.mem_range'_1.mpr (by omega))
    have last := bound (low + m + 1) (List.mem_range'_1.mpr (by omega))
    have points : (cards.map getCardPoint).Perm ((List.range' low (m + 2)).map pointOf) := by
      have := values.map pointOf
      rwa [List.map_map] at this
    have higher {low n : ℕ} (two : 2 ≤ low) : (List.range' low n).map pointOf = List.range' low n := by
      refine (List.map_congr_left fun v there => ?_).trans (List.map_id _)
      have := (List.mem_range'_1.mp there).1
      exact if_neg (by omega)
    rcases eq_or_ne low 1 with rfl | other
    · right
      rw [List.range'_succ, List.map_cons, higher (by norm_num)] at points
      exact points
    · left
      rw [higher (by omega)] at points
      exact ⟨low, by omega, by omega, points⟩
  · left
    rw [length] at points
    have bound : ∀ p ∈ List.range' low (m + 2), 2 ≤ p ∧ p ≤ 14 := by
      intro p there
      obtain ⟨x, present, rfl⟩ := List.mem_map.mp (points.mem_iff.mpr there)
      have := value_of_mem (deck x present)
      rw [getCardPoint]
      split_ifs <;> omega
    have first := bound low (List.mem_range'_1.mpr (by omega))
    have last := bound (low + m + 1) (List.mem_range'_1.mpr (by omega))
    exact ⟨low, by omega, by omega, points⟩

theorem reverse_range' (low m : ℕ) :
    (List.range' low (m + 2)).reverse = (low + m + 1) :: (low + m) :: (List.range' low m).reverse := by
  rw [List.range'_1_concat, List.range'_1_concat, List.reverse_append, List.reverse_append]
  rfl

/-- The points of a straight from the highest one down, and its place. -/
theorem Straight.falling {m : ℕ} (straight : Straight cards) (deck : ∀ card ∈ cards, card ∈ cardListData)
    (length : cards.length = m + 3) (few : m ≤ 8) :
    (∃ low, 2 ≤ low ∧ low + m + 2 ≤ 14 ∧ falling cards = (List.range' low (m + 3)).reverse
        ∧ straightPlace cards = if low + m + 2 = 14 then 15 else low + m + 2)
      ∨ falling cards = 14 :: (List.range' 2 (m + 2)).reverse ∧ straightPlace cards = 14 := by
  rcases straight.points deck length with ⟨low, two, high, points⟩ | points
  · left
    refine ⟨low, two, by omega, falling_eq ?_ ?_, ?_⟩
    · exact (List.reverse_perm _).trans points.symm
    · exact List.pairwise_reverse.mpr (List.Pairwise.imp le_of_lt List.pairwise_lt_range')
    · have top : List.foldr max 0 (cards.map getCardPoint) = low + (m + 2) := by
        rw [points.foldr_eq, foldr_max_range']
      rw [straightPlace, top]
      simp only [points.mem_iff, List.mem_range'_1]
      split_ifs <;> omega
  · right
    refine ⟨falling_eq ?_ ?_, ?_⟩
    · exact ((List.reverse_perm _).cons 14).trans points.symm
    · refine List.pairwise_cons.mpr ⟨fun p there => ?_, List.pairwise_reverse.mpr (List.Pairwise.imp le_of_lt List.pairwise_lt_range')⟩
      rw [List.mem_reverse, List.mem_range'_1] at there
      omega
    · have king : 13 ∉ cards.map getCardPoint := by
        rw [points.mem_iff, List.mem_cons, List.mem_range'_1]
        omega
      rw [straightPlace, if_pos (points.mem_iff.mpr List.mem_cons_self), if_neg king]

/-- Straights are compared by their places. -/
theorem firstDiff_straight {m : ℕ} (straightA : Straight a) (straightB : Straight b)
    (deckA : ∀ card ∈ a, card ∈ cardListData) (deckB : ∀ card ∈ b, card ∈ cardListData)
    (lengthA : a.length = m + 3) (lengthB : b.length = m + 3) (few : m ≤ 8) :
    0 < firstDiff (falling a) (falling b) ↔ straightPlace b < straightPlace a := by
  have self (l : List ℕ) : firstDiff l l = 0 := by
    have := firstDiff_swap l l
    omega
  rcases straightA.falling deckA lengthA few with ⟨low, two, high, eq, place⟩ | ⟨eq, place⟩
  · rcases straightB.falling deckB lengthB few with ⟨low', two', high', eq', place'⟩ | ⟨eq', place'⟩
    · rw [eq, eq', place, place', reverse_range', reverse_range']
      rcases eq_or_ne low low' with rfl | differ
      · rw [self]
        simp
      · rw [firstDiff_cons_of_ne (by omega)]
        split_ifs <;> omega
    · rw [eq, eq', place, place', reverse_range', reverse_range']
      rcases eq_or_ne (low + m + 2) 14 with top | below
      · rw [show low + (m + 1) + 1 = 14 by omega, firstDiff_cons_self, firstDiff_cons_of_ne (by omega), if_pos top]
        omega
      · rw [firstDiff_cons_of_ne (by omega), if_neg below]
        omega
  · rcases straightB.falling deckB lengthB few with ⟨low', two', high', eq', place'⟩ | ⟨eq', place'⟩
    · rw [eq, eq', place, place', reverse_range', reverse_range']
      rcases eq_or_ne (low' + m + 2) 14 with top | below
      · rw [show low' + (m + 1) + 1 = 14 by omega, firstDiff_cons_self, firstDiff_cons_of_ne (by omega), if_pos top]
        omega
      · rw [firstDiff_cons_of_ne (by omega), if_neg below]
        omega
    · rw [eq, eq', place, place', self]
      simp

end Straights

/-- The type of a dun does not depend on the order of its cards. -/
theorem getDunCardHandTy_congr (dun : IsDun dt a) (perm : a.Perm b) : getDunCardHandTy dt a = getDunCardHandTy dt b := by
  rw [getDunCardHandTy, getDunCardHandTy, sortCards_congr dun.deck perm, perm.length_eq]

theorem IsDun.congr (dun : IsDun dt a) (perm : a.Perm b) : IsDun dt b :=
  ⟨perm.length_eq.symm.trans dun.length, perm.nodup_iff.mp dun.nodup, fun card there => dun.deck card (perm.mem_iff.mpr there)⟩

/-- Every dun is typed by the strongest type it has, and duns of a type are compared by their points: those of larger
groups first, single ones from the highest down. -/
theorem duns_exact (dunA : IsDun dt a) (dunB : IsDun dt b) {c : List ℕ} (dunC : IsDun dt c) :
    (∃ ty, getDunCardHandTy dt a = some ty ∧ HasType a ty ∧ ∀ ty', HasType a ty' → ty'.rank ≤ ty.rank)
      ∧ ∀ ty, getDunCardHandTy dt a = some ty → getDunCardHandTy dt b = some ty → getDunCardHandTy dt c = some ty →
        ∃ x y z, compareCards a b false ty true true true = some x ∧ compareCards b c false ty true true true = some y
          ∧ compareCards a c false ty true true true = some z ∧ x = firstDiff (rankKey a) (rankKey b)
          ∧ (∀ a' b', a.Perm a' → b.Perm b' → compareCards a' b' false ty true true true = some x)
          ∧ compareCards b a false ty true true true = some (-x)
          ∧ (0 ≤ x → 0 ≤ y → 0 ≤ z ∧ (0 < x ∨ 0 < y → 0 < z))
          ∧ (ty = .ty123 ∨ ty = .ty123sc → (0 < x ↔ straightPlace b < straightPlace a)) := by
  refine ⟨getDunCardHandTy_strongest dunA, fun ty tyA tyB tyC => ?_⟩
  refine ⟨_, _, _, compareCards_eq dunA dunB tyA tyB, compareCards_eq dunB dunC tyB tyC,
    compareCards_eq dunA dunC tyA tyC, rfl, ?_, ?_, ?_, ?_⟩
  · intro a' b' permA permB
    rw [compareCards_eq (dunA.congr permA) (dunB.congr permB) (getDunCardHandTy_congr dunA permA ▸ tyA)
      (getDunCardHandTy_congr dunB permB ▸ tyB), rankKey_congr permA, rankKey_congr permB]
  · rw [compareCards_eq dunB dunA tyB tyA, firstDiff_swap]
  · refine firstDiff_trans ?_ ?_
    · rw [length_rankKey, length_rankKey, dunA.length, dunB.length]
    · rw [length_rankKey, length_rankKey, dunB.length, dunC.length]
  · intro run
    have straight {d : List ℕ} (dun : IsDun dt d) (tyD : getDunCardHandTy dt d = some ty) : Straight d := by
      obtain ⟨ty', eq, has, -⟩ := getDunCardHandTy_strongest dun
      obtain rfl := Option.some.inj (tyD.symm.trans eq)
      rcases run with rfl | rfl
      · exact has
      · exact has.1
    have straightA := straight dunA tyA
    have straightB := straight dunB tyB
    rw [rankKey_of_number dunA.deck (number_of_nodup straightA.nodup),
      rankKey_of_number dunB.deck (number_of_nodup straightB.nodup)]
    have size := dunA.three_or_five
    have length := dunA.length.trans dunB.length.symm
    obtain ⟨m, eq⟩ : ∃ m, a.length = m + 3 := ⟨a.length - 3, by omega⟩
    exact firstDiff_straight straightA straightB dunA.deck dunB.deck eq (length ▸ eq) (by omega)

/-- Three straights: up to the ace, from the ace up, and up to the king. -/
theorem duns_exact_straights :
    ∃ x y z, compareCards [0x21, 0x1A, 0x1D, 0x3C, 0x1B] [0x11, 0x32, 0x13, 0x15, 0x14] false .ty123 true true true = some x
      ∧ compareCards [0x11, 0x32, 0x13, 0x15, 0x14] [0x4D, 0x39, 0x2A, 0x2B, 0x2C] false .ty123 true true true = some y
      ∧ compareCards [0x21, 0x1A, 0x1D, 0x3C, 0x1B] [0x4D, 0x39, 0x2A, 0x2B, 0x2C] false .ty123 true true true = some z
      ∧ (0 ≤ x → 0 ≤ y → 0 ≤ z ∧ (0 < x ∨ 0 < y → 0 < z)) ∧ 0 < x := by
  have dunA : IsDun .dunLast [0x21, 0x1A, 0x1D, 0x3C, 0x1B] := ⟨rfl, by decide, by decide⟩
  have dunB : IsDun .dunLast [0x11, 0x32, 0x13, 0x15, 0x14] := ⟨rfl, by decide, by decide⟩
  have dunC : IsDun .dunLast [0x4D, 0x39, 0x2A, 0x2B, 0x2C] := ⟨rfl, by decide, by decide⟩
  obtain ⟨x, y, z, ab, bc, ac, -, -, -, trans, place⟩ :=
    (duns_exact dunA dunB dunC).2 .ty123 (by decide +kernel) (by decide +kernel) (by decide +kernel)
  exact ⟨x, y, z, ab, bc, ac, trans, (place (.inl rfl)).mpr (by decide)⟩

end H5Server.S13s
