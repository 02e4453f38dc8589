import H5Server.S13s.Choices
import H5Server.S13s.DunOrder
import H5Server.S13s.Scoring
import Mathlib.Algebra.Ring.CharZero
import Mathlib.Data.Prod.Lex

/-! # Ranking arrangements by the water they win (`CompareCardsByScore`)

Two arrangements are compared as at a table of two, and between equal scores by the types of their duns. That is no
order in general: three arrangements may beat each other in turn.
-/

namespace H5Server.S13s

open Lib

/-- `CompareCards` of two duns of a type, without colours; a failed assertion counts as a draw. -/
def comparePoints (src dst : List ℕ) (ty : HandTy) : ℤ := (compareCards src dst false ty true true true).getD 0

/-- The table of `CompareCardsByScore`, which scores like `StartCompareCards`. -/
def pairTable (psrc pdst : GroupDun) : Showdown where
  gamePlayer := 2
  isExistUser _ := true
  selected i := if i = 0 then psrc else pdst
  compareCards := comparePoints

/-- The types of the duns as the comparison leaves them: it writes that of an ordinary front. -/
def leftTy (g peer : GroupDun) : DunTy → HandTy
  | .dunFirst =>
    if g.specialTy.special || peer.specialTy.special then (g.duns .dunFirst).ty else headTy (g.duns .dunFirst).ty
  | dt => (g.duns dt).ty

/-- The middle is not compared before the front is. -/
def tieBreak (psrc pdst : GroupDun) : Bool :=
  let src dt := (leftTy psrc pdst dt).rank
  let dst dt := (leftTy pdst psrc dt).rank
  dst .dunLast < src .dunLast ∨ src .dunLast = dst .dunLast ∧ dst .dunSecond < src .dunSecond ∨
    src .dunLast = dst .dunLast ∧ dst .dunFirst < src .dunFirst

def compareCardsByScore (psrc pdst : GroupDun) : Option ℤ :=
  (pairTable psrc pdst).startCompareCards.map fun compareCards =>
    let (src, dst) := ((compareCards 0).deltascore, (compareCards 1).deltascore)
    if src = dst ∧ tieBreak psrc pdst then 1 else src - dst

def globalCompareCardsByScore (psrc pdst : GroupDun) : Bool := (compareCardsByScore psrc pdst).any (0 < ·)

/-! ## Arrangements -/

/-- An arrangement of a hand with the types of its duns, straights and flushes in front not counted. -/
structure Ordinary (g : GroupDun) : Prop where
  hand : IsHand g.cards
  sizes : ∀ dt, (g.duns dt).cards.length = dt.needC
  plain : g.specialTy = .tysp
  typed : ∀ dt, (getDunCardHandTy dt (g.duns dt).cards).map (placedTy dt) = some (g.duns dt).ty

/-- The duns of a special arrangement are of its type too. -/
structure Special (g : GroupDun) : Prop where
  hand : IsHand g.cards
  sizes : ∀ dt, (g.duns dt).cards.length = dt.needC
  special : g.specialTy.special = true
  typed : ∀ dt, (g.duns dt).ty = g.specialTy

def Arrangement (g : GroupDun) : Prop := Ordinary g ∨ Special g

theorem forall_dunTy {p : DunTy → Prop} : (∀ dt, p dt) ↔ p .dunFirst ∧ p .dunSecond ∧ p .dunLast :=
  ⟨fun all => ⟨all _, all _, all _⟩, fun all dt => by
    obtain ⟨front, middle, tail⟩ := all
    cases dt <;> assumption⟩

instance (p : DunTy → Prop) [DecidablePred p] : Decidable (∀ dt, p dt) := decidable_of_iff _ forall_dunTy.symm

instance (g : GroupDun) : Decidable (Ordinary g) :=
  decidable_of_iff ((g.cards.length = 13 ∧ g.cards.Nodup ∧ ∀ card ∈ g.cards, card ∈ cardListData) ∧
      (∀ dt, (g.duns dt).cards.length = dt.needC) ∧ g.specialTy = .tysp ∧
      ∀ dt, (getDunCardHandTy dt (g.duns dt).cards).map (placedTy dt) = some (g.duns dt).ty)
    ⟨fun ⟨hand, sizes, plain, typed⟩ => ⟨⟨hand.1, hand.2.1, hand.2.2⟩, sizes, plain, typed⟩,
      fun ⟨hand, sizes, plain, typed⟩ => ⟨⟨hand.thirteen, hand.nodup, hand.cards⟩, sizes, plain, typed⟩⟩

/-- What makes a dun better than another of the same place. -/
def dunKey (dun : Dun) : ℕ ×ₗ List ℕ := toLex (dun.ty.rank, rankKey dun.cards)

variable {a b c g : GroupDun} {dt : DunTy}

theorem HandTy.rank_injective : Function.Injective HandTy.rank := by
  intro ty ty' same
  cases ty <;> cases ty' <;> first | rfl | exact absurd same (by decide)

namespace Ordinary

theorem isDun (ordinary : Ordinary g) (dt : DunTy) : IsDun dt (g.duns dt).cards := by
  have sub : (g.duns dt).cards.Sublist g.cards := by
    rw [GroupDun.cards]
    cases dt with
    | dunFirst => exact (List.sublist_append_left _ _).trans (List.sublist_append_left _ _)
    | dunSecond => exact (List.sublist_append_right _ _).trans (List.sublist_append_left _ _)
    | dunLast => exact List.sublist_append_right _ _
  exact ⟨ordinary.sizes dt, ordinary.hand.nodup.sublist sub, fun card inside =>
    ordinary.hand.cards card (sub.subset inside)⟩

theorem exists_type (ordinary : Ordinary g) (dt : DunTy) :
    ∃ ty, getDunCardHandTy dt (g.duns dt).cards = some ty ∧ placedTy dt ty = (g.duns dt).ty ∧
      HasType (g.duns dt).cards ty ∧ ∀ ty', HasType (g.duns dt).cards ty' → ty'.rank ≤ ty.rank := by
  obtain ⟨ty, eq, has, most⟩ := getDunCardHandTy_strongest (ordinary.isDun dt)
  have typed := ordinary.typed dt
  rw [eq, Option.map_some] at typed
  exact ⟨ty, eq, Option.some.inj typed, has, most⟩

theorem headTy_front (ordinary : Ordinary g) : headTy (g.duns .dunFirst).ty = (g.duns .dunFirst).ty := by
  obtain ⟨ty, -, placed, -⟩ := ordinary.exists_type .dunFirst
  rw [← placed]
  exact headTy_placedTy ty

theorem dun_eq (ordinary : Ordinary g) (dt : DunTy) : g.dun dt = g.duns dt := by
  cases dt with
  | dunFirst => rw [GroupDun.dun, ordinary.headTy_front]
  | dunSecond => rfl
  | dunLast => rfl

/-- Duns that count as single cards have no two of a value. -/
theorem number_le_one (ordinary : Ordinary g) (single : (g.duns dt).ty = .tysp) (v : ℕ) :
    number (g.duns dt).cards v ≤ 1 := by
  obtain ⟨ty, -, placed, has, most⟩ := ordinary.exists_type dt
  have dun := ordinary.isDun dt
  rw [single, placedTy] at placed
  have plain (same : ty = .tysp) : number (g.duns dt).cards v ≤ 1 := by
    refine Nat.le_of_not_lt fun two => ?_
    have pair := most .ty20 ⟨v, two⟩
    rw [same] at pair
    exact absurd pair (by decide)
  split_ifs at placed
  · cases ty with
    | tysp => exact plain rfl
    | ty123 => exact number_of_nodup has.nodup v
    | tysc => exact number_of_nodup (has.nodup dun.nodup dun.deck) v
    | ty123sc => exact number_of_nodup has.1.nodup v
    | _ => cases placed
  · exact plain placed

/-- Duns of a type are compared by their points. -/
theorem compareCards_eq (first : Ordinary a) (second : Ordinary b) (same : (a.duns dt).ty = (b.duns dt).ty) :
    compareCards (a.duns dt).cards (b.duns dt).cards false (b.duns dt).ty true true true =
      some (firstDiff (rankKey (a.duns dt).cards) (rankKey (b.duns dt).cards)) := by
  have dunA := first.isDun dt
  have dunB := second.isDun dt
  rcases eq_or_ne (b.duns dt).ty .tysp with single | grouped
  · rw [rankKey_of_number dunA.deck (first.number_le_one (same.trans single)),
      rankKey_of_number dunB.deck (second.number_le_one single), single, ← compareCardPointBy_eq]
    rfl
  · have typed {g : GroupDun} (ordinary : Ordinary g) (grouped : (g.duns dt).ty ≠ .tysp) :
        getDunCardHandTy dt (g.duns dt).cards = some (g.duns dt).ty := by
      obtain ⟨ty, eq, placed, -⟩ := ordinary.exists_type dt
      rw [eq, ← placed]
      rw [← placed] at grouped
      apply congrArg some
      rw [placedTy] at grouped ⊢
      split_ifs at grouped ⊢
      · cases ty <;> first | rfl | exact absurd rfl grouped
      · rfl
    exact S13s.compareCards_eq dunA dunB (same ▸ typed first (same ▸ grouped)) (typed second grouped)

theorem arranged (ordinary : Ordinary g) : g.Arranged where
  sizes := ordinary.sizes
  ordinary dt := by
    obtain ⟨ty, -, placed, has, -⟩ := ordinary.exists_type dt
    rw [← placed, placedTy]
    cases ty <;> first | exact has.elim | (split_ifs <;> rfl)
  front := by
    obtain ⟨ty, -, placed, has, -⟩ := ordinary.exists_type .dunFirst
    have three : (g.duns .dunFirst).cards.length = 3 := ordinary.sizes .dunFirst
    rw [← placed]
    cases ty with
    | ty22 =>
      obtain ⟨v, w, other, two, two'⟩ := has
      have few := number_add_le (g.duns .dunFirst).cards other
      omega
    | ty32 =>
      obtain ⟨v, w, other, two, two'⟩ := has
      have few := number_add_le (g.duns .dunFirst).cards other
      omega
    | ty40 =>
      obtain ⟨v, four⟩ := has
      have few : number (g.duns .dunFirst).cards v ≤ _ := List.countP_le_length
      omega
    | _ => first | exact has.elim | decide

theorem exists_dunScore (ordinary : Ordinary g) (dt : DunTy) : ∃ score, dunScore dt (g.duns dt).ty = some score := by
  have known := (ordinary.arranged.dun_isSome dt).1
  rw [ordinary.dun_eq] at known
  exact Option.isSome_iff_exists.mp known

end Ordinary

theorem Arrangement.ordinary (arrangement : Arrangement g) (not_ : ¬g.specialTy.special = true) : Ordinary g :=
  arrangement.resolve_right fun special => not_ special.special

/-! ## Better duns -/

theorem firstDiff_pos_iff {x y : List ℕ} (length : x.length = y.length) : 0 < firstDiff x y ↔ y < x := by
  induction x generalizing y with
  | nil =>
    rw [List.length_eq_zero_iff.mp length.symm]
    exact iff_of_false (lt_irrefl _) (lt_irrefl _)
  | cons p x ih =>
    cases y with
    | nil => exact absurd length (Nat.succ_ne_zero _)
    | cons q y =>
      rw [List.cons_lt_cons_iff]
      rcases eq_or_ne p q with rfl | differ
      · rw [firstDiff_cons_self, ih (Nat.succ.inj length)]
        simp
      · rw [firstDiff_cons_of_ne differ]
        have other : ¬q = p := differ.symm
        simp only [other, false_and, or_false]
        omega

/-- The water that a dun wins from another of its place. -/
def margin (dt : DunTy) (src dst : Dun) : ℤ :=
  if dunKey dst < dunKey src then (dunScore dt src.ty).getD 0
  else if dunKey src < dunKey dst then -(dunScore dt dst.ty).getD 0
  else 0

theorem margin_swap (dt : DunTy) (src dst : Dun) : margin dt dst src = -margin dt src dst := by
  rw [margin, margin]
  rcases lt_trichotomy (dunKey src) (dunKey dst) with less | same | more
  · rw [if_pos less, if_neg less.not_gt, if_pos less, neg_neg]
  · simp [same]
  · rw [if_neg more.not_gt, if_pos more, if_pos more]

theorem dunKey_lt {src dst : Dun} : dunKey dst < dunKey src ↔
    dst.ty.rank < src.ty.rank ∨ dst.ty.rank = src.ty.rank ∧ rankKey dst.cards < rankKey src.cards :=
  Prod.Lex.toLex_lt_toLex

/-- The records of two duns say what the better one wins. -/
theorem compareDun_margin (first : Ordinary a) (second : Ordinary b) (dt : DunTy) :
    ∃ items, compareDun comparePoints dt (a.duns dt) (b.duns dt) = some items ∧
      items.1.score = margin dt (a.duns dt) (b.duns dt) := by
  obtain ⟨score, known⟩ := first.exists_dunScore dt
  obtain ⟨score', known'⟩ := second.exists_dunScore dt
  rw [compareDun, margin]
  dsimp only
  rw [known, known']
  rcases eq_or_ne (a.duns dt).ty (b.duns dt).ty with same | differ
  · have length : (rankKey (a.duns dt).cards).length = (rankKey (b.duns dt).cards).length := by
      rw [length_rankKey, length_rankKey, first.sizes, second.sizes]
    have sizes : ¬((a.duns dt).cards.length ≠ dt.needC ∨ (b.duns dt).cards.length ≠ dt.needC) :=
      not_or.mpr ⟨not_not.mpr (first.sizes dt), not_not.mpr (second.sizes dt)⟩
    rw [if_neg (not_not.mpr same), if_neg sizes, comparePoints, first.compareCards_eq second same, Option.getD_some]
    have more := firstDiff_pos_iff length
    have less := firstDiff_pos_iff length.symm
    rw [firstDiff_swap, neg_pos] at less
    simp only [dunKey_lt, same, lt_irrefl, true_and, false_or]
    simp only [← more, ← less]
    split_ifs
    · exact ⟨_, rfl, rfl⟩
    · exact ⟨_, rfl, rfl⟩
    · exact ⟨_, rfl, rfl⟩
  · have ranks : (a.duns dt).ty.rank ≠ (b.duns dt).ty.rank := fun same => differ (HandTy.rank_injective same)
    rw [if_pos differ]
    simp only [dunKey_lt, ranks, ranks.symm, false_and, or_false]
    rcases lt_or_gt_of_ne ranks with less | more
    · rw [if_neg less.not_gt, if_neg less.not_gt, if_pos less]
      exact ⟨_, rfl, rfl⟩
    · rw [if_pos more, if_pos more]
      exact ⟨_, rfl, rfl⟩

/-! ## The water that one arrangement wins from another -/

/-- The water of a special type. -/
def specialWater (src dst : HandTy) : ℤ :=
  if dst.rank < src.rank then (specialScore src).getD 0
  else if src.rank < dst.rank then -(specialScore dst).getD 0
  else 0

/-- Without the shooting, which does not change the sign. -/
def water (a b : GroupDun) : ℤ :=
  if a.specialTy.special || b.specialTy.special then specialWater a.specialTy b.specialTy
  else margin .dunFirst (a.duns .dunFirst) (b.duns .dunFirst) + margin .dunSecond (a.duns .dunSecond) (b.duns .dunSecond) +
    margin .dunLast (a.duns .dunLast) (b.duns .dunLast)

theorem specialWater_swap (src dst : HandTy) : specialWater dst src = -specialWater src dst := by
  rw [specialWater, specialWater]
  rcases lt_trichotomy src.rank dst.rank with less | same | more
  · rw [if_pos less, if_neg less.not_gt, if_pos less, neg_neg]
  · simp [same]
  · rw [if_neg more.not_gt, if_pos more, if_pos more]

theorem water_swap (a b : GroupDun) : water b a = -water a b := by
  rw [water, water, Bool.or_comm, specialWater_swap, margin_swap .dunFirst, margin_swap .dunSecond, margin_swap .dunLast]
  split_ifs <;> ring

theorem specialScore_pos {ty : HandTy} (special : ty.special = true) : 0 < (specialScore ty).getD 0 := by
  cases ty <;> first | exact absurd special (by decide) | decide

theorem dunScore_pos (ordinary : Ordinary g) (dt : DunTy) : 0 < (dunScore dt (g.duns dt).ty).getD 0 := by
  obtain ⟨score, known⟩ := ordinary.exists_dunScore dt
  rw [known]
  generalize (g.duns dt).ty = ty at known
  cases dt <;> cases ty <;> cases known <;> decide

theorem compareSpecial_water (src dst : HandTy) :
    ((compareSpecial src dst).1.map CompareItem.score).getD 0 = specialWater src dst := by
  rw [compareSpecial, specialWater]
  rcases eq_or_ne src dst with rfl | differ
  · simp [draw]
  · have ranks : src.rank ≠ dst.rank := fun same => differ (HandTy.rank_injective same)
    rw [if_neg differ]
    rcases lt_or_gt_of_ne ranks with less | more
    · rw [if_neg less.not_gt, if_neg less.not_gt, if_pos less]
      split
      · next score known => simp [known, settle]
      · next none_ => simp [none_]
    · rw [if_pos more, if_pos more]
      split
      · next score known => simp [known, settle]
      · next none_ => simp [none_]

/-- The result of a comparison adds up to the water. -/
theorem comparePair_water (first : Arrangement a) (second : Arrangement b) :
    ∃ results, comparePair comparePoints a b = some results ∧ (results.1.items = [] ∨ results.1.specitem = none) ∧
      (results.1.items.map CompareItem.score).sum + (results.1.specitem.map CompareItem.score).getD 0 = water a b := by
  rw [comparePair, water]
  split_ifs with special
  · refine ⟨_, rfl, .inl rfl, ?_⟩
    simp only [List.map_nil, List.sum_nil, zero_add]
    exact compareSpecial_water a.specialTy b.specialTy
  · have first := first.ordinary fun is => special (Bool.or_eq_true_iff.mpr (.inl is))
    have second := second.ordinary fun is => special (Bool.or_eq_true_iff.mpr (.inr is))
    obtain ⟨front, one, score⟩ := compareDun_margin first second .dunFirst
    obtain ⟨middle, two, score'⟩ := compareDun_margin first second .dunSecond
    obtain ⟨tail, three, score''⟩ := compareDun_margin first second .dunLast
    rw [first.dun_eq, first.dun_eq, first.dun_eq, second.dun_eq, second.dun_eq, second.dun_eq, one, two, three]
    refine ⟨_, rfl, .inr rfl, ?_⟩
    simp only [List.map_cons, List.map_nil, List.sum_cons, List.sum_nil, Option.map_none, Option.getD_none, score, score',
      score'']
    ring

/-! ## The comparison -/

open Showdown

theorem pairTable_players (a b : GroupDun) : 2 ≤ (pairTable a b).chairIDs.length := le_of_eq rfl

theorem pairTable_comparable (first : Arrangement a) (second : Arrangement b) : (pairTable a b).AllComparable := by
  intro p inside
  have only : (pairTable a b).pairs = [(1, 0)] := rfl
  rw [only, List.mem_singleton] at inside
  rw [inside]
  obtain ⟨results, done, -⟩ := comparePair_water second first
  exact Option.isSome_iff_exists.mpr ⟨results, done⟩

theorem times_pos (s : Showdown) (i j : ℕ) : 0 < s.times i j := by
  rw [Showdown.times]
  split_ifs <;> decide

/-- The first one gets the water, perhaps more than once. -/
theorem pairTable_deltascore (first : Arrangement a) (second : Arrangement b) :
    ∃ times : ℤ, 0 < times ∧ ((pairTable a b).outcome 0).deltascore = times * water a b := by
  obtain ⟨results, done, either, score⟩ := comparePair_water second first
  obtain ⟨items, specitem⟩ := comparePair_opposite done
  have record : (pairTable a b).record 0 1 = results.2 := by
    have known : (pairTable a b).results 1 0 = results := by
      rw [Showdown.results]
      exact congrArg (Option.getD · _) done
    rw [Showdown.record, if_neg (by decide), known]
  have sums : ((pairTable a b).outcome 0).deltascore =
      (pairTable a b).times 0 1 * (((pairTable a b).record 0 1).items.map CompareItem.score).sum +
        (((pairTable a b).record 0 1).specitem.map CompareItem.score).getD 0 := by
    have chair : 0 ∈ (pairTable a b).chairIDs := List.mem_cons_self
    have only : opponents 0 (pairTable a b).pairs = [1] := rfl
    rw [Showdown.outcome, if_pos chair, Showdown.duelSum, Showdown.specSum, only]
    simp only [List.map_cons, List.map_nil, List.sum_cons, List.sum_nil, add_zero]
    rfl
  have spec : (results.2.specitem.map CompareItem.score).getD 0 = -(results.1.specitem.map CompareItem.score).getD 0 := by
    rw [specitem]
    cases results.1.specitem <;> rfl
  rw [sums, record, spec, items, sum_score_flip, ← neg_neg (water a b), ← water_swap, ← score]
  rcases either with none_ | none_
  · exact ⟨1, one_pos, by simp [none_]⟩
  · exact ⟨(pairTable a b).times 0 1, times_pos _ 0 1, by simp [none_]⟩

/-- The first one is before the second when it wins water, or when neither does and the types decide. -/
theorem globalCompareCardsByScore_iff (first : Arrangement a) (second : Arrangement b) :
    globalCompareCardsByScore a b = true ↔ 0 < water a b ∨ water a b = 0 ∧ tieBreak a b = true := by
  have all := pairTable_comparable first second
  have zero := (balanced_outcome all).zero
  obtain ⟨times, positive, score⟩ := pairTable_deltascore first second
  have other : ((pairTable a b).outcome 1).deltascore = -(times * water a b) := by
    have chairs : (pairTable a b).chairIDs.toFinset = {0, 1} := rfl
    rw [chairs, Finset.sum_pair (by decide), score] at zero
    omega
  rw [globalCompareCardsByScore, compareCardsByScore, startCompareCards_eq all (pairTable_players a b), Option.map_some,
    Option.any_some, decide_eq_true_eq]
  simp only [score, other]
  have same : times * water a b = -(times * water a b) ↔ water a b = 0 := by
    rw [CharZero.eq_neg_self_iff, mul_eq_zero, or_iff_right positive.ne']
  have less : 0 < times * water a b - -(times * water a b) ↔ 0 < water a b := by
    rw [sub_neg_eq_add, ← two_mul, mul_pos_iff_of_pos_left two_pos, mul_pos_iff_of_pos_left positive]
  simp only [same]
  split_ifs with even
  · exact iff_of_true one_pos (.inr even)
  · rw [less, or_iff_left even]

/-! ## Where it is an order -/

/-- At least as good: by its special type, or dun by dun. -/
def Covers (a b : GroupDun) : Prop :=
  if a.specialTy.special || b.specialTy.special then b.specialTy.rank ≤ a.specialTy.rank
  else ∀ dt, dunKey (b.duns dt) ≤ dunKey (a.duns dt)

theorem leftTy_eq (arrangement : Arrangement a) (peer : GroupDun) (dt : DunTy) : leftTy a peer dt = (a.duns dt).ty := by
  cases dt with
  | dunFirst =>
    rw [leftTy]
    split_ifs with special
    · rfl
    · exact (arrangement.ordinary fun is => special (Bool.or_eq_true_iff.mpr (.inl is))).headTy_front
  | dunSecond => rfl
  | dunLast => rfl

theorem tieBreak_iff (first : Arrangement a) (second : Arrangement b) : tieBreak a b = true ↔
    (b.duns .dunLast).ty.rank < (a.duns .dunLast).ty.rank ∨
      (a.duns .dunLast).ty.rank = (b.duns .dunLast).ty.rank ∧
        ((b.duns .dunSecond).ty.rank < (a.duns .dunSecond).ty.rank ∨
          (b.duns .dunFirst).ty.rank < (a.duns .dunFirst).ty.rank) := by
  rw [tieBreak]
  simp only [leftTy_eq first, leftTy_eq second, decide_eq_true_eq]
  rw [and_or_left]

/-- Types that are the same do not decide. -/
theorem tieBreak_eq_false (first : Arrangement a) (second : Arrangement b)
    (same : ∀ dt, (a.duns dt).ty = (b.duns dt).ty) : tieBreak a b = false := by
  rw [Bool.eq_false_iff, Ne, tieBreak_iff first second, same, same, same]
  simp only [lt_irrefl, or_self, and_false, not_false_eq_true]

theorem margin_nonneg (ordinary : Ordinary a) (more : dunKey (b.duns dt) ≤ dunKey (a.duns dt)) :
    0 ≤ margin dt (a.duns dt) (b.duns dt) := by
  have positive := dunScore_pos ordinary dt
  rw [margin, if_neg more.not_gt]
  split_ifs
  · exact positive.le
  · exact le_refl _

theorem margin_pos (ordinary : Ordinary a) (more : dunKey (b.duns dt) < dunKey (a.duns dt)) :
    0 < margin dt (a.duns dt) (b.duns dt) := by
  rw [margin, if_pos more]
  exact dunScore_pos ordinary dt

theorem rank_lt_of_special {src dst : HandTy} (special : src.special = true) (not_ : ¬dst.special = true) :
    dst.rank < src.rank := by
  rw [HandTy.special, decide_eq_true_eq] at special not_
  omega

theorem covers_of_special (special : a.specialTy.special = true) :
    Covers a b ↔ b.specialTy.rank ≤ a.specialTy.rank := by
  rw [Covers, if_pos (Bool.or_eq_true_iff.mpr (.inl special))]

theorem covers_of_ordinary (not_ : ¬a.specialTy.special = true) (not_' : ¬b.specialTy.special = true) :
    Covers a b ↔ ∀ dt, dunKey (b.duns dt) ≤ dunKey (a.duns dt) := by
  rw [Covers, if_neg fun either => (Bool.or_eq_true_iff.mp either).elim not_ not_']

/-- No ordinary arrangement is as good as a special one. -/
theorem Covers.not_special (covers : Covers a b) (not_ : ¬a.specialTy.special = true) :
    ¬b.specialTy.special = true := by
  intro special
  rw [Covers, if_pos (Bool.or_eq_true_iff.mpr (.inr special))] at covers
  exact covers.not_gt (rank_lt_of_special special not_)

theorem covers_refl (a : GroupDun) : Covers a a := by
  rw [Covers]
  split_ifs
  · exact le_refl _
  · exact fun dt => le_refl _

theorem covers_trans (one : Covers a b) (two : Covers b c) : Covers a c := by
  rcases em (a.specialTy.special = true) with special | not_
  · rw [covers_of_special special] at one ⊢
    rcases em (b.specialTy.special = true) with special' | not_'
    · rw [covers_of_special special'] at two
      exact two.trans one
    · exact (rank_lt_of_special special (two.not_special not_')).le
  · have not_' := one.not_special not_
    have not_'' := two.not_special not_'
    rw [covers_of_ordinary not_ not_'] at one
    rw [covers_of_ordinary not_' not_''] at two
    exact (covers_of_ordinary not_ not_'').mpr fun dt => (two dt).trans (one dt)

theorem Arrangement.is_special (arrangement : Arrangement g) (special : g.specialTy.special = true) : Special g := by
  refine arrangement.resolve_left fun ordinary => ?_
  rw [ordinary.plain] at special
  exact absurd special (by decide)

theorem water_of_ordinary (not_ : ¬a.specialTy.special = true) (not_' : ¬b.specialTy.special = true) :
    water a b = margin .dunFirst (a.duns .dunFirst) (b.duns .dunFirst) +
      margin .dunSecond (a.duns .dunSecond) (b.duns .dunSecond) +
      margin .dunLast (a.duns .dunLast) (b.duns .dunLast) := by
  rw [water, if_neg fun either => (Bool.or_eq_true_iff.mp either).elim not_ not_']

theorem water_of_special (special : a.specialTy.special = true) :
    water a b = specialWater a.specialTy b.specialTy := by
  rw [water, if_pos (Bool.or_eq_true_iff.mpr (.inl special))]

/-- An arrangement at least as good as another wins, or there is nothing to tell them apart. -/
theorem Covers.wins_or_same (first : Arrangement a) (second : Arrangement b) (covers : Covers a b) :
    0 < water a b ∧ ¬Covers b a ∨ water a b = 0 ∧ Covers b a ∧ ∀ dt, (a.duns dt).ty = (b.duns dt).ty := by
  rcases em (a.specialTy.special = true) with special | not_
  · rw [covers_of_special special] at covers
    rw [water_of_special special, specialWater]
    rcases covers.lt_or_eq with less | even
    · left
      rw [if_pos less]
      refine ⟨specialScore_pos special, fun back => ?_⟩
      rw [Covers, if_pos (Bool.or_eq_true_iff.mpr (.inr special))] at back
      exact back.not_gt less
    · right
      have same : b.specialTy = a.specialTy := HandTy.rank_injective even
      have special' := same ▸ special
      rw [if_neg even.symm.not_gt, if_neg even.not_gt, covers_of_special special']
      refine ⟨rfl, even.ge, fun dt => ?_⟩
      rw [(first.is_special special).typed, (second.is_special special').typed, same]
  · have not_' := covers.not_special not_
    have ordinary := first.ordinary not_
    have ordinary' := second.ordinary not_'
    rw [covers_of_ordinary not_ not_'] at covers
    rw [water_of_ordinary not_ not_', covers_of_ordinary not_' not_]
    have front := margin_nonneg ordinary (covers .dunFirst)
    have middle := margin_nonneg ordinary (covers .dunSecond)
    have tail := margin_nonneg ordinary (covers .dunLast)
    rcases em (∀ dt, dunKey (a.duns dt) ≤ dunKey (b.duns dt)) with back | wins
    · right
      have none_ (dt : DunTy) : margin dt (a.duns dt) (b.duns dt) = 0 := by
        have other := margin_nonneg ordinary' (back dt)
        rw [margin_swap] at other
        exact le_antisymm (neg_nonneg.mp other) (margin_nonneg ordinary (covers dt))
      rw [none_, none_, none_]
      refine ⟨rfl, back, fun dt => HandTy.rank_injective ?_⟩
      have same : dunKey (a.duns dt) = dunKey (b.duns dt) := le_antisymm (back dt) (covers dt)
      exact congrArg (fun key => (ofLex key).1) same
    · left
      refine ⟨?_, wins⟩
      obtain ⟨dt, less⟩ := not_forall.mp wins
      have some_ := margin_pos ordinary (lt_of_not_ge less)
      cases dt with
      | dunFirst => omega
      | dunSecond => omega
      | dunLast => omega

/-- Of two arrangements that compare dun by dun, the better one is before the other. -/
theorem global_of_covers (first : Arrangement a) (second : Arrangement b) (covers : Covers a b) :
    (globalCompareCardsByScore a b = true ↔ ¬Covers b a) ∧ ¬globalCompareCardsByScore b a = true := by
  rw [globalCompareCardsByScore_iff first second, globalCompareCardsByScore_iff second first, water_swap a b]
  rcases covers.wins_or_same first second with ⟨wins, not_⟩ | ⟨even, back, same⟩
  · refine ⟨iff_of_true (.inl wins) not_, ?_⟩
    omega
  · rw [tieBreak_eq_false first second same, tieBreak_eq_false second first fun dt => (same dt).symm]
    simp [even, back]

/-- Arrangements that compare dun by dun are put in order. -/
theorem global_iff_not_covers (first : Arrangement a) (second : Arrangement b) (either : Covers a b ∨ Covers b a) :
    globalCompareCardsByScore a b = true ↔ ¬Covers b a := by
  rcases either with covers | covers
  · exact (global_of_covers first second covers).1
  · exact iff_of_false (global_of_covers second first covers).2 (not_not.mpr covers)

/-- The scores need not settle which of two arrangements is first. -/
theorem eq_of_global_both (first : Arrangement a) (second : Arrangement b)
    (one : globalCompareCardsByScore a b = true) (two : globalCompareCardsByScore b a = true) :
    water a b = 0 ∧ (a.duns .dunLast).ty = (b.duns .dunLast).ty ∧
      ((a.duns .dunFirst).ty.rank < (b.duns .dunFirst).ty.rank ∧
          (b.duns .dunSecond).ty.rank < (a.duns .dunSecond).ty.rank ∨
        (b.duns .dunFirst).ty.rank < (a.duns .dunFirst).ty.rank ∧
          (a.duns .dunSecond).ty.rank < (b.duns .dunSecond).ty.rank) := by
  rw [globalCompareCardsByScore_iff first second, tieBreak_iff first second] at one
  rw [globalCompareCardsByScore_iff second first, tieBreak_iff second first, water_swap a b] at two
  have even : water a b = 0 := by omega
  have tails : (a.duns .dunLast).ty.rank = (b.duns .dunLast).ty.rank := by omega
  refine ⟨even, HandTy.rank_injective tails, ?_⟩
  omega

/-- Neither is before the other. -/
def Incomparable (a b : GroupDun) : Prop :=
  ¬globalCompareCardsByScore a b = true ∧ ¬globalCompareCardsByScore b a = true

theorem incomparable_iff (first : Arrangement a) (second : Arrangement b) (either : Covers a b ∨ Covers b a) :
    Incomparable a b ↔ Covers a b ∧ Covers b a := by
  rw [Incomparable, global_iff_not_covers first second either, global_iff_not_covers second first either.symm, not_not,
    not_not, and_comm]

/-- Scores and types put arrangements in a strict weak order where any two of them compare dun by dun, as a special one
does with every other; without that one arrangement is still not before itself, and two are before each other only if
they win no water and have better duns in different places. -/
theorem globalCompareCardsByScore_order (first : Arrangement a) (second : Arrangement b) (third : Arrangement c) :
    (compareCardsByScore a b).isSome ∧ ¬globalCompareCardsByScore a a = true ∧
      (globalCompareCardsByScore a b = true → globalCompareCardsByScore b a = true →
        water a b = 0 ∧ (a.duns .dunLast).ty = (b.duns .dunLast).ty ∧
          ((a.duns .dunFirst).ty.rank < (b.duns .dunFirst).ty.rank ∧
              (b.duns .dunSecond).ty.rank < (a.duns .dunSecond).ty.rank ∨
            (b.duns .dunFirst).ty.rank < (a.duns .dunFirst).ty.rank ∧
              (a.duns .dunSecond).ty.rank < (b.duns .dunSecond).ty.rank)) ∧
      (a.specialTy.special = true → Covers a b ∨ Covers b a) ∧
      (Covers a b ∨ Covers b a → Covers b c ∨ Covers c b → Covers a c ∨ Covers c a →
        ¬(globalCompareCardsByScore a b = true ∧ globalCompareCardsByScore b a = true) ∧
          (globalCompareCardsByScore a b = true → globalCompareCardsByScore b c = true →
            globalCompareCardsByScore a c = true) ∧
          (Incomparable a b → Incomparable b c → Incomparable a c)) := by
  refine ⟨?_, (global_of_covers first first (covers_refl a)).2, eq_of_global_both first second, ?_, ?_⟩
  · rw [compareCardsByScore, startCompareCards_eq (pairTable_comparable first second) (pairTable_players a b)]
    rfl
  · intro special
    rw [covers_of_special special]
    rcases em (b.specialTy.special = true) with special' | not_
    · rw [covers_of_special special']
      exact le_total _ _
    · exact .inl (rank_lt_of_special special not_).le
  · intro ab bc ac
    rw [global_iff_not_covers first second ab, global_iff_not_covers second first ab.symm,
      global_iff_not_covers second third bc, global_iff_not_covers first third ac, incomparable_iff first second ab,
      incomparable_iff second third bc, incomparable_iff first third ac]
    refine ⟨fun both => ab.elim both.2 both.1, fun one two back => ?_, fun one two => ?_⟩
    · exact one (covers_trans (bc.resolve_right two) back)
    · exact ⟨covers_trans one.1 two.1, covers_trans two.2 one.2⟩

def ordinary (front middle tail : HandTy × List ℕ) : GroupDun where
  specialTy := .tysp
  duns
    | .dunFirst => ⟨front.1, front.2⟩
    | .dunSecond => ⟨middle.1, middle.2⟩
    | .dunLast => ⟨tail.1, tail.2⟩

/-- Three arrangements each of which is before the next, and two that are before each other. -/
theorem arrangements_in_turn :
    let high := ordinary (.tysp, [0x12, 0x23, 0x1A]) (.ty20, [0x17, 0x27, 0x13, 0x24, 0x15])
      (.ty30, [0x1C, 0x2C, 0x3C, 0x16, 0x28])
    let low := ordinary (.tysp, [0x32, 0x43, 0x36]) (.ty20, [0x19, 0x29, 0x33, 0x44, 0x35])
      (.ty30, [0x1B, 0x2B, 0x3B, 0x46, 0x37])
    let mixed := ordinary (.tysp, [0x22, 0x34, 0x25]) (.ty20, [0x18, 0x38, 0x14, 0x26, 0x2A])
      (.ty30, [0x1D, 0x2D, 0x3D, 0x45, 0x47])
    let single := ordinary (.tysp, [0x12, 0x14, 0x28]) (.ty22, [0x15, 0x25, 0x16, 0x26, 0x13])
      (.ty123, [0x19, 0x2A, 0x1B, 0x1C, 0x1D])
    let pair := ordinary (.ty20, [0x33, 0x43, 0x35]) (.ty20, [0x38, 0x48, 0x36, 0x44, 0x32])
      (.ty123, [0x39, 0x4A, 0x3B, 0x3C, 0x3D])
    (Arrangement high ∧ Arrangement low ∧ Arrangement mixed ∧ globalCompareCardsByScore high low = true ∧
        globalCompareCardsByScore low mixed = true ∧ ¬globalCompareCardsByScore high mixed = true ∧
        globalCompareCardsByScore mixed high = true) ∧
      Arrangement single ∧ Arrangement pair ∧ globalCompareCardsByScore single pair = true ∧
        globalCompareCardsByScore pair single = true := by
  intro high low mixed single pair
  refine ⟨⟨.inl ?_, .inl ?_, .inl ?_, ?_, ?_, ?_, ?_⟩, .inl ?_, .inl ?_, ?_, ?_⟩ <;> decide +kernel

/-- Where each dun is better than the next one's of its place, the first arrangement is before the last. -/
theorem globalCompareCardsByScore_order_example :
    let high := ordinary (.tysp, [0x12, 0x23, 0x1A]) (.ty20, [0x17, 0x27, 0x13, 0x24, 0x15])
      (.ty30, [0x1C, 0x2C, 0x3C, 0x16, 0x28])
    let middle := ordinary (.tysp, [0x32, 0x43, 0x19]) (.ty20, [0x16, 0x26, 0x33, 0x34, 0x35])
      (.ty30, [0x1B, 0x2B, 0x3B, 0x47, 0x38])
    let low := ordinary (.tysp, [0x12, 0x23, 0x18]) (.ty20, [0x15, 0x25, 0x13, 0x24, 0x17])
      (.ty30, [0x1A, 0x2A, 0x3A, 0x16, 0x29])
    ¬globalCompareCardsByScore high high = true ∧ globalCompareCardsByScore high middle = true ∧
      globalCompareCardsByScore middle low = true ∧ globalCompareCardsByScore high low = true := by
  intro high middle low
  have arrangement : Arrangement high ∧ Arrangement middle ∧ Arrangement low := by
    refine ⟨.inl ?_, .inl ?_, .inl ?_⟩ <;> decide +kernel
  have covers : Covers high middle ∧ Covers middle low ∧ Covers high low := by
    refine ⟨?_, ?_, ?_⟩ <;> rw [covers_of_ordinary (by decide) (by decide)] <;> decide +kernel
  obtain ⟨-, irreflexive, -, -, order⟩ :=
    globalCompareCardsByScore_order arrangement.1 arrangement.2.1 arrangement.2.2
  have steps : globalCompareCardsByScore high middle = true ∧ globalCompareCardsByScore middle low = true := by
    decide +kernel
  refine ⟨irreflexive, steps.1, steps.2, ?_⟩
  exact (order (.inl covers.1) (.inl covers.2.1) (.inl covers.2.2)).2.1 steps.1 steps.2

end H5Server.S13s
