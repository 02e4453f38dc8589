import H5Server.Lib.Runs
import H5Server.Ddz.Deal
import H5Server.Ddz.Suggestions
import Mathlib.Algebra.BigOperators.Fin

/-! # No card is lost

In every state of a round the hands, the cards played and the bottom cards that no banker has yet are the
deck, as long as no zero byte is played: a zero matches the place of a card that the same play removed.
-/

namespace H5Server.Ddz

open Lib

namespace Table

/-- The cards of a player: the entries of the hand that are not zero. -/
def hand (t : Table) (i : Chair) : List ℕ := unmarked 0 (t.handCardData i)

/-- The bottom cards, while no banker is fixed. -/
def bottomCards (t : Table) : List ℕ := if t.gameStatus = .call then t.bankerCard else []

structure Conserved (t : Table) : Prop where
  counts : ∀ i, t.handCardCount i = (t.hand i).length
  deck : ∑ i, (t.hand i : Multiset ℕ) + t.surplusCard + t.bottomCards = cardData

/-- The cards of a hand are in front, and until a banker is fixed every player has seventeen. -/
structure Sound (t : Table) : Prop extends t.Conserved where
  front : ∀ i, t.handCardData i = t.hand i ++ List.replicate (20 - (t.hand i).length) 0
  within : ∀ i, (t.hand i).length ≤ 20
  calling : t.gameStatus = .call → (∀ i, (t.hand i).length = 17) ∧ t.bankerCard.length = 3

/-- What has to do with cards is the same. -/
structure SameCards (t u : Table) : Prop where
  handCardData : u.handCardData = t.handCardData
  handCardCount : u.handCardCount = t.handCardCount
  bankerCard : u.bankerCard = t.bankerCard
  surplusCard : u.surplusCard = t.surplusCard
  calling : u.gameStatus = .call ↔ t.gameStatus = .call

theorem SameCards.refl (t : Table) : t.SameCards t := ⟨rfl, rfl, rfl, rfl, Iff.rfl⟩

theorem SameCards.trans {t u v : Table} (first : t.SameCards u) (second : u.SameCards v) : t.SameCards v where
  handCardData := second.handCardData.trans first.handCardData
  handCardCount := second.handCardCount.trans first.handCardCount
  bankerCard := second.bankerCard.trans first.bankerCard
  surplusCard := second.surplusCard.trans first.surplusCard
  calling := second.calling.trans first.calling

theorem SameCards.hand {t u : Table} (same : t.SameCards u) : u.hand = t.hand := by
  funext i
  rw [Table.hand, same.handCardData, Table.hand]

theorem SameCards.sound {t u : Table} (same : t.SameCards u) (sound : t.Sound) : u.Sound where
  counts i := by rw [same.handCardCount, same.hand, sound.counts]
  deck := by
    have bottom : u.bottomCards = t.bottomCards := by
      rw [bottomCards, bottomCards, same.bankerCard, if_congr same.calling rfl rfl]
    rw [same.hand, same.surplusCard, bottom]
    exact sound.deck
  front i := by rw [same.handCardData, same.hand, ← sound.front]
  within i := by rw [same.hand]; exact sound.within i
  calling status := by
    rw [same.hand, same.bankerCard]
    exact sound.calling (same.calling.mp status)

theorem Conserved.zero_notMem_bottomCards {t : Table} (kept : t.Conserved) : 0 ∉ t.bottomCards := by
  intro present
  refine zero_notMem_cardData (Multiset.mem_coe.mp ?_)
  rw [← kept.deck]
  exact Multiset.mem_add.mpr (.inr present)

theorem zero_notMem_hand (t : Table) (i : Chair) : 0 ∉ t.hand i := mark_notMem_unmarked _

theorem Sound.take_count {t : Table} (sound : t.Sound) (i : Chair) :
    (t.handCardData i).take (t.handCardCount i) = t.hand i := by
  rw [sound.front, sound.counts, List.take_left]

theorem unmarked_append_zeros {cards : List ℕ} (proper : 0 ∉ cards) (zeros : ℕ) :
    unmarked 0 (cards ++ List.replicate zeros 0) = cards := by
  have whole : unmarked 0 cards = cards := unmarked_eq_self proper
  rw [unmarked] at whole ⊢
  rw [List.filter_append, whole, List.filter_replicate_of_neg (by decide), List.append_nil]

/-! ## Dealing -/

theorem dealtCards_length (d : Deal) (i : Chair) : (dealtCards d i).length = 17 := by
  cases controlled : d.haveGoodCard with
  | none =>
    rw [dealtCards, controlled, List.length_take, List.length_drop, d.randCard_length]
    omega
  | some good =>
    rcases eq_or_ne i good with rfl | other
    · rw [dealtCards_good controlled, d.goodCard_length]
    · have few := othersBefore_le_one other
      rw [dealtCards_other controlled other, List.length_take, List.length_drop, d.leftCard_length]
      omega

theorem dealtBankerCards_length (d : Deal) : (dealtBankerCards d).length = 3 := by
  have total := (dealt_perm d).length_eq
  rw [dealt, List.length_append, List.length_append, List.length_append, dealtCards_length, dealtCards_length,
    dealtCards_length] at total
  have deck : cardData.length = 54 := rfl
  omega

theorem zero_notMem_dealt (d : Deal) : 0 ∉ dealt d := fun present => zero_notMem_cardData ((dealt_perm d).subset present)

theorem zero_notMem_dealtCards (d : Deal) (i : Chair) : 0 ∉ dealtCards d i := by
  refine fun present => zero_notMem_dealt d ?_
  rw [dealt]
  have chairs : ∀ i : Chair, i = 0 ∨ i = 1 ∨ i = 2 := by decide
  rcases chairs i with rfl | rfl | rfl <;> simp [present]

/-- Whatever was dealt before, a deal leaves its own cards. -/
theorem foldl_storeageControl (deals : List Deal) (last : Deal) {t : Table}
    (clean : ∀ i, (t.handCardData i).drop 17 = List.replicate 3 0) :
    (deals ++ [last]).foldl storeageControl t =
      { t with
        handCardData := fun i => dealtCards last i ++ List.replicate 3 0
        handCardCount := fun _ => 17
        bankerCard := sortCardList (dealtBankerCards last) } := by
  have dealing : ∀ (u : Table) (d : Deal) (_ : ∀ i, (u.handCardData i).drop 17 = List.replicate 3 0),
      u.storeageControl d = { u with
        handCardData := fun i => dealtCards d i ++ List.replicate 3 0
        handCardCount := fun _ => 17
        bankerCard := sortCardList (dealtBankerCards d) } := by
    intro u d behind
    have data : ∀ i, copyMemory (u.handCardData i) 0 (dealtCards d i) = dealtCards d i ++ List.replicate 3 0 := by
      intro i
      rw [copyMemory, List.take_zero, List.nil_append, dealtCards_length, Nat.zero_add, behind]
    rw [storeageControl]
    simp only [data]
  have after : ∀ d i, (dealtCards d i ++ List.replicate 3 0).drop 17 = List.replicate 3 0 := by
    intro d i
    rw [← dealtCards_length d i, List.drop_left]
  induction deals generalizing t with
  | nil => exact dealing t last clean
  | cons d deals ih =>
    rw [List.cons_append, List.foldl_cons, dealing t d clean, ih (after d)]

theorem sortHand_dealt (d : Deal) (i : Chair) :
    sortHand (dealtCards d i ++ List.replicate 3 0) 17 = sortCardList (dealtCards d i) ++ List.replicate 3 0 := by
  have length := dealtCards_length d i
  rw [sortHand, ← length, List.take_left, List.drop_left]

/-- However a round starts, its cards are the deck. -/
theorem sound_onGameStart (t : Table) (s : Start) : (t.onGameStart s).Sound := by
  have dealing := @foldl_storeageControl s.deals s.last
    { t.repositionSink with gameStatus := .call, noCallCount := t.noCallCount + 1 } (fun _ => rfl)
  have start : t.onGameStart s = { (s.deals ++ [s.last]).foldl storeageControl
        { t.repositionSink with gameStatus := .call, noCallCount := t.noCallCount + 1 } with
      firstUser := some (t.firstUser.getD s.firstUser)
      currentUser := some (t.firstUser.getD s.firstUser)
      handCardData := fun i => sortCardList (dealtCards s.last i) ++ List.replicate 3 0 } := by
    rw [onGameStart, dealing]
    simp only [sortHand_dealt]
  have proper : ∀ i, 0 ∉ sortCardList (dealtCards s.last i) := fun i present =>
    zero_notMem_dealtCards s.last i (sortCardList_subset _ present)
  have hand : ∀ i, (t.onGameStart s).hand i = sortCardList (dealtCards s.last i) := by
    intro i
    rw [start]
    exact unmarked_append_zeros (proper i) 3
  have length : ∀ i, ((t.onGameStart s).hand i).length = 17 := by
    intro i
    rw [hand, (sortCardList_perm _).length_eq, dealtCards_length]
  refine ⟨⟨?_, ?_⟩, ?_, ?_, ?_⟩
  · intro i
    rw [length, start, dealing]
  · have bottom : (t.onGameStart s).bottomCards = sortCardList (dealtBankerCards s.last) := by
      rw [start, dealing]
      rfl
    have surplus : (t.onGameStart s).surplusCard = [] := by
      rw [start, dealing]
      rfl
    have sorted : ∀ cards, (sortCardList cards : Multiset ℕ) = cards := fun cards =>
      Multiset.coe_eq_coe.mpr (sortCardList_perm cards)
    have whole := Multiset.coe_eq_coe.mpr (dealt_perm s.last)
    simp only [dealt, ← Multiset.coe_add] at whole
    simp only [hand, bottom, surplus, sorted, Fin.sum_univ_three, Multiset.coe_nil, add_zero, whole]
  · intro i
    rw [length, hand, start]
  · intro i
    rw [length]
    decide
  · intro _
    refine ⟨length, ?_⟩
    rw [start, dealing]
    exact (sortCardList_perm _).length_eq.trans (dealtBankerCards_length s.last)

/-! ## Calling and doubling -/

variable {t : Table}

theorem sameCards_call (t : Table) (chair : Chair) (callScore : ℕ) : t.SameCards (t.call chair callScore) := by
  rw [call]
  split_ifs
  · exact ⟨rfl, rfl, rfl, rfl, Iff.rfl⟩
  · exact .refl t

theorem sameCards_trust (t : Table) (chair : Chair) (trusts : Bool) : t.SameCards (t.trust chair trusts) :=
  ⟨rfl, rfl, rfl, rfl, Iff.rfl⟩

/-- Where one hand changes, the cards of all hands change by what that hand changes. -/
theorem sum_hand_change {h h' : Chair → Multiset ℕ} {chair : Chair} (others : ∀ i, i ≠ chair → h' i = h i) :
    ∑ i, h' i + h chair = ∑ i, h i + h' chair := by
  have rest : ∑ i ∈ Finset.univ.erase chair, h' i = ∑ i ∈ Finset.univ.erase chair, h i :=
    Finset.sum_congr rfl fun i present => others i (Finset.ne_of_mem_erase present)
  rw [← Finset.add_sum_erase Finset.univ h' (Finset.mem_univ chair),
    ← Finset.add_sum_erase Finset.univ h (Finset.mem_univ chair), rest]
  abel

/-- The hand of the banker after the bottom cards are put behind it. -/
theorem Sound.sortHand_banker (sound : t.Sound) (calls : t.gameStatus = .call) (i : Chair) :
    sortHand (copyMemory (t.handCardData i) 17 t.bankerCard) (t.handCardCount i + 3)
      = sortCardList (t.hand i ++ t.bankerCard) := by
  obtain ⟨length, bottom⟩ := sound.calling calls
  have data := sound.front i
  have copied : copyMemory (t.handCardData i) 17 t.bankerCard = t.hand i ++ t.bankerCard := by
    rw [copyMemory, bottom, data, ← length i, List.take_left, List.drop_eq_nil_of_le, List.append_nil]
    rw [List.length_append, List.length_replicate, length i]
  have count : t.handCardCount i + 3 = (t.hand i ++ t.bankerCard).length := by
    rw [List.length_append, sound.counts, bottom]
  rw [copied, count, sortHand, List.take_length, List.drop_length, List.append_nil]

/-- The banker gets the bottom cards. -/
theorem Sound.fixBanker (sound : t.Sound) (calls : t.gameStatus = .call) : t.fixBanker.Sound := by
  obtain ⟨length, bottom⟩ := sound.calling calls
  have bottomCards : t.bottomCards = t.bankerCard := if_pos calls
  generalize banked : t.bankerUser.getD (t.firstUser.getD 0) = banker
  have mine : t.fixBanker.hand banker = sortCardList (t.hand banker ++ t.bankerCard) := by
    rw [hand, Table.fixBanker, banked]
    dsimp only
    rw [Function.update_self, sound.sortHand_banker calls]
    refine unmarked_eq_self fun present => ?_
    rcases List.mem_append.mp (sortCardList_subset _ present) with held | low
    · exact t.zero_notMem_hand banker held
    · exact sound.zero_notMem_bottomCards (bottomCards ▸ low)
  have others : ∀ i, i ≠ banker → t.fixBanker.handCardData i = t.handCardData i := by
    intro i other
    rw [Table.fixBanker, banked]
    exact Function.update_of_ne other _ _
  have same : ∀ i, i ≠ banker → t.fixBanker.hand i = t.hand i := fun i other => by rw [hand, others i other, hand]
  have twenty : (t.fixBanker.hand banker).length = 20 := by
    rw [mine, (sortCardList_perm _).length_eq, List.length_append, length, bottom]
  refine ⟨⟨fun i => ?_, ?_⟩, fun i => ?_, fun i => ?_, nofun⟩
  · rcases eq_or_ne i banker with rfl | other
    · rw [twenty, Table.fixBanker, banked]
      dsimp only
      rw [Function.update_self, sound.counts, length]
    · rw [same i other, ← sound.counts i, Table.fixBanker, banked]
      exact Function.update_of_ne other _ _
  · have change := @sum_hand_change (fun i => t.hand i) (fun i => t.fixBanker.hand i) banker
      (fun i other => congrArg _ (same i other))
    have deck := sound.deck
    have more : (t.fixBanker.hand banker : Multiset ℕ) = t.hand banker + t.bankerCard := by
      rw [mine, Multiset.coe_eq_coe.mpr (sortCardList_perm _), Multiset.coe_add]
    have all : ∑ i, (t.fixBanker.hand i : Multiset ℕ) = ∑ i, (t.hand i : Multiset ℕ) + t.bankerCard := by
      apply add_right_cancel (b := (t.hand banker : Multiset ℕ))
      rw [change, more]
      abel
    have surplus : t.fixBanker.surplusCard = t.surplusCard := rfl
    have none_ : t.fixBanker.bottomCards = [] := rfl
    rw [all, surplus, none_, ← deck, bottomCards, Multiset.coe_nil, add_zero, add_right_comm]
  · rcases eq_or_ne i banker with rfl | other
    · rw [twenty, mine, Table.fixBanker, banked]
      dsimp only
      rw [Function.update_self, sound.sortHand_banker calls, Nat.sub_self, List.replicate_zero, List.append_nil]
    · rw [others i other, same i other, ← sound.front]
  · rcases eq_or_ne i banker with rfl | other
    · exact twenty.le
    · exact same i other ▸ sound.within i

theorem Sound.onUserCallScore (sound : t.Sound) (calls : t.gameStatus = .call) (chair : Chair) (callScore : ℕ) (s : Start) :
    (t.onUserCallScore chair callScore s).Sound := by
  have called := (sameCards_call t chair callScore).sound sound
  have still : (t.call chair callScore).gameStatus = .call := (sameCards_call t chair callScore).calling.mpr calls
  rw [Table.onUserCallScore]
  dsimp only
  split_ifs
  · exact sound
  · exact sound
  · exact sound_onGameStart _ s
  · exact called.fixBanker still
  · exact SameCards.sound (t := t.call chair callScore) ⟨rfl, rfl, rfl, rfl, Iff.rfl⟩ called

/-- Doubling comes after the calls. -/
theorem sameCards_onUserStakeScore (stakes : t.gameStatus = .stake) (chair : Chair) (stakeScore : ℕ) :
    t.SameCards (t.onUserStakeScore chair stakeScore) := by
  generalize stake : (if stakeScore = 0 then 2 else stakeScore) = score
  rw [onUserStakeScore, stake]
  dsimp only
  split_ifs
  · exact .refl t
  · exact ⟨rfl, rfl, rfl, rfl, by simp [stakes]⟩
  · exact ⟨rfl, rfl, rfl, rfl, Iff.rfl⟩

theorem sameCards_onCallStakeTimer (t : Table) : t.SameCards t.onCallStakeTimer := by
  rw [onCallStakeTimer]
  induction List.finRange 3 generalizing t with
  | nil => exact .refl t
  | cons i chairs ih =>
    rw [List.foldl_cons]
    refine SameCards.trans ?_ (ih _)
    split_ifs with waits
    · exact sameCards_onUserStakeScore waits.1 i 2
    · exact .refl t

theorem sameCards_onTimer (t : Table) : t.SameCards t.onTimer := by
  rw [onTimer]
  split
  · rename_i status
    exact ⟨rfl, rfl, rfl, rfl, by simp [status]⟩
  · rename_i status
    exact ⟨rfl, rfl, rfl, rfl, by simp [status]⟩
  · exact .refl t

/-! ## Playing -/

/-- Cards are out of a hand: what was there is what is played, up to zeros, and what is left. -/
theorem Sound.removeFromHand (sound : t.Sound) {chair : Chair} {cards data : List ℕ}
    (removed : removeFromHand (t.handCardData chair) (t.handCardCount chair) cards = some data) :
    data = unmarked 0 data ++ List.replicate (20 - (unmarked 0 data).length) 0
      ∧ (t.hand chair).Perm (unmarked 0 cards ++ unmarked 0 data) := by
  have within := sound.within chair
  rw [Table.removeFromHand, if_neg (not_lt.mpr (sound.counts chair ▸ within)), sound.take_count] at removed
  obtain ⟨left, out, rfl⟩ := Option.map_eq_some_iff.mp removed
  obtain ⟨rest, struck, rfl⟩ := Option.map_eq_some_iff.mp out
  have perm := strikeAll_unmarked_perm struck
  rw [unmarked_eq_self (t.zero_notMem_hand chair)] at perm
  have fewer : (unmarked 0 rest).length ≤ (t.hand chair).length := by
    rw [perm.length_eq, List.length_append]
    exact Nat.le_add_left _ _
  have behind : (t.handCardData chair).drop (t.handCardCount chair) = List.replicate (20 - (t.hand chair).length) 0 := by
    rw [sound.front, sound.counts, List.drop_left]
  have zeros : List.replicate (t.handCardCount chair - (unmarked 0 rest).length) 0
      ++ List.replicate (20 - (t.hand chair).length) 0 = List.replicate (20 - (unmarked 0 rest).length) 0 := by
    rw [List.replicate_append_replicate, sound.counts]
    congr 1
    omega
  rw [behind, List.append_assoc, zeros, unmarked_append_zeros (mark_notMem_unmarked rest)]
  exact ⟨rfl, perm⟩

/-- Nothing moves, or the player whose turn it is plays cards of the hand and loses exactly these. -/
def PlaysHeld (t u : Table) : Prop :=
  (u.surplusCard = t.surplusCard ∧ u.hand = t.hand) ∨
    ∃ chair cards, t.currentUser = some chair ∧ u.surplusCard = t.surplusCard ++ cards
      ∧ (t.hand chair).Perm (cards ++ u.hand chair) ∧ ∀ i, i ≠ chair → u.hand i = t.hand i

theorem SameCards.playsHeld {u : Table} (same : t.SameCards u) : t.PlaysHeld u := .inl ⟨same.surplusCard, same.hand⟩

/-- The count of a hand after cards are out of it. -/
theorem handCardCount_afterOutCard (t : Table) (chair : Chair) (cards data : List ℕ) :
    (t.afterOutCard chair cards data).handCardCount chair = (t.handCardCount chair + 256 - cards.length) % 256 := by
  exact Function.update_self _ _ _

theorem hand_afterOutCard (t : Table) (chair : Chair) (cards data : List ℕ) :
    (t.afterOutCard chair cards data).hand chair = unmarked 0 data := by
  rw [hand, afterOutCard]
  exact congrArg (unmarked 0) (Function.update_self _ _ _)

theorem hand_afterOutCard_of_ne {chair i : Chair} (other : i ≠ chair) (t : Table) (cards data : List ℕ) :
    (t.afterOutCard chair cards data).hand i = t.hand i := by
  rw [hand, hand, afterOutCard]
  exact congrArg (unmarked 0) (Function.update_of_ne other _ _)

/-- Cards without a zero that are out of the hand are played. -/
theorem Sound.afterOutCard (sound : t.Sound) (plays : t.gameStatus ≠ .call) {chair : Chair}
    (turn : t.currentUser = some chair) {cards data : List ℕ} (proper : 0 ∉ cards)
    (removed : Table.removeFromHand (t.handCardData chair) (t.handCardCount chair) cards = some data) :
    (t.afterOutCard chair cards data).Sound ∧ t.PlaysHeld (t.afterOutCard chair cards data) := by
  obtain ⟨front, perm⟩ := sound.removeFromHand removed
  rw [unmarked_eq_self proper] at perm
  have mine := hand_afterOutCard t chair cards data
  have others : ∀ i, i ≠ chair → (t.afterOutCard chair cards data).hand i = t.hand i :=
    fun i other => hand_afterOutCard_of_ne other t cards data
  have length := perm.length_eq
  rw [List.length_append] at length
  have within := sound.within chair
  have after : (t.afterOutCard chair cards data).gameStatus ≠ .call := by
    rw [Table.afterOutCard]
    dsimp only
    split
    · exact plays
    · nofun
  refine ⟨⟨⟨fun i => ?_, ?_⟩, fun i => ?_, fun i => ?_, fun calls => absurd calls after⟩, .inr ⟨chair, cards, turn, rfl, ?_, others⟩⟩
  · rcases eq_or_ne i chair with rfl | other
    · rw [handCardCount_afterOutCard, mine, sound.counts]
      omega
    · rw [others i other, ← sound.counts i]
      exact Function.update_of_ne other _ _
  · have change := @sum_hand_change (fun i => t.hand i) (fun i => (t.afterOutCard chair cards data).hand i) chair
      (fun i other => congrArg _ (others i other))
    have deck := sound.deck
    have less : (t.hand chair : Multiset ℕ) = cards + (t.afterOutCard chair cards data).hand chair := by
      rw [mine, Multiset.coe_add]
      exact Multiset.coe_eq_coe.mpr perm
    have all : ∑ i, ((t.afterOutCard chair cards data).hand i : Multiset ℕ) + cards = ∑ i, (t.hand i : Multiset ℕ) := by
      apply add_right_cancel (b := ((t.afterOutCard chair cards data).hand chair : Multiset ℕ))
      rw [← change, less]
      abel
    have bottom : (t.afterOutCard chair cards data).bottomCards = t.bottomCards := by
      rw [bottomCards, bottomCards, if_neg after, if_neg plays]
    have surplus : ((t.afterOutCard chair cards data).surplusCard : Multiset ℕ) = t.surplusCard + cards :=
      (Multiset.coe_add _ _).symm
    rw [bottom, surplus, ← deck, ← all]
    abel
  · rcases eq_or_ne i chair with rfl | other
    · rw [mine, ← front]
      exact Function.update_self _ _ _
    · rw [others i other, ← sound.front i]
      exact Function.update_of_ne other _ _
  · rcases eq_or_ne i chair with rfl | other
    · rw [mine]
      omega
    · exact others i other ▸ sound.within i
  · rwa [mine]

/-- Where a zero is played, the count of the hand is wrong afterwards. -/
theorem Sound.not_conserved_afterOutCard (sound : t.Sound) {chair : Chair} {cards data : List ℕ} (zero : 0 ∈ cards)
    (few : cards.length ≤ 20)
    (removed : Table.removeFromHand (t.handCardData chair) (t.handCardCount chair) cards = some data) :
    ¬(t.afterOutCard chair cards data).Conserved := by
  intro kept
  obtain ⟨_, perm⟩ := sound.removeFromHand removed
  have count := kept.counts chair
  have within := sound.within chair
  have length := perm.length_eq
  have fewer : (unmarked 0 cards).length < cards.length :=
    List.length_filter_lt_length_iff_exists.mpr ⟨0, zero, by decide⟩
  rw [handCardCount_afterOutCard, hand_afterOutCard, sound.counts] at count
  rw [List.length_append] at length
  omega

end Table

end H5Server.Ddz
