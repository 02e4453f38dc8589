import H5Server.Ddz.Conservation

/-! # Rounds in which no zero is played

The table plays cards of the hand only, so only an out-card message can play a zero. It does so where its
bytes form a type that beats what is on the table, where a card comes first, and where all its cards are in
the hand. In rounds without such a message every state has the whole deck.
-/

namespace H5Server.Ddz

open Lib

namespace Table

variable {t : Table} {chair : Chair}

/-- A play of cards that are not zero keeps the deck, and so does what is refused. -/
theorem Sound.onUserOutCard (sound : t.Sound) (plays : t.gameStatus ≠ .call) {cards : List ℕ} (proper : 0 ∉ cards)
    {u : Table} (played : t.onUserOutCard chair cards = some u) : u.Sound ∧ t.PlaysHeld u := by
  rw [Table.onUserOutCard] at played
  split_ifs at played with away
  · obtain rfl := Option.some.inj played
    exact ⟨sound, (SameCards.refl t).playsHeld⟩
  · obtain ⟨data, removed, rfl⟩ := Option.map_eq_some_iff.mp played
    exact sound.afterOutCard plays (not_not.mp away) proper removed

theorem sameCards_onUserPassCard (t : Table) (chair : Chair) : t.SameCards (t.onUserPassCard chair) := by
  rw [onUserPassCard]
  split
  · exact .refl t
  · exact ⟨rfl, rfl, rfl, rfl, Iff.rfl⟩

/-- A play that may be refused, and what is done instead. -/
theorem Sound.onUserOutCard_getD (sound : t.Sound) (plays : t.gameStatus ≠ .call) {cards : List ℕ} (proper : 0 ∉ cards)
    {u : Table} (same : t.SameCards u) :
    ((t.onUserOutCard chair cards).getD u).Sound ∧ t.PlaysHeld ((t.onUserOutCard chair cards).getD u) := by
  cases played : t.onUserOutCard chair cards with
  | none => exact ⟨same.sound sound, same.playsHeld⟩
  | some v => exact sound.onUserOutCard plays proper played

theorem zero_notMem_suggestion {turnCard cards : List ℕ}
    (found : cards ∈ searchOutCard (t.hand chair) turnCard) : 0 ∉ cards := fun present =>
  t.zero_notMem_hand chair (subset_of_mem_searchOutCard found present)

theorem Sound.zero_notMem_smallestCard (sound : t.Sound) (some_ : 0 < t.handCardCount chair) :
    0 ∉ t.smallestCard chair := by
  have inside : t.handCardCount chair - 1 < (t.hand chair).length := by
    rw [← sound.counts]
    omega
  have last : (t.handCardData chair).getD (t.handCardCount chair - 1) 0 = (t.hand chair)[t.handCardCount chair - 1] := by
    rw [sound.front, List.getD_eq_getElem?_getD, List.getElem?_append_left inside, List.getElem?_eq_getElem inside,
      Option.getD_some]
  rw [smallestCard, last, List.mem_singleton]
  exact fun zero => t.zero_notMem_hand chair (zero ▸ List.getElem_mem inside)

theorem mem_of_outAllCard {turnCard cards : List ℕ} {suggestions : List (List ℕ)} {count : ℕ}
    (found : outAllCard turnCard suggestions count = some cards) : cards ∈ suggestions ∧ cards.length = count := by
  have inside : cards ∈ suggestions.filter fun cards => cards.length = count := by
    rw [outAllCard] at found
    split_ifs at found
    · exact List.mem_of_mem_head? found
    · exact List.mem_of_getLast? found
  obtain ⟨present, length⟩ := List.mem_filter.mp inside
  exact ⟨present, of_decide_eq_true length⟩

/-- What the table plays for a player are cards of the hand. -/
theorem Sound.onAutoOutCard (sound : t.Sound) (chair : Chair) :
    (t.onAutoOutCard chair).Sound ∧ t.PlaysHeld (t.onAutoOutCard chair) := by
  have stays : t.Sound ∧ t.PlaysHeld t := ⟨sound, (SameCards.refl t).playsHeld⟩
  have passes : (t.onUserPassCard chair).Sound ∧ t.PlaysHeld (t.onUserPassCard chair) :=
    ⟨(sameCards_onUserPassCard t chair).sound sound, (sameCards_onUserPassCard t chair).playsHeld⟩
  have sorted : ∀ {cards}, cards ∈ searchOutCard (t.hand chair) t.turnCardData → 0 ∉ sortCardList cards :=
    fun found present => zero_notMem_suggestion found (sortCardList_subset _ present)
  rw [Table.onAutoOutCard]
  split
  · exact stays
  rename_i here
  have plays : t.gameStatus ≠ .call := by
    intro calls
    simp [calls] at here
  dsimp only
  rw [sound.take_count]
  split
  · rename_i finds
    split
    · rename_i cards all
      exact sound.onUserOutCard_getD plays (sorted (mem_of_outAllCard all).1) (.refl t)
    · split
      · have smallest := sound.zero_notMem_smallestCard finds.1
        have first : 0 ∉ (searchOutCard (t.hand chair) []).headD (t.smallestCard chair) := by
          cases found : searchOutCard (t.hand chair) [] with
          | nil => exact smallest
          | cons cards others => exact zero_notMem_suggestion (found ▸ List.mem_cons_self)
        rw [Option.getD_or]
        cases led : t.onUserOutCard chair ((searchOutCard (t.hand chair) []).headD (t.smallestCard chair)) with
        | some u => exact sound.onUserOutCard plays first led
        | none => exact sound.onUserOutCard_getD plays smallest (.refl t)
      · refine sound.onUserOutCard_getD plays (sorted ?_) (sameCards_onUserPassCard t chair)
        obtain ⟨cards, others, found⟩ := List.exists_cons_of_ne_nil finds.2
        rw [found]
        exact List.mem_cons_self
  · exact passes

/-- Played from a table that has the same cards and the same player in turn. -/
theorem PlaysHeld.of_same {u v : Table} (held : v.PlaysHeld u) (same : t.SameCards v)
    (turn : v.currentUser = t.currentUser) : t.PlaysHeld u := by
  rw [PlaysHeld, same.surplusCard, same.hand, turn] at held
  exact held

/-- The work of the table after changes that have nothing to do with cards. -/
theorem Sound.onAutoOutCard_of_same {v : Table} (sound : t.Sound) (same : t.SameCards v)
    (turn : v.currentUser = t.currentUser) (chair : Chair) :
    (v.onAutoOutCard chair).Sound ∧ t.PlaysHeld (v.onAutoOutCard chair) := by
  obtain ⟨after, held⟩ := (same.sound sound).onAutoOutCard chair
  exact ⟨after, held.of_same same turn⟩

theorem sameCards_onCancelTrustee (t : Table) (chair : Chair) : t.SameCards (t.onCancelTrustee chair) := by
  rw [onCancelTrustee]
  dsimp only
  split_ifs
  · exact .refl t
  · exact ⟨rfl, rfl, rfl, rfl, Iff.rfl⟩
  · exact ⟨rfl, rfl, rfl, rfl, Iff.rfl⟩

/-! ## Messages -/

/-- Bytes of the player whose turn it is that are played although they show a zero. -/
structure PlaysZero (t : Table) (chair : Chair) (cards : List ℕ) : Prop where
  turn : t.currentUser = some chair
  zero : 0 ∈ cards
  type : getCardType cards ≠ .error
  beats : t.turnCardData.length = 0 ∨ compareCard t.turnCardData cards
  cardFirst : cards.head? ≠ some 0
  held : (unmarked 0 cards).Subperm (t.hand chair)

/-- The bytes can be taken from the hand exactly if a card comes first and the cards among them are held. -/
theorem Sound.removeFromHand_isSome (sound : t.Sound) (chair : Chair) (cards : List ℕ) :
    (Table.removeFromHand (t.handCardData chair) (t.handCardCount chair) cards).isSome ↔
      cards.head? ≠ some 0 ∧ (unmarked 0 cards).Subperm (t.hand chair) := by
  have clean := t.zero_notMem_hand chair
  rw [Table.removeFromHand, if_neg (not_lt.mpr (sound.counts chair ▸ sound.within chair)), sound.take_count,
    Option.isSome_map, removeCardList, Option.isSome_map, strikeAll_isSome_iff_head clean, unmarked_eq_self clean]

theorem onUserOutCard_of_ne (away : t.currentUser ≠ some chair) (cards : List ℕ) :
    t.onUserOutCard chair cards = some t := if_pos away

/-- What a play comes to when it is the player's turn. -/
theorem onUserOutCard_eq_some {cards : List ℕ} {u : Table} (turn : t.currentUser = some chair)
    (played : t.onUserOutCard chair cards = some u) :
    getCardType cards ≠ .error ∧ (t.turnCardData.length = 0 ∨ compareCard t.turnCardData cards)
      ∧ ∃ data, Table.removeFromHand (t.handCardData chair) (t.handCardCount chair) cards = some data
        ∧ u = t.afterOutCard chair cards data := by
  rw [onUserOutCard] at played
  split_ifs at played with away wrong weak
  · exact absurd turn away
  · obtain ⟨data, removed, rfl⟩ := Option.map_eq_some_iff.mp played
    refine ⟨wrong, ?_, data, removed, rfl⟩
    rcases em (t.turnCardData.length = 0) with leads | answers
    · exact .inl leads
    · exact .inr (not_not.mp fun fails => weak ⟨answers, fails⟩)

/-- What is accepted with a zero meets the description. -/
theorem Sound.playsZero (sound : t.Sound) {cards : List ℕ} {u : Table} (turn : t.currentUser = some chair)
    (zero : 0 ∈ cards) (played : t.onUserOutCard chair cards = some u) : t.PlaysZero chair cards := by
  obtain ⟨type, beats, data, removed, _⟩ := onUserOutCard_eq_some turn played
  obtain ⟨cardFirst, held⟩ := (sound.removeFromHand_isSome chair cards).mp (Option.isSome_of_eq_some removed)
  exact ⟨turn, zero, type, beats, cardFirst, held⟩

/-- What meets the description is accepted, and the count of the hand is wrong afterwards. -/
theorem Sound.not_conserved_of_playsZero (sound : t.Sound) {cards : List ℕ} (few : cards.length ≤ 20)
    (zeros : t.PlaysZero chair cards) : ∃ u, t.onUserOutCard chair cards = some u ∧ ¬u.Conserved := by
  have taken := (sound.removeFromHand_isSome chair cards).mpr ⟨zeros.cardFirst, zeros.held⟩
  obtain ⟨data, removed⟩ := Option.isSome_iff_exists.mp taken
  refine ⟨t.afterOutCard chair cards data, ?_, sound.not_conserved_afterOutCard zeros.zero few removed⟩
  have beats : ¬(t.turnCardData.length ≠ 0 ∧ ¬compareCard t.turnCardData cards = true) := by
    rintro ⟨answers, fails⟩
    exact zeros.beats.elim answers fails
  rw [Table.onUserOutCard, if_neg (not_not.mpr zeros.turn), if_neg zeros.type, if_neg beats, removed]
  rfl

end Table

/-- A message declares at most as many bytes as its array has. -/
def Event.Declared : Event → Prop
  | .outCard _ _ cardCount => cardCount ≤ 20
  | _ => True

namespace Table

variable {t : Table}

/-- No zero is played. -/
def Careful (t : Table) : Event → Prop
  | .outCard chair cardData cardCount => t.gameStatus = .play → ¬t.PlaysZero chair (messageCards cardData cardCount)
  | _ => True

/-- A round goes on with the whole deck, and where cards are played they were held. -/
def Goes (t u : Table) : Prop := u.Sound ∧ (t.gameStatus = .play → t.PlaysHeld u)

theorem Sound.goes_of_same (sound : t.Sound) {u : Table} (same : t.SameCards u) : t.Goes u :=
  ⟨same.sound sound, fun _ => same.playsHeld⟩

/-- Nothing is played before the cards are. -/
theorem goes_of_calling {u : Table} (sound : u.Sound) (calls : t.gameStatus = .call) : t.Goes u :=
  ⟨sound, fun plays => absurd (calls.symm.trans plays) nofun⟩

theorem Sound.goes_outCard (sound : t.Sound) (plays : t.gameStatus = .play) (chair : Chair) {cards : List ℕ}
    (careful : ¬t.PlaysZero chair cards) :
    t.Goes (((t.trust chair false).onUserOutCard chair cards).getD (t.trust chair false)) := by
  have same := sameCards_trust t chair false
  have sound' := same.sound sound
  have plays' : (t.trust chair false).gameStatus ≠ .call := fun calls => absurd (calls.symm.trans plays) nofun
  cases played : (t.trust chair false).onUserOutCard chair cards with
  | none => exact sound.goes_of_same same
  | some u =>
    rcases em (t.currentUser = some chair) with turn | away
    · have proper : 0 ∉ cards := fun zero =>
        careful (by
          obtain ⟨turn, zero, type, beats, cardFirst, held⟩ := sound'.playsZero turn zero played
          exact ⟨turn, zero, type, beats, cardFirst, same.hand ▸ held⟩)
      obtain ⟨after, held⟩ := sound'.onUserOutCard plays' proper played
      exact ⟨after, fun _ => held.of_same same rfl⟩
    · rw [onUserOutCard_of_ne (t := t.trust chair false) away] at played
      obtain rfl := Option.some.inj played
      exact sound.goes_of_same same

/-- One event. -/
theorem Sound.step (sound : t.Sound) {event : Event} (careful : t.Careful event) : t.Goes (t.step event) := by
  cases event with
  | callBanker chair callInfo s =>
    rw [Table.step]
    split
    · rename_i calls
      exact goes_of_calling (((sameCards_trust t chair false).sound sound).onUserCallScore calls _ _ s) calls
    · exact sound.goes_of_same (.refl t)
  | callBankerTimer s =>
    rw [Table.step]
    split
    · rename_i chair calls _
      exact goes_of_calling (sound.onUserCallScore calls _ _ s) calls
    · exact sound.goes_of_same (.refl t)
  | addDouble chair doubleInfo =>
    rw [Table.step]
    split
    · rename_i stakes
      have stakes' : (t.trust chair false).gameStatus = .stake := stakes.2
      exact sound.goes_of_same ((sameCards_trust t chair false).trans (sameCards_onUserStakeScore stakes' _ _))
    · exact sound.goes_of_same (.refl t)
  | callStakeTimer => exact sound.goes_of_same (sameCards_onCallStakeTimer t)
  | timer => exact sound.goes_of_same (sameCards_onTimer t)
  | outCard chair cardData cardCount =>
    rw [Table.step]
    split
    · rename_i plays
      exact sound.goes_outCard plays chair (careful plays)
    · exact sound.goes_of_same (.refl t)
  | passCard chair =>
    rw [Table.step]
    split
    · exact sound.goes_of_same ((sameCards_trust t chair false).trans (sameCards_onUserPassCard _ chair))
    · exact sound.goes_of_same (.refl t)
  | trustee chair =>
    rw [Table.step, onTrustee]
    split
    · obtain ⟨after, held⟩ := sound.onAutoOutCard_of_same (v := { t.trust chair true with
        haveCancelTrustee := false, trustTimer := false }) ⟨rfl, rfl, rfl, rfl, Iff.rfl⟩ rfl chair
      exact ⟨after, fun _ => held⟩
    · exact sound.goes_of_same (sameCards_trust t chair true)
  | cancelTrustee chair => exact sound.goes_of_same (sameCards_onCancelTrustee t chair)
  | userTrustTimer =>
    rw [Table.step, onUserTrustTimer]
    split
    · rename_i chair _ _
      obtain ⟨after, held⟩ := sound.onAutoOutCard_of_same (v := { t.trust chair true with trustTimer := false })
        ⟨rfl, rfl, rfl, rfl, Iff.rfl⟩ rfl chair
      exact ⟨after, fun _ => held⟩
    · exact sound.goes_of_same (.refl t)
  | autoWork trusts =>
    rw [Table.step]
    split
    · rename_i chair _ _
      obtain ⟨after, held⟩ := sound.onAutoOutCard_of_same (sameCards_trust t chair trusts) rfl chair
      exact ⟨after, fun _ => held⟩
    · exact sound.goes_of_same (.refl t)

/-- A zero that is played is missed by the count. -/
theorem Sound.careful_of_conserved (sound : t.Sound) {event : Event} (declared : event.Declared)
    (kept : (t.step event).Conserved) : t.Careful event := by
  cases event with
  | outCard chair cardData cardCount =>
    intro plays zeros
    have same := sameCards_trust t chair false
    have few : (messageCards cardData cardCount).length ≤ 20 := (List.length_take_le _ _).trans declared
    have zeros' : (t.trust chair false).PlaysZero chair (messageCards cardData cardCount) :=
      ⟨zeros.turn, zeros.zero, zeros.type, zeros.beats, zeros.cardFirst, same.hand ▸ zeros.held⟩
    obtain ⟨u, played, broken⟩ := (same.sound sound).not_conserved_of_playsZero few zeros'
    rw [Table.step, if_pos plays, played] at kept
    exact broken kept
  | _ => trivial

/-- The rounds of a start in which no zero is played have the whole deck in every state, and whatever
happens next, the next state has it too, and cards played were held, exactly if no zero is played then. -/
theorem deck_of_run (t₀ : Table) (s : Start) {events : List Event}
    (run : Run (fun u event => some (u.step event)) (fun u event => event.Declared ∧ u.Careful event)
      (t₀.onGameStart s) events t) :
    t.Conserved ∧ ∀ event, event.Declared →
      ((t.step event).Conserved ∧ (t.gameStatus = .play → t.PlaysHeld (t.step event)) ↔ t.Careful event) := by
  have sound : t.Sound := by
    refine run.invariant (fun u event v sound allowed taken => ?_) (sound_onGameStart t₀ s)
    obtain rfl := Option.some.inj taken
    exact (sound.step allowed.2).1
  refine ⟨sound.toConserved, fun event declared => ⟨fun kept => ?_, fun careful => ?_⟩⟩
  · exact sound.careful_of_conserved declared kept.1
  · obtain ⟨after, held⟩ := sound.step careful
    exact ⟨after.toConserved, held⟩

/-- A round of an unshuffled deck in which player 0 calls three points and the others double. -/
def plainStart : Start where
  firstUser := 0
  deals := []
  last :=
    { randCard := cardData
      haveGoodCard := none
      positions := List.replicate 38 0
      shuffled := .refl _
      drawn := by decide }

def emptyTable : Table where
  gameStatus := .free
  handCardData := fun _ => List.replicate 20 0
  handCardCount := fun _ => 0
  bankerCard := List.replicate 3 0
  bankerUser := none
  currentUser := none
  firstUser := none
  turnWiner := none
  turnCardData := []
  bankerScore := 0
  noCallCount := 0
  stakeInfo := fun _ => 0
  trustee := fun _ => false
  haveCancelTrustee := false
  surplusCard := []
  trustTimer := false

def plainEvents : List Event :=
  [.callBanker 0 3 plainStart, .timer, .addDouble 1 2, .addDouble 2 2, .timer]

theorem deck_of_run_plain :
    (((plainEvents ++ [Event.outCard 0 [0x0D] 1]).foldl step (emptyTable.onGameStart plainStart)).step
      (.outCard 1 [0x1D] 1)).Conserved := by
  have careful : ∀ card, card ≠ 0 → ∀ u : Table, u.Careful (.outCard 0 [card] 1) ∧ u.Careful (.outCard 1 [card] 1) := by
    intro card proper u
    have absent : 0 ∉ messageCards [card] 1 := by simpa [messageCards] using proper.symm
    exact ⟨fun _ zeros => absent zeros.zero, fun _ zeros => absent zeros.zero⟩
  have run : Run (fun u event => some (u.step event)) (fun u event => event.Declared ∧ u.Careful event)
      (emptyTable.onGameStart plainStart) (plainEvents ++ [Event.outCard 0 [0x0D] 1])
      ((plainEvents ++ [Event.outCard 0 [0x0D] 1]).foldl step (emptyTable.onGameStart plainStart)) := by
    refine run_of_replay_of (fun event present u => ?_) (replay_total step _ _)
    simp only [plainEvents, List.cons_append, List.nil_append, List.mem_cons, List.not_mem_nil, or_false] at present
    rcases present with rfl | rfl | rfl | rfl | rfl | rfl
    case inr.inr.inr.inr.inr => exact ⟨(by decide : 1 ≤ 20), (careful 0x0D (by decide) u).1⟩
    all_goals exact ⟨trivial, trivial⟩
  have declared : (Event.outCard 1 [0x1D] 1).Declared := (by decide : 1 ≤ 20)
  exact (((deck_of_run emptyTable plainStart run).2 _ declared).mpr (careful 0x1D (by decide) _).2).1

/-- The first player leads a king and a zero byte as a pair. -/
theorem zero_played_as_king :
    ¬∀ (t₀ : Table) (s : Start) (events : List Event) (t : Table),
      Run (fun u event => some (u.step event)) (fun _ event => event.Declared) (t₀.onGameStart s) events t →
        t.Conserved := by
  intro all
  have run : Run (fun u event => some (u.step event)) (fun _ event => event.Declared)
      (emptyTable.onGameStart plainStart) (plainEvents ++ [Event.outCard 0 [0x0D, 0x00] 2])
      ((plainEvents ++ [Event.outCard 0 [0x0D, 0x00] 2]).foldl step (emptyTable.onGameStart plainStart)) := by
    refine run_of_replay_of (fun event present u => ?_) (replay_total step _ _)
    simp only [plainEvents, List.cons_append, List.nil_append, List.mem_cons, List.not_mem_nil, or_false] at present
    rcases present with rfl | rfl | rfl | rfl | rfl | rfl
    case inr.inr.inr.inr.inr => exact (by decide : 2 ≤ 20)
    all_goals trivial
  have count := (all _ _ _ _ run).counts 0
  revert count
  decide +kernel

end Table

end H5Server.Ddz
