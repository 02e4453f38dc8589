import H5Server.Lib.Runs
import H5Server.Erqs.BalanceHandlers
import H5Server.Erqs.Start

/-! # Tile conservation

In every run whose steps keep the tiles, the wall and the two players together own the initial set
in every state reached, up to and including the state handed to `CalculateScore`.
-/

namespace H5Server.Erqs

namespace GameState

/-- The chair for which an event declares hu. -/
def declarer (s : GameState) : Event → Option (Fin 2)
  | .message chairid .hu => if seated : chairid < 2 then some ⟨chairid, seated⟩ else none
  | .timerRound =>
    if (s.players s.curRoundChairId).hasOptionType .hu then some s.curRoundChairId else none
  | .timerOption =>
    if (s.players (nextChair s.curRoundChairId)).hasOptionType .hu then some (nextChair s.curRoundChairId)
    else none
  | _ => none

/-- The steps at which no tile is lost or duplicated: a winner does not rob the other player's kong,
a chi message picks a chi, and a concealed kong finds all of its tiles or none. -/
structure KeepsTiles (s : GameState) (event : Event) : Prop where
  notRobbed : ∀ chair, s.declarer event = some chair → s.targetInfo.type = .jiaGang →
    (canHu (s.players chair).handCards s.targetInfo.card []).1 = true → s.targetInfo.chair = some chair
  picksChi : ∀ (chair : Fin 2) (cards : List Int), event = .message chair (.chi cards) →
    nextChair s.curRoundChairId = chair → cards.all isValidCard = true →
    ∀ cpg, (s.players chair).getOptionalCpgIdx cards = some cpg → isChiType cpg.type = true
  wholeKong : ∀ (chair : Fin 2) (cards : List Int), event = .message chair (.gang cards) →
    s.cards ≠ [] → cards.all isValidCard = true →
    ∀ cpg, (s.players chair).getOptionalCpgIdx cards = some cpg → cpg.type = .anGang →
      (s.players chair).handCards.count cpg.targetCard = 0 ∨
        4 ≤ (s.players chair).handCards.count cpg.targetCard

theorem balanced_onGameMessage (cfg : TableConfig) {s : GameState} (chair : Fin 2) (msg : Message)
    (total : ∀ tile, s.total tile = initialCards.count tile)
    (ready : Ready s.players s.curRoundChairId s.targetInfo) (keeps : KeepsTiles s (.message chair msg)) :
    Balanced (s.onGameMessage cfg chair msg) := by
  have total' : ∀ tile, (s.modifyPlayer chair (·.setHosting false)).total tile = initialCards.count tile :=
    fun tile => (total_modifyPlayer_of_core (core_setHosting false) tile).trans (total tile)
  have ready' : Ready (s.modifyPlayer chair (·.setHosting false)).players s.curRoundChairId s.targetInfo :=
    ready_modifyPlayer (core_setHosting false) ready
  have self : (s.modifyPlayer chair (·.setHosting false)).players chair = (s.players chair).setHosting false :=
    setPlayer_players_self ..
  cases msg with
  | outCard card => exact balanced_onMsgOutCard cfg chair card total' ready'
  | chi cards =>
    refine balanced_onMsgChi cfg chair cards total' ready' fun turn valid => ?_
    rw [self]
    exact keeps.picksChi chair cards rfl turn valid
  | peng => exact balanced_onMsgPeng cfg chair total' ready'
  | gang cards =>
    refine balanced_onMsgGang cfg chair cards total' ready' fun wall valid => ?_
    rw [self]
    exact keeps.wholeKong chair cards rfl wall valid
  | pass => exact balanced_onMsgPass cfg chair total' ready'
  | ting card => exact balanced_onMsgTing cfg chair card total' ready'
  | hu =>
    refine balanced_onHu chair total' ready' ?_
    rw [self]
    exact keeps.notRobbed chair (by simp only [declarer, Fin.is_lt, ↓reduceDIte])
  | hosting hosting =>
    exact ⟨fun tile => (total_modifyPlayer_of_core (core_setHosting hosting) tile).trans (total' tile),
      fun _ => ready_modifyPlayer (core_setHosting hosting) ready'⟩

/-- One step that keeps the tiles. -/
theorem balanced_step (cfg : TableConfig) (s : GameState) (event : Event) (s' : GameState)
    (balanced : Balanced s) (keeps : KeepsTiles s event) (taken : s.step cfg event = some s') :
    Balanced s' := by
  obtain ⟨playing, cases⟩ := step_cases taken
  obtain ⟨total, ready⟩ := balanced
  have ready := ready playing
  obtain ⟨chair, msg, rfl, rfl⟩ | ⟨chairid, msg, rfl, -, rfl⟩ | ⟨rfl, -, rfl⟩ | ⟨rfl, -, rfl⟩ |
    ⟨rfl, -, rfl⟩ | ⟨chair, rfl, rfl⟩ := cases
  · exact balanced_onGameMessage cfg chair msg total ready keeps
  · exact ⟨total, fun _ => ready⟩
  · exact balanced_onTimerRound cfg total ready fun hu =>
      keeps.notRobbed _ (by simp only [declarer, hu, ↓reduceIte])
  · exact balanced_onTimerOption cfg total ready fun hu =>
      keeps.notRobbed _ (by simp only [declarer, hu, ↓reduceIte])
  · exact balanced_onTimerTianTing cfg total ready
  · exact ⟨fun tile => (total_modifyPlayer_of_core (core_setHosting false) tile).trans (total tile),
      fun _ => ready_modifyPlayer (core_setHosting false) ready⟩

/-! ## The start -/

/-- `SendOption` for ting alone stores no meld, so that whatever was on offer still fits. -/
theorem balanced_sendOption_ting {s : GameState} (chair : Fin 2) (balanced : Balanced s) :
    Balanced (s.sendOption chair MjType.ting.bit).1 := by
  have total : ∀ tile, (s.sendOption chair MjType.ting.bit).1.total tile = s.total tile := fun tile =>
    total_setPlayer_of_held (GameState.held_updateOption _ _ _ _ _ _ tile)
  refine ⟨fun tile => (total tile).trans (balanced.total tile), fun playing => ?_⟩
  obtain ⟨melds, offers, target⟩ := balanced.ready playing
  have self : ((s.sendOption chair MjType.ting.bit).1.players chair).optionalCpgs = [] := by
    simp only [sendOption, setPlayer_players_self]
    exact GamePlayer.updateOption_optionalCpgs_nil _ _ _ _ _ (.inr rfl)
  have same : ∀ seat, ((s.sendOption chair MjType.ting.bit).1.players seat).cpgs = (s.players seat).cpgs ∧
      ((s.sendOption chair MjType.ting.bit).1.players seat).outCards = (s.players seat).outCards := fun seat => by
    by_cases here : seat = chair
    · rw [here]
      simp only [sendOption, setPlayer_players_self]
      exact ⟨rfl, rfl⟩
    · rw [eq_nextChair_of_ne here]
      simp only [sendOption, setPlayer_players_next]
      exact ⟨trivial, trivial⟩
  refine ⟨fun seat => (same seat).1 ▸ melds seat, fun seat => ?_, fun real => ?_⟩
  · by_cases here : seat = chair
    · rw [here]
      constructor <;> simp [self]
    · obtain rfl := eq_nextChair_of_ne here
      refine (offers (nextChair chair)).congr ?_ (same _).2
      simp only [sendOption, setPlayer_players_next]
  · obtain ⟨owner, ownerChair, place⟩ := target real
    refine ⟨owner, ownerChair, ?_⟩
    rw [(same owner).1, (same owner).2]
    exact place

theorem balanced_onGameStart {cfg : TableConfig} (fair : FairDeal cfg) {shuffled : List Int}
    (shuffle : shuffled.Perm initialCards) (banker : Fin 2) (gameMsgCache : List (Fin 2 × Int)) :
    Balanced (onGameStart cfg shuffled banker gameMsgCache) := by
  have dealt := dealt_dealTable cfg banker gameMsgCache (valid_of_shuffle shuffle)
  have total : ∀ tile, (dealTable cfg shuffled banker gameMsgCache).total tile = initialCards.count tile :=
    fun tile => (dealt.total fair tile).trans (shuffle.count_eq tile)
  have noMelds : ∀ chair, ((dealTable cfg shuffled banker gameMsgCache).players chair).cpgs = [] :=
    fun chair => congrArg (·.cpgs) (dealt.players chair)
  have noOffers : ∀ chair, ((dealTable cfg shuffled banker gameMsgCache).players chair).optionalCpgs = [] :=
    fun chair => congrArg (·.optionalCpgs) (dealt.players chair)
  have opened : Balanced ((dealTable cfg shuffled banker gameMsgCache).updateGameRound cfg banker false) := by
    refine balanced_updateGameRound cfg total (fun chair => by rw [noMelds]; nofun) ?_
    exact ⟨by rw [noOffers]; nofun, by rw [noOffers]; nofun, by rw [noOffers]; nofun, by rw [noOffers]; nofun⟩
  have sent := balanced_sendOption_ting (nextChair banker) opened
  unfold onGameStart
  dsimp only
  generalize ((dealTable cfg shuffled banker gameMsgCache).updateGameRound cfg banker false).sendOption
    (nextChair banker) MjType.ting.bit = result at sent ⊢
  obtain ⟨s', offered⟩ := result
  cases offered with
  | false => exact sent
  | true => exact ⟨sent.total, sent.ready⟩

/-! ## Runs -/

/-- In every state reached by steps that keep the tiles, the tiles are the initial set. -/
theorem tiles_eq_of_run {cfg : TableConfig} (fair : FairDeal cfg) {shuffled : List Int}
    (shuffle : shuffled.Perm initialCards) {banker : Fin 2} {gameMsgCache : List (Fin 2 × Int)}
    {events : List Event} {s : GameState}
    (run : Lib.Run (step cfg) KeepsTiles (onGameStart cfg shuffled banker gameMsgCache) events s) :
    s.tiles = (initialCards : Multiset Int) := by
  have balanced : Balanced s :=
    run.invariant (balanced_step cfg) (balanced_onGameStart fair shuffle banker gameMsgCache)
  refine Multiset.ext.mpr fun tile => ?_
  rw [count_tiles, balanced.total, Multiset.coe_count]

/-- The banker's first discard, from an unshuffled wall. -/
theorem tiles_eq_of_run_discard :
    ((onGameStart plainTable initialCards 0 []).onGameMessage plainTable 0 (.outCard 0x31)).tiles =
      (initialCards : Multiset Int) := by
  have playing : (onGameStart plainTable initialCards 0 []).playing = true := by decide +kernel
  have taken : step plainTable (onGameStart plainTable initialCards 0 []) (.message 0 (.outCard 0x31)) =
      some ((onGameStart plainTable initialCards 0 []).onGameMessage plainTable 0 (.outCard 0x31)) := by
    simp only [step, playing, Bool.not_true, Bool.false_eq_true, Nat.zero_lt_two, ↓reduceIte, ↓reduceDIte]
    rfl
  have run : Lib.Run (step plainTable) KeepsTiles (onGameStart plainTable initialCards 0 [])
      [.message 0 (.outCard 0x31)] _ := .cons ⟨nofun, nofun, nofun⟩ taken (.nil _)
  exact tiles_eq_of_run (.inl rfl) (.refl _) run

/-- The second player's fourth 0x03 completes the banker's 0x01 0x02. -/
def robbedKongShuffle : List Int :=
  stackedShuffle
    [0x01, 0x02, 0x04, 0x05, 0x06, 0x07, 0x08, 0x09, 0x31, 0x31, 0x31, 0x32, 0x32]
    [0x03, 0x03, 0x37, 0x35, 0x34, 0x33, 0x01, 0x01, 0x09, 0x09, 0x06, 0x07, 0x32]
    [0x03, 0x36, 0x03]

/-- A peng of 0x03 becomes a kong, which the banker robs. -/
def robbedKongEvents : List Event :=
  [.message 0 (.outCard 0x03), .message 1 .peng, .message 1 (.outCard 0x37), .message 0 (.outCard 0x36),
    .message 1 (.gang [0x03, 0x03, 0x03, 0x03]), .message 0 .hu]

/-- The robbed kong keeps its four tiles while the winner is given a fifth. -/
theorem robbed_kong_duplicates : ¬∀ (cfg : TableConfig) (shuffled : List Int) (banker : Fin 2)
    (gameMsgCache : List (Fin 2 × Int)) (events : List Event) (s : GameState), shuffled.Perm initialCards →
    Lib.Run (step cfg) (fun _ _ => True) (onGameStart cfg shuffled banker gameMsgCache) events s →
    s.tiles = (initialCards : Multiset Int) := by
  intro conserved
  have five : (Lib.replay (step plainTable) (onGameStart plainTable robbedKongShuffle 0 [])
      robbedKongEvents).map (·.total 0x03) = some 5 := by decide +kernel
  obtain ⟨s, reached, count⟩ := Option.map_eq_some_iff.mp five
  have same := conserved plainTable robbedKongShuffle 0 [] robbedKongEvents s (by decide +kernel)
    (Lib.run_of_replay reached)
  have four : s.tiles.count 0x03 = 4 := by
    rw [same, Multiset.coe_count]
    decide +kernel
  rw [count_tiles, count] at four
  cases four

end GameState

end H5Server.Erqs
