import H5Server.Erqs.Conservation
import H5Server.Erqs.StaleOffers
import H5Server.Erqs.TurnHandlers

/-! # Turns and kongs over a round

In every run whose claims were offered and whose passes decline what the source expects, the player
to move holds fourteen tiles, or both hold thirteen while a claim is pending, and every kong is
served from the tail of the wall.
-/

namespace H5Server.Erqs

namespace GameState

variable {s : GameState}

/-- The steps that keep the turn: a claim message that acts was offered, and a pass of the player
whose turn it is not declines a discard or, in the ready-hand phase of the start, that phase's offer. -/
structure KeepsTurn (s : GameState) (event : Event) : Prop where
  offered : ∀ (chair : Fin 2) (msg : Message), event = .message chair msg → IsClaim msg →
    s.Admits chair msg → (s.players chair).Acts msg → (s.players chair).Offered msg
  declines : ∀ chair : Fin 2, event = .message chair .pass → (s.players chair).hasOption = true →
    chair ≠ s.curRoundChairId → s.targetInfo.type = if s.tianTinging then .invalid else .out

theorem option_ne_zero_of_hasOptionType {player : GamePlayer} {type : MjType}
    (bit : player.hasOptionType type = true) : player.option ≠ 0 := fun clear => by
  rw [GamePlayer.hasOptionType, clear, hasType_zero] at bit
  cases bit

/-- A claim message that is carried out, in a round in order. -/
private theorem orderly_effective (cfg : TableConfig) (running : Running s) {chair : Fin 2} {msg : Message}
    (claim : IsClaim msg) (admits : s.Admits chair msg) (acts : (s.players chair).Acts msg)
    (offered : (s.players chair).Offered msg) :
    Orderly (match msg with
      | .chi cards => s.onMsgChi cfg chair cards
      | .peng => s.onMsgPeng cfg chair
      | .gang cards => s.onMsgGang cfg chair cards
      | .ting card => s.onMsgTing cfg chair card
      | _ => s) := by
  cases msg with
  | chi cards =>
    obtain ⟨cpg, picked, chi, bit⟩ := offered
    exact orderly_onMsgChi cfg running admits.2 picked chi (option_ne_zero_of_hasOptionType bit)
  | peng =>
    obtain ⟨cpg, picked, -⟩ := acts
    exact orderly_onMsgPeng cfg running picked (option_ne_zero_of_hasOptionType offered)
  | gang cards =>
    obtain ⟨cpg, picked, kong, present⟩ := acts
    obtain ⟨other, found, -, bit⟩ := offered
    exact orderly_onMsgGang cfg running admits.1 admits.2 picked kong (List.count_pos_iff.mpr present).ne'
      (option_ne_zero_of_hasOptionType bit)
  | ting card => exact orderly_onMsgTing cfg running chair card
  | _ => exact absurd claim id

theorem orderly_onGameMessage (cfg : TableConfig) (running : Running s) (chair : Fin 2) (msg : Message)
    (keeps : KeepsTurn s (.message chair msg)) : Orderly (s.onGameMessage cfg chair msg) := by
  have hosted := running.setHosting chair false
  have self : (s.modifyPlayer chair (·.setHosting false)).players chair = (s.players chair).setHosting false :=
    setPlayer_players_self ..
  by_cases claim : IsClaim msg
  · by_cases effective : s.Admits chair msg ∧ (s.players chair).Acts msg
    · have offered := keeps.offered chair msg rfl claim effective.1 effective.2
      have admits : (s.modifyPlayer chair (·.setHosting false)).Admits chair msg := by
        cases msg <;> exact effective.1
      have orderly := orderly_effective cfg hosted claim admits (by rw [self]; cases msg <;> exact effective.2)
        (by rw [self]; cases msg <;> exact offered)
      cases msg with
      | chi | peng | gang | ting => exact orderly
      | _ => exact absurd claim id
    · rw [onGameMessage_idle cfg chair claim (wall_valid running.total) effective]
      exact hosted.orderly
  · cases msg with
    | outCard card => exact orderly_onMsgOutCard cfg hosted chair card
    | pass =>
      refine orderly_onMsgPass cfg hosted chair ?_
      rw [self]
      exact keeps.declines chair rfl
    | hu => exact orderly_onHu hosted chair
    | hosting hosting => exact (hosted.setHosting chair hosting).orderly
    | _ => exact absurd trivial claim

/-- One step that keeps the turn. -/
theorem orderly_step (cfg : TableConfig) (s : GameState) (event : Event) (s' : GameState) (orderly : Orderly s)
    (keeps : KeepsTurn s event) (taken : s.step cfg event = some s') : Orderly s' := by
  obtain ⟨playing, cases⟩ := step_cases taken
  have running := orderly.running playing
  obtain ⟨chair, msg, rfl, rfl⟩ | ⟨chairid, msg, rfl, -, rfl⟩ | ⟨rfl, -, rfl⟩ | ⟨rfl, armed, rfl⟩ |
    ⟨rfl, -, rfl⟩ | ⟨chair, rfl, rfl⟩ := cases
  · exact orderly_onGameMessage cfg running chair msg keeps
  · exact orderly
  · exact orderly_onTimerRound cfg running
  · exact orderly_onTimerOption cfg running armed
  · exact orderly_onTimerTianTing cfg running
  · exact (running.setHosting chair false).orderly

/-! ## The start -/

/-- A round just opened has nothing to claim. -/
private theorem targetInfo_updateGameRound (cfg : TableConfig) {chair : Fin 2} {addHandCard : Bool}
    (valid : gameInvalidCard ∉ s.cards) (playing : (s.updateGameRound cfg chair addHandCard).playing = true) :
    (s.updateGameRound cfg chair addHandCard).targetInfo = {} := by
  obtain concluded | opened := s.updateGameRound_cases cfg chair addHandCard valid
  · exact absurd (concluded.finished.symm.trans playing) Bool.false_ne_true
  · exact (congrArg targetInfo opened.frame :)

/-- Ready-hand offers to the other player, who may not claim anything yet. -/
private theorem Turn.sendOption_ting {chair : Fin 2} (turn : Turn s) (target : s.targetInfo.type = .invalid)
    (cur : s.curRoundChairId = chair) : Turn (s.sendOption (nextChair chair) MjType.ting.bit).1 := by
  have self : (s.sendOption (nextChair chair) MjType.ting.bit).1.players chair = s.players chair :=
    setPlayer_next_players ..
  have next : (s.sendOption (nextChair chair) MjType.ting.bit).1.players (nextChair chair) =
      (s.players (nextChair chair)).updateOption (nextChair chair) s.targetInfo.card s.targetInfo.chair
        (decide (0 < s.cards.length)) MjType.ting.bit := setPlayer_players_self ..
  cases turn with
  | claim notInvalid => exact absurd target notInvalid
  | move _ timer atTurn settled =>
    refine .move target timer ?_ settled
    change AtTurn (s.sendOption (nextChair chair) MjType.ting.bit).1.players s.curRoundChairId
    rw [cur] at atTurn ⊢
    refine ⟨by rw [self]; exact atTurn.own, ?_, by rw [self]; exact atTurn.whole, fun _ => ?_⟩
    · rw [next]
      exact atTurn.other
    · rw [next]
      exact GamePlayer.updateOption_optionalCpgs_nil _ _ _ _ _ (.inr rfl)

/-- The banker's round, opened after the deal. -/
private theorem orderly_bankerRound {cfg : TableConfig} (fair : FairDeal cfg) {shuffled : List Int}
    (shuffle : shuffled.Perm initialCards) (banker : Fin 2) (gameMsgCache : List (Fin 2 × Int)) :
    let s := (dealTable cfg shuffled banker gameMsgCache).updateGameRound cfg banker false
    KongServed s.replay ∧ (s.playing = true → Turn s ∧ s.curRoundChairId = banker) := by
  have dealt := dealt_dealTable cfg banker gameMsgCache (valid_of_shuffle shuffle)
  have size : shuffled.length = 72 := shuffle.length_eq.trans (by decide +kernel)
  have total : ∀ tile, (dealTable cfg shuffled banker gameMsgCache).total tile = initialCards.count tile :=
    fun tile => (dealt.total fair tile).trans (shuffle.count_eq tile)
  have timer : (dealTable cfg shuffled banker gameMsgCache).timerOption = false :=
    (congrArg timerOption dealt.frame :)
  have noMelds : ∀ seat, ((dealTable cfg shuffled banker gameMsgCache).players seat).cpgs = [] :=
    fun seat => congrArg (·.cpgs) (dealt.players seat)
  have quiet : ∀ step ∈ (dealTable cfg shuffled banker gameMsgCache).replay, step.kong = none :=
    fun step present => by
      obtain ⟨chair, rfl | rfl⟩ := dealt.replay step present <;> rfl
  have served : KongServed (dealTable cfg shuffled banker gameMsgCache).replay :=
    KongServed.append Lib.faithful_nil quiet fun chair => Lib.not_stands_nil chair
  have settled : ∀ chair, ¬KongStands (dealTable cfg shuffled banker gameMsgCache).replay chair :=
    settled_append quiet fun chair => Lib.not_stands_nil chair
  have sizes := dealt.sizes (by omega)
  generalize dealTable cfg shuffled banker gameMsgCache = s at total timer noMelds served settled sizes
  intro s'
  refine ⟨served_updateGameRound cfg (wall_valid total) served fun other stands => absurd stands (settled other),
    fun playing => ?_⟩
  obtain concluded | opened := s.updateGameRound_cases cfg banker false (wall_valid total)
  · exact absurd (concluded.finished.symm.trans playing) Bool.false_ne_true
  · have hands := sizes opened.flow
    have own : (s.players banker).size + false.toNat = 14 := by
      simp only [GamePlayer.size, hands, noMelds, ↓reduceIte, List.length_nil, Nat.mul_zero, Bool.toNat_false, Nat.add_zero]
    have other : (s.players (nextChair banker)).size = 13 := by
      simp only [GamePlayer.size, hands, noMelds, nextChair_ne, ↓reduceIte, List.length_nil, Nat.mul_zero, Nat.add_zero]
    have turn := (turn_updateGameRound cfg total timer own other served fun other stands =>
      absurd stands (settled other)).2
    exact ⟨turn playing, (congrArg curRoundChairId opened.frame :)⟩

theorem orderly_onGameStart {cfg : TableConfig} (fair : FairDeal cfg) {shuffled : List Int}
    (shuffle : shuffled.Perm initialCards) (banker : Fin 2) (gameMsgCache : List (Fin 2 × Int)) :
    Orderly (onGameStart cfg shuffled banker gameMsgCache) := by
  have balanced := balanced_onGameStart fair shuffle banker gameMsgCache
  have dealt := dealt_dealTable cfg banker gameMsgCache (valid_of_shuffle shuffle)
  obtain ⟨served, turn⟩ := orderly_bankerRound fair shuffle banker gameMsgCache
  have target : ((dealTable cfg shuffled banker gameMsgCache).updateGameRound cfg banker false).playing = true →
      ((dealTable cfg shuffled banker gameMsgCache).updateGameRound cfg banker false).targetInfo = {} :=
    targetInfo_updateGameRound cfg fun bad => valid_of_shuffle shuffle (dealt.wall bad)
  refine orderly_of_balanced balanced ?_
  unfold onGameStart
  dsimp only
  generalize (dealTable cfg shuffled banker gameMsgCache).updateGameRound cfg banker false = s at served turn target ⊢
  have sent : s.playing = true → Turn (s.sendOption (nextChair banker) MjType.ting.bit).1 := fun playing =>
    (turn playing).1.sendOption_ting (by rw [target playing]) (turn playing).2
  have replay : (s.sendOption (nextChair banker) MjType.ting.bit).1.replay = s.replay := rfl
  have running : (s.sendOption (nextChair banker) MjType.ting.bit).1.playing = s.playing := rfl
  generalize s.sendOption (nextChair banker) MjType.ting.bit = result at sent replay running
  obtain ⟨s', offered⟩ := result
  simp only at sent replay running
  rw [← replay] at served
  cases offered with
  | false => exact ⟨served, fun playing => sent (running ▸ playing)⟩
  | true =>
    exact ⟨served, fun playing => (sent (running ▸ playing)).congr (fun _ => rfl) (fun _ => rfl) rfl rfl id fun _ => id⟩

/-! ## Runs -/

/-- The player to move holds fourteen tiles and the other thirteen, or both hold thirteen and the
other player has been offered a claim. -/
def InTurn (s : GameState) : Prop :=
  ((s.players s.curRoundChairId).size = 14 ∧ (s.players (nextChair s.curRoundChairId)).size = 13) ∨
    ((s.players s.curRoundChairId).size = 13 ∧ (s.players (nextChair s.curRoundChairId)).size = 13 ∧
      s.targetInfo.type ≠ .invalid ∧ (s.players (nextChair s.curRoundChairId)).hasOption = true)

theorem Turn.inTurn (turn : Turn s) : InTurn s := by
  cases turn with
  | move _ _ atTurn => exact .inl ⟨atTurn.own, atTurn.other⟩
  | claim target pending => exact .inr ⟨pending.own, pending.other, target, bne_iff_ne.mpr pending.offered⟩

/-- In every state reached by steps that keep the turn the hands have their sizes and every kong
has been served. -/
theorem inTurn_of_run {cfg : TableConfig} (fair : FairDeal cfg) {shuffled : List Int}
    (shuffle : shuffled.Perm initialCards) {banker : Fin 2} {gameMsgCache : List (Fin 2 × Int)}
    {events : List Event} {s : GameState}
    (run : Lib.Run (step cfg) KeepsTurn (onGameStart cfg shuffled banker gameMsgCache) events s) :
    (s.playing = true → InTurn s) ∧ KongServed s.replay := by
  have orderly : Orderly s := run.invariant (orderly_step cfg) (orderly_onGameStart fair shuffle banker gameMsgCache)
  exact ⟨fun playing => (orderly.running playing).turn.inTurn, orderly.served⟩

/-- The banker's first discard, from an unshuffled wall. -/
theorem inTurn_of_run_discard :
    let s := (onGameStart plainTable initialCards 0 []).onGameMessage plainTable 0 (.outCard 0x31)
    (s.playing = true → InTurn s) ∧ KongServed s.replay := by
  intro s
  have playing : (onGameStart plainTable initialCards 0 []).playing = true := by decide +kernel
  have taken : step plainTable (onGameStart plainTable initialCards 0 []) (.message 0 (.outCard 0x31)) = some s := by
    simp only [step, playing, Bool.not_true, Bool.false_eq_true, Nat.zero_lt_two, ↓reduceIte, ↓reduceDIte]
    rfl
  have keeps : KeepsTurn (onGameStart plainTable initialCards 0 []) (.message 0 (.outCard 0x31)) := by
    refine ⟨fun chair msg same claim => ?_, fun chair same => by cases (Event.message.inj same).2⟩
    obtain ⟨-, rfl⟩ := Event.message.inj same
    exact absurd claim id
  exact inTurn_of_run (.inl rfl) (.refl _) (.cons keeps taken (.nil _))

/-- A claim message that is carried out was offered. -/
def ClaimsOffered (s : GameState) (event : Event) : Prop :=
  ∀ (chair : Fin 2) (msg : Message), event = .message chair msg → IsClaim msg → s.Admits chair msg →
    ((s.players chair).claimOp msg).2 = true → (s.players chair).Offered msg

/-- The second player is dealt a ready hand. -/
def idlePassShuffle : List Int :=
  stackedShuffle
    [0x01, 0x01, 0x02, 0x02, 0x03, 0x03, 0x33, 0x33, 0x34, 0x34, 0x35, 0x35, 0x36]
    [0x01, 0x02, 0x03, 0x04, 0x05, 0x06, 0x07, 0x08, 0x09, 0x31, 0x31, 0x31, 0x32]
    [0x36, 0x37]

/-- Once the ready-hand phase has timed out, passing on its offer draws a tile out of turn. -/
theorem idle_pass_draws : ¬∀ (cfg : TableConfig) (shuffled : List Int) (banker : Fin 2)
    (gameMsgCache : List (Fin 2 × Int)) (events : List Event) (s : GameState), shuffled.Perm initialCards →
    Lib.Run (step cfg) ClaimsOffered (onGameStart cfg shuffled banker gameMsgCache) events s →
    (s.playing = true → InTurn s) ∧ KongServed s.replay := by
  intro kept
  let events : List Event := [.timerTianTing, .message 1 .pass]
  have facts : (Lib.replay (step plainTable) (onGameStart plainTable idlePassShuffle 0 []) events).map
      (fun s => (s.playing, (s.players 0).size, (s.players 1).size)) = some (true, 14, 14) := by
    decide +kernel
  obtain ⟨s, reached, values⟩ := Option.map_eq_some_iff.mp facts
  simp only [Prod.mk.injEq] at values
  obtain ⟨playing, first, second⟩ := values
  have offered : ∀ event ∈ events, ∀ s, ClaimsOffered s event := by
    intro event present s chair msg same claim
    obtain rfl | rfl : event = .timerTianTing ∨ event = .message 1 .pass := by simpa [events] using present
    · cases same
    · obtain ⟨-, rfl⟩ := Event.message.inj same
      exact absurd claim id
  have sized := (kept plainTable idlePassShuffle 0 [] events s (by decide +kernel)
    (Lib.run_of_replay_of offered reached)).1 playing
  have both : ∀ seat, (s.players seat).size = 14 := fun seat => by
    obtain rfl | rfl : seat = 0 ∨ seat = 1 := by revert seat; decide
    · exact first
    · exact second
  simp only [InTurn, both] at sized
  omega

end GameState

end H5Server.Erqs
