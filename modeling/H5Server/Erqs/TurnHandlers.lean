import H5Server.Erqs.Turn

/-! # Handlers that keep the turn

One lemma for each handler, from a running round in order to one that has ended or is in order. A
claim that was offered is made by the player who may claim, a kong by the player to move.
-/

namespace H5Server.Erqs

namespace GameState

variable {s : GameState}

/-- A running round in order: the tiles, the offers, the phase and the kongs served so far. -/
structure Running (s : GameState) : Prop where
  total : ∀ tile, s.total tile = initialCards.count tile
  ready : Ready s.players s.curRoundChairId s.targetInfo
  turn : Turn s
  served : KongServed s.replay

/-- The round is over, with every kong served, or in order. -/
structure Orderly (s : GameState) : Prop where
  served : KongServed s.replay
  running : s.playing = true → Running s

theorem Running.orderly (running : Running s) : Orderly s := ⟨running.served, fun _ => running⟩

theorem orderly_of_balanced (balanced : Balanced s)
    (kept : KongServed s.replay ∧ (s.playing = true → Turn s)) : Orderly s :=
  ⟨kept.1, fun playing => ⟨balanced.total, balanced.ready playing, kept.2 playing, kept.1⟩⟩

/-! ## The players of a phase -/

theorem Turn.congr {s s' : GameState} (turn : Turn s)
    (core : ∀ seat, (s'.players seat).core = (s.players seat).core)
    (option : ∀ seat, (s'.players seat).option = (s.players seat).option)
    (cur : s'.curRoundChairId = s.curRoundChairId) (target : s'.targetInfo = s.targetInfo)
    (timer : s.timerOption = false → s'.timerOption = false)
    (stands : ∀ chair, KongStands s'.replay chair → KongStands s.replay chair) : Turn s' := by
  have hand : ∀ seat, (s'.players seat).handCards = (s.players seat).handCards := fun seat =>
    congrArg (·.handCards) (core seat)
  have melds : ∀ seat, (s'.players seat).cpgs = (s.players seat).cpgs := fun seat => congrArg (·.cpgs) (core seat)
  have offers : ∀ seat, (s'.players seat).optionalCpgs = (s.players seat).optionalCpgs := fun seat =>
    congrArg (·.optionalCpgs) (core seat)
  have tings : ∀ seat, (s'.players seat).tingOptInfos = (s.players seat).tingOptInfos := fun seat =>
    congrArg (·.tingOptInfos) (core seat)
  have size : ∀ seat, (s'.players seat).size = (s.players seat).size := fun seat => by
    simp only [GamePlayer.size, hand, melds]
  cases turn with
  | move type timer' turn settled =>
    refine .move (by rw [target, type]) (timer timer') ?_ fun chair standing => settled chair (stands chair standing)
    rw [cur]
    exact ⟨by rw [size]; exact turn.own, by rw [size]; exact turn.other,
      by rw [option, offers, hand]; exact turn.whole, by rw [option, offers]; exact turn.idle⟩
  | claim type pending settled =>
    refine .claim (by rw [target]; exact type) ?_ fun out chair standing =>
      settled (target ▸ out) chair (stands chair standing)
    rw [cur, target]
    exact ⟨by rw [size]; exact pending.own, by rw [size]; exact pending.other, by rw [option]; exact pending.reset,
      by rw [option]; exact pending.offered, by rw [tings]; exact pending.noTing,
      by rw [offers]; exact pending.claims,
      by rw [offers, GamePlayer.hasOptionType, option]; exact pending.robbing⟩

/-- Changes of the table outside the fields that a round in order depends on. -/
theorem Running.congr {s' : GameState} (running : Running s) (players : s'.players = s.players)
    (cards : s'.cards = s.cards) (cur : s'.curRoundChairId = s.curRoundChairId)
    (target : s'.targetInfo = s.targetInfo) (timer : s.timerOption = false → s'.timerOption = false)
    (replay : s'.replay = s.replay) : Running s' := by
  refine ⟨fun tile => ?_, ?_, running.turn.congr (fun _ => by rw [players]) (fun _ => by rw [players]) cur target
    timer fun _ stands => replay ▸ stands, replay ▸ running.served⟩
  · rw [← running.total tile]
    simp only [GameState.total, players, cards]
  · rw [players, cur, target]
    exact running.ready

/-- A change of a player in fields that no phase reads. -/
theorem Running.modifyPlayer (running : Running s) {chair : Fin 2} {f : GamePlayer → GamePlayer}
    (core : ∀ player, (f player).core = player.core) (option : ∀ player, (f player).option = player.option) :
    Running (s.modifyPlayer chair f) := by
  refine ⟨fun tile => (total_modifyPlayer_of_core core tile).trans (running.total tile),
    ready_modifyPlayer core running.ready,
    running.turn.congr (fun seat => ?_) (fun seat => ?_) rfl rfl id fun _ => id, running.served⟩
  all_goals
    by_cases here : seat = chair
    · rw [here, GameState.modifyPlayer, setPlayer_players_self]
      first | exact core _ | exact option _
    · rw [eq_nextChair_of_ne here, GameState.modifyPlayer, setPlayer_players_next]

theorem Running.setHosting (running : Running s) (chair : Fin 2) (hosting : Bool) :
    Running (s.modifyPlayer chair (·.setHosting hosting)) :=
  running.modifyPlayer (core_setHosting hosting) fun _ => rfl

/-- With a hand to discard from, the player to move has no claim to wait for. -/
theorem Turn.of_length (turn : Turn s)
    (length : (s.players s.curRoundChairId).handCards.length % 3 = 2) :
    s.targetInfo.type = .invalid ∧ s.timerOption = false ∧ AtTurn s.players s.curRoundChairId ∧
      ∀ chair, ¬KongStands s.replay chair := by
  cases turn with
  | move target timer turn settled => exact ⟨target, timer, turn, settled⟩
  | claim target pending settled =>
    have size := pending.own
    unfold GamePlayer.size at size
    omega

/-- A claim on offer: it is the other player who may make it. -/
theorem Running.claim (running : Running s) {chair : Fin 2} {cpg : CPG}
    (stored : cpg ∈ (s.players chair).optionalCpgs) (claim : isClaimType cpg.type = true)
    (offered : (s.players chair).option ≠ 0) :
    nextChair s.curRoundChairId = chair ∧ (s.players chair).size = 13 ∧
      (s.players (nextChair chair)).size = 13 ∧ ∀ other, ¬KongStands s.replay other := by
  have turn := ((running.ready.offers chair).claim cpg stored claim).1
  have cur : s.curRoundChairId = nextChair chair := eq_nextChair_of_ne turn
  rw [cur, nextChair_nextChair]
  cases running.turn with
  | move target timer turn settled =>
    rw [cur] at turn
    have idle := turn.idle
    rw [nextChair_nextChair] at idle
    rw [idle offered] at stored
    cases stored
  | claim target pending settled =>
    rw [cur] at pending
    have robbing := pending.robbing
    have other := pending.other
    rw [nextChair_nextChair] at robbing other
    refine ⟨rfl, other, pending.own, settled ?_⟩
    cases type : s.targetInfo.type with
    | out => rfl
    | invalid => exact absurd type target
    | jiaGang =>
      rw [(robbing type).1] at stored
      cases stored

/-- A kong of the own hand on offer: it is the player to move who may make it. -/
theorem Running.kong (running : Running s) {chair : Fin 2} {cpg : CPG}
    (stored : cpg ∈ (s.players chair).optionalCpgs) (own : isClaimType cpg.type = false)
    (offered : (s.players chair).option ≠ 0) :
    s.curRoundChairId = chair ∧ AtTurn s.players chair ∧ ∀ other, ¬KongStands s.replay other := by
  cases running.turn with
  | move target timer turn settled =>
    by_cases cur : s.curRoundChairId = chair
    · exact ⟨cur, cur ▸ turn, settled⟩
    · have idle := turn.idle
      rw [eq_nextChair_of_ne cur, nextChair_nextChair] at idle
      rw [idle offered] at stored
      cases stored
  | claim target pending settled =>
    exfalso
    by_cases cur : s.curRoundChairId = chair
    · exact offered (cur ▸ pending.reset)
    · rw [eq_nextChair_of_ne cur] at pending
      have claims := pending.claims
      have robbing := pending.robbing
      rw [nextChair_nextChair] at claims robbing
      cases type : s.targetInfo.type with
      | out => exact Bool.noConfusion (own.symm.trans (claims type cpg stored))
      | invalid => exact target type
      | jiaGang =>
        rw [(robbing type).1] at stored
        cases stored

/-! ## Discards -/

/-- The player to move has discarded: thirteen tiles are left, and the other player is asked. -/
private theorem turn_discarded (cfg : TableConfig) (running : Running s) {chair : Fin 2} {card : Int}
    {player player' : GamePlayer} (cur : s.curRoundChairId = chair)
    (length : (s.players chair).handCards.length % 3 = 2)
    (spends : GamePlayer.Spends (s.players chair) [card] player')
    (core : player.core = { player'.core with outCards := player'.outCards ++ [card] }) {s₁ : GameState}
    (players : s₁.players = (s.setPlayer chair player).players) (wall : s₁.cards = s.cards)
    (cur₁ : s₁.curRoundChairId = chair) (timer₁ : s.timerOption = false → s₁.timerOption = false)
    {steps : List ReplayStep} (replay : s₁.replay = s.replay ++ steps)
    (quiet : ∀ step ∈ steps, step.kong = none) :
    KongServed (s₁.afterDiscard cfg chair card).replay ∧
      ((s₁.afterDiscard cfg chair card).playing = true → Turn (s₁.afterDiscard cfg chair card)) := by
  obtain ⟨-, timer, turn, settled⟩ := running.turn.of_length (cur ▸ length)
  rw [cur] at turn
  have total := (discarded running.total running.ready cur spends core).1
  refine turn_afterDiscard cfg (fun tile => ?_) (timer₁ timer) cur₁ ?_ ?_ ?_ ?_
  · rw [← total tile]
    simp only [GameState.total, players, wall, setPlayer_cards]
  · have hand : player.handCards = player'.handCards := congrArg (·.handCards) core
    have melds : player.cpgs = (s.players chair).cpgs :=
      (congrArg (·.cpgs) core).trans (congrArg (·.cpgs) spends.rest)
    have spent := spends.length
    have size := turn.own
    rw [players, setPlayer_players_self]
    simp only [GamePlayer.size, hand, melds, List.length_singleton] at size spent ⊢
    omega
  · rw [players, setPlayer_players_next]
    exact turn.other
  · rw [replay]
    exact running.served.append quiet settled
  · rw [replay]
    exact settled_append quiet settled

theorem orderly_onOutCard (cfg : TableConfig) (running : Running s) (chair : Fin 2) (card : Int) :
    Orderly (s.onOutCard cfg chair card) := by
  refine orderly_of_balanced (balanced_onOutCard cfg chair card running.total running.ready) ?_
  unfold onOutCard
  split
  · exact ⟨running.served, fun _ => running.turn⟩
  · next turn =>
    have cur : s.curRoundChairId = chair := (not_not.mp turn).symm
    obtain refused | ⟨player', spends, length, done⟩ := (s.players chair).outCard_cases card
    · rw [refused]
      simp only [setPlayer_self]
      exact ⟨running.served, fun _ => running.turn⟩
    · rw [done]
      exact turn_discarded cfg running cur length spends rfl rfl rfl cur id rfl
        fun step present => by rw [List.mem_singleton.mp present]; rfl

theorem orderly_playOutCard (cfg : TableConfig) (running : Running s) (chair : Fin 2) (card : Int) :
    Orderly (s.playOutCard cfg chair card) := by
  unfold playOutCard
  split
  · exact running.orderly
  · exact orderly_onOutCard cfg running chair card

theorem orderly_onMsgOutCard (cfg : TableConfig) (running : Running s) (chair : Fin 2) (card : Int) :
    Orderly (s.onMsgOutCard cfg chair card) := by
  unfold onMsgOutCard
  split
  · split
    · have kept : Running { s with gameMsgCache := s.gameMsgCache ++ [(chair, card)], timerRound := false } :=
        running.congr rfl rfl rfl rfl id rfl
      exact kept.orderly
    · exact running.orderly
  · exact orderly_playOutCard cfg running chair card

/-- The discards held back are played one after the other, those out of turn without effect. -/
theorem orderly_onTimerTianTing (cfg : TableConfig) (running : Running s) : Orderly (s.onTimerTianTing cfg) := by
  have start : Running { s with timerTianTing := false, tianTinging := false } :=
    running.congr rfl rfl rfl rfl id rfl
  obtain ⟨replayed, ⟨served, last⟩, played⟩ :=
    exists_replayed cfg start.orderly fun s chair card orderly playing =>
      orderly_playOutCard cfg ((orderly.running playing).setHosting chair false) chair card
  rw [played]
  exact ⟨served, fun playing => (last playing).congr rfl rfl rfl rfl id rfl⟩

/-! ## Hu and the timers -/

theorem onHu_cases (s : GameState) (chair : Fin 2) : s.onHu chair = s ∨
    ((s.onHu chair).playing = false ∧ (s.onHu chair).replay = s.replay ++ [.hu chair]) := by
  unfold onHu
  dsimp only
  split
  · exact .inl rfl
  · refine .inr ⟨rfl, ?_⟩
    split
    · rfl
    · split
      · rfl
      · split <;> rfl

theorem orderly_onHu (running : Running s) (chair : Fin 2) : Orderly (s.onHu chair) := by
  obtain same | ⟨finished, replay⟩ := s.onHu_cases chair
  · rw [same]
    exact running.orderly
  · refine ⟨?_, fun playing => absurd (finished.symm.trans playing) Bool.false_ne_true⟩
    rw [replay]
    exact running.served.snoc rfl

theorem orderly_onTimerRound (cfg : TableConfig) (running : Running s) : Orderly (s.onTimerRound cfg) := by
  have fired : Running { s with timerRound := false } := running.congr rfl rfl rfl rfl id rfl
  unfold onTimerRound
  dsimp only
  split
  · exact orderly_onHu fired _
  · split
    · exact orderly_onOutCard cfg fired _ _
    · exact orderly_onOutCard cfg (fired.modifyPlayer core_timeout fun _ => rfl) _ _

/-- Nobody has claimed the discard: the other player draws. -/
private theorem turn_declined (cfg : TableConfig) (running : Running s) (out : s.targetInfo.type = .out)
    {s₁ : GameState} (total : ∀ tile, s₁.total tile = s.total tile)
    (size : ∀ seat, (s₁.players seat).size = (s.players seat).size) (timer : s₁.timerOption = false)
    (replay : s₁.replay = s.replay) :
    let s' := s₁.updateGameRound cfg (nextChair s.curRoundChairId) true
    KongServed s'.replay ∧ (s'.playing = true → Turn s') := by
  cases running.turn with
  | move target => cases target.symm.trans out
  | claim target pending settled =>
    refine turn_updateGameRound cfg (fun tile => (total tile).trans (running.total tile)) timer ?_ ?_
      (replay ▸ running.served) fun other stands => absurd (replay ▸ stands) (settled out other)
    · rw [size, pending.other, Bool.toNat_true]
    · rw [nextChair_nextChair, size, pending.own]

theorem orderly_onTimerOption (cfg : TableConfig) (running : Running s) (armed : s.timerOption = true) :
    Orderly (s.onTimerOption cfg) := by
  by_cases hu : (s.players (nextChair s.curRoundChairId)).hasOptionType .hu = true
  · simp only [onTimerOption, hu, ↓reduceIte]
    have fired : Running { s with timerOption := false } := running.congr rfl rfl rfl rfl (fun _ => rfl) rfl
    exact orderly_onHu fired _
  · refine orderly_of_balanced
      (balanced_onTimerOption cfg running.total running.ready fun option => absurd option hu) ?_
    simp only [onTimerOption, Bool.eq_false_iff.mpr hu, Bool.false_eq_true, ↓reduceIte]
    have out : s.targetInfo.type = .out := by
      cases running.turn with
      | move _ timer => cases timer.symm.trans armed
      | claim target pending settled =>
        cases type : s.targetInfo.type with
        | out => rfl
        | invalid => exact absurd type target
        | jiaGang => exact absurd (pending.robbing type).2 hu
    exact turn_declined cfg running out (fun _ => rfl) (fun _ => rfl) rfl rfl

/-! ## Pass -/

/-- The table after `chair` gave up its options. -/
def passed (s : GameState) (chair : Fin 2) : GameState :=
  { s.modifyPlayer chair .resetOption with timerOption := false }

theorem onMsgPass_eq (cfg : TableConfig) {chair : Fin 2} (option : (s.players chair).hasOption = true) :
    s.onMsgPass cfg chair = if chair ≠ s.curRoundChairId then
      if s.tianTinging then (s.passed chair).onTimerTianTing cfg
      else (s.passed chair).updateGameRound cfg (nextChair s.curRoundChairId) true
    else s.passed chair := by
  simp only [onMsgPass, option, Bool.not_true, Bool.false_eq_true, ↓reduceIte]
  rfl

section Passed

variable (s) (chair : Fin 2)

theorem passed_players_self : (s.passed chair).players chair = (s.players chair).resetOption :=
  setPlayer_players_self ..

theorem passed_players_next : (s.passed chair).players (nextChair chair) = s.players (nextChair chair) :=
  setPlayer_players_next ..

theorem total_passed (tile : Int) : (s.passed chair).total tile = s.total tile := by
  have modified : (s.modifyPlayer chair .resetOption).total tile = s.total tile :=
    total_modifyPlayer_of_core core_resetOption tile
  exact modified

theorem size_passed (seat : Fin 2) : ((s.passed chair).players seat).size = (s.players seat).size := by
  by_cases here : seat = chair
  · rw [here, passed_players_self]
    rfl
  · rw [eq_nextChair_of_ne here, passed_players_next]

end Passed

/-- Without a pending claim the phase goes on, with fewer offers. -/
theorem Running.passed (running : Running s) (chair : Fin 2) (target : s.targetInfo.type = .invalid) :
    Running (s.passed chair) := by
  have self := s.passed_players_self chair
  have next := s.passed_players_next chair
  have ready : Ready (s.passed chair).players s.curRoundChairId s.targetInfo :=
    ready_modifyPlayer core_resetOption running.ready
  cases running.turn with
  | claim notInvalid => exact absurd target notInvalid
  | move _ _ turn settled =>
    have atTurn : AtTurn (s.passed chair).players s.curRoundChairId := by
      refine ⟨by rw [size_passed]; exact turn.own, by rw [size_passed]; exact turn.other, ?_, ?_⟩
      · by_cases cur : s.curRoundChairId = chair
        · rw [cur, self]
          exact fun option => absurd rfl option
        · have same : (s.passed chair).players s.curRoundChairId = s.players s.curRoundChairId := by
            rw [eq_nextChair_of_ne cur, next]
          rw [same]
          exact turn.whole
      · by_cases cur : s.curRoundChairId = chair
        · rw [cur, next, ← cur]
          exact turn.idle
        · have same : nextChair s.curRoundChairId = chair := by rw [eq_nextChair_of_ne cur, nextChair_nextChair]
          rw [same, self]
          exact fun option => absurd rfl option
    exact ⟨fun tile => (s.total_passed chair tile).trans (running.total tile), ready,
      .move target rfl atTurn settled, running.served⟩

/-- A pass of the player to move, or of the other player on the ready-hand offer of the start, or on
a discard once the ready-hand phase is over. -/
theorem orderly_onMsgPass (cfg : TableConfig) (running : Running s) (chair : Fin 2)
    (declines : (s.players chair).hasOption = true → chair ≠ s.curRoundChairId →
      s.targetInfo.type = if s.tianTinging then .invalid else .out) : Orderly (s.onMsgPass cfg chair) := by
  by_cases option : (s.players chair).hasOption = true
  swap
  · simp only [onMsgPass, Bool.eq_false_iff.mpr option, Bool.not_false, ↓reduceIte]
    exact running.orderly
  have balanced := balanced_onMsgPass cfg chair running.total running.ready
  rw [onMsgPass_eq cfg option] at balanced ⊢
  by_cases cur : chair = s.curRoundChairId
  · rw [if_neg (not_not.mpr cur)]
    cases running.turn with
    | move target => exact (running.passed chair target).orderly
    | claim target pending => exact absurd (cur ▸ pending.reset) (bne_iff_ne.mp option)
  · have type := declines option cur
    rw [if_pos cur] at balanced ⊢
    split at balanced
    · next phase =>
      rw [if_pos phase] at type ⊢
      exact orderly_onTimerTianTing cfg (running.passed chair type)
    · next phase =>
      rw [if_neg phase] at type ⊢
      exact orderly_of_balanced balanced
        (turn_declined cfg running type (s.total_passed chair) (s.size_passed chair) rfl rfl)

/-! ## Claims and kongs -/

/-- A step for a kong of `chair` is the only one owed a tile. -/
private theorem served_step {replay replay' : List ReplayStep} {step : ReplayStep} (served : KongServed replay)
    (settled : ∀ other, ¬KongStands replay other) (appended : replay' = replay ++ [step])
    (silent : step.dealt = none) :
    KongServed replay' ∧ ∀ other, KongStands replay' other → step.kong = some other := by
  rw [appended]
  exact ⟨served.snoc silent, fun other stands =>
    ((Lib.stands_snoc silent other).mp stands).resolve_left (settled other)⟩

/-- A claim has been made: its player is to move, and draws after a kong. -/
private theorem turn_claimed (cfg : TableConfig) (running : Running s) {chair : Fin 2} {cpg : CPG}
    {player' : GamePlayer} (stored : cpg ∈ (s.players chair).optionalCpgs) (claim : isClaimType cpg.type = true)
    (offered : (s.players chair).option ≠ 0)
    (spends : GamePlayer.Spends (s.players chair) cpg.taken player') {addHandCard : Bool}
    (taken : cpg.taken.length = 2 + addHandCard.toNat) {s₁ : GameState}
    (players : s₁.players = ((s.setPlayer chair (player'.addCpg cpg)).modifyPlayer s.curRoundChairId
      (·.removeOutCard cpg.targetCard)).players)
    (wall : s₁.cards = s.cards) (timer : s₁.timerOption = false) {step : ReplayStep}
    (replay : s₁.replay = s.replay ++ [step]) (silent : step.dealt = none)
    (raises : ∀ other, step.kong = some other → addHandCard = true ∧ chair = other ∧ s₁.lastAction = .gang) :
    KongServed (s₁.updateGameRound cfg chair addHandCard).replay ∧
      ((s₁.updateGameRound cfg chair addHandCard).playing = true →
        Turn (s₁.updateGameRound cfg chair addHandCard)) := by
  obtain ⟨turn, own, other, settled⟩ := running.claim stored claim offered
  have cur : s.curRoundChairId = nextChair chair := by rw [← turn, nextChair_nextChair]
  obtain ⟨total, -, -⟩ := claimed running.total running.ready stored claim spends
  obtain ⟨served, owed⟩ := served_step running.served settled replay silent
  rw [cur] at players total
  refine turn_updateGameRound cfg (fun tile => ?_) timer ?_ ?_ served fun other stands => raises other (owed other stands)
  · rw [← total tile]
    simp only [GameState.total, players, wall, GameState.modifyPlayer, setPlayer_cards]
  · have melds : player'.cpgs = (s.players chair).cpgs := congrArg (·.cpgs) spends.rest
    have spent := spends.length
    rw [players]
    simp only [GameState.modifyPlayer, setPlayer_next_players, setPlayer_players_self, GamePlayer.size,
      GamePlayer.addCpg, melds, List.length_append, List.length_singleton] at own ⊢
    omega
  · rw [players]
    simp only [GameState.modifyPlayer, setPlayer_players_next, setPlayer_players_self]
    exact other

theorem orderly_onMsgChi (cfg : TableConfig) (running : Running s) {chair : Fin 2} {cards : List Int} {cpg : CPG}
    (valid : cards.all isValidCard = true) (picked : (s.players chair).getOptionalCpgIdx cards = some cpg)
    (chi : isChiType cpg.type = true) (offered : (s.players chair).option ≠ 0) :
    Orderly (s.onMsgChi cfg chair cards) := by
  have stored := (GamePlayer.getOptionalCpgIdx_some picked).1
  have claim : isClaimType cpg.type = true := by simp only [isClaimType, chi, Bool.true_or]
  have turn := (running.claim stored claim offered).1
  have taken : cpg.taken.length = 2 + false.toNat :=
    ((running.ready.offers chair).formed cpg stored).length_taken_chi chi
  obtain ⟨-, -, -, there⟩ := (running.ready.offers chair).claim cpg stored claim
  obtain ⟨player', spends, done⟩ := GamePlayer.chi_success picked chi there
  refine orderly_of_balanced (balanced_onMsgChi cfg chair cards running.total running.ready
    fun _ _ other found => by cases picked.symm.trans found; exact chi) ?_
  simp only [onMsgChi, turn, valid, ne_eq, not_true_eq_false, Bool.not_true, Bool.false_eq_true, ↓reduceIte, done,
    GamePlayer.addCpg, List.getLast?_concat]
  exact turn_claimed cfg running stored claim offered spends taken rfl rfl rfl rfl rfl fun other kong => by cases kong

theorem orderly_onMsgPeng (cfg : TableConfig) (running : Running s) {chair : Fin 2} {cpg : CPG}
    (picked : (s.players chair).getOptionalCpgIdxByType .peng = some cpg)
    (offered : (s.players chair).option ≠ 0) : Orderly (s.onMsgPeng cfg chair) := by
  obtain ⟨stored, type⟩ := GamePlayer.getOptionalCpgIdxByType_some picked
  have claim : isClaimType cpg.type = true := by rw [type]; rfl
  have turn : s.curRoundChairId ≠ chair := ((running.ready.offers chair).claim cpg stored claim).1
  have taken : cpg.taken.length = 2 + false.toNat := by simp only [CPG.taken, type, List.length_replicate, Bool.toNat_false]
  obtain ⟨-, -, -, there⟩ := (running.ready.offers chair).claim cpg stored claim
  obtain ⟨player', spends, done⟩ := GamePlayer.peng_success picked there
  refine orderly_of_balanced (balanced_onMsgPeng cfg chair running.total running.ready) ?_
  simp only [onMsgPeng, turn, ↓reduceIte, done, GamePlayer.addCpg, List.getLast?_concat]
  exact turn_claimed cfg running stored claim offered spends taken rfl rfl rfl rfl rfl fun other kong => by cases kong

/-- A kong of the own hand has been made: its player is owed a tile. -/
private theorem turn_konged (running : Running s) {chair : Fin 2} {cpg : CPG}
    (stored : cpg ∈ (s.players chair).optionalCpgs) (own : isClaimType cpg.type = false)
    (offered : (s.players chair).option ≠ 0) {player : GamePlayer}
    (size : player.size + 1 = (s.players chair).size) :
    s.curRoundChairId = chair ∧ ((s.setPlayer chair player).players chair).size = 13 ∧
      ((s.setPlayer chair player).players (nextChair chair)).size = 13 ∧
      KongServed (s.replay ++ [.gang chair]) ∧
      ∀ other, KongStands (s.replay ++ [.gang chair]) other → chair = other := by
  obtain ⟨cur, turn, settled⟩ := running.kong stored own offered
  obtain ⟨served, owed⟩ := served_step running.served settled rfl (show (ReplayStep.gang chair).dealt = none from rfl)
  refine ⟨cur, ?_, ?_, served, fun other stands => Option.some.inj (owed other stands)⟩
  · rw [setPlayer_players_self]
    have before := turn.own
    omega
  · rw [setPlayer_players_next]
    exact turn.other

theorem orderly_onMsgGang (cfg : TableConfig) (running : Running s) {chair : Fin 2} {cards : List Int} {cpg : CPG}
    (wall : s.cards ≠ []) (valid : cards.all isValidCard = true)
    (picked : (s.players chair).getOptionalCpgIdx cards = some cpg) (kong : isGangType cpg.type = true)
    (copies : (s.players chair).handCards.count cpg.targetCard ≠ 0) (offered : (s.players chair).option ≠ 0) :
    Orderly (s.onMsgGang cfg chair cards) := by
  have stored := (GamePlayer.getOptionalCpgIdx_some picked).1
  have whole : cpg.type = .anGang → 4 ≤ (s.players chair).handCards.count cpg.targetCard := fun type =>
    (running.kong stored (by rw [type]; rfl) offered).2.1.whole offered cpg stored type
  have ganged := ganged_onMsgGang cfg running.total running.ready wall valid picked kong copies whole
  have balanced := ganged.balanced running.total running.ready stored
  refine orderly_of_balanced balanced ?_
  generalize s.onMsgGang cfg chair cards = s' at ganged balanced
  cases ganged with
  | anGang type player' spends =>
    have melds : player'.cpgs = (s.players chair).cpgs := congrArg (·.cpgs) spends.rest
    have size : (player'.addCpg cpg).size + 1 = (s.players chair).size := by
      have spent := spends.length
      simp only [CPG.taken, type, List.length_replicate] at spent
      simp only [GamePlayer.size, GamePlayer.addCpg, melds, List.length_append, List.length_singleton]
      omega
    obtain ⟨-, own, other, served, owed⟩ := turn_konged running stored (by rw [type]; rfl) offered size
    have formed := (running.ready.offers chair).formed cpg stored
    have total : ∀ tile, (s.setPlayer chair (player'.addCpg cpg)).total tile = initialCards.count tile :=
      fun tile => (total_anGang formed type spends tile).trans (running.total tile)
    refine turn_updateGameRound cfg total rfl ?_ other served fun other stands => ⟨rfl, owed other stands, rfl⟩
    change ((s.setPlayer chair (player'.addCpg cpg)).players chair).size + 1 = 14
    rw [own]
  | dianGang type player' spends =>
    have claim : isClaimType cpg.type = true := by rw [type]; rfl
    have taken : cpg.taken.length = 2 + true.toNat := by
      simp only [CPG.taken, type, List.length_replicate, Bool.toNat_true]
    exact turn_claimed cfg running stored claim offered spends taken rfl rfl rfl rfl rfl
      fun other raised => ⟨rfl, Option.some.inj raised, rfl⟩
  | jiaGang type player' cpgs meld spends made =>
    have size : ({ player' with cpgs } : GamePlayer).size + 1 = (s.players chair).size := by
      have spent := spends.length
      simp only [GamePlayer.size, made.length, List.length_singleton] at spent ⊢
      omega
    obtain ⟨cur, own, other, served, owed⟩ := turn_konged running stored (by rw [type]; rfl) offered size
    exact turn_afterJiaGang cfg made.total rfl cur own other served owed rfl

/-! ## Ting -/

/-- Ting declared on the hand as it is. -/
private theorem Running.declared (running : Running s) {chair : Fin 2} {player : GamePlayer}
    (core : player.core = (s.players chair).core) (option : player.option = (s.players chair).option)
    {s₁ : GameState} (players : s₁.players = (s.setPlayer chair player).players) (cards : s₁.cards = s.cards)
    (cur : s₁.curRoundChairId = s.curRoundChairId) (target : s₁.targetInfo = s.targetInfo)
    (timer : s₁.timerOption = false) (replay : s₁.replay = s.replay ++ [.ting chair]) : Running s₁ := by
  have cores : ∀ seat, (s₁.players seat).core = (s.players seat).core ∧
      (s₁.players seat).option = (s.players seat).option := fun seat => by
    rw [players]
    by_cases here : seat = chair
    · rw [here, setPlayer_players_self]
      exact ⟨core, option⟩
    · rw [eq_nextChair_of_ne here, setPlayer_players_next]
      exact ⟨rfl, rfl⟩
  refine ⟨fun tile => ?_, ?_, running.turn.congr (fun seat => (cores seat).1) (fun seat => (cores seat).2) cur target
    (fun _ => timer) fun other stands => ?_, ?_⟩
  · have same : (s.setPlayer chair player).total tile = s.total tile :=
      total_setPlayer_of_held (by rw [← held_core, core, held_core])
    rw [← running.total tile, ← same]
    simp only [GameState.total, players, cards, setPlayer_cards]
  · rw [cur, target]
    exact running.ready.congr fun seat => (cores seat).1
  · rw [replay] at stands
    exact Lib.stands_of_snoc rfl stands
  · rw [replay]
    exact running.served.snoc rfl

theorem orderly_onMsgTing (cfg : TableConfig) (running : Running s) (chair : Fin 2) (card : Int) :
    Orderly (s.onMsgTing cfg chair card) := by
  obtain refused | ⟨info, -, -, -, ⟨none, done⟩ | ⟨real, player', spends, length, done⟩⟩ :=
    (s.players chair).declareTing_cases card
  · simp only [onMsgTing, refused, setPlayer_self]
    exact running.orderly
  · have given : ¬card ≠ gameInvalidCard := not_not.mpr none
    simp only [onMsgTing, done, given, ↓reduceIte]
    let player := { s.players chair with tingInfos := info.tingInfos, ting := true }
    have core : player.core = (s.players chair).core := rfl
    have option : player.option = (s.players chair).option := rfl
    have declared : Running (({ s.setPlayer chair player with timerOption := false, timerRound := false } :
        GameState).addStep (.ting chair)) := running.declared core option rfl rfl rfl rfl rfl rfl
    split
    · exact orderly_onTimerTianTing cfg declared
    · exact declared.orderly
  · refine orderly_of_balanced (balanced_onMsgTing cfg chair card running.total running.ready) ?_
    have valid := hand_valid running.total chair card (spends.perm.symm.subset List.mem_cons_self)
    -- Only the player to move holds a tile to discard.
    have cur : s.curRoundChairId = chair := by
      by_contra other
      have size : (s.players chair).size = 13 := by
        cases running.turn with
        | move _ _ turn => simpa only [eq_nextChair_of_ne other, nextChair_nextChair] using turn.other
        | claim _ pending => simpa only [eq_nextChair_of_ne other, nextChair_nextChair] using pending.other
      unfold GamePlayer.size at size
      omega
    simp only [onMsgTing, done, real, ne_eq, not_false_eq_true, ↓reduceIte, valid, Bool.not_true, Bool.false_eq_true]
    split
    · next other => exact absurd cur other
    have core : ({ player' with outCards := player'.outCards ++ [card], tingInfos := info.tingInfos, ting := true } :
      GamePlayer).core = { player'.core with outCards := player'.outCards ++ [card] } := rfl
    refine turn_discarded cfg running cur length spends core rfl rfl cur (fun _ => rfl) (List.append_assoc ..) ?_
    intro step present
    obtain rfl | rfl : step = .ting chair ∨ step = .outCard chair := by simpa using present
    · rfl
    · rfl

end GameState

end H5Server.Erqs
