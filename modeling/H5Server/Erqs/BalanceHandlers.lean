import H5Server.Erqs.Balance

/-! # Handlers that keep the balance

One lemma for each handler. A condition stands where the handler can take tiles it does not put
anywhere, or put tiles it did not take: a robbed kong, a chi message that picks another offer, a
concealed kong that lost some of its tiles.
-/

namespace H5Server.Erqs

namespace GameState

variable {s : GameState}

/-! ## Discards -/

/-- The claims offered on a discard find their tiles in the hand. -/
theorem offersReady_claims {players : Fin 2 → GamePlayer} {chair : Fin 2} {player : GamePlayer} {card : Int}
    {targetChair : Option (Fin 2)} {canGang : Bool}
    (refreshed : players (nextChair chair) =
      player.updateOption (nextChair chair) card targetChair canGang claimOptions)
    (hand : ∀ tile ∈ player.handCards, isValidCard tile = true) (valid : isValidCard card = true)
    (present : card ∈ (players chair).outCards) : OffersReady players chair (nextChair chair) := by
  have stored : ∀ cpg ∈ (players (nextChair chair)).optionalCpgs, FoundFrom player.handCards player.cpgs card cpg := by
    rw [refreshed]
    exact fun cpg => player.updateOption_found (nextChair chair) card targetChair canGang claimOptions
  have claims : ∀ cpg ∈ (players (nextChair chair)).optionalCpgs, isClaimType cpg.type = true := by
    rw [refreshed]
    exact fun cpg => player.updateOption_claim _ _ _ _ _ (by decide) (by decide)
  refine ⟨fun cpg there => (stored cpg there).formed,
    fun cpg there other also => (claims cpg there).trans (claims other also).symm,
    fun cpg there claim => ?_, fun cpg there jia => ?_⟩
  · obtain ⟨target, -⟩ := (stored cpg there).claim claim
    refine ⟨(nextChair_ne chair).symm, ?_, ?_, ?_⟩
    · rwa [nextChair_nextChair, target]
    · rw [refreshed]
      exact player.updateOption_tingOptInfos_nil _ _ _ _ _ (by decide)
    · rw [refreshed]
      exact (stored cpg there).enough hand (target ▸ valid)
  · obtain ⟨meld, there, peng, target⟩ := (stored cpg there).kong jia
    rw [refreshed]
    exact ⟨meld, there, .inl peng, target⟩

theorem Sent.melds {s' : GameState} {chair : Fin 2} {update : Nat} (sent : Sent chair update s s')
    (melds : MeldsFormed s.players) : MeldsFormed s'.players := fun seat => by
  by_cases here : seat = chair
  · rw [here, sent.self]
    exact melds chair
  · rw [eq_nextChair_of_ne here, sent.next]
    exact melds (nextChair chair)

theorem balanced_afterDiscard (cfg : TableConfig) {chair : Fin 2} {card : Int}
    (total : ∀ tile, s.total tile = initialCards.count tile) (melds : MeldsFormed s.players)
    (cur : s.curRoundChairId = chair) (own : OffersReady s.players chair chair)
    (valid : isValidCard card = true) (present : card ∈ (s.players chair).outCards) :
    Balanced (s.afterDiscard cfg chair card) := by
  obtain ⟨s', sent, outcome⟩ := s.afterDiscard_cases cfg chair card
  have total' : ∀ tile, s'.total tile = initialCards.count tile := fun tile => (sent.total tile).trans (total tile)
  have melds' : MeldsFormed s'.players := sent.melds melds
  have own' : ∀ cur, OffersReady s'.players cur chair := fun cur =>
    own.of_own_turn (congrArg (·.optionalCpgs) sent.self) (congrArg (·.cpgs) sent.self)
  obtain ⟨-, result⟩ | ⟨-, result⟩ := outcome
  · rw [result]
    exact balanced_updateGameRound cfg total' melds' (by rw [nextChair_nextChair]; exact own' _)
  · have cur' : s'.curRoundChairId = chair := (congrArg curRoundChairId sent.rest).trans cur
    have target : s'.targetInfo = ⟨card, .out, some chair⟩ := (congrArg targetInfo sent.rest :)
    have discards : card ∈ (s'.players chair).outCards := by
      rw [sent.self]
      exact present
    rw [result]
    refine ⟨total', fun _ => ⟨melds', fun seat => ?_, fun _ => ⟨chair, ?_, .inl ⟨?_, ?_⟩⟩⟩⟩
    · change OffersReady s'.players s'.curRoundChairId seat
      rw [cur']
      by_cases here : seat = chair
      · rw [here]
        exact own' chair
      · rw [eq_nextChair_of_ne here]
        exact offersReady_claims sent.next (hand_valid total (nextChair chair)) valid discards
    · rw [target]
    · rw [target]
    · rw [target]
      exact discards

/-- A player with `card` moved from the hand to the discards; ting may have been declared. -/
theorem discarded {chair : Fin 2} {player player' : GamePlayer} {card : Int}
    (total : ∀ tile, s.total tile = initialCards.count tile)
    (ready : Ready s.players s.curRoundChairId s.targetInfo) (cur : s.curRoundChairId = chair)
    (spends : GamePlayer.Spends (s.players chair) [card] player')
    (core : player.core = { player'.core with outCards := player'.outCards ++ [card] }) :
    (∀ tile, (s.setPlayer chair player).total tile = initialCards.count tile) ∧
      MeldsFormed (s.setPlayer chair player).players ∧
      OffersReady (s.setPlayer chair player).players chair chair ∧
      isValidCard card = true ∧ card ∈ ((s.setPlayer chair player).players chair).outCards := by
  have inHand : card ∈ (s.players chair).handCards := spends.perm.symm.subset List.mem_cons_self
  have rest := congrArg GamePlayer.core spends.rest
  have melds : player.cpgs = (s.players chair).cpgs :=
    (congrArg (·.cpgs) core).trans (congrArg (·.cpgs) rest)
  have offers : player.optionalCpgs = (s.players chair).optionalCpgs :=
    (congrArg (·.optionalCpgs) core).trans (congrArg (·.optionalCpgs) rest)
  have discards : player.outCards = player'.outCards ++ [card] := congrArg (·.outCards) core
  refine ⟨fun tile => ?_, fun seat => ?_, ?_, hand_valid total chair card inHand, ?_⟩
  · rw [← total tile]
    refine total_setPlayer_of_held ?_
    rw [← held_core, core, spends.held]
    simp only [GamePlayer.held_eq, GamePlayer.core, List.count_append]
    omega
  · by_cases here : seat = chair
    · rw [here, setPlayer_players_self, melds]
      exact ready.melds chair
    · rw [eq_nextChair_of_ne here, setPlayer_players_next]
      exact ready.melds (nextChair chair)
  · exact (cur ▸ ready.offers chair).of_own_turn (by rw [setPlayer_players_self, offers])
      (by rw [setPlayer_players_self, melds])
  · rw [setPlayer_players_self, discards]
    exact List.mem_append_right _ List.mem_cons_self

theorem balanced_onOutCard (cfg : TableConfig) (chair : Fin 2) (card : Int)
    (total : ∀ tile, s.total tile = initialCards.count tile)
    (ready : Ready s.players s.curRoundChairId s.targetInfo) : Balanced (s.onOutCard cfg chair card) := by
  unfold onOutCard
  split
  · exact ⟨total, fun _ => ready⟩
  · next turn =>
    have cur : s.curRoundChairId = chair := (not_not.mp turn).symm
    obtain refused | ⟨player', spends, -, done⟩ := (s.players chair).outCard_cases card
    · rw [refused]
      simp only [setPlayer_self]
      exact ⟨total, fun _ => ready⟩
    · rw [done]
      obtain ⟨total', melds, own, valid, present⟩ := discarded total ready cur spends
        (show ({ player' with outCards := player'.outCards ++ [card] } : GamePlayer).core = _ from rfl)
      exact balanced_afterDiscard cfg total' melds cur own valid present

theorem balanced_playOutCard (cfg : TableConfig) (chair : Fin 2) (card : Int)
    (total : ∀ tile, s.total tile = initialCards.count tile)
    (ready : Ready s.players s.curRoundChairId s.targetInfo) : Balanced (s.playOutCard cfg chair card) := by
  unfold playOutCard
  split
  · exact ⟨total, fun _ => ready⟩
  · exact balanced_onOutCard cfg chair card total ready

/-- A change of a player in fields that the invariant does not read. -/
theorem ready_modifyPlayer {chair : Fin 2} {f : GamePlayer → GamePlayer} {cur : Fin 2} {target : TargetInfo}
    (core : ∀ player, (f player).core = player.core) (ready : Ready s.players cur target) :
    Ready (s.modifyPlayer chair f).players cur target :=
  ready.congr fun seat => by
    by_cases here : seat = chair
    · rw [here, modifyPlayer, setPlayer_players_self, core]
    · rw [eq_nextChair_of_ne here, modifyPlayer, setPlayer_players_next]

theorem total_modifyPlayer_of_core {chair : Fin 2} {f : GamePlayer → GamePlayer}
    (core : ∀ player, (f player).core = player.core) (tile : Int) :
    (s.modifyPlayer chair f).total tile = s.total tile :=
  total_setPlayer_of_held (by rw [← held_core, core, held_core])

theorem core_setHosting (hosting : Bool) (player : GamePlayer) :
    (player.setHosting hosting).core = player.core := rfl

theorem core_timeout (player : GamePlayer) : player.timeout.core = player.core := rfl

theorem core_resetOption (player : GamePlayer) : player.resetOption.core = player.core := rfl

/-- The discards held back during the ready-hand phase are played one after the other. -/
theorem balanced_onTimerTianTing (cfg : TableConfig)
    (total : ∀ tile, s.total tile = initialCards.count tile)
    (ready : Ready s.players s.curRoundChairId s.targetInfo) : Balanced (s.onTimerTianTing cfg) := by
  have start : Balanced { s with timerTianTing := false, tianTinging := false } := ⟨total, fun _ => ready⟩
  obtain ⟨replayed, last, played⟩ := exists_replayed cfg start fun s chair card balanced playing =>
    balanced_playOutCard cfg chair card
      (fun tile => (total_modifyPlayer_of_core (core_setHosting false) tile).trans (balanced.total tile))
      (ready_modifyPlayer (core_setHosting false) (balanced.ready playing))
  rw [played]
  exact ⟨last.total, last.ready⟩

/-! ## Hu -/

theorem total_modifyPlayer (s : GameState) (chair : Fin 2) (f : GamePlayer → GamePlayer) (tile : Int) :
    (s.modifyPlayer chair f).total tile + (s.players chair).held tile =
      s.total tile + (f (s.players chair)).held tile := s.total_setPlayer chair _ tile

theorem held_addHandCard (player : GamePlayer) (card tile : Int) :
    (player.addHandCard card).held tile = player.held tile + if tile = card then 1 else 0 := by
  simp only [GamePlayer.held_eq, GamePlayer.addHandCard, List.count_append, List.count_cons, List.count_nil,
    beq_iff_eq, eq_comm (a := card)]
  omega

theorem held_removeOutCard {player : GamePlayer} {card : Int} (present : card ∈ player.outCards) (tile : Int) :
    (player.removeOutCard card).held tile + (if tile = card then 1 else 0) = player.held tile := by
  have erased := (List.perm_cons_erase present).count_eq tile
  simp only [List.count_cons, beq_iff_eq, eq_comm (a := card)] at erased
  simp only [GamePlayer.held_eq, GamePlayer.removeOutCard]
  omega

/-- A win takes the claimed tile from where it is; an added kong only if the winner owns it. -/
theorem balanced_onHu (chair : Fin 2) (total : ∀ tile, s.total tile = initialCards.count tile)
    (ready : Ready s.players s.curRoundChairId s.targetInfo)
    (own : s.targetInfo.type = .jiaGang →
      (canHu (s.players chair).handCards s.targetInfo.card []).1 = true → s.targetInfo.chair = some chair) :
    Balanced (s.onHu chair) := by
  unfold onHu
  dsimp only
  split
  · exact ⟨total, fun _ => ready⟩
  · next wins =>
    have wins : (canHu (s.players chair).handCards s.targetInfo.card []).1 = true := by simpa using wins
    refine ⟨fun tile => ?_, fun playing => absurd playing Bool.false_ne_true⟩
    by_cases none : s.targetInfo.card = gameInvalidCard
    · simp only [none, ↓reduceIte]
      exact total tile
    · simp only [none, ↓reduceIte]
      obtain ⟨owner, ownerChair, ⟨out, present⟩ | ⟨jia, meld, present, type, target⟩⟩ := ready.target none
      · simp only [out, reduceCtorEq, ↓reduceIte, ownerChair]
        let s₁ := s.modifyPlayer owner (·.removeOutCard s.targetInfo.card)
        have removed : s₁.total tile + (s.players owner).held tile =
            s.total tile + ((s.players owner).removeOutCard s.targetInfo.card).held tile :=
          total_modifyPlayer s owner _ tile
        have taken := held_removeOutCard present tile
        have added := total_modifyPlayer s₁ chair (·.addHandCard s.targetInfo.card) tile
        have given := held_addHandCard (s₁.players chair) s.targetInfo.card tile
        change GameState.total (s₁.modifyPlayer chair (·.addHandCard s.targetInfo.card)) tile = _
        rw [← total tile]
        omega
      · obtain rfl : owner = chair := Option.some.inj (ownerChair.symm.trans (own jia wins))
        simp only [jia, ↓reduceIte]
        -- The winner's kong is the only one of this tile, so one tile leaves it.
        have one : jiaGangs s.targetInfo.card (s.players owner).cpgs = 1 := by
          have some : 0 < jiaGangs s.targetInfo.card (s.players owner).cpgs :=
            List.countP_pos_iff.mpr ⟨meld, present, decide_eq_true ⟨target, type⟩⟩
          have four := four_mul_jiaGangs_le s.targetInfo.card (ready.melds owner)
          have most := held_le_four total owner s.targetInfo.card
          rw [GamePlayer.held_eq] at most
          omega
        let s₁ := s.modifyPlayer owner (·.changeJiaGangToPeng s.targetInfo.card)
        have changed : s₁.total tile + (s.players owner).held tile =
            s.total tile + ((s.players owner).changeJiaGangToPeng s.targetInfo.card).held tile :=
          total_modifyPlayer s owner _ tile
        have taken := count_changeJiaGangToPeng s.targetInfo.card (ready.melds owner) tile
        have added := total_modifyPlayer s₁ owner (·.addHandCard s.targetInfo.card) tile
        have given := held_addHandCard (s₁.players owner) s.targetInfo.card tile
        change GameState.total (s₁.modifyPlayer owner (·.addHandCard s.targetInfo.card)) tile = _
        rw [one] at taken
        rw [← total tile]
        omega

/-! ## Chi and peng -/

theorem held_addCpg (player : GamePlayer) (cpg : CPG) (tile : Int) :
    (player.addCpg cpg).held tile = player.held tile + cpg.cards.count tile := by
  simp only [GamePlayer.held_eq, GamePlayer.addCpg, List.flatMap_append, List.flatMap_singleton,
    List.count_append]
  omega

theorem meldsFormed_setPlayer {chair : Fin 2} {player : GamePlayer} (melds : MeldsFormed s.players)
    (own : ∀ meld ∈ player.cpgs, meld.WellFormed) : MeldsFormed (s.setPlayer chair player).players := fun seat => by
  by_cases here : seat = chair
  · rw [here, setPlayer_players_self]
    exact own
  · rw [eq_nextChair_of_ne here, setPlayer_players_next]
    exact melds (nextChair chair)

theorem formed_addCpg {player player' : GamePlayer} {cards : List Int} {cpg : CPG}
    (spends : GamePlayer.Spends player cards player') (melds : ∀ meld ∈ player.cpgs, meld.WellFormed)
    (formed : cpg.WellFormed) : ∀ meld ∈ (player'.addCpg cpg).cpgs, meld.WellFormed := by
  have same : player'.cpgs = player.cpgs := congrArg (·.cpgs) spends.rest
  simp only [GamePlayer.addCpg, same, List.mem_append, List.mem_singleton]
  rintro meld (old | rfl)
  · exact melds meld old
  · exact formed

/-- A claimed meld: its tiles leave the hand, its target the discards of the player to move. -/
theorem claimed {chair : Fin 2} {player' : GamePlayer} {cpg : CPG}
    (total : ∀ tile, s.total tile = initialCards.count tile)
    (ready : Ready s.players s.curRoundChairId s.targetInfo)
    (stored : cpg ∈ (s.players chair).optionalCpgs) (claim : isClaimType cpg.type = true)
    (spends : GamePlayer.Spends (s.players chair) cpg.taken player') :
    let s' := (s.setPlayer chair (player'.addCpg cpg)).modifyPlayer s.curRoundChairId
      (·.removeOutCard cpg.targetCard)
    (∀ tile, s'.total tile = initialCards.count tile) ∧ MeldsFormed s'.players ∧
      OffersReady s'.players chair (nextChair chair) := by
  obtain ⟨turn, present, -, -⟩ := (ready.offers chair).claim cpg stored claim
  have formed := (ready.offers chair).formed cpg stored
  have cur : s.curRoundChairId = nextChair chair := eq_nextChair_of_ne turn
  have others := ready.offers (nextChair chair)
  rw [cur] at others ⊢
  let s₁ := s.setPlayer chair (player'.addCpg cpg)
  have self : s₁.players (nextChair chair) = s.players (nextChair chair) := setPlayer_players_next ..
  refine ⟨fun tile => ?_, ?_, ?_⟩
  · have changed : s₁.total tile + (s.players chair).held tile =
        s.total tile + (player'.addCpg cpg).held tile := s.total_setPlayer chair _ tile
    have melded := held_addCpg player' cpg tile
    have spent := spends.held tile
    have whole := formed.count_claim claim tile
    have removed := total_modifyPlayer s₁ (nextChair chair) (·.removeOutCard cpg.targetCard) tile
    have gone := held_removeOutCard present tile
    rw [self] at removed
    rw [← total tile]
    change (s₁.modifyPlayer (nextChair chair) (·.removeOutCard cpg.targetCard)).total tile = _
    omega
  · have melds : MeldsFormed s₁.players :=
      meldsFormed_setPlayer ready.melds (formed_addCpg spends (ready.melds chair) formed)
    exact meldsFormed_setPlayer melds (melds (nextChair chair))
  · refine others.of_own_turn ?_ ?_ <;>
      simp only [modifyPlayer, setPlayer_players_self, setPlayer_players_next, GamePlayer.removeOutCard]

theorem balanced_onMsgChi (cfg : TableConfig) (chair : Fin 2) (cards : List Int)
    (total : ∀ tile, s.total tile = initialCards.count tile)
    (ready : Ready s.players s.curRoundChairId s.targetInfo)
    (chi : nextChair s.curRoundChairId = chair → cards.all isValidCard = true →
      ∀ cpg, (s.players chair).getOptionalCpgIdx cards = some cpg → isChiType cpg.type = true) :
    Balanced (s.onMsgChi cfg chair cards) := by
  unfold onMsgChi
  split
  · exact ⟨total, fun _ => ready⟩
  split
  · exact ⟨total, fun _ => ready⟩
  next turn valid =>
  cases picked : (s.players chair).getOptionalCpgIdx cards with
  | none =>
    simp only [GamePlayer.chi, picked, setPlayer_self]
    exact ⟨total, fun _ => ready⟩
  | some cpg =>
    have isChi := chi (not_not.mp turn) (by simpa using valid) cpg picked
    have stored := (GamePlayer.getOptionalCpgIdx_some picked).1
    have claim : isClaimType cpg.type = true := by simp only [isClaimType, isChi, Bool.true_or]
    obtain ⟨-, -, -, there⟩ := (ready.offers chair).claim cpg stored claim
    obtain ⟨player', spends, done⟩ := GamePlayer.chi_success picked isChi there
    simp only [done, GamePlayer.addCpg, List.getLast?_concat]
    obtain ⟨total', melds, other⟩ := claimed total ready stored claim spends
    exact balanced_updateGameRound cfg total' melds other

theorem balanced_onMsgPeng (cfg : TableConfig) (chair : Fin 2)
    (total : ∀ tile, s.total tile = initialCards.count tile)
    (ready : Ready s.players s.curRoundChairId s.targetInfo) : Balanced (s.onMsgPeng cfg chair) := by
  unfold onMsgPeng
  split
  · exact ⟨total, fun _ => ready⟩
  cases picked : (s.players chair).getOptionalCpgIdxByType .peng with
  | none =>
    simp only [GamePlayer.peng, picked, setPlayer_self]
    exact ⟨total, fun _ => ready⟩
  | some cpg =>
    obtain ⟨stored, type⟩ := GamePlayer.getOptionalCpgIdxByType_some picked
    have claim : isClaimType cpg.type = true := by rw [type]; rfl
    obtain ⟨-, -, -, there⟩ := (ready.offers chair).claim cpg stored claim
    obtain ⟨player', spends, done⟩ := GamePlayer.peng_success picked there
    simp only [done, GamePlayer.addCpg, List.getLast?_concat]
    obtain ⟨total', melds, other⟩ := claimed total ready stored claim spends
    exact balanced_updateGameRound cfg total' melds other

/-! ## Gang -/

/-- Whoever moves next, the offers of the other player still fit after `chair` changed melds. -/
private theorem otherOffers {chair : Fin 2} {player : GamePlayer}
    (ready : Ready s.players s.curRoundChairId s.targetInfo)
    (discards : player.outCards = (s.players chair).outCards) :
    OffersReady (s.setPlayer chair player).players chair (nextChair chair) := by
  have others := ready.offers (nextChair chair)
  by_cases cur : s.curRoundChairId = chair
  · rw [cur] at others
    refine others.congr (by rw [setPlayer_players_next]) ?_
    rw [nextChair_nextChair, setPlayer_players_self, discards]
  · rw [eq_nextChair_of_ne cur] at others
    exact others.of_own_turn (by rw [setPlayer_players_next]) (by rw [setPlayer_players_next])

/-- The added kong: the tile has moved from the hand to the peng, which makes `meld` out of it. -/
structure JiaGanged (s : GameState) (chair : Fin 2) (cpg : CPG) (player' : GamePlayer) (cpgs : List CPG)
    (meld : CPG) : Prop where
  changed : player'.changePengToJiaGang cpg.targetCard = ({ player' with cpgs }, true)
  length : cpgs.length = (s.players chair).cpgs.length
  present : meld ∈ cpgs
  type : meld.type = .jiaGang
  target : meld.targetCard = cpg.targetCard
  cards : meld.cards = List.replicate 4 cpg.targetCard
  own : OffersReady (s.setPlayer chair { player' with cpgs }).players s.curRoundChairId chair
  melds : MeldsFormed (s.setPlayer chair { player' with cpgs }).players
  total : ∀ tile, (s.setPlayer chair { player' with cpgs }).total tile = initialCards.count tile

private theorem jiaGanged {chair : Fin 2} {player' : GamePlayer} {cpg : CPG}
    (total : ∀ tile, s.total tile = initialCards.count tile)
    (ready : Ready s.players s.curRoundChairId s.targetInfo)
    (stored : cpg ∈ (s.players chair).optionalCpgs) (type : cpg.type = .jiaGang)
    (spends : GamePlayer.Spends (s.players chair) [cpg.targetCard] player') :
    ∃ cpgs meld, JiaGanged s chair cpg player' cpgs meld := by
  have melds : player'.cpgs = (s.players chair).cpgs := congrArg (·.cpgs) spends.rest
  obtain ⟨meld, present, kind, target⟩ := (ready.offers chair).kong cpg stored type
  have peng : meld.type = .peng := by
    obtain peng | kong := kind
    · exact peng
    · -- A kong of this tile would leave none for the hand.
      exfalso
      have four := four_mul_jiaGangs_le cpg.targetCard (ready.melds chair)
      have some : 0 < jiaGangs cpg.targetCard (s.players chair).cpgs :=
        List.countP_pos_iff.mpr ⟨meld, present, decide_eq_true ⟨target, kong⟩⟩
      have most := held_le_four total chair cpg.targetCard
      have spent := spends.count cpg.targetCard
      rw [List.count_cons_self] at spent
      rw [GamePlayer.held_eq] at most
      omega
  obtain ⟨before, old, after, split, oldType, oldTarget, done⟩ :=
    pengToJiaGang_some ⟨meld, melds ▸ present, peng, target⟩
  have formed := melds ▸ ready.melds chair
  rw [split] at formed
  have oldCards : old.cards = List.replicate 3 cpg.targetCard := by
    have shape := formed old (List.mem_append_right _ List.mem_cons_self)
    rw [CPG.WellFormed, oldType] at shape
    rw [shape, oldTarget]
  refine ⟨before ++ { old with type := .jiaGang, cards := List.replicate 4 cpg.targetCard } :: after,
    { old with type := .jiaGang, cards := List.replicate 4 cpg.targetCard }, by simp only [GamePlayer.changePengToJiaGang, done],
    by rw [← melds, split]; simp only [List.length_append, List.length_cons],
    List.mem_append_right _ List.mem_cons_self, rfl, oldTarget, rfl, ?_, ?_, fun tile => ?_⟩
  · have offers : player'.optionalCpgs = (s.players chair).optionalCpgs := congrArg (·.optionalCpgs) spends.rest
    have own := ready.offers chair
    have kongs : ∀ other ∈ (s.players chair).optionalCpgs, isClaimType other.type = false := fun other there =>
      (own.unmixed other there cpg stored).trans (by rw [type]; rfl)
    refine ⟨?_, ?_, ?_, ?_⟩ <;> simp only [setPlayer_players_self, offers]
    · exact own.formed
    · exact own.unmixed
    · exact fun other there claim => absurd claim (Bool.eq_false_iff.mp (kongs other there))
    · intro other there jia
      obtain ⟨base, basePresent, baseKind, baseTarget⟩ := own.kong other there jia
      rw [← melds, split] at basePresent
      obtain early | late := List.mem_append.mp basePresent
      · exact ⟨base, List.mem_append_left _ early, baseKind, baseTarget⟩
      · obtain rfl | late := List.mem_cons.mp late
        · exact ⟨_, List.mem_append_right _ List.mem_cons_self, .inr rfl, baseTarget⟩
        · exact ⟨base, List.mem_append_right _ (List.mem_cons_of_mem _ late), baseKind, baseTarget⟩
  · refine meldsFormed_setPlayer ready.melds fun meld there => ?_
    obtain there | there := List.mem_append.mp there
    · exact formed meld (List.mem_append_left _ there)
    · obtain rfl | there := List.mem_cons.mp there
      · exact congrArg (List.replicate 4) oldTarget.symm
      · exact formed meld (List.mem_append_right _ (List.mem_cons_of_mem _ there))
  · rw [← total tile]
    refine total_setPlayer_of_held ?_
    have spent := spends.held tile
    rw [spent, GamePlayer.held_eq, GamePlayer.held_eq, split]
    simp only [List.flatMap_append, List.flatMap_cons, List.count_append, oldCards, List.count_replicate,
      List.count_cons, List.count_nil]
    split <;> omega

/-- An added kong is announced to the other player, who may rob it. -/
theorem balanced_afterJiaGang (cfg : TableConfig) {chair : Fin 2} {card : Int} {meld : CPG}
    (total : ∀ tile, s.total tile = initialCards.count tile) (melds : MeldsFormed s.players)
    (present : meld ∈ (s.players chair).cpgs) (type : meld.type = .jiaGang) (target : meld.targetCard = card)
    (own : OffersReady s.players s.curRoundChairId chair) :
    Balanced (s.afterJiaGang cfg chair card) := by
  obtain ⟨s', sent, outcome⟩ := s.afterJiaGang_cases cfg chair card
  have total' : ∀ tile, s'.total tile = initialCards.count tile := fun tile => (sent.total tile).trans (total tile)
  have nothing : (s'.players (nextChair chair)).optionalCpgs = [] := by
    rw [sent.next]
    exact GamePlayer.updateOption_optionalCpgs_nil _ _ _ _ _ (.inl rfl)
  have others : ∀ cur, OffersReady s'.players cur (nextChair chair) := fun cur =>
    ⟨by rw [nothing]; nofun, by rw [nothing]; nofun, by rw [nothing]; nofun, by rw [nothing]; nofun⟩
  have melds' : MeldsFormed s'.players := sent.melds melds
  obtain ⟨-, result⟩ | ⟨-, result⟩ := outcome
  · rw [result]
    exact balanced_updateGameRound cfg total' melds' (others chair)
  · have cur : s'.curRoundChairId = s.curRoundChairId := (congrArg curRoundChairId sent.rest :)
    have info : s'.targetInfo = ⟨card, .jiaGang, some chair⟩ := (congrArg targetInfo sent.rest :)
    rw [result]
    refine ⟨total', fun _ => ⟨melds', fun seat => ?_, fun _ => ⟨chair, ?_, .inr ⟨?_, meld, ?_, type, ?_⟩⟩⟩⟩
    · change OffersReady s'.players s'.curRoundChairId seat
      rw [cur]
      by_cases here : seat = chair
      · rw [here]
        refine own.congr (by rw [sent.self]; rfl) ?_
        rw [sent.next]
        rfl
      · rw [eq_nextChair_of_ne here]
        exact others _
    · rw [info]
    · rw [info]
    · rw [sent.self]
      exact present
    · rw [info]
      exact target

/-- The bookkeeping of a gang message that is carried out. -/
def ganging (s : GameState) (chair : Fin 2) (player : GamePlayer) : GameState :=
  { s.setPlayer chair player with timerOption := false, gameOpCnt := s.gameOpCnt + 1, lastAction := .gang }

/-- What a carried out gang message makes of the table. -/
inductive Ganged (cfg : TableConfig) (s : GameState) (chair : Fin 2) (cpg : CPG) : GameState → Prop
  | anGang (type : cpg.type = .anGang) (player' : GamePlayer)
      (spends : GamePlayer.Spends (s.players chair) cpg.taken player') :
      Ganged cfg s chair cpg (((s.ganging chair (player'.addCpg cpg)).addStep (.gang chair)).updateGameRound cfg
        chair true)
  | dianGang (type : cpg.type = .dianGang) (player' : GamePlayer)
      (spends : GamePlayer.Spends (s.players chair) cpg.taken player') :
      Ganged cfg s chair cpg ((((s.ganging chair (player'.addCpg cpg)).modifyPlayer s.curRoundChairId
        (·.removeOutCard cpg.targetCard)).addStep (.gang chair)).updateGameRound cfg chair true)
  | jiaGang (type : cpg.type = .jiaGang) (player' : GamePlayer) (cpgs : List CPG) (meld : CPG)
      (spends : GamePlayer.Spends (s.players chair) [cpg.targetCard] player')
      (made : JiaGanged s chair cpg player' cpgs meld) :
      Ganged cfg s chair cpg (((s.ganging chair { player' with cpgs }).addStep (.gang chair)).afterJiaGang cfg
        chair cpg.targetCard)

/-- A gang message that picks a kong with tiles in the hand is carried out, if a concealed kong is whole. -/
theorem ganged_onMsgGang (cfg : TableConfig) {chair : Fin 2} {cards : List Int} {cpg : CPG}
    (total : ∀ tile, s.total tile = initialCards.count tile)
    (ready : Ready s.players s.curRoundChairId s.targetInfo) (wall : s.cards ≠ [])
    (valid : cards.all isValidCard = true) (picked : (s.players chair).getOptionalCpgIdx cards = some cpg)
    (kong : isGangType cpg.type = true) (copies : (s.players chair).handCards.count cpg.targetCard ≠ 0)
    (whole : cpg.type = .anGang → 4 ≤ (s.players chair).handCards.count cpg.targetCard) :
    Ganged cfg s chair cpg (s.onMsgGang cfg chair cards) := by
  obtain ⟨stored, same⟩ := GamePlayer.getOptionalCpgIdx_some picked
  have formed := (ready.offers chair).formed cpg stored
  have four : cpg.cards = List.replicate 4 cpg.targetCard := by
    unfold CPG.WellFormed at formed
    generalize cpg.type = type at kong formed
    cases type <;> first | exact formed | cases kong
  have few := held_le_four total chair cpg.targetCard
  -- The tiles of a new meld are found again, however the hand was used up for it.
  have refound : ∀ {player'}, GamePlayer.Spends (s.players chair) cpg.taken player' →
      4 ≤ cpg.taken.count cpg.targetCard + 1 → (player'.addCpg cpg).getCpgIdx cards = some cpg := by
    intro player' spends most
    have left := spends.held cpg.targetCard
    have melded := held_addCpg player' cpg cpg.targetCard
    rw [four, List.count_replicate_self] at melded
    exact getCpgIdx_kong _ (List.mem_append_right _ List.mem_cons_self) four same (by omega)
  unfold onMsgGang
  simp only [wall, valid, Bool.not_true, Bool.false_eq_true, ↓reduceIte]
  cases type : cpg.type with
  | anGang =>
    have taken : cpg.taken = cpg.cards := by simp only [CPG.taken, type, four]
    have there : ∀ tile, cpg.taken.count tile ≤ (s.players chair).handCards.count tile := fun tile => by
      have enough := whole type
      rw [taken, four, List.count_replicate]
      split
      · next here => exact beq_iff_eq.mp here ▸ enough
      · exact Nat.zero_le _
    obtain ⟨player', spends, done⟩ := GamePlayer.gang_success picked (.inl type) there
    have again := refound spends (by rw [taken, four, List.count_replicate_self]; omega)
    simp only [done, again, type, reduceCtorEq, ↓reduceIte]
    exact .anGang type player' spends
  | dianGang =>
    have claim : isClaimType cpg.type = true := by rw [type]; rfl
    obtain ⟨-, -, -, there⟩ := (ready.offers chair).claim cpg stored claim
    obtain ⟨player', spends, done⟩ := GamePlayer.gang_success picked (.inr type) there
    have taken : cpg.taken.count cpg.targetCard = 3 := by
      simp only [CPG.taken, type, List.count_replicate_self]
    simp only [done, refound spends (by omega), type, reduceCtorEq, ↓reduceIte]
    exact .dianGang type player' spends
  | jiaGang =>
    obtain ⟨player', spends, done⟩ :=
      GamePlayer.gang_jiaGang picked type (Nat.one_le_iff_ne_zero.mpr copies)
    obtain ⟨cpgs, meld, made⟩ := jiaGanged total ready stored type spends
    have again : ({ player' with cpgs } : GamePlayer).getCpgIdx cards = some meld := by
      refine getCpgIdx_kong { player' with cpgs } made.present made.cards ?_ ?_
      · rw [made.cards, ← four, same]
      · have few' := held_le_four made.total chair cpg.targetCard
        rw [setPlayer_players_self] at few'
        omega
    simp only [done, made.changed, again, made.type, made.target, reduceCtorEq, ↓reduceIte]
    exact .jiaGang type player' cpgs meld spends made
  | _ => rw [type] at kong; cases kong

/-- A concealed kong moves its four tiles from the hand to the melds. -/
theorem total_anGang {chair : Fin 2} {cpg : CPG} {player' : GamePlayer} (formed : cpg.WellFormed)
    (type : cpg.type = .anGang) (spends : GamePlayer.Spends (s.players chair) cpg.taken player') (tile : Int) :
    (s.setPlayer chair (player'.addCpg cpg)).total tile = s.total tile := by
  have taken : cpg.taken = cpg.cards := by
    rw [CPG.WellFormed, type] at formed
    simp only [CPG.taken, type, formed]
  refine total_setPlayer_of_held ?_
  rw [held_addCpg, spends.held tile, taken]
  omega

theorem Ganged.balanced {cfg : TableConfig} {chair : Fin 2} {cpg : CPG} {s' : GameState}
    (ganged : Ganged cfg s chair cpg s') (total : ∀ tile, s.total tile = initialCards.count tile)
    (ready : Ready s.players s.curRoundChairId s.targetInfo)
    (stored : cpg ∈ (s.players chair).optionalCpgs) : Balanced s' := by
  have formed := (ready.offers chair).formed cpg stored
  cases ganged with
  | anGang type player' spends =>
    have total' : ∀ tile, (s.setPlayer chair (player'.addCpg cpg)).total tile = initialCards.count tile :=
      fun tile => (total_anGang formed type spends tile).trans (total tile)
    have melds : MeldsFormed (s.setPlayer chair (player'.addCpg cpg)).players :=
      meldsFormed_setPlayer ready.melds (formed_addCpg spends (ready.melds chair) formed)
    have other : OffersReady (s.setPlayer chair (player'.addCpg cpg)).players chair (nextChair chair) :=
      otherOffers ready (congrArg (·.outCards) spends.rest)
    exact balanced_updateGameRound cfg total' melds other
  | dianGang type player' spends =>
    have claim : isClaimType cpg.type = true := by rw [type]; rfl
    obtain ⟨total', melds, other⟩ := claimed total ready stored claim spends
    exact balanced_updateGameRound cfg total' melds other
  | jiaGang type player' cpgs meld spends made =>
    have there : meld ∈ ((s.setPlayer chair { player' with cpgs }).players chair).cpgs := by
      rw [setPlayer_players_self]
      exact made.present
    exact balanced_afterJiaGang cfg made.total made.melds there made.type made.target made.own

theorem balanced_onMsgGang (cfg : TableConfig) (chair : Fin 2) (cards : List Int)
    (total : ∀ tile, s.total tile = initialCards.count tile)
    (ready : Ready s.players s.curRoundChairId s.targetInfo)
    (whole : s.cards ≠ [] → cards.all isValidCard = true →
      ∀ cpg, (s.players chair).getOptionalCpgIdx cards = some cpg → cpg.type = .anGang →
        (s.players chair).handCards.count cpg.targetCard = 0 ∨
          4 ≤ (s.players chair).handCards.count cpg.targetCard) :
    Balanced (s.onMsgGang cfg chair cards) := by
  by_cases wall : s.cards = []
  · simp only [onMsgGang, wall, ↓reduceIte]
    exact ⟨total, fun _ => ready⟩
  by_cases valid : cards.all isValidCard = true
  swap
  · simp only [onMsgGang, wall, Bool.eq_false_iff.mpr valid, Bool.not_false, ↓reduceIte]
    exact ⟨total, fun _ => ready⟩
  by_cases idle : ∀ cpg, (s.players chair).getOptionalCpgIdx cards = some cpg →
      isGangType cpg.type = true → (s.players chair).handCards.count cpg.targetCard = 0
  · simp only [onMsgGang, wall, valid, Bool.not_true, Bool.false_eq_true, ↓reduceIte, GamePlayer.gang_idle idle,
      setPlayer_self]
    exact ⟨total, fun _ => ready⟩
  · push Not at idle
    obtain ⟨cpg, picked, kong, copies⟩ := idle
    exact (ganged_onMsgGang cfg total ready wall valid picked kong copies fun an =>
      (whole wall valid cpg picked an).resolve_left copies).balanced total ready
        (GamePlayer.getOptionalCpgIdx_some picked).1

/-! ## The other handlers -/

/-- The turn goes to the next player, who draws. -/
private theorem balanced_nextRound (cfg : TableConfig) {s' : GameState}
    (total : ∀ tile, s'.total tile = initialCards.count tile)
    (ready : Ready s'.players s.curRoundChairId s.targetInfo) :
    Balanced (s'.updateGameRound cfg (nextChair s.curRoundChairId) true) := by
  refine balanced_updateGameRound cfg total ready.melds ?_
  rw [nextChair_nextChair]
  exact (ready.offers s.curRoundChairId).of_own_turn rfl rfl

theorem balanced_onMsgPass (cfg : TableConfig) (chair : Fin 2)
    (total : ∀ tile, s.total tile = initialCards.count tile)
    (ready : Ready s.players s.curRoundChairId s.targetInfo) : Balanced (s.onMsgPass cfg chair) := by
  unfold onMsgPass
  split
  · exact ⟨total, fun _ => ready⟩
  have total' : ∀ tile, (s.modifyPlayer chair .resetOption).total tile = initialCards.count tile := fun tile =>
    (total_modifyPlayer_of_core core_resetOption tile).trans (total tile)
  have ready' : Ready (s.modifyPlayer chair .resetOption).players s.curRoundChairId s.targetInfo :=
    ready_modifyPlayer core_resetOption ready
  dsimp only
  split
  · split
    · exact balanced_onTimerTianTing cfg total' ready'
    · exact balanced_nextRound cfg total' ready'
  · exact ⟨total', fun _ => ready'⟩

theorem balanced_onTimerOption (cfg : TableConfig)
    (total : ∀ tile, s.total tile = initialCards.count tile)
    (ready : Ready s.players s.curRoundChairId s.targetInfo)
    (own : (s.players (nextChair s.curRoundChairId)).hasOptionType .hu = true →
      s.targetInfo.type = .jiaGang →
      (canHu (s.players (nextChair s.curRoundChairId)).handCards s.targetInfo.card []).1 = true →
        s.targetInfo.chair = some (nextChair s.curRoundChairId)) : Balanced (s.onTimerOption cfg) := by
  unfold onTimerOption
  dsimp only
  split
  · next hu => exact balanced_onHu _ total ready (own hu)
  · exact balanced_nextRound cfg total ready

theorem balanced_onTimerRound (cfg : TableConfig)
    (total : ∀ tile, s.total tile = initialCards.count tile)
    (ready : Ready s.players s.curRoundChairId s.targetInfo)
    (own : (s.players s.curRoundChairId).hasOptionType .hu = true → s.targetInfo.type = .jiaGang →
      (canHu (s.players s.curRoundChairId).handCards s.targetInfo.card []).1 = true →
        s.targetInfo.chair = some s.curRoundChairId) : Balanced (s.onTimerRound cfg) := by
  unfold onTimerRound
  dsimp only
  split
  · next hu => exact balanced_onHu _ total ready (own hu)
  · split
    · exact balanced_onOutCard cfg _ _ total ready
    · exact balanced_onOutCard cfg _ _
        (fun tile => (total_modifyPlayer_of_core core_timeout tile).trans (total tile))
        (ready_modifyPlayer core_timeout ready)

theorem balanced_onMsgOutCard (cfg : TableConfig) (chair : Fin 2) (card : Int)
    (total : ∀ tile, s.total tile = initialCards.count tile)
    (ready : Ready s.players s.curRoundChairId s.targetInfo) : Balanced (s.onMsgOutCard cfg chair card) := by
  unfold onMsgOutCard
  split
  · split <;> exact ⟨total, fun _ => ready⟩
  · exact balanced_playOutCard cfg chair card total ready

/-- A discard out of turn, as ting allows it: the offers of both players still fit. -/
private theorem ready_discarded {chair : Fin 2} {player player' : GamePlayer} {card : Int}
    (ready : Ready s.players s.curRoundChairId s.targetInfo) (offered : (s.players chair).tingOptInfos ≠ [])
    (spends : GamePlayer.Spends (s.players chair) [card] player')
    (core : player.core = { player'.core with outCards := player'.outCards ++ [card] }) :
    Ready (s.setPlayer chair player).players s.curRoundChairId s.targetInfo := by
  have rest := congrArg GamePlayer.core spends.rest
  have melds : player.cpgs = (s.players chair).cpgs :=
    (congrArg (·.cpgs) core).trans (congrArg (·.cpgs) rest)
  have offers : player.optionalCpgs = (s.players chair).optionalCpgs :=
    (congrArg (·.optionalCpgs) core).trans (congrArg (·.optionalCpgs) rest)
  have discards : player.outCards = (s.players chair).outCards ++ [card] :=
    (congrArg (·.outCards) core).trans (congrArg (fun discards => discards ++ [card]) (congrArg (·.outCards) rest))
  refine ⟨meldsFormed_setPlayer ready.melds (melds ▸ ready.melds chair), fun seat => ?_, fun real => ?_⟩
  · obtain ⟨formed, unmixed, claim, kong⟩ := ready.offers seat
    by_cases here : seat = chair
    · subst here
      have noClaim : ∀ cpg ∈ (s.players seat).optionalCpgs, isClaimType cpg.type ≠ true :=
        fun cpg there isClaim => offered (claim cpg there isClaim).2.2.1
      refine ⟨?_, ?_, ?_, ?_⟩ <;> simp only [setPlayer_players_self, offers, melds]
      · exact formed
      · exact unmixed
      · exact fun cpg there isClaim => absurd isClaim (noClaim cpg there)
      · exact kong
    · obtain rfl := eq_nextChair_of_ne here
      refine ⟨?_, ?_, ?_, ?_⟩ <;>
        simp only [setPlayer_players_next, nextChair_nextChair, setPlayer_players_self, discards]
      · exact formed
      · exact unmixed
      · intro cpg there isClaim
        obtain ⟨turn, present, rest⟩ := claim cpg there isClaim
        rw [nextChair_nextChair] at present
        exact ⟨turn, List.mem_append_left _ present, rest⟩
      · exact kong
  · obtain ⟨owner, ownerChair, place⟩ := ready.target real
    refine ⟨owner, ownerChair, ?_⟩
    by_cases here : owner = chair
    · subst here
      simp only [setPlayer_players_self, discards, melds]
      exact place.imp_left fun out => ⟨out.1, List.mem_append_left _ out.2⟩
    · obtain rfl := eq_nextChair_of_ne here
      simp only [setPlayer_players_next]
      exact place

theorem balanced_onMsgTing (cfg : TableConfig) (chair : Fin 2) (card : Int)
    (total : ∀ tile, s.total tile = initialCards.count tile)
    (ready : Ready s.players s.curRoundChairId s.targetInfo) : Balanced (s.onMsgTing cfg chair card) := by
  unfold onMsgTing
  obtain refused | ⟨info, stored, -, -, ⟨none, done⟩ | ⟨real, player', spends, -, done⟩⟩ :=
    (s.players chair).declareTing_cases card
  · simp only [refused, setPlayer_self]
    exact ⟨total, fun _ => ready⟩
  · let player := { s.players chair with tingInfos := info.tingInfos, ting := true }
    have held : ∀ tile, player.held tile = (s.players chair).held tile := fun _ => rfl
    have total' : ∀ tile, (s.setPlayer chair player).total tile = initialCards.count tile := fun tile =>
      (total_setPlayer_of_held (held tile)).trans (total tile)
    have ready' : Ready (s.setPlayer chair player).players s.curRoundChairId s.targetInfo :=
      ready.congr fun seat => by
        by_cases here : seat = chair
        · rw [here, setPlayer_players_self]
          rfl
        · rw [eq_nextChair_of_ne here, setPlayer_players_next]
    have given : ¬card ≠ gameInvalidCard := not_not.mpr none
    simp only [done, given, ↓reduceIte]
    split
    · exact balanced_onTimerTianTing cfg total' ready'
    · exact ⟨total', fun _ => ready'⟩
  · let player := { player' with
      outCards := player'.outCards ++ [card], tingInfos := info.tingInfos, ting := true }
    have core : player.core = { player'.core with outCards := player'.outCards ++ [card] } := rfl
    have valid := hand_valid total chair card (spends.perm.symm.subset List.mem_cons_self)
    simp only [done, real, ne_eq, not_false_eq_true, ↓reduceIte, valid, Bool.not_true, Bool.false_eq_true]
    split
    · have total' : ∀ tile, (s.setPlayer chair player).total tile = initialCards.count tile := fun tile => by
        rw [← total tile]
        refine total_setPlayer_of_held ?_
        rw [spends.held]
        simp only [player, GamePlayer.held_eq, List.count_append]
        omega
      exact ⟨total', fun _ => ready_discarded ready (List.ne_nil_of_mem stored) spends core⟩
    · next turn =>
      have cur : s.curRoundChairId = chair := not_not.mp turn
      obtain ⟨total', melds, own, valid, present⟩ := discarded total ready cur spends core
      exact balanced_afterDiscard cfg total' melds cur own valid present

end GameState

end H5Server.Erqs
