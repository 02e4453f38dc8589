import H5Server.Erqs.Draws

/-! # Rounds

`UpdateGameRound` either ends for want of tiles or opens a round for one player, with new options
for that player and none for the other.
-/

namespace H5Server.Erqs

namespace GameState

/-! ## Rounds -/

/-- The steps of a draw for the round. -/
def drawSteps (s : GameState) (chair : Fin 2) (addHandCard : Bool) : List ReplayStep :=
  if addHandCard then [.addCard chair (decide (s.lastAction ≠ .gang))] else []

theorem drawForRound_spec (cfg : TableConfig) (s : GameState) (chair : Fin 2) (addHandCard : Bool)
    (valid : gameInvalidCard ∉ s.cards) :
    let (s', drawn) := s.drawForRound cfg chair addHandCard
    Refills chair { s with
      curRoundChairId := chair, gameOpCnt := s.gameOpCnt + (drawn && addHandCard).toNat } s' ∧
    (drawn = false → s'.replay = s.replay) ∧
    (drawn = true → s'.replay = s.replay ++ s.drawSteps chair addHandCard ∧
      s'.isGameFlow = s.isGameFlow ∧
      (s'.players chair).handCards.length = (s.players chair).handCards.length + addHandCard.toNat) := by
  cases addHandCard with
  | false =>
    simp only [drawForRound, drawSteps, Bool.false_eq_true, ↓reduceIte, List.append_nil, Bool.toNat_false,
      Nat.add_zero, Bool.and_false]
    exact ⟨.refl .., nofun, fun _ => ⟨trivial, trivial, trivial⟩⟩
  | true =>
    obtain ⟨-, draw⟩ | ⟨card, wall, needCards, perm, draw⟩ :=
      ({ s with curRoundChairId := chair } : GameState).dealCardToUser_cases cfg chair
    · simp only [drawForRound, draw, ↓reduceIte]
      exact ⟨⟨fun _ => rfl, rfl, rfl, rfl, List.Subset.refl _⟩, fun _ => trivial, nofun⟩
    · have real : card ≠ gameInvalidCard := fun bad =>
        valid (bad ▸ perm.symm.subset List.mem_cons_self)
      simp only [drawForRound, draw, real, ↓reduceIte]
      have drawn := refills_draw { s with curRoundChairId := chair } chair needCards perm
      refine ⟨⟨drawn.total, drawn.fixed, drawn.other, rfl, drawn.wall⟩, nofun, fun _ => ⟨rfl, rfl, ?_⟩⟩
      simp only [addStep, setPlayer_players_self, List.length_append, List.length_singleton, Bool.toNat_true]

/-- A round that ends for want of tiles. -/
structure Concluded (chair : Fin 2) (addHandCard : Bool) (s s' : GameState) : Prop where
  total : ∀ tile, s'.total tile = s.total tile
  fixed : (s'.players chair).fixed = (s.players chair).fixed
  other : s'.players (nextChair chair) = s.players (nextChair chair)
  cur : s'.curRoundChairId = chair
  finished : s'.playing = false
  replay : s'.replay = s.replay ++ [.noHu] ∨ ∃ k, s'.replay =
    s.replay ++ s.drawSteps chair addHandCard ++ List.replicate k (.replaceHua chair) ++ [.noHu]
  wall : s'.cards ⊆ s.cards

/-- A round opened for `chair`, whose options are computed anew. -/
structure Opened (chair : Fin 2) (addHandCard : Bool) (s s' : GameState) : Prop where
  total : ∀ tile, s'.total tile = s.total tile
  player : ∃ (player : GamePlayer) (mask : Nat), player.fixed = (s.players chair).fixed ∧
    player.handCards.length = (s.players chair).handCards.length + addHandCard.toNat ∧
    s'.players chair =
      player.updateOption chair gameInvalidCard none (decide (0 < s'.cards.length)) mask
  other : s'.players (nextChair chair) = (s.players (nextChair chair)).resetOption
  frame : s'.frame = { s.frame with
    curRoundChairId := chair, targetInfo := {}, timerRound := true
    gameOpCnt := s.gameOpCnt + addHandCard.toNat }
  replay : ∃ k, s'.replay =
    s.replay ++ s.drawSteps chair addHandCard ++ List.replicate k (.replaceHua chair)
  flow : s.isGameFlow = false
  wall : s'.cards ⊆ s.cards

theorem held_resetOption (player : GamePlayer) (tile : Int) : player.resetOption.held tile = player.held tile := rfl

theorem held_updateOption (player : GamePlayer) (chair : Fin 2) (targetCard : Int)
    (targetChair : Option (Fin 2)) (canGang : Bool) (update : Nat) (tile : Int) :
    (player.updateOption chair targetCard targetChair canGang update).held tile = player.held tile := rfl

theorem openRound_players_self (s : GameState) (chair : Fin 2) :
    (s.openRound chair).players chair = (s.players chair).updateOption chair gameInvalidCard none
      (decide (0 < s.cards.length)) s.roundOptions := by
  simp only [openRound, modifyPlayer, setPlayer_next_players, sendOption, setPlayer_players_self]
  rfl

theorem openRound_players_next (s : GameState) (chair : Fin 2) :
    (s.openRound chair).players (nextChair chair) = (s.players (nextChair chair)).resetOption := by
  simp only [openRound, modifyPlayer, sendOption, setPlayer_players_self, setPlayer_players_next]
  rfl

theorem openRound_total (s : GameState) (chair : Fin 2) (tile : Int) :
    (s.openRound chair).total tile = s.total tile := by
  have wall : (s.openRound chair).cards = s.cards := rfl
  simp only [total_eq _ chair, openRound_players_self, openRound_players_next, held_updateOption,
    held_resetOption, wall]

private theorem opened_openRound {s middle : GameState} {chair : Fin 2} {addHandCard : Bool}
    (refill : Refills chair { s with
      curRoundChairId := chair, gameOpCnt := s.gameOpCnt + addHandCard.toNat } middle)
    (replay : ∃ k, middle.replay =
      s.replay ++ s.drawSteps chair addHandCard ++ List.replicate k (.replaceHua chair))
    (size : (middle.players chair).handCards.length =
      (s.players chair).handCards.length + addHandCard.toNat) (flow : s.isGameFlow = false) :
    Opened chair addHandCard s (middle.openRound chair) where
  total tile := (middle.openRound_total chair tile).trans (refill.total tile)
  player := ⟨middle.players chair, middle.roundOptions, refill.fixed, size, middle.openRound_players_self chair⟩
  other := (middle.openRound_players_next chair).trans (congrArg GamePlayer.resetOption refill.other)
  frame := congrArg (fun s : GameState => { s with targetInfo := {}, timerRound := true }) refill.frame
  replay := replay
  flow := flow
  wall := refill.wall

private theorem updateGameRoundAux_flowerless (cfg : TableConfig) (depth : Nat) {s : GameState}
    {chair : Fin 2} (cur : s.curRoundChairId = chair) (flow : s.isGameFlow = false)
    (clean : (s.players chair).searchHuaCardsInHandCards = []) :
    updateGameRoundAux cfg (depth + 1) s chair false = s.openRound chair := by
  have idle : s.drawForRound cfg chair false = (s, true) := by
    simp only [drawForRound, Bool.false_eq_true, ↓reduceIte, ← cur]
  simp only [updateGameRoundAux, idle, replaceHua_of_flowerless cfg clean, flow, Bool.false_eq_true, ↓reduceIte]

theorem updateGameRound_cases (cfg : TableConfig) (s : GameState) (chair : Fin 2) (addHandCard : Bool)
    (valid : gameInvalidCard ∉ s.cards) :
    Concluded chair addHandCard s (s.updateGameRound cfg chair addHandCard) ∨
      Opened chair addHandCard s (s.updateGameRound cfg chair addHandCard) := by
  rw [updateGameRound, updateGameRoundAux]
  have drawing := drawForRound_spec cfg s chair addHandCard valid
  generalize s.drawForRound cfg chair addHandCard = result at drawing ⊢
  obtain ⟨s₁, drawn⟩ := result
  obtain ⟨refill₁, stuck, success⟩ := drawing
  cases drawn with
  | false =>
    left
    simp only
    exact ⟨refill₁.total, refill₁.fixed, refill₁.other, congrArg curRoundChairId refill₁.frame, rfl,
      .inl (congrArg (fun replay => replay ++ [ReplayStep.noHu]) (stuck rfl)), refill₁.wall⟩
  | true =>
    obtain ⟨replay₁, flow₁, size₁⟩ := success rfl
    have flowers := replaceHua_spec cfg s₁ chair (fun bad => valid (refill₁.wall bad))
    simp only
    generalize s₁.replaceHua cfg chair = result at flowers ⊢
    obtain ⟨s₂, replaced⟩ := result
    obtain ⟨refill₂, ⟨k, replay₂⟩, flow₂, clean, -⟩ := flowers
    have refill := refill₁.trans refill₂
    have steps : s₂.replay = s.replay ++ s.drawSteps chair addHandCard ++ List.replicate k (.replaceHua chair) := by
      rw [replay₂, replay₁]
    simp only
    cases finished : s₂.isGameFlow with
    | true =>
      left
      exact ⟨refill.total, refill.fixed, refill.other, congrArg curRoundChairId refill.frame, rfl,
        .inr ⟨k, congrArg (fun replay => replay ++ [ReplayStep.noHu]) steps⟩, refill.wall⟩
    | false =>
      right
      obtain ⟨flowerless, size₂⟩ := clean finished
      have flow : s.isGameFlow = false := Bool.eq_false_iff.mpr fun before =>
        Bool.noConfusion (finished.symm.trans (flow₂ (flow₁.trans before)))
      have opened : Opened chair addHandCard s (s₂.openRound chair) :=
        opened_openRound refill ⟨k, steps⟩ (size₂.trans size₁) flow
      cases replaced with
      | false => exact opened
      | true =>
        simp only [Bool.false_eq_true, ↓reduceIte]
        have cur : s₂.curRoundChairId = chair := congrArg curRoundChairId refill.frame
        rw [updateGameRoundAux_flowerless cfg 0 cur finished flowerless]
        exact opened

/-! ## Offers to the other player -/

/-- From `s` to `s'` the options of `chair` were reset and the other player was sent options. -/
structure Sent (chair : Fin 2) (update : Nat) (s s' : GameState) : Prop where
  self : s'.players chair = (s.players chair).resetOption
  next : s'.players (nextChair chair) =
    (s.players (nextChair chair)).updateOption (nextChair chair) s.targetInfo.card s.targetInfo.chair
      (decide (0 < s.cards.length)) update
  total : ∀ tile, s'.total tile = s.total tile
  rest : s' = { s with players := s'.players }

theorem sent_offerOther (s : GameState) (chair : Fin 2) (update : Nat) :
    Sent chair update s (s.offerOther chair update).1 := by
  have self : (s.offerOther chair update).1.players chair = (s.players chair).resetOption := by
    simp only [offerOther, sendOption, modifyPlayer, setPlayer_next_players, setPlayer_players_self]
  have next : (s.offerOther chair update).1.players (nextChair chair) =
      (s.players (nextChair chair)).updateOption (nextChair chair) s.targetInfo.card s.targetInfo.chair
        (decide (0 < s.cards.length)) update := by
    simp only [offerOther, sendOption, modifyPlayer, setPlayer_players_self, setPlayer_players_next]
    rfl
  have wall : (s.offerOther chair update).1.cards = s.cards := rfl
  refine ⟨self, next, fun tile => ?_, rfl⟩
  simp only [total_eq _ chair, self, next, held_updateOption, held_resetOption, wall]

theorem offerOther_snd (s : GameState) (chair : Fin 2) (update : Nat) :
    (s.offerOther chair update).2 =
      (((s.offerOther chair update).1.players (nextChair chair)).option != 0) := by
  simp only [offerOther, sendOption, setPlayer_players_self]

/-- A handler that sends options and goes on in one way or the other. -/
private theorem offered_cases {s result : GameState} {chair : Fin 2} {update : Nat}
    (declined : GameState → GameState)
    (eq : result = match s.offerOther chair update with
      | (s, false) => declined s
      | (s, true) => { s with timerOption := true }) :
    ∃ s', Sent chair update s s' ∧
      (((s'.players (nextChair chair)).option = 0 ∧ result = declined s') ∨
        ((s'.players (nextChair chair)).option ≠ 0 ∧ result = { s' with timerOption := true })) := by
  have sent := s.sent_offerOther chair update
  have any := s.offerOther_snd chair update
  generalize s.offerOther chair update = outcome at sent any eq
  obtain ⟨s', offered⟩ := outcome
  refine ⟨s', sent, ?_⟩
  cases offered with
  | false => exact .inl ⟨bne_eq_false_iff_eq.mp any.symm, eq⟩
  | true => exact .inr ⟨bne_iff_ne.mp any.symm, eq⟩

/-- After a discard: the other player draws, or is offered the tile. -/
theorem afterDiscard_cases (cfg : TableConfig) (s : GameState) (chair : Fin 2) (card : Int) :
    ∃ s', Sent chair claimOptions (s.setTargetInfo card .out (some chair)) s' ∧
      (((s'.players (nextChair chair)).option = 0 ∧
          s.afterDiscard cfg chair card = s'.updateGameRound cfg (nextChair chair) true) ∨
        ((s'.players (nextChair chair)).option ≠ 0 ∧
          s.afterDiscard cfg chair card = { s' with timerOption := true })) :=
  offered_cases (fun s => s.updateGameRound cfg (nextChair chair) true) rfl

/-- After an added kong: its player draws, or the other player is offered to rob it. -/
theorem afterJiaGang_cases (cfg : TableConfig) (s : GameState) (chair : Fin 2) (card : Int) :
    ∃ s', Sent chair MjType.hu.bit (s.setTargetInfo card .jiaGang (some chair)) s' ∧
      (((s'.players (nextChair chair)).option = 0 ∧
          s.afterJiaGang cfg chair card = s'.updateGameRound cfg chair true) ∨
        ((s'.players (nextChair chair)).option ≠ 0 ∧
          s.afterJiaGang cfg chair card = { s' with timerOption := true })) :=
  offered_cases (fun s => s.updateGameRound cfg chair true) rfl

/-! ## Steps -/

/-- What an event can do to a running round. -/
theorem step_cases {cfg : TableConfig} {s s' : GameState} {event : Event}
    (taken : s.step cfg event = some s') : s.playing = true ∧
      ((∃ (chair : Fin 2) (msg : Message), event = .message chair msg ∧ s' = s.onGameMessage cfg chair msg) ∨
      (∃ chairid msg, event = .message chairid msg ∧ 2 ≤ chairid ∧ s' = s) ∨
      (event = .timerRound ∧ s.timerRound = true ∧ s' = s.onTimerRound cfg) ∨
      (event = .timerOption ∧ s.timerOption = true ∧ s' = s.onTimerOption cfg) ∨
      (event = .timerTianTing ∧ s.timerTianTing = true ∧ s' = s.onTimerTianTing cfg) ∨
      ∃ chair, event = .reconnect chair ∧ s' = s.modifyPlayer chair (·.setHosting false)) := by
  unfold step at taken
  split at taken
  · cases taken
  next running =>
  refine ⟨by simpa using running, ?_⟩
  cases event with
  | message chairid msg =>
    simp only at taken
    split at taken
    · next seated => exact .inl ⟨⟨chairid, seated⟩, msg, rfl, (Option.some.inj taken).symm⟩
    · next unseated =>
      exact .inr (.inl ⟨chairid, msg, rfl, Nat.not_lt.mp unseated, (Option.some.inj taken).symm⟩)
  | timerRound =>
    obtain ⟨armed, done⟩ := Option.ite_none_right_eq_some.mp taken
    exact .inr (.inr (.inl ⟨rfl, armed, (Option.some.inj done).symm⟩))
  | timerOption =>
    obtain ⟨armed, done⟩ := Option.ite_none_right_eq_some.mp taken
    exact .inr (.inr (.inr (.inl ⟨rfl, armed, (Option.some.inj done).symm⟩)))
  | timerTianTing =>
    obtain ⟨armed, done⟩ := Option.ite_none_right_eq_some.mp taken
    exact .inr (.inr (.inr (.inr (.inl ⟨rfl, armed, (Option.some.inj done).symm⟩))))
  | reconnect chair =>
    exact .inr (.inr (.inr (.inr (.inr ⟨chair, rfl, (Option.some.inj taken).symm⟩))))

end GameState

end H5Server.Erqs
