import H5Server.Erqs.Rounds
import H5Server.Erqs.Options

/-! # Offers and their option bits

In every reachable state a player's option bits either cover every stored offer or are all clear:
`UpdateOption` sets them together, `ResetOption` clears the bits alone. Rounds, discards and timers
leave melds and ting as they are.
-/

namespace H5Server.Erqs

namespace GamePlayer

/-- The bits are clear, or every stored offer has its bit. -/
def Announced (player : GamePlayer) : Prop :=
  player.option = 0 ∨
    ((∀ cpg ∈ player.optionalCpgs, player.hasOptionType cpg.type = true) ∧
      (player.tingOptInfos ≠ [] → player.hasOptionType .ting = true))

/-- The fields that `UpdateOption` and `ResetOption` write. -/
def offers (player : GamePlayer) : Nat × List CPG × List TingOptInfo :=
  (player.option, player.optionalCpgs, player.tingOptInfos)

theorem Announced.congr {player player' : GamePlayer} (announced : player.Announced)
    (same : player'.offers = player.offers) : player'.Announced := by
  simp only [offers, Prod.mk.injEq] at same
  obtain ⟨option, cpgs, tings⟩ := same
  simp only [Announced, hasOptionType, option, cpgs, tings]
  exact announced

theorem announced_updateOption (player : GamePlayer) (chair : Fin 2) (targetCard : Int)
    (targetChair : Option (Fin 2)) (canGang : Bool) (update : Nat) :
    (player.updateOption chair targetCard targetChair canGang update).Announced :=
  .inr ⟨fun _ stored => player.updateOption_hasOptionType _ _ _ _ _ stored,
    player.updateOption_hasOptionType_ting _ _ _ _ _⟩

theorem announced_resetOption (player : GamePlayer) : player.resetOption.Announced := .inl rfl

/-- Melds and ting stay, and the bits still cover the offers. -/
structure Steady (player player' : GamePlayer) : Prop where
  melds : player'.cpgs = player.cpgs
  ting : player'.ting = player.ting
  announced : player.Announced → player'.Announced

theorem Steady.refl (player : GamePlayer) : Steady player player := ⟨rfl, rfl, id⟩

theorem Steady.trans {player middle player' : GamePlayer} (first : Steady player middle)
    (second : Steady middle player') : Steady player player' :=
  ⟨second.melds.trans first.melds, second.ting.trans first.ting, second.announced ∘ first.announced⟩

theorem steady_of_offers {player player' : GamePlayer} (offers : player'.offers = player.offers)
    (melds : player'.cpgs = player.cpgs) (ting : player'.ting = player.ting) : Steady player player' :=
  ⟨melds, ting, fun announced => announced.congr offers⟩

theorem steady_of_fixed {player player' : GamePlayer} (same : player'.fixed = player.fixed) :
    Steady player player' :=
  steady_of_offers (congrArg offers same :) (congrArg (·.cpgs) same) (congrArg (·.ting) same)

theorem steady_updateOption (player : GamePlayer) (chair : Fin 2) (targetCard : Int)
    (targetChair : Option (Fin 2)) (canGang : Bool) (update : Nat) :
    Steady player (player.updateOption chair targetCard targetChair canGang update) :=
  ⟨rfl, rfl, fun _ => player.announced_updateOption ..⟩

theorem steady_resetOption (player : GamePlayer) : Steady player player.resetOption :=
  ⟨rfl, rfl, fun _ => player.announced_resetOption⟩

theorem Spends.steady {player player' : GamePlayer} {cards : List Int}
    (spends : Spends player cards player') : Steady player player' :=
  steady_of_offers (congrArg offers spends.rest :) (congrArg (·.cpgs) spends.rest) (congrArg (·.ting) spends.rest)

theorem steady_outCard (player : GamePlayer) (card : Int) : Steady player (player.outCard card).1 := by
  obtain refused | ⟨player', spends, -, done⟩ := player.outCard_cases card
  · rw [refused]
    exact .refl player
  · rw [done]
    exact spends.steady.trans (steady_of_offers rfl rfl rfl)

end GamePlayer

namespace GameState

open GamePlayer

/-- What neither melds nor declares ting: the melds, the ting flags and the cover of the bits stay. -/
structure Quiet (s s' : GameState) : Prop where
  wall : s'.cards ⊆ s.cards
  players : ∀ seat, Steady (s.players seat) (s'.players seat)

theorem Quiet.refl (s : GameState) : Quiet s s := ⟨List.Subset.refl _, fun _ => .refl _⟩

theorem Quiet.trans {s middle s' : GameState} (first : Quiet s middle) (second : Quiet middle s') :
    Quiet s s' :=
  ⟨List.Subset.trans second.wall first.wall, fun seat => (first.players seat).trans (second.players seat)⟩

theorem Quiet.valid {s s' : GameState} (quiet : Quiet s s') (valid : gameInvalidCard ∉ s.cards) :
    gameInvalidCard ∉ s'.cards := fun bad => valid (quiet.wall bad)

variable {s : GameState}

theorem quiet_setPlayer {chair : Fin 2} {player : GamePlayer} (steady : Steady (s.players chair) player) :
    Quiet s (s.setPlayer chair player) := by
  refine ⟨List.Subset.refl _, fun seat => ?_⟩
  by_cases here : seat = chair
  · rw [here, setPlayer_players_self]
    exact steady
  · rw [eq_nextChair_of_ne here, setPlayer_players_next]
    exact .refl _

theorem quiet_updateGameRound (cfg : TableConfig) (chair : Fin 2) (addHandCard : Bool)
    (valid : gameInvalidCard ∉ s.cards) : Quiet s (s.updateGameRound cfg chair addHandCard) := by
  obtain concluded | opened := s.updateGameRound_cases cfg chair addHandCard valid
  · refine ⟨concluded.wall, fun seat => ?_⟩
    by_cases here : seat = chair
    · rw [here]
      exact steady_of_fixed concluded.fixed
    · rw [eq_nextChair_of_ne here, concluded.other]
      exact .refl _
  · refine ⟨opened.wall, fun seat => ?_⟩
    by_cases here : seat = chair
    · obtain ⟨player, mask, fixed, -, refreshed⟩ := opened.player
      rw [here, refreshed]
      exact (steady_of_fixed fixed).trans (player.steady_updateOption ..)
    · rw [eq_nextChair_of_ne here, opened.other]
      exact steady_resetOption _

theorem quiet_sent {s' : GameState} {chair : Fin 2} {update : Nat} (sent : Sent chair update s s') : Quiet s s' := by
  refine ⟨?_, fun seat => ?_⟩
  · rw [sent.rest]
    exact List.Subset.refl _
  · by_cases here : seat = chair
    · rw [here, sent.self]
      exact steady_resetOption _
    · rw [eq_nextChair_of_ne here, sent.next]
      exact steady_updateOption ..

theorem quiet_afterDiscard (cfg : TableConfig) (chair : Fin 2) (card : Int)
    (valid : gameInvalidCard ∉ s.cards) : Quiet s (s.afterDiscard cfg chair card) := by
  obtain ⟨s', sent, ⟨-, result⟩ | ⟨-, result⟩⟩ := s.afterDiscard_cases cfg chair card
  all_goals
    have quiet := quiet_sent sent
    have before : Quiet s s' := ⟨quiet.wall, quiet.players⟩
    rw [result]
  · exact before.trans (quiet_updateGameRound cfg _ _ (before.valid valid))
  · exact ⟨before.wall, before.players⟩

theorem quiet_afterJiaGang (cfg : TableConfig) (chair : Fin 2) (card : Int)
    (valid : gameInvalidCard ∉ s.cards) : Quiet s (s.afterJiaGang cfg chair card) := by
  obtain ⟨s', sent, ⟨-, result⟩ | ⟨-, result⟩⟩ := s.afterJiaGang_cases cfg chair card
  all_goals
    have quiet := quiet_sent sent
    have before : Quiet s s' := ⟨quiet.wall, quiet.players⟩
    rw [result]
  · exact before.trans (quiet_updateGameRound cfg _ _ (before.valid valid))
  · exact ⟨before.wall, before.players⟩

theorem quiet_onOutCard (cfg : TableConfig) (chair : Fin 2) (card : Int)
    (valid : gameInvalidCard ∉ s.cards) : Quiet s (s.onOutCard cfg chair card) := by
  unfold onOutCard
  split
  · exact .refl s
  · have steady := (s.players chair).steady_outCard card
    generalize (s.players chair).outCard card = result at steady ⊢
    obtain ⟨player, done⟩ := result
    have discarded : Quiet s (s.setPlayer chair player) := quiet_setPlayer steady
    cases done with
    | false => exact discarded
    | true =>
      refine discarded.trans (Quiet.trans ?_ (quiet_afterDiscard cfg chair card valid))
      exact ⟨List.Subset.refl _, fun _ => .refl _⟩

theorem quiet_playOutCard (cfg : TableConfig) (chair : Fin 2) (card : Int)
    (valid : gameInvalidCard ∉ s.cards) : Quiet s (s.playOutCard cfg chair card) := by
  unfold playOutCard
  split
  · exact .refl s
  · exact quiet_onOutCard cfg chair card valid

theorem quiet_setHosting (s : GameState) (chair : Fin 2) (hosting : Bool) :
    Quiet s (s.modifyPlayer chair (·.setHosting hosting)) := quiet_setPlayer (steady_of_offers rfl rfl rfl)

theorem quiet_onTimerTianTing (cfg : TableConfig) (valid : gameInvalidCard ∉ s.cards) :
    Quiet s (s.onTimerTianTing cfg) := by
  have start : Quiet s { s with timerTianTing := false, tianTinging := false } := ⟨(Quiet.refl s).wall, (Quiet.refl s).players⟩
  obtain ⟨replayed, last, played⟩ := exists_replayed cfg start fun s' chair card quiet _ =>
    (quiet.trans (quiet_setHosting s' chair false)).trans (quiet_playOutCard cfg chair card (quiet.valid valid))
  rw [played]
  exact ⟨last.wall, last.players⟩

end GameState

end H5Server.Erqs
