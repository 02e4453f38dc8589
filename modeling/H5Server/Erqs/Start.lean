import H5Server.Erqs.Rounds

/-! # The start of a round

The table after the deal and the first flowers: the tiles are those of the shuffle, the banker holds
fourteen and the other player thirteen, and nothing has been offered or melded.
-/

namespace H5Server.Erqs

namespace GameState

/-- Under control the two hands go to different players only if one of them is a robot. -/
def FairDeal (cfg : TableConfig) : Prop := cfg.ctrlType = .normal ∨ cfg.isAndroid 0 ≠ cfg.isAndroid 1

private theorem total_dealt {s : GameState} {wall hand0 hand1 : List Int} {tile : Int}
    (fresh : ∀ chair, s.players chair = {}) :
    ((({ s with cards := wall } : GameState).modifyPlayer 0
      fun player => { player with handCards := player.handCards ++ hand0 }).modifyPlayer 1
      fun player => { player with handCards := player.handCards ++ hand1 }).total tile =
        wall.count tile + hand0.count tile + hand1.count tile := by
  have empty : ∀ hand : List Int, GamePlayer.held { handCards := [] ++ hand } tile = hand.count tile := fun hand => by
    simp [GamePlayer.held_eq]
  have second : (1 : Fin 2) = nextChair 0 := rfl
  rw [second, total_eq _ 0]
  simp only [modifyPlayer, setPlayer_players_self, setPlayer_next_players, setPlayer_players_next, fresh, empty,
    setPlayer_cards]

/-- Two different players pick the two hands. -/
private theorem count_picks {winner0 winner1 : Bool} (different : winner0 ≠ winner1) (good : Bool)
    (hand0 hand1 : List Int) (tile : Int) :
    (if winner0 = good then hand0 else hand1).count tile + (if winner1 = good then hand0 else hand1).count tile =
      hand0.count tile + hand1.count tile := by
  cases good <;> cases winner0 <;> cases winner1 <;> first
    | exact absurd rfl different
    | rfl
    | exact Nat.add_comm ..

theorem total_dealHandCards {cfg : TableConfig} (fair : FairDeal cfg) {s : GameState}
    (fresh : ∀ chair, s.players chair = {}) (tile : Int) :
    (s.dealHandCards cfg).total tile = s.cards.count tile := by
  have parts : s.cards.count tile = (s.cards.drop 26).count tile + (s.cards.take 13).count tile +
      ((s.cards.drop 13).take 13).count tile := by
    have first : s.cards.count tile = (s.cards.take 13).count tile + (s.cards.drop 13).count tile := by
      rw [← List.count_append, List.take_append_drop]
    have second : (s.cards.drop 13).count tile =
        ((s.cards.drop 13).take 13).count tile + (s.cards.drop 26).count tile := by
      rw [show s.cards.drop 26 = (s.cards.drop 13).drop 13 by rw [List.drop_drop], ← List.count_append,
        List.take_append_drop]
    omega
  unfold dealHandCards
  dsimp only
  split
  · rw [total_dealt fresh, parts]
  · next controlled =>
    have different : isWinner cfg 0 ≠ isWinner cfg 1 := by
      have robots := fair.resolve_left controlled
      unfold isWinner
      split
      · exact robots
      · exact fun same => robots (Bool.not_inj same)
    rw [total_dealt fresh, parts, Nat.add_assoc, Nat.add_assoc, count_picks different]

theorem wall_dealHandCards (cfg : TableConfig) (s : GameState) :
    (s.dealHandCards cfg).cards = s.cards.drop 26 := by
  unfold dealHandCards
  dsimp only
  split <;> rfl

/-- Thirteen tiles each, whichever hand a player gets. -/
theorem length_dealHandCards (cfg : TableConfig) {s : GameState} (fresh : ∀ chair, s.players chair = {})
    (enough : 27 ≤ s.cards.length) (seat : Fin 2) :
    ((s.dealHandCards cfg).players seat).handCards.length = 13 := by
  have dealt : ∀ hand0 hand1 : List Int, hand0.length = 13 → hand1.length = 13 →
      (((({ s with cards := s.cards.drop 26 } : GameState).modifyPlayer 0
        fun player => { player with handCards := player.handCards ++ hand0 }).modifyPlayer 1
        fun player => { player with handCards := player.handCards ++ hand1 }).players seat).handCards.length =
          13 := by
    intro hand0 hand1 size0 size1
    obtain rfl | rfl : seat = 0 ∨ seat = 1 := by revert seat; decide
    · rw [show (1 : Fin 2) = nextChair 0 from rfl]
      simp only [modifyPlayer, setPlayer_next_players, setPlayer_players_self, fresh, List.nil_append, size0]
    · rw [show (0 : Fin 2) = nextChair 1 from rfl]
      simp only [modifyPlayer, setPlayer_next_players, setPlayer_players_self, fresh, List.nil_append, size1]
  have size0 : (s.cards.take 13).length = 13 := by rw [List.length_take]; omega
  have size1 : ((s.cards.drop 13).take 13).length = 13 := by rw [List.length_take, List.length_drop]; omega
  unfold dealHandCards
  dsimp only
  split
  · exact dealt _ _ size0 size1
  · have either : ∀ (good : Prop) [Decidable good],
        (if good then s.cards.take 13 else (s.cards.drop 13).take 13).length = 13 := fun good _ => by
      split
      · exact size0
      · exact size1
    exact dealt _ _ (either _) (either _)

/-- Both players as they sit down, but for the tiles dealt. -/
def Dealt (s : GameState) : Prop := ∀ chair, (s.players chair).fixed = {}

theorem dealt_dealHandCards (cfg : TableConfig) {s : GameState} (fresh : ∀ chair, s.players chair = {}) :
    Dealt (s.dealHandCards cfg) := by
  have dealt : ∀ (s : GameState) (seat : Fin 2) (hand : List Int), Dealt s →
      Dealt (s.modifyPlayer seat fun player => { player with handCards := player.handCards ++ hand }) := by
    intro s seat hand before chair
    by_cases here : chair = seat
    · rw [here, modifyPlayer, setPlayer_players_self]
      exact before seat
    · rw [eq_nextChair_of_ne here, modifyPlayer, setPlayer_players_next]
      exact before (nextChair seat)
  have start : Dealt ({ s with cards := s.cards.drop 26 } : GameState) := fun chair => by
    change (s.players chair).fixed = {}
    rw [fresh]
    rfl
  unfold dealHandCards
  dsimp only
  split
  · exact dealt _ 1 _ (dealt _ 0 _ start)
  · exact dealt _ 1 _ (dealt _ 0 _ start)

theorem Refills.dealt {chair : Fin 2} {s s' : GameState} (refills : Refills chair s s') (before : Dealt s) :
    Dealt s' := fun seat => by
  by_cases here : seat = chair
  · rw [here, refills.fixed]
    exact before chair
  · rw [eq_nextChair_of_ne here, refills.other]
    exact before (nextChair chair)

theorem refills_dealCardToUser (cfg : TableConfig) (s : GameState) (toChair : Fin 2) :
    Refills toChair s (s.dealCardToUser cfg toChair).1 := by
  obtain ⟨-, draw⟩ | ⟨card, wall, needCards, perm, draw⟩ := s.dealCardToUser_cases cfg toChair
  · rw [draw]
    exact .refl toChair s
  · rw [draw]
    exact refills_draw s toChair needCards perm

theorem dealCardToUser_replay (cfg : TableConfig) (s : GameState) (toChair : Fin 2) :
    (s.dealCardToUser cfg toChair).1.replay = s.replay := by
  obtain ⟨-, draw⟩ | ⟨card, wall, needCards, -, draw⟩ := s.dealCardToUser_cases cfg toChair <;> rw [draw]
  rfl

theorem valid_of_shuffle {shuffled : List Int} (shuffle : shuffled.Perm initialCards) :
    gameInvalidCard ∉ shuffled := fun bad => by
  have present := shuffle.subset bad
  revert present
  decide +kernel

/-- The table that `OnGameStart` opens the first round on. -/
structure DealtTable (cfg : TableConfig) (shuffled : List Int) (banker : Fin 2)
    (gameMsgCache : List (Fin 2 × Int)) (s : GameState) : Prop where
  players : Dealt s
  wall : s.cards ⊆ shuffled
  total : FairDeal cfg → ∀ tile, s.total tile = shuffled.count tile
  frame : s.frame = { players := fun _ => {}, cards := [], bankerChairId := banker, curRoundChairId := 0,
                      gameMsgCache }
  replay : ∀ step ∈ s.replay, ∃ chair, step = .handCards chair ∨ step = .replaceHua chair
  sizes : 27 ≤ shuffled.length → s.isGameFlow = false → ∀ seat,
    (s.players seat).handCards.length = if seat = banker then 14 else 13

theorem dealt_dealTable (cfg : TableConfig) {shuffled : List Int} (banker : Fin 2)
    (gameMsgCache : List (Fin 2 × Int)) (valid : gameInvalidCard ∉ shuffled) :
    DealtTable cfg shuffled banker gameMsgCache (dealTable cfg shuffled banker gameMsgCache) := by
  unfold dealTable
  extract_lets s₀ s₁ s₂ s₃ s₄
  have fresh : ∀ chair, s₀.players chair = {} := fun _ => rfl
  have wall₁ : s₁.cards ⊆ shuffled := by
    rw [show s₁.cards = shuffled.drop 26 from wall_dealHandCards cfg s₀]
    exact List.drop_subset 26 shuffled
  have first := refills_dealCardToUser cfg s₁ banker
  have valid₃ : gameInvalidCard ∉ s₃.cards := fun bad => valid (wall₁ (first.wall bad))
  obtain ⟨flowers₀, ⟨k₀, replay₀⟩, clean₀⟩ := replaceHua_fst cfg s₃ 0 valid₃
  have valid₄ : gameInvalidCard ∉ s₄.cards := fun bad => valid₃ (flowers₀.wall bad)
  obtain ⟨flowers₁, ⟨k₁, replay₁⟩, clean₁⟩ := replaceHua_fst cfg s₄ 1 valid₄
  refine ⟨flowers₁.dealt (flowers₀.dealt (first.dealt (dealt_dealHandCards cfg fresh))),
    fun tile present => wall₁ (first.wall (flowers₀.wall (flowers₁.wall present))), fun fair tile => ?_, ?_,
    fun step present => ?_, fun enough flow seat => ?_⟩
  · exact (flowers₁.total tile).trans ((flowers₀.total tile).trans ((first.total tile).trans
      (total_dealHandCards fair fresh tile)))
  · have frame₁ : s₁.frame = s₀.frame := by
      change (s₀.dealHandCards cfg).frame = _
      unfold dealHandCards
      dsimp only
      split <;> rfl
    exact flowers₁.frame.trans (flowers₀.frame.trans (first.frame.trans frame₁))
  · have before : s₃.replay = [.handCards 0, .handCards 1] := by
      have drawn : s₂.replay = s₁.replay := dealCardToUser_replay cfg s₁ banker
      have none : s₁.replay = [] := by
        change (s₀.dealHandCards cfg).replay = _
        unfold dealHandCards
        dsimp only
        split <;> rfl
      change s₂.replay ++ [.handCards 0] ++ [.handCards 1] = _
      rw [drawn, none]
      rfl
    rw [replay₁, replay₀, before] at present
    simp only [List.mem_append, List.mem_cons, List.not_mem_nil, or_false, List.mem_replicate] at present
    obtain (((rfl | rfl) | ⟨-, rfl⟩) | ⟨-, rfl⟩) := present
    · exact ⟨0, .inl rfl⟩
    · exact ⟨1, .inl rfl⟩
    · exact ⟨0, .inr rfl⟩
    · exact ⟨1, .inr rfl⟩
  · obtain ⟨flow₄, size₁⟩ := clean₁ flow
    obtain ⟨-, size₀⟩ := clean₀ flow₄
    have hands := length_dealHandCards cfg fresh enough
    have sizes : ∀ seat, (s₃.players seat).handCards.length = if seat = banker then 14 else 13 := fun seat => by
      have wall : s₁.cards ≠ [] := fun empty => by
        have dropped := congrArg List.length (wall_dealHandCards cfg s₀)
        rw [show (s₀.dealHandCards cfg).cards = [] from empty, List.length_nil, List.length_drop] at dropped
        change 0 = shuffled.length - 26 at dropped
        omega
      obtain ⟨empty, -⟩ | ⟨card, left, needCards, -, draw⟩ := s₁.dealCardToUser_cases cfg banker
      · exact absurd empty wall
      · change ((s₁.dealCardToUser cfg banker).1.players seat).handCards.length = _
        rw [draw]
        by_cases here : seat = banker
        · rw [here, setPlayer_players_self]
          simp only [List.length_append, List.length_singleton, hands, ↓reduceIte, s₁]
        · simp only [eq_nextChair_of_ne here, setPlayer_players_next, nextChair_ne, ↓reduceIte, hands, s₁]
    have swap : nextChair 0 = 1 := rfl
    have back : nextChair 1 = 0 := rfl
    obtain rfl | rfl : seat = 0 ∨ seat = 1 := by revert seat; decide
    · have same := congrArg (fun player => player.handCards.length) flowers₁.other
      rw [back] at same
      exact same.trans (size₀.trans (sizes 0))
    · have same := congrArg (fun player => player.handCards.length) flowers₀.other
      rw [swap] at same
      exact size₁.trans (same.trans (sizes 1))

end GameState

end H5Server.Erqs
