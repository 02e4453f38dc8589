import H5Server.Erqs.GamePlayer

/-! # What the actions of a player do

One lemma for each operation of `GamePlayer.cpp`: which tiles leave the hand and what the call
returns. The later modules cite these lemmas and do not unfold the operations again.
-/

namespace H5Server.Erqs

theorem nextChair_ne (chair : Fin 2) : nextChair chair ≠ chair := by
  revert chair; decide

@[simp] theorem nextChair_nextChair (chair : Fin 2) : nextChair (nextChair chair) = chair := by
  revert chair; decide

theorem eq_nextChair_of_ne {chair other : Fin 2} (ne : other ≠ chair) : other = nextChair chair := by
  revert chair other; decide

namespace GamePlayer

/-! ## Tiles of a player -/

/-- Everything the player owns: hand, discards, flowers and melds. -/
def tiles (player : GamePlayer) : List Int :=
  player.handCards ++ player.outCards ++ player.huaCards ++ player.cpgs.flatMap (·.cards)

def held (player : GamePlayer) (tile : Int) : Nat := player.tiles.count tile

theorem held_eq (player : GamePlayer) (tile : Int) :
    player.held tile = player.handCards.count tile + player.outCards.count tile +
      player.huaCards.count tile + (player.cpgs.flatMap (·.cards)).count tile := by
  simp only [held, tiles, List.count_append]

theorem eraseCopies_snd (card : Int) (num : Nat) (cards : List Int) :
    (eraseCopies card num cards).2 = min num (cards.count card) := by
  induction cards generalizing num with
  | nil => cases num <;> simp [eraseCopies]
  | cons head rest ih =>
    cases num with
    | zero => simp [eraseCopies]
    | succ num =>
      simp only [eraseCopies]
      split
      · next same => subst same; simp only [ih, List.count_cons_self]; omega
      · next other => simp only [ih, List.count_cons_of_ne other]

theorem eraseCopies_count (card : Int) (num : Nat) (cards : List Int) (tile : Int) :
    (eraseCopies card num cards).1.count tile +
      (if tile = card then min num (cards.count card) else 0) = cards.count tile := by
  induction cards generalizing num with
  | nil => cases num <;> simp [eraseCopies]
  | cons head rest ih =>
    cases num with
    | zero => simp [eraseCopies]
    | succ num =>
      simp only [eraseCopies]
      split
      · next same =>
        subst same
        have rest := ih num
        by_cases here : tile = head
        · subst here
          simp only [↓reduceIte, List.count_cons_self] at rest ⊢
          omega
        · simp only [if_neg here, List.count_cons_of_ne (Ne.symm here)] at rest ⊢
          exact rest
      · next other =>
        have rest := ih (num + 1)
        simp only [List.count_cons, List.count_cons_of_ne other] at rest ⊢
        omega

theorem eraseCopies_length (card : Int) (num : Nat) (cards : List Int) :
    (eraseCopies card num cards).1.length + min num (cards.count card) = cards.length := by
  induction cards generalizing num with
  | nil => cases num <;> simp [eraseCopies]
  | cons head rest ih =>
    cases num with
    | zero => simp [eraseCopies]
    | succ num =>
      simp only [eraseCopies]
      split
      · next same =>
        subst same
        have rest := ih num
        simp only [List.count_cons_self, List.length_cons]
        omega
      · next other =>
        have rest := ih (num + 1)
        simp only [List.count_cons_of_ne other, List.length_cons]
        omega

/-- What `eraseCopies` takes and what it leaves make up the hand. -/
theorem eraseCopies_perm (card : Int) (num : Nat) (cards : List Int) :
    cards.Perm (List.replicate (min num (cards.count card)) card ++ (eraseCopies card num cards).1) := by
  refine List.perm_iff_count.mpr fun tile => ?_
  have counts := eraseCopies_count card num cards tile
  rw [List.count_append, List.count_replicate]
  simp only [beq_iff_eq, eq_comm (a := card)]
  omega

theorem eraseCopies_of_not_mem {card : Int} (num : Nat) {cards : List Int} (absent : card ∉ cards) :
    (eraseCopies card num cards).1 = cards := by
  induction cards generalizing num with
  | nil => cases num <;> rfl
  | cons head rest ih =>
    obtain ⟨other, rest⟩ := not_or.mp (mt List.mem_cons.mpr absent)
    cases num with
    | zero => rfl
    | succ num => simp only [eraseCopies, Ne.symm other, ↓reduceIte, ih (num + 1) rest]

/-- `RemoveHandCards` touches the hand only and succeeds when the copies are there. -/
theorem removeHandCards_eq (player : GamePlayer) (card : Int) (num : Nat) :
    player.removeHandCards card num =
      ({ player with handCards := (eraseCopies card num player.handCards).1 },
        decide (num ≤ player.handCards.count card)) := by
  simp only [removeHandCards, eraseCopies_snd, Prod.mk.injEq, true_and]
  rw [Bool.eq_iff_iff, beq_iff_eq, decide_eq_true_eq]
  omega

/-- From `player` to `player'` exactly the tiles `cards` left the hand. -/
structure Spends (player : GamePlayer) (cards : List Int) (player' : GamePlayer) : Prop where
  perm : player.handCards.Perm (cards ++ player'.handCards)
  rest : player' = { player with handCards := player'.handCards }

theorem Spends.refl (player : GamePlayer) : Spends player [] player := ⟨.refl _, rfl⟩

theorem Spends.trans {player middle player' : GamePlayer} {cards more : List Int}
    (first : Spends player cards middle) (second : Spends middle more player') :
    Spends player (cards ++ more) player' where
  perm := first.perm.trans (List.append_assoc .. ▸ second.perm.append_left cards)
  rest := by rw [second.rest, first.rest]

theorem Spends.count {player player' : GamePlayer} {cards : List Int}
    (spends : Spends player cards player') (tile : Int) :
    player.handCards.count tile = cards.count tile + player'.handCards.count tile := by
  rw [spends.perm.count_eq, List.count_append]

theorem Spends.length {player player' : GamePlayer} {cards : List Int}
    (spends : Spends player cards player') :
    player.handCards.length = cards.length + player'.handCards.length := by
  rw [spends.perm.length_eq, List.length_append]

theorem Spends.held {player player' : GamePlayer} {cards : List Int}
    (spends : Spends player cards player') (tile : Int) :
    player.held tile = cards.count tile + player'.held tile := by
  have hand := spends.count tile
  have rest := spends.rest
  simp only [held_eq]
  rw [rest]
  simp only
  omega

theorem removeHandCards_spends (player : GamePlayer) (card : Int) (num : Nat) :
    Spends player (List.replicate (min num (player.handCards.count card)) card)
      (player.removeHandCards card num).1 := by
  rw [removeHandCards_eq]
  exact ⟨eraseCopies_perm .., rfl⟩

/-- A removal that finds its copies. -/
theorem removeHandCards_success {player : GamePlayer} {card : Int} {num : Nat}
    (enough : num ≤ player.handCards.count card) :
    ∃ player', Spends player (List.replicate num card) player' ∧
      player.removeHandCards card num = (player', true) := by
  refine ⟨(player.removeHandCards card num).1, ?_, ?_⟩
  · simpa only [Nat.min_eq_left enough] using player.removeHandCards_spends card num
  · simp only [removeHandCards_eq, enough, decide_true]

/-- A removal that fails has taken the copies it found. -/
theorem removeHandCards_failure {player : GamePlayer} {card : Int} {num : Nat}
    (few : player.handCards.count card < num) :
    ∃ player', Spends player (List.replicate (player.handCards.count card) card) player' ∧
      player.removeHandCards card num = (player', false) := by
  refine ⟨(player.removeHandCards card num).1, ?_, ?_⟩
  · simpa only [Nat.min_eq_right few.le] using player.removeHandCards_spends card num
  · simp only [removeHandCards_eq, Nat.not_le.mpr few, decide_false]

theorem removeHandCards_absent {player : GamePlayer} {card : Int} {num : Nat}
    (absent : player.handCards.count card = 0) (some : 0 < num) :
    player.removeHandCards card num = (player, false) := by
  have none : card ∉ player.handCards := List.count_eq_zero.mp absent
  simp only [removeHandCards_eq, eraseCopies_of_not_mem num none, absent, Nat.not_le.mpr some, decide_false]

/-- A discard is refused without effect, or moves one tile from the hand to the discards. -/
theorem outCard_cases (player : GamePlayer) (card : Int) :
    player.outCard card = (player, false) ∨
    ∃ player', Spends player [card] player' ∧ player.handCards.length % 3 = 2 ∧
      player.outCard card = ({ player' with outCards := player'.outCards ++ [card] }, true) := by
  by_cases last : player.ting ∧ player.handCards.getLast? ≠ some card
  · exact .inl (by simp only [outCard, if_pos last])
  by_cases size : player.handCards.length % 3 ≠ 2
  · exact .inl (by simp only [outCard, if_neg last, if_pos size])
  by_cases absent : player.handCards.count card = 0
  · exact .inl (by
      simp only [outCard, if_neg last, if_neg size, removeHandCards_absent absent Nat.one_pos])
  · obtain ⟨player', spends, done⟩ :=
      removeHandCards_success (Nat.one_le_iff_ne_zero.mpr absent)
    exact .inr ⟨player', spends, not_not.mp size, by simp only [outCard, if_neg last, if_neg size, done]⟩

theorem outCard_success {player : GamePlayer} {card : Int} (free : player.ting = false)
    (size : player.handCards.length % 3 = 2) (present : card ∈ player.handCards) :
    ∃ player', Spends player [card] player' ∧
      player.outCard card = ({ player' with outCards := player'.outCards ++ [card] }, true) := by
  obtain ⟨player', spends, done⟩ := removeHandCards_success (List.one_le_count_iff.mpr present)
  refine ⟨player', spends, ?_⟩
  simp only [outCard, free, size, done, Bool.false_eq_true, false_and, ne_eq, not_true_eq_false, ↓reduceIte]

/-- A declaration is refused without effect, made on the hand as it is, or made with a discard. -/
theorem declareTing_cases (player : GamePlayer) (card : Int) :
    player.declareTing card = (player, false) ∨
    ∃ info ∈ player.tingOptInfos, info.outCard = card ∧ player.ting = false ∧
      ((card = gameInvalidCard ∧ player.declareTing card =
          ({ player with tingInfos := info.tingInfos, ting := true }, true)) ∨
        (card ≠ gameInvalidCard ∧ ∃ player', Spends player [card] player' ∧ player.handCards.length % 3 = 2 ∧
          player.declareTing card = ({ player' with
            outCards := player'.outCards ++ [card], tingInfos := info.tingInfos, ting := true }, true))) := by
  cases ting : player.ting with
  | true => exact .inl (by simp only [declareTing, ting, ↓reduceIte])
  | false =>
    cases found : player.tingOptInfos.find? fun info => info.outCard == card with
    | none => exact .inl (by simp only [declareTing, ting, found, Bool.false_eq_true, ↓reduceIte])
    | some info =>
      have same : info.outCard = card := beq_iff_eq.mp (List.find?_some found :)
      by_cases none : card = gameInvalidCard
      · refine .inr ⟨info, List.mem_of_find?_eq_some found, same, rfl, .inl ⟨none, ?_⟩⟩
        have given : ¬card ≠ gameInvalidCard := not_not.mpr none
        simp only [declareTing, ting, found, given, Bool.false_eq_true, ↓reduceIte]
      · obtain refused | ⟨player', spends, size, done⟩ := player.outCard_cases card
        · exact .inl (by
            simp only [declareTing, ting, found, Bool.false_eq_true, ne_eq, none, not_false_eq_true, ↓reduceIte,
              refused])
        · refine .inr ⟨info, List.mem_of_find?_eq_some found, same, rfl, .inr ⟨none, player', spends, size, ?_⟩⟩
          simp only [declareTing, ting, found, Bool.false_eq_true, ne_eq, none, not_false_eq_true, ↓reduceIte, done]

/-- The removal loop of `Chi` on tiles that are all there. -/
theorem removeEach_success {player : GamePlayer} {cards : List Int}
    (there : ∀ tile, cards.count tile ≤ player.handCards.count tile) :
    ∃ player', Spends player cards player' ∧ player.removeEach cards = (player', true) := by
  induction cards generalizing player with
  | nil => exact ⟨player, .refl player, rfl⟩
  | cons card rest ih =>
    have one : 1 ≤ player.handCards.count card :=
      Nat.le_trans (by rw [List.count_cons_self]; omega) (there card)
    obtain ⟨middle, first, done⟩ := removeHandCards_success one
    have left : ∀ tile, rest.count tile ≤ middle.handCards.count tile := fun tile => by
      have before := there tile
      have taken := first.count tile
      simp only [List.replicate_one, List.count_cons, List.count_nil] at before taken
      omega
    obtain ⟨player', second, all⟩ := ih left
    exact ⟨player', first.trans second, by simp only [removeEach, done, all]⟩

/-- Whatever the outcome, the removal loop of `Chi` touches the hand only and does not lengthen it. -/
theorem removeEach_rest (player : GamePlayer) (cards : List Int) :
    (player.removeEach cards).1 = { player with handCards := (player.removeEach cards).1.handCards } ∧
      (player.removeEach cards).1.handCards.length ≤ player.handCards.length := by
  induction cards generalizing player with
  | nil => exact ⟨rfl, Nat.le_refl _⟩
  | cons card rest ih =>
    have first := player.removeHandCards_spends card 1
    simp only [removeEach]
    generalize player.removeHandCards card 1 = result at first ⊢
    obtain ⟨middle, found⟩ := result
    have shorter := first.length
    cases found with
    | false => exact ⟨first.rest, by simp only at shorter ⊢; omega⟩
    | true =>
      obtain ⟨same, le⟩ := ih middle
      have hand := congrArg (fun other : GamePlayer =>
        { other with handCards := (middle.removeEach rest).1.handCards }) first.rest
      exact ⟨same.trans hand, by simp only at shorter ⊢; omega⟩

theorem removeEach_absent {player : GamePlayer} {card : Int} (rest : List Int)
    (absent : card ∉ player.handCards) : player.removeEach (card :: rest) = (player, false) := by
  simp only [removeEach, removeHandCards_absent (List.count_eq_zero.mpr absent) Nat.one_pos]

/-- Once its first tile is found, the removal loop shortens the hand. -/
theorem removeEach_shorter {player : GamePlayer} {card : Int} (rest : List Int)
    (present : card ∈ player.handCards) :
    (player.removeEach (card :: rest)).1.handCards.length < player.handCards.length := by
  obtain ⟨middle, first, done⟩ := removeHandCards_success (List.one_le_count_iff.mpr present)
  have shorter := first.length
  have le := (middle.removeEach_rest rest).2
  simp only [removeEach, done]
  rw [List.replicate_one, List.length_singleton] at shorter
  omega

theorem mem_searchHuaCardsInHandCards (player : GamePlayer) {card : Int} :
    card ∈ player.searchHuaCardsInHandCards ↔ card ∈ player.handCards ∧ getColor card = 4 := by
  simp only [searchHuaCardsInHandCards, List.mem_filter, beq_iff_eq]

/-- A flower found in the hand moves to the flowers. -/
theorem addHuaCard_eq (player : GamePlayer) {card : Int} (flower : getColor card = 4) :
    (player.addHuaCard card).1 = { player with
      huaCards := player.huaCards ++ [card], handCards := (eraseCopies card 1 player.handCards).1 } := by
  simp only [addHuaCard, flower, ne_eq, not_true_eq_false, ↓reduceIte, removeHandCards_eq]

/-- Everything except the tiles a draw or a flower exchange may move. -/
def fixed (player : GamePlayer) : GamePlayer :=
  { player with handCards := [], huaCards := [], needCards := [] }

end GamePlayer

end H5Server.Erqs
