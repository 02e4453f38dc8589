import H5Server.Erqs.GameProcess
import H5Server.Erqs.Actions
import Mathlib.Data.Multiset.Count

/-! # The tiles of the table, draws and flowers

Tiles are counted over the wall and everything the two players own. A draw and a flower exchange
move tiles between these places and leave the rest of the table as it was.
-/

namespace H5Server.Erqs

namespace GameState

/-! ## Tiles of the table -/

/-- All tiles of the table: the wall and both players. -/
def tiles (s : GameState) : Multiset Int :=
  ((s.cards ++ (s.players 0).tiles ++ (s.players 1).tiles : List Int) : Multiset Int)

def total (s : GameState) (tile : Int) : Nat :=
  s.cards.count tile + (s.players 0).held tile + (s.players 1).held tile

theorem count_tiles (s : GameState) (tile : Int) : s.tiles.count tile = s.total tile := by
  simp only [tiles, total, GamePlayer.held, Multiset.coe_count, List.count_append]

theorem total_eq (s : GameState) (chair : Fin 2) (tile : Int) :
    s.total tile = s.cards.count tile + (s.players chair).held tile +
      (s.players (nextChair chair)).held tile := by
  obtain rfl | rfl : chair = 0 ∨ chair = 1 := by revert chair; decide
  · rfl
  · exact Nat.add_right_comm ..

@[simp] theorem setPlayer_players_self (s : GameState) (chair : Fin 2) (player : GamePlayer) :
    (s.setPlayer chair player).players chair = player := Function.update_self ..

@[simp] theorem setPlayer_players_next (s : GameState) (chair : Fin 2) (player : GamePlayer) :
    (s.setPlayer chair player).players (nextChair chair) = s.players (nextChair chair) :=
  Function.update_of_ne (nextChair_ne chair) ..

@[simp] theorem setPlayer_next_players (s : GameState) (chair : Fin 2) (player : GamePlayer) :
    (s.setPlayer (nextChair chair) player).players chair = s.players chair :=
  Function.update_of_ne (nextChair_ne chair).symm ..

@[simp] theorem setPlayer_cards (s : GameState) (chair : Fin 2) (player : GamePlayer) :
    (s.setPlayer chair player).cards = s.cards := rfl

/-- Replacing a player replaces that player's share of the tiles. -/
theorem total_setPlayer (s : GameState) (chair : Fin 2) (player : GamePlayer) (tile : Int) :
    (s.setPlayer chair player).total tile + (s.players chair).held tile =
      s.total tile + player.held tile := by
  simp only [total_eq _ chair, setPlayer_players_self, setPlayer_players_next, setPlayer_cards]
  omega

theorem total_setPlayer_of_held {s : GameState} {chair : Fin 2} {player : GamePlayer} {tile : Int}
    (same : player.held tile = (s.players chair).held tile) :
    (s.setPlayer chair player).total tile = s.total tile := by
  have split := s.total_setPlayer chair player tile
  omega

@[simp] theorem setPlayer_setPlayer (s : GameState) (chair : Fin 2) (first second : GamePlayer) :
    (s.setPlayer chair first).setPlayer chair second = s.setPlayer chair second := by
  simp only [setPlayer, Function.update_idem]

theorem setPlayer_self (s : GameState) (chair : Fin 2) : s.setPlayer chair (s.players chair) = s := by
  simp only [setPlayer, Function.update_eq_self]

/-! ## Draws and flowers -/

private theorem modifyPlayer_setPlayer (s : GameState) (chair : Fin 2) (player : GamePlayer)
    (wall : List Int) (f : GamePlayer → GamePlayer) :
    ({ s.setPlayer chair player with cards := wall } : GameState).modifyPlayer chair f =
      ({ s with cards := wall } : GameState).setPlayer chair (f player) := by
  simp only [modifyPlayer, setPlayer, Function.update_self, Function.update_idem]

theorem dealCardToUserNormal_cases (s : GameState) (toChair : Fin 2) :
    (s.cards = [] ∧ s.dealCardToUserNormal toChair = (s, gameInvalidCard)) ∨
    ∃ card wall, s.cards.Perm (card :: wall) ∧ s.dealCardToUserNormal toChair =
      (({ s with cards := wall } : GameState).modifyPlayer toChair (·.addHandCard card), card) := by
  cases last : s.cards.getLast? with
  | none => exact .inl ⟨List.getLast?_eq_none_iff.mp last, by simp only [dealCardToUserNormal, last]⟩
  | some card =>
    refine .inr ⟨card, s.cards.dropLast, ?_, by simp only [dealCardToUserNormal, last]⟩
    obtain ⟨front, split⟩ := List.getLast?_eq_some_iff.mp last
    rw [split, List.dropLast_concat]
    exact List.perm_append_singleton card front

/-- A draw: a tile of the wall moves to the end of the hand, unless the wall is empty. -/
theorem dealCardToUser_cases (cfg : TableConfig) (s : GameState) (toChair : Fin 2) :
    (s.cards = [] ∧ s.dealCardToUser cfg toChair = (s, gameInvalidCard)) ∨
    ∃ card wall needCards, s.cards.Perm (card :: wall) ∧
      s.dealCardToUser cfg toChair =
        (({ s with cards := wall } : GameState).setPlayer toChair { s.players toChair with
          needCards, handCards := (s.players toChair).handCards ++ [card] }, card) := by
  unfold dealCardToUser
  split
  · obtain ⟨empty, draw⟩ | ⟨card, wall, perm, draw⟩ := s.dealCardToUserNormal_cases toChair
    · exact .inl ⟨empty, draw⟩
    · exact .inr ⟨card, wall, (s.players toChair).needCards, perm, draw⟩
  · unfold dealCardToUserControl
    split
    · next empty => exact .inl ⟨empty, rfl⟩
    · next filled =>
      right
      let prepared := s.modifyPlayer toChair
        ({ · with needCards := (s.calculatePrInfo cfg (s.players toChair).handCards).needCards })
      dsimp only
      generalize found : List.find? _ _ = choice
      cases choice with
      | some card =>
        exact ⟨card, s.cards.erase card, _, List.perm_cons_erase (List.mem_of_find?_eq_some found),
          congrArg (·, card) (modifyPlayer_setPlayer ..)⟩
      | none =>
        obtain ⟨empty, -⟩ | ⟨card, wall, perm, draw⟩ := prepared.dealCardToUserNormal_cases toChair
        · exact absurd empty filled
        · refine ⟨card, wall, (s.calculatePrInfo cfg (s.players toChair).handCards).needCards, perm,
            draw.trans (congrArg (·, card) (modifyPlayer_setPlayer ..))⟩

/-- Everything of the table that draws and flower exchanges leave alone. -/
def frame (s : GameState) : GameState :=
  { s with players := fun _ => {}, cards := [], lastAction := .invalid, isGameFlow := false, replay := [] }

/-- From `s` to `s'` only `chair` has drawn tiles and exchanged flowers. -/
structure Refills (chair : Fin 2) (s s' : GameState) : Prop where
  total : ∀ tile, s'.total tile = s.total tile
  fixed : (s'.players chair).fixed = (s.players chair).fixed
  other : s'.players (nextChair chair) = s.players (nextChair chair)
  frame : s'.frame = s.frame
  wall : s'.cards ⊆ s.cards

theorem Refills.refl (chair : Fin 2) (s : GameState) : Refills chair s s :=
  ⟨fun _ => rfl, rfl, rfl, rfl, List.Subset.refl _⟩

theorem Refills.trans {chair : Fin 2} {s middle s' : GameState} (first : Refills chair s middle)
    (second : Refills chair middle s') : Refills chair s s' where
  total tile := (second.total tile).trans (first.total tile)
  fixed := second.fixed.trans first.fixed
  other := second.other.trans first.other
  frame := second.frame.trans first.frame
  wall := List.Subset.trans second.wall first.wall

/-- A tile drawn from the wall, as a refill. -/
theorem refills_draw (s : GameState) (chair : Fin 2) (needCards : List Int) {card : Int} {wall : List Int}
    (perm : s.cards.Perm (card :: wall)) :
    Refills chair s (({ s with cards := wall } : GameState).setPlayer chair { s.players chair with
      needCards, handCards := (s.players chair).handCards ++ [card] }) where
  total tile := by
    have counts := perm.count_eq tile
    have swap := total_setPlayer ({ s with cards := wall } : GameState) chair { s.players chair with
      needCards, handCards := (s.players chair).handCards ++ [card] } tile
    simp only [total_eq _ chair, GamePlayer.held_eq, List.count_append, List.count_cons, List.count_nil]
      at counts swap ⊢
    omega
  fixed := by simp only [setPlayer_players_self, GamePlayer.fixed]
  other := by simp only [setPlayer_players_next]
  frame := rfl
  wall := fun tile present => perm.symm.subset (List.mem_cons_of_mem _ present)

/-- A flower of the hand exchanged, as a refill. -/
theorem refills_addHuaCard {s : GameState} {chair : Fin 2} {card : Int}
    (present : card ∈ (s.players chair).handCards) (flower : getColor card = 4) :
    Refills chair s (s.modifyPlayer chair (fun player => (player.addHuaCard card).1)) where
  total tile := by
    refine total_setPlayer_of_held ?_
    have erased := GamePlayer.eraseCopies_count card 1 (s.players chair).handCards tile
    have one : 0 < (s.players chair).handCards.count card := List.count_pos_iff.mpr present
    simp only [GamePlayer.addHuaCard_eq _ flower, GamePlayer.held_eq, List.count_append, List.count_cons,
      List.count_nil, beq_iff_eq, eq_comm (a := card)] at erased ⊢
    split at erased
    · next same => subst same; simp only [↓reduceIte]; omega
    · next other => simp only [other, ↓reduceIte]; omega
  fixed := by simp only [modifyPlayer, setPlayer_players_self, GamePlayer.addHuaCard_eq _ flower, GamePlayer.fixed]
  other := by simp only [modifyPlayer, setPlayer_players_next]
  frame := rfl
  wall := List.Subset.refl _

/-- `ReplaceHua` over the flowers it found: the hand keeps its size, or the wall ran out. -/
theorem replaceEach_spec (cfg : TableConfig) (chair : Fin 2) (huaCards : List Int) (s : GameState)
    (flowers : ∀ card ∈ huaCards, getColor card = 4) (valid : gameInvalidCard ∉ s.cards)
    (inHand : ∀ card, huaCards.count card ≤ (s.players chair).handCards.count card) :
    let (s', replaced) := replaceEach cfg chair huaCards s
    Refills chair s s' ∧ s'.replay = s.replay ∧ s'.lastAction = s.lastAction ∧
      (replaced = false → s'.isGameFlow = true) ∧
      (replaced = true → s'.isGameFlow = s.isGameFlow ∧
        s'.cards.length + huaCards.length = s.cards.length ∧
        (s'.players chair).handCards.length = (s.players chair).handCards.length) := by
  induction huaCards generalizing s with
  | nil => exact ⟨.refl .., rfl, rfl, nofun, fun _ => ⟨rfl, rfl, rfl⟩⟩
  | cons huaCard rest ih =>
    obtain ⟨-, draw⟩ | ⟨card, wall, needCards, perm, draw⟩ := s.dealCardToUser_cases cfg chair
    · simp only [replaceEach, draw, ↓reduceIte]
      exact ⟨⟨fun _ => rfl, rfl, rfl, rfl, List.Subset.refl _⟩, trivial, trivial, fun _ => trivial, nofun⟩
    · have real : card ≠ gameInvalidCard := fun bad =>
        valid (bad ▸ perm.symm.subset List.mem_cons_self)
      simp only [replaceEach, draw, real, ↓reduceIte]
      have drawn := refills_draw s chair needCards perm
      set middle := ({ s with cards := wall } : GameState).setPlayer chair { s.players chair with
        needCards, handCards := (s.players chair).handCards ++ [card] } with middle_eq
      have hand : (middle.players chair).handCards = (s.players chair).handCards ++ [card] := by
        rw [middle_eq, setPlayer_players_self]
      have flower := flowers huaCard List.mem_cons_self
      have held : 0 < (s.players chair).handCards.count huaCard :=
        Nat.lt_of_lt_of_le (by simp only [List.count_cons_self]; omega) (inHand huaCard)
      have present : huaCard ∈ (middle.players chair).handCards :=
        hand ▸ List.mem_append_left _ (List.count_pos_iff.mp held)
      have exchanged := refills_addHuaCard present flower
      set next := middle.modifyPlayer chair (fun player => (player.addHuaCard huaCard).1) with next_eq
      have nextHand : (next.players chair).handCards =
          (GamePlayer.eraseCopies huaCard 1 ((s.players chair).handCards ++ [card])).1 := by
        simp only [next_eq, modifyPlayer, setPlayer_players_self, GamePlayer.addHuaCard_eq _ flower, hand]
      have rest_inHand : ∀ tile, rest.count tile ≤ (next.players chair).handCards.count tile := by
        intro tile
        have erased := GamePlayer.eraseCopies_count huaCard 1 ((s.players chair).handCards ++ [card]) tile
        have before := inHand tile
        rw [nextHand]
        simp only [List.count_append, List.count_cons, beq_iff_eq, eq_comm (a := huaCard)] at erased before ⊢
        split at erased <;> split at before <;> omega
      obtain ⟨refill, replay, action, ended, done⟩ := ih next
        (fun card present => flowers card (List.mem_cons_of_mem _ present))
        (fun bad => valid (drawn.wall bad)) rest_inHand
      refine ⟨(drawn.trans exchanged).trans refill, replay, action, ended, fun replaced => ?_⟩
      obtain ⟨flow, left, size⟩ := done replaced
      have erased := GamePlayer.eraseCopies_length huaCard 1 ((s.players chair).handCards ++ [card])
      have wallSize := perm.length_eq
      have nextWall : next.cards = wall := rfl
      rw [nextHand] at size
      simp only [List.length_append, List.length_cons, List.length_nil, List.count_append, nextWall]
        at erased wallSize left size ⊢
      exact ⟨flow, by omega, by omega⟩

/-- Flower exchanges end with a flowerless hand of the same size, or with an empty wall. -/
theorem replaceHuaAux_spec (cfg : TableConfig) (chair : Fin 2) (depth : Nat) (s : GameState)
    (valid : gameInvalidCard ∉ s.cards) (enough : s.cards.length < depth) :
    let (s', replaced) := replaceHuaAux cfg chair depth s
    Refills chair s s' ∧ (∃ k, s'.replay = s.replay ++ List.replicate k (.replaceHua chair)) ∧
      (s.isGameFlow = true → s'.isGameFlow = true) ∧
      (s'.isGameFlow = false →
        (s'.players chair).searchHuaCardsInHandCards = [] ∧
        (s'.players chair).handCards.length = (s.players chair).handCards.length) ∧
      (s'.isGameFlow = false → replaced = false → s' = s) := by
  induction depth generalizing s with
  | zero => omega
  | succ depth ih =>
    by_cases none : (s.players chair).searchHuaCardsInHandCards = []
    · simp only [replaceHuaAux, none, ↓reduceIte]
      exact ⟨.refl .., ⟨0, (List.append_nil _).symm⟩, id, fun _ => ⟨trivial, trivial⟩, fun _ _ => trivial⟩
    · simp only [replaceHuaAux, none, ↓reduceIte]
      have round := replaceEach_spec cfg chair (s.players chair).searchHuaCardsInHandCards
        { s with lastAction := .replaceHua }
        (fun card found => ((s.players chair).mem_searchHuaCardsInHandCards.mp found).2) valid
        (fun card => List.Sublist.count_le card List.filter_sublist)
      generalize replaceEach cfg chair (s.players chair).searchHuaCardsInHandCards
        { s with lastAction := .replaceHua } = result at round ⊢
      obtain ⟨middle, replaced⟩ := result
      obtain ⟨refill, replay, -, ended, done⟩ := round
      have before : Refills chair s middle := ⟨refill.total, refill.fixed, refill.other, refill.frame, refill.wall⟩
      cases replaced with
      | false =>
        have finished := ended rfl
        simp only [finished]
        exact ⟨before, ⟨0, replay.trans (List.append_nil _).symm⟩, fun _ => trivial, nofun, nofun⟩
      | true =>
        obtain ⟨flow, left, size⟩ := done rfl
        have some : 0 < (s.players chair).searchHuaCardsInHandCards.length := List.length_pos_of_ne_nil none
        have wallSize : ({ s with lastAction := .replaceHua } : GameState).cards.length = s.cards.length := rfl
        have next := ih (middle.addStep (.replaceHua chair)) (fun bad => valid (refill.wall bad))
          (show middle.cards.length < depth by omega)
        simp only at next ⊢
        generalize replaceHuaAux cfg chair depth (middle.addStep (.replaceHua chair)) = result at next ⊢
        obtain ⟨last, again⟩ := result
        obtain ⟨refill', ⟨k, replay'⟩, flow', clean, -⟩ := next
        refine ⟨before.trans ⟨refill'.total, refill'.fixed, refill'.other, refill'.frame, refill'.wall⟩,
          ⟨k + 1, ?_⟩, fun finished => flow' (flow.trans finished), fun open' => ?_, nofun⟩
        · rw [replay', List.replicate_succ]
          simp only [addStep, replay, List.append_assoc, List.singleton_append]
        · exact ⟨(clean open').1, (clean open').2.trans size⟩

/-- `ReplaceHua`, with enough depth for the wall. -/
theorem replaceHua_spec (cfg : TableConfig) (s : GameState) (chair : Fin 2)
    (valid : gameInvalidCard ∉ s.cards) :
    let (s', replaced) := s.replaceHua cfg chair
    Refills chair s s' ∧ (∃ k, s'.replay = s.replay ++ List.replicate k (.replaceHua chair)) ∧
      (s.isGameFlow = true → s'.isGameFlow = true) ∧
      (s'.isGameFlow = false →
        (s'.players chair).searchHuaCardsInHandCards = [] ∧
        (s'.players chair).handCards.length = (s.players chair).handCards.length) ∧
      (s'.isGameFlow = false → replaced = false → s' = s) :=
  replaceHuaAux_spec cfg chair (s.cards.length + 1) s valid (Nat.lt_succ_self _)

theorem replaceHua_fst (cfg : TableConfig) (s : GameState) (chair : Fin 2)
    (valid : gameInvalidCard ∉ s.cards) :
    Refills chair s (s.replaceHua cfg chair).1 ∧
      (∃ k, (s.replaceHua cfg chair).1.replay = s.replay ++ List.replicate k (.replaceHua chair)) ∧
      ((s.replaceHua cfg chair).1.isGameFlow = false → s.isGameFlow = false ∧
        ((s.replaceHua cfg chair).1.players chair).handCards.length = (s.players chair).handCards.length) := by
  have spec := s.replaceHua_spec cfg chair valid
  generalize s.replaceHua cfg chair = result at spec ⊢
  obtain ⟨s', replaced⟩ := result
  obtain ⟨refill, replay, finished, clean, -⟩ := spec
  exact ⟨refill, replay, fun flow =>
    ⟨Bool.eq_false_iff.mpr fun before => Bool.noConfusion (flow.symm.trans (finished before)), (clean flow).2⟩⟩

theorem replaceHua_of_flowerless (cfg : TableConfig) {s : GameState} {chair : Fin 2}
    (clean : (s.players chair).searchHuaCardsInHandCards = []) : s.replaceHua cfg chair = (s, false) := by
  simp only [replaceHua, replaceHuaAux, clean, ↓reduceIte]

end GameState

end H5Server.Erqs
