import H5Server.Erqs.Rounds
import H5Server.Erqs.Options
import Mathlib.Tactic.IntervalCases

/-! # The invariant behind tile conservation

Every tile of the initial set is in exactly one place, and what is on offer fits the hands: a claim
finds its tiles in the hand and its target among the discards of the player to move, an added kong
finds its peng. The claims of a player are stored only while the other player is to move.
-/

namespace H5Server.Erqs

/-! ## The initial set -/

theorem initialCards_valid {card : Int} (present : card ∈ initialCards) : isValidCard card = true := by
  have all : ∀ card ∈ initialCards, isValidCard card = true := by decide +kernel
  exact all card present

theorem initialCards_count_le (card : Int) : initialCards.count card ≤ 4 := by
  have all : ∀ card ∈ initialCards, initialCards.count card ≤ 4 := by decide +kernel
  by_cases present : card ∈ initialCards
  · exact all card present
  · rw [List.count_eq_zero.mpr present]
    omega

/-! ## What is on offer -/

/-- The fields of a player that the invariant reads. -/
def GamePlayer.core (player : GamePlayer) : GamePlayer :=
  { player with tingInfos := [], option := 0, ting := false, hosting := false, timeoutCnt := 0, needCards := [] }

/-- The stored offers of `chair` when `cur` is to move. -/
structure OffersReady (players : Fin 2 → GamePlayer) (cur chair : Fin 2) : Prop where
  formed : ∀ cpg ∈ (players chair).optionalCpgs, cpg.WellFormed
  unmixed : ∀ cpg ∈ (players chair).optionalCpgs, ∀ other ∈ (players chair).optionalCpgs,
    isClaimType cpg.type = isClaimType other.type
  claim : ∀ cpg ∈ (players chair).optionalCpgs, isClaimType cpg.type = true →
    cur ≠ chair ∧ cpg.targetCard ∈ (players (nextChair chair)).outCards ∧
      (players chair).tingOptInfos = [] ∧
      ∀ tile, cpg.taken.count tile ≤ (players chair).handCards.count tile
  kong : ∀ cpg ∈ (players chair).optionalCpgs, cpg.type = .jiaGang →
    ∃ meld ∈ (players chair).cpgs, (meld.type = .peng ∨ meld.type = .jiaGang) ∧
      meld.targetCard = cpg.targetCard

/-- The claimable tile is where `owner` put it: among the discards, or on an added kong. -/
def TargetReady (players : Fin 2 → GamePlayer) (target : TargetInfo) : Prop :=
  target.card ≠ gameInvalidCard → ∃ owner, target.chair = some owner ∧
    ((target.type = .out ∧ target.card ∈ (players owner).outCards) ∨
      (target.type = .jiaGang ∧
        ∃ meld ∈ (players owner).cpgs, meld.type = .jiaGang ∧ meld.targetCard = target.card))

def MeldsFormed (players : Fin 2 → GamePlayer) : Prop :=
  ∀ chair, ∀ meld ∈ (players chair).cpgs, meld.WellFormed

structure Ready (players : Fin 2 → GamePlayer) (cur : Fin 2) (target : TargetInfo) : Prop where
  melds : MeldsFormed players
  offers : ∀ chair, OffersReady players cur chair
  target : TargetReady players target

/-- Every tile is in one place; while the round is running, what is on offer fits. -/
structure Balanced (s : GameState) : Prop where
  total : ∀ tile, s.total tile = initialCards.count tile
  ready : s.playing = true → Ready s.players s.curRoundChairId s.targetInfo

theorem Ready.congr {players players' : Fin 2 → GamePlayer} {cur : Fin 2} {target : TargetInfo}
    (ready : Ready players cur target) (same : ∀ chair, (players' chair).core = (players chair).core) :
    Ready players' cur target := by
  have cores : (fun chair => (players' chair).core) = fun chair => (players chair).core := funext same
  have moved : Ready (fun chair => (players' chair).core) cur target := by
    rw [cores]
    exact ⟨ready.melds, fun chair => ⟨(ready.offers chair).1, (ready.offers chair).2, (ready.offers chair).3, (ready.offers chair).4⟩,
      ready.target⟩
  exact ⟨moved.melds, fun chair => ⟨(moved.offers chair).1, (moved.offers chair).2, (moved.offers chair).3, (moved.offers chair).4⟩,
    moved.target⟩

theorem OffersReady.congr {players players' : Fin 2 → GamePlayer} {cur chair : Fin 2}
    (ready : OffersReady players cur chair) (same : (players' chair).core = (players chair).core)
    (discards : (players' (nextChair chair)).outCards = (players (nextChair chair)).outCards) :
    OffersReady players' cur chair := by
  obtain ⟨formed, unmixed, claim, kong⟩ := ready
  have offers : (players' chair).optionalCpgs = (players chair).optionalCpgs := congrArg (·.optionalCpgs) same
  have tings : (players' chair).tingOptInfos = (players chair).tingOptInfos := congrArg (·.tingOptInfos) same
  have hand : (players' chair).handCards = (players chair).handCards := congrArg (·.handCards) same
  have melds : (players' chair).cpgs = (players chair).cpgs := congrArg (·.cpgs) same
  exact ⟨by rwa [offers], by rwa [offers], by rwa [offers, discards, tings, hand], by rwa [offers, melds]⟩

/-- On the own turn no claim is stored, so that only the melds matter. -/
theorem OffersReady.of_own_turn {players players' : Fin 2 → GamePlayer} {cur chair : Fin 2}
    (ready : OffersReady players chair chair)
    (offers : (players' chair).optionalCpgs = (players chair).optionalCpgs)
    (melds : (players' chair).cpgs = (players chair).cpgs) : OffersReady players' cur chair where
  formed := by rw [offers]; exact ready.formed
  unmixed := by rw [offers]; exact ready.unmixed
  claim cpg stored claim := absurd rfl (ready.claim cpg (offers ▸ stored) claim).1
  kong := by rw [offers, melds]; exact ready.kong

namespace GameState

variable {s : GameState}

theorem total_hand_le (s : GameState) (chair : Fin 2) (tile : Int) :
    (s.players chair).handCards.count tile ≤ s.total tile := by
  rw [s.total_eq chair, GamePlayer.held_eq]
  omega

section Total

variable (total : ∀ tile, s.total tile = initialCards.count tile)
include total

theorem hand_valid (chair : Fin 2) : ∀ card ∈ (s.players chair).handCards, isValidCard card = true := by
  intro card present
  refine initialCards_valid (List.count_pos_iff.mp ?_)
  rw [← total]
  exact Nat.lt_of_lt_of_le (List.count_pos_iff.mpr present) (s.total_hand_le chair card)

theorem wall_valid : gameInvalidCard ∉ s.cards := by
  intro present
  have none : initialCards.count gameInvalidCard = 0 := by decide
  have wall := List.count_pos_iff.mpr present
  have all := total gameInvalidCard
  rw [none] at all
  simp only [GameState.total] at all
  omega

theorem held_le_four (chair : Fin 2) (tile : Int) : (s.players chair).held tile ≤ 4 := by
  refine Nat.le_trans ?_ (initialCards_count_le tile)
  rw [← total tile, s.total_eq chair]
  omega

end Total

/-! ## Rounds keep the balance -/

theorem held_core (player : GamePlayer) (tile : Int) : player.core.held tile = player.held tile := rfl

theorem core_updateOption_fixed {player player' : GamePlayer} (same : player'.fixed = player.fixed) :
    player'.cpgs = player.cpgs ∧ player'.outCards = player.outCards :=
  ⟨congrArg (·.cpgs) same, congrArg (·.outCards) same⟩

/-- The offers that a round opens with are kongs of the own hand. -/
theorem offersReady_opened {players : Fin 2 → GamePlayer} {cur chair : Fin 2} {player : GamePlayer}
    {canGang : Bool} {mask : Nat}
    (refreshed : players chair = player.updateOption chair gameInvalidCard none canGang mask) :
    OffersReady players cur chair := by
  have stored : ∀ cpg ∈ (players chair).optionalCpgs,
      FoundFrom (players chair).handCards (players chair).cpgs gameInvalidCard cpg := by
    rw [refreshed]
    exact fun cpg => player.updateOption_found chair gameInvalidCard none canGang mask
  have own : ∀ cpg ∈ (players chair).optionalCpgs, isClaimType cpg.type = false := fun cpg present =>
    Bool.eq_false_iff.mpr fun claim => ((stored cpg present).claim claim).2 rfl
  refine ⟨fun cpg present => (stored cpg present).formed,
    fun cpg present other there => (own cpg present).trans (own other there).symm,
    fun cpg present claim => absurd claim (Bool.eq_false_iff.mp (own cpg present)), fun cpg present jia => ?_⟩
  obtain ⟨meld, there, peng, target⟩ := (stored cpg present).kong jia
  exact ⟨meld, there, .inl peng, target⟩

/-- `UpdateGameRound` for `chair` keeps the balance when the stored offers of the other player fit
a turn of `chair`. -/
theorem balanced_updateGameRound (cfg : TableConfig) {chair : Fin 2} {addHandCard : Bool}
    (total : ∀ tile, s.total tile = initialCards.count tile) (melds : MeldsFormed s.players)
    (other : OffersReady s.players chair (nextChair chair)) :
    Balanced (s.updateGameRound cfg chair addHandCard) := by
  obtain concluded | opened := s.updateGameRound_cases cfg chair addHandCard (wall_valid total)
  · exact ⟨fun tile => (concluded.total tile).trans (total tile),
      fun playing => absurd (concluded.finished.symm.trans playing) Bool.false_ne_true⟩
  · refine ⟨fun tile => (opened.total tile).trans (total tile), fun _ => ?_⟩
    obtain ⟨player, mask, fixed, -, refreshed⟩ := opened.player
    obtain ⟨cpgs, discards⟩ := core_updateOption_fixed fixed
    have cur : (s.updateGameRound cfg chair addHandCard).curRoundChairId = chair :=
      congrArg curRoundChairId opened.frame
    have target : (s.updateGameRound cfg chair addHandCard).targetInfo = {} :=
      congrArg targetInfo opened.frame
    have own : ((s.updateGameRound cfg chair addHandCard).players chair).cpgs = (s.players chair).cpgs := by
      rw [refreshed]
      exact cpgs
    rw [cur, target]
    refine ⟨fun seat => ?_, fun seat => ?_, fun real => absurd rfl real⟩
    · by_cases same : seat = chair
      · rw [same, own]
        exact melds chair
      · rw [eq_nextChair_of_ne same, opened.other]
        exact melds (nextChair chair)
    · by_cases same : seat = chair
      · rw [same]
        exact offersReady_opened refreshed
      · rw [eq_nextChair_of_ne same]
        refine other.congr (by rw [opened.other]; rfl) ?_
        rw [nextChair_nextChair, refreshed]
        exact discards

end GameState

end H5Server.Erqs
