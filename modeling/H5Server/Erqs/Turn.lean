import H5Server.Lib.Demands
import H5Server.Erqs.BalanceHandlers

/-! # Whose turn it is

A running round is in one of two phases. Either the player to move holds fourteen tiles, or both hold
thirteen and the other player may claim the last discard or rob the last kong. A kong demands the
next tile of the wall, from its tail, for the player who made it.
-/

namespace H5Server.Erqs

/-- The tiles in hand and in melds, where a kong counts three. -/
def GamePlayer.size (player : GamePlayer) : Nat := player.handCards.length + 3 * player.cpgs.length

/-- The player `cur` has drawn: fourteen tiles and, if offered, whole kongs of the own hand. -/
structure AtTurn (players : Fin 2 → GamePlayer) (cur : Fin 2) : Prop where
  own : (players cur).size = 14
  other : (players (nextChair cur)).size = 13
  whole : (players cur).option ≠ 0 → ∀ cpg ∈ (players cur).optionalCpgs, cpg.type = .anGang →
    4 ≤ (players cur).handCards.count cpg.targetCard
  idle : (players (nextChair cur)).option ≠ 0 → (players (nextChair cur)).optionalCpgs = []

/-- The other player may take what `cur` has just discarded or added to a peng. -/
structure ClaimPending (players : Fin 2 → GamePlayer) (cur : Fin 2) (type : TargetType) : Prop where
  own : (players cur).size = 13
  other : (players (nextChair cur)).size = 13
  reset : (players cur).option = 0
  offered : (players (nextChair cur)).option ≠ 0
  noTing : (players (nextChair cur)).tingOptInfos = []
  claims : type = .out → ∀ cpg ∈ (players (nextChair cur)).optionalCpgs, isClaimType cpg.type = true
  robbing : type = .jiaGang → (players (nextChair cur)).optionalCpgs = [] ∧
    (players (nextChair cur)).hasOptionType .hu = true

/-! ## Kongs and the tiles they are owed -/

/-- The chair of a kong. -/
def ReplayStep.kong : ReplayStep → Option (Fin 2)
  | .gang chair => some chair
  | _ => none

/-- Who is dealt a tile of the wall, and whether from its head; flowers are replaced from there. -/
def ReplayStep.dealt : ReplayStep → Option (Fin 2 × Bool)
  | .addCard chair isFront => some (chair, isFront)
  | .replaceHua chair => some (chair, true)
  | _ => none

/-- The next tile dealt after a kong goes to its player, from the tail. -/
def KongServed : List ReplayStep → Prop :=
  Lib.Faithful ReplayStep.kong ReplayStep.dealt fun chair deal => deal = (chair, false)

/-- A kong of `chair` after which no tile has been dealt. -/
def KongStands : List ReplayStep → Fin 2 → Prop := Lib.Stands ReplayStep.kong ReplayStep.dealt

section Replay

variable {replay : List ReplayStep} {step : ReplayStep}

theorem KongServed.append (served : KongServed replay) {steps : List ReplayStep}
    (quiet : ∀ step ∈ steps, step.kong = none) (settled : ∀ chair, ¬KongStands replay chair) :
    KongServed (replay ++ steps) :=
  Lib.faithful_append served quiet fun _ _ _ _ chair stands => absurd stands (settled chair)

/-- Steps that deal nothing serve every kong. -/
theorem KongServed.snoc (served : KongServed replay) (silent : step.dealt = none) :
    KongServed (replay ++ [step]) :=
  Lib.faithful_snoc served fun given deals => by rw [silent] at deals; cases deals

theorem settled_append {steps : List ReplayStep} (quiet : ∀ step ∈ steps, step.kong = none)
    (settled : ∀ chair, ¬KongStands replay chair) : ∀ chair, ¬KongStands (replay ++ steps) chair :=
  fun chair stands => settled chair (Lib.stands_of_append quiet stands)

theorem kong_of_replaceHua {chair : Fin 2} {k : Nat} :
    ∀ step ∈ List.replicate k (ReplayStep.replaceHua chair), step.kong = none := fun step present => by
  rw [List.eq_of_mem_replicate present]
  rfl

/-- A draw serves the kong it follows, and no kong stands after it. -/
theorem kong_draw {chair : Fin 2} {isFront : Bool} (served : KongServed replay)
    (owed : ∀ other, KongStands replay other → chair = other ∧ isFront = false) :
    KongServed (replay ++ [.addCard chair isFront]) ∧
      ∀ other, ¬KongStands (replay ++ [.addCard chair isFront]) other := by
  constructor
  · refine Lib.faithful_snoc served fun given deals other stands => ?_
    obtain ⟨rfl, rfl⟩ := owed other stands
    exact (Option.some.inj deals).symm
  · have supplies : (ReplayStep.addCard chair isFront).dealt = some (chair, isFront) := rfl
    exact Lib.not_stands_snoc_supply supplies rfl

end Replay

namespace GameState

variable {s : GameState}

/-- The phase of a running round. -/
inductive Turn (s : GameState) : Prop
  | move (target : s.targetInfo.type = .invalid) (timer : s.timerOption = false)
      (turn : AtTurn s.players s.curRoundChairId) (settled : ∀ chair, ¬KongStands s.replay chair)
  | claim (target : s.targetInfo.type ≠ .invalid)
      (pending : ClaimPending s.players s.curRoundChairId s.targetInfo.type)
      (settled : s.targetInfo.type = .out → ∀ chair, ¬KongStands s.replay chair)

/-! ## Opening a round -/

theorem kong_drawSteps (s : GameState) (chair : Fin 2) (addHandCard : Bool) :
    ∀ step ∈ s.drawSteps chair addHandCard, step.kong = none := by
  cases addHandCard with
  | false => nofun
  | true =>
    intro step present
    rw [List.mem_singleton.mp (show step ∈ [ReplayStep.addCard chair _] from present)]
    rfl

/-- The draw of a round, and the flowers after it. -/
private theorem served_drawSteps {chair : Fin 2} {addHandCard : Bool} (served : KongServed s.replay)
    (owed : ∀ other, KongStands s.replay other → addHandCard = true ∧ chair = other ∧ s.lastAction = .gang)
    (k : Nat) :
    let replay := s.replay ++ s.drawSteps chair addHandCard ++ List.replicate k (.replaceHua chair)
    KongServed replay ∧ ∀ other, ¬KongStands replay other := by
  intro replay
  suffices drawn : KongServed (s.replay ++ s.drawSteps chair addHandCard) ∧
      ∀ other, ¬KongStands (s.replay ++ s.drawSteps chair addHandCard) other from
    ⟨drawn.1.append kong_of_replaceHua drawn.2, settled_append kong_of_replaceHua drawn.2⟩
  cases addHandCard with
  | false =>
    have none : s.replay ++ s.drawSteps chair false = s.replay := List.append_nil _
    rw [none]
    exact ⟨served, fun other stands => Bool.false_ne_true (owed other stands).1⟩
  | true =>
    refine kong_draw served fun other stands => ?_
    obtain ⟨-, same, gang⟩ := owed other stands
    exact ⟨same, by simp only [gang, ne_eq, not_true_eq_false, decide_false]⟩

/-- `UpdateGameRound` serves the kong that a tile is owed to. -/
theorem served_updateGameRound (cfg : TableConfig) {chair : Fin 2} {addHandCard : Bool}
    (valid : gameInvalidCard ∉ s.cards) (served : KongServed s.replay)
    (owed : ∀ other, KongStands s.replay other → addHandCard = true ∧ chair = other ∧ s.lastAction = .gang) :
    KongServed (s.updateGameRound cfg chair addHandCard).replay := by
  obtain concluded | opened := s.updateGameRound_cases cfg chair addHandCard valid
  · obtain stuck | ⟨k, replay⟩ := concluded.replay
    · rw [stuck]
      exact served.snoc rfl
    · rw [replay]
      exact (served_drawSteps served owed k).1.snoc rfl
  · obtain ⟨k, replay⟩ := opened.replay
    rw [replay]
    exact (served_drawSteps served owed k).1

/-- `UpdateGameRound` opens a turn of `chair`, who holds fourteen tiles after the draw. -/
theorem turn_updateGameRound (cfg : TableConfig) {chair : Fin 2} {addHandCard : Bool}
    (total : ∀ tile, s.total tile = initialCards.count tile) (timer : s.timerOption = false)
    (own : (s.players chair).size + addHandCard.toNat = 14)
    (other : (s.players (nextChair chair)).size = 13) (served : KongServed s.replay)
    (owed : ∀ other, KongStands s.replay other → addHandCard = true ∧ chair = other ∧ s.lastAction = .gang) :
    KongServed (s.updateGameRound cfg chair addHandCard).replay ∧
      ((s.updateGameRound cfg chair addHandCard).playing = true →
        Turn (s.updateGameRound cfg chair addHandCard)) := by
  refine ⟨served_updateGameRound cfg (wall_valid total) served owed, fun playing => ?_⟩
  obtain concluded | opened := s.updateGameRound_cases cfg chair addHandCard (wall_valid total)
  · exact absurd (concluded.finished.symm.trans playing) Bool.false_ne_true
  · obtain ⟨k, replay⟩ := opened.replay
    have settled : ∀ other, ¬KongStands
        (s.replay ++ s.drawSteps chair addHandCard ++ List.replicate k (.replaceHua chair)) other :=
      (served_drawSteps served owed k).2
    obtain ⟨player, mask, fixed, length, refreshed⟩ := opened.player
    have cur : (s.updateGameRound cfg chair addHandCard).curRoundChairId = chair :=
      congrArg curRoundChairId opened.frame
    have target : (s.updateGameRound cfg chair addHandCard).targetInfo = {} := congrArg targetInfo opened.frame
    have timer' : (s.updateGameRound cfg chair addHandCard).timerOption = s.timerOption :=
      (congrArg timerOption opened.frame :)
    refine .move (by rw [target]) (timer'.trans timer) ?_ (by rw [replay]; exact settled)
    rw [cur]
    have melds : player.cpgs = (s.players chair).cpgs := congrArg (·.cpgs) fixed
    refine ⟨?_, ?_, fun _ cpg stored an => ?_, fun offered => ?_⟩
    · rw [refreshed]
      change player.handCards.length + 3 * player.cpgs.length = 14
      rw [melds, length]
      unfold GamePlayer.size at own
      omega
    · rw [opened.other]
      exact other
    · have total' : ∀ tile, (s.updateGameRound cfg chair addHandCard).total tile = initialCards.count tile :=
        fun tile => (opened.total tile).trans (total tile)
      have hand := hand_valid total' chair
      rw [refreshed] at stored hand ⊢
      have found := player.updateOption_found _ _ _ _ _ stored
      have enough := found.enough hand (found.own an) cpg.targetCard
      rw [CPG.taken, an, List.count_replicate_self] at enough
      exact enough
    · rw [opened.other] at offered
      exact absurd rfl offered

/-- After a discard the other player may claim it, or draws. -/
theorem turn_afterDiscard (cfg : TableConfig) {chair : Fin 2} {card : Int}
    (total : ∀ tile, s.total tile = initialCards.count tile) (timer : s.timerOption = false)
    (cur : s.curRoundChairId = chair) (own : (s.players chair).size = 13)
    (other : (s.players (nextChair chair)).size = 13) (served : KongServed s.replay)
    (settled : ∀ chair, ¬KongStands s.replay chair) :
    KongServed (s.afterDiscard cfg chair card).replay ∧
      ((s.afterDiscard cfg chair card).playing = true → Turn (s.afterDiscard cfg chair card)) := by
  obtain ⟨s', sent, outcome⟩ := s.afterDiscard_cases cfg chair card
  have replay : s'.replay = s.replay := (congrArg replay sent.rest :)
  have own' : (s'.players chair).size = 13 := by
    rw [sent.self]
    exact own
  have other' : (s'.players (nextChair chair)).size = 13 := by
    rw [sent.next]
    exact other
  obtain ⟨-, result⟩ | ⟨offered, result⟩ := outcome
  · rw [result]
    have timer' : s'.timerOption = s.timerOption := (congrArg timerOption sent.rest :)
    refine turn_updateGameRound cfg (fun tile => (sent.total tile).trans (total tile)) (timer'.trans timer) ?_ ?_
      (replay ▸ served) (fun other stands => absurd (replay ▸ stands) (settled other))
    · rw [other', Bool.toNat_true]
    · rw [nextChair_nextChair, own']
  · have cur' : s'.curRoundChairId = chair := (congrArg curRoundChairId sent.rest :).trans cur
    have target : s'.targetInfo = ⟨card, .out, some chair⟩ := (congrArg targetInfo sent.rest :)
    rw [result]
    refine ⟨replay ▸ served, fun _ => .claim ?_ ?_ fun _ => replay ▸ settled⟩
    · rw [target]
      nofun
    · change ClaimPending s'.players s'.curRoundChairId s'.targetInfo.type
      rw [cur', target]
      refine ⟨own', other', ?_, offered, ?_, fun _ cpg stored => ?_, nofun⟩
      · rw [sent.self]
        rfl
      · rw [sent.next]
        exact GamePlayer.updateOption_tingOptInfos_nil _ _ _ _ _ _ (by decide)
      · rw [sent.next] at stored
        exact GamePlayer.updateOption_claim _ _ _ _ _ _ (by decide) (by decide) stored

/-- After an added kong the other player may rob it, or its player draws. -/
theorem turn_afterJiaGang (cfg : TableConfig) {chair : Fin 2} {card : Int}
    (total : ∀ tile, s.total tile = initialCards.count tile) (timer : s.timerOption = false)
    (cur : s.curRoundChairId = chair) (own : (s.players chair).size = 13)
    (other : (s.players (nextChair chair)).size = 13) (served : KongServed s.replay)
    (owed : ∀ other, KongStands s.replay other → chair = other) (gang : s.lastAction = .gang) :
    KongServed (s.afterJiaGang cfg chair card).replay ∧
      ((s.afterJiaGang cfg chair card).playing = true → Turn (s.afterJiaGang cfg chair card)) := by
  obtain ⟨s', sent, outcome⟩ := s.afterJiaGang_cases cfg chair card
  have replay : s'.replay = s.replay := (congrArg replay sent.rest :)
  have own' : (s'.players chair).size = 13 := by
    rw [sent.self]
    exact own
  have other' : (s'.players (nextChair chair)).size = 13 := by
    rw [sent.next]
    exact other
  obtain ⟨-, result⟩ | ⟨offered, result⟩ := outcome
  · rw [result]
    have timer' : s'.timerOption = s.timerOption := (congrArg timerOption sent.rest :)
    have gang' : s'.lastAction = s.lastAction := (congrArg lastAction sent.rest :)
    refine turn_updateGameRound cfg (fun tile => (sent.total tile).trans (total tile)) (timer'.trans timer) ?_ other'
      (replay ▸ served) (fun other stands => ⟨rfl, owed other (replay ▸ stands), gang'.trans gang⟩)
    rw [own', Bool.toNat_true]
  · have cur' : s'.curRoundChairId = chair := (congrArg curRoundChairId sent.rest :).trans cur
    have target : s'.targetInfo = ⟨card, .jiaGang, some chair⟩ := (congrArg targetInfo sent.rest :)
    rw [result]
    refine ⟨replay ▸ served, fun _ => .claim ?_ ?_ fun out => ?_⟩
    · rw [target]
      nofun
    · change ClaimPending s'.players s'.curRoundChairId s'.targetInfo.type
      rw [cur', target]
      refine ⟨own', other', ?_, offered, ?_, nofun, fun _ => ?_⟩
      · rw [sent.self]
        rfl
      · rw [sent.next]
        exact GamePlayer.updateOption_tingOptInfos_nil _ _ _ _ _ _ (by decide)
      · rw [sent.next] at offered ⊢
        exact ⟨GamePlayer.updateOption_optionalCpgs_nil _ _ _ _ _ (.inl rfl),
          GamePlayer.updateOption_hu_of_offered _ _ _ _ _ offered⟩
    · rw [target] at out
      cases out

end GameState

end H5Server.Erqs
