import H5Server.Lib.Runs
import H5Server.Erqs.Announced
import H5Server.Erqs.Start

/-! # Claims on stale offers

A chi, peng, gang or ting message acts on the stored offers and never looks at the option bits. What
it changes was offered at that moment exactly when the bits are not clear, and, for chi, when the
message picks a chi.
-/

namespace H5Server.Erqs

namespace GamePlayer

open GameState (Message)

/-! ## The claim operations -/

/-- The operation behind a claim message. -/
def claimOp (player : GamePlayer) : Message → GamePlayer × Bool
  | .chi cards => player.chi cards
  | .peng => player.peng
  | .gang cards => player.gang cards
  | .ting card => player.declareTing card
  | _ => (player, false)

/-- The message picks a stored offer that finds a tile to take. -/
def Acts (player : GamePlayer) : Message → Prop
  | .chi cards => ∃ cpg, player.getOptionalCpgIdx cards = some cpg ∧
      ∀ card rest, cpg.cards.filter (· ≠ cpg.targetCard) = card :: rest → card ∈ player.handCards
  | .peng => ∃ cpg, player.getOptionalCpgIdxByType .peng = some cpg ∧ cpg.targetCard ∈ player.handCards
  | .gang cards => ∃ cpg, player.getOptionalCpgIdx cards = some cpg ∧ isGangType cpg.type = true ∧
      cpg.targetCard ∈ player.handCards
  | .ting card => player.ting = false ∧ (∃ info ∈ player.tingOptInfos, info.outCard = card) ∧
      (card ≠ gameInvalidCard → player.handCards.length % 3 = 2 ∧ card ∈ player.handCards)
  | _ => False

/-- The bit that matches the message is set. -/
def Offered (player : GamePlayer) : Message → Prop
  | .chi cards => ∃ cpg, player.getOptionalCpgIdx cards = some cpg ∧ isChiType cpg.type = true ∧
      player.hasOptionType cpg.type = true
  | .peng => player.hasOptionType .peng = true
  | .gang cards => ∃ cpg, player.getOptionalCpgIdx cards = some cpg ∧ isGangType cpg.type = true ∧
      player.hasOptionType cpg.type = true
  | .ting _ => player.hasOptionType .ting = true
  | _ => True

/-- The player has options, and a chi message picks a chi. -/
def Live (player : GamePlayer) : Message → Prop
  | .chi cards => player.hasOption = true ∧
      ∀ cpg, player.getOptionalCpgIdx cards = some cpg → isChiType cpg.type = true
  | _ => player.hasOption = true

/-- How a claim operation ends: refused as it stands, refused with tiles gone, or carried out. -/
inductive ClaimResult (player : GamePlayer) : GamePlayer × Bool → Prop
  | refused : ClaimResult player (player, false)
  | broken (player' : GamePlayer) (offers : player'.offers = player.offers)
      (shorter : player'.handCards.length < player.handCards.length) : ClaimResult player (player', false)
  | done (player' : GamePlayer) (offers : player'.offers = player.offers)
      (changed : player'.cpgs ≠ player.cpgs ∨ player'.ting ≠ player.ting) : ClaimResult player (player', true)

theorem ClaimResult.offers {player : GamePlayer} {result : GamePlayer × Bool}
    (done : ClaimResult player result) : result.1.offers = player.offers := by
  cases done with
  | refused => rfl
  | broken _ offers => exact offers
  | done _ offers => exact offers

/-- Only an operation that acts is more than refused. -/
def ResultFor (player : GamePlayer) (acts : Prop) (result : GamePlayer × Bool) : Prop :=
  ClaimResult player result ∧ (result = (player, false) ↔ ¬acts)

theorem addCpg_cpgs_ne (player : GamePlayer) (cpg : CPG) : (player.addCpg cpg).cpgs ≠ player.cpgs := fun same => by
  have longer := congrArg List.length same
  simp only [addCpg, List.length_append, List.length_singleton] at longer
  omega

theorem ne_refused_of_shorter {player : GamePlayer} {result : GamePlayer × Bool}
    (shorter : result.1.handCards.length < player.handCards.length) : result ≠ (player, false) := fun same => by
  rw [same] at shorter
  exact absurd shorter (Nat.lt_irrefl _)

theorem resultFor_refused {player : GamePlayer} {acts : Prop} (idle : ¬acts) :
    ResultFor player acts (player, false) := ⟨.refused, iff_of_true rfl idle⟩

theorem resultFor_broken {player player' : GamePlayer} {acts : Prop} (act : acts)
    (rest : player' = { player with handCards := player'.handCards })
    (shorter : player'.handCards.length < player.handCards.length) : ResultFor player acts (player', false) :=
  ⟨.broken player' (congrArg offers rest :) shorter,
    iff_of_false (ne_refused_of_shorter shorter) (not_not.mpr act)⟩

theorem resultFor_done {player player' : GamePlayer} {acts : Prop} (act : acts)
    (offers : player'.offers = player.offers) (changed : player'.cpgs ≠ player.cpgs ∨ player'.ting ≠ player.ting) :
    ResultFor player acts (player', true) :=
  ⟨.done player' offers changed,
    iff_of_false (fun same => Bool.noConfusion (congrArg Prod.snd same)) (not_not.mpr act)⟩

theorem resultFor_melded {player player' : GamePlayer} {acts : Prop} (act : acts)
    (rest : player' = { player with handCards := player'.handCards }) (cpg : CPG) :
    ResultFor player acts (player'.addCpg cpg, true) := by
  have melds : player'.cpgs = player.cpgs := congrArg (·.cpgs) rest
  exact resultFor_done act (congrArg GamePlayer.offers rest :) (.inl (melds ▸ player'.addCpg_cpgs_ne cpg))

theorem resultFor_chi (player : GamePlayer) (cards : List Int) :
    ResultFor player (player.Acts (.chi cards)) (player.chi cards) := by
  cases picked : player.getOptionalCpgIdx cards with
  | none =>
    have idle : ¬player.Acts (.chi cards) := by
      rintro ⟨cpg, found, -⟩
      cases picked.symm.trans found
    simpa only [chi, picked] using resultFor_refused idle
  | some cpg =>
    simp only [chi, picked]
    cases needed : cpg.cards.filter (· ≠ cpg.targetCard) with
    | nil =>
      have act : player.Acts (.chi cards) := by
        refine ⟨cpg, picked, fun first others same => ?_⟩
        cases needed.symm.trans same
      exact resultFor_melded act rfl cpg
    | cons card rest =>
      by_cases present : card ∈ player.handCards
      · have act : player.Acts (.chi cards) := ⟨cpg, picked, fun first others same => by
          rw [needed] at same
          exact (List.cons.inj same).1 ▸ present⟩
        have same := (player.removeEach_rest (card :: rest)).1
        have shorter := removeEach_shorter rest present
        generalize player.removeEach (card :: rest) = result at same shorter ⊢
        obtain ⟨player', found⟩ := result
        cases found with
        | false => exact resultFor_broken act same shorter
        | true => exact resultFor_melded act same cpg
      · have idle : ¬player.Acts (.chi cards) := by
          rintro ⟨other, found, there⟩
          cases picked.symm.trans found
          exact present (there card rest needed)
        rw [removeEach_absent rest present]
        exact resultFor_refused idle

/-- A removal whose first copy is there, followed by a meld or not. -/
theorem resultFor_remove {player : GamePlayer} {acts : Prop} {card : Int} {num : Nat} (some : 0 < num)
    (present : card ∈ player.handCards) (act : acts) (cpg : CPG) :
    ResultFor player acts (match player.removeHandCards card num with
      | (player, false) => (player, false)
      | (player, true) => (player.addCpg cpg, true)) := by
  have spends := player.removeHandCards_spends card num
  have copies := List.count_pos_iff.mpr present
  have taken := spends.length
  rw [List.length_replicate] at taken
  generalize player.removeHandCards card num = result at spends taken ⊢
  obtain ⟨player', found⟩ := result
  cases found with
  | false => exact resultFor_broken act spends.rest (by simp only at taken ⊢; omega)
  | true => exact resultFor_melded act spends.rest cpg

theorem resultFor_peng (player : GamePlayer) : ResultFor player (player.Acts .peng) player.peng := by
  cases picked : player.getOptionalCpgIdxByType .peng with
  | none =>
    have idle : ¬player.Acts .peng := by
      rintro ⟨cpg, found, -⟩
      cases picked.symm.trans found
    simpa only [peng, picked] using resultFor_refused idle
  | some cpg =>
    simp only [peng, picked]
    by_cases present : cpg.targetCard ∈ player.handCards
    · exact resultFor_remove Nat.two_pos present ⟨cpg, picked, present⟩ cpg
    · have idle : ¬player.Acts .peng := by
        rintro ⟨other, found, there⟩
        cases picked.symm.trans found
        exact present there
      rw [removeHandCards_absent (List.count_eq_zero.mpr present) Nat.two_pos]
      exact resultFor_refused idle

theorem pengToJiaGang_ne {targetCard : Int} {cpgs changed : List CPG}
    (done : pengToJiaGang targetCard cpgs = some changed) : changed ≠ cpgs := by
  induction cpgs generalizing changed with
  | nil => cases done
  | cons head rest ih =>
    simp only [pengToJiaGang] at done
    split at done
    · next peng =>
      cases done
      intro same
      have type := congrArg CPG.type (List.cons.inj same).1
      rw [peng.2] at type
      cases type
    · obtain ⟨later, found, rfl⟩ := Option.map_eq_some_iff.mp done
      exact fun same => ih found (List.cons.inj same).2

theorem resultFor_gang (player : GamePlayer) (cards : List Int) :
    ResultFor player (player.Acts (.gang cards)) (player.gang cards) := by
  by_cases act : player.Acts (.gang cards)
  · obtain ⟨cpg, picked, kong, present⟩ := act
    have act : player.Acts (.gang cards) := ⟨cpg, picked, kong, present⟩
    simp only [gang, picked]
    split
    · exact resultFor_remove (by split <;> omega) present act cpg
    · next notOwn =>
      have type : cpg.type = .jiaGang := by
        generalize cpg.type = type at kong notOwn
        cases type <;> first
          | rfl
          | exact absurd (.inl rfl) notOwn
          | exact absurd (.inr rfl) notOwn
          | exact absurd kong Bool.false_ne_true
      simp only [type, ↓reduceIte]
      obtain ⟨player', spends, done⟩ := removeHandCards_success (List.one_le_count_iff.mpr present)
      have shorter := spends.length
      rw [List.length_replicate] at shorter
      simp only [done, changePengToJiaGang]
      cases changed : pengToJiaGang cpg.targetCard player'.cpgs with
      | none => exact resultFor_broken act spends.rest (by omega)
      | some cpgs =>
        have melds : player'.cpgs = player.cpgs := congrArg (·.cpgs) spends.rest
        exact resultFor_done act (congrArg offers spends.rest :) (.inl (melds ▸ pengToJiaGang_ne changed))
  · have idle : ∀ cpg, player.getOptionalCpgIdx cards = some cpg → isGangType cpg.type = true →
        player.handCards.count cpg.targetCard = 0 := fun cpg picked kong =>
      List.count_eq_zero.mpr fun present => act ⟨cpg, picked, kong, present⟩
    rw [gang_idle idle]
    exact resultFor_refused act

theorem resultFor_declareTing (player : GamePlayer) (card : Int) :
    ResultFor player (player.Acts (.ting card)) (player.declareTing card) := by
  by_cases act : player.Acts (.ting card)
  · obtain ⟨free, ⟨info, stored, same⟩, played⟩ := id act
    obtain ⟨found, picked⟩ : ∃ found, (player.tingOptInfos.find? fun info => info.outCard == card) = some found :=
      Option.isSome_iff_exists.mp (List.find?_isSome.mpr ⟨info, stored, beq_iff_eq.mpr same⟩)
    by_cases none : card ≠ gameInvalidCard
    · obtain ⟨size, present⟩ := played none
      obtain ⟨player', spends, done⟩ := outCard_success free size present
      simp only [declareTing, free, picked, none, done, Bool.false_eq_true, ne_eq, not_false_eq_true, ↓reduceIte]
      refine resultFor_done act (congrArg offers spends.rest :) (.inr ?_)
      simp only [free, ne_eq, Bool.true_eq_false, not_false_eq_true]
    · simp only [declareTing, free, picked, if_neg none, Bool.false_eq_true, ↓reduceIte]
      refine resultFor_done act rfl (.inr ?_)
      simp only [free, ne_eq, Bool.true_eq_false, not_false_eq_true]
  · obtain refused | ⟨info, stored, same, free, ⟨none, -⟩ | ⟨-, player', spends, size, -⟩⟩ :=
      player.declareTing_cases card
    · rw [refused]
      exact resultFor_refused act
    · exact absurd ⟨free, ⟨info, stored, same⟩, fun real => absurd none real⟩ act
    · exact absurd ⟨free, ⟨info, stored, same⟩, fun _ =>
        ⟨size, spends.perm.symm.subset List.mem_cons_self⟩⟩ act

theorem resultFor_claimOp (player : GamePlayer) (msg : Message) :
    ResultFor player (player.Acts msg) (player.claimOp msg) := by
  cases msg with
  | chi cards => exact player.resultFor_chi cards
  | peng => exact player.resultFor_peng
  | gang cards => exact player.resultFor_gang cards
  | ting card => exact player.resultFor_declareTing card
  | _ => exact resultFor_refused id

/-- With the bits announcing the offers, an operation that acts was offered, if it was live. -/
theorem Announced.offered_iff {player : GamePlayer} (announced : player.Announced) {msg : Message}
    (acts : player.Acts msg) : player.Offered msg ↔ player.Live msg := by
  have set : ∀ {type}, player.hasOptionType type = true → player.hasOption = true := fun {type} bit => by
    simp only [hasOption, bne_iff_ne]
    intro clear
    rw [hasOptionType, clear, hasType_zero] at bit
    cases bit
  have covered : player.hasOption = true → (∀ cpg ∈ player.optionalCpgs, player.hasOptionType cpg.type = true) ∧
      (player.tingOptInfos ≠ [] → player.hasOptionType .ting = true) := fun some =>
    announced.resolve_left (bne_iff_ne.mp some)
  cases msg with
  | chi cards =>
    constructor
    · rintro ⟨cpg, picked, chi, bit⟩
      refine ⟨set bit, fun other found => ?_⟩
      cases picked.symm.trans found
      exact chi
    · rintro ⟨some, chi⟩
      obtain ⟨cpg, picked, -⟩ := acts
      exact ⟨cpg, picked, chi cpg picked, (covered some).1 cpg (getOptionalCpgIdx_some picked).1⟩
  | peng =>
    refine ⟨set, fun some => ?_⟩
    obtain ⟨cpg, picked, -⟩ := acts
    obtain ⟨stored, type⟩ := getOptionalCpgIdxByType_some picked
    have bit := (covered some).1 cpg stored
    rw [type] at bit
    exact bit
  | gang cards =>
    constructor
    · rintro ⟨cpg, picked, kong, bit⟩
      exact set bit
    · intro some
      obtain ⟨cpg, picked, kong, -⟩ := acts
      exact ⟨cpg, picked, kong, (covered some).1 cpg (getOptionalCpgIdx_some picked).1⟩
  | ting card =>
    refine ⟨set, fun some => ?_⟩
    obtain ⟨-, ⟨info, stored, -⟩, -⟩ := acts
    exact (covered some).2 (List.ne_nil_of_mem stored)
  | _ => exact absurd acts id

end GamePlayer

namespace GameState

open GamePlayer

variable {s : GameState}

/-! ## The handlers around them -/

def IsClaim : Message → Prop
  | .chi _ | .peng | .gang _ | .ting _ => True
  | _ => False

/-- The checks a handler makes before the operation. -/
def Admits (s : GameState) (chair : Fin 2) : Message → Prop
  | .chi cards => nextChair s.curRoundChairId = chair ∧ cards.all isValidCard = true
  | .peng => s.curRoundChairId ≠ chair
  | .gang cards => s.cards ≠ [] ∧ cards.all isValidCard = true
  | _ => True

/-- What a handler makes of the operation: nothing if it is not admitted, the player it leaves if it
is refused, and quiet changes on top of it if it is carried out. -/
structure Handled (s : GameState) (chair : Fin 2) (msg : Message) (s' : GameState) : Prop where
  ignored : ¬s.Admits chair msg → s' = s
  refused : s.Admits chair msg → ((s.players chair).claimOp msg).2 = false →
    s' = s.setPlayer chair ((s.players chair).claimOp msg).1
  done : s.Admits chair msg → ((s.players chair).claimOp msg).2 = true →
    Quiet (s.setPlayer chair ((s.players chair).claimOp msg).1) s'

theorem quiet_removeOutCard (s : GameState) (chair : Fin 2) (card : Int) :
    Quiet s (s.modifyPlayer chair (·.removeOutCard card)) := quiet_setPlayer (steady_of_offers rfl rfl rfl)

/-- The claimed tile leaves the discards, then the round of `chair` opens. -/
private theorem quiet_claimed (cfg : TableConfig) (s : GameState) (chair : Fin 2) (claimed : Option CPG)
    (step : ReplayStep) (valid : gameInvalidCard ∉ s.cards) :
    Quiet s (((match claimed with
      | some cpg => s.modifyPlayer s.curRoundChairId (·.removeOutCard cpg.targetCard)
      | none => s).addStep step).updateGameRound cfg chair false) := by
  cases claimed with
  | none =>
    have stepped : Quiet s (s.addStep step) := ⟨List.Subset.refl _, fun _ => .refl _⟩
    exact stepped.trans (quiet_updateGameRound cfg chair false valid)
  | some cpg =>
    have removed := quiet_removeOutCard s s.curRoundChairId cpg.targetCard
    have stepped : Quiet s ((s.modifyPlayer s.curRoundChairId (·.removeOutCard cpg.targetCard)).addStep step) :=
      ⟨removed.wall, removed.players⟩
    exact stepped.trans (quiet_updateGameRound cfg chair false valid)

private theorem quiet_ganged (cfg : TableConfig) (s : GameState) (chair : Fin 2) (cpg : CPG)
    (valid : gameInvalidCard ∉ s.cards) :
    let s' := (if cpg.type = .dianGang then
      s.modifyPlayer s.curRoundChairId (·.removeOutCard cpg.targetCard) else s).addStep (.gang chair)
    Quiet s (if cpg.type = .jiaGang then s'.afterJiaGang cfg chair cpg.targetCard
      else s'.updateGameRound cfg chair true) := by
  intro s'
  have removed : Quiet s (if cpg.type = .dianGang then
      s.modifyPlayer s.curRoundChairId (·.removeOutCard cpg.targetCard) else s) := by
    split
    · exact quiet_removeOutCard s s.curRoundChairId cpg.targetCard
    · exact .refl s
  have stepped : Quiet s s' := ⟨removed.wall, removed.players⟩
  split
  · exact stepped.trans (quiet_afterJiaGang cfg chair cpg.targetCard (stepped.valid valid))
  · exact stepped.trans (quiet_updateGameRound cfg chair true (stepped.valid valid))

theorem handled_ignored {chair : Fin 2} {msg : Message} (ignored : ¬s.Admits chair msg) :
    Handled s chair msg s :=
  ⟨fun _ => rfl, fun admits => absurd admits ignored, fun admits => absurd admits ignored⟩

theorem handled_refused {chair : Fin 2} {msg : Message} {player : GamePlayer} (admits : s.Admits chair msg)
    (result : (s.players chair).claimOp msg = (player, false)) :
    Handled s chair msg (s.setPlayer chair player) :=
  ⟨fun ignored => absurd admits ignored, fun _ _ => by rw [result],
    fun _ done => absurd (done.symm.trans (congrArg Prod.snd result)) Bool.noConfusion⟩

theorem handled_done {chair : Fin 2} {msg : Message} {player : GamePlayer} {s' : GameState}
    (admits : s.Admits chair msg) (result : (s.players chair).claimOp msg = (player, true))
    (quiet : Quiet (s.setPlayer chair player) s') : Handled s chair msg s' :=
  ⟨fun ignored => absurd admits ignored,
    fun _ failed => absurd (failed.symm.trans (congrArg Prod.snd result)) Bool.noConfusion,
    fun _ _ => by rw [result]; exact quiet⟩

theorem handled_onMsgChi (cfg : TableConfig) (chair : Fin 2) (cards : List Int)
    (valid : gameInvalidCard ∉ s.cards) : Handled s chair (.chi cards) (s.onMsgChi cfg chair cards) := by
  unfold onMsgChi
  split
  · next turn => exact handled_ignored fun admits => turn admits.1
  split
  · next bad => exact handled_ignored fun admits => by simp [admits.2] at bad
  next turn good =>
  have admits : s.Admits chair (.chi cards) := ⟨not_not.mp turn, by simpa using good⟩
  obtain ⟨⟨player, ok⟩, result⟩ : ∃ result, (s.players chair).chi cards = result := ⟨_, rfl⟩
  simp only [result]
  cases ok with
  | false => exact handled_refused admits result
  | true =>
    refine handled_done admits result ?_
    have quiet := quiet_claimed cfg { s.setPlayer chair player with
      timerOption := false, gameOpCnt := s.gameOpCnt + 1, lastAction := .chi } chair player.cpgs.getLast?
      (.chi chair) valid
    exact ⟨quiet.wall, quiet.players⟩

theorem handled_onMsgPeng (cfg : TableConfig) (chair : Fin 2) (valid : gameInvalidCard ∉ s.cards) :
    Handled s chair .peng (s.onMsgPeng cfg chair) := by
  unfold onMsgPeng
  split
  · next turn => exact handled_ignored fun admits => admits turn
  next turn =>
  obtain ⟨⟨player, ok⟩, result⟩ : ∃ result, (s.players chair).peng = result := ⟨_, rfl⟩
  simp only [result]
  cases ok with
  | false => exact handled_refused turn result
  | true =>
    refine handled_done turn result ?_
    have quiet := quiet_claimed cfg { s.setPlayer chair player with
      timerOption := false, gameOpCnt := s.gameOpCnt + 1, lastAction := .peng } chair player.cpgs.getLast?
      (.peng chair) valid
    exact ⟨quiet.wall, quiet.players⟩

theorem handled_onMsgGang (cfg : TableConfig) (chair : Fin 2) (cards : List Int)
    (valid : gameInvalidCard ∉ s.cards) : Handled s chair (.gang cards) (s.onMsgGang cfg chair cards) := by
  unfold onMsgGang
  split
  · next wall => exact handled_ignored fun admits => admits.1 wall
  split
  · next bad => exact handled_ignored fun admits => by simp [admits.2] at bad
  next wall good =>
  have admits : s.Admits chair (.gang cards) := ⟨wall, by simpa using good⟩
  obtain ⟨⟨player, ok⟩, result⟩ : ∃ result, (s.players chair).gang cards = result := ⟨_, rfl⟩
  simp only [result]
  cases ok with
  | false => exact handled_refused admits result
  | true =>
    refine handled_done admits result ?_
    dsimp only
    cases player.getCpgIdx cards with
    | none => exact ⟨List.Subset.refl _, fun _ => .refl _⟩
    | some cpg =>
      have quiet := quiet_ganged cfg { s.setPlayer chair player with
        timerOption := false, gameOpCnt := s.gameOpCnt + 1, lastAction := .gang } chair cpg valid
      exact ⟨quiet.wall, quiet.players⟩

theorem handled_onMsgTing (cfg : TableConfig) (chair : Fin 2) (card : Int)
    (valid : gameInvalidCard ∉ s.cards) : Handled s chair (.ting card) (s.onMsgTing cfg chair card) := by
  unfold onMsgTing
  obtain ⟨⟨player, ok⟩, result⟩ : ∃ result, (s.players chair).declareTing card = result := ⟨_, rfl⟩
  simp only [result]
  cases ok with
  | false => exact handled_refused trivial result
  | true =>
    refine handled_done trivial result ?_
    dsimp only
    have same : ∀ s' : GameState, s'.players = (s.setPlayer chair player).players → s'.cards = s.cards →
        Quiet (s.setPlayer chair player) s' := fun s' players cards =>
      ⟨by rw [cards]; exact List.Subset.refl _, fun seat => by rw [players]; exact .refl _⟩
    split
    · split
      · exact same _ rfl rfl
      split
      · exact same _ rfl rfl
      · refine Quiet.trans ?_ (quiet_afterDiscard cfg chair card ?_)
        · exact same _ rfl rfl
        · exact valid
    · split
      · refine Quiet.trans ?_ (quiet_onTimerTianTing cfg ?_)
        · exact same _ rfl rfl
        · exact valid
      · exact same _ rfl rfl

/-- A claim message, after the handler's own bookkeeping. -/
theorem handled_onGameMessage (cfg : TableConfig) (chair : Fin 2) {msg : Message} (claim : IsClaim msg)
    (valid : gameInvalidCard ∉ s.cards) :
    Handled (s.modifyPlayer chair (·.setHosting false)) chair msg (s.onGameMessage cfg chair msg) := by
  have valid : gameInvalidCard ∉ (s.modifyPlayer chair (·.setHosting false)).cards := valid
  cases msg with
  | chi cards => exact handled_onMsgChi cfg chair cards valid
  | peng => exact handled_onMsgPeng cfg chair valid
  | gang cards => exact handled_onMsgGang cfg chair cards valid
  | ting card => exact handled_onMsgTing cfg chair card valid
  | _ => exact absurd claim id

/-! ## The cover in every reachable state -/

/-- The bits of both players cover their offers. -/
structure Covered (s : GameState) : Prop where
  wall : gameInvalidCard ∉ s.cards
  players : ∀ seat, (s.players seat).Announced

theorem Covered.quiet {s s' : GameState} (covered : Covered s) (quiet : Quiet s s') : Covered s' :=
  ⟨quiet.valid covered.wall, fun seat => (quiet.players seat).announced (covered.players seat)⟩

theorem Covered.setPlayer {s : GameState} (covered : Covered s) {chair : Fin 2} {player : GamePlayer}
    (same : player.offers = (s.players chair).offers) : Covered (s.setPlayer chair player) := by
  refine ⟨covered.wall, fun seat => ?_⟩
  by_cases here : seat = chair
  · rw [here, setPlayer_players_self]
    exact (covered.players chair).congr same
  · rw [eq_nextChair_of_ne here, setPlayer_players_next]
    exact covered.players _

theorem covered_claim {s s' : GameState} {chair : Fin 2} {msg : Message} (covered : Covered s)
    (handled : Handled s chair msg s') : Covered s' := by
  have played := covered.setPlayer ((s.players chair).resultFor_claimOp msg).1.offers
  by_cases admits : s.Admits chair msg
  · cases done : ((s.players chair).claimOp msg).2 with
    | false => exact handled.refused admits done ▸ played
    | true => exact played.quiet (handled.done admits done)
  · exact handled.ignored admits ▸ covered

theorem Covered.concluded (covered : Covered s) (last : ReplayStep) : Covered (s.onEventGameConclude last) :=
  ⟨covered.wall, covered.players⟩

theorem covered_onHu (chair : Fin 2) (covered : Covered s) : Covered (s.onHu chair) := by
  unfold onHu
  dsimp only
  split
  · exact covered
  have given : ∀ s : GameState, Covered s → ∀ card,
      Covered (s.modifyPlayer chair (·.addHandCard card)) := fun s covered card => covered.setPlayer rfl
  refine Covered.concluded ?_ _
  split
  · exact covered
  refine given _ ?_ _
  split
  · exact covered.setPlayer rfl
  · split
    · exact covered.setPlayer rfl
    · exact covered

theorem covered_nextRound (cfg : TableConfig) (chair : Fin 2) (covered : Covered s) :
    Covered (s.updateGameRound cfg chair true) :=
  covered.quiet (quiet_updateGameRound cfg chair true covered.wall)

theorem covered_onTimerTianTing (cfg : TableConfig) (covered : Covered s) : Covered (s.onTimerTianTing cfg) :=
  covered.quiet (quiet_onTimerTianTing cfg covered.wall)

theorem covered_onOutCard (cfg : TableConfig) (chair : Fin 2) (card : Int) (covered : Covered s) :
    Covered (s.onOutCard cfg chair card) := covered.quiet (quiet_onOutCard cfg chair card covered.wall)

theorem covered_onGameMessage (cfg : TableConfig) (chair : Fin 2) (msg : Message) (covered : Covered s) :
    Covered (s.onGameMessage cfg chair msg) := by
  have hosted : Covered (s.modifyPlayer chair (·.setHosting false)) :=
    covered.quiet (quiet_setHosting s chair false)
  by_cases claim : IsClaim msg
  · exact covered_claim hosted (handled_onGameMessage cfg chair claim covered.wall)
  cases msg with
  | outCard card =>
    change Covered ((s.modifyPlayer chair (·.setHosting false)).onMsgOutCard cfg chair card)
    unfold onMsgOutCard
    split
    · split <;> exact ⟨hosted.wall, hosted.players⟩
    · exact hosted.quiet (quiet_playOutCard cfg chair card hosted.wall)
  | pass =>
    change Covered ((s.modifyPlayer chair (·.setHosting false)).onMsgPass cfg chair)
    unfold onMsgPass
    split
    · exact hosted
    have reset : Covered ((s.modifyPlayer chair (·.setHosting false)).modifyPlayer chair .resetOption) :=
      hosted.quiet (quiet_setPlayer (steady_resetOption _))
    dsimp only
    split
    · split
      · exact covered_onTimerTianTing cfg ⟨reset.wall, reset.players⟩
      · exact covered_nextRound cfg _ ⟨reset.wall, reset.players⟩
    · exact ⟨reset.wall, reset.players⟩
  | hu => exact covered_onHu chair hosted
  | hosting hosting => exact hosted.quiet (quiet_setHosting _ chair hosting)
  | _ => exact absurd trivial claim

theorem covered_step (cfg : TableConfig) (s : GameState) (event : Event) (s' : GameState)
    (covered : Covered s) (taken : s.step cfg event = some s') : Covered s' := by
  obtain ⟨-, cases⟩ := step_cases taken
  obtain ⟨chair, msg, rfl, rfl⟩ | ⟨chairid, msg, rfl, -, rfl⟩ | ⟨rfl, -, rfl⟩ | ⟨rfl, -, rfl⟩ |
    ⟨rfl, -, rfl⟩ | ⟨chair, rfl, rfl⟩ := cases
  · exact covered_onGameMessage cfg chair msg covered
  · exact covered
  · unfold onTimerRound
    dsimp only
    split
    · exact covered_onHu _ ⟨covered.wall, covered.players⟩
    · split
      · exact covered_onOutCard cfg _ _ ⟨covered.wall, covered.players⟩
      · have timed : Covered (s.modifyPlayer s.curRoundChairId .timeout) := covered.setPlayer rfl
        exact covered_onOutCard cfg _ _ ⟨timed.wall, timed.players⟩
  · unfold onTimerOption
    dsimp only
    split
    · exact covered_onHu _ ⟨covered.wall, covered.players⟩
    · exact covered_nextRound cfg _ ⟨covered.wall, covered.players⟩
  · exact covered.quiet (quiet_onTimerTianTing cfg covered.wall)
  · exact covered.quiet (quiet_setHosting s chair false)

theorem covered_onGameStart (cfg : TableConfig) {shuffled : List Int} (shuffle : shuffled.Perm initialCards)
    (banker : Fin 2) (gameMsgCache : List (Fin 2 × Int)) :
    Covered (onGameStart cfg shuffled banker gameMsgCache) := by
  have dealt := dealt_dealTable cfg banker gameMsgCache (valid_of_shuffle shuffle)
  have start : Covered (dealTable cfg shuffled banker gameMsgCache) :=
    ⟨fun bad => valid_of_shuffle shuffle (dealt.wall bad),
      fun seat => .inl (congrArg (·.option) (dealt.players seat) :)⟩
  have opened := start.quiet (quiet_updateGameRound cfg banker false start.wall)
  have sent : Covered (((dealTable cfg shuffled banker gameMsgCache).updateGameRound cfg banker false).sendOption
      (nextChair banker) MjType.ting.bit).1 := opened.quiet (quiet_setPlayer (steady_updateOption ..))
  unfold onGameStart
  dsimp only
  generalize ((dealTable cfg shuffled banker gameMsgCache).updateGameRound cfg banker false).sendOption
    (nextChair banker) MjType.ting.bit = result at sent ⊢
  obtain ⟨s', offered⟩ := result
  cases offered with
  | false => exact sent
  | true => exact ⟨sent.wall, sent.players⟩

/-! ## Claims and offers -/

/-- Some player's hand, melds or ting status, or the turn, is no longer what it was. -/
def Changed (s s' : GameState) : Prop :=
  (∃ seat, (s'.players seat).handCards ≠ (s.players seat).handCards ∨
    (s'.players seat).cpgs ≠ (s.players seat).cpgs ∨ (s'.players seat).ting ≠ (s.players seat).ting) ∨
  s'.curRoundChairId ≠ s.curRoundChairId

private theorem acts_setHosting (player : GamePlayer) (hosting : Bool) (msg : Message) :
    (player.setHosting hosting).Acts msg ↔ player.Acts msg := by cases msg <;> exact Iff.rfl

/-- A claim message that is not admitted, or whose operation does not act, leaves the table as it is. -/
theorem onGameMessage_idle (cfg : TableConfig) (chair : Fin 2) {msg : Message} (claim : IsClaim msg)
    (valid : gameInvalidCard ∉ s.cards) (idle : ¬(s.Admits chair msg ∧ (s.players chair).Acts msg)) :
    s.onGameMessage cfg chair msg = s.modifyPlayer chair (·.setHosting false) := by
  have self : (s.modifyPlayer chair (·.setHosting false)).players chair = (s.players chair).setHosting false :=
    setPlayer_players_self ..
  have handled := handled_onGameMessage cfg chair claim valid
  by_cases admits : (s.modifyPlayer chair (·.setHosting false)).Admits chair msg
  · have inert : ¬((s.players chair).setHosting false).Acts msg := fun acts =>
      idle ⟨by cases msg <;> exact admits, (acts_setHosting ..).mp acts⟩
    have refused := (((s.players chair).setHosting false).resultFor_claimOp msg).2.mpr inert
    rw [← self] at refused
    rw [handled.refused admits (congrArg Prod.snd refused), refused]
    exact setPlayer_self _ chair
  · exact handled.ignored admits

/-- A claim message changes something exactly when it is admitted and its operation acts. -/
theorem changed_iff (cfg : TableConfig) (chair : Fin 2) {msg : Message} (claim : IsClaim msg)
    (valid : gameInvalidCard ∉ s.cards) :
    Changed s (s.onGameMessage cfg chair msg) ↔ s.Admits chair msg ∧ (s.players chair).Acts msg := by
  let hosted := s.modifyPlayer chair (·.setHosting false)
  have self : hosted.players chair = (s.players chair).setHosting false := setPlayer_players_self ..
  have next : hosted.players (nextChair chair) = s.players (nextChair chair) := setPlayer_players_next ..
  have acts : (hosted.players chair).Acts msg ↔ (s.players chair).Acts msg := by
    rw [self]
    cases msg <;> exact Iff.rfl
  have admitsIff : hosted.Admits chair msg ↔ s.Admits chair msg := by cases msg <;> exact Iff.rfl
  have unchanged : ¬Changed s hosted := by
    rintro (⟨seat, change⟩ | change)
    · by_cases here : seat = chair
      · rw [here, self] at change
        simp only [setHosting, ne_eq, not_true_eq_false, or_self] at change
      · rw [eq_nextChair_of_ne here, next] at change
        simp only [ne_eq, not_true_eq_false, or_self] at change
    · exact change rfl
  have handled := handled_onGameMessage cfg chair claim valid
  change Handled hosted chair msg _ at handled
  obtain ⟨result, idle⟩ := (hosted.players chair).resultFor_claimOp msg
  rw [← acts, ← admitsIff]
  by_cases admits : hosted.Admits chair msg
  · simp only [admits, true_and]
    generalize played : (hosted.players chair).claimOp msg = outcome at result idle
    cases result with
    | refused =>
      have same : s.onGameMessage cfg chair msg = hosted := by
        rw [handled.refused admits (by rw [played]), played]
        exact setPlayer_self hosted chair
      exact iff_of_false (same ▸ unchanged) (idle.mp rfl)
    | broken player' offers shorter =>
      have same : s.onGameMessage cfg chair msg = hosted.setPlayer chair player' := by
        rw [handled.refused admits (by rw [played]), played]
      refine iff_of_true (.inl ⟨chair, .inl fun hand => ?_⟩) (not_not.mp fun none => ?_)
      · rw [same, setPlayer_players_self] at hand
        rw [hand, self] at shorter
        exact absurd shorter (Nat.lt_irrefl _)
      · have short := congrArg (fun result => result.1.handCards.length) (idle.mpr none)
        exact absurd short (Nat.ne_of_lt shorter)
    | done player' offers changed =>
      have quiet := handled.done admits (by rw [played])
      rw [played] at quiet
      have steady := quiet.players chair
      rw [setPlayer_players_self] at steady
      refine iff_of_true (.inl ⟨chair, .inr ?_⟩) (not_not.mp fun none => ?_)
      · rw [steady.melds, steady.ting]
        rw [self] at changed
        exact changed
      · exact Bool.noConfusion (congrArg Prod.snd (idle.mpr none))
  · rw [handled.ignored admits]
    exact iff_of_false unchanged fun both => admits both.1

/-- Whatever a claim message changes in a running round was on offer at that moment, exactly when the
player's bits are not clear (and a chi message picks a chi), or the message changes nothing. -/
theorem offered_of_changed_iff {cfg : TableConfig} {shuffled : List Int} (shuffle : shuffled.Perm initialCards)
    {banker : Fin 2} {gameMsgCache : List (Fin 2 × Int)} {events : List Event} {s s' : GameState}
    (run : Lib.Run (step cfg) (fun _ _ => True) (onGameStart cfg shuffled banker gameMsgCache) events s)
    {chair : Fin 2} {msg : Message} (claim : IsClaim msg)
    (taken : s.step cfg (.message chair msg) = some s') :
    (Changed s s' → (s.players chair).Offered msg) ↔
      ((s.players chair).Live msg ∨ ¬s.Admits chair msg ∨ ¬(s.players chair).Acts msg) := by
  have covered : Covered s := run.invariant (fun s event s' covered _ => covered_step cfg s event s' covered)
    (covered_onGameStart cfg shuffle banker gameMsgCache)
  have handled : s' = s.onGameMessage cfg chair msg := by
    unfold step at taken
    split at taken
    · cases taken
    · simp only [Fin.is_lt, ↓reduceDIte] at taken
      exact (Option.some.inj taken).symm
  rw [handled, changed_iff cfg chair claim covered.wall]
  by_cases effective : s.Admits chair msg ∧ (s.players chair).Acts msg
  · rw [(covered.players chair).offered_iff effective.2]
    tauto
  · tauto

/-- A peng sent before the first discard. -/
theorem offered_of_changed_iff_peng :
    let s := onGameStart plainTable initialCards 0 []
    (Changed s (s.onGameMessage plainTable 1 .peng) → (s.players 1).Offered .peng) ↔
      ((s.players 1).Live .peng ∨ ¬s.Admits 1 .peng ∨ ¬(s.players 1).Acts .peng) := by
  intro s
  have playing : s.playing = true := by decide +kernel
  have taken : s.step plainTable (.message (1 : Fin 2) .peng) = some (s.onGameMessage plainTable 1 .peng) := by
    simp only [step, playing, Bool.not_true, Bool.false_eq_true, Fin.is_lt, ↓reduceIte, ↓reduceDIte]
  exact offered_of_changed_iff (.refl _) (.nil _) trivial taken

/-- The banker holds four 0x31. -/
def staleKongShuffle : List Int :=
  stackedShuffle
    [0x31, 0x31, 0x31, 0x31, 0x01, 0x02, 0x04, 0x05, 0x07, 0x08, 0x32, 0x33, 0x34]
    [0x03, 0x03, 0x37, 0x35, 0x34, 0x33, 0x01, 0x01, 0x09, 0x09, 0x06, 0x07, 0x32]
    [0x36]

/-- After the discard, which cleared the banker's bits, the kong is still carried out. -/
theorem stale_kong_melds : ¬∀ (cfg : TableConfig) (shuffled : List Int) (banker : Fin 2)
    (gameMsgCache : List (Fin 2 × Int)) (events : List Event) (s s' : GameState) (chair : Fin 2) (msg : Message),
    shuffled.Perm initialCards →
    Lib.Run (step cfg) (fun _ _ => True) (onGameStart cfg shuffled banker gameMsgCache) events s →
    IsClaim msg → s.step cfg (.message chair msg) = some s' → Changed s s' → (s.players chair).Offered msg := by
  intro offered
  let kong : Message := .gang [0x31, 0x31, 0x31, 0x31]
  have facts : ((Lib.replay (step plainTable) (onGameStart plainTable staleKongShuffle 0 [])
      [.message 0 (.outCard 0x36)]).bind fun s => (s.step plainTable (.message 0 kong)).map fun s' =>
        ((s.players 0).option, (s.players 0).cpgs.length, (s'.players 0).cpgs.length)) = some (0, 0, 1) := by
    decide +kernel
  obtain ⟨s, reached, rest⟩ := Option.bind_eq_some_iff.mp facts
  obtain ⟨s', taken, values⟩ := Option.map_eq_some_iff.mp rest
  simp only [Prod.mk.injEq] at values
  obtain ⟨clear, none, one⟩ := values
  have changed : Changed s s' := .inl ⟨0, .inr (.inl fun same => by rw [same, none] at one; cases one)⟩
  obtain ⟨cpg, -, -, bit⟩ := offered plainTable staleKongShuffle 0 [] _ s s' 0 kong (by decide +kernel)
    (Lib.run_of_replay reached) trivial taken changed
  rw [GamePlayer.hasOptionType, clear, hasType_zero] at bit
  cases bit

end GameState

end H5Server.Erqs
