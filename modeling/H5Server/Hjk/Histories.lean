import H5Server.Hjk.Evaluation
import H5Server.Hjk.Settlement

/-! # The hands of a round

Every hand of every round gets its cards as the evaluation expects: two at first, one at a time while it is not
stopped, and none after it was stopped.
-/

namespace H5Server.Hjk

namespace Table

variable {r : Round} {s s' : Table} {shoe : Shoe} {k : ℕ}

/-- How far a hand has come. -/
inductive Evaluated (s : Table) (i : ℕ) : Prop where
  | undealt (two : (s.hands i).cardcount = 2) (out : s.cbGameStatus = .bet ∨ i ≠ 5 ∧ (s.hands i).isactivated = false)
  | dealt {cards : List ℕ} (dealt : Dealt i cards (s.hands i)) (late : s.cbGameStatus ≠ .bet)
      (active : i ≠ 5 → (s.hands i).isactivated = true)
  | final {cards : List ℕ} (final : Final i cards (s.hands i)) (late : s.cbGameStatus = .play ∨ s.cbGameStatus = .gameEnd)
      (active : i ≠ 5 → (s.hands i).isactivated = true) (stopped : i ≠ 5 → (s.hands i).stopped = true)

/-- The banker has his two cards. -/
def BankerWaits (s : Table) : Prop := ∃ first second, Drawn 5 [first, second] (s.hands 5)

/-- The hand in turn may still get cards. -/
structure Histories (s : Table) : Prop where
  hands : ∀ i, s.Evaluated i
  banker : s.cbGameStatus = .insure ∨ s.cbGameStatus = .play → s.BankerWaits
  current : s.cbGameStatus = .play → ∀ k, s.currentHand = some k → (s.hands k).stopped = false

theorem Evaluated.congr {i : ℕ} (evaluated : s.Evaluated i) (same : s'.hands i = s.hands i)
    (bet : s.cbGameStatus = .bet ↔ s'.cbGameStatus = .bet)
    (late : s.cbGameStatus = .play ∨ s.cbGameStatus = .gameEnd → s'.cbGameStatus = .play ∨ s'.cbGameStatus = .gameEnd) :
    s'.Evaluated i := by
  cases evaluated with
  | undealt two out =>
    refine .undealt (same ▸ two) (out.imp bet.mp fun idle => ⟨idle.1, ?_⟩)
    rw [same]
    exact idle.2
  | dealt dealt later active =>
    refine .dealt (same ▸ dealt) (fun open_ => later (bet.mpr open_)) fun player => ?_
    rw [same]
    exact active player
  | final final later active stopped =>
    refine .final (same ▸ final) (late later) (fun player => ?_) fun player => ?_
    · rw [same]
      exact active player
    · rw [same]
      exact stopped player

/-! ## The banker and the next hand -/

theorem drawBanker_drawn {cards : List ℕ} {hand : Hand} (shoe : Shoe) (fuel : ℕ) (drawn : Drawn 5 cards hand)
    (count : cards.length + fuel = 5) :
    ∃ cards', Drawn 5 cards' (drawBanker shoe fuel hand) ∧ ¬(drawBanker shoe fuel hand).draws := by
  induction fuel generalizing cards hand with
  | zero =>
    refine ⟨cards, drawn, fun draws => ?_⟩
    have few := ((drawn.dealt.counted.draws_iff rfl).mp draws).2.2
    omega
  | succ fuel ih =>
    rw [drawBanker]
    split
    next draws =>
      apply ih (drawn.add draws (shoe.drawn hand.cardcount))
      rw [List.length_append, List.length_singleton]
      omega
    next ends => exact ⟨cards, drawn, ends⟩

theorem histories_bankerDeal (hands : ∀ i, s.Evaluated i) (status : s.cbGameStatus = .play) (banker : s.BankerWaits) :
    (s.bankerDeal shoe).Histories := by
  obtain ⟨first, second, drawn⟩ := banker
  obtain ⟨cards, drawn', ends⟩ := drawBanker_drawn shoe 3 drawn rfl
  refine ⟨fun i => ?_, fun open_ => ?_, fun open_ => by cases open_⟩
  · rcases eq_or_ne i 5 with rfl | other
    · have final : Final 5 cards ((s.bankerDeal shoe).hands 5) := by
        have self : (s.bankerDeal shoe).hands 5 = drawBanker shoe 3 (s.hands 5) :=
          setHand_self s 5 (drawBanker shoe 3 (s.hands 5))
        rw [self]
        exact .banker rfl drawn' ends
      exact .final final (.inr rfl) (fun player => absurd rfl player) fun player => absurd rfl player
    · have same : (s.bankerDeal shoe).hands i = s.hands i := setHand_of_ne s other (drawBanker shoe 3 (s.hands 5))
      apply (hands i).congr same
      · rw [status]
        exact ⟨nofun, nofun⟩
      · exact fun _ => .inr rfl
  · rcases open_ with open_ | open_ <;> cases open_

theorem searchNext_going {fuel : ℕ} {start : Option ℕ} (found : s.searchNext fuel start = some k) :
    (s.hands k).stopped = false := by
  induction fuel generalizing start with
  | zero => cases found
  | succ fuel ih =>
    cases start with
    | none => cases found
    | some n =>
      rw [searchNext] at found
      split at found
      next => exact ih found
      next up =>
        obtain rfl := Option.some.inj found
        rw [not_or, Bool.not_eq_true] at up
        exact up.2

theorem histories_updateNext (hands : ∀ i, s.Evaluated i) (status : s.cbGameStatus = .play) (banker : s.BankerWaits) :
    (s.updateNext shoe).Histories := by
  rw [updateNext]
  split
  next k found =>
    refine ⟨fun i => (hands i).congr rfl Iff.rfl id, fun _ => banker, fun _ n current => ?_⟩
    obtain rfl := Option.some.inj current
    have going : (s.hands k).stopped = false := searchNext_going found
    exact going
  next =>
    exact histories_bankerDeal (fun i => (hands i).congr rfl Iff.rfl id) status banker

theorem histories_startPlay (hands : ∀ i, ({ s with cbGameStatus := .play } : Table).Evaluated i) (banker : s.BankerWaits)
    (current : s.currentHand = some k) : (s.startPlay shoe).Histories := by
  rw [startPlay, current]
  dsimp only
  split
  next => exact histories_updateNext (fun i => (hands i).congr rfl Iff.rfl id) rfl banker
  next going =>
    refine ⟨fun i => (hands i).congr rfl Iff.rfl id, fun _ => banker, fun _ n current' => ?_⟩
    obtain rfl := Option.some.inj current'
    exact Bool.eq_false_iff.mpr going

/-! ## Dealing -/

private theorem dealHand_drawn (shoe : Shoe) (i : ℕ) {hand : Hand} (two : hand.cardcount = 2) :
    ∃ first second, Drawn i [first, second] (dealHand shoe i hand).1 := by
  rw [dealHand]
  split
  next => exact ⟨_, _, .init _ _ two⟩
  next card _ =>
    dsimp only
    split
    · exact ⟨_, _, @Drawn.init i (hand.updateInit i (shoe.dealt i)) _ _ two⟩
    · exact ⟨_, _, @Drawn.init i (hand.updateInit i (shoe.dealt i)) _ _ two⟩

/-- No second hand is in play. -/
def NoSecond (s : Table) : Prop := ∀ i, 6 ≤ i → (s.hands i).isactivated = false

/-- Every staked hand and the banker's get two cards. -/
theorem evaluated_dealCards (s' : Table) (two : ∀ i, (s.hands i).cardcount = 2) (unsplit : s.NoSecond)
    (hands : s'.hands = (s.dealCards shoe).hands) (late : s'.cbGameStatus ≠ .bet) :
    (∀ i, s'.Evaluated i) ∧ s'.BankerWaits := by
  have activated (i : ℕ) : (s'.hands i).isactivated = (s.hands i).isactivated := by
    rw [hands]
    exact (frame_dealCards (s := s) shoe).activated i
  constructor
  · intro i
    have deals : s'.hands i = if decide (i < 6) && ((s.hands i).isactivated || i == 5) then (dealHand shoe i (s.hands i)).1
        else s.hands i := by
      rw [hands]
      rfl
    split at deals
    next dealt =>
      obtain ⟨first, second, drawn⟩ := dealHand_drawn shoe i (two i)
      rw [← deals] at drawn
      refine .dealt drawn.dealt late fun player => ?_
      rw [activated]
      simp only [Bool.and_eq_true, decide_eq_true_eq, Bool.or_eq_true, beq_iff_eq] at dealt
      exact dealt.2.resolve_right player
    next idle =>
      simp only [Bool.and_eq_true, decide_eq_true_eq, Bool.or_eq_true, beq_iff_eq, not_and, not_or] at idle
      refine .undealt (by rw [deals]; exact two i) (.inr ⟨?_, ?_⟩)
      · rintro rfl
        exact (idle (by omega)).2 rfl
      · rw [activated]
        rcases Nat.lt_or_ge i 6 with low | high
        · exact Bool.eq_false_iff.mpr (idle low).1
        · exact unsplit i high
  · have banker : s'.hands 5 = (dealHand shoe 5 (s.hands 5)).1 := by
      rw [hands]
      exact (dealCards_banker s shoe).1
    obtain ⟨first, second, drawn⟩ := dealHand_drawn shoe 5 (two 5)
    exact ⟨first, second, banker ▸ drawn⟩

/-- While the bets are open nothing is dealt. -/
theorem Histories.two (histories : s.Histories) (status : s.cbGameStatus = .bet) (i : ℕ) :
    (s.hands i).cardcount = 2 := by
  cases histories.hands i with
  | undealt two _ => exact two
  | dealt _ late _ => exact absurd status late
  | final _ late _ _ => rcases late with late | late <;> cases status.symm.trans late

theorem Sound.noSecond (sound : Sound r s) (status : s.cbGameStatus = .bet) : s.NoSecond := by
  intro i high
  by_contra active
  rw [Bool.not_eq_false] at active
  have range := (sound.staked.owner i active).1
  cases sound.phase with
  | bet _ unsplit =>
    have idle := unsplit (i - 6) (by omega)
    rw [show i - 6 + 6 = i by omega, active] at idle
    cases idle
  | insure other | play other | played other | insured other => cases status.symm.trans other

theorem histories_initDealCards (histories : s.Histories) (unsplit : s.cbGameStatus = .bet → s.NoSecond)
    (dealt : s.initDealCards shoe = some s') : s'.Histories := by
  rw [initDealCards] at dealt
  split at dealt
  next =>
    obtain rfl := Option.some.inj dealt
    exact histories
  next open_ =>
    have status := not_not.mp open_
    have two := histories.two status
    replace unsplit := unsplit status
    dsimp only at dealt
    split at dealt
    next => cases dealt
    next k found =>
      split at dealt
      next =>
        obtain rfl := Option.some.inj dealt
        obtain ⟨hands, banker⟩ := evaluated_dealCards { s.dealCards shoe with
          currentHand := some k, wCurrentUser := (s.dealCards shoe).master k, cbGameStatus := .insure } two unsplit rfl
          (by intro bet; cases bet)
        exact ⟨hands, fun _ => banker, fun other => by cases other⟩
      next =>
        obtain rfl := Option.some.inj dealt
        obtain ⟨hands, banker⟩ := evaluated_dealCards { s.dealCards shoe with
          currentHand := some k, wCurrentUser := (s.dealCards shoe).master k, cbGameStatus := .play } two unsplit rfl
          (by intro bet; cases bet)
        exact histories_startPlay hands banker rfl

/-! ## Betting and insurance -/

theorem Histories.congr (histories : s.Histories) (hands : s'.hands = s.hands) (status : s'.cbGameStatus = s.cbGameStatus)
    (current : s'.currentHand = s.currentHand) : s'.Histories := by
  refine ⟨fun i => (histories.hands i).congr (congrFun hands i) (by rw [status]) (by rw [status]; exact id), ?_, ?_⟩
  · rw [status, BankerWaits, hands]
    exact histories.banker
  · rw [status, current, hands]
    exact histories.current

theorem histories_onUserAddScore {c : ℕ} {lScore betSeat : ℤ} (histories : s.Histories) (unsplit : s.NoSecond)
    (status : s.cbGameStatus = .bet) (plays : r.bPlayStatus c = true)
    (taken : s.onUserAddScore r shoe c lScore betSeat = some s') : s'.Histories := by
  rw [onUserAddScore] at taken
  split at taken
  next =>
    cases taken
    exact histories
  next accepted =>
    let placed := s.placeBet r c betSeat (min lScore r.ceilScore)
    have self : placed.hands (seatOf c betSeat) = s.betHand r c betSeat (min lScore r.ceilScore) := setHand_self s _ _
    have others (i : ℕ) (other : i ≠ seatOf c betSeat) : placed.hands i = s.hands i := setHand_of_ne s other _
    have histories' : placed.Histories := by
      refine ⟨fun i => .undealt ?_ (.inl status), fun open_ => ?_, fun open_ => by cases status.symm.trans open_⟩
      · have two := histories.two status
        rcases eq_or_ne i (seatOf c betSeat) with rfl | other
        · rw [self]
          exact two _
        · rw [others i other]
          exact two i
      · rcases open_ with open_ | open_ <;> cases status.symm.trans open_
    have unsplit' : placed.NoSecond := by
      intro i high
      have seat := (seat_of_accepted plays accepted).1
      rw [others i (by omega)]
      exact unsplit i high
    dsimp only at taken
    split at taken
    next => exact histories_initDealCards histories' (fun _ => unsplit') taken
    next =>
      cases taken
      exact histories'

theorem histories_onUserEndScore {c : ℕ} (histories : s.Histories) (unsplit : s.cbGameStatus = .bet → s.NoSecond)
    (taken : s.onUserEndScore r shoe c = some s') : s'.Histories := by
  rw [onUserEndScore] at taken
  split at taken
  next =>
    cases taken
    exact histories
  next =>
    have histories' : ({ s with bSettled := Function.update s.bSettled c true } : Table).Histories :=
      histories.congr rfl rfl rfl
    dsimp only at taken
    split at taken
    · exact histories_initDealCards histories' unsplit taken
    · cases taken
      exact histories'

theorem histories_onTimerAddScore (histories : s.Histories) (sound : Sound r s) (status : s.cbGameStatus = .bet)
    (taken : s.onTimerAddScore r shoe = some s') : s'.Histories := by
  rw [onTimerAddScore] at taken
  obtain ⟨middle, loop, dealt⟩ := Option.bind_eq_some_iff.mp taken
  let Inv (t : Table) : Prop := t.Histories ∧ Sound r t ∧ (∀ c, t.lTableScore c = 0 → s.lTableScore c = 0)
    ∧ (t.cbGameStatus = .bet ∨ t.AllBeted)
  have kept : Inv middle := by
    refine Lib.foldlM_invariant Inv ?_ loop ⟨histories, sound, fun _ => id, .inl status⟩
    rintro t i t' ⟨histories, sound, empty, open_⟩ taken
    split at taken
    next due =>
      have betting : t.cbGameStatus = .bet := open_.resolve_right fun all => all i (r.chairs i due.2) due.1
      obtain ⟨table, open'⟩ := table_onUserAddScore betting taken
      refine ⟨histories_onUserAddScore histories (sound.noSecond betting) betting due.2 taken,
        (sound_onUserAddScore (fun _ => True) sound betting due.2 trivial taken).1, fun c zero => ?_, open'⟩
      rcases eq_or_ne c i with rfl | other
      · exact empty c due.1
      · exact empty c ((table c other).symm.trans zero)
    next =>
      cases taken
      exact ⟨histories, sound, empty, open_⟩
  exact histories_initDealCards kept.1 kept.2.1.noSecond dealt

theorem histories_insureHand {c seat : ℕ} {buy : Bool} (histories : s.Histories) (status : s.cbGameStatus = .insure)
    (bound : seat < 5) : (s.insureHand r c buy seat).Histories := by
  rw [insureHand]
  split
  next =>
    have others (i : ℕ) (other : i ≠ seat) : (s.setHand seat (s.hands seat).insured).hands i = s.hands i :=
      setHand_of_ne s other _
    have self : (s.setHand seat (s.hands seat).insured).hands seat = (s.hands seat).insured := setHand_self s seat _
    suffices kept : (s.setHand seat (s.hands seat).insured).Histories from kept.congr rfl rfl rfl
    refine ⟨fun i => ?_, fun open_ => ?_, fun open_ => by cases status.symm.trans open_⟩
    · rcases eq_or_ne i seat with rfl | other
      · cases histories.hands i with
        | undealt two out =>
          refine .undealt ?_ (out.imp id fun idle => ⟨idle.1, ?_⟩)
          · rw [self]
            exact two
          · rw [self]
            exact idle.2
        | dealt dealt late active =>
          have insured := dealt.withSlip { (s.hands i).toSlip with insurescore := (s.hands i).betscore / 2 }
          refine .dealt (by rw [self]; exact insured) late fun player => ?_
          rw [self]
          exact active player
        | final _ late _ _ => rcases late with late | late <;> cases status.symm.trans late
      · exact (histories.hands i).congr (others i other) Iff.rfl id
    · rw [BankerWaits, others 5 (by omega)]
      exact histories.banker open_
  next => exact histories.congr rfl rfl rfl

theorem histories_afterInsure (histories : s.Histories) (current : s.currentHand = some k)
    (status : s.cbGameStatus = .insure) : (s.afterInsure shoe).Histories := by
  have late (t : GameStatus) (known : t ≠ .bet) (i : ℕ) : ({ s with cbGameStatus := t } : Table).Evaluated i := by
    cases histories.hands i with
    | undealt two out => exact .undealt two (.inr (out.resolve_left (by rw [status]; decide)))
    | dealt dealt _ active => exact .dealt dealt known active
    | final _ late _ _ => rcases late with late | late <;> cases status.symm.trans late
  rw [afterInsure]
  split
  · split
    · refine ⟨fun i => (late .gameEnd (by decide) i).congr rfl Iff.rfl id, fun open_ => ?_, fun open_ => by cases open_⟩
      rcases open_ with open_ | open_ <;> cases open_
    · exact histories_startPlay (late .play (by decide)) (histories.banker (.inl status)) current
  · exact histories

theorem Sound.current (sound : Sound r s) (status : s.cbGameStatus = .insure) : ∃ k, s.currentHand = some k := by
  cases sound.phase with
  | insure _ _ turn => exact ⟨_, turn.current⟩
  | bet other | play other | played other | insured other => cases status.symm.trans other

theorem histories_onUserInsure {c : ℕ} {buy : Bool} {betSeat : ℤ} (histories : s.Histories) (sound : Sound r s)
    (status : s.cbGameStatus = .insure) (taken : s.onUserInsure r shoe c buy betSeat = some s') : s'.Histories := by
  obtain ⟨k, current⟩ := sound.current status
  rw [onUserInsure] at taken
  split at taken
  next => cases taken; exact histories
  next range =>
    split at taken
    next => cases taken
    next inside =>
      have bound : seatOf c betSeat < 5 := by
        rw [seatOf]
        split <;> omega
      split at taken
      next => cases taken; exact histories
      next =>
        cases taken
        have same : (s.insureHand r c buy (seatOf c betSeat)).currentHand = s.currentHand
            ∧ (s.insureHand r c buy (seatOf c betSeat)).cbGameStatus = s.cbGameStatus := by
          rw [insureHand]
          split <;> exact ⟨rfl, rfl⟩
        exact histories_afterInsure (histories_insureHand histories status bound) (same.1.trans current)
          (same.2.trans status)

theorem histories_onTimerInsure (histories : s.Histories) (sound : Sound r s)
    (taken : s.onTimerInsure r shoe = some s') : s'.Histories := by
  refine (Lib.foldlM_invariant (fun t => t.Histories ∧ Sound r t) ?_ taken ⟨histories, sound⟩).1
  rintro t i t' ⟨histories, sound⟩ taken
  split at taken
  next due =>
    split at taken
    all_goals exact ⟨histories_onUserInsure histories sound due.1 taken, sound_onUserInsure sound due.1 taken⟩
  next =>
    cases taken
    exact ⟨histories, sound⟩

/-! ## Operating a hand -/

/-- The hand in turn has its cards and may get more. -/
theorem Histories.turn (histories : s.Histories) (status : s.cbGameStatus = .play) (turn : s.Turn k) :
    (s.hands k).stopped = false ∧ ∃ cards, Dealt k cards (s.hands k) := by
  have going := histories.current status k turn.current
  refine ⟨going, ?_⟩
  cases histories.hands k with
  | undealt _ out =>
    rcases out with open_ | ⟨-, idle⟩
    · cases status.symm.trans open_
    · cases turn.active.symm.trans idle
  | dealt dealt _ _ => exact ⟨_, dealt⟩
  | final _ _ _ stopped => cases (stopped turn.player).symm.trans going

/-- The hand in turn has changed, and is evaluated as before or final. -/
theorem Histories.setHand {hand : Hand} (histories : s.Histories) (status : s.cbGameStatus = .play) (player : k ≠ 5)
    (evaluated : (s.setHand k hand).Evaluated k) :
    (∀ i, (s.setHand k hand).Evaluated i) ∧ (s.setHand k hand).BankerWaits := by
  constructor
  · intro i
    rcases eq_or_ne i k with rfl | other
    · exact evaluated
    · exact (histories.hands i).congr (setHand_of_ne s other hand) Iff.rfl id
  · rw [BankerWaits, setHand_of_ne s player.symm hand]
    exact histories.banker (.inr status)

theorem player_of_turn (sound : Sound r s) (turn : s.Turn k) : isbanker k = false := by
  have range := (sound.staked.owner k turn.active).1
  have player := turn.player
  simp only [isbanker, decide_eq_false_iff_not]
  omega

theorem histories_handleCall (histories : s.Histories) (status : s.cbGameStatus = .play) (turn : s.Turn k) :
    (s.handleCall shoe k).Histories := by
  obtain ⟨going, cards, dealt⟩ := histories.turn status turn
  have self : (s.setHand k (dealOne (s.hands k) shoe k)).hands k = dealOne (s.hands k) shoe k := setHand_self s k _
  have evaluated : (s.setHand k (dealOne (s.hands k) shoe k)).Evaluated k := by
    have more := dealt.add going (shoe.drawn 0)
    refine .dealt (by rw [self]; exact more) (by change s.cbGameStatus ≠ _; rw [status]; decide) fun _ => ?_
    rw [self]
    exact turn.active
  obtain ⟨hands, banker⟩ := histories.setHand status turn.player evaluated
  rw [handleCall]
  split
  next => exact histories_updateNext hands status banker
  next open_ =>
    refine ⟨hands, fun _ => banker, fun _ n current => ?_⟩
    obtain rfl : k = n := Option.some.inj (turn.current.symm.trans current)
    rw [self]
    exact Bool.eq_false_iff.mpr open_

theorem histories_handleStop (histories : s.Histories) (sound : Sound r s) (status : s.cbGameStatus = .play)
    (turn : s.Turn k) : (s.handleStop shoe k).Histories := by
  obtain ⟨going, cards, dealt⟩ := histories.turn status turn
  have evaluated : (s.setHand k (countAce { s.hands k with stopped := true })).Evaluated k := by
    have self := setHand_self s k (countAce { s.hands k with stopped := true })
    have final := Final.stop (player_of_turn sound turn) dealt going
    refine .final (by rw [self]; exact final) (.inl status) (fun _ => ?_) fun _ => ?_
    · rw [self]
      have slip := (countAce_keeps { s.hands k with stopped := true }).1
      exact (congrArg Slip.isactivated slip).trans turn.active
    · rw [self]
      exact (countAce_keeps_type { s.hands k with stopped := true }).2.2.2
  obtain ⟨hands, banker⟩ := histories.setHand status turn.player evaluated
  exact histories_updateNext hands status banker

theorem histories_handleDouble (histories : s.Histories) (sound : Sound r s) (status : s.cbGameStatus = .play)
    (turn : s.Turn k) : (s.handleDouble r shoe k).Histories := by
  obtain ⟨going, cards, dealt⟩ := histories.turn status turn
  rw [handleDouble]
  dsimp only
  split
  next => exact histories
  next =>
    let doubled : Hand := { s.hands k with stopped := true, doubled := true, betscore := (s.hands k).betscore * 2 }
    let charged := s.charge (s.hands k).userId (s.hands k).betscore
    have histories' : charged.Histories := histories.congr rfl rfl rfl
    have evaluated : (charged.setHand k (countAce (dealOne doubled shoe k))).Evaluated k := by
      have self := setHand_self charged k (countAce (dealOne doubled shoe k))
      have final := Final.double (player_of_turn sound turn) dealt going ((s.hands k).betscore * 2) (shoe.drawn 0)
      refine .final (by rw [self]; exact final) (.inl status) (fun _ => ?_) fun _ => ?_
      · rw [self]
        have slip := (countAce_keeps (dealOne doubled shoe k)).1
        exact (congrArg Slip.isactivated slip).trans turn.active
      · rw [self]
        have stopped : (dealOne doubled shoe k).stopped = true := by simp [dealOne, Hand.updateAddOne, doubled]
        exact (countAce_keeps_type (dealOne doubled shoe k)).2.2.2.trans stopped
    obtain ⟨hands, banker⟩ := histories'.setHand status turn.player evaluated
    exact histories_updateNext hands status banker

/-- Both halves of a split hand start again with two cards. -/
theorem histories_handleSplit (histories : s.Histories) (sound : Sound r s) (status : s.cbGameStatus = .play)
    (turn : s.Turn k) (can : (s.hands k).opercode &&& operSplit ≠ 0) : (s.handleSplit r shoe k).Histories := by
  obtain ⟨going, cards, dealt⟩ := histories.turn status turn
  have two := dealt.two_of_split can
  obtain ⟨range, whole⟩ := sound.staked.split k can
  have shut := sound.staked.whole k range whole
  have two' : (s.hands (k + 6)).cardcount = 2 := by
    cases histories.hands (k + 6) with
    | undealt two _ => exact two
    | dealt _ _ active => cases (active (by omega)).symm.trans shut
    | final _ _ active _ => cases (active (by omega)).symm.trans shut
  have player := turn.player
  rw [handleSplit]
  dsimp only
  split
  next => exact histories
  next =>
    generalize realChair s k = chair
    generalize (s.cbHandCardData k).1 = card₀
    generalize (s.cbHandCardData k).2 = card₁
    let first := ({ s.hands k with issplited := true } : Hand).updateInit k (card₀, shoe.drawn 0)
    let second := ({ s.hands (k + 6) with
      isactivated := true, betscore := (s.hands k).betscore, userId := (s.hands k).userId
      masterChair := some chair } : Hand).updateInit (k + 6) (card₁, shoe.drawn 1)
    generalize state : Table.setHand _ (k + 6) _ = s₂
    have hands : s₂.hands = ((s.setHand k first).setHand (k + 6) second).hands := by rw [← state]; rfl
    have status₂ : s₂.cbGameStatus = .play := by rw [← state]; exact status
    have current₂ : s₂.currentHand = some k := by rw [← state]; exact turn.current
    have self : s₂.hands k = first := by
      rw [hands, setHand_of_ne _ (show k ≠ k + 6 by omega), setHand_self]
    have evaluated (i : ℕ) : s₂.Evaluated i := by
      rcases eq_or_ne i (k + 6) with rfl | other
      · have here : s₂.hands (k + 6) = second := by rw [hands, setHand_self]
        have dealt' : Dealt (k + 6) [card₁, shoe.drawn 1] second := .init _ _ two'
        exact .dealt (by rw [here]; exact dealt') (by rw [status₂]; decide) fun _ => by rw [here]; rfl
      · rcases eq_or_ne i k with rfl | other'
        · have dealt' : Dealt i [card₀, shoe.drawn 0] first := .init _ _ two
          exact .dealt (by rw [self]; exact dealt') (by rw [status₂]; decide) fun _ => by rw [self]; exact turn.active
        · apply (histories.hands i).congr
          · rw [hands, setHand_of_ne _ other, setHand_of_ne _ other']
          · rw [status₂, status]
          · exact fun _ => .inl status₂
    have banker : s₂.BankerWaits := by
      rw [BankerWaits, hands, setHand_of_ne _ (show 5 ≠ k + 6 by omega), setHand_of_ne _ player.symm]
      exact histories.banker (.inr status)
    split
    next => exact histories_updateNext evaluated status₂ banker
    next open_ =>
      refine ⟨evaluated, fun _ => banker, fun _ n current => ?_⟩
      obtain rfl : k = n := Option.some.inj (current₂.symm.trans current)
      rw [self]
      exact Bool.eq_false_iff.mpr open_

end Table

open Table

variable {r : Round} {s s' : Table}

theorem histories_step (histories : s.Histories) (sound : Sound r s) {event : Event}
    (taken : step r s event = some s') : s'.Histories := by
  cases event with
  | message c msg shoe =>
    rw [step] at taken
    split at taken
    next plays =>
      cases msg with
      | addScore dScore dSeat =>
        rw [onGameMessage] at taken
        split at taken
        next status => exact histories_onUserAddScore histories (sound.noSecond status) status plays taken
        next => cases taken; exact histories
      | endScore => exact histories_onUserEndScore histories sound.noSecond taken
      | insure wBuy dSeat =>
        rw [onGameMessage] at taken
        split at taken
        next status => exact histories_onUserInsure histories sound status taken
        next => cases taken; exact histories
      | operate wOperCode =>
        rw [onGameMessage] at taken
        split at taken
        next due =>
          cases sound.phase with
          | @play status k turn =>
            rw [turn.current] at taken
            dsimp only at taken
            split at taken
            next => cases taken; exact histories
            next offered =>
              cases taken
              rw [onUserOperate]
              split_ifs with call double split stop
              · exact histories_handleCall histories status turn
              · exact histories_handleDouble histories sound status turn
              · rw [split, Nat.and_comm] at offered
                exact histories_handleSplit histories sound status turn offered
              · exact histories_handleStop histories sound status turn
              · exact histories
          | bet other | insure other | played other | insured other => cases due.1.symm.trans other
        next => cases taken; exact histories
    next => cases taken; exact histories
  | timerAddScore shoe =>
    rw [step] at taken
    split at taken
    next status => exact histories_onTimerAddScore histories sound status taken
    next => cases taken
  | timerInsure shoe =>
    rw [step] at taken
    split at taken
    next => exact histories_onTimerInsure histories sound taken
    next => cases taken
  | timerOperate shoe =>
    rw [step] at taken
    split at taken
    next k current =>
      split at taken
      next status =>
        cases taken
        cases sound.phase with
        | play _ turn =>
          obtain rfl := Option.some.inj (current.symm.trans turn.current)
          exact histories_handleStop histories sound status turn
        | bet other | insure other | played other | insured other => cases status.symm.trans other
      next => cases taken
    next => cases taken

/-- In every state of every round the hands have come by their cards as they should. -/
theorem histories_of_run {events : List Event} (run : Lib.Run (step r) (fun _ _ => True) r.opened events s) :
    s.Histories := by
  have start : r.opened.Histories := by
    refine ⟨fun i => .undealt ?_ (.inl rfl), fun open_ => ?_, fun open_ => by cases open_⟩
    · simp only [Round.opened]
      split <;> rfl
    · rcases open_ with open_ | open_ <;> cases open_
  have keep : ∀ s event s', Sound r s ∧ s.Histories → True → step r s event = some s' → Sound r s' ∧ s'.Histories :=
    fun _ _ _ before _ taken => ⟨(sound_step before.1 taken).1, histories_step before.2 before.1 taken⟩
  exact (run.invariant keep ⟨sound_opened r, start⟩).2

/-- The evaluation is exact along every history of a hand, for the banker up to the card with which he stops, and the
hands of every round have such histories. -/
theorem evaluation_exact (r : Round) :
    (∀ index cards hand, Dealt index cards hand → Exact index cards hand)
    ∧ (∀ index cards hand, Final index cards hand → ExactFinal index cards hand)
    ∧ (∀ index cards hand, isbanker index = true → Drawn index cards hand →
      (hand.draws ↔ Continues cards) ∧ ∀ n, 2 ≤ n → n < cards.length → Continues (cards.take n))
    ∧ ∀ events s, Lib.Run (step r) (fun _ _ => True) r.opened events s → ∀ i, s.Evaluated i := by
  refine ⟨fun index cards hand dealt => dealt.counted.exact, fun index cards hand final => final.exact, ?_, ?_⟩
  · intro index cards hand banker drawn
    exact ⟨drawn.dealt.counted.draws_iff banker, drawn.continues banker⟩
  · exact fun events s run => (histories_of_run run).hands

/-- An ace and a king in the second half of a split hand: 21 points, but no blackjack. -/
theorem evaluation_exact_split :
    ExactFinal 6 [0x01, 0x1D] (countAce { ({} : Hand).updateInit 6 (0x01, 0x1D) with stopped := true })
      ∧ (countAce { ({} : Hand).updateInit 6 (0x01, 0x1D) with stopped := true }).cardpoint = 21 := by
  have dealt : Dealt 6 [0x01, 0x1D] (({} : Hand).updateInit 6 (0x01, 0x1D)) := .init 0x01 0x1D rfl
  exact ⟨(evaluation_exact twoPlayers).2.1 6 _ _ (.stop rfl dealt rfl), rfl⟩

end H5Server.Hjk
