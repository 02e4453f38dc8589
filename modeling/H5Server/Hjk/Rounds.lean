import H5Server.Hjk.StakeHandlers

/-! # Whole rounds

Every message and every timer keeps the books and the phase. The bets of a user grow only by what he
sends himself, or by his own time-out, unless somebody insures a hand of his.
-/

namespace H5Server.Hjk

namespace Table

variable {r : Round} {s s' : Table}

/-- The books are kept and the phase is right. -/
structure Sound (r : Round) (s : Table) : Prop where
  staked : Staked r s
  phase : s.Phase

/-- No seated user has bet more than he came with. -/
def Covered (r : Round) (s : Table) : Prop :=
  ∀ c, r.bPlayStatus c = true → s.wUserBets (r.dwPlayUserID c) ≤ r.llUserSourceScore (r.dwPlayUserID c)

/-- A step on which only the users `who` pay, and within their means. -/
structure Paid (r : Round) (who : Nat → Prop) (s s' : Table) : Prop where
  covered : Covered r s → Covered r s'
  only : ∀ c, r.bPlayStatus c = true →
    s.wUserBets (r.dwPlayUserID c) < s'.wUserBets (r.dwPlayUserID c) → who c

variable {who : Nat → Prop}

theorem Paid.of_bets (same : s'.wUserBets = s.wUserBets) : Paid r who s s' where
  covered before c plays := (congrFun same _).trans_le (before c plays)
  only _ _ grown := absurd (congrFun same _) grown.ne'

theorem Paid.trans {s₁ s₂ s₃ : Table} (first : Paid r who s₁ s₂) (second : Paid r who s₂ s₃) : Paid r who s₁ s₃ where
  covered before := second.covered (first.covered before)
  only c plays grown := by
    rcases lt_or_ge (s₁.wUserBets (r.dwPlayUserID c)) (s₂.wUserBets (r.dwPlayUserID c)) with early | late
    · exact first.only c plays early
    · exact second.only c plays (late.trans_lt grown)

theorem Paid.frame {s₂ : Table} (paid : Paid r who s s₂) (frame : Frame s₂ s') : Paid r who s s' :=
  paid.trans (.of_bets frame.bets)

theorem Pays.paid {c : Nat} (pays : Pays r s s' c) (plays : r.bPlayStatus c = true) (acts : who c) : Paid r who s s' where
  covered before d there := by
    rcases eq_or_ne (r.dwPlayUserID d) (r.dwPlayUserID c) with same | other
    · rw [same]
      exact pays.covered (before c plays)
    · rw [pays.others _ other]
      exact before d there
  only d there grown := by
    rcases eq_or_ne (r.dwPlayUserID d) (r.dwPlayUserID c) with same | other
    · rw [r.distinct d c there plays same]
      exact acts
    · exact absurd (pays.others _ other) grown.ne'

variable (who)

/-! ## Bets -/

theorem initDealCards_idle {shoe : Shoe} (status : s.cbGameStatus ≠ .bet) : s.initDealCards shoe = some s := if_pos status

theorem sound_initDealCards {shoe : Shoe} (sound : Sound r s) (dealt : s.initDealCards shoe = some s') :
    Sound r s' ∧ Paid r who s s' := by
  have frame := frame_initDealCards dealt
  refine ⟨⟨sound.staked.frame frame, ?_⟩, .of_bets frame.bets⟩
  cases sound.phase with
  | bet status unsplit => exact phase_initDealCards sound.staked unsplit status dealt
  | insure status | play status | played status | insured status =>
    rw [initDealCards_idle (by rw [status]; decide)] at dealt
    cases dealt
    exact sound.phase

/-- An accepted bet leaves the round in its betting phase. -/
private theorem phase_placeBet {c : Nat} {betSeat score : Int} (unsplit : s.Unsplit) (status : s.cbGameStatus = .bet)
    (bound : seatOf c betSeat < 6) : (s.placeBet r c betSeat score).Phase := by
  refine .bet status fun i range => ?_
  have far : i + 6 ≠ seatOf c betSeat := by omega
  exact (congrArg (fun hand : Hand => hand.isactivated) (setHand_of_ne s far _) :).trans (unsplit i range)

theorem sound_onUserAddScore {shoe : Shoe} {c : Nat} {lScore betSeat : Int} (sound : Sound r s)
    (status : s.cbGameStatus = .bet) (plays : r.bPlayStatus c = true) (acts : who c)
    (taken : s.onUserAddScore r shoe c lScore betSeat = some s') : Sound r s' ∧ Paid r who s s' := by
  have unsplit : s.Unsplit := by
    cases sound.phase with
    | bet _ unsplit => exact unsplit
    | insure other | play other | played other | insured other => cases status.symm.trans other
  rw [onUserAddScore] at taken
  split at taken
  next =>
    cases taken
    exact ⟨sound, .of_bets rfl⟩
  next accepted =>
    obtain ⟨staked, pays⟩ := staked_placeBet sound.staked plays accepted
    have placed : Sound r (s.placeBet r c betSeat (min lScore r.ceilScore)) :=
      ⟨staked, phase_placeBet unsplit status (seat_of_accepted plays accepted).1⟩
    dsimp only at taken
    split at taken
    · obtain ⟨dealt, paid⟩ := sound_initDealCards who placed taken
      exact ⟨dealt, (pays.paid plays acts).trans paid⟩
    · cases taken
      exact ⟨placed, pays.paid plays acts⟩

theorem sound_onUserEndScore {shoe : Shoe} {c : Nat} (sound : Sound r s)
    (taken : s.onUserEndScore r shoe c = some s') : Sound r s' ∧ Paid r who s s' := by
  rw [onUserEndScore] at taken
  split at taken
  next =>
    cases taken
    exact ⟨sound, .of_bets rfl⟩
  next accepted =>
    rw [not_or, not_not] at accepted
    have settled : Sound r { s with bSettled := Function.update s.bSettled c true } := by
      refine ⟨sound.staked.frame (.of_hands rfl rfl rfl rfl), ?_⟩
      cases sound.phase with
      | bet status unsplit => exact .bet status unsplit
      | insure other | play other | played other | insured other => cases accepted.1.symm.trans other
    dsimp only at taken
    split at taken
    · obtain ⟨dealt, paid⟩ := sound_initDealCards who settled taken
      have same : Paid r who s { s with bSettled := Function.update s.bSettled c true } := .of_bets rfl
      exact ⟨dealt, same.trans paid⟩
    · cases taken
      exact ⟨settled, .of_bets rfl⟩

/-- A bet on the own seat leaves the other tables, and ends the betting only when all are staked. -/
theorem table_onUserAddScore {shoe : Shoe} {c : Nat} {lScore : Int} (status : s.cbGameStatus = .bet)
    (taken : s.onUserAddScore r shoe c lScore (-1) = some s') :
    (∀ i, i ≠ c → s'.lTableScore i = s.lTableScore i) ∧ (s'.cbGameStatus = .bet ∨ s'.AllBeted) := by
  have seat : seatOf c (-1) = c := if_pos rfl
  rw [onUserAddScore] at taken
  split at taken
  next => cases taken; exact ⟨fun _ _ => rfl, .inl status⟩
  next =>
    have placed : ∀ i, i ≠ c → (s.placeBet r c (-1) (min lScore r.ceilScore)).lTableScore i = s.lTableScore i := by
      intro i other
      change Function.update s.lTableScore (seatOf c (-1)) _ i = _
      rw [seat, Function.update_of_ne other]
    dsimp only at taken
    split at taken
    next all =>
      have table := (frame_initDealCards taken).table
      refine ⟨fun i other => (congrFun table i).trans (placed i other), .inr fun i bound => ?_⟩
      rw [table]
      exact all i bound
    next =>
      cases taken
      exact ⟨placed, .inl status⟩

/-- Only those who had not staked pay the cell score at the time-out. -/
theorem sound_onTimerAddScore {shoe : Shoe} (sound : Sound r s) (status : s.cbGameStatus = .bet)
    (taken : s.onTimerAddScore r shoe = some s') : Sound r s' ∧ Paid r (fun c => s.lTableScore c = 0) s s' := by
  rw [onTimerAddScore] at taken
  obtain ⟨middle, loop, dealt⟩ := Option.bind_eq_some_iff.mp taken
  let Inv (t : Table) : Prop := (Sound r t ∧ Paid r (fun c => s.lTableScore c = 0) s t) ∧
    (∀ c, t.lTableScore c = 0 → s.lTableScore c = 0) ∧ (t.cbGameStatus = .bet ∨ t.AllBeted)
  have kept : Inv middle := by
    refine Lib.foldlM_invariant Inv ?_ loop (show Inv s from ⟨⟨sound, .of_bets rfl⟩, fun _ => id, .inl status⟩)
    rintro t i t' ⟨⟨sound, paid⟩, empty, open_⟩ taken
    split at taken
    next due =>
      have betting : t.cbGameStatus = .bet := open_.resolve_right fun all => all i (r.chairs i due.2) due.1
      obtain ⟨sound', paid'⟩ := sound_onUserAddScore (fun c => s.lTableScore c = 0) sound betting due.2
        (empty i due.1) taken
      obtain ⟨table, open'⟩ := table_onUserAddScore betting taken
      refine ⟨⟨sound', paid.trans paid'⟩, fun c zero => ?_, open'⟩
      rcases eq_or_ne c i with rfl | other
      · exact empty c due.1
      · exact empty c ((table c other).symm.trans zero)
    next =>
      cases taken
      exact ⟨⟨sound, paid⟩, empty, open_⟩
  obtain ⟨⟨sound', paid⟩, -⟩ := kept
  obtain ⟨dealt', paid'⟩ := sound_initDealCards (fun c => s.lTableScore c = 0) sound' dealt
  exact ⟨dealt', paid.trans paid'⟩

/-! ## Insurance -/

/-- A choice of insurance leaves the turn and the banker's cards. -/
private theorem phase_insureHand (r : Round) (c : Nat) (buy : Bool) {seat : Nat} (bound : seat < 5) :
    (s.insureHand r c buy seat).cbGameStatus = s.cbGameStatus ∧
    (∀ i, ((s.insureHand r c buy seat).hands i).isactivated = (s.hands i).isactivated) ∧
    (∀ i, (s.insureHand r c buy seat).master i = s.master i) ∧
    (s.insureHand r c buy seat).currentHand = s.currentHand ∧
    (s.insureHand r c buy seat).wCurrentUser = s.wCurrentUser ∧
    (s.insureHand r c buy seat).cbHandCardData = s.cbHandCardData ∧
    (s.insureHand r c buy seat).hands 5 = s.hands 5 := by
  rw [insureHand]
  split
  next =>
    have hands : ∀ i, i ≠ seat → (((s.setHand seat (s.hands seat).insured).charge (s.hands seat).userId
        ((s.hands seat).betscore / 2 : Nat)).setInsure seat 1).hands i = s.hands i := fun i other => setHand_of_ne s other _
    have self : (((s.setHand seat (s.hands seat).insured).charge (s.hands seat).userId
        ((s.hands seat).betscore / 2 : Nat)).setInsure seat 1).hands seat = (s.hands seat).insured := setHand_self ..
    refine ⟨rfl, fun i => ?_, fun i => ?_, rfl, rfl, rfl, hands 5 (by omega)⟩
    · rcases eq_or_ne i seat with rfl | other
      · rw [self]; rfl
      · rw [hands i other]
    · rcases eq_or_ne i seat with rfl | other
      · rw [master, self]; rfl
      · rw [master, hands i other, master]
  next => exact ⟨rfl, fun _ => rfl, fun _ => rfl, rfl, rfl, rfl, rfl⟩

theorem frame_afterInsure (shoe : Shoe) : Frame s (s.afterInsure shoe) := by
  rw [afterInsure]
  split
  · split
    · exact frame_conclude 2
    · exact frame_startPlay shoe
  · exact .refl s

/-- Once everybody has chosen, the round ends with the banker's blackjack or is played. -/
theorem sound_afterInsure (shoe : Shoe) (sound : Sound r s) (status : s.cbGameStatus = .insure) :
    Sound r (s.afterInsure shoe) := by
  refine ⟨sound.staked.frame (frame_afterInsure shoe), ?_⟩
  rw [afterInsure]
  split
  · cases sound.phase with
    | insure _ unsplit turn banker =>
      split
      next blackjack => exact .insured rfl rfl unsplit (banker blackjack.2)
      next => exact phase_startPlay shoe turn
    | bet other | play other | played other | insured other => cases status.symm.trans other
  · exact sound.phase

theorem sound_onUserInsure {shoe : Shoe} {c : Nat} {buy : Bool} {betSeat : Int} (sound : Sound r s)
    (status : s.cbGameStatus = .insure) (taken : s.onUserInsure r shoe c buy betSeat = some s') : Sound r s' := by
  rw [onUserInsure] at taken
  split at taken
  next => cases taken; exact sound
  next range =>
    split at taken
    next => cases taken
    next inside =>
      have bound : seatOf c betSeat < 5 := by
        rw [seatOf]
        split <;> omega
      split at taken
      next => cases taken; exact sound
      next fresh =>
        cases taken
        obtain ⟨same, active, master, current, user, cards, banker⟩ :=
          phase_insureHand (s := s) r c buy bound
        have chosen : Sound r (s.insureHand r c buy (seatOf c betSeat)) := by
          refine ⟨staked_insureHand sound.staked buy bound (not_not.mp fresh), ?_⟩
          cases sound.phase with
          | insure _ unsplit turn blackjack =>
            refine .insure (same.trans status) (fun i range => (active _).trans (unsplit i range))
              ⟨current.trans turn.current, turn.player, (active _).trans turn.active, ?_⟩ fun ten => ?_
            · rw [user, master, turn.user]
            · rw [cards] at ten
              rw [banker]
              exact blackjack ten
          | bet other | play other | played other | insured other => cases status.symm.trans other
        exact sound_afterInsure shoe chosen (same.trans status)

/-- The sender pays, if what he insures is his own. -/
theorem paid_onUserInsure {shoe : Shoe} {c : Nat} {buy : Bool} {betSeat : Int} (staked : Staked r s)
    (plays : r.bPlayStatus c = true) (acts : who c)
    (own : buy = true → s.lUserInsure (seatOf c betSeat) = 0 → 0 < (s.hands (seatOf c betSeat)).betscore / 2 →
      ((s.hands (seatOf c betSeat)).betscore / 2 : Nat) ≤ s.getCurrentUserScore r c →
      (s.hands (seatOf c betSeat)).userId = r.dwPlayUserID c)
    (taken : s.onUserInsure r shoe c buy betSeat = some s') : Paid r who s s' := by
  rw [onUserInsure] at taken
  split at taken
  next => cases taken; exact .of_bets rfl
  next =>
    split at taken
    next => cases taken
    next =>
      split at taken
      next => cases taken; exact .of_bets rfl
      next fresh =>
        cases taken
        have pays : Pays r s (s.insureHand r c buy (seatOf c betSeat)) c := by
          refine pays_insureHand staked plays fun bought enough => ?_
          rcases Nat.eq_zero_or_pos ((s.hands (seatOf c betSeat)).betscore / 2) with nothing | something
          · exact .inr nothing
          · exact .inl (own bought (not_not.mp fresh) something enough)
        exact (pays.paid plays acts).frame (frame_afterInsure shoe)

/-- Nobody pays at the time-out of the insurance. -/
theorem sound_onTimerInsure {shoe : Shoe} (sound : Sound r s) (taken : s.onTimerInsure r shoe = some s') :
    Sound r s' ∧ Paid r who s s' := by
  have refusal : ∀ {t t' : Table} {c : Nat} {betSeat : Int}, Sound r t → t.cbGameStatus = .insure →
      t.onUserInsure r shoe c false betSeat = some t' → Sound r t' ∧ Paid r who t t' := by
    intro t t' c betSeat sound status taken
    refine ⟨sound_onUserInsure sound status taken, ?_⟩
    rw [onUserInsure] at taken
    split at taken
    next => cases taken; exact .of_bets rfl
    next =>
      split at taken
      next => cases taken
      next =>
        split at taken
        next => cases taken; exact .of_bets rfl
        next =>
          cases taken
          have kept : Paid r who t (t.insureHand r c false (seatOf c betSeat)) := .of_bets rfl
          exact kept.frame (frame_afterInsure shoe)
  refine Lib.foldlM_invariant (fun t => Sound r t ∧ Paid r who s t) ?_ taken ⟨sound, .of_bets rfl⟩
  rintro t i t' ⟨sound, paid⟩ taken
  split at taken
  next due =>
    split at taken
    all_goals
      obtain ⟨sound', paid'⟩ := refusal sound due.1 taken
      exact ⟨sound', paid.trans paid'⟩
  next =>
    cases taken
    exact ⟨sound, paid⟩

/-! ## Operating a hand -/

section Operate

variable {k : Nat}

/-- A new card or a stop, without a stake. -/
private theorem frame_operate (hand : Hand) (slip : hand.toSlip = (s.hands k).toSlip)
    (issplited : hand.issplited = (s.hands k).issplited)
    (split : hand.opercode &&& operSplit ≠ 0 → (s.hands k).opercode &&& operSplit ≠ 0) (turn : s.Turn k) :
    Frame s (s.setHand k hand) ∧ (s.setHand k hand).Turn k := by
  have frame := Frame.setHand slip issplited split
  exact ⟨frame, turn.congr frame rfl rfl⟩

theorem sound_handleCall (sound : Sound r s) (status : s.cbGameStatus = .play) (turn : s.Turn k) (shoe : Shoe) :
    Sound r (s.handleCall shoe k) ∧ Paid r who s (s.handleCall shoe k) := by
  obtain ⟨frame, turn'⟩ := frame_operate (dealOne (s.hands k) shoe k) rfl rfl
    (fun can => absurd (updateAddOne_split ..) can) turn
  rw [handleCall]
  split
  · have next := frame.trans (frame_updateNext shoe)
    exact ⟨⟨sound.staked.frame next, phase_updateNext shoe status⟩, .of_bets next.bets⟩
  · exact ⟨⟨sound.staked.frame frame, .play status turn'⟩, .of_bets frame.bets⟩

theorem sound_handleStop (sound : Sound r s) (status : s.cbGameStatus = .play) (turn : s.Turn k) (shoe : Shoe) :
    Sound r (s.handleStop shoe k) ∧ Paid r who s (s.handleStop shoe k) := by
  obtain ⟨slip, issplited, opercode⟩ := countAce_keeps { s.hands k with stopped := true }
  have frame := (frame_operate (countAce { s.hands k with stopped := true }) slip issplited
    (fun can => opercode ▸ can) turn).1.trans (frame_updateNext shoe)
  exact ⟨⟨sound.staked.frame frame, phase_updateNext shoe status⟩, .of_bets frame.bets⟩

theorem sound_handleDouble (sound : Sound r s) (status : s.cbGameStatus = .play) (turn : s.Turn k)
    (acts : who s.wCurrentUser) (shoe : Shoe) :
    Sound r (s.handleDouble r shoe k) ∧ Paid r who s (s.handleDouble r shoe k) := by
  obtain ⟨staked, pays⟩ := staked_handleDouble sound.staked turn shoe
  refine ⟨⟨staked, ?_⟩, pays.paid (turn_user sound.staked turn).1 acts⟩
  rw [handleDouble]
  dsimp only
  split
  · exact sound.phase
  · exact phase_updateNext shoe status

theorem sound_handleSplit (sound : Sound r s) (status : s.cbGameStatus = .play) (turn : s.Turn k)
    (can : (s.hands k).opercode &&& operSplit ≠ 0) (acts : who s.wCurrentUser) (shoe : Shoe) :
    Sound r (s.handleSplit r shoe k) ∧ Paid r who s (s.handleSplit r shoe k) := by
  obtain ⟨staked, pays⟩ := staked_handleSplit sound.staked turn shoe can
  refine ⟨⟨staked, ?_⟩, pays.paid (turn_user sound.staked turn).1 acts⟩
  rw [handleSplit]
  dsimp only
  split
  · exact sound.phase
  · split
    · exact phase_updateNext shoe status
    · refine .play status ⟨turn.current, turn.player, ?_, ?_⟩
      · rw [setHand_of_ne _ (show k ≠ k + 6 by omega), setHand_self]
        exact turn.active
      · rw [master, setHand_of_ne _ (show k ≠ k + 6 by omega), setHand_self]
        exact turn.user

/-- An operation is carried out only if its code is offered. -/
theorem sound_onUserOperate (sound : Sound r s) (status : s.cbGameStatus = .play) (turn : s.Turn k)
    (acts : who s.wCurrentUser) {wOperCode : Nat} (offered : wOperCode &&& (s.hands k).opercode ≠ 0) (shoe : Shoe) :
    Sound r (s.onUserOperate r shoe k wOperCode) ∧ Paid r who s (s.onUserOperate r shoe k wOperCode) := by
  rw [onUserOperate]
  split_ifs with call double split stop
  · exact sound_handleCall who sound status turn shoe
  · exact sound_handleDouble who sound status turn acts shoe
  · rw [split, Nat.and_comm] at offered
    exact sound_handleSplit who sound status turn offered acts shoe
  · exact sound_handleStop who sound status turn shoe
  · exact ⟨sound, .of_bets rfl⟩

end Operate

end Table

open Table

variable {r : Round} {s s' : Table}

/-- Insurance is bought by the user of the hand. -/
def OwnInsurance (r : Round) (s : Table) : Event → Prop
  | .message c (.insure true dSeat) _ =>
    s.cbGameStatus = .insure → s.lUserInsure (seatOf c dSeat) = 0 → 0 < (s.hands (seatOf c dSeat)).betscore / 2 →
      ((s.hands (seatOf c dSeat)).betscore / 2 : Nat) ≤ s.getCurrentUserScore r c →
      (s.hands (seatOf c dSeat)).userId = r.dwPlayUserID c
  | _ => True

/-- The chairs an event acts for: the sender's, or those whose time to bet has run out. -/
def Acts (s : Table) : Event → Nat → Prop
  | .message c _ _, chair => chair = c
  | .timerAddScore _, chair => s.lTableScore chair = 0
  | _, _ => False

theorem sound_step (sound : Sound r s) {event : Event} (taken : step r s event = some s') :
    Sound r s' ∧ (OwnInsurance r s event → Paid r (Acts s event) s s') := by
  cases event with
  | message c msg shoe =>
    rw [step] at taken
    split at taken
    next plays =>
      cases msg with
      | addScore dScore dSeat =>
        rw [onGameMessage] at taken
        split at taken
        next status =>
          obtain ⟨sound', paid⟩ := sound_onUserAddScore (Acts s (.message c (.addScore dScore dSeat) shoe))
            sound status plays rfl taken
          exact ⟨sound', fun _ => paid⟩
        next => cases taken; exact ⟨sound, fun _ => .of_bets rfl⟩
      | endScore =>
        obtain ⟨sound', paid⟩ := sound_onUserEndScore (Acts s (.message c .endScore shoe)) sound taken
        exact ⟨sound', fun _ => paid⟩
      | insure wBuy dSeat =>
        rw [onGameMessage] at taken
        split at taken
        next status =>
          refine ⟨sound_onUserInsure sound status taken, fun own => ?_⟩
          refine paid_onUserInsure (Acts s (.message c (.insure wBuy dSeat) shoe)) sound.staked plays rfl ?_ taken
          rintro rfl
          exact own status
        next => cases taken; exact ⟨sound, fun _ => .of_bets rfl⟩
      | operate wOperCode =>
        rw [onGameMessage] at taken
        split at taken
        next due =>
          obtain ⟨status, user⟩ := due
          cases sound.phase with
          | play _ turn =>
            rw [turn.current] at taken
            dsimp only at taken
            split at taken
            next => cases taken; exact ⟨sound, fun _ => .of_bets rfl⟩
            next offered =>
              cases taken
              obtain ⟨sound', paid⟩ := sound_onUserOperate (Acts s (.message c (.operate wOperCode) shoe))
                sound status turn user offered shoe
              exact ⟨sound', fun _ => paid⟩
          | bet other | insure other | played other | insured other => cases status.symm.trans other
        next => cases taken; exact ⟨sound, fun _ => .of_bets rfl⟩
    next => cases taken; exact ⟨sound, fun _ => .of_bets rfl⟩
  | timerAddScore shoe =>
    rw [step] at taken
    split at taken
    next status =>
      obtain ⟨sound', paid⟩ := sound_onTimerAddScore sound status taken
      exact ⟨sound', fun _ => paid⟩
    next => cases taken
  | timerInsure shoe =>
    rw [step] at taken
    split at taken
    next =>
      obtain ⟨sound', paid⟩ := sound_onTimerInsure (Acts s (.timerInsure shoe)) sound taken
      exact ⟨sound', fun _ => paid⟩
    next => cases taken
  | timerOperate shoe =>
    rw [step] at taken
    split at taken
    next k current =>
      split at taken
      next status =>
        cases taken
        cases sound.phase with
        | play _ turn =>
          obtain rfl := Option.some.inj (current.symm.trans turn.current)
          obtain ⟨sound', paid⟩ := sound_handleStop (Acts s (.timerOperate shoe)) sound status turn shoe
          exact ⟨sound', fun _ => paid⟩
        | bet other | insure other | played other | insured other => cases status.symm.trans other
      next => cases taken
    next => cases taken

/-! ## Runs -/

theorem sound_opened (r : Round) : Sound r r.opened := by
  have idle : ∀ i, (r.opened.hands i).isactivated = false := fun i => by
    simp only [Round.opened]
    split <;> rfl
  have field : ∀ {α : Type} (f : Hand → α) i, f { userId := r.dwPlayUserID i } = f {} → f (r.opened.hands i) = f {} := by
    intro α f i same
    simp only [Round.opened]
    split
    · exact same
    · rfl
  refine ⟨⟨fun c plays => ?_, fun i _ empty _ => ?_, fun i active => ?_, fun i _ => ?_, fun i _ active => ?_,
    fun i nonzero => absurd rfl nonzero, fun i _ => field (fun hand => hand.insurescore) i rfl, fun _ _ => rfl, fun i can => ?_,
    fun i _ _ => idle _, field (fun hand => hand.issplited) 5 rfl, fun u => ?_⟩, .bet rfl fun i _ => idle _⟩
  · have seat := r.chairs c plays
    constructor
    · simp only [Round.opened, plays, ↓reduceIte]
    · rw [master, field (fun hand => hand.masterChair) c rfl]
      exact Nat.mod_eq_of_lt (by omega)
  · simp only [Round.opened, empty, Bool.false_eq_true, ↓reduceIte]
  · exact absurd active (by rw [idle]; decide)
  · exact ⟨field (fun hand => hand.betscore) i rfl, field (fun hand => hand.insurescore) i rfl⟩
  · exact absurd active (by rw [idle]; decide)
  · exact absurd (field (fun hand => hand.opercode &&& operSplit) i rfl) can
  · apply Finset.sum_eq_zero
    intro i _
    rw [Slip.stakeOf, idle]
    rfl

/-- The books are kept in every state of every round. -/
theorem sound_of_run {ok : Table → Event → Prop} {events : List Event}
    (run : Lib.Run (step r) ok r.opened events s) : Sound r s :=
  run.invariant (fun _ _ _ sound _ taken => (sound_step sound taken).1) (sound_opened r)

/-- Where everybody insures his own hands, nobody bets more than he came with. -/
theorem covered_of_run {events : List Event} (run : Lib.Run (step r) (OwnInsurance r) r.opened events s) :
    Covered r s := by
  have keep : ∀ s event s', Sound r s ∧ Covered r s → OwnInsurance r s event → step r s event = some s' →
      Sound r s' ∧ Covered r s' := fun _ _ _ before own taken => by
    obtain ⟨sound, paid⟩ := sound_step before.1 taken
    exact ⟨sound, (paid own).covered before.2⟩
  exact (run.invariant keep ⟨sound_opened r, r.solvent⟩).2

end H5Server.Hjk
