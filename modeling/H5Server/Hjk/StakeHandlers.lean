import H5Server.Hjk.Stakes

/-! # The four ways to stake

A bet, an insurance, a double and a split put money on one hand and charge the user of that hand. The
sender pays in all of them but the insurance, where the hand may be somebody else's.
-/

namespace H5Server.Hjk

namespace Table

variable {r : Round} {s s' : Table}

@[simp] theorem charge_hands (s : Table) (u score : Int) : (s.charge u score).hands = s.hands := rfl

@[simp] theorem setHand_wUserBets (s : Table) (index : Nat) (hand : Hand) :
    (s.setHand index hand).wUserBets = s.wUserBets := rfl

@[simp] theorem stake_charge (s : Table) (u v score : Int) : (s.charge u score).stake v = s.stake v := rfl

theorem charge_wUserBets (s : Table) (u v score : Int) :
    (s.charge u score).wUserBets v = s.wUserBets v + if v = u then score else 0 := by
  simp only [charge, Function.update_apply]
  split
  next same => rw [same]
  next => exact (add_zero _).symm

/-- Nobody but one player pays, and he pays no more than he has. -/
structure Pays (r : Round) (s s' : Table) (c : Nat) : Prop where
  others : ∀ u, u ≠ r.dwPlayUserID c → s'.wUserBets u = s.wUserBets u
  covered : s.wUserBets (r.dwPlayUserID c) ≤ r.llUserSourceScore (r.dwPlayUserID c) →
    s'.wUserBets (r.dwPlayUserID c) ≤ r.llUserSourceScore (r.dwPlayUserID c)

theorem Pays.of_bets (c : Nat) (same : s'.wUserBets = s.wUserBets) : Pays r s s' c where
  others _ _ := congrFun same _
  covered before := (congrFun same _).trans_le before

theorem Pays.frame {c : Nat} {s₂ : Table} (pays : Pays r s s₂ c) (frame : Frame s₂ s') : Pays r s s' c where
  others u other := (congrFun frame.bets u).trans (pays.others u other)
  covered before := (congrFun frame.bets _).trans_le (pays.covered before)

/-- A charge that the player's rest covers. -/
theorem pays_charge (staked : Staked r s) {c : Nat} (plays : r.bPlayStatus c = true) {score : Int}
    (enough : score ≤ s.getCurrentUserScore r c) (hands : Table)
    (bets : hands.wUserBets = (s.charge (r.dwPlayUserID c) score).wUserBets) : Pays r s hands c where
  others u other := by rw [bets, charge_wUserBets, if_neg other, add_zero]
  covered before := by
    have seat := r.chairs c plays
    rw [getCurrentUserScore, if_pos ⟨by omega, by omega⟩, (staked.own c plays).1] at enough
    rw [bets, charge_wUserBets, if_pos rfl]
    omega

/-! ## One hand is staked -/

/-- The new hand at one place of the table, and whose money lies on it. -/
structure Puts (r : Round) (s : Table) (k c : Nat) (hand : Hand) (score : Int) : Prop where
  bound : k < 11
  plays : r.bPlayStatus c = true
  user : hand.userId = r.dwPlayUserID c
  master : hand.masterChair.getD (k % 6) = c
  active : hand.isactivated = true
  main : c ≠ k → (s.hands c).isactivated = true
  seat : r.bPlayStatus k = true → k = c
  before : (s.hands k).isactivated = true → (s.hands k).userId = r.dwPlayUserID c ∧ s.master k = c
  half : ∀ i, k = i + 6 → (s.hands i).isactivated = true ∧ s.master i = c ∧ (s.hands i).issplited = true
  split : hand.opercode &&& operSplit ≠ 0 → k < 6 ∧ hand.issplited = false
  whole : hand.issplited = false → (s.hands k).issplited = false
  banker : k = 5 → hand.issplited = false
  amount : (hand.betscore + hand.insurescore : Int) = (s.hands k).betscore + (s.hands k).insurescore + score

/-- Putting money on a hand and charging its user keeps the books. -/
theorem Staked.put (staked : Staked r s) (s' : Table) {k c : Nat} {hand : Hand} {score : Int} (puts : Puts r s k c hand score)
    (hands : s'.hands = (s.setHand k hand).hands) (bets : s'.wUserBets = (s.charge (r.dwPlayUserID c) score).wUserBets)
    (table : ∀ i, i ≠ k → s'.lTableScore i ≠ 0 → s.lTableScore i ≠ 0)
    (insured : ∀ i, s'.lUserInsure i = 0 → (s'.hands i).insurescore = 0)
    (seats : ∀ i, 5 ≤ i → s'.lUserInsure i = 0) : Staked r s' := by
  have at_k : s'.hands k = hand := by rw [hands, setHand_self]
  have at_ne : ∀ i, i ≠ k → s'.hands i = s.hands i := fun i other => by rw [hands, setHand_of_ne s other]
  have master_ne : ∀ i, i ≠ k → s'.master i = s.master i := fun i other => by rw [Table.master, at_ne i other, Table.master]
  have master_k : s'.master k = c := by rw [Table.master, at_k, puts.master]
  have active_of : ∀ i, (s.hands i).isactivated = true → (s'.hands i).isactivated = true := fun i active => by
    rcases eq_or_ne i k with rfl | other
    · rw [at_k]
      exact puts.active
    · rwa [at_ne i other]
  refine ⟨fun d plays => ?_, fun i bound empty idle => ?_, fun i active => ?_, fun i idle => ?_, fun i bound active => ?_,
    fun i nonzero => ?_, insured, seats, fun i can => ?_, fun i bound kept => ?_, ?_, fun u => ?_⟩
  · rcases eq_or_ne d k with rfl | other
    · obtain rfl := puts.seat plays
      exact ⟨at_k ▸ puts.user, master_k⟩
    · rw [at_ne d other, master_ne d other]
      exact staked.own d plays
  · rcases eq_or_ne i k with rfl | other
    · exact absurd (at_k ▸ idle) (by rw [puts.active]; nofun)
    · rw [at_ne i other] at idle ⊢
      exact staked.free i bound empty idle
  · rcases eq_or_ne i k with rfl | other
    · rw [at_k, master_k]
      refine ⟨puts.bound, puts.plays, puts.user, ?_⟩
      rcases eq_or_ne c i with rfl | elsewhere
      · rw [at_k]
        exact puts.active
      · exact active_of c (puts.main elsewhere)
    · rw [at_ne i other] at active ⊢
      rw [master_ne i other]
      obtain ⟨bound, plays, user, main⟩ := staked.owner i active
      exact ⟨bound, plays, user, active_of _ main⟩
  · rcases eq_or_ne i k with rfl | other
    · exact absurd (at_k ▸ idle) (by rw [puts.active]; nofun)
    · rw [at_ne i other] at idle ⊢
      exact staked.idle i idle
  · rcases eq_or_ne (i + 6) k with rfl | other
    · obtain ⟨main, master, -⟩ := puts.half i rfl
      refine ⟨active_of i main, ?_⟩
      rw [master_k, master_ne i (by omega), master]
    · rw [at_ne _ other] at active
      obtain ⟨main, master⟩ := staked.second i bound active
      refine ⟨active_of i main, ?_⟩
      rw [master_ne _ other, master]
      rcases eq_or_ne i k with rfl | elsewhere
      · rw [master_k, (puts.before main).2]
      · rw [master_ne i elsewhere]
  · rcases eq_or_ne i k with rfl | other
    · rw [at_k]
      exact puts.active
    · exact active_of i (staked.table i (table i other nonzero))
  · rcases eq_or_ne i k with rfl | other
    · rw [at_k] at can ⊢
      exact puts.split can
    · rw [at_ne i other] at can ⊢
      exact staked.split i can
  · have before : (s.hands i).issplited = false := by
      rcases eq_or_ne i k with rfl | other
      · exact puts.whole (at_k ▸ kept)
      · rwa [at_ne i other] at kept
    rcases eq_or_ne (i + 6) k with rfl | other
    · exact absurd (puts.half i rfl).2.2 (by rw [before]; exact Bool.false_ne_true)
    · rw [at_ne _ other]
      exact staked.whole i bound before
  · rcases eq_or_ne 5 k with rfl | other
    · rw [at_k]
      exact puts.banker rfl
    · rw [at_ne 5 other]
      exact staked.banker
  · have sum : s'.stake u = (s.setHand k hand).stake u := by rw [stake, hands, stake]
    rw [sum, stake_setHand s puts.bound, bets, charge_wUserBets, staked.total u]
    have after : hand.stakeOf u = if u = r.dwPlayUserID c then (hand.betscore + hand.insurescore : Int) else 0 := by
      simp only [Slip.stakeOf, puts.active, puts.user, true_and, eq_comm]
    have before : (s.hands k).stakeOf u =
        if u = r.dwPlayUserID c then ((s.hands k).betscore + (s.hands k).insurescore : Int) else 0 := by
      cases active : (s.hands k).isactivated with
      | true => simp only [Slip.stakeOf, active, (puts.before active).1, true_and, eq_comm]
      | false =>
        obtain ⟨bet, insurance⟩ := staked.idle k active
        simp [Slip.stakeOf, active, bet, insurance]
    have amount := puts.amount
    rw [before, after]
    split <;> omega

/-! ## Bets -/

section Bets

variable {c : Nat} {lScore betSeat : Int}

/-- The seat of an accepted bet is the own one, or free. -/
theorem seat_of_accepted (plays : r.bPlayStatus c = true) (accepted : ¬s.RefusesBet r c lScore betSeat) :
    seatOf c betSeat < 6 ∧ ((seatOf c betSeat = c ∧ (betSeat = -1 ∨ betSeat = c)) ∨
      (seatOf c betSeat ≠ c ∧ betSeat ≠ -1 ∧ betSeat ≠ c ∧ r.bPlayStatus (seatOf c betSeat) = false ∧
        (s.hands (seatOf c betSeat)).isactivated = false ∧ s.lTableScore c ≠ 0)) := by
  have bound := r.chairs c plays
  simp only [RefusesBet, not_or] at accepted
  obtain ⟨-, -, range, taken, -⟩ := accepted
  rcases eq_or_ne betSeat (-1) with own | named
  · have seat : seatOf c betSeat = c := if_pos own
    exact ⟨by omega, .inl ⟨seat, .inl own⟩⟩
  · have seat : seatOf c betSeat = betSeat.toNat := if_neg named
    have inside : 0 ≤ betSeat ∧ betSeat ≤ 5 := by
      constructor
      · exact Int.not_lt.mp fun below => range ⟨named, .inl below⟩
      · exact Int.not_lt.mp fun above => range ⟨named, .inr above⟩
    rcases eq_or_ne betSeat c with own | other
    · exact ⟨by omega, .inl ⟨by omega, .inr own⟩⟩
    · have free := not_and.mp (not_and.mp taken named) other
      simp only [not_or, Bool.not_eq_true, ← seat] at free
      exact ⟨by omega, .inr ⟨by omega, named, other, free⟩⟩

/-- The hand a bet is put on belongs to the sender. -/
theorem puts_betHand (staked : Staked r s) (plays : r.bPlayStatus c = true)
    (accepted : ¬s.RefusesBet r c lScore betSeat) {score : Int} (nonneg : 0 ≤ score) :
    Puts r s (seatOf c betSeat) c (s.betHand r c betSeat score) score := by
  have range := r.chairs c plays
  have empty : (s.hands (seatOf c betSeat)).betscore = 0 := by
    simp only [RefusesBet, not_or, not_not] at accepted
    exact accepted.2.2.2.2.2.2.2
  obtain ⟨bound, seat⟩ := seat_of_accepted plays accepted
  have amount : ((s.betHand r c betSeat score).betscore + (s.betHand r c betSeat score).insurescore : Int) =
      (s.hands (seatOf c betSeat)).betscore + (s.hands (seatOf c betSeat)).insurescore + score := by
    change ((score.toNat : Int) + (s.hands (seatOf c betSeat)).insurescore : Int) = _
    rw [empty]
    omega
  have half : ∀ i, seatOf c betSeat = i + 6 → (s.hands i).isactivated = true ∧ s.master i = c ∧
      (s.hands i).issplited = true := fun i far => absurd far (by omega)
  have banker : seatOf c betSeat = 5 → (s.betHand r c betSeat score).issplited = false := fun last => by
    change (s.hands (seatOf c betSeat)).issplited = false
    rw [last]
    exact staked.banker
  have split : (s.betHand r c betSeat score).opercode &&& operSplit ≠ 0 →
      seatOf c betSeat < 6 ∧ (s.betHand r c betSeat score).issplited = false := staked.split _
  obtain ⟨same, own⟩ | ⟨away, named, other, vacant, idle, staken⟩ := seat
  · obtain ⟨user, master⟩ := staked.own c plays
    have mine : ¬(betSeat ≠ -1 ∧ betSeat ≠ c) := by
      rintro ⟨named, other⟩
      exact own.elim named other
    refine ⟨by omega, plays, ?_, ?_, rfl, fun elsewhere => absurd same.symm elsewhere, fun _ => same, fun _ => ?_, half,
      split, id, banker, amount⟩
    · change (if (s.hands (seatOf c betSeat)).userId = 0 then _ else (s.hands (seatOf c betSeat)).userId) = _
      rw [same, user, if_neg (r.known c plays)]
    · change (if betSeat ≠ -1 ∧ betSeat ≠ c then _ else (s.hands (seatOf c betSeat)).masterChair).getD _ = _
      rw [if_neg mine, same]
      exact master
    · rw [same]
      exact ⟨user, master⟩
  · refine ⟨by omega, plays, ?_, ?_, rfl, fun _ => staked.table c staken, fun there => ?_, fun active => ?_, half,
      split, id, banker, amount⟩
    · change (if (s.hands (seatOf c betSeat)).userId = 0 then _ else _) = _
      rw [if_pos (staked.free _ bound vacant idle)]
    · change (if betSeat ≠ -1 ∧ betSeat ≠ c then some c else _).getD _ = _
      rw [if_pos ⟨named, other⟩]
      rfl
    · exact absurd there (by rw [vacant]; exact Bool.false_ne_true)
    · exact absurd active (by rw [idle]; exact Bool.false_ne_true)

theorem staked_placeBet (staked : Staked r s) (plays : r.bPlayStatus c = true)
    (accepted : ¬s.RefusesBet r c lScore betSeat) :
    Staked r (s.placeBet r c betSeat (min lScore r.ceilScore)) ∧
      Pays r s (s.placeBet r c betSeat (min lScore r.ceilScore)) c := by
  have facts := accepted
  simp only [RefusesBet, not_or, not_le, not_lt] at facts
  obtain ⟨-, -, -, -, positive, -, enough, -⟩ := facts
  have puts := puts_betHand staked plays accepted (show 0 ≤ min lScore (r.ceilScore : Int) by omega)
  generalize min lScore (r.ceilScore : Int) = score at puts enough ⊢
  have bets : (s.placeBet r c betSeat score).wUserBets = (s.charge (r.dwPlayUserID c) score).wUserBets := by
    change (s.charge (s.betHand r c betSeat score).userId score).wUserBets = _
    rw [puts.user]
  have hands : (s.placeBet r c betSeat score).hands =
      (s.setHand (seatOf c betSeat) (s.betHand r c betSeat score)).hands := rfl
  constructor
  · apply staked.put _ puts hands bets
    · intro i other nonzero
      exact (Function.update_of_ne other score s.lTableScore) ▸ nonzero
    · intro i zero
      have before := staked.insured i zero
      change ((s.setHand _ _).hands i).insurescore = 0
      rcases eq_or_ne i (seatOf c betSeat) with rfl | other
      · rw [setHand_self]
        exact before
      · rwa [setHand_of_ne s other]
    · exact staked.seats
  · exact pays_charge staked plays enough _ bets

end Bets

/-! ## Insurance -/

/-- The rest of the sender is checked and the user of the hand is charged. -/
theorem staked_insureHand (staked : Staked r s) {c seat : Nat} (buy : Bool) (bound : seat < 5)
    (fresh : s.lUserInsure seat = 0) : Staked r (s.insureHand r c buy seat) := by
  have seats : ∀ choice i, 5 ≤ i → (s.setInsure seat choice).lUserInsure i = 0 := fun choice i far =>
    (Function.update_of_ne (by omega) ..).trans (staked.seats i far)
  have other_seat : ∀ choice ≠ 0, ∀ i, (s.setInsure seat choice).lUserInsure i = 0 → i ≠ seat ∧ s.lUserInsure i = 0 := by
    intro choice chosen i zero
    rcases eq_or_ne i seat with rfl | other
    · exact absurd ((Function.update_self ..).symm.trans zero) chosen
    · exact ⟨other, (Function.update_of_ne other ..).symm.trans zero⟩
  have refused : ∀ choice ≠ 0, Staked r (s.setInsure seat choice) := fun choice chosen =>
    { staked with
      insured := fun i zero => staked.insured i (other_seat choice chosen i zero).2
      seats := seats choice }
  have free := staked.insured seat fresh
  rw [insureHand]
  split
  next =>
    cases active : (s.hands seat).isactivated with
    | true =>
      obtain ⟨range, plays, user, main⟩ := staked.owner seat active
      have amount : ((s.hands seat).insured.betscore + (s.hands seat).insured.insurescore : Int) =
          (s.hands seat).betscore + (s.hands seat).insurescore + ((s.hands seat).betscore / 2 : Nat) := by
        change ((s.hands seat).betscore + ((s.hands seat).betscore / 2 : Nat) : Int) = _
        rw [free]
        omega
      have puts : Puts r s seat (s.master seat) (s.hands seat).insured ((s.hands seat).betscore / 2 : Nat) :=
        { bound := range, plays, user, master := rfl, active, main := fun _ => main
          seat := fun there => (staked.own seat there).2.symm
          before := fun _ => ⟨user, rfl⟩
          half := fun i far => absurd far (by omega)
          split := staked.split seat, whole := id
          banker := fun last => absurd last (by omega)
          amount }
      have hands : (((s.setHand seat (s.hands seat).insured).charge (s.hands seat).userId
          ((s.hands seat).betscore / 2 : Nat)).setInsure seat 1).hands =
          (s.setHand seat (s.hands seat).insured).hands := rfl
      apply staked.put _ puts hands
      · change (s.charge (s.hands seat).userId _).wUserBets = _
        rw [user]
      · exact fun i _ => id
      · intro i zero
        obtain ⟨other, before⟩ := other_seat 1 one_ne_zero i zero
        change ((s.setHand _ _).hands i).insurescore = 0
        rw [setHand_of_ne s other]
        exact staked.insured i before
      · exact seats 1
    | false =>
      -- nothing lies on the hand, so nothing changes but the choice
      obtain ⟨bet, -⟩ := staked.idle seat active
      have same : s.setHand seat (s.hands seat).insured = s := by
        rw [Hand.insured_of_idle bet free, setHand, Function.update_eq_self]
      have nothing : s.charge (s.hands seat).userId ((s.hands seat).betscore / 2 : Nat) = s := by
        rw [bet, Nat.zero_div, charge, Nat.cast_zero, add_zero, Function.update_eq_self]
      rw [same, nothing]
      exact refused 1 one_ne_zero
  next => exact refused 2 two_ne_zero

/-- Whoever buys insurance for his own hand pays it from his rest. -/
theorem pays_insureHand (staked : Staked r s) {c seat : Nat} {buy : Bool} (plays : r.bPlayStatus c = true)
    (own : buy = true → ((s.hands seat).betscore / 2 : Nat) ≤ s.getCurrentUserScore r c →
      (s.hands seat).userId = r.dwPlayUserID c ∨ (s.hands seat).betscore / 2 = 0) :
    Pays r s (s.insureHand r c buy seat) c := by
  rw [insureHand]
  split
  next bought =>
    rcases own bought.1 bought.2 with user | nothing
    · apply pays_charge staked plays bought.2
      change (s.charge (s.hands seat).userId _).wUserBets = _
      rw [user]
    · apply Pays.of_bets
      change (s.charge (s.hands seat).userId ((s.hands seat).betscore / 2 : Nat)).wUserBets = _
      rw [nothing, charge, Nat.cast_zero, add_zero, Function.update_eq_self]
  next => exact .of_bets c rfl

/-! ## Doubling and splitting -/

section Operate

variable {k : Nat}

theorem countAce_keeps (hand : Hand) : (countAce hand).toSlip = hand.toSlip ∧
    (countAce hand).issplited = hand.issplited ∧ (countAce hand).opercode = hand.opercode := by
  rw [countAce]
  split <;> exact ⟨rfl, rfl, rfl⟩

/-- A hand in play, staked by the player to move. -/
theorem puts_turn (staked : Staked r s) (turn : s.Turn k) {hand : Hand} {score : Int}
    (user : hand.userId = (s.hands k).userId) (master : hand.masterChair = (s.hands k).masterChair)
    (active : hand.isactivated = true) (split : hand.opercode &&& operSplit = 0)
    (whole : hand.issplited = false → (s.hands k).issplited = false)
    (amount : (hand.betscore + hand.insurescore : Int) = (s.hands k).betscore + (s.hands k).insurescore + score) :
    Puts r s k s.wCurrentUser hand score := by
  obtain ⟨bound, plays, owner, main⟩ := staked.owner k turn.active
  rw [turn.user]
  refine ⟨bound, plays, user.trans owner, by rw [master]; rfl, active, fun _ => main,
    fun there => (staked.own k there).2.symm, fun _ => ⟨owner, rfl⟩, fun i far => ?_, fun can => absurd split can, whole,
    fun last => absurd last turn.player, amount⟩
  subst far
  obtain ⟨first, same⟩ := staked.second i (by omega) turn.active
  refine ⟨first, same.symm, ?_⟩
  cases half : (s.hands i).issplited with
  | true => rfl
  | false => exact absurd turn.active (by rw [staked.whole i (by omega) half]; nofun)

theorem realChair_eq (turn : s.Turn k) : s.realChair k = s.wCurrentUser := by
  rw [realChair, turn.user, master]
  cases (s.hands k).masterChair <;> rfl

/-- Where the current hand and its user's chair meet. -/
theorem turn_user (staked : Staked r s) (turn : s.Turn k) :
    r.bPlayStatus s.wCurrentUser = true ∧ (s.hands k).userId = r.dwPlayUserID s.wCurrentUser := by
  obtain ⟨-, plays, user, -⟩ := staked.owner k turn.active
  rw [turn.user]
  exact ⟨plays, user⟩

theorem staked_handleDouble (staked : Staked r s) (turn : s.Turn k) (shoe : Shoe) :
    Staked r (s.handleDouble r shoe k) ∧ Pays r s (s.handleDouble r shoe k) s.wCurrentUser := by
  obtain ⟨plays, user⟩ := turn_user staked turn
  rw [handleDouble]
  dsimp only
  split
  next => exact ⟨staked, .of_bets _ rfl⟩
  next enough =>
    rw [realChair_eq turn, not_lt] at enough
    let doubled : Hand := { s.hands k with stopped := true, doubled := true, betscore := (s.hands k).betscore * 2 }
    obtain ⟨kept, issplited, opercode⟩ := countAce_keeps (dealOne doubled shoe k)
    have slip : (countAce (dealOne doubled shoe k)).toSlip = doubled.toSlip := kept
    have puts : Puts r s k s.wCurrentUser (countAce (dealOne doubled shoe k)) (s.hands k).betscore := by
      apply puts_turn staked turn
      · exact (congrArg Slip.userId slip :)
      · exact (congrArg Slip.masterChair slip :)
      · exact (congrArg Slip.isactivated slip :).trans turn.active
      · rw [opercode]
        exact updateAddOne_split ..
      · exact fun half => issplited.symm.trans half
      · rw [congrArg Slip.betscore slip, congrArg Slip.insurescore slip]
        change (((s.hands k).betscore * 2 : Nat) + (s.hands k).insurescore : Int) = _
        omega
    have bets : ((s.charge (s.hands k).userId (s.hands k).betscore).setHand k (countAce (dealOne doubled shoe k))).wUserBets =
        (s.charge (r.dwPlayUserID s.wCurrentUser) (s.hands k).betscore).wUserBets := by rw [user]; rfl
    have next := frame_updateNext
      (s := (s.charge (s.hands k).userId (s.hands k).betscore).setHand k (countAce (dealOne doubled shoe k))) shoe
    have hands : ((s.charge (s.hands k).userId (s.hands k).betscore).setHand k (countAce (dealOne doubled shoe k))).hands =
        (s.setHand k (countAce (dealOne doubled shoe k))).hands := rfl
    constructor
    · apply Staked.frame _ next
      apply staked.put _ puts hands bets
      · exact fun i _ => id
      · intro i zero
        change ((s.setHand _ _).hands i).insurescore = 0
        rcases eq_or_ne i k with rfl | other
        · rw [setHand_self, congrArg Slip.insurescore slip]
          exact staked.insured i zero
        · rw [setHand_of_ne s other]
          exact staked.insured i zero
      · exact staked.seats
    · exact (pays_charge staked plays enough _ bets).frame next

/-- The second half of a split hand, before its cards are counted. -/
private theorem puts_second (staked : Staked r s) (turn : s.Turn k) (bound : k < 5) (shut : (s.hands (k + 6)).isactivated = false)
    (split : (s.hands k).issplited = true) (carddata : Nat × Nat) :
    Puts r s (k + 6) s.wCurrentUser
      (({ s.hands (k + 6) with
        isactivated := true, betscore := (s.hands k).betscore, userId := (s.hands k).userId
        masterChair := some s.wCurrentUser } : Hand).updateInit (k + 6) carddata) (s.hands k).betscore := by
  obtain ⟨-, plays, user, main⟩ := staked.owner k turn.active
  rw [← turn.user] at plays user main
  obtain ⟨bet, insurance⟩ := staked.idle _ shut
  refine ⟨by omega, plays, user, rfl, rfl, fun _ => main, fun there => absurd (r.chairs _ there) (by omega),
    fun active => absurd active (by rw [shut]; nofun), fun i same => ?_,
    fun can => absurd (updateInit_of_issecond carddata (by omega)) can, id, fun last => absurd last (by omega), ?_⟩
  · obtain rfl : k = i := by omega
    exact ⟨turn.active, turn.user.symm, split⟩
  · change ((s.hands k).betscore + (s.hands (k + 6)).insurescore : Int) = _
    rw [bet, insurance]
    omega

theorem staked_handleSplit (staked : Staked r s) (turn : s.Turn k) (shoe : Shoe)
    (can : (s.hands k).opercode &&& operSplit ≠ 0) :
    Staked r (s.handleSplit r shoe k) ∧ Pays r s (s.handleSplit r shoe k) s.wCurrentUser := by
  obtain ⟨plays, user⟩ := turn_user staked turn
  obtain ⟨range, whole⟩ := staked.split k can
  have shut := staked.whole k range whole
  have player := turn.player
  rw [handleSplit]
  dsimp only
  rw [realChair_eq turn]
  split
  next => exact ⟨staked, .of_bets _ rfl⟩
  next enough =>
    rw [not_lt] at enough
    generalize ((s.cbHandCardData k).1, shoe.drawn 0) = cards
    generalize ((s.cbHandCardData k).2, shoe.drawn 1) = cards'
    -- the first half keeps the stake, the second one carries the same again
    let first := ({ s.hands k with issplited := true } : Hand).updateInit k cards
    have puts : Puts r s k s.wCurrentUser first 0 :=
      puts_turn staked turn rfl rfl turn.active (updateInit_of_issplited k cards rfl) nofun (by simp [first])
    have staked₁ : Staked r (s.setHand k first) := by
      apply staked.put _ puts rfl
      · simp [charge]
      · exact fun i _ => id
      · intro i zero
        rcases eq_or_ne i k with rfl | other
        · rw [setHand_self]
          exact staked.insured i zero
        · rw [setHand_of_ne s other]
          exact staked.insured i zero
      · exact staked.seats
    have turn₁ : (s.setHand k first).Turn k := by
      refine ⟨turn.current, player, ?_, ?_⟩
      · rw [setHand_self]
        exact turn.active
      · rw [master, setHand_self]
        exact turn.user
    have puts₁ := puts_second staked₁ turn₁ (by omega) (by rwa [setHand_of_ne s (by omega)])
      (by rw [setHand_self]; rfl) cards'
    rw [setHand_of_ne s (show k + 6 ≠ k by omega), setHand_self] at puts₁
    let second := ({ s.hands (k + 6) with
      isactivated := true, betscore := (s.hands k).betscore, userId := (s.hands k).userId
      masterChair := some s.wCurrentUser } : Hand).updateInit (k + 6) cards'
    generalize state : Table.setHand _ (k + 6) _ = s₂
    have hands : s₂.hands = ((s.setHand k first).setHand (k + 6) second).hands := by rw [← state]; rfl
    have bets : s₂.wUserBets = ((s.setHand k first).charge (r.dwPlayUserID s.wCurrentUser) (s.hands k).betscore).wUserBets := by
      rw [← state, ← user]
      rfl
    have staked₂ : Staked r s₂ := by
      apply staked₁.put _ puts₁ hands bets
      · intro i _
        rw [← state]
        exact id
      · intro i zero
        rw [← state] at zero
        rw [hands]
        rcases eq_or_ne i (k + 6) with rfl | other
        · rw [setHand_self]
          exact staked.insured _ zero
        · rw [setHand_of_ne _ other]
          exact staked₁.insured i zero
      · intro i far
        rw [← state]
        exact staked.seats i far
    have pays : Pays r s s₂ s.wCurrentUser := pays_charge staked plays enough _ bets
    split
    · exact ⟨staked₂.frame (frame_updateNext shoe), pays.frame (frame_updateNext shoe)⟩
    · exact ⟨staked₂, pays⟩

end Operate

end Table

end H5Server.Hjk
