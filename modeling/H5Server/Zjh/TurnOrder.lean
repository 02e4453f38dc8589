import H5Server.Zjh.Rounds
import Mathlib.Data.List.FinRange

/-! # The order of the turns

What a step can do to the turn is said once: it leaves the turn where it is, passes it on after an action, or ends the
round. The bets of a run are recorded with the turn in which they are placed.
-/

namespace H5Server.Zjh

open Lib

variable {r : Round} {t m t' : Table} {draw : Draw} {c i j start : Chair} {s : ℤ} {bet : Option ℤ} {event : Event}

/-! ## Actions -/

/-- Between `t` and `m` the player `c` may have placed a bet, and nobody else has. Players may have dropped out. -/
structure Acted (t m : Table) (c : Chair) (bet : Option ℤ) : Prop where
  firstUser : m.firstUser = t.firstUser
  currentTurn : m.currentTurn = t.currentTurn
  currentUser : m.currentUser = t.currentUser
  isExceed : m.isExceed = t.isExceed
  settlement : m.settlement = t.settlement
  own : m.betinfo c = t.betinfo c ++ bet.toList
  others : ∀ i, i ≠ c → m.betinfo i = t.betinfo i
  mono : ∀ i, m.isIn i = true → t.isIn i = true

theorem Acted.refl (t : Table) (c : Chair) : Acted t t c none :=
  ⟨rfl, rfl, rfl, rfl, rfl, (List.append_nil _).symm, fun _ _ => rfl, fun _ => id⟩

theorem Acted.after (acted : Acted t m c bet) (quiet : Acted m t' c none) : Acted t t' c bet where
  firstUser := quiet.firstUser.trans acted.firstUser
  currentTurn := quiet.currentTurn.trans acted.currentTurn
  currentUser := quiet.currentUser.trans acted.currentUser
  isExceed := quiet.isExceed.trans acted.isExceed
  settlement := quiet.settlement.trans acted.settlement
  own := by
    rw [quiet.own, acted.own]
    exact List.append_nil _
  others i other := (quiet.others i other).trans (acted.others i other)
  mono i here := acted.mono i (quiet.mono i here)

theorem Acted.before (quiet : Acted t m c none) (acted : Acted m t' c bet) : Acted t t' c bet where
  firstUser := acted.firstUser.trans quiet.firstUser
  currentTurn := acted.currentTurn.trans quiet.currentTurn
  currentUser := acted.currentUser.trans quiet.currentUser
  isExceed := acted.isExceed.trans quiet.isExceed
  settlement := acted.settlement.trans quiet.settlement
  own := by
    rw [acted.own, quiet.own]
    exact congrArg (· ++ bet.toList) (List.append_nil _)
  others i other := (acted.others i other).trans (quiet.others i other)
  mono i here := quiet.mono i (acted.mono i here)

theorem HandsOnly.acted (hands : HandsOnly t m) (c : Chair) : Acted t m c none := by
  obtain ⟨_, _, _, rfl⟩ := hands
  exact ⟨rfl, rfl, rfl, rfl, rfl, (List.append_nil _).symm, fun _ _ => rfl, fun _ => id⟩

theorem acted_addBet (t : Table) (c : Chair) (s : ℤ) : Acted t (t.addBet c s) c (some s) :=
  ⟨rfl, rfl, rfl, rfl, rfl, Function.update_self _ _ _, fun _ other => Function.update_of_ne other _ _, fun _ => id⟩

theorem acted_writeLost (r : Round) (t : Table) (lost c : Chair) : Acted t (writeLost r t lost) c none := by
  obtain ⟨written, same⟩ := writeLost_eq r t lost
  rw [same]
  exact ⟨rfl, rfl, rfl, rfl, rfl, (List.append_nil _).symm, fun _ _ => rfl, fun _ => id⟩

/-- A player is marked as out. -/
theorem isIn_of_marked {lost : Chair} (exist : m.existUser = t.existUser)
    (out : ∀ i, m.out i = if i = lost then true else t.out i) (here : m.isIn i = true) : t.isIn i = true := by
  obtain ⟨exists_, stays⟩ := isIn_iff.mp here
  rw [out] at stays
  split at stays
  · cases stays
  · exact isIn_iff.mpr ⟨exist ▸ exists_, stays⟩

theorem acted_setComparedLost (t : Table) (lost c : Chair) : Acted t (t.setComparedLost lost) c none :=
  ⟨rfl, rfl, rfl, rfl, rfl, (List.append_nil _).symm, fun _ _ => rfl,
    fun _ => isIn_of_marked rfl (setComparedLost_out lost)⟩

theorem acted_setGiveup (t : Table) (lost c : Chair) : Acted t (t.setGiveup lost) c none :=
  ⟨rfl, rfl, rfl, rfl, rfl, (List.append_nil _).symm, fun _ _ => rfl, fun _ => isIn_of_marked rfl (setGiveup_out lost)⟩

theorem acted_moveBanker {lost : Chair} (moved : t.moveBanker lost = some m) (c : Chair) : Acted t m c none := by
  rw [Table.moveBanker] at moved
  split at moved
  · obtain ⟨next, -, rfl⟩ := Option.map_eq_some_iff.mp moved
    exact ⟨rfl, rfl, rfl, rfl, rfl, (List.append_nil _).symm, fun _ _ => rfl, fun _ => id⟩
  · cases moved
    exact Acted.refl t c

theorem acted_loseToAllIn (r : Round) (t : Table) (c i : Chair) (left compare : ℤ) :
    Acted t (loseToAllIn r c left compare t i) c none := by
  rw [loseToAllIn]
  split
  · exact Acted.refl t c
  split
  · exact Acted.refl t c
  split
  · exact Acted.refl t c
  · have lost := acted_setComparedLost t i c
    refine lost.after (.before ?_ (acted_writeLost r _ i c))
    exact ⟨rfl, rfl, rfl, rfl, rfl, (List.append_nil _).symm, fun _ _ => rfl, fun _ => id⟩

theorem acted_foldl_loseToAllIn (r : Round) (t : Table) (c : Chair) (left compare : ℤ) (seats : List Chair) :
    Acted t (seats.foldl (loseToAllIn r c left compare) t) c none := by
  apply foldl_invariant fun _ m => Acted t m c none
  · exact Acted.refl t c
  · exact fun _ m i _ acted => acted.after (acted_loseToAllIn r m c i left compare)

/-- The comparisons of the forced showdown. -/
theorem acted_compareForce {state state' : Table × Chair} (compared : compareForce r draw state j = some state')
    (c : Chair) : Acted state.1 state'.1 c none := by
  obtain ⟨t, winUser⟩ := state
  have lost : ∀ loser, Acted t (writeLost r ((analyse r t draw winUser j).setComparedLost loser) loser) c none := by
    intro loser
    have hands := (handsOnly_analyse r t draw winUser j).acted c
    exact (hands.after (acted_setComparedLost _ loser c)).after (acted_writeLost r _ loser c)
  rw [compareForce] at compared
  dsimp only at compared
  split at compared
  · cases compared
    exact Acted.refl t c
  split at compared
  · cases compared
    exact Acted.refl t c
  split at compared
  · cases compared
    exact Acted.refl t c
  split at compared
  · cases compared
  split at compared
  · cases compared
    exact lost winUser
  · cases compared
    exact lost j

theorem acted_foldlM_compareForce {seats : List Chair} {state state' : Table × Chair}
    (compared : seats.foldlM (compareForce r draw) state = some state') (c : Chair) :
    Acted state.1 state'.1 c none :=
  foldlM_invariant (fun last : Table × Chair => Acted state.1 last.1 c none)
    (fun _ _ _ acted one => acted.after (acted_compareForce one c)) compared (Acted.refl _ c)

/-! ## The end of a round -/

/-- Nothing but the settlement is new. -/
theorem onEventGameConclude_keeps (concluded : onEventGameConclude r m = some t') :
    t'.settlement.isSome = true ∧ t'.firstUser = m.firstUser ∧ t'.currentTurn = m.currentTurn
      ∧ t'.isExceed = m.isExceed ∧ t'.betinfo = m.betinfo := by
  rw [onEventGameConclude] at concluded
  split at concluded
  · dsimp only at concluded
    split at concluded
    · cases concluded
    split at concluded
    · cases concluded
    split at concluded
    · cases concluded
    · cases concluded
      exact ⟨rfl, rfl, rfl, rfl, rfl⟩
  · cases concluded

/-- The round is not concluded before one player is left. -/
theorem one_of_concluded (concluded : onEventGameConclude r m = some t') : m.leftPlayerCount = 1 := by
  rw [onEventGameConclude] at concluded
  split at concluded
  · rename_i only
    rw [Table.leftPlayerCount, List.countP_eq_length_filter, only]
    rfl
  · cases concluded

/-- The forced showdown ends the round, where a player has the turn who is in. -/
theorem onUserCompareCardForce_keeps (current : m.currentUser = some c)
    (compared : onUserCompareCardForce r m draw = some t') :
    t' = m ∧ m.isIn c = false ∨ ∃ last, Acted m last c none ∧ onEventGameConclude r last = some t' := by
  rw [onUserCompareCardForce, current] at compared
  dsimp only at compared
  split at compared
  · rename_i away
    cases compared
    rw [Bool.not_eq_true'] at away
    exact Or.inl ⟨rfl, by rw [Table.isIn, away, Bool.false_and]⟩
  split at compared
  · rename_i outs
    cases compared
    exact Or.inl ⟨rfl, by rw [Table.isIn, outs, Bool.not_true, Bool.and_false]⟩
  split at compared
  · cases compared
  · obtain ⟨⟨last, winUser⟩, shown, ended⟩ := Option.bind_eq_some_iff.mp compared
    obtain ⟨last', moved, concluded⟩ := Option.bind_eq_some_iff.mp ended
    have acted : Acted m last c none := acted_foldlM_compareForce shown c
    refine Or.inr ⟨last', acted.after ?_, concluded⟩
    split at moved
    · exact acted_moveBanker moved c
    · cases moved
      exact Acted.refl last c

/-! ## What a step can do -/

/-- The turn stays, or it is passed on after an action, or the action leaves one player. -/
inductive Outcome (r : Round) (draw : Draw) (t : Table) (c : Chair) (t' : Table) : Prop
  | stays (acted : Acted t t' c none)
  | passes (m : Table) (bet : Option ℤ) (acted : Acted t m c bet) (bets : m.isIn c = true → bet.isSome = true)
      (two : 2 ≤ m.leftPlayerCount) (next : nextStep r m draw = some t')
  | ends (m : Table) (bet : Option ℤ) (acted : Acted t m c bet) (concluded : onEventGameConclude r m = some t')

theorem Outcome.before (quiet : Acted t m c none) (outcome : Outcome r draw m c t') : Outcome r draw t c t' := by
  cases outcome with
  | stays acted => exact .stays (quiet.before acted)
  | passes m bet acted bets two next => exact .passes m bet (quiet.before acted) bets two next
  | ends m bet acted concluded => exact .ends m bet (quiet.before acted) concluded

theorem outcome_goOn (acted : Acted t m c bet) (bets : m.isIn c = true → bet.isSome = true)
    (made : goOn r m draw = some t') : Outcome r draw t c t' := by
  rw [goOn] at made
  split at made
  · rename_i two
    exact .passes m bet acted bets two made
  · exact .ends m bet acted made

section Handlers

variable (current : t.currentUser = some c)

include current

theorem eq_of_turn (turn : hasTurn t i = true) : i = c ∧ t.isIn c = true := by
  rw [hasTurn, Bool.and_eq_true, decide_eq_true_iff, current] at turn
  obtain rfl := Option.some_inj.mp turn.2
  exact ⟨rfl, turn.1⟩

omit current in
/-- The timer is cancelled, or the base score rises. -/
theorem acted_disarm (t : Table) (c : Chair) (armed : Bool) (followScore : ℤ) :
    Acted t { t with armed, followScore } c none :=
  ⟨rfl, rfl, rfl, rfl, rfl, (List.append_nil _).symm, fun _ _ => rfl, fun _ => id⟩

theorem outcome_onUserAllIn (made : onUserAllIn r t draw i start = some t') : Outcome r draw t c t' := by
  have disarmed : Acted t { t with armed := false } c none := acted_disarm t c false t.followScore
  rw [onUserAllIn] at made
  dsimp only at made
  split at made
  · cases made
    exact .stays disarmed
  rename_i accepted
  have turn : hasTurn t i = true := by
    rw [Bool.or_eq_true, not_or, Bool.not_eq_true', Bool.not_eq_false] at accepted
    exact accepted.1
  obtain ⟨rfl, here⟩ := eq_of_turn current turn
  split at made
  · cases made
    exact .stays disarmed
  split at made
  · cases made
    exact .stays disarmed
  split at made
  · cases made
    exact .stays disarmed
  -- the comparisons, and the bet
  obtain ⟨dealt, hands, compared⟩ :=
    compareAllIn_eq r draw i ((List.range 5).map (seatAfter start)) { t with armed := false }
  have shown : Acted t (compareAllIn r draw i ((List.range 5).map (seatAfter start)) { t with armed := false }) i none := by
    rcases compared with won | lost
    · rw [won]
      exact disarmed.after (hands.acted i)
    · rw [lost]
      exact (disarmed.after (hands.acted i)).after (acted_setComparedLost dealt i i)
  have paid := shown.before (acted_addBet _ i (scoreByChairId r { t with armed := false } i - t.tableScore i))
  split at made
  · split at made
    · cases made
    · have won := fun left compare => paid.after (acted_foldl_loseToAllIn r _ i left compare (List.finRange 5))
      have banked : ∀ lost : Table, Acted lost { lost with bankerUser := i } i none :=
        fun _ => ⟨rfl, rfl, rfl, rfl, rfl, (List.append_nil _).symm, fun _ _ => rfl, fun _ => id⟩
      exact outcome_goOn ((won _ _).after (banked _)) (fun _ => rfl) made
  · obtain ⟨moved, found, made⟩ := Option.bind_eq_some_iff.mp made
    have lost := paid.after (acted_moveBanker found i)
    exact outcome_goOn (lost.after (acted_writeLost r moved i i)) (fun _ => rfl) made

theorem outcome_allInNext (made : allInNext r t draw i = some t') : Outcome r draw t c t' := by
  rw [allInNext] at made
  split at made
  · cases made
    exact .stays (Acted.refl t c)
  · exact outcome_onUserAllIn current made

theorem outcome_betOrAllIn (two : 2 ≤ t.leftPlayerCount) (made : betOrAllIn r t draw c s = some t') :
    Outcome r draw t c t' := by
  rw [betOrAllIn] at made
  split at made
  · exact outcome_allInNext current made
  · exact .passes _ (some s) (acted_addBet t c s) (fun _ => rfl) two made

theorem outcome_onUserAddScore (two : 2 ≤ t.leftPlayerCount) {index : ℤ}
    (made : onUserAddScore r t draw i index = some t') : Outcome r draw t c t' := by
  have disarmed : Acted t { t with armed := false } c none := acted_disarm t c false t.followScore
  have bets : ∀ followScore score, betOrAllIn r { t with armed := false, followScore } draw c score = some t' →
      Outcome r draw t c t' := by
    intro followScore score paid
    apply Outcome.before (acted_disarm t c false followScore)
    exact outcome_betOrAllIn (t := { t with armed := false, followScore }) current two paid
  rw [onUserAddScore] at made
  dsimp only at made
  split at made
  · cases made
    exact .stays disarmed
  rename_i accepted
  have turn : hasTurn t i = true := by
    rw [Bool.not_eq_true', Bool.not_eq_false] at accepted
    exact accepted
  obtain ⟨rfl, -⟩ := eq_of_turn current turn
  split at made
  · exact bets t.followScore _ made
  obtain ⟨from_, -, made⟩ := Option.bind_eq_some_iff.mp made
  split at made
  · split at made
    · exact bets t.followScore _ made
    · cases made
      exact .stays disarmed
  split at made
  · cases made
    exact .stays disarmed
  · exact bets _ _ made

theorem outcome_onUserCompareCard (made : onUserCompareCard r t draw i j = some t') : Outcome r draw t c t' := by
  have disarmed : Acted t { t with armed := false } c none := acted_disarm t c false t.followScore
  rw [onUserCompareCard] at made
  dsimp only at made
  split at made
  · cases made
    exact .stays disarmed
  rename_i accepted
  have turn : hasTurn t i = true := by
    rw [Bool.or_eq_true, not_or, Bool.not_eq_true', Bool.not_eq_false] at accepted
    exact accepted.1
  obtain ⟨rfl, -⟩ := eq_of_turn current turn
  split at made
  · cases made
    exact .stays disarmed
  have hands := (handsOnly_analyse r { t with armed := false } draw i j).acted i
  have analysed := disarmed.after hands
  split at made
  · exact .before analysed (outcome_onUserAllIn (analysed.currentUser.trans current) made)
  · obtain ⟨moved, found, made⟩ := Option.bind_eq_some_iff.mp made
    have lost := (analysed.after (acted_setComparedLost _ _ i)).after (acted_moveBanker found i)
    have paid := fun score => lost.before (acted_addBet moved i score)
    exact outcome_goOn ((paid _).after (acted_writeLost r _ _ i)) (fun _ => rfl) made

theorem outcome_onUserGiveUp {timeout : Bool} (made : onUserGiveUp r t draw i timeout = some t') :
    Outcome r draw t c t' := by
  rw [onUserGiveUp, current] at made
  dsimp only at made
  split at made
  · cases made
    exact .stays (Acted.refl t c)
  split at made
  · cases made
  obtain ⟨moved, found, went⟩ := Option.bind_eq_some_iff.mp made
  have gone : Acted t (writeLost r moved i) c none := by
    have given := (acted_setGiveup t i c).after (acted_moveBanker found c)
    exact given.after (acted_writeLost r moved i c)
  split at went
  · rename_i two
    split at went
    · obtain ⟨_, -, rfl⟩ := Option.map_eq_some_iff.mp went
      exact .stays gone
    · rename_i own
      obtain rfl := not_not.mp own
      refine .passes _ none (gone.after (acted_disarm _ i false (writeLost r moved i).followScore)) (fun here => ?_) two went
      have given : moved.isGiveup i = true := by
        rw [Table.moveBanker] at found
        split at found
        · obtain ⟨_, -, rfl⟩ := Option.map_eq_some_iff.mp found
          exact Function.update_self _ _ _
        · cases found
          exact Function.update_self _ _ _
      obtain ⟨written, same⟩ := writeLost_eq r moved i
      rw [same] at here
      have stays := (isIn_iff.mp here).2
      rw [Table.out, Bool.or_eq_false_iff] at stays
      rw [given] at stays
      cases stays.1
  · exact .ends _ none gone went

theorem outcome_onTimerWaitingOver (two : 2 ≤ t.leftPlayerCount) {random : Chair}
    (made : onTimerWaitingOver r t draw random = some t') : Outcome r draw t c t' := by
  have disarmed : Acted t { t with armed := false } c none := acted_disarm t c false t.followScore
  have current₁ : Table.currentUser { t with armed := false } = some c := current
  have two₁ : 2 ≤ Table.leftPlayerCount { t with armed := false } := two
  apply Outcome.before disarmed
  rw [onTimerWaitingOver] at made
  generalize ({ t with armed := false } : Table) = t₁ at current₁ two₁ made ⊢
  rw [current₁] at made
  dsimp only at made
  split at made
  · cases made
    exact .stays (Acted.refl _ c)
  split at made
  · exact outcome_onUserGiveUp current₁ made
  · exact outcome_onUserAddScore current₁ two₁ made
  · split at made
    · cases made
      exact .stays (Acted.refl _ c)
    · exact outcome_onUserCompareCard current₁ made
  · split at made
    · cases made
      exact .stays (Acted.refl _ c)
    · exact outcome_onUserAllIn current₁ made

theorem outcome_messageAddScore (two : 2 ≤ t.leftPlayerCount) {index : ℤ}
    (made : messageAddScore r t draw i index = some t') : Outcome r draw t c t' := by
  have unchanged : some t = some t' → Outcome r draw t c t' := by
    intro same
    cases same
    exact .stays (Acted.refl t c)
  rw [messageAddScore] at made
  split at made
  · exact unchanged made
  split at made
  · split at made
    · cases made
    split at made
    · exact unchanged made
    · exact outcome_onUserAddScore current two made
  split at made
  · exact unchanged made
  · exact outcome_onUserAddScore current two made

theorem outcome_messageCompareCard {peerUser : ℕ} (made : messageCompareCard r t draw i peerUser = some t') :
    Outcome r draw t c t' := by
  have unchanged : some t = some t' → Outcome r draw t c t' := by
    intro same
    cases same
    exact .stays (Acted.refl t c)
  rw [messageCompareCard] at made
  split at made
  · exact unchanged made
  split at made
  · dsimp only at made
    split at made
    · split at made
      · exact unchanged made
      · split at made
        · exact unchanged made
        · exact outcome_onUserCompareCard current made
    · exact outcome_onUserCompareCard current made
  split at made
  · split at made
    · exact unchanged made
    · exact outcome_onUserCompareCard current made
  · exact unchanged made

/-- Every step leaves the turn where it is, passes it on after an action, or ends the round. -/
theorem outcome_step (two : 2 ≤ t.leftPlayerCount) (taken : step r t event = some t') :
    Outcome r event.draw t c t' := by
  obtain ⟨message, draw⟩ := event
  cases message with
  | lookCard i =>
    have asked : onUserLookCard r t i = some t' := taken
    rw [onUserLookCard, current] at asked
    dsimp only at asked
    split at asked
    · cases asked
      exact .stays (Acted.refl t c)
    split at asked
    · cases asked
      exact .stays (Acted.refl t c)
    · obtain ⟨_, -, rfl⟩ := Option.map_eq_some_iff.mp asked
      exact .stays ⟨rfl, rfl, current.symm, rfl, rfl, (List.append_nil _).symm, fun _ _ => rfl, fun _ => id⟩
  | giveUp i => exact outcome_onUserGiveUp current taken
  | addScore i index => exact outcome_messageAddScore current two taken
  | compareCard i peerUser => exact outcome_messageCompareCard current taken
  | allIn i =>
    have asked : messageAllIn r t draw i = some t' := taken
    rw [messageAllIn] at asked
    split at asked
    · cases asked
      exact .stays (Acted.refl t c)
    · exact outcome_allInNext current asked
  | giveUpTimeout i giveup =>
    have asked : some (onUserTimeoutGiveUpSetting t i giveup) = some t' := taken
    cases asked
    rw [onUserTimeoutGiveUpSetting, current]
    dsimp only
    split
    · exact .stays (Acted.refl t c)
    · exact .stays ⟨rfl, rfl, current.symm, rfl, rfl, (List.append_nil _).symm, fun _ _ => rfl, fun _ => id⟩
  | timer random =>
    rw [step] at taken
    dsimp only at taken
    split at taken
    · exact outcome_onTimerWaitingOver current two taken
    · cases taken
  | left i =>
    rw [step] at taken
    dsimp only at taken
    split at taken
    · rename_i outs
      cases taken
      refine .stays ⟨rfl, rfl, rfl, rfl, rfl, (List.append_nil _).symm, fun _ _ => rfl, fun j here => ?_⟩
      rwa [isIn_of_left outs] at here
    · cases taken
      exact .stays (Acted.refl t c)

end Handlers

/-! ## The seats that are passed -/

/-- How many seats after `firstUser_` a player sits. -/
def place (firstUser i : Chair) : ℕ := (i - firstUser : Fin 5).val

/-- The seats passed are those of players who are out. `firstUser_` begins a turn, which is the last one or not. -/
theorem searchNext_passed (seated : ∀ i, t.isIn i = true → r.players i = true)
    (first : r.players t.firstUser = true) {seats : List Chair} (nodup : seats.Nodup) {turn turn' : ℕ} {next : Chair} {exceed exceed' : Bool}
    (found : t.searchNext r seats (turn, exceed) = (some next, turn', exceed')) :
    ∃ passed rest, seats = passed ++ next :: rest ∧ (∀ i ∈ passed, t.isIn i = false)
      ∧ (t.firstUser ∉ passed ++ [next] → (turn', exceed') = (turn, exceed))
      ∧ (t.firstUser ∈ passed ++ [next] →
          (turn', exceed') = if turn + 1 < 20 then (turn + 1, exceed) else (turn, true)) := by
  induction seats generalizing turn exceed with
  | nil => cases found
  | cons a rest ih =>
    obtain ⟨absent, nodup⟩ := List.nodup_cons.mp nodup
    -- a seat that is passed without a new turn
    have pass : t.isIn a = false → t.firstUser ≠ a → t.searchNext r rest (turn, exceed) = (some next, turn', exceed') →
        ∃ passed rest', a :: rest = passed ++ next :: rest' ∧ (∀ i ∈ passed, t.isIn i = false)
          ∧ (t.firstUser ∉ passed ++ [next] → (turn', exceed') = (turn, exceed))
          ∧ (t.firstUser ∈ passed ++ [next] →
              (turn', exceed') = if turn + 1 < 20 then (turn + 1, exceed) else (turn, true)) := by
      intro out other found
      obtain ⟨passed, rest', split, gone, same, begun⟩ := ih nodup found
      refine ⟨a :: passed, rest', by rw [split, List.cons_append], ?_, ?_, ?_⟩
      · intro i present
        rcases List.mem_cons.mp present with rfl | present
        · exact out
        · exact gone i present
      · exact fun apart => same fun present => apart (List.mem_cons_of_mem a present)
      · exact fun present => begun ((List.mem_cons.mp present).resolve_left other)
    rw [Table.searchNext] at found
    cases plays : r.players a
    · rw [plays, Bool.not_false, if_pos rfl] at found
      apply pass
      · apply Bool.eq_false_iff.mpr
        intro here
        rw [seated a here] at plays
        cases plays
      · rintro same
        rw [same, plays] at first
        cases first
      · exact found
    · rw [plays, Bool.not_true, if_neg Bool.false_ne_true] at found
      dsimp only at found
      rcases eq_or_ne a t.firstUser with same | other
      · rw [if_pos same] at found
        cases outs : t.out a
        · rw [outs, if_neg Bool.false_ne_true] at found
          obtain ⟨here, turns⟩ := Prod.mk.injEq _ _ _ _ ▸ found
          cases here
          refine ⟨[], rest, rfl, fun _ none => absurd none List.not_mem_nil, ?_, fun _ => turns.symm⟩
          exact fun apart => absurd (List.mem_singleton.mpr same.symm) apart
        · rw [outs, if_pos rfl] at found
          obtain ⟨passed, rest', split, gone, kept, -⟩ := ih nodup found
          refine ⟨a :: passed, rest', by rw [split, List.cons_append], ?_, ?_, fun _ => ?_⟩
          · intro i present
            rcases List.mem_cons.mp present with rfl | present
            · rw [Table.isIn, outs, Bool.not_true, Bool.and_false]
            · exact gone i present
          · exact fun apart => absurd (List.mem_cons.mpr (.inl same.symm)) apart
          · apply kept
            intro present
            apply absent
            rw [same, split, List.append_cons]
            exact List.mem_append_left rest' present
      · rw [if_neg other] at found
        cases outs : t.out a
        · rw [outs, if_neg Bool.false_ne_true] at found
          obtain ⟨here, turns⟩ := Prod.mk.injEq _ _ _ _ ▸ found
          cases here
          refine ⟨[], rest, rfl, fun _ none => absurd none List.not_mem_nil, fun _ => turns.symm, ?_⟩
          exact fun present => absurd (List.mem_singleton.mp present) other.symm
        · rw [outs, if_pos rfl] at found
          apply pass
          · rw [Table.isIn, outs, Bool.not_true, Bool.and_false]
          · exact other.symm
          · exact found

/-- The turn is passed inside of a turn: the players before the next one have acted. -/
theorem place_lt_iff {f c i : Chair} {k : ℕ} (positive : 1 ≤ k) (small : k < 5)
    (inside : ∀ j, 1 ≤ j → j ≤ k → seatAfter c j ≠ f) (apart : ∀ j, 1 ≤ j → j < k → seatAfter c j ≠ i) :
    place f i < place f (seatAfter c k) ↔ place f i ≤ place f c := by
  have all : ∀ f c i k : Fin 5, 1 ≤ k.val → (∀ j : Fin 5, 1 ≤ j.val → j.val ≤ k.val → seatAfter c j.val ≠ f) →
      (∀ j : Fin 5, 1 ≤ j.val → j.val < k.val → seatAfter c j.val ≠ i) →
      (place f i < place f (seatAfter c k.val) ↔ place f i ≤ place f c) := by decide +kernel
  exact all f c i ⟨k, small⟩ positive (fun j from_ till => inside j.val from_ till)
    (fun j from_ till => apart j.val from_ till)

/-- The turn is passed to the next turn: the players who are in sit between the next one and the last one. -/
theorem place_le_of_new {f c i : Chair} {k n : ℕ} (small : k < 5) (n_pos : 1 ≤ n) (n_le : n ≤ k)
    (begins : seatAfter c n = f) (apart : ∀ j, 1 ≤ j → j < k → seatAfter c j ≠ i) :
    place f i ≤ place f c ∧ place f (seatAfter c k) ≤ place f i := by
  have all : ∀ c i k n : Fin 5, 1 ≤ n.val → n.val ≤ k.val →
      (∀ j : Fin 5, 1 ≤ j.val → j.val < k.val → seatAfter c j.val ≠ i) →
      place (seatAfter c n.val) i ≤ place (seatAfter c n.val) c
        ∧ place (seatAfter c n.val) (seatAfter c k.val) ≤ place (seatAfter c n.val) i := by decide +kernel
  rw [← begins]
  exact all c i ⟨k, small⟩ ⟨n, by omega⟩ n_pos n_le (fun j from_ till => apart j.val from_ till)

theorem nodup_seatsAfter (c : Chair) : (seatsAfter c).Nodup := by
  have all : ∀ c : Fin 5, (seatsAfter c).Nodup := by decide
  exact all c

/-- The first seats after the one with the turn. -/
theorem mem_of_split {front back : List Chair} (split : seatsAfter c = front ++ back) :
    i ∈ front ↔ ∃ n, 1 ≤ n ∧ n ≤ front.length ∧ seatAfter c n = i := by
  have length := congrArg List.length split
  rw [List.length_map, List.length_range, List.length_append] at length
  have same : front = (List.range front.length).map fun i => seatAfter c (i + 1) := by
    have taken := congrArg (List.take front.length) split
    rw [List.take_left, ← List.map_take, List.take_range, Nat.min_eq_left (by omega)] at taken
    exact taken.symm
  rw [same, List.length_map, List.length_range, List.mem_map]
  constructor
  · rintro ⟨n, small, found⟩
    exact ⟨n + 1, by omega, List.mem_range.mp small, found⟩
  · rintro ⟨n, positive, small, found⟩
    exact ⟨n - 1, List.mem_range.mpr (by omega), by rw [Nat.sub_add_cancel positive, found]⟩

/-- Where the turn goes to, and whether it is a new one or all turns are over. -/
theorem nextStep_passes (current : m.currentUser = some c) (first : r.players m.firstUser = true)
    (seated : ∀ i, m.isIn i = true → r.players i = true) (next : nextStep r m draw = some t') :
    ∃ k, 1 ≤ k ∧ k < 5 ∧ (∀ j, 1 ≤ j → j < k → m.isIn (seatAfter c j) = false)
      ∧ ((∀ j, 1 ≤ j → j ≤ k → seatAfter c j ≠ m.firstUser)
          ∧ t' = { m with currentUser := some (seatAfter c k), isExceed := false, armed := true }
        ∨ (∃ n, 1 ≤ n ∧ n ≤ k ∧ seatAfter c n = m.firstUser)
          ∧ if m.currentTurn + 1 < 20 then
              t' = { m with
                currentUser := some (seatAfter c k), currentTurn := m.currentTurn + 1, isExceed := false, armed := true }
            else
              onUserCompareCardForce r { m with currentUser := some (seatAfter c k), isExceed := true } draw = some t') := by
  rw [nextStep, current] at next
  dsimp only at next
  split at next
  · cases next
  rename_i nextUser turn' exceed' found
  obtain ⟨passed, rest, split, gone, same, begun⟩ := searchNext_passed seated first (nodup_seatsAfter c) found
  have length := congrArg List.length split
  rw [List.length_map, List.length_range, List.length_append, List.length_cons] at length
  have here : nextUser = seatAfter c (passed.length + 1) := by
    have entry : (seatsAfter c)[passed.length]? = some (seatAfter c (passed.length + 1)) := by
      rw [List.getElem?_map, List.getElem?_range (by omega), Option.map_some]
    rw [split, List.getElem?_append_right le_rfl, Nat.sub_self, List.getElem?_cons_zero] at entry
    exact Option.some_inj.mp entry
  have met : m.firstUser ∈ passed ++ [nextUser] ↔ ∃ n, 1 ≤ n ∧ n ≤ passed.length + 1 ∧ seatAfter c n = m.firstUser := by
    rw [mem_of_split (by rw [split, List.append_cons]), List.length_append, List.length_singleton]
  refine ⟨passed.length + 1, by omega, by omega, ?_, ?_⟩
  · exact fun j positive before => gone _ ((mem_of_split split).mpr ⟨j, positive, by omega, rfl⟩)
  rw [← here]
  rcases Classical.em (m.firstUser ∈ passed ++ [nextUser]) with new | inside
  · refine Or.inr ⟨met.mp new, ?_⟩
    have turns := begun new
    split at turns
    · cases turns
      rename_i more
      rw [if_pos more]
      obtain ⟨_, -, rfl⟩ := Option.map_eq_some_iff.mp next
      rfl
    · cases turns
      rename_i most
      rw [if_neg most]
      exact next
  · refine Or.inl ⟨fun j positive till same' => inside (met.mpr ⟨j, positive, till, same'⟩), ?_⟩
    cases same inside
    obtain ⟨_, -, rfl⟩ := Option.map_eq_some_iff.mp next
    rfl

/-! ## The record of the bets -/

/-- A bet, with the value of `currentTurn_` when it is placed. -/
structure Bet where
  turn : ℕ
  chairId : Chair
  score : ℤ

/-- The bets that a step places. -/
def placed (t t' : Table) : List Bet :=
  (List.finRange 5).flatMap fun i => ((t'.betinfo i).drop (t.betinfo i).length).map fun score => ⟨t.currentTurn, i, score⟩

/-- What a player has bet in a turn. -/
def stakeIn (bets : List Bet) (turn : ℕ) (chairId : Chair) : ℤ :=
  ((bets.filter fun bet => bet.turn = turn ∧ bet.chairId = chairId).map (·.score)).sum

/-- The record of a round agrees with `betinfo_`: every player has bet in the turns from the first on, in the order of
the seats. -/
structure Recorded (firstUser : Chair) (bets : List Bet) (t : Table) : Prop where
  first : t.firstUser = firstUser
  turn : t.currentTurn < 20
  scores : ∀ i, (bets.filter (·.chairId = i)).map (·.score) = t.betinfo i
  turns : ∀ i, (bets.filter (·.chairId = i)).map (·.turn) = List.range (t.betinfo i).length
  order : ∀ k, (bets.filter (·.turn = k)).Pairwise fun a b => place firstUser a.chairId < place firstUser b.chairId
  past : ∀ bet ∈ bets, bet.turn ≤ t.currentTurn

/-- While `c` has the turn, the players who are in and sit before him have bet in it, and the others have not. -/
structure Seated (firstUser : Chair) (bets : List Bet) (t : Table) (c : Chair) : Prop
    extends Recorded firstUser bets t where
  goes : t.isExceed = false
  behind : ∀ bet ∈ bets, bet.turn = t.currentTurn → place firstUser bet.chairId < place firstUser c
  length : ∀ i, t.isIn i = true →
    (t.betinfo i).length = t.currentTurn + if place firstUser i < place firstUser c then 1 else 0

theorem place_injective (firstUser : Chair) : Function.Injective (place firstUser) := by
  have all : ∀ f i j : Fin 5, place f i = place f j → i = j := by decide
  exact all firstUser

theorem placed_of_acted (acted : Acted t m c bet) (same : t'.betinfo = m.betinfo) :
    placed t t' = bet.toList.map fun score => ⟨t.currentTurn, c, score⟩ := by
  have own : ∀ i, (t'.betinfo i).drop (t.betinfo i).length = if i = c then bet.toList else [] := by
    intro i
    rw [same]
    rcases eq_or_ne i c with rfl | other
    · rw [acted.own, List.drop_left, if_pos rfl]
    · rw [acted.others i other, List.drop_length, if_neg other]
  have all : ∀ c : Chair, ((List.finRange 5).flatMap fun i => if i = c then [c] else []) = [c] := by decide
  rw [placed]
  calc _ = ((List.finRange 5).flatMap fun i => if i = c then [c] else []).flatMap fun i =>
          bet.toList.map fun score => ⟨t.currentTurn, i, score⟩ := by
        rw [List.flatMap_assoc]
        apply List.flatMap_congr
        intro i _
        rw [own]
        split
        · rename_i same
          rw [same, List.flatMap_singleton]
        · rfl
    _ = _ := by rw [all, List.flatMap_singleton]

namespace Seated

variable {f : Chair} {bets : List Bet} (seated : Seated f bets t c)

include seated

/-- The player with the turn has not bet in it. -/
theorem length_self (here : t.isIn c = true) : (t.betinfo c).length = t.currentTurn := by
  rw [seated.length c here, if_neg (lt_irrefl _), Nat.add_zero]

/-- The record after an action. -/
theorem recorded (here : t.isIn c = true) (acted : Acted t m c bet) (same : t'.betinfo = m.betinfo) :
    Recorded f (bets ++ placed t t') m := by
  rw [placed_of_acted acted same]
  have before := seated.toRecorded
  cases bet with
  | none =>
    rw [Option.toList_none, List.map_nil, List.append_nil]
    have unchanged : m.betinfo = t.betinfo := by
      funext i
      rcases eq_or_ne i c with rfl | other
      · exact acted.own.trans (List.append_nil _)
      · exact acted.others i other
    exact ⟨acted.firstUser.trans before.first, acted.currentTurn ▸ before.turn, unchanged ▸ before.scores,
      unchanged ▸ before.turns, before.order, acted.currentTurn ▸ before.past⟩
  | some score =>
    rw [Option.toList_some, List.map_singleton]
    have own : m.betinfo c = t.betinfo c ++ [score] := acted.own
    constructor
    · exact acted.firstUser.trans before.first
    · exact acted.currentTurn ▸ before.turn
    · intro i
      rw [List.filter_append, List.map_append, before.scores]
      rcases eq_or_ne i c with rfl | other
      · rw [own, List.filter_cons_of_pos (by exact decide_eq_true rfl)]
        rfl
      · rw [acted.others i other, List.filter_cons_of_neg (by rw [decide_eq_true_iff]; exact other.symm)]
        exact List.append_nil _
    · intro i
      rw [List.filter_append, List.map_append, before.turns]
      rcases eq_or_ne i c with rfl | other
      · rw [own, List.length_append, List.length_singleton, List.range_succ, seated.length_self here,
          List.filter_cons_of_pos (by exact decide_eq_true rfl)]
        rfl
      · rw [acted.others i other, List.filter_cons_of_neg (by rw [decide_eq_true_iff]; exact other.symm)]
        exact List.append_nil _
    · intro k
      rw [List.filter_append, List.pairwise_append]
      refine ⟨before.order k, ?_, ?_⟩
      · exact (List.pairwise_singleton _ _).filter _
      · intro earlier present later last
        obtain ⟨present, turn⟩ := List.mem_filter.mp present
        obtain ⟨last, now⟩ := List.mem_filter.mp last
        cases List.mem_singleton.mp last
        rw [decide_eq_true_iff] at turn now
        exact seated.behind earlier present (turn.trans now.symm)
    · intro entry present
      rw [acted.currentTurn]
      rcases List.mem_append.mp present with earlier | last
      · exact before.past entry earlier
      · cases List.mem_singleton.mp last
        exact le_rfl

/-- Nobody has bet in this turn who sits after the player who has just acted. -/
theorem behind_of_acted (acted : Acted t m c bet) (same : t'.betinfo = m.betinfo) {entry : Bet}
    (present : entry ∈ bets ++ placed t t') (now : entry.turn = t.currentTurn) : place f entry.chairId ≤ place f c := by
  rw [placed_of_acted acted same] at present
  rcases List.mem_append.mp present with earlier | last
  · exact (seated.behind entry earlier now).le
  · obtain ⟨_, -, rfl⟩ := List.mem_map.mp last
    exact le_rfl

theorem length_of_acted (acted : Acted t m c bet) (bets : m.isIn c = true → bet.isSome = true) (here : m.isIn i = true) :
    (m.betinfo i).length = t.currentTurn + if place f i ≤ place f c then 1 else 0 := by
  have before := seated.length i (acted.mono i here)
  rcases eq_or_ne i c with rfl | other
  · obtain ⟨score, rfl⟩ := Option.isSome_iff_exists.mp (bets here)
    rw [acted.own, List.length_append, before, if_neg (lt_irrefl _), if_pos le_rfl]
    rfl
  · have apart : place f i ≠ place f c := fun same => other (place_injective f same)
    rw [acted.others i other, before]
    congr 1
    exact if_congr ⟨le_of_lt, fun le => lt_of_le_of_ne le apart⟩ rfl rfl

end Seated

/-- The record does not see who is in and who has the turn. -/
theorem Recorded.congr {f : Chair} {bets : List Bet} (recorded : Recorded f bets m) (first : t'.firstUser = m.firstUser)
    (same : t'.betinfo = m.betinfo) (later : m.currentTurn ≤ t'.currentTurn) (small : t'.currentTurn < 20) :
    Recorded f bets t' where
  first := first.trans recorded.first
  turn := small
  scores := same ▸ recorded.scores
  turns := same ▸ recorded.turns
  order := recorded.order
  past entry present := (recorded.past entry present).trans later

/-- The last turn is complete: two players or more are in, and all of them have bet in every turn. -/
def LastTurnComplete (t : Table) : Prop := 2 ≤ t.leftPlayerCount ∧ ∀ i, t.isIn i = true → (t.betinfo i).length = 20

/-- The round goes on with a seat in the order, or the action has left one player, or the last turn is complete. -/
inductive Turned (r : Round) (draw : Draw) (firstUser : Chair) (bets : List Bet) (t : Table) (c : Chair) (t' : Table) : Prop
  | goesOn (c' : Chair) (current : t'.currentUser = some c') (open_ : t'.settlement = none)
      (next : t'.currentTurn = t.currentTurn ∨ t'.currentTurn = t.currentTurn + 1) (seated : Seated firstUser bets t' c')
  | ends (m : Table) (bet : Option ℤ) (acted : Acted t m c bet)
      (concluded : onEventGameConclude r m = some t') (goes : t'.isExceed = false)
      (recorded : Recorded firstUser bets t')
  | exceeds (m : Table) (bet : Option ℤ) (next : Chair) (acted : Acted t m c bet) (complete : LastTurnComplete m)
      (compared : onUserCompareCardForce r { m with currentUser := some next, isExceed := true } draw = some t')
      (ended : t'.settlement.isSome = true) (exceed : t'.isExceed = true) (recorded : Recorded firstUser bets t')

/-- A player is passed who is out. -/
theorem seatAfter_ne_of_passed {k : ℕ} (passed : ∀ j, 1 ≤ j → j < k → m.isIn (seatAfter c j) = false)
    (here : m.isIn i = true) : ∀ j, 1 ≤ j → j < k → seatAfter c j ≠ i := by
  rintro j positive before rfl
  rw [passed j positive before] at here
  cases here

theorem turned_step {f : Chair} {bets : List Bet} (cell : 0 < r.cellScore) (playing : Playing r t c)
    (seated : Seated f bets t c) (taken : step r t event = some t') :
    Turned r event.draw f (bets ++ placed t t') t c t' := by
  obtain ⟨-, sound⟩ := sound_step cell (.inl ⟨c, playing⟩) taken
  have here := playing.here
  cases outcome_step playing.current playing.two taken with
  | stays acted =>
    apply Turned.goesOn c (acted.currentUser.trans playing.current) (acted.settlement.trans playing.open_)
      (.inl acted.currentTurn)
    have recorded := seated.recorded here acted (show t'.betinfo = t'.betinfo from rfl)
    refine { recorded with goes := acted.isExceed.trans seated.goes, behind := ?_, length := ?_ }
    · intro entry present now
      rw [placed_of_acted acted rfl, Option.toList_none, List.map_nil, List.append_nil] at present
      exact seated.behind entry present (now.trans acted.currentTurn)
    · intro i there
      have unchanged : t'.betinfo i = t.betinfo i := by
        rcases eq_or_ne i c with rfl | other
        · exact acted.own.trans (List.append_nil _)
        · exact acted.others i other
      rw [unchanged, acted.currentTurn]
      exact seated.length i (acted.mono i there)
  | ends m bet acted concluded =>
    obtain ⟨-, first, turn, exceed, same⟩ := onEventGameConclude_keeps concluded
    apply Turned.ends m bet acted concluded (exceed.trans (acted.isExceed.trans seated.goes))
    apply (seated.recorded here acted same).congr first same turn.ge
    rw [turn, acted.currentTurn]
    exact seated.turn
  | passes m bet acted placed_ two next =>
    have first : m.firstUser = f := acted.firstUser.trans seated.first
    have players : ∀ i, m.isIn i = true → r.players i = true :=
      fun i there => playing.ledger.plays (acted.mono i there)
    have open_ : m.settlement = none := acted.settlement.trans playing.open_
    obtain ⟨k, positive, small, passed, turns⟩ := nextStep_passes (acted.currentUser.trans playing.current)
      (acted.firstUser ▸ playing.first) players next
    rcases turns with ⟨inside, rfl⟩ | ⟨⟨n, n_pos, n_le, begins⟩, turns⟩
    · -- the turn goes on
      rw [first] at inside
      refine Turned.goesOn (seatAfter c k) rfl open_ (.inl acted.currentTurn) ?_
      have recorded := seated.recorded here acted (show m.betinfo = m.betinfo from rfl)
      refine { recorded.congr rfl rfl le_rfl recorded.turn with goes := rfl, behind := ?_, length := ?_ }
      · intro entry present now
        apply lt_of_le_of_lt (seated.behind_of_acted acted rfl present (now.trans acted.currentTurn))
        apply (place_lt_iff positive small inside ?_).mpr le_rfl
        exact fun j from_ till => seatAfter_ne from_ (by omega)
      · intro i there
        rw [seated.length_of_acted acted placed_ there, ← acted.currentTurn]
        congr 1
        exact if_congr (place_lt_iff positive small inside (seatAfter_ne_of_passed passed there)).symm rfl rfl
    · rw [first] at begins
      have all : ∀ i, m.isIn i = true → (m.betinfo i).length = t.currentTurn + 1 := by
        intro i there
        rw [seated.length_of_acted acted placed_ there,
          if_pos (place_le_of_new small n_pos n_le begins (seatAfter_ne_of_passed passed there)).1]
      split at turns
      · -- a new turn begins
        rename_i more
        subst turns
        refine Turned.goesOn (seatAfter c k) rfl open_ (.inr (congrArg (· + 1) acted.currentTurn)) ?_
        have recorded := seated.recorded here acted (show m.betinfo = m.betinfo from rfl)
        refine ⟨recorded.congr rfl rfl (Nat.le_succ _) (by exact more), rfl, ?_, ?_⟩
        · intro entry present now
          have past := recorded.past entry present
          have now' : entry.turn = m.currentTurn + 1 := now
          omega
        · intro i there
          have from_ := (place_le_of_new small n_pos n_le begins (seatAfter_ne_of_passed passed there)).2
          rw [if_neg (not_lt.mpr from_), Nat.add_zero]
          exact (all i there).trans (congrArg (· + 1) acted.currentTurn.symm)
      · -- the last turn is complete
        rename_i most
        have last : t.currentTurn + 1 = 20 := by
          have turn := seated.turn
          rw [acted.currentTurn] at most
          omega
        have complete : LastTurnComplete m := ⟨two, fun i there => (all i there).trans last⟩
        rcases onUserCompareCardForce_keeps rfl turns with ⟨rfl, away⟩ | ⟨final, shown, concluded⟩
        · rcases sound with ⟨c', playing'⟩ | ⟨s, settled⟩
          · cases playing'.current
            exact absurd playing'.here (Bool.eq_false_iff.mp away)
          · cases settled.settlement.symm.trans open_
        · obtain ⟨ended, first', turn, exceed, same⟩ := onEventGameConclude_keeps concluded
          have bets' : t'.betinfo = m.betinfo := by
            rw [same]
            funext i
            rcases eq_or_ne i (seatAfter c k) with rfl | other
            · exact shown.own.trans (List.append_nil _)
            · exact shown.others i other
          apply Turned.exceeds m bet (seatAfter c k) acted complete turns ended (exceed.trans shown.isExceed)
          have turn' : t'.currentTurn = m.currentTurn := turn.trans shown.currentTurn
          apply (seated.recorded here acted bets').congr (first'.trans shown.firstUser) bets' turn'.ge
          rw [turn', acted.currentTurn]
          exact seated.turn

/-! ## Runs -/

/-- A player has bet in the turns that come before the length of his list. -/
theorem Recorded.exists_iff {f : Chair} {bets : List Bet} (recorded : Recorded f bets t) (i : Chair) (k : ℕ) :
    (∃ bet ∈ bets, bet.turn = k ∧ bet.chairId = i) ↔ k < (t.betinfo i).length := by
  rw [← List.mem_range, ← recorded.turns i, List.mem_map]
  constructor
  · rintro ⟨bet, present, turn, own⟩
    exact ⟨bet, List.mem_filter.mpr ⟨present, decide_eq_true own⟩, turn⟩
  · rintro ⟨bet, present, turn⟩
    obtain ⟨present, own⟩ := List.mem_filter.mp present
    exact ⟨bet, present, turn, of_decide_eq_true own⟩

/-- With one bet in each turn, the bets of a turn are the entry of its number. -/
theorem sum_of_turn {bets : List Bet} (turns : bets.map (·.turn) = List.range bets.length) (k : ℕ) :
    ((bets.filter (·.turn = k)).map (·.score)).sum = (bets.map (·.score)).getD k 0 := by
  induction bets using List.reverseRecOn with
  | nil => rfl
  | append_singleton before last ih =>
    rw [List.map_append, List.length_append, List.map_singleton, List.length_singleton, List.range_succ] at turns
    obtain ⟨turns, turn⟩ := List.append_inj turns (by rw [List.length_map, List.length_range])
    rw [List.filter_append, List.map_append, List.sum_append, ih turns, List.map_append, List.map_singleton]
    have length : (before.map (·.score)).length = last.turn := by
      rw [List.length_map]
      exact (List.singleton_inj.mp turn).symm
    rcases lt_trichotomy k last.turn with earlier | same | later
    · rw [List.getD_append _ _ _ _ (by omega), List.filter_cons_of_neg (by rw [decide_eq_true_iff]; exact earlier.ne')]
      exact Int.add_zero _
    · rw [List.getD_append_right _ _ _ _ (by omega), List.getD_eq_default _ _ (by omega), zero_add,
        List.filter_cons_of_pos (by exact decide_eq_true same.symm), length, same, Nat.sub_self]
      exact Int.add_zero _
    · rw [List.getD_eq_default _ _ (by omega), List.getD_eq_default _ _ (by
          rw [List.length_append, List.length_singleton]
          omega), List.filter_cons_of_neg (by rw [decide_eq_true_iff]; exact later.ne)]
      rfl

theorem Recorded.getLastBetScore {f : Chair} {bets : List Bet} (recorded : Recorded f bets t) (i : Chair) :
    t.getLastBetScore i = stakeIn bets t.currentTurn i := by
  have turns := recorded.turns i
  rw [← recorded.scores i, List.length_map] at turns
  have both : (bets.filter fun bet => bet.turn = t.currentTurn ∧ bet.chairId = i)
      = (bets.filter (·.chairId = i)).filter (·.turn = t.currentTurn) := by
    rw [List.filter_filter]
    exact List.filter_congr fun bet _ => Bool.decide_and _ _
  rw [stakeIn, both, sum_of_turn turns, recorded.scores, Table.getLastBetScore]

/-- What holds of a round and its record between two steps. -/
def Ordered (r : Round) (f : Chair) (bets : List Bet) (t : Table) : Prop :=
  (∃ c, Playing r t c ∧ Seated f bets t c) ∨ (∃ s, Settled r t s) ∧ Recorded f bets t

theorem Ordered.recorded {f : Chair} {bets : List Bet} (ordered : Ordered r f bets t) : Recorded f bets t := by
  rcases ordered with ⟨c, -, seated⟩ | ⟨-, recorded⟩
  · exact seated.toRecorded
  · exact recorded

theorem ordered_step {f : Chair} {bets : List Bet} (cell : 0 < r.cellScore) (ordered : Ordered r f bets t)
    (taken : step r t event = some t') : Ordered r f (bets ++ placed t t') t' := by
  have ended : t'.settlement.isSome = true → Sound r t' → ∃ s, Settled r t' s := by
    rintro some_ (⟨c, playing⟩ | settled)
    · rw [playing.open_] at some_
      cases some_
    · exact settled
  rcases ordered with ⟨c, playing, seated⟩ | ⟨⟨s, settled⟩, recorded⟩
  · obtain ⟨-, sound⟩ := sound_step cell (.inl ⟨c, playing⟩) taken
    cases turned_step cell playing seated taken with
    | goesOn c' current open_ _ seated' =>
      rcases sound with ⟨c'', playing'⟩ | ⟨s, settled⟩
      · cases playing'.current.symm.trans current
        exact Or.inl ⟨_, playing', seated'⟩
      · cases settled.settlement.symm.trans open_
    | ends m bet _ concluded _ recorded => exact Or.inr ⟨ended (onEventGameConclude_keeps concluded).1 sound, recorded⟩
    | exceeds m bet next _ _ _ some_ _ recorded => exact Or.inr ⟨ended some_ sound, recorded⟩
  · have nothing : ∀ m : Table, m.betinfo = t.betinfo → placed t m = [] := by
      intro m same
      have quiet : Acted t t t.firstUser none := Acted.refl t t.firstUser
      exact placed_of_acted quiet same
    obtain ⟨-, settled'⟩ := settled_step settled taken
    refine Or.inr ⟨⟨s, settled'⟩, ?_⟩
    rcases eq_of_step_of_settled settled taken with rfl | ⟨i, -, rfl⟩
    · rw [nothing _ rfl, List.append_nil]
      exact recorded
    · have none_ := nothing { t with existUser := Function.update t.existUser i false } rfl
      rw [none_, List.append_nil]
      exact recorded.congr rfl rfl le_rfl recorded.turn

theorem seated_of_start {bankerUser : Chair} {deal : Deal} {start : Table}
    (starts : onGameStart r bankerUser deal = some start) (playing : Playing r start c) :
    Seated start.firstUser [] start c := by
  obtain ⟨firstUser, -, starts⟩ := Option.bind_eq_some_iff.mp starts
  obtain ⟨_, -, rfl⟩ := Option.map_eq_some_iff.mp starts
  obtain rfl : firstUser = c := Option.some_inj.mp playing.current
  refine ⟨⟨rfl, playing.turn, fun _ => rfl, fun _ => rfl, fun _ => .nil, ?_⟩, rfl, ?_, ?_⟩
  · exact fun _ absent => absurd absent List.not_mem_nil
  · exact fun _ absent => absurd absent List.not_mem_nil
  · intro i _
    have first : place firstUser firstUser = 0 := by
      have all : ∀ f : Fin 5, place f f = 0 := by decide
      exact all firstUser
    show 0 = 0 + if place firstUser i < place firstUser firstUser then 1 else 0
    rw [first, if_neg (Nat.not_lt_zero _)]

/-- In every run the bets of a turn are placed in the order of the seats from `firstUser_`. While the round goes on,
every player who is in has bet once in each turn before the present one; the length of `betinfo_` says whether he has
bet in this turn, and what an all-in pays back is reckoned from his stake in it. A step goes on with the same turn or
the next one, or its action leaves one player, or the last turn is complete and the forced showdown leaves one. -/
theorem turnOrder_of_run {bankerUser : Chair} {deal : Deal} {start : Table} {events : List Event}
    (plays : r.players bankerUser = true) (enough : ∀ i, r.players i = true → r.cellScore ≤ r.userScore i)
    (starts : onGameStart r bankerUser deal = some start) (run : Run (step r) (fun _ _ => True) start events t) :
    let bets := record (step r) placed start events
    t.currentTurn < 20
      ∧ (∀ k, (bets.filter (·.turn = k)).Pairwise fun a b =>
          place start.firstUser a.chairId < place start.firstUser b.chairId)
      ∧ (t.settlement = none → ∀ i, t.isIn i = true →
          (∀ k < t.currentTurn, ∃ bet ∈ bets, bet.turn = k ∧ bet.chairId = i)
          ∧ ((∃ bet ∈ bets, bet.turn = t.currentTurn ∧ bet.chairId = i) ∧ (t.betinfo i).length = t.currentTurn + 1
            ∨ (¬∃ bet ∈ bets, bet.turn = t.currentTurn ∧ bet.chairId = i) ∧ (t.betinfo i).length = t.currentTurn)
          ∧ t.getLastBetScore i = stakeIn bets t.currentTurn i
          ∧ ∀ m c bet left compare, Acted t m c bet → i ≠ c → m.isIn i = true →
              loseToAllIn r c left compare m i = writeLost r ((m.setComparedLost i).payBack i
                (if 0 < stakeIn bets t.currentTurn i then refund left compare (stakeIn bets t.currentTurn i) else 0)) i)
      ∧ (t.settlement = none → ∀ event t', step r t event = some t' → ∃ c, t.currentUser = some c ∧
          (t'.settlement = none ∧ t'.isExceed = false ∧ ¬LastTurnComplete t'
              ∧ (t'.currentTurn = t.currentTurn ∨ t'.currentTurn = t.currentTurn + 1)
            ∨ t'.isExceed = false ∧ (∃ m bet, Acted t m c bet ∧ m.leftPlayerCount = 1 ∧ onEventGameConclude r m = some t')
            ∨ t'.isExceed = true ∧ (∃ m bet next, Acted t m c bet ∧ LastTurnComplete m
                ∧ onUserCompareCardForce r { m with currentUser := some next, isExceed := true } event.draw = some t')
              ∧ ∃ s, t'.settlement = some s ∧ ∀ i, t'.isIn i = true ↔ i = s.winUser)) := by
  obtain ⟨cell, -, c, playing⟩ := playing_of_start plays enough starts
  have ordered : Ordered r start.firstUser (record (step r) placed start events) t := by
    apply run.record_invariant (Ordered r start.firstUser)
    · exact fun _ _ _ _ ordered _ taken => ordered_step cell ordered taken
    · exact Or.inl ⟨c, playing, seated_of_start starts playing⟩
  set bets := record (step r) placed start events
  have recorded := ordered.recorded
  refine ⟨recorded.turn, recorded.order, ?_, ?_⟩
  · intro open_ i here
    rcases ordered with ⟨c, playing, seated⟩ | ⟨⟨s, settled⟩, -⟩
    · have length := seated.length i here
      refine ⟨?_, ?_, recorded.getLastBetScore i, ?_⟩
      · intro k before
        exact (recorded.exists_iff i k).mpr (by omega)
      · rw [recorded.exists_iff]
        split at length
        · exact Or.inl ⟨by omega, length⟩
        · exact Or.inr ⟨by omega, length⟩
      · intro m c bet left compare acted other there
        rw [loseToAllIn_eq there other]
        have same : m.getLastBetScore i = stakeIn bets t.currentTurn i := by
          rw [← recorded.getLastBetScore i, Table.getLastBetScore, acted.others i other, acted.currentTurn]
          rfl
        rw [same]
    · cases settled.settlement.symm.trans open_
  · intro open_ event t' taken
    rcases ordered with ⟨c, playing, seated⟩ | ⟨⟨s, settled⟩, -⟩
    · refine ⟨c, playing.current, ?_⟩
      obtain ⟨-, sound⟩ := sound_step cell (.inl ⟨c, playing⟩) taken
      cases turned_step cell playing seated taken with
      | goesOn c' current open_' next seated' =>
        refine Or.inl ⟨open_', seated'.goes, ?_, next⟩
        rintro ⟨-, complete⟩
        rcases sound with ⟨c'', playing'⟩ | ⟨s, settled⟩
        · cases playing'.current.symm.trans current
          have length := seated'.length_self playing'.here
          have turn := seated'.turn
          rw [complete _ playing'.here] at length
          omega
        · cases settled.settlement.symm.trans open_'
      | ends m bet acted concluded goes _ =>
        exact Or.inr (Or.inl ⟨goes, m, bet, acted, one_of_concluded concluded, concluded⟩)
      | exceeds m bet next acted complete compared some_ exceed _ =>
        refine Or.inr (Or.inr ⟨exceed, ⟨m, bet, next, acted, complete, compared⟩, ?_⟩)
        rcases sound with ⟨c', playing'⟩ | ⟨s, settled⟩
        · rw [playing'.open_] at some_
          cases some_
        · exact ⟨s, settled.settlement, settled.only⟩
    · cases settled.settlement.symm.trans open_

/-- Player 1 has raised in the first turn and player 0 has not acted yet: an all-in would find the 20 of the raise. -/
theorem raised_turnOrder :
    let bets := record (step twoPlayers) placed opening [sent (.addScore 1 1)]
    raised.getLastBetScore 1 = stakeIn bets raised.currentTurn 1 ∧ stakeIn bets raised.currentTurn 1 = 20
      ∧ ¬∃ bet ∈ bets, bet.turn = raised.currentTurn ∧ bet.chairId = 0 := by
  have run := run_raised.mono fun _ _ _ => trivial
  have inside : raised.settlement = none ∧ raised.isIn 1 = true ∧ raised.isIn 0 = true := by decide
  have turns := (turnOrder_of_run rfl twoPlayers_enough twoPlayers_starts run).2.2.1 inside.1
  refine ⟨(turns 1 inside.2.1).2.2.1, by decide, ?_⟩
  rcases (turns 0 inside.2.2).2.1 with ⟨-, one⟩ | ⟨none_, -⟩
  · exact absurd one (by decide)
  · exact none_

end H5Server.Zjh
