import H5Server.Lib.Runs
import H5Server.Zjh.Ledger
import Mathlib.Data.List.Chain
import Mathlib.Data.List.GetD

/-! # How a turn ends

A player drops out, the banker is replaced, the turn goes on or the round is concluded. Each of them keeps the
ledger, and each turn that goes on brings the round nearer to its end.
-/

namespace H5Server.Zjh

open Lib

/-- What holds of a round between two actions. -/
structure Running (r : Round) (t : Table) : Prop where
  ledger : Ledger r t
  open_ : t.settlement = none
  banker : t.isIn t.bankerUser = true
  first : r.players t.firstUser = true
  turn : t.currentTurn < 20
  follow : 0 < t.followScore

/-- A player has the turn who has somebody to play against. -/
structure Playing (r : Round) (t : Table) (c : Chair) : Prop extends Running r t where
  current : t.currentUser = some c
  here : t.isIn c = true
  two : 2 ≤ t.leftPlayerCount

/-- A round that has been concluded. -/
structure Settled (r : Round) (t : Table) (s : Settlement) : Prop where
  settlement : t.settlement = some s
  current : t.currentUser = none
  armed : t.armed = false
  stakes : ∀ i, r.players i = true → r.cellScore ≤ t.tableScore i ∧ t.tableScore i ≤ r.userScore i
  total : t.tableAllScore = ∑ i with r.players i = true, t.tableScore i
  only : ∀ i, t.isIn i = true ↔ i = s.winUser
  banker : t.bankerUser = s.winUser
  losers : ∀ i, r.players i = true → i ≠ s.winUser → r.isAndroid i = false → t.writes i = [-t.tableScore i]
  winner : r.isAndroid s.winUser = false → ∃ score, t.writes s.winUser = [score]
  sum : ∑ i with r.players i = true, s.userWinScore i = 0

/-- How far `firstUser` sits behind the player with the turn. -/
def ahead (firstUser c : Chair) : ℕ := (firstUser - c - 1 : Fin 5).val

/-- What is left of a round: the players, the turns, and the seats of the present turn. -/
def progress (t : Table) (c : Chair) : ℕ := t.leftPlayerCount + 5 * (20 - t.currentTurn) + ahead t.firstUser c

/-- An action on a table gives a table that comes nearer to the end, or the end. -/
def Ends (r : Round) (t : Table) (bound : ℕ) (result : Option Table) : Prop :=
  (r.jettonList.Pairwise (· < ·) → result.isSome = true) ∧
    ∀ t', result = some t' → Keeps t t' ∧
      ((∃ c, Playing r t' c ∧ t'.armed = true ∧ progress t' c < bound) ∨ ∃ s, Settled r t' s)

variable {r : Round} {t t' : Table} {draw : Draw} {c i j : Chair} {bound : ℕ} {result : Option Table} {s z : ℤ}

theorem Ends.of_keeps {lower : ℕ} (ends : Ends r t' lower result) (keeps : Keeps t t') (less : lower ≤ bound) :
    Ends r t bound result := by
  refine ⟨ends.1, fun last made => ?_⟩
  obtain ⟨later, outcome⟩ := ends.2 last made
  refine ⟨keeps.trans later, ?_⟩
  rcases outcome with ⟨c, playing, armed, nearer⟩ | settled
  · exact Or.inl ⟨c, playing, armed, lt_of_lt_of_le nearer less⟩
  · exact Or.inr settled

/-! ## Players drop out -/

/-- `c` is out and has got back `z`; a real player has paid. -/
structure Dropped (r : Round) (t : Table) (c : Chair) (z : ℤ) (t' : Table) : Prop where
  exist : t'.existUser = t.existUser
  out : ∀ i, t'.out i = if i = c then true else t.out i
  own : t'.tableScore c = t.tableScore c - z
  others : ∀ i, i ≠ c → t'.tableScore i = t.tableScore i
  total : t'.tableAllScore = t.tableAllScore - z
  bets : t'.betinfo = t.betinfo
  written : t'.written = t.written ++ if r.isAndroid c then [] else [(c, -(t.tableScore c - z))]

namespace Dropped

variable (dropped : Dropped r t c z t')

include dropped

theorem out_self : t'.out c = true := (dropped.out c).trans (if_pos rfl)

theorem out_of_ne (other : i ≠ c) : t'.out i = t.out i := (dropped.out i).trans (if_neg other)

theorem isIn_self : t'.isIn c = false := by
  rw [Table.isIn, dropped.out_self, Bool.not_true, Bool.and_false]

theorem isIn_of_ne (other : i ≠ c) : t'.isIn i = t.isIn i := by
  rw [Table.isIn, Table.isIn, dropped.exist, dropped.out_of_ne other]

theorem isIn_mono (here : t'.isIn i = true) : t.isIn i = true := by
  rcases eq_or_ne i c with rfl | other
  · rw [dropped.isIn_self] at here
    cases here
  · rwa [dropped.isIn_of_ne other] at here

theorem ne_of_isIn (here : t'.isIn i = true) : i ≠ c := by
  rintro rfl
  rw [dropped.isIn_self] at here
  cases here

theorem writes_self : t'.writes c = t.writes c ++ if r.isAndroid c then [] else [-(t.tableScore c - z)] := by
  rw [Table.writes, dropped.written, List.filter_append, List.map_append, Table.writes]
  cases r.isAndroid c
  · rw [if_neg Bool.false_ne_true, if_neg Bool.false_ne_true, List.filter_cons_of_pos (by exact decide_eq_true rfl)]
    rfl
  · rfl

theorem writes_of_ne (other : i ≠ c) : t'.writes i = t.writes i := by
  rw [Table.writes, dropped.written, List.filter_append, List.map_append, Table.writes]
  cases r.isAndroid c
  · rw [if_neg Bool.false_ne_true, List.filter_cons_of_neg (by rw [decide_eq_true_iff]; exact other.symm),
      List.filter_nil, List.map_nil, List.append_nil]
  · rw [if_pos rfl, List.filter_nil, List.map_nil, List.append_nil]

theorem ledger (ledger : Ledger r t) (here : t.isIn c = true) (nonneg : 0 ≤ z) (covered : z ≤ (t.betinfo c).sum) :
    Ledger r t' := by
  apply ledger.change c
  · intro i other
    exact ⟨congrFun dropped.exist i, dropped.out_of_ne other, dropped.others i other, congrFun dropped.bets i,
      dropped.writes_of_ne other⟩
  · have seat := ledger.1 c
    rw [(isIn_iff.mp here).2] at seat
    rw [dropped.exist, dropped.out_self, dropped.own, dropped.bets, dropped.writes_self]
    exact seat.drop (ledger.plays here) nonneg covered
  · rw [dropped.total, dropped.own]
    ring

theorem keeps (here : t.isIn c = true) : Keeps t t' := by
  intro i outs
  have other : i ≠ c := by
    rintro rfl
    rw [(isIn_iff.mp here).2] at outs
    cases outs
  exact ⟨(dropped.out_of_ne other).trans outs, dropped.others i other⟩

theorem leftPlayerCount (here : t.isIn c = true) : t'.leftPlayerCount + 1 = t.leftPlayerCount :=
  leftPlayerCount_of_drop here dropped.isIn_self fun _ other => dropped.isIn_of_ne other

end Dropped

private theorem out_update {flags other : Chair → Bool} (c i : Chair) :
    (Function.update flags c true i || other i) = if i = c then true else (flags i || other i) := by
  rcases eq_or_ne i c with rfl | apart
  · rw [Function.update_self, Bool.true_or, if_pos rfl]
  · rw [Function.update_of_ne apart, if_neg apart]

theorem setComparedLost_out (c i : Chair) : (t.setComparedLost c).out i = if i = c then true else t.out i := by
  show (t.isGiveup i || Function.update t.isComparedLost c true i) = if i = c then true else (t.isGiveup i || t.isComparedLost i)
  rw [Bool.or_comm, Bool.or_comm (t.isGiveup i)]
  exact out_update c i

theorem setGiveup_out (c i : Chair) : (t.setGiveup c).out i = if i = c then true else t.out i := out_update c i

/-- A player who has been marked as out, and has got back `z`, pays. -/
theorem dropped_writeLost {lost : Table} (exist : lost.existUser = t.existUser)
    (out : ∀ i, lost.out i = if i = c then true else t.out i) (own : lost.tableScore c = t.tableScore c - z)
    (others : ∀ i, i ≠ c → lost.tableScore i = t.tableScore i) (total : lost.tableAllScore = t.tableAllScore - z)
    (bets : lost.betinfo = t.betinfo) (written : lost.written = t.written) : Dropped r t c z (writeLost r lost c) := by
  rw [writeLost]
  cases robot : r.isAndroid c
  · rw [if_neg Bool.false_ne_true]
    refine ⟨exist, out, own, others, total, bets, ?_⟩
    rw [robot, if_neg Bool.false_ne_true, ← own, ← written]
  · rw [if_pos rfl]
    refine ⟨exist, out, own, others, total, bets, ?_⟩
    rw [robot, if_pos rfl, List.append_nil, written]

/-- A player drops out with all of his stake. -/
theorem dropped_of_marked {lost : Table} (exist : lost.existUser = t.existUser)
    (out : ∀ i, lost.out i = if i = c then true else t.out i) (stake : lost.tableScore = t.tableScore)
    (total : lost.tableAllScore = t.tableAllScore) (bets : lost.betinfo = t.betinfo) (written : lost.written = t.written) :
    Dropped r t c 0 (writeLost r lost c) :=
  dropped_writeLost exist out (by rw [stake, sub_zero]) (fun i _ => congrFun stake i) (by rw [total, sub_zero])
    bets written

theorem dropped_setComparedLost (t : Table) (c : Chair) : Dropped r t c 0 (writeLost r (t.setComparedLost c) c) :=
  dropped_of_marked rfl (setComparedLost_out c) rfl rfl rfl rfl

theorem dropped_setGiveup (t : Table) (c : Chair) : Dropped r t c 0 (writeLost r (t.setGiveup c) c) :=
  dropped_of_marked rfl (setGiveup_out c) rfl rfl rfl rfl

/-- Writing changes nothing else. -/
theorem writeLost_eq (r : Round) (t : Table) (c : Chair) : ∃ written, writeLost r t c = { t with written } := by
  rw [writeLost]
  cases r.isAndroid c
  · exact ⟨_, rfl⟩
  · exact ⟨t.written, rfl⟩

/-! ## The end of a round -/

theorem Ledger.total (ledger : Ledger r t) : t.tableAllScore = ∑ i with r.players i = true, t.tableScore i := by
  rw [ledger.2, Finset.sum_filter]
  apply Finset.sum_congr rfl
  intro i _
  cases plays : r.players i
  · exact ((ledger.1 i).absent plays).2.2
  · rfl

theorem Ledger.stake_nonneg (ledger : Ledger r t) (cell : 0 < r.cellScore) (i : Chair) : 0 ≤ t.tableScore i := by
  cases plays : r.players i
  · exact ((ledger.1 i).absent plays).2.2.ge
  · exact cell.le.trans ((ledger.1 i).bounds plays).1

/-- What each player wins when the last one takes the stakes. -/
def winScore (t : Table) (i : Chair) : ℤ := if t.out i then -t.tableScore i else t.tableAllScore - t.tableScore i

theorem Ledger.winScore_eq (ledger : Ledger r t) (only : ∀ i, t.isIn i = true ↔ i = c) (plays : r.players i = true) :
    winScore t i = (if i = c then t.tableAllScore else 0) - t.tableScore i := by
  rw [winScore]
  cases outs : t.out i
  · rw [if_neg Bool.false_ne_true, if_pos ((only i).mp ((ledger.isIn_iff_not_out plays).mpr outs))]
  · have other : i ≠ c := by
      intro same
      rw [(isIn_iff.mp ((only i).mpr same)).2] at outs
      cases outs
    rw [if_pos rfl, if_neg other, zero_sub]

theorem Ledger.sum_winScore (ledger : Ledger r t) (only : ∀ i, t.isIn i = true ↔ i = c) :
    ∑ i with r.players i = true, winScore t i = 0 := by
  have plays : c ∈ Finset.univ.filter fun i => r.players i = true :=
    Finset.mem_filter.mpr ⟨Finset.mem_univ c, ledger.plays ((only c).mpr rfl)⟩
  calc ∑ i with r.players i = true, winScore t i
      = ∑ i with r.players i = true, ((if i = c then t.tableAllScore else 0) - t.tableScore i) :=
        Finset.sum_congr rfl fun i present => ledger.winScore_eq only (Finset.mem_filter.mp present).2
    _ = t.tableAllScore - ∑ i with r.players i = true, t.tableScore i := by
        rw [Finset.sum_sub_distrib, Finset.sum_ite_eq' _ c, if_pos plays]
    _ = 0 := by rw [← ledger.total, sub_self]

/-- Only the winner does not lose. -/
theorem Ledger.winScore_neg_iff (ledger : Ledger r t) (cell : 0 < r.cellScore) (only : ∀ i, t.isIn i = true ↔ i = c)
    (plays : r.players i = true) : winScore t i < 0 ↔ i ≠ c := by
  rw [ledger.winScore_eq only plays]
  rcases eq_or_ne i c with rfl | other
  · rw [if_pos rfl]
    have part : t.tableScore i ≤ ∑ j, t.tableScore j :=
      Finset.single_le_sum (fun j _ => ledger.stake_nonneg cell j) (Finset.mem_univ i)
    rw [← ledger.2] at part
    exact ⟨fun less => absurd less (by omega), fun apart => absurd rfl apart⟩
  · rw [if_neg other]
    have stake := ((ledger.1 i).bounds plays).1
    exact ⟨fun _ => other, fun _ => by omega⟩

/-- The last player is the banker, and no assertion fails. -/
theorem ends_onEventGameConclude (cell : 0 < r.cellScore) (ledger : Ledger r t)
    (banker : t.isIn t.bankerUser = true) (few : ¬2 ≤ t.leftPlayerCount) :
    Ends r t bound (onEventGameConclude r t) := by
  have only := only_of_lt few banker
  have covered : ¬∃ i, r.players i = true ∧ r.userScore i < t.tableScore i := by
    rintro ⟨i, plays, more⟩
    have := ((ledger.1 i).bounds plays).2
    omega
  have losers : ¬∃ i, r.players i = true ∧ (winScore t i < 0 ↔ i = t.bankerUser) := by
    rintro ⟨i, plays, both⟩
    rw [ledger.winScore_neg_iff cell only plays] at both
    exact iff_not_self both.symm
  obtain ⟨revenue, concluded⟩ : ∃ revenue, onEventGameConclude r t = some { t with
      armed := false
      currentUser := none
      written := t.written ++ if r.isAndroid t.bankerUser then []
        else [(t.bankerUser, winScore t t.bankerUser - revenue)]
      settlement := some ⟨t.bankerUser, winScore t⟩ } := by
    rw [onEventGameConclude, filter_isIn_eq only]
    refine ⟨_, (if_neg fun apart => apart rfl).trans ((if_neg covered).trans (if_neg losers))⟩
  rw [concluded]
  refine ⟨fun _ => rfl, fun t' made => ?_⟩
  cases made
  refine ⟨fun i outs => ⟨outs, rfl⟩, Or.inr ⟨⟨t.bankerUser, winScore t⟩, ?_⟩⟩
  constructor
  · rfl
  · rfl
  · rfl
  · exact fun i plays => (ledger.1 i).bounds plays
  · exact ledger.total
  · exact only
  · rfl
  · intro i plays other real
    have outs : t.out i = true := by
      by_contra stays
      exact other ((only i).mp ((ledger.isIn_iff_not_out plays).mpr (Bool.eq_false_iff.mpr stays)))
    have written := (ledger.1 i).writes
    rw [if_pos ⟨outs, real⟩] at written
    rw [← written, Table.writes, List.filter_append, List.map_append, Table.writes]
    cases r.isAndroid t.bankerUser
    · rw [if_neg Bool.false_ne_true, List.filter_cons_of_neg (by rw [decide_eq_true_iff]; exact other.symm),
        List.filter_nil, List.map_nil, List.append_nil]
    · rw [if_pos rfl, List.filter_nil, List.map_nil, List.append_nil]
  · intro real
    refine ⟨winScore t t.bankerUser - revenue, ?_⟩
    have written := (ledger.1 t.bankerUser).writes
    rw [if_neg fun both => Bool.false_ne_true ((isIn_iff.mp banker).2.symm.trans both.1)] at written
    rw [Table.writes] at written
    rw [Table.writes, List.filter_append, List.map_append, written, if_neg (by rw [real]; exact Bool.false_ne_true),
      List.filter_cons_of_pos (by exact decide_eq_true rfl)]
    rfl
  · exact ledger.sum_winScore only

/-- The banker is a player who is in. -/
theorem exists_moveBanker (lost : Chair) (banker : t.isIn t.bankerUser = true ∨ t.bankerUser = lost)
    (someone : ∃ i, t.isIn i = true) :
    ∃ b, t.moveBanker lost = some { t with bankerUser := b } ∧ t.isIn b = true := by
  rw [Table.moveBanker]
  rcases eq_or_ne t.bankerUser lost with same | other
  · obtain ⟨i, here⟩ := someone
    obtain ⟨next, found, here', -⟩ := exists_getNextUser (t := t) (seatAfter t.bankerUser 1) false
      ⟨i, here, fun both => Bool.false_ne_true both.1⟩
    rw [if_pos same, found]
    exact ⟨next, rfl, here'⟩
  · rw [if_neg other]
    exact ⟨t.bankerUser, rfl, banker.resolve_right other⟩

/-! ## The forced showdown -/

/-- Nothing has changed but the hands. -/
def HandsOnly (t t' : Table) : Prop := ∃ handCards handCardsType changed,
  t' = { t with handCards, handCardsType, blastAndroidChangeCard := changed }

theorem HandsOnly.refl (t : Table) : HandsOnly t t :=
  ⟨t.handCards, t.handCardsType, t.blastAndroidChangeCard, rfl⟩

theorem HandsOnly.ite {p : Prop} [Decidable p] {a b : Table} (yes : HandsOnly t a) (no : HandsOnly t b) :
    HandsOnly t (if p then a else b) := by
  split
  · exact yes
  · exact no

theorem handsOnly_analyse (r : Round) (t : Table) (draw : Draw) (i j : Chair) : HandsOnly t (analyse r t draw i j) := by
  have changed : ∀ seat, HandsOnly t (changeCards { t with blastAndroidChangeCard := true } seat) :=
    fun seat => ⟨_, _, _, rfl⟩
  apply HandsOnly.ite (HandsOnly.refl t)
  apply HandsOnly.ite ?_ (HandsOnly.refl t)
  apply HandsOnly.ite ?_ (HandsOnly.refl t)
  apply HandsOnly.ite (changed i)
  apply HandsOnly.ite (changed j)
  exact ⟨t.handCards, t.handCardsType, true, rfl⟩

/-- What the comparisons of a showdown keep, where `winUser` has won so far. -/
structure Showdown (r : Round) (t t' : Table) (winUser : Chair) : Prop where
  ledger : Ledger r t'
  keeps : Keeps t t'
  banker : t'.bankerUser = t.bankerUser
  giveup : t'.isGiveup = t.isGiveup
  winner : t'.isIn winUser = true
  mono : ∀ i, t'.isIn i = true → t.isIn i = true

theorem Showdown.trans {t'' : Table} (first : Showdown r t t' i) (second : Showdown r t' t'' j) :
    Showdown r t t'' j where
  ledger := second.ledger
  keeps := first.keeps.trans second.keeps
  banker := second.banker.trans first.banker
  giveup := second.giveup.trans first.giveup
  winner := second.winner
  mono k here := first.mono k (second.mono k here)

/-- The loser of a comparison drops out. -/
theorem showdown_of_lost {loser winner : Chair} (hands : HandsOnly t t') (ledger : Ledger r t)
    (here : t.isIn loser = true) (wins : t.isIn winner = true) (apart : winner ≠ loser) :
    Showdown r t (writeLost r (t'.setComparedLost loser) loser) winner := by
  obtain ⟨handCards, types, changed, rfl⟩ := hands
  have dropped := dropped_setComparedLost (r := r)
    { t with handCards, handCardsType := types, blastAndroidChangeCard := changed } loser
  obtain ⟨written, same⟩ := writeLost_eq r (Table.setComparedLost
    { t with handCards, handCardsType := types, blastAndroidChangeCard := changed } loser) loser
  constructor
  · exact dropped.ledger ledger here le_rfl (List.sum_nonneg (ledger.1 loser).bets)
  · exact dropped.keeps here
  · rw [same]
    rfl
  · rw [same]
    rfl
  · rw [dropped.isIn_of_ne apart]
    exact wins
  · exact fun i => dropped.isIn_mono

/-- After one comparison only the winner is left of the two. -/
theorem compareForce_spec (draw : Draw) (ledger : Ledger r t) (wins : t.isIn c = true) (next : Chair) :
    ∃ t' winUser, compareForce r draw (t, c) next = some (t', winUser) ∧ Showdown r t t' winUser
      ∧ ∀ i, i = next ∨ i = c → t'.isIn i = true → i = winUser := by
  have unchanged : Showdown r t t c := ⟨ledger, Keeps.refl t, rfl, rfl, wins, fun _ here => here⟩
  rw [compareForce]
  dsimp only
  cases exist : t.existUser next
  · refine ⟨t, c, rfl, unchanged, ?_⟩
    rintro i (rfl | rfl) here
    · rw [(isIn_iff.mp here).1] at exist
      cases exist
    · rfl
  rcases eq_or_ne next c with rfl | apart
  · refine ⟨t, next, (if_neg Bool.false_ne_true).trans (if_pos rfl), unchanged, ?_⟩
    rintro i (rfl | rfl) _ <;> rfl
  rw [Bool.not_true, if_neg Bool.false_ne_true, if_neg apart]
  cases outs : t.out next
  · have here : t.isIn next = true := isIn_iff.mpr ⟨exist, outs⟩
    have hands := handsOnly_analyse r t draw c next
    rw [if_neg Bool.false_ne_true, wins, Bool.not_true, if_neg Bool.false_ne_true]
    split
    · refine ⟨_, next, rfl, showdown_of_lost hands ledger wins here apart, ?_⟩
      rintro i (rfl | rfl) here'
      · rfl
      · exact absurd rfl ((dropped_setComparedLost (r := r) _ i).ne_of_isIn here')
    · refine ⟨_, c, rfl, showdown_of_lost hands ledger here wins apart.symm, ?_⟩
      rintro i (rfl | rfl) here'
      · exact absurd rfl ((dropped_setComparedLost (r := r) _ i).ne_of_isIn here')
      · rfl
  · refine ⟨t, c, if_pos rfl, unchanged, ?_⟩
    rintro i (rfl | rfl) here
    · rw [(isIn_iff.mp here).2] at outs
      cases outs
    · rfl

/-- After all comparisons only the winner is left of those who were compared. -/
theorem foldlM_compareForce_spec (draw : Draw) (seats : List Chair) (ledger : Ledger r t) (wins : t.isIn c = true) :
    ∃ t' winUser, seats.foldlM (compareForce r draw) (t, c) = some (t', winUser) ∧ Showdown r t t' winUser
      ∧ ∀ i, i ∈ seats ∨ i = c → t'.isIn i = true → i = winUser := by
  induction seats generalizing t c with
  | nil =>
    refine ⟨t, c, rfl, ⟨ledger, Keeps.refl t, rfl, rfl, wins, fun _ here => here⟩, ?_⟩
    rintro i (absent | same) _
    · cases absent
    · exact same
  | cons next rest ih =>
    obtain ⟨middle, ahead, compared, shown, left⟩ := compareForce_spec draw ledger wins next
    obtain ⟨last, winUser, rest', shown', left'⟩ := ih shown.ledger shown.winner
    refine ⟨last, winUser, ?_, shown.trans shown', ?_⟩
    · rw [List.foldlM_cons, compared]
      exact rest'
    · intro i compares here
      have before := shown'.mono i here
      rcases compares with present | same
      · rcases List.mem_cons.mp present with same | later
        · exact left' i (Or.inr (left i (Or.inl same) before)) here
        · exact left' i (Or.inl later) here
      · exact left' i (Or.inr (left i (Or.inr same) before)) here

theorem ends_onUserCompareCardForce (cell : 0 < r.cellScore) (ledger : Ledger r t)
    (banker : t.isIn t.bankerUser = true) (current : t.currentUser = some c) (here : t.isIn c = true) :
    Ends r t bound (onUserCompareCardForce r t draw) := by
  obtain ⟨exist, stays⟩ := isIn_iff.mp here
  obtain ⟨w, found, wins, -⟩ := exists_getNextUser (t := t) c false ⟨c, here, fun both => Bool.false_ne_true both.1⟩
  obtain ⟨last, winUser, compared, shown, left⟩ := foldlM_compareForce_spec draw
    ((List.range 5).map (seatAfter ((t.getNextUser (seatAfter t.bankerUser 1) true).getD 0))) ledger wins
  have only : ∀ i, last.isIn i = true → i = winUser := by
    intro i here'
    obtain ⟨k, small, same⟩ := exists_seatAfter ((t.getNextUser (seatAfter t.bankerUser 1) true).getD 0) i
    exact left i (Or.inl (same ▸ List.mem_map_of_mem (List.mem_range.mpr small))) here'
  obtain ⟨b, moved, banker'⟩ : ∃ b, (if last.isComparedLost last.bankerUser then last.moveBanker last.bankerUser
      else some last) = some { last with bankerUser := b } ∧ last.isIn b = true := by
    cases lost : last.isComparedLost last.bankerUser
    · refine ⟨last.bankerUser, rfl, ?_⟩
      rw [shown.banker] at lost ⊢
      apply (shown.ledger.isIn_iff_not_out (ledger.plays banker)).mpr
      have stays' := (isIn_iff.mp banker).2
      rw [Table.out, Bool.or_eq_false_iff] at stays' ⊢
      exact ⟨shown.giveup ▸ stays'.1, lost⟩
    · exact exists_moveBanker _ (Or.inr rfl) ⟨winUser, shown.winner⟩
  have result : onUserCompareCardForce r t draw = onEventGameConclude r { last with bankerUser := b } := by
    rw [onUserCompareCardForce, current]
    dsimp only
    rw [exist, stays, found, Bool.not_true, if_neg Bool.false_ne_true, if_neg Bool.false_ne_true]
    dsimp only
    rw [compared, Option.bind_some, moved, Option.bind_some]
  rw [result]
  have few : ¬2 ≤ last.leftPlayerCount := by
    intro two
    obtain ⟨i, apart, here'⟩ := exists_other two winUser
    exact apart (only i here')
  have ends : Ends r { last with bankerUser := b } bound _ := ends_onEventGameConclude cell shown.ledger banker' few
  exact ends.of_keeps shown.keeps le_rfl

/-! ## The next turn -/

/-- The scores of a room rise, so that no assertion of `GetCurrentAddStart` fails. -/
theorem exists_getCurrentAddStart {jettonList : List ℤ} {followScore : ℤ} (rises : jettonList.Pairwise (· < ·))
    (positive : 0 < followScore) : ∃ start, getCurrentAddStart jettonList followScore = some start := by
  rw [getCurrentAddStart, if_neg (not_not.mpr positive)]
  cases found : jettonList.idxOf? followScore with
  | none => exact ⟨-1, rfl⟩
  | some i =>
    obtain ⟨inside, same, -⟩ := List.idxOf?_eq_some_iff.mp found
    have chain : (followScore :: jettonList.drop (i + 1)).IsChain (· < ·) := by
      have tail := (rises.drop (i := i)).isChain
      rwa [List.drop_eq_getElem_cons inside, same] at tail
    dsimp only
    rw [if_pos chain]
    split
    · exact ⟨-1, rfl⟩
    · exact ⟨((i + 1 : ℕ) : ℤ), rfl⟩

/-- A score from the start on is a raise. -/
theorem lt_of_getCurrentAddStart {jettonList : List ℤ} {followScore start index : ℤ}
    (found : getCurrentAddStart jettonList followScore = some start) (positive : 0 < start) (from_ : start ≤ index)
    (inside : index < jettonList.length) : followScore < jettonList.getD index.toNat 0 := by
  rw [getCurrentAddStart] at found
  split at found
  · cases found
  split at found
  · injection found with same
    omega
  · rename_i i _
    split at found
    · injection found with same
      omega
    split at found
    · rename_i chain
      injection found with same
      have later := List.pairwise_cons.mp (List.isChain_iff_pairwise.mp chain)
      apply later.1
      have bound : index.toNat < jettonList.length := by omega
      rw [List.getD_eq_getElem _ _ bound, List.mem_drop_iff_getElem]
      refine ⟨index.toNat - (i + 1), by omega, ?_⟩
      congr 1
      omega
    · cases found

/-- The first of the seats that is in is found. Where the turn does not rise, `firstUser` is not passed. -/
theorem searchNext_spec (exceed : Bool) (ledger : Ledger r t) (first : r.players t.firstUser = true)
    {seats : List Chair} {turn : ℕ} (small : turn < 20) (someone : ∃ i ∈ seats, t.isIn i = true) :
    ∃ passed next rest turn' exceed', t.searchNext r seats (turn, exceed) = (some next, turn', exceed')
      ∧ seats = passed ++ next :: rest ∧ t.isIn next = true ∧ turn ≤ turn' ∧ turn' < 20
      ∧ (exceed' = false → exceed = false ∧ (turn' = turn → t.firstUser ∉ passed ++ [next])) := by
  induction seats generalizing turn exceed with
  | nil =>
    obtain ⟨i, absent, -⟩ := someone
    cases absent
  | cons a rest ih =>
    rw [Table.searchNext]
    cases plays : r.players a
    · have later : ∃ i ∈ rest, t.isIn i = true := by
        obtain ⟨i, present, here⟩ := someone
        rcases List.mem_cons.mp present with rfl | present
        · rw [ledger.plays here] at plays
          cases plays
        · exact ⟨i, present, here⟩
      obtain ⟨passed, next, rest', turn', exceed', found, split, here, more, small', same⟩ := ih exceed small later
      refine ⟨a :: passed, next, rest', turn', exceed', found, by rw [split, List.cons_append], here, more, small', ?_⟩
      intro stays
      refine ⟨(same stays).1, fun equal present => ?_⟩
      rcases List.mem_cons.mp present with rfl | present
      · rw [first] at plays
        cases plays
      · exact (same stays).2 equal present
    · -- the turn at this seat
      obtain ⟨turn₁, exceed₁, begun, more₁, small₁, same₁⟩ : ∃ turn₁ exceed₁,
          (if a = t.firstUser then if turn + 1 < 20 then (turn + 1, exceed) else (turn, true) else (turn, exceed))
            = (turn₁, exceed₁)
          ∧ turn ≤ turn₁ ∧ turn₁ < 20 ∧ (exceed₁ = false → exceed = false ∧ (turn₁ = turn → t.firstUser ≠ a)) := by
        split
        · split
          · exact ⟨_, _, rfl, by omega, by omega, fun stays => ⟨stays, fun equal => by omega⟩⟩
          · exact ⟨_, _, rfl, le_rfl, small, fun stays => by cases stays⟩
        · rename_i other
          exact ⟨_, _, rfl, le_rfl, small, fun stays => ⟨stays, fun _ equal => other equal.symm⟩⟩
      rw [Bool.not_true, if_neg Bool.false_ne_true]
      dsimp only
      rw [begun]
      cases outs : t.out a
      · refine ⟨[], a, rest, turn₁, exceed₁, rfl, rfl, (ledger.isIn_iff_not_out plays).mpr outs, more₁, small₁, ?_⟩
        intro stays
        refine ⟨(same₁ stays).1, fun equal present => (same₁ stays).2 equal ?_⟩
        exact List.mem_singleton.mp present
      · have later : ∃ i ∈ rest, t.isIn i = true := by
          obtain ⟨i, present, here⟩ := someone
          rcases List.mem_cons.mp present with rfl | present
          · rw [(isIn_iff.mp here).2] at outs
            cases outs
          · exact ⟨i, present, here⟩
        obtain ⟨passed, next, rest', turn', exceed', found, split, here, more, small', same⟩ := ih exceed₁ small₁ later
        refine ⟨a :: passed, next, rest', turn', exceed', found, by rw [split, List.cons_append], here,
          more₁.trans more, small', ?_⟩
        intro stays
        obtain ⟨stays₁, apart⟩ := same stays
        refine ⟨(same₁ stays₁).1, fun equal present => ?_⟩
        rcases List.mem_cons.mp present with same' | present
        · exact (same₁ stays₁).2 (by omega) same'
        · exact apart (by omega) present

theorem ahead_lt {f c : Chair} {k : ℕ} (positive : 1 ≤ k) (small : k < 5)
    (passed : ∀ j, 1 ≤ j → j ≤ k → seatAfter c j ≠ f) : ahead f (seatAfter c k) < ahead f c := by
  have all : ∀ f c k : Fin 5, 1 ≤ k.val → (∀ j : Fin 5, 1 ≤ j.val → j.val ≤ k.val → seatAfter c j.val ≠ f) →
      ahead f (seatAfter c k.val) < ahead f c := by decide
  exact all f c ⟨k, small⟩ positive fun j from_ till => passed j.val from_ till

theorem ahead_le (f c : Chair) : ahead f c ≤ 4 := Nat.le_of_lt_succ (f - c - 1).isLt

/-- The seats after the one with the turn. -/
abbrev seatsAfter (c : Chair) : List Chair := (List.range 4).map fun i => seatAfter c (i + 1)

theorem mem_seatsAfter (other : i ≠ c) : i ∈ seatsAfter c := by
  obtain ⟨k, small, same⟩ := exists_seatAfter c i
  rcases k with _ | k
  · exact absurd (same.symm.trans (seatAfter_zero c)) other
  · exact same ▸ List.mem_map_of_mem (List.mem_range.mpr (by omega))

/-- The seat at which the search ends, and those it has passed. -/
theorem eq_seatAfter_of_split {passed rest : List Chair} {next : Chair}
    (split : seatsAfter c = passed ++ next :: rest) :
    ∃ k, 1 ≤ k ∧ k < 5 ∧ next = seatAfter c k ∧ ∀ j, 1 ≤ j → j ≤ k → seatAfter c j ∈ passed ++ [next] := by
  have length := congrArg List.length split
  rw [List.length_map, List.length_range, List.length_append, List.length_cons] at length
  have entry : ∀ j, j < 4 → (seatsAfter c)[j]? = some (seatAfter c (j + 1)) := by
    intro j small
    rw [List.getElem?_map, List.getElem?_range small, Option.map_some]
  refine ⟨passed.length + 1, by omega, by omega, ?_, ?_⟩
  · have here := entry passed.length (by omega)
    rw [split, List.getElem?_append_right le_rfl, Nat.sub_self, List.getElem?_cons_zero] at here
    exact Option.some_inj.mp here
  · intro j positive before
    have here := entry (j - 1) (by omega)
    rw [split, Nat.sub_add_cancel positive, List.append_cons, List.getElem?_append_left (by
      rw [List.length_append, List.length_singleton]
      omega)] at here
    exact List.mem_of_getElem? here

/-- The turn goes to a player who is in and comes nearer to the end, or the hands are compared. -/
theorem ends_nextStep (draw : Draw) (cell : 0 < r.cellScore) (running : Running r t) (current : t.currentUser = some c)
    (two : 2 ≤ t.leftPlayerCount) : Ends r t (progress t c) (nextStep r t draw) := by
  obtain ⟨i, other, someone⟩ := exists_other two c
  obtain ⟨passed, next, rest, turn', exceed', found, split, here, more, small, same⟩ :=
    searchNext_spec false running.ledger running.first running.turn ⟨i, mem_seatsAfter other, someone⟩
  have result : nextStep r t draw =
      if !exceed' then (getCurrentAddStart r.jettonList t.followScore).map fun _ =>
        { t with currentUser := some next, currentTurn := turn', isExceed := exceed', armed := true }
      else onUserCompareCardForce r { t with currentUser := some next, currentTurn := turn', isExceed := exceed' } draw := by
    rw [nextStep, current]
    dsimp only
    rw [found]
  rw [result]
  cases exceed'
  · rw [Bool.not_false, if_pos rfl]
    constructor
    · intro rises
      obtain ⟨start, started⟩ := exists_getCurrentAddStart rises running.follow
      rw [started]
      rfl
    · intro t' made
      obtain ⟨start, -, rfl⟩ := Option.map_eq_some_iff.mp made
      refine ⟨fun i outs => ⟨outs, rfl⟩, Or.inl ⟨next, ?_, rfl, ?_⟩⟩
      · exact { running with turn := small, current := rfl, here := here, two := two }
      · show t.leftPlayerCount + 5 * (20 - turn') + ahead t.firstUser next
          < t.leftPlayerCount + 5 * (20 - t.currentTurn) + ahead t.firstUser c
        have bound := ahead_le t.firstUser next
        rcases eq_or_lt_of_le more with equal | risen
        · obtain ⟨k, positive, small', rfl, between⟩ := eq_seatAfter_of_split split
          have nearer : ahead t.firstUser (seatAfter c k) < ahead t.firstUser c := by
            apply ahead_lt positive small'
            intro j from_ till same'
            exact (same rfl).2 equal.symm (same' ▸ between j from_ till)
          omega
        · omega
  · rw [Bool.not_true, if_neg Bool.false_ne_true]
    have ends : Ends r { t with currentUser := some next, currentTurn := turn', isExceed := true } (progress t c)
        (onUserCompareCardForce r { t with currentUser := some next, currentTurn := turn', isExceed := true } draw) :=
      ends_onUserCompareCardForce cell running.ledger running.banker rfl here
    exact ends.of_keeps (fun i outs => ⟨outs, rfl⟩) le_rfl

/-- After a player is out the turn goes on or the round ends. -/
theorem ends_goOn (draw : Draw) (cell : 0 < r.cellScore) (running : Running r t) (current : t.currentUser = some c) :
    Ends r t (progress t c) (goOn r t draw) := by
  rw [goOn]
  split
  · rename_i two
    exact ends_nextStep draw cell running current two
  · rename_i few
    exact ends_onEventGameConclude cell running.ledger running.banker few

end H5Server.Zjh
