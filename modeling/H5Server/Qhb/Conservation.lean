import H5Server.Qhb.Settlement
import Mathlib.Data.List.Chain

/-! # Money of the red packet rounds

A round is funded by the one charge of the settlement before it, if somebody became banker there and stays. What it
hands out and returns is what was charged, if nothing negative is left over and the one who funded it is still at
the table, or nothing is left.
-/

namespace H5Server.Qhb

open Lib

/-! ## Scores of a settlement -/

section Scores

variable (cfg : Config) (banker : ℤ) {u : UserInfo} {users : List UserInfo}

/-- What is written for one user. -/
theorem scoreInfo_spec (grabbed : u.isBanker = true → u.haveGrab = true) (left : 0 ≤ u.sendLeftScore) :
    (scoreInfo cfg banker u).elim 0 (·.packet) = (if u.haveGrab then u.endWinScore else 0)
      ∧ (scoreInfo cfg banker u).elim 0 (·.returned) = (if u.userId = banker then u.sendLeftScore else 0)
      ∧ ((scoreInfo cfg banker u).bind fun info => info.charged.map (info.userId, ·))
        = (if u.haveGrab && u.isBanker then some (u.userId, cfg.sendEnvelopeScore) else none) := by
  rcases eq_or_ne u.userId banker with same | other
  all_goals cases grab : u.haveGrab
  all_goals cases flag : u.isBanker
  all_goals simp_all [scoreInfo]
  · split
    · simp
    · simp only [Option.elim_none, true_and]
      omega

variable {cfg : Config} {banker : ℤ}

/-- Every score is a packet less its revenue, what is returned to the banker of the round, and what is charged. -/
theorem addScore_of_scoreInfo {info : ScoreInfo} (written : scoreInfo cfg banker u = some info) :
    info.addScore = info.packet - info.revenue + info.returned - info.charged.getD 0
      ∧ (info.returned ≠ 0 → info.userId = banker) := by
  rw [scoreInfo] at written
  split_ifs at written with h₁ h₂ h₃ h₄ h₅
  all_goals cases written
  all_goals simp only [Option.getD_none, Option.getD_some, ne_eq, not_true_eq_false, false_implies, and_true]
  · omega
  · omega
  · exact ⟨by omega, fun _ => h₃.1⟩
  · exact ⟨by omega, fun _ => h₄.1⟩
  · exact ⟨by omega, fun _ => h₅.1⟩

theorem sum_filterMap {α : Type*} (f : UserInfo → Option α) (g : α → ℤ) :
    ((users.filterMap f).map g).sum = (users.map fun u => (f u).elim 0 g).sum := by
  induction users with
  | nil => rfl
  | cons u users ih =>
    rw [List.filterMap_cons, List.map_cons, List.sum_cons, ← ih]
    cases f u with
    | none => exact (zero_add _).symm
    | some _ => rfl

theorem sum_filter_grab : (users.map fun u => if u.haveGrab then u.endWinScore else 0).sum = allGrapMoney users := by
  induction users with
  | nil => rfl
  | cons u users ih =>
    rw [List.map_cons, List.sum_cons, ih, allGrapMoney, allGrapMoney, List.filter_cons]
    split <;> simp

/-- What is meant for one id comes to its user. -/
theorem sum_of_userId (ids : (users.map (·.userId)).Nodup) (left : ℤ) :
    (users.map fun u => if u.userId = banker then left else 0).sum
      = if ∃ u ∈ users, u.userId = banker then left else 0 := by
  induction users with
  | nil => simp
  | cons u users ih =>
    rw [List.map_cons, List.nodup_cons] at ids
    rw [List.map_cons, List.sum_cons, ih ids.2]
    rcases eq_or_ne u.userId banker with same | other
    · have gone : ¬∃ v ∈ users, v.userId = banker := by
        rintro ⟨v, there, same'⟩
        exact ids.1 (List.mem_map.mpr ⟨v, there, same'.trans same.symm⟩)
      rw [if_pos same, if_neg gone, if_pos ⟨u, List.mem_cons_self, same⟩, add_zero]
    · simp [other]

end Scores

/-- The charges of a settlement. -/
def Settled.charges (round : Settled) : List (ℤ × ℤ) :=
  round.scores.filterMap fun info => info.charged.map (info.userId, ·)

/-- A round conserves the money that was charged one settlement `before`. -/
structure Conserved (cfg : Config) (before round : Settled) : Prop where
  money : (round.scores.map (·.packet)).sum + (round.scores.map (·.returned)).sum = cfg.sendEnvelopeScore
  charge : before.charges = [(round.banker, cfg.sendEnvelopeScore)]
  returned : ∀ info ∈ round.scores, info.returned ≠ 0 → info.userId = round.banker
  made : ∀ info ∈ round.scores, info.addScore = info.packet - info.revenue + info.returned - info.charged.getD 0

section Settlement

variable (cfg : Config) (banker left : ℤ) (users : List UserInfo)

theorem takeRevenue_noMoney (u : UserInfo) :
    (takeRevenue banker left u).userId = u.userId ∧ (takeRevenue banker left u).haveGrab = u.haveGrab
      ∧ (takeRevenue banker left u).isBanker = u.isBanker
      ∧ (takeRevenue banker left u).endWinScore = u.endWinScore := by
  rw [takeRevenue]
  split <;> split <;> simp_all

variable {left} in
theorem takeRevenue_left {u : UserInfo} (clear : u.sendLeftScore = 0) (count : 0 ≤ left) :
    (takeRevenue banker left u).sendLeftScore = if u.userId = banker then left else 0 := by
  rw [takeRevenue]
  split <;> split <;> simp_all
  all_goals omega

theorem bankerLeftScore_eq :
    bankerLeftScore cfg users =
      if 0 ≤ cfg.sendEnvelopeScore - allGrapMoney users then cfg.sendEnvelopeScore - allGrapMoney users else 0 := rfl

theorem bankerLeftScore_nonneg : 0 ≤ bankerLeftScore cfg users := by
  rw [bankerLeftScore_eq]
  split <;> omega

/-- The users of a settlement, when the scores are written. -/
def settledUsers (cfg : Config) (banker : ℤ) (users : List UserInfo) : List UserInfo :=
  users.map (takeRevenue banker (bankerLeftScore cfg users))

theorem allGrapMoney_settledUsers : allGrapMoney (settledUsers cfg banker users) = allGrapMoney users := by
  rw [← sum_filter_grab, ← sum_filter_grab, settledUsers, List.map_map]
  refine congrArg List.sum (List.map_congr_left fun u _ => ?_)
  obtain ⟨-, grab, -, money⟩ := takeRevenue_noMoney banker (bankerLeftScore cfg users) u
  rw [Function.comp_apply, grab, money]

theorem bankers_settledUsers : bankers (settledUsers cfg banker users) = bankers users := by
  have parts := takeRevenue_noMoney banker (bankerLeftScore cfg users)
  rw [bankers, bankers, settledUsers, List.filter_map, List.map_map]
  have same : (fun u : UserInfo => u.haveGrab && u.isBanker) ∘ takeRevenue banker (bankerLeftScore cfg users)
      = fun u => u.haveGrab && u.isBanker := by
    funext u
    obtain ⟨-, grab, flag, -⟩ := parts u
    rw [Function.comp_apply, grab, flag]
  rw [same]
  exact List.map_congr_left fun u _ => (parts u).1

theorem userIds_settledUsers : (settledUsers cfg banker users).map (·.userId) = users.map (·.userId) := by
  rw [settledUsers, List.map_map]
  exact List.map_congr_left fun u _ => (takeRevenue_noMoney _ _ u).1

variable {users}

theorem grabbed_settledUsers (grabbed : Grabbed users) : Grabbed (settledUsers cfg banker users) := by
  intro u' changed flag'
  obtain ⟨u, there, rfl⟩ := List.mem_map.mp changed
  obtain ⟨-, grab, flag, -⟩ := takeRevenue_noMoney banker (bankerLeftScore cfg users) u
  rw [grab]
  exact grabbed u there (flag.symm.trans flag')

variable {cfg banker} {scores : List ScoreInfo}

theorem scores_of_writeUserScore (written : writeUserScore cfg banker users = some scores) :
    scores = users.filterMap (scoreInfo cfg banker) := by
  rw [writeUserScore] at written
  exact (Option.some.inj (Option.ite_none_left_eq_some.mp written).2).symm

/-- What is written in a settlement. -/
theorem ledger (ids : (users.map (·.userId)).Nodup) (clear : ∀ u ∈ users, u.sendLeftScore = 0) (grabbed : Grabbed users)
    (written : writeUserScore cfg banker (settledUsers cfg banker users) = some scores) :
    (scores.map (·.packet)).sum = allGrapMoney users
      ∧ (scores.map (·.returned)).sum = (if ∃ u ∈ users, u.userId = banker then bankerLeftScore cfg users else 0)
      ∧ Settled.charges ⟨banker, scores⟩ = (bankers users).map (·, cfg.sendEnvelopeScore) := by
  have left : ∀ u ∈ settledUsers cfg banker users,
      u.sendLeftScore = if u.userId = banker then bankerLeftScore cfg users else 0 := by
    intro u' changed
    obtain ⟨u, there, rfl⟩ := List.mem_map.mp changed
    rw [takeRevenue_left banker (clear u there) (bankerLeftScore_nonneg cfg users), (takeRevenue_noMoney _ _ u).1]
  have spec : ∀ u ∈ settledUsers cfg banker users, _ := fun u there => scoreInfo_spec cfg banker
    (grabbed_settledUsers cfg banker grabbed u there) (by
      have nonneg := bankerLeftScore_nonneg cfg users
      rw [left u there]
      split <;> omega)
  rw [scores_of_writeUserScore written]
  refine ⟨?_, ?_, ?_⟩
  · rw [sum_filterMap, List.map_congr_left fun u there => (spec u there).1, sum_filter_grab, allGrapMoney_settledUsers]
  · rw [sum_filterMap, List.map_congr_left fun u there => (spec u there).2.1, settledUsers, List.map_map]
    have each : ∀ u ∈ users, ((fun u : UserInfo => if u.userId = banker then u.sendLeftScore else 0)
        ∘ takeRevenue banker (bankerLeftScore cfg users)) u
          = if u.userId = banker then bankerLeftScore cfg users else 0 := by
      intro u there
      rw [Function.comp_apply, (takeRevenue_noMoney _ _ u).1,
        takeRevenue_left banker (clear u there) (bankerLeftScore_nonneg cfg users)]
      split <;> rfl
    rw [List.map_congr_left each, sum_of_userId ids]
  · rw [Settled.charges, List.filterMap_filterMap, List.filterMap_congr fun u there => (spec u there).2.2,
      ← bankers_settledUsers cfg banker users, bankers, List.map_map, ← List.filterMap_eq_map,
      List.filterMap_filter]
    rfl

end Settlement

/-! ## Invariant -/

/-- The last settlement charged the banker, as far as there was one. -/
def Funded (cfg : Config) (rounds : List Settled) (banker : ℤ) : Prop :=
  ∀ before ∈ rounds.getLast?, before.charges = [(banker, cfg.sendEnvelopeScore)]

/-- When the packets are out, nothing of the round before is left with a user. -/
structure Cleared (users : List UserInfo) : Prop where
  nobody : NoBanker users
  zero : ∀ u ∈ users, u.endWinScore = 0
  left : ∀ u ∈ users, u.sendLeftScore = 0

/-- One user has the flag. -/
structure FlagAt (users : List UserInfo) (banker : ℤ) : Prop where
  there : ∃ u ∈ users, u.isBanker = true ∧ u.userId = banker
  only : ∀ u ∈ users, u.isBanker = true → u.userId = banker

/-- What holds in each status. -/
def Phase (cfg : Config) (h : History) : Prop :=
  match h.table.status with
  | .init => h.rounds = []
  | .free => Funded cfg h.rounds h.table.bankerUserId
  | .start => Funded cfg h.rounds h.table.bankerUserId ∧ Cleared h.table.users
  | .end_ => ∃ banker, Funded cfg h.rounds banker ∧ FlagAt h.table.users banker

structure Sound (cfg : Config) (h : History) : Prop where
  ids : (h.table.users.map (·.userId)).Nodup
  chain : h.rounds.IsChain (Conserved cfg)
  phase : Phase cfg h

/-- What a settlement has to meet: a new banker is found and stays, nothing negative is left over, and what is left
has somebody to go to. The first round is funded by nobody anyway. -/
structure Covered (cfg : Config) (h : History) (d : Draws) (packets : List ℤ) : Prop where
  found : (∃ u ∈ h.table.users, u.haveGrab = true ∧ u.isAndroid = false)
    ∨ ∃ x ∈ handedOut d packets h.table.users, 0 < x
  running : d.serverRunning = true
  enough : h.rounds ≠ [] → (handedOut d packets h.table.users).sum ≤ cfg.sendEnvelopeScore
  present : h.rounds ≠ [] → (handedOut d packets h.table.users).sum = cfg.sendEnvelopeScore
    ∨ ∃ u ∈ h.table.users, u.userId = h.table.bankerUserId

/-- The condition on the steps of a run. -/
def Met (cfg : Config) (h : History) : Event → Prop
  | .timerStart d => ∀ packets, getResultArr cfg d.weights = some packets → Covered cfg h d packets
  | _ => True

instance (cfg : Config) (h : History) (d : Draws) (packets : List ℤ) : Decidable (Covered cfg h d packets) :=
  decidable_of_iff (((∃ u ∈ h.table.users, u.haveGrab = true ∧ u.isAndroid = false)
      ∨ ∃ x ∈ handedOut d packets h.table.users, 0 < x) ∧ d.serverRunning = true
      ∧ (h.rounds ≠ [] → (handedOut d packets h.table.users).sum ≤ cfg.sendEnvelopeScore)
      ∧ (h.rounds ≠ [] → (handedOut d packets h.table.users).sum = cfg.sendEnvelopeScore
        ∨ ∃ u ∈ h.table.users, u.userId = h.table.bankerUserId))
    ⟨fun ⟨found, running, enough, present⟩ => ⟨found, running, enough, present⟩,
      fun ⟨found, running, enough, present⟩ => ⟨found, running, enough, present⟩⟩

instance (cfg : Config) (h : History) : (event : Event) → Decidable (Met cfg h event)
  | .timerStart d =>
    decidable_of_iff (∀ packets ∈ getResultArr cfg d.weights, Covered cfg h d packets) Iff.rfl
  | .userEnter _ | .userLeft _ | .userOffline _ | .grab _ | .sendEnvelope _ | .timerReady | .timerEnd => .isTrue trivial

section Steps

variable {cfg : Config} {t t' : Table} {rounds : List Settled}

/-- Users are changed one by one, and their ids stay. -/
private theorem ids_map {users : List UserInfo} {f : UserInfo → UserInfo} (keeps : ∀ u, (f u).userId = u.userId)
    (ids : (users.map (·.userId)).Nodup) : ((users.map f).map (·.userId)).Nodup := by
  have same : (fun u : UserInfo => u.userId) ∘ f = fun u => u.userId := funext keeps
  rwa [List.map_map, same]

private theorem ids_filter {users : List UserInfo} {p : UserInfo → Bool} (ids : (users.map (·.userId)).Nodup) :
    ((users.filter p).map (·.userId)).Nodup :=
  ids.sublist (List.filter_sublist.map _)

theorem Cleared.filter {users : List UserInfo} (cleared : Cleared users) (p : UserInfo → Bool) :
    Cleared (users.filter p) :=
  ⟨fun u there => cleared.nobody u (List.mem_of_mem_filter there),
    fun u there => cleared.zero u (List.mem_of_mem_filter there),
    fun u there => cleared.left u (List.mem_of_mem_filter there)⟩

/-- `OnTimerEnd`: the flag becomes the banker of the next round. -/
theorem foldl_banker {users : List UserInfo} {banker : ℤ} (flag : FlagAt users banker) (old : ℤ) :
    users.foldl (fun banker u => if u.isBanker then u.userId else banker) old = banker := by
  obtain ⟨⟨u, there, is, same⟩, only⟩ := flag
  have kept : ∀ (rest : List UserInfo), (∀ v ∈ rest, v.isBanker = true → v.userId = banker) →
      rest.foldl (fun banker u => if u.isBanker then u.userId else banker) banker = banker := by
    intro rest
    induction rest with
    | nil => exact fun _ => rfl
    | cons v rest ih =>
      intro only
      rw [List.forall_mem_cons] at only
      rw [List.foldl_cons]
      split
      next flag => rw [only.1 flag, ih only.2]
      · exact ih only.2
  obtain ⟨front, back, rfl⟩ := List.append_of_mem there
  rw [List.foldl_append, List.foldl_cons, if_pos is, same]
  exact kept back fun v there => only v (List.mem_append_right front (List.mem_cons_of_mem u there))

theorem Sound.onTimerEnd (sound : Sound cfg ⟨t, rounds⟩) (done : onTimerEnd t = some t') : Sound cfg ⟨t', rounds⟩ := by
  obtain ⟨ids, chain, phase⟩ := sound
  rw [Qhb.onTimerEnd] at done
  obtain ⟨ended, done⟩ := Option.ite_none_left_eq_some.mp done
  cases done
  rw [Phase, not_not.mp ended] at phase
  obtain ⟨banker, funded, flag⟩ := phase
  refine ⟨ids_map (fun _ => rfl) ids, chain, ?_⟩
  change Funded cfg rounds _
  rwa [foldl_banker flag]

theorem Sound.onTimerReady (sound : Sound cfg ⟨t, rounds⟩) (done : onTimerReady cfg t = some t') :
    Sound cfg ⟨t', rounds⟩ := by
  obtain ⟨ids, chain, phase⟩ := sound
  rw [Qhb.onTimerReady] at done
  obtain ⟨free, done⟩ := Option.ite_none_left_eq_some.mp done
  cases done
  rw [Phase, not_not.mp free] at phase
  refine ⟨ids_map (fun _ => rfl) ids, chain, phase, ⟨?_, ?_, ?_⟩⟩
  all_goals exact List.forall_mem_map.mpr fun _ _ => rfl

/-- The phase after a change of the users: what was cleared stays so, and the flag stays where it was. -/
theorem Sound.change {users : List UserInfo} (sound : Sound cfg ⟨t, rounds⟩) (ids : (users.map (·.userId)).Nodup)
    (clear : Cleared t.users → Cleared users) (flag : ∀ banker, FlagAt t.users banker → FlagAt users banker) (left : ℤ) :
    Sound cfg ⟨{ t with users := users, leftEnvelopeNum := left }, rounds⟩ := by
  obtain ⟨-, chain, phase⟩ := sound
  refine ⟨ids, chain, ?_⟩
  obtain ⟨status, old, bankerUserId, num⟩ := t
  cases status with
  | init => exact phase
  | free => exact phase
  | start => exact ⟨phase.1, clear phase.2⟩
  | end_ =>
    obtain ⟨banker, funded, at_⟩ := phase
    exact ⟨banker, funded, flag banker at_⟩

theorem Sound.onUserLeft (sound : Sound cfg ⟨t, rounds⟩) (userId : ℤ) : Sound cfg ⟨onUserLeft t userId, rounds⟩ := by
  refine sound.change (ids_filter sound.ids) (fun cleared => cleared.filter _) (fun banker at_ => ?_) t.leftEnvelopeNum
  obtain ⟨⟨u, there, is, same⟩, only⟩ := at_
  refine ⟨⟨u, List.mem_filter.mpr ⟨there, ?_⟩, is, same⟩, ?_⟩
  · rw [canLeftTable, is]
    simp
  · exact fun v there => only v (List.mem_of_mem_filter there)

/-- Users are changed one by one, but neither what they have nor their flags. -/
theorem Sound.map {f : UserInfo → UserInfo} (sound : Sound cfg ⟨t, rounds⟩)
    (keeps : ∀ u, (f u).userId = u.userId ∧ (f u).isBanker = u.isBanker ∧ (f u).endWinScore = u.endWinScore
      ∧ (f u).sendLeftScore = u.sendLeftScore) (left : ℤ) :
    Sound cfg ⟨{ t with users := t.users.map f, leftEnvelopeNum := left }, rounds⟩ := by
  refine sound.change (ids_map (fun u => (keeps u).1) sound.ids) (fun cleared => ?_) (fun banker at_ => ?_) left
  · refine ⟨List.forall_mem_map.mpr fun u there => ?_, List.forall_mem_map.mpr fun u there => ?_,
      List.forall_mem_map.mpr fun u there => ?_⟩
    · exact (keeps u).2.1.trans (cleared.nobody u there)
    · exact (keeps u).2.2.1.trans (cleared.zero u there)
    · exact (keeps u).2.2.2.trans (cleared.left u there)
  · obtain ⟨⟨u, there, is, same⟩, only⟩ := at_
    refine ⟨⟨f u, List.mem_map_of_mem there, (keeps u).2.1.trans is, (keeps u).1.trans same⟩, ?_⟩
    exact List.forall_mem_map.mpr fun v there flag => (keeps v).1.trans (only v there ((keeps v).2.1.symm.trans flag))

theorem Sound.onGrab (sound : Sound cfg ⟨t, rounds⟩) (chairId : ℕ) : Sound cfg ⟨onGrab cfg t chairId, rounds⟩ := by
  rw [Qhb.onGrab]
  split
  · exact sound
  · split_ifs
    iterate 4 exact sound
    refine sound.map (fun u => ?_) _
    split <;> exact ⟨rfl, rfl, rfl, rfl⟩

theorem Sound.onSendEnvelope (sound : Sound cfg ⟨t, rounds⟩) (chairId : ℕ) :
    Sound cfg ⟨onSendEnvelope cfg t chairId, rounds⟩ := by
  rw [Qhb.onSendEnvelope]
  split
  · exact sound
  · split_ifs
    iterate 2 exact sound
    cases ready : Qhb.onTimerReady cfg t with
    | none => exact sound
    | some t' => exact sound.onTimerReady ready

/-- A new user has nothing yet. -/
theorem Sound.insert {u : UserInfo} {front back : List UserInfo} (sound : Sound cfg ⟨t, rounds⟩)
    (old : t.users = front ++ back) (new : ∀ other ∈ t.users, other.userId ≠ u.userId) (plain : u.isBanker = false)
    (zero : u.endWinScore = 0) (left : u.sendLeftScore = 0) :
    Sound cfg ⟨{ t with users := front ++ u :: back }, rounds⟩ := by
  have perm : (front ++ u :: back).Perm (u :: t.users) := old ▸ List.perm_middle
  refine sound.change ?_ (fun cleared => ?_) (fun banker at_ => ?_) t.leftEnvelopeNum
  · rw [(perm.map _).nodup_iff, List.map_cons, List.nodup_cons]
    refine ⟨fun present => ?_, sound.ids⟩
    obtain ⟨other, there, same⟩ := List.mem_map.mp present
    exact new other there same
  · refine ⟨fun v there => ?_, fun v there => ?_, fun v there => ?_⟩
    all_goals rcases List.mem_cons.mp (perm.mem_iff.mp there) with rfl | there
    · exact plain
    · exact cleared.nobody v there
    · exact zero
    · exact cleared.zero v there
    · exact left
    · exact cleared.left v there
  · obtain ⟨⟨v, there, is, same⟩, only⟩ := at_
    refine ⟨⟨v, perm.mem_iff.mpr (List.mem_cons_of_mem u there), is, same⟩, fun w there flag => ?_⟩
    rcases List.mem_cons.mp (perm.mem_iff.mp there) with rfl | there
    · exact absurd (plain.symm.trans flag) Bool.false_ne_true
    · exact only w there flag

theorem Sound.onUserEnter (sound : Sound cfg ⟨t, rounds⟩) (u : UserInfo) : Sound cfg ⟨onUserEnter t u, rounds⟩ := by
  rw [Qhb.onUserEnter]
  generalize entered_ : (if ∃ other ∈ t.users, other.userId = u.userId then _ else _) = entered
  have enters : Sound cfg ⟨{ t with users := entered }, rounds⟩ := by
    rw [← entered_]
    split
    · refine sound.map (fun other => ?_) t.leftEnvelopeNum
      split <;> exact ⟨rfl, rfl, rfl, rfl⟩
    next new =>
      exact sound.insert (List.takeWhile_append_dropWhile).symm (fun other there same => new ⟨other, there, same⟩)
        rfl rfl rfl
  split
  next first =>
    -- In the first round nothing was settled yet.
    have empty : rounds = [] := by
      have phase := sound.phase
      rw [Phase, first.1] at phase
      exact phase
    refine ⟨?_, sound.chain, ?_⟩
    · have same := setBanker_noFlag (if t.bankerUserId = INVALID_CHAIR then u.userId else t.bankerUserId) entered
      rw [(same_of_noFlag same).map fun _ => rfl]
      exact enters.ids
    · change Funded cfg rounds _
      rw [empty]
      exact fun _ impossible => absurd impossible nofun
  · exact enters

/-- The users that are left after the settlement. -/
private def remaining (cfg : Config) (running : Bool) (scores : List ScoreInfo) (users : List UserInfo) : List UserInfo :=
  ((users.map (addScores scores)).filter fun u => !kicked u).filter fun u => !cleared cfg running u

private theorem mem_remaining {running : Bool} {scores : List ScoreInfo} {users : List UserInfo} {u' : UserInfo}
    (there : u' ∈ remaining cfg running scores users) : ∃ u ∈ users, addScores scores u = u' :=
  List.mem_map.mp (List.mem_of_mem_filter (List.mem_of_mem_filter there))

/-- The new banker is neither kicked nor cleared. -/
private theorem addScores_mem_remaining {scores : List ScoreInfo} {users : List UserInfo} {u : UserInfo} (there : u ∈ users)
    (flag : u.isBanker = true) : addScores scores u ∈ remaining cfg true scores users := by
  have kept : (addScores scores u).isBanker = true := flag
  refine List.mem_filter.mpr ⟨List.mem_filter.mpr ⟨List.mem_map_of_mem there, ?_⟩, ?_⟩
  · simp [kicked, kept]
  · simp [Qhb.cleared, kept]

theorem mem_bankers {users : List UserInfo} {banker : ℤ} :
    banker ∈ bankers users ↔ ∃ u ∈ users, (u.haveGrab = true ∧ u.isBanker = true) ∧ u.userId = banker := by
  simp [bankers, and_assoc]

theorem flagAt_remaining {banker old : ℤ} {scores : List ScoreInfo} {users : List UserInfo} (grabbed : Grabbed users)
    (one : bankers users = [banker]) : FlagAt (remaining cfg true scores (settledUsers cfg old users)) banker := by
  have grabbed_ := grabbed_settledUsers cfg old grabbed
  have one_ : bankers (settledUsers cfg old users) = [banker] := (bankers_settledUsers cfg old users).trans one
  constructor
  · obtain ⟨u, there, flags, same⟩ := mem_bankers.mp (one_ ▸ List.mem_singleton_self banker)
    exact ⟨addScores scores u, addScores_mem_remaining there flags.2, flags.2, same⟩
  · intro u' remains flag
    obtain ⟨u, there, rfl⟩ := mem_remaining remains
    have present := mem_bankers.mpr ⟨u, there, ⟨grabbed_ u there flag, flag⟩, rfl⟩
    rw [one_] at present
    exact List.mem_singleton.mp present

theorem Sound.onTimerStart {d : Draws} {settled : Settled} (sound : Sound cfg ⟨t, rounds⟩)
    (met : Met cfg ⟨t, rounds⟩ (.timerStart d)) (done : onTimerStart cfg t d = some (t', settled)) :
    Sound cfg ⟨t', rounds ++ [settled]⟩ := by
  obtain ⟨ids, chain, phase⟩ := sound
  rw [Qhb.onTimerStart] at done
  obtain ⟨starts, done⟩ := Option.ite_none_left_eq_some.mp done
  obtain ⟨packets, weighed_, done⟩ := Option.bind_eq_some_iff.mp done
  obtain ⟨users, settlement_, done⟩ := Option.bind_eq_some_iff.mp done
  obtain ⟨scores, written, done⟩ := Option.bind_eq_some_iff.mp done
  obtain ⟨found, running, enough, present⟩ := met packets weighed_
  cases done
  rw [Phase, not_not.mp starts] at phase
  obtain ⟨funded, clear⟩ := phase
  obtain ⟨⟨same, grabbed⟩, money, banker⟩ := settles_of_settlement ids clear.zero clear.nobody settlement_
  obtain ⟨banker, one⟩ := banker found
  have ids_ : (users.map (·.userId)).Nodup := by rwa [same.map fun _ => rfl]
  have left : ∀ u ∈ users, u.sendLeftScore = 0 := by
    have lefts : users.map (·.sendLeftScore) = t.users.map (·.sendLeftScore) := same.map fun _ => rfl
    intro u there
    obtain ⟨v, there_, eq⟩ := List.mem_map.mp (lefts ▸ List.mem_map_of_mem there)
    exact eq.symm.trans (clear.left v there_)
  obtain ⟨packets_, returned, charges⟩ := ledger ids_ left grabbed written
  rw [one] at charges
  refine ⟨?_, chain.append (List.isChain_singleton _) ?_, banker, ?_, ?_⟩
  · refine ids_filter (ids_filter (ids_map (fun _ => rfl) ?_))
    change ((settledUsers cfg t.bankerUserId users).map (·.userId)).Nodup
    rwa [userIds_settledUsers]
  · intro before last round here
    cases here
    have later : rounds ≠ [] := by
      rintro rfl
      exact absurd last nofun
    refine ⟨?_, funded before last, fun info there => ?_, fun info there => ?_⟩
    · have enough_ : 0 ≤ cfg.sendEnvelopeScore - (handedOut d packets t.users).sum :=
        Int.sub_nonneg.mpr (enough later)
      change (scores.map (·.packet)).sum + (scores.map (·.returned)).sum = _
      rw [packets_, returned, bankerLeftScore_eq, money, if_pos enough_]
      rcases present later with all | ⟨u, there, same_⟩
      · rw [all]
        split <;> omega
      · have ids₂ : users.map (·.userId) = t.users.map (·.userId) := same.map fun _ => rfl
        obtain ⟨v, there_, eq⟩ := List.mem_map.mp (ids₂ ▸ List.mem_map_of_mem there)
        rw [if_pos ⟨v, there_, eq.trans same_⟩]
        omega
    all_goals
      have from_ : info ∈ (settledUsers cfg t.bankerUserId users).filterMap (scoreInfo cfg t.bankerUserId) :=
        scores_of_writeUserScore written ▸ there
      obtain ⟨u, -, made⟩ := List.mem_filterMap.mp from_
    · exact (addScore_of_scoreInfo made).2
    · exact (addScore_of_scoreInfo made).1
  · intro before last
    rw [List.getLast?_append_of_ne_nil _ (List.cons_ne_nil _ _)] at last
    cases last
    exact charges
  · change FlagAt (remaining cfg d.serverRunning scores (settledUsers cfg t.bankerUserId users)) banker
    rw [running]
    exact flagAt_remaining grabbed one

/-- What holds of the history is kept by every step that meets the condition. -/
theorem Sound.step {h h' : History} {event : Event} (sound : Sound cfg h) (met : Met cfg h event)
    (done : step cfg h event = some h') : Sound cfg h' := by
  obtain ⟨t, rounds⟩ := h
  cases event with
  | userEnter u =>
    cases done
    exact sound.onUserEnter u
  | userLeft userId =>
    cases done
    exact sound.onUserLeft userId
  | userOffline userId =>
    cases done
    refine Sound.onUserLeft (sound.map (fun u => ?_) t.leftEnvelopeNum) userId
    split <;> exact ⟨rfl, rfl, rfl, rfl⟩
  | grab chairId =>
    cases done
    exact sound.onGrab chairId
  | sendEnvelope chairId =>
    cases done
    exact sound.onSendEnvelope chairId
  | timerReady =>
    obtain ⟨t', ready, rfl⟩ := Option.map_eq_some_iff.mp done
    exact sound.onTimerReady ready
  | timerStart d =>
    obtain ⟨⟨t', settled⟩, started, rfl⟩ := Option.map_eq_some_iff.mp done
    exact sound.onTimerStart met started
  | timerEnd =>
    obtain ⟨t', ended, rfl⟩ := Option.map_eq_some_iff.mp done
    exact sound.onTimerEnd ended

end Steps

theorem sound_initHistory (cfg : Config) : Sound cfg initHistory :=
  ⟨List.nodup_nil, List.isChain_nil, rfl⟩

/-- In a run whose settlements meet the condition, every round after the first hands out and returns exactly what one
charge of its banker brought in, at the settlement before. -/
theorem conserved_of_run {cfg : Config} {events : List Event} {h : History}
    (run : Run (step cfg) (Met cfg) initHistory events h) : h.rounds.IsChain (Conserved cfg) :=
  (run.invariant (fun _ _ _ sound met done => sound.step met done) (sound_initHistory cfg)).chain

/-- The packets of the default configuration. -/
def room : Config := ⟨10000, 10⟩

/-- A robot that is first banker, and two users; one of them grabs, and becomes banker. -/
def firstRound : List Event :=
  let user (id : ℤ) (chair : ℕ) (robot : Bool) : Event :=
    .userEnter { userId := id, chairId := chair, isAndroid := robot, userScore := 50000 }
  [user 1 0 true, user 2 1 false, user 3 2 false, .timerReady, .grab 1]

def normalDraws : Draws where
  weights := [100, 50, 50, 50, 50, 50, 50, 50, 50, 50]
  blackWeight _ := 0
  blackHit := false
  probabilityWeight := 0
  blackIndices := []
  kill := false
  storage := .normal
  hit := false
  indices := [0]
  serverRunning := true

/-- In the second round the other user grabs. -/
def secondRound (between : List Event) : List Event :=
  firstRound ++ [.timerStart normalDraws, .timerEnd, .timerReady] ++ between ++ [.grab 2, .timerStart normalDraws]

theorem conserved_secondRound :
    ∃ h, Run (step room) (Met room) initHistory (secondRound []) h ∧ h.rounds.length = 2
      ∧ h.rounds.IsChain (Conserved room) := by
  have checked : (replay (guarded (step room) (Met room)) initHistory (secondRound [])).map (·.rounds.length) = some 2 := by
    decide +kernel
  obtain ⟨h, allowed, two⟩ := Option.map_eq_some_iff.mp checked
  exact ⟨h, run_of_guarded allowed, two, conserved_of_run (run_of_guarded allowed)⟩

/-- The banker leaves when the packets are out, and what is left is lost. -/
theorem banker_leaves : ¬∀ (cfg : Config) (events : List Event) (h : History),
    Run (step cfg) (fun _ _ => True) initHistory events h → h.rounds.IsChain (Conserved cfg) := by
  intro all
  have money : (replay (step room) initHistory (secondRound [.userLeft 2])).map (fun h => h.rounds.map fun round =>
      (round.scores.map (·.packet)).sum + (round.scores.map (·.returned)).sum) = some [10000, 1819] := by decide +kernel
  obtain ⟨h, reached, money⟩ := Option.map_eq_some_iff.mp money
  have chain := (all room _ h (run_of_replay reached)).imp fun _ _ conserved => conserved.money
  have sums := (List.isChain_map (R := fun _ x => x = room.sendEnvelopeScore) _).mpr chain
  rw [money] at sums
  exact absurd (List.isChain_pair.mp sums) (by decide)

end H5Server.Qhb
