import H5Server.MatchServer.Ranks
import Mathlib.Algebra.BigOperators.Group.Finset.Piecewise
import Mathlib.Algebra.BigOperators.Group.List.Basic
import Mathlib.Algebra.Order.BigOperators.Group.List
import Mathlib.Algebra.Order.Ring.Int
import Mathlib.Data.List.GetD
import Mathlib.Tactic.IntervalCases
import Mathlib.Tactic.Ring

/-! # The money of a tournament

A user pays when he is admitted, and gets his fee back when he withdraws. What the room has taken is settled with the
stock when the match is over. No money is made or lost on the way, as long as no robot withdraws: it gets a fee back that it
never paid.
-/

namespace H5Server.MatchServer

variable {info : MatchRoomInfo} {room room' : MatchRoom} {accounts : Finset ℤ}

/-- The fees of one match and the awards of all ranks fit the system's score of a match. -/
structure Affordable (info : MatchRoomInfo) : Prop where
  few : info.maxPlayerNum < 2 ^ 16
  rounds : info.upGradeUserNum.length ≤ 2 ^ 8
  fee : 0 ≤ info.joinNeedSore
  fees : info.maxPlayerNum * info.joinNeedSore < 2 ^ 31
  award : ∀ award ∈ info.awards, 0 ≤ award
  awards : info.awards.sum ≤ 2 ^ 31

/-- Only users of the `accounts` ask for admission, and the one who withdraws is no robot. -/
def Permits (accounts : Finset ℤ) (room : MatchRoom) : Event → Prop
  | .joinMatch userId _ _ _ _ => toInt32 userId ∈ accounts
  | .leftMatch userId => room.status = .gaming ∨
      ∀ user, room.listMatchUser.find? (·.userId = userId % 2 ^ 32) = some user → user.isAndroid = false
  | _ => True

def realUsers (users : List UserInfo) : ℕ := users.countP (!·.isAndroid)

/-- What the room has taken from the users and not given away yet. -/
def held (info : MatchRoomInfo) (room : MatchRoom) : ℤ :=
  if room.status = .gaming then room.winlostScore else realUsers room.listMatchUser * info.joinNeedSore

/-- The money of the accounts, of the stock and of the room together stays what it was, and no other account moves. -/
structure Conserved (info : MatchRoomInfo) (accounts : Finset ℤ) (room room' : MatchRoom) : Prop where
  balance : ∑ u ∈ accounts, room'.stored u + room'.totalStock + held info room' =
    ∑ u ∈ accounts, room.stored u + room.totalStock + held info room
  others : ∀ u ∉ accounts, room'.stored u = room.stored u

/-! ## Awards -/

def paid (finishes : List Finish) : ℤ :=
  (finishes.map fun f => if f.user.isAndroid then 0 else f.award).sum

theorem paid_cons (f : Finish) (finishes : List Finish) :
    paid (f :: finishes) = (if f.user.isAndroid then 0 else f.award) + paid finishes := by
  rw [paid, List.map_cons, List.sum_cons]
  rfl

theorem paid_append (early late : List Finish) : paid (early ++ late) = paid early + paid late := by
  rw [paid, List.map_append, List.sum_append]
  rfl

theorem getD_nonneg {awards : List ℤ} (nonneg : ∀ award ∈ awards, 0 ≤ award) (i : ℕ) : 0 ≤ awards.getD i 0 := by
  rcases Nat.lt_or_ge i awards.length with inside | outside
  · rw [List.getD_eq_getElem _ _ inside]
    exact nonneg _ (List.getElem_mem inside)
  · rw [List.getD_eq_default _ _ outside]

/-- Different ranks get no more than all the awards. -/
theorem sum_range'_le {awards : List ℤ} (nonneg : ∀ award ∈ awards, 0 ≤ award) (a k : ℕ) :
    ((List.range' a k).map (awards.getD · 0)).sum ≤ awards.sum := by
  induction awards generalizing a k with
  | nil =>
    apply (List.sum_eq_zero _).le
    intro award here
    obtain ⟨i, -, rfl⟩ := List.mem_map.mp here
    exact List.getD_nil
  | cons first rest ih =>
    obtain ⟨here, later⟩ := List.forall_mem_cons.mp nonneg
    have shift (a k : ℕ) : (List.range' (a + 1) k).map ((first :: rest).getD · 0) =
        (List.range' a k).map (rest.getD · 0) := by
      rw [List.range'_succ_left, List.map_map]
      rfl
    rw [List.sum_cons]
    rcases Nat.eq_zero_or_eq_succ_pred a with rfl | succ
    · cases k with
      | zero => exact add_nonneg here (List.sum_nonneg later)
      | succ k =>
        rw [List.range'_succ, List.map_cons, List.sum_cons, shift]
        exact add_le_add_right (ih later 0 k) first
    · rw [succ, shift]
      exact (ih later _ k).trans (le_add_of_nonneg_left here)

theorem paid_le {finishes : List Finish} (nonneg : ∀ award ∈ info.awards, 0 ≤ award)
    (awards : ∀ f ∈ finishes, f.award = info.awards.getD (f.rank - 1) 0) :
    0 ≤ paid finishes ∧ paid finishes ≤ ((finishes.map (·.rank)).map fun rank => info.awards.getD (rank - 1) 0).sum := by
  induction finishes with
  | nil => exact ⟨le_rfl, le_rfl⟩
  | cons f finishes ih =>
    obtain ⟨here, later⟩ := List.forall_mem_cons.mp awards
    obtain ⟨least, most⟩ := ih later
    have award := getD_nonneg nonneg (f.rank - 1)
    rw [paid_cons, List.map_cons, List.map_cons, List.sum_cons, here]
    split_ifs <;> omega

/-- All that is paid in a match is no more than all the awards. -/
theorem Standing.paid_le {users left : List UserInfo} {finishes : List Finish} (standing : Standing info users finishes left)
    (nonneg : ∀ award ∈ info.awards, 0 ≤ award) : 0 ≤ paid finishes ∧ paid finishes ≤ info.awards.sum := by
  obtain ⟨least, most⟩ := MatchServer.paid_le nonneg standing.awards
  refine ⟨least, most.trans ?_⟩
  rw [standing.ranks, List.map_reverse, List.sum_reverse, List.range'_succ_left, List.map_map]
  exact sum_range'_le nonneg _ _

/-! ## The system's score of a match -/

def owe (info : MatchRoomInfo) : ℤ → Deed → ℤ
  | owed, .admitted _ => owed
  | owed, .withdrew _ => owed
  | _, .started users => realUsers users * info.joinNeedSore
  | owed, .finished user _ award => owed - if user.isAndroid then 0 else award
  | _, .ended => 0

/-- What the log says of `winlost_Score_`. -/
def owed (info : MatchRoomInfo) (log : List Deed) : ℤ := log.foldl (owe info) 0

theorem owed_concat (log : List Deed) (deed : Deed) : owed info (log ++ [deed]) = owe info (owed info log) deed := by
  rw [owed, List.foldl_append]
  rfl

theorem owed_finishes (log : List Deed) (finishes : List Finish) :
    owed info (log ++ finishes.map Finish.deed) = owed info log - paid finishes := by
  induction finishes generalizing log with
  | nil => rw [List.map_nil, List.append_nil, paid, List.map_nil, List.sum_nil, sub_zero]
  | cons f finishes ih =>
    rw [List.map_cons, List.append_cons, ih, owed_concat, paid_cons, Finish.deed, owe]
    ring

theorem owed_match (before : List Deed) (users : List UserInfo) (finishes : List Finish) :
    owed info (before ++ .started users :: finishes.map Finish.deed) =
      realUsers users * info.joinNeedSore - paid finishes := by
  rw [List.append_cons, owed_finishes, owed_concat, owe]

theorem toInt32_of_range {x : ℤ} (least : -2 ^ 31 ≤ x) (most : x < 2 ^ 31) : toInt32 x = x := by
  rw [toInt32, Int.bmod]
  omega

theorem realUsers_cons (user : UserInfo) (users : List UserInfo) :
    (realUsers (user :: users) : ℤ) = realUsers users + if user.isAndroid then 0 else 1 := by
  rw [realUsers, List.countP_cons]
  cases user.isAndroid <;> rfl

theorem addFees_eq {winlost : ℤ} {users : List UserInfo} (fee : 0 ≤ info.joinNeedSore) (least : -2 ^ 31 ≤ winlost)
    (most : winlost + realUsers users * info.joinNeedSore < 2 ^ 31) :
    MatchRoom.addFees info winlost users = winlost + realUsers users * info.joinNeedSore := by
  induction users generalizing winlost with
  | nil => simp [MatchRoom.addFees, realUsers]
  | cons user users ih =>
    have rest : 0 ≤ (realUsers users : ℤ) * info.joinNeedSore := mul_nonneg (Int.natCast_nonneg _) fee
    rw [realUsers_cons] at most ⊢
    rw [MatchRoom.addFees, List.foldl_cons]
    cases robot : user.isAndroid with
    | true =>
      rw [robot] at most
      simp only [↓reduceIte, add_zero] at most ⊢
      exact ih least most
    | false =>
      rw [robot] at most
      simp only [Bool.false_eq_true, ↓reduceIte, add_mul, one_mul] at most ⊢
      rw [toInt32_of_range (by omega) (by omega)]
      refine (ih (by omega) (by omega)).trans ?_
      ring

/-! ## Payments -/

theorem sum_update {stored : ℤ → ℤ} {u score : ℤ} (here : u ∈ accounts) :
    ∑ x ∈ accounts, Function.update stored u (stored u + score) x = ∑ x ∈ accounts, stored x + score := by
  rw [Finset.sum_update_of_mem here, Finset.sum_eq_add_sum_sdiff_singleton_of_mem here]
  ring

/-- What is paid goes from the system's score of the match to the accounts. -/
structure Pays (accounts : Finset ℤ) (room : MatchRoom) (amount : ℤ) (room' : MatchRoom) : Prop where
  winlost : room'.winlostScore = room.winlostScore - amount
  balances : ∑ u ∈ accounts, room'.stored u = ∑ u ∈ accounts, room.stored u + amount
  others : ∀ u ∉ accounts, room'.stored u = room.stored u

theorem pays_award {user : UserInfo} {award : ℤ} (known : toInt32 user.userId ∈ accounts) (nonneg : 0 ≤ award)
    (most : room.winlostScore < 2 ^ 31) (least : -2 ^ 31 ≤ room.winlostScore - if user.isAndroid then 0 else award) :
    Pays accounts room (if user.isAndroid then 0 else award)
      (if user.isAndroid then room else room.onUserFinish user award) := by
  split_ifs at least ⊢
  · exact ⟨(sub_zero _).symm, (add_zero _).symm, fun _ _ => rfl⟩
  · rw [MatchRoom.onUserFinish]
    split
    next none_ => rw [none_]; exact ⟨(sub_zero _).symm, (add_zero _).symm, fun _ _ => rfl⟩
    · refine ⟨toInt32_of_range least (by omega), sum_update known, fun u other => ?_⟩
      exact Function.update_of_ne (fun same => other (by rwa [same])) _ _

theorem pays_dismiss {i rank : ℕ} (done : MatchRoom.dismiss info i rank room = some room')
    (known : ∀ user ∈ room.listMatchUser, toInt32 user.userId ∈ accounts) (nonneg : ∀ award ∈ info.awards, 0 ≤ award)
    (most : room.winlostScore < 2 ^ 31)
    (least : -2 ^ 31 ≤ room.winlostScore - paid (finishesOf info rank (room.listMatchUser.reverse.take i))) :
    Pays accounts room (paid (finishesOf info rank (room.listMatchUser.reverse.take i))) room' := by
  induction i generalizing rank room with
  | zero =>
    obtain rfl := Option.some.inj done
    rw [List.take_zero, finishesOf]
    exact ⟨(sub_zero _).symm, (add_zero _).symm, fun _ _ => rfl⟩
  | succ i ih =>
    rw [MatchRoom.dismiss] at done
    split at done
    · cases done
    next user last =>
      dsimp only at done
      have users : room.listMatchUser.dropLast ++ [user] = room.listMatchUser := List.dropLast_append_getLast? user last
      have first : room.listMatchUser.reverse.take (i + 1) = user :: room.listMatchUser.dropLast.reverse.take i := by
        conv_lhs => rw [← users, List.reverse_append, List.reverse_singleton, List.singleton_append, List.take_succ_cons]
      rw [first, finishesOf, paid_cons] at least ⊢
      have rest := (paid_le nonneg (award_finishesOf (rank - 1) (room.listMatchUser.dropLast.reverse.take i))).1
      have award := getD_nonneg nonneg (rank - 1)
      have pays := @pays_award room accounts user _ (known user (List.mem_of_getLast? last)) award most
        (by dsimp only at least; omega)
      obtain ⟨winlost, stored, frame⟩ := MatchRoom.exists_payAward room user (info.awards.getD (rank - 1) 0)
      rw [frame] at done pays
      obtain ⟨winlost_, accounts_, others⟩ := pays
      dsimp only at winlost_ accounts_ others
      obtain ⟨winlost', accounts', others'⟩ := ih done
        (fun user here => known user (List.mem_of_mem_dropLast here)) (by dsimp only; split_ifs at winlost_ <;> omega)
        (by dsimp only at least ⊢; omega)
      dsimp only at winlost' accounts' others'
      refine ⟨?_, ?_, fun u other => (others' u other).trans (others u other)⟩
      · rw [winlost', winlost_]
        ring
      · rw [accounts', accounts_]
        ring

/-! ## Steps -/

theorem Conserved.refl (room : MatchRoom) : Conserved info accounts room room := ⟨rfl, fun _ _ => rfl⟩

theorem Conserved.trans {room'' : MatchRoom} (first : Conserved info accounts room room')
    (second : Conserved info accounts room' room'') : Conserved info accounts room room'' :=
  ⟨second.balance.trans first.balance, fun u other => (second.others u other).trans (first.others u other)⟩

theorem Affordable.short (affordable : Affordable info) (descending : Descending info) : Short info where
  rounds := affordable.rounds
  steps c size pass before here := by
    obtain ⟨least, -, most, -⟩ := descending.bounds before here
    have few := affordable.few
    omega

structure Settled (info : MatchRoomInfo) (accounts : Finset ℤ) (room : MatchRoom) : Prop where
  going : Going info room
  winlost : room.winlostScore = owed info room.log
  idle : room.status ≠ .gaming → room.winlostScore = 0
  known : ∀ user ∈ room.listMatchUser, toInt32 user.userId ∈ accounts

theorem held_of_idle (idle : room.status ≠ .gaming) :
    held info room = realUsers room.listMatchUser * info.joinNeedSore := if_neg idle

theorem held_of_gaming (gaming : room.status = .gaming) : held info room = room.winlostScore := if_pos gaming

theorem realUsers_perm {users users' : List UserInfo}
    (persons : (users'.map MatchRoom.person).Perm (users.map MatchRoom.person)) : realUsers users' = realUsers users := by
  have split (users : List UserInfo) : realUsers users = (users.map MatchRoom.person).countP (!·.2.2) := by
    rw [List.countP_map]
    rfl
  rw [split, split]
  exact persons.countP_eq _

theorem known_perm {users users' : List UserInfo} (persons : (users'.map MatchRoom.person).Perm (users.map MatchRoom.person))
    (known : ∀ user ∈ users, toInt32 user.userId ∈ accounts) : ∀ user ∈ users', toInt32 user.userId ∈ accounts := by
  intro user here
  obtain ⟨user', there, same⟩ := List.mem_map.mp (persons.subset (List.mem_map_of_mem (f := MatchRoom.person) here))
  rw [← (Prod.mk.inj (Prod.mk.inj same).2).1]
  exact known user' there

theorem realUsers_le_fees (affordable : Affordable info) {users : List UserInfo} (size : users.length ≤ info.maxPlayerNum) :
    0 ≤ (realUsers users : ℤ) * info.joinNeedSore ∧ (realUsers users : ℤ) * info.joinNeedSore < 2 ^ 31 := by
  have fee := affordable.fee
  have few : (realUsers users : ℤ) ≤ info.maxPlayerNum := Int.ofNat_le.mpr (List.countP_le_length.trans size)
  exact ⟨mul_nonneg (Int.natCast_nonneg _) fee, (mul_le_mul_of_nonneg_right few fee).trans_lt affordable.fees⟩

/-- While the match goes on, its score is the fees without the awards that are paid. -/
theorem Settled.gaming (settled : Settled info accounts room) (affordable : Affordable info)
    (gaming : room.status = .gaming) : ∃ users finishes, room.winlostScore = realUsers users * info.joinNeedSore - paid finishes ∧
      users.length = info.maxPlayerNum ∧ Standing info users finishes room.listMatchUser ∧ room.winlostScore < 2 ^ 31 := by
  obtain ⟨before, users, finishes, log, number, -, standing⟩ := settled.going.gaming gaming
  have score := settled.winlost
  rw [log, owed_match] at score
  have fees := realUsers_le_fees affordable number.le
  have awards := standing.paid_le affordable.award
  exact ⟨users, finishes, score, number, standing, by omega⟩

theorem Settled.quiet (settled : Settled info accounts room) (same : Rearranged room room')
    (status : room'.status = room.status) : Settled info accounts room' ∧ Conserved info accounts room room' := by
  refine ⟨⟨settled.going.quiet same status, ?_, ?_, known_perm same.persons settled.known⟩, ?_, ?_⟩
  · rw [same.winlostScore, same.log, settled.winlost]
  · rw [status, same.winlostScore]
    exact settled.idle
  · rw [held, held, status, same.stored, same.totalStock, same.winlostScore, realUsers_perm same.persons]
  · intro u _
    rw [same.stored]

theorem Settled.admission {userId : ℤ} {isAndroid waitStart : Bool} (settled : Settled info accounts room)
    (affordable : Affordable info) (idle : room.status ≠ .gaming) (here : toInt32 userId ∈ accounts)
    (admission : Admission info room userId isAndroid waitStart room') :
    Settled info accounts room' ∧ Conserved info accounts room room' := by
  have going := settled.going.admission idle admission
  have small : toInt64 (-info.joinNeedSore) = -info.joinNeedSore := by
    have space := admission.space
    have fees := affordable.fees
    have fee := affordable.fee
    have one : info.joinNeedSore ≤ info.maxPlayerNum * info.joinNeedSore :=
      le_mul_of_one_le_left fee (by omega)
    rw [toInt64, Int.bmod]
    omega
  have eq := admission.eq
  rw [small] at eq
  have users : realUsers room'.listMatchUser = realUsers room.listMatchUser + if isAndroid then 0 else 1 := by
    rw [eq, realUsers, List.countP_append, List.countP_singleton]
    cases isAndroid <;> rfl
  have status : room'.status ≠ .gaming := by rw [eq]; rintro ⟨⟩
  refine ⟨⟨going, ?_, fun _ => ?_, ?_⟩, ?_, ?_⟩
  · rw [eq, owed_concat, owe]
    exact settled.winlost
  · rw [eq]
    exact settled.idle idle
  · rw [eq]
    intro user there
    rcases List.mem_append.mp there with there | last
    · exact settled.known user there
    · rwa [List.mem_singleton.mp last]
  · rw [held_of_idle status, held_of_idle idle, users]
    cases isAndroid with
    | true =>
      rw [eq]
      rfl
    | false =>
      rw [eq]
      dsimp only [MatchRoom.writeUserScoreToDB]
      rw [if_neg Bool.false_ne_true, if_neg Bool.false_ne_true, sum_update here]
      push_cast
      ring
  · intro u other
    rw [eq]
    cases isAndroid with
    | true => rfl
    | false => exact Function.update_of_ne (fun same => other (by rwa [same])) _ _

theorem Settled.start {seats : Seats} (settled : Settled info accounts room) (affordable : Affordable info)
    (descending : Descending info) (idle : room.status ≠ .gaming) (full : room.listMatchUser.length = info.maxPlayerNum) :
    Settled info accounts (room.startMatch info seats) ∧ Conserved info accounts room (room.startMatch info seats) := by
  have going := @Going.start info room seats settled.going descending idle full
  obtain ⟨users, waiting, tables, result, same⟩ := @MatchRoom.startMatch_frame info seats room
  have fees := realUsers_le_fees affordable full.le
  have score := settled.idle idle
  have winlost : MatchRoom.addFees info room.winlostScore room.listMatchUser =
      realUsers room.listMatchUser * info.joinNeedSore := by
    rw [addFees_eq affordable.fee (by omega) (by omega), score, zero_add]
  rw [result] at going ⊢
  refine ⟨⟨going, ?_, fun other => absurd rfl other, ?_⟩, ?_, fun _ _ => rfl⟩
  · rw [owed_concat, owe]
    exact winlost
  · exact known_perm (.of_eq (MatchRoom.map_person_of_identity same)) settled.known
  · rw [held_of_idle idle, held_of_gaming rfl]
    dsimp only
    rw [winlost]

theorem Settled.withdraw {userId : ℤ} {user : UserInfo} (settled : Settled info accounts room)
    (found : room.listMatchUser.find? (·.userId = userId) = some user) (real : user.isAndroid = false)
    (idle : room.status ≠ .gaming) (going : Going info room')
    (eq : room' = ({ room with
      listMatchUser := room.listMatchUser.eraseP (·.userId = userId)
      log := room.log ++ [.withdrew user] } : MatchRoom).writeUserScoreToDB userId info.joinNeedSore) :
    Settled info accounts room' ∧ Conserved info accounts room room' := by
  obtain ⟨same, before, after, users, others⟩ := List.find?_eq_some_iff_append.mp found
  have erased : room.listMatchUser.eraseP (·.userId = userId) = before ++ after := by
    rw [users, List.eraseP_append_right _ (by simpa using others),
      List.eraseP_cons_of_pos (p := fun user : UserInfo => decide (user.userId = userId)) same]
  have here : toInt32 userId ∈ accounts := by
    rw [← of_decide_eq_true same]
    exact settled.known user (List.mem_of_find?_eq_some found)
  have count : realUsers room.listMatchUser = realUsers (before ++ after) + 1 := by
    rw [users, realUsers, realUsers, List.countP_append, List.countP_cons, List.countP_append, real]
    rfl
  have status : room'.status ≠ .gaming := by rw [eq]; exact idle
  refine ⟨⟨going, ?_, fun _ => ?_, fun user there => ?_⟩, ?_, fun u other => ?_⟩
  · rw [eq, MatchRoom.writeUserScoreToDB]
    dsimp only
    rw [owed_concat, owe]
    exact settled.winlost
  · rw [eq]
    exact settled.idle idle
  · rw [eq] at there
    exact settled.known user (List.eraseP_subset there)
  · rw [held_of_idle status, held_of_idle idle, count, eq, MatchRoom.writeUserScoreToDB]
    dsimp only
    rw [erased, sum_update here]
    push_cast
    ring
  · rw [eq]
    exact Function.update_of_ne (fun same => other (by rwa [same])) _ _

theorem Settled.round_over (settled : Settled info accounts room) (affordable : Affordable info)
    (descending : Descending info) (gaming : room.status = .gaming) (taken : room.endRound info = some room') :
    Settled info accounts room' ∧ Conserved info accounts room room' := by
  have going := settled.going.round_over descending (affordable.short descending) gaming taken
  obtain ⟨users, finishes, score, number, standing, most⟩ := settled.gaming affordable gaming
  obtain ⟨pass, stay, out, room₁, -, split, -, done, result, after⟩ := MatchRoom.endRound_cases taken
  have perm := (MatchRoom.sortUser_ranking room).1
  have last : room.sortUser.listMatchUser.reverse.take out.length = out.reverse := by
    rw [split, List.reverse_append, ← List.length_reverse, List.take_left]
  have fees := realUsers_le_fees affordable number.le
  -- the awards of this round are among all the awards
  have all := ((split ▸ perm : (stay ++ out).Perm room.listMatchUser) |> standing.dismiss).paid_le affordable.award
  rw [paid_append, ← perm.length_eq] at all
  have awards := affordable.awards
  have pays := @pays_dismiss info room.sortUser room₁ accounts out.length _ done
    (fun user here => settled.known user (perm.subset here)) affordable.award most
    (by rw [last]; change _ ≤ room.winlostScore - _; omega)
  rw [last] at pays
  obtain ⟨winlost, balances, others⟩ := pays
  change room₁.winlostScore = room.winlostScore - _ at winlost
  have log : room₁.log = room.log ++ (finishesOf info room.sortUser.listMatchUser.length out.reverse).map Finish.deed := by
    rw [result, map_deed_finishesOf]
  have status : room₁.status = .gaming := by rw [result]; exact gaming
  have stock : room₁.totalStock = room.totalStock := by rw [result]
  have list : room₁.listMatchUser = stay := by rw [result]
  have known : ∀ user ∈ stay, toInt32 user.userId ∈ accounts := fun user here =>
    settled.known user (perm.subset (split ▸ List.mem_append_left _ here))
  have score₁ : room₁.winlostScore = owed info room₁.log := by rw [winlost, log, owed_finishes, settled.winlost]
  have conserved : Conserved info accounts room room₁ := by
    refine ⟨?_, others⟩
    rw [held_of_gaming status, held_of_gaming gaming, balances, stock, winlost]
    change ∑ u ∈ accounts, room.stored u + _ + _ + _ = _
    ring
  split at after
  · subst after
    refine ⟨⟨going, ?_, fun _ => rfl, fun user here => absurd here List.not_mem_nil⟩, conserved.trans ⟨?_, fun _ _ => rfl⟩⟩
    · rw [MatchRoom.matchOver]
      dsimp only
      rw [owed_concat, owe]
    · rw [held_of_gaming status, held_of_idle (by rintro ⟨⟩), MatchRoom.matchOver, realUsers, List.countP_nil]
      dsimp only
      push_cast
      ring
  · obtain ⟨eq, -⟩ := nextRound_eq after
    have persons : room'.listMatchUser.map MatchRoom.person = room₁.listMatchUser.map MatchRoom.person := by
      rw [eq, List.map_map]
      rfl
    have status' : room'.status = .gaming := by rw [eq]; exact status
    refine ⟨⟨going, ?_, fun idle => absurd status' idle, known_perm (.of_eq persons) (list ▸ known)⟩,
      conserved.trans ⟨?_, fun u _ => by rw [eq]⟩⟩
    · rw [eq]
      exact score₁
    · rw [held_of_gaming status', held_of_gaming status, eq]

theorem settled_step {event : Event} (affordable : Affordable info) (descending : Descending info)
    (settled : Settled info accounts room) (permits : Permits accounts room event)
    (taken : step info room event = some room') : Settled info accounts room' ∧ Conserved info accounts room room' := by
  have going := going_step descending (affordable.short descending) settled.going taken
  cases outcome_of_step taken with
  | quiet same status => exact settled.quiet same status
  | refused idle eq =>
    subst eq
    refine ⟨⟨going, settled.winlost, fun _ => settled.idle idle, settled.known⟩, ?_, fun _ _ => rfl⟩
    rw [held_of_idle idle, held_of_idle (by rintro ⟨⟩)]
  | @admitted idle userId leftTime isAndroid waitStart seats message room₁ admission after =>
    subst message
    obtain ⟨settled₁, conserved⟩ := settled.admission affordable idle permits admission
    have status : room₁.status = .waitStart := by rw [admission.eq]
    have idle₁ : room₁.status ≠ .gaming := by rw [status]; rintro ⟨⟩
    have space : room₁.listMatchUser.length ≤ info.maxPlayerNum := by
      rw [admission.eq, List.length_append, List.length_singleton]
      exact admission.space
    rcases after with rfl | ⟨nobody, rfl⟩ | ⟨full, rfl⟩
    · exact ⟨settled₁, conserved⟩
    · -- only robots are sent away
      have few := affordable.few
      have real : realUsers room₁.listMatchUser = 0 := by
        rw [← nobody, MatchRoom.getPlayerCount, Nat.mod_eq_of_lt, realUsers]
        exact (List.countP_le_length.trans space).trans_lt few
      have sub : (room₁.clearAllUser.listMatchUser).Sublist room₁.listMatchUser := List.take_sublist _ _
      have real' : realUsers room₁.clearAllUser.listMatchUser = 0 := Nat.le_zero.mp (real ▸ sub.countP_le)
      refine ⟨⟨going, settled₁.winlost, settled₁.idle, fun user here => settled₁.known user (sub.subset here)⟩,
        conserved.trans ⟨?_, fun _ _ => rfl⟩⟩
      rw [held_of_idle idle₁, held_of_idle (show room₁.clearAllUser.status ≠ .gaming from idle₁), real, real']
      rfl
    · obtain ⟨started, conserved'⟩ := @Settled.start info room₁ accounts seats settled₁ affordable descending idle₁
        (Nat.le_antisymm space full)
      exact ⟨started, conserved.trans conserved'⟩
  | @withdrew idle userId message user found eq =>
    subst message
    exact settled.withdraw found (permits.resolve_left idle user found) idle going eq
  | ended gaming tick tables count taken => exact settled.round_over affordable descending gaming taken

/-- The users 1 to 9. -/
def nineAccounts : Finset ℤ := {1, 2, 3, 4, 5, 6, 7, 8, 9}

end H5Server.MatchServer
