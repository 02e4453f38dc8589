import H5Server.MatchServer.Bookkeeping

/-! # Ranks and awards

Who is out gets the rank that counts those who are still there, and the award of that rank. The number of users who are out
of a round is counted down in sixteen bits, and the rounds are counted in eight.
-/

namespace H5Server.MatchServer

variable {info : MatchRoomInfo} {room room' : MatchRoom} {users left : List UserInfo}

/-- A user who is out, his rank and his award. -/
structure Finish where
  user : UserInfo
  rank : ℕ
  award : ℤ

def Finish.deed (f : Finish) : Deed := .finished f.user f.rank f.award

/-- The users of a match and those who are `left`: everybody else is out once, with the ranks from the last one on. -/
structure Standing (info : MatchRoomInfo) (users : List UserInfo) (finishes : List Finish) (left : List UserInfo) : Prop where
  once : (finishes.map (MatchRoom.person ·.user) ++ left.map MatchRoom.person).Perm (users.map MatchRoom.person)
  ranks : finishes.map (·.rank) = (List.range' (left.length + 1) (users.length - left.length)).reverse
  awards : ∀ f ∈ finishes, f.award = info.awards.getD (f.rank - 1) 0

/-- The end of a round: the last of the ranking are out, the others go on. -/
def RoundRule (info : MatchRoomInfo) (room : MatchRoom) : Prop :=
  ∀ event room', step info room event = some room' → Ended room room' →
    ∃ pass : ℕ, room.passUserNum info = some (pass : ℤ) ∧
      ∃ sorted, Lib.Ranking UserInfo.userScore room.listMatchUser sorted ∧
        ∃ finishes : List Finish, finishes.map (·.user) = (sorted.drop pass).reverse ∧
          room'.log = room.log ++ finishes.map Finish.deed ++ (if pass = 0 then [.ended] else []) ∧
          room'.listMatchUser.map MatchRoom.person = (sorted.take pass).map MatchRoom.person

/-- What the log says of the match that goes on, or of the one that is just over. -/
structure Ranked (info : MatchRoomInfo) (room : MatchRoom) : Prop where
  gaming : room.status = .gaming → ∃ before users finishes,
    room.log = before ++ .started users :: finishes.map Finish.deed ∧ users.length = info.maxPlayerNum ∧
      (users.map (·.ref)).Nodup ∧ Standing info users finishes room.listMatchUser ∧ RoundRule info room
  concluded : room.status = .matchEnd → ∃ before users finishes,
    room.log = before ++ .started users :: (finishes.map Finish.deed ++ [.ended]) ∧ users.length = info.maxPlayerNum ∧
      (users.map (·.ref)).Nodup ∧ Standing info users finishes []

/-- Every round lets fewer users pass, and the last one nobody. -/
structure Descending (info : MatchRoomInfo) : Prop where
  descends : ((info.maxPlayerNum : ℤ) :: info.upGradeUserNum).Pairwise (· > ·)
  last : info.upGradeUserNum.getLast? = some 0

/-- The counters of the rounds and of the users who are out do not overflow. -/
structure Short (info : MatchRoomInfo) : Prop where
  rounds : info.upGradeUserNum.length ≤ 2 ^ 8
  steps : ∀ (c : ℕ) (size pass : ℤ), ((info.maxPlayerNum : ℤ) :: info.upGradeUserNum)[c]? = some size →
    info.upGradeUserNum[c]? = some pass → size - pass < 2 ^ 16

/-! ## Those who are out -/

def finishesOf (info : MatchRoomInfo) : ℕ → List UserInfo → List Finish
  | _, [] => []
  | rank, user :: rest => ⟨user, rank, info.awards.getD (rank - 1) 0⟩ :: finishesOf info (rank - 1) rest

theorem map_deed_finishesOf (rank : ℕ) (out : List UserInfo) :
    (finishesOf info rank out).map Finish.deed = MatchRoom.dismissed info rank out := by
  induction out generalizing rank with
  | nil => rfl
  | cons user out ih => rw [finishesOf, List.map_cons, ih, MatchRoom.dismissed]; rfl

theorem map_user_finishesOf (rank : ℕ) (out : List UserInfo) : (finishesOf info rank out).map (·.user) = out := by
  induction out generalizing rank with
  | nil => rfl
  | cons user out ih => rw [finishesOf, List.map_cons, ih]

theorem map_rank_finishesOf {rank : ℕ} {out : List UserInfo} (enough : out.length ≤ rank) :
    (finishesOf info rank out).map (·.rank) = (List.range' (rank - out.length + 1) out.length).reverse := by
  induction out generalizing rank with
  | nil => rfl
  | cons user out ih =>
    rw [List.length_cons] at enough ⊢
    rw [finishesOf, List.map_cons, ih (by omega), List.range'_concat, List.reverse_append]
    simp only [List.reverse_singleton, List.singleton_append, Nat.one_mul]
    congr 1 <;> congr 2 <;> omega

theorem award_finishesOf (rank : ℕ) (out : List UserInfo) :
    ∀ f ∈ finishesOf info rank out, f.award = info.awards.getD (f.rank - 1) 0 := by
  induction out generalizing rank with
  | nil => exact fun f here => absurd here List.not_mem_nil
  | cons user out ih => exact List.forall_mem_cons.mpr ⟨rfl, ih (rank - 1)⟩

/-- The end of a round keeps the standing. -/
theorem Standing.dismiss {finishes : List Finish} {stay out : List UserInfo} (standing : Standing info users finishes left)
    (perm : (stay ++ out).Perm left) :
    Standing info users (finishes ++ finishesOf info left.length out.reverse) stay := by
  have length : left.length = stay.length + out.length := by rw [← perm.length_eq, List.length_append]
  have total : left.length ≤ users.length := by
    have all := standing.once.length_eq
    rw [List.length_append, List.length_map, List.length_map, List.length_map] at all
    omega
  refine ⟨?_, ?_, ?_⟩
  · have persons : (finishesOf info left.length out.reverse).map (MatchRoom.person ·.user) =
        (out.reverse).map MatchRoom.person := by
      conv_rhs => rw [← @map_user_finishesOf info left.length out.reverse, List.map_map]
      rfl
    rw [List.map_append, persons, List.append_assoc]
    refine List.Perm.trans (List.Perm.append_left _ ?_) standing.once
    rw [← List.map_append]
    apply List.Perm.map
    exact (List.perm_append_comm.trans ((List.reverse_perm out).append_left stay)).trans perm
  · rw [List.map_append, standing.ranks, map_rank_finishesOf (by rw [List.length_reverse]; omega), List.length_reverse,
      ← List.reverse_append]
    congr 1
    have first : left.length - out.length + 1 = stay.length + 1 := by omega
    have second : left.length + 1 = stay.length + 1 + out.length := by omega
    rw [first, second, List.range'_append_1]
    congr 1
    omega
  · intro f here
    rcases List.mem_append.mp here with early | late
    · exact standing.awards f early
    · exact award_finishesOf _ _ f late

/-! ## Rounds -/

theorem Descending.bounds (descending : Descending info) {c : ℕ} {size pass : ℤ}
    (before : ((info.maxPlayerNum : ℤ) :: info.upGradeUserNum)[c]? = some size)
    (here : info.upGradeUserNum[c]? = some pass) :
    0 ≤ pass ∧ pass < size ∧ size ≤ info.maxPlayerNum ∧ (pass = 0 ↔ c + 1 = info.upGradeUserNum.length) := by
  have falls := List.pairwise_iff_getElem.mp descending.descends
  obtain ⟨inside, rfl⟩ := List.getElem?_eq_some_iff.mp here
  obtain ⟨inside', rfl⟩ := List.getElem?_eq_some_iff.mp before
  have next := falls c (c + 1) inside' (Nat.succ_lt_succ inside) (Nat.lt_succ_self c)
  rw [List.getElem_cons_succ] at next
  have top : ((info.maxPlayerNum : ℤ) :: info.upGradeUserNum)[c] ≤ info.maxPlayerNum := by
    rcases Nat.eq_zero_or_pos c with rfl | positive
    · exact le_refl _
    · exact (falls 0 c (Nat.zero_lt_succ _) inside' positive).le
  have some_ : info.upGradeUserNum ≠ [] := List.ne_nil_of_length_pos (Nat.zero_lt_of_lt inside)
  have last : info.upGradeUserNum[info.upGradeUserNum.length - 1] = 0 := by
    have found := descending.last
    rw [List.getLast?_eq_getLast_of_ne_nil some_, Option.some.injEq, List.getLast_eq_getElem] at found
    exact found
  rcases (Nat.succ_le_of_lt inside).lt_or_eq with more | done
  · have falls' := falls (c + 1) (info.upGradeUserNum.length - 1 + 1) (Nat.succ_lt_succ inside)
      (by rw [List.length_cons]; omega) (by omega)
    rw [List.getElem_cons_succ, List.getElem_cons_succ, last] at falls'
    exact ⟨falls'.le, next, top, by omega⟩
  · have same : info.upGradeUserNum[c] = 0 := by
      rw [← last]
      congr 1
      omega
    exact ⟨same.ge, next, top, iff_of_true same done⟩

/-- The invariant of the rounds, with the log of the match. -/
structure Going (info : MatchRoomInfo) (room : MatchRoom) : Prop where
  distinct : (room.listMatchUser.map (·.ref)).Nodup
  below : ∀ user ∈ room.listMatchUser, user.ref < room.next
  idle : room.status ≠ .gaming → room.curRoundCount = 0
  round : room.status = .gaming → room.curRoundCount < info.upGradeUserNum.length ∧
    ((info.maxPlayerNum : ℤ) :: info.upGradeUserNum)[room.curRoundCount]? = some (room.listMatchUser.length : ℤ)
  gaming : room.status = .gaming → ∃ before users finishes,
    room.log = before ++ .started users :: finishes.map Finish.deed ∧ users.length = info.maxPlayerNum ∧
      (users.map (·.ref)).Nodup ∧ Standing info users finishes room.listMatchUser
  empty : room.status = .matchEnd → room.listMatchUser = []
  concluded : room.status = .matchEnd → ∃ before users finishes,
    room.log = before ++ .started users :: (finishes.map Finish.deed ++ [.ended]) ∧ users.length = info.maxPlayerNum ∧
      (users.map (·.ref)).Nodup ∧ Standing info users finishes []

/-- A round that ends in bounds: as many users go on as the round lets pass. -/
theorem Going.endRound (going : Going info room) (descending : Descending info) (short : Short info)
    (gaming : room.status = .gaming) (taken : room.endRound info = some room') :
    ∃ (pass : ℕ) (stay out : List UserInfo) (room₁ : MatchRoom), room.passUserNum info = some (pass : ℤ) ∧
      room.sortUser.listMatchUser = stay ++ out ∧ stay.length = pass ∧
      room₁ = { room with
        listMatchUser := stay, winlostScore := room₁.winlostScore, stored := room₁.stored
        log := room.log ++ MatchRoom.dismissed info room.listMatchUser.length out.reverse } ∧
      (if pass = 0 then room' = room₁.matchOver
        else room₁.nextRound info = some room' ∧ room.curRoundCount + 1 < info.upGradeUserNum.length) := by
  obtain ⟨pass, stay, out, room₁, known, split, length, -, result, after⟩ := MatchRoom.endRound_cases taken
  obtain ⟨inside, size⟩ := going.round gaming
  obtain ⟨least, less, most, last_iff⟩ := descending.bounds size known
  have few := short.steps _ _ _ size known
  have same := (MatchRoom.sortUser_ranking room).1.length_eq
  have total : stay.length + out.length = room.listMatchUser.length := by rw [← same, split, List.length_append]
  have bound := info.maxPlayerNum_lt
  have small : (pass % 2 ^ 32).toNat = pass.toNat := by omega
  rw [small] at length after
  rw [same] at result
  refine ⟨pass.toNat, stay, out, room₁, by rw [Int.toNat_of_nonneg least]; exact known, split, by omega, result, ?_⟩
  split at after
  next none_ => rwa [if_pos none_]
  next some_ =>
    rw [if_neg some_]
    refine ⟨after, ?_⟩
    have other : ¬pass = 0 := fun zero => some_ (by rw [zero]; rfl)
    rw [last_iff] at other
    omega

theorem Standing.congr {finishes : List Finish} {left' : List UserInfo} (standing : Standing info users finishes left)
    (persons : (left'.map MatchRoom.person).Perm (left.map MatchRoom.person)) : Standing info users finishes left' := by
  have length : left'.length = left.length := by
    have same := persons.length_eq
    rwa [List.length_map, List.length_map] at same
  refine ⟨(persons.append_left _).trans standing.once, ?_, standing.awards⟩
  rw [standing.ranks, length]

theorem refs_perm {list list' : List UserInfo} (persons : (list'.map MatchRoom.person).Perm (list.map MatchRoom.person)) :
    (list'.map (·.ref)).Perm (list.map (·.ref)) := by
  have split (list : List UserInfo) : list.map (·.ref) = (list.map MatchRoom.person).map (·.1) := by
    rw [List.map_map]
    rfl
  rw [split, split]
  exact persons.map _

theorem Going.below_iff : (∀ user ∈ room.listMatchUser, user.ref < room.next) ↔
    ∀ ref ∈ room.listMatchUser.map (·.ref), ref < room.next := by
  simp

theorem Going.waiting (status : room.status = .waitStart) (distinct : (room.listMatchUser.map (·.ref)).Nodup)
    (below : ∀ user ∈ room.listMatchUser, user.ref < room.next) (round : room.curRoundCount = 0) : Going info room where
  distinct
  below
  idle _ := round
  round gaming := by cases status.symm.trans gaming
  gaming gaming := by cases status.symm.trans gaming
  empty concluded := by cases status.symm.trans concluded
  concluded concluded := by cases status.symm.trans concluded

theorem Going.quiet (going : Going info room) (same : Rearranged room room') (status : room'.status = room.status) :
    Going info room' where
  distinct := (refs_perm same.persons).nodup_iff.mpr going.distinct
  below := by
    rw [Going.below_iff, same.next]
    exact fun ref here => Going.below_iff.mp going.below ref ((refs_perm same.persons).subset here)
  idle idle := by
    rw [status] at idle
    exact same.curRoundCount.trans (going.idle idle)
  round gaming := by
    rw [status] at gaming
    have length := same.persons.length_eq
    rw [List.length_map, List.length_map] at length
    rw [same.curRoundCount, length]
    exact going.round gaming
  gaming gaming := by
    rw [status] at gaming
    obtain ⟨before, users, finishes, log, number, distinct, standing⟩ := going.gaming gaming
    exact ⟨before, users, finishes, same.log.trans log, number, distinct, standing.congr same.persons⟩
  empty concluded := by
    rw [status] at concluded
    have persons := same.persons
    rw [going.empty concluded, List.map_nil, List.perm_nil, List.map_eq_nil_iff] at persons
    exact persons
  concluded concluded := by
    rw [status] at concluded
    rw [same.log]
    exact going.concluded concluded

theorem Going.admission {userId : ℤ} {isAndroid waitStart : Bool} (going : Going info room) (idle : room.status ≠ .gaming)
    (admission : Admission info room userId isAndroid waitStart room') : Going info room' := by
  obtain rfl := admission.eq
  refine .waiting rfl ?_ ?_ (going.idle idle)
  · rw [List.map_append]
    refine List.nodup_append.mpr ⟨going.distinct, List.nodup_singleton _, ?_⟩
    rintro ref here _ last rfl
    obtain ⟨user, there, rfl⟩ := List.mem_map.mp here
    exact (going.below user there).ne (List.mem_singleton.mp last)
  · intro user here
    rcases List.mem_append.mp here with here | last
    · exact (going.below user here).trans (Nat.lt_succ_self _)
    · rw [List.mem_singleton.mp last]
      exact Nat.lt_succ_self _

theorem Going.start {seats : Seats} (going : Going info room) (descending : Descending info)
    (idle : room.status ≠ .gaming) (full : room.listMatchUser.length = info.maxPlayerNum) :
    Going info (room.startMatch info seats) := by
  obtain ⟨users, waiting, tables, result, same⟩ := @MatchRoom.startMatch_frame info seats room
  have persons := MatchRoom.map_person_of_identity same
  have length : users.length = info.maxPlayerNum := by
    have lengths := congrArg List.length persons
    rwa [List.length_map, List.length_map, full] at lengths
  have refs := refs_perm (.of_eq persons)
  rw [result]
  refine ⟨refs.nodup_iff.mpr going.distinct, ?_, fun other => absurd rfl other, fun _ => ?_, fun _ => ?_, by rintro ⟨⟩,
    by rintro ⟨⟩⟩
  · rw [Going.below_iff]
    exact fun ref here => Going.below_iff.mp going.below ref (refs.subset here)
  · rw [going.idle idle]
    refine ⟨List.length_pos_of_ne_nil fun none_ => ?_, by rw [List.getElem?_cons_zero, length]⟩
    have last := descending.last
    rw [none_] at last
    cases last
  · refine ⟨room.log, room.listMatchUser, [], rfl, full, going.distinct, ?_, ?_, by simp⟩
    · rw [List.map_nil, List.nil_append, persons]
    · rw [length, full, Nat.sub_self]
      rfl

theorem Going.round_over (going : Going info room) (descending : Descending info) (short : Short info)
    (gaming : room.status = .gaming) (taken : room.endRound info = some room') : Going info room' := by
  obtain ⟨pass, stay, out, room₁, known, split, length, result, after⟩ :=
    going.endRound descending short gaming taken
  obtain ⟨before, users, finishes, log, number, distinct, standing⟩ := going.gaming gaming
  have perm := (MatchRoom.sortUser_ranking room).1
  rw [split] at perm
  have standing' := standing.dismiss perm
  have log' : room₁.log = before ++ .started users ::
      (finishes ++ finishesOf info room.listMatchUser.length out.reverse).map Finish.deed := by
    rw [result, List.map_append, map_deed_finishesOf, log, List.append_assoc, List.cons_append]
  have refs : (stay.map (·.ref)).Nodup := by
    have all := (perm.map (·.ref)).nodup_iff.mpr going.distinct
    rw [List.map_append] at all
    exact (List.nodup_append.mp all).1
  have below (user : UserInfo) (here : user ∈ stay) : user.ref < room.next :=
    going.below user (perm.subset (List.mem_append_left _ here))
  split at after
  next none_ =>
    subst after
    obtain rfl := List.length_eq_zero_iff.mp (length.trans none_)
    refine ⟨List.nodup_nil, by simp [MatchRoom.matchOver], fun _ => rfl, by rintro ⟨⟩, by rintro ⟨⟩, fun _ => rfl,
      fun _ => ⟨before, users, _, ?_, number, distinct, standing'⟩⟩
    rw [MatchRoom.matchOver]
    dsimp only
    rw [log', List.append_assoc, List.cons_append]
  next some_ =>
    obtain ⟨eq, -⟩ := nextRound_eq after.1
    have inside := short.rounds
    have cur₁ : room₁.curRoundCount = room.curRoundCount := by rw [result]
    have round : (room₁.curRoundCount + 1) % 2 ^ 8 = room.curRoundCount + 1 := by
      rw [cur₁]
      exact Nat.mod_eq_of_lt (by omega)
    have list : room₁.listMatchUser = stay := by rw [result]
    have persons : room'.listMatchUser.map MatchRoom.person = stay.map MatchRoom.person := by
      rw [eq, list, List.map_map]
      rfl
    have status : room'.status = .gaming := by rw [eq, result]; exact gaming
    have next : room'.next = room.next := by rw [eq, result]
    refine ⟨(refs_perm (.of_eq persons)).nodup_iff.mpr refs, ?_, fun idle => absurd status idle, fun _ => ?_, fun _ => ?_,
      fun concluded => absurd (status.symm.trans concluded) (by rintro ⟨⟩), fun concluded => absurd (status.symm.trans concluded) (by rintro ⟨⟩)⟩
    · rw [Going.below_iff, next]
      intro ref here
      obtain ⟨user, there, rfl⟩ := List.mem_map.mp ((refs_perm (.of_eq persons)).subset here)
      exact below user there
    · have lengths := congrArg List.length persons
      rw [List.length_map, List.length_map] at lengths
      have cur : room'.curRoundCount = room.curRoundCount + 1 := by rw [eq, round]
      rw [cur, lengths, length, List.getElem?_cons_succ]
      exact ⟨after.2, known⟩
    · refine ⟨before, users, _, ?_, number, distinct, standing'.congr (.of_eq persons)⟩
      rw [eq]
      exact log'

theorem going_step {event : Event} (descending : Descending info) (short : Short info) (going : Going info room)
    (taken : step info room event = some room') : Going info room' := by
  cases outcome_of_step taken with
  | quiet same status => exact going.quiet same status
  | refused idle eq =>
    obtain rfl := eq
    exact .waiting rfl going.distinct going.below (going.idle idle)
  | @admitted idle _ _ _ _ _ message room₁ admission after =>
    have admitted := going.admission idle admission
    have status : room₁.status = .waitStart := by rw [admission.eq]
    have idle₁ : room₁.status ≠ .gaming := by rw [status]; rintro ⟨⟩
    rcases after with rfl | ⟨-, rfl⟩ | ⟨full, rfl⟩
    · exact admitted
    · have sub : (room₁.clearAllUser.listMatchUser).Sublist room₁.listMatchUser := List.take_sublist _ _
      exact .waiting status (admitted.distinct.sublist (sub.map _)) (fun user here => admitted.below user (sub.subset here))
        (admitted.idle idle₁)
    · apply admitted.start descending idle₁
      have space := admission.space
      rw [admission.eq, List.length_append, List.length_singleton] at full ⊢
      omega
  | withdrew idle message found eq =>
    have status : room.status = .waitStart := by
      cases now : room.status with
      | waitStart => rfl
      | gaming => exact absurd now idle
      | matchEnd =>
        rw [going.empty now] at found
        cases found
    subst eq
    exact .waiting status (going.distinct.sublist (List.eraseP_sublist.map _))
      (fun user here => going.below user (List.eraseP_subset here)) (going.idle idle)
  | ended gaming tick tables count taken => exact going.round_over descending short gaming taken

theorem Going.roundRule (going : Going info room) (descending : Descending info) (short : Short info)
    (gaming : room.status = .gaming) : RoundRule info room := by
  intro event room' taken concluded
  cases outcome_of_step taken with
  | quiet same status =>
    rcases concluded with other | concluded
    · exact absurd same.curRoundCount other
    · cases (status.trans gaming).symm.trans concluded
  | refused idle => exact absurd gaming idle
  | admitted idle => exact absurd gaming idle
  | withdrew idle => exact absurd gaming idle
  | ended _ _ _ _ taken =>
    obtain ⟨pass, stay, out, room₁, known, split, length, result, after⟩ :=
      going.endRound descending short gaming taken
    have log : room₁.log = room.log ++ (finishesOf info room.listMatchUser.length out.reverse).map Finish.deed := by
      rw [result, map_deed_finishesOf]
    refine ⟨pass, known, _, MatchRoom.sortUser_ranking room, finishesOf info room.listMatchUser.length out.reverse, ?_⟩
    rw [map_user_finishesOf, split, ← length, List.drop_left, List.take_left, length]
    refine ⟨rfl, ?_⟩
    split at after
    next none_ =>
      subst after
      obtain rfl := List.length_eq_zero_iff.mp (length.trans none_)
      rw [if_pos none_, ← log]
      exact ⟨rfl, rfl⟩
    next some_ =>
      obtain ⟨eq, -⟩ := nextRound_eq after.1
      rw [if_neg some_, List.append_nil, ← log, eq]
      refine ⟨rfl, ?_⟩
      have list : room₁.listMatchUser = stay := by rw [result]
      rw [list, List.map_map]
      rfl

/-- With few rounds and few users out of each, the ranks and awards of every match are right. -/
theorem ranked_of_run {stored : ℤ → ℤ} {totalStock : ℤ} {events : List Event} (descending : Descending info)
    (short : Short info) (run : Lib.Run (step info) (fun _ _ => True) (.fresh stored totalStock) events room) :
    Ranked info room := by
  have start : Going info (.fresh stored totalStock) := .waiting rfl List.nodup_nil (by simp [MatchRoom.fresh]) rfl
  have going : Going info room :=
    run.invariant (fun _ _ _ going _ taken => going_step descending short going taken) start
  refine ⟨fun gaming => ?_, going.concluded⟩
  obtain ⟨before, users, finishes, log, number, distinct, standing⟩ := going.gaming gaming
  exact ⟨before, users, finishes, log, number, distinct, standing, going.roundRule descending short gaming⟩

/-- Everybody gets a seat, plays a game and leaves the table, and the round ends. -/
def wholeMatch : List Event :=
  (List.range 8).map (fun i => .joinMatch (i + 1) true true 0 []) ++
    .joinMatch 9 false true 0 (List.replicate 9 (some (0, true))) ::
      ((List.range 9).map (fun i => .userOutTable (i + 1)) ++ [.tableFinish 0, .allocateUser [] []])

theorem ranked_of_run_wholeMatch :
    ∃ room, Lib.Run (step nineUsers) (fun _ _ => True) (.fresh (fun _ => 0) 0) wholeMatch room ∧
      room.status = .matchEnd ∧ Ranked nineUsers room := by
  have played : (Lib.replay (step nineUsers) (.fresh (fun _ => 0) 0) wholeMatch).map (·.status) = some .matchEnd := by
    decide +kernel
  obtain ⟨room, done, concluded⟩ := Option.map_eq_some_iff.mp played
  have short : Short nineUsers := by
    refine ⟨by decide, fun c size pass before here => ?_⟩
    obtain ⟨inside, rfl⟩ := List.getElem?_eq_some_iff.mp here
    obtain rfl : c = 0 := Nat.lt_one_iff.mp inside
    obtain rfl := Option.some.inj before
    change (9 : ℤ) - 0 < 2 ^ 16
    decide
  have run := Lib.run_of_replay done
  exact ⟨room, run, concluded, ranked_of_run ⟨by decide, rfl⟩ short run⟩

/-! ## A match of 65536 users -/

def manyUsers : MatchRoomInfo where
  initCoins := 1000
  maxPlayerNum := 2 ^ 16
  maxPlayerNum_lt := by decide
  joinNeedSore := 10
  fixedAllocate := true
  awards := [50]
  upgradeGameNum := [1]
  upGradeUserNum := [0]
  atLeastNeedScore := 0

/-- A room whose users all have ids that a table can report. -/
def Reports (room : MatchRoom) : Prop := ∀ user ∈ room.listMatchUser, 0 ≤ user.userId ∧ user.userId < 2 ^ 32

theorem Reports.congr (reports : Reports room)
    (same : room'.listMatchUser.map MatchRoom.person = room.listMatchUser.map MatchRoom.person) : Reports room' := by
  intro user here
  obtain ⟨user', there, eq⟩ := List.mem_map.mp (same ▸ List.mem_map_of_mem (f := MatchRoom.person) here)
  rw [← (Prod.mk.inj (Prod.mk.inj eq).2).1]
  exact reports user' there

theorem exists_robots (n : ℕ) (few : n < 2 ^ 16) :
    ∃ events room, Lib.Run (step manyUsers) SetsFlag (.fresh (fun _ => 0) 0) events room ∧ room.status = .waitStart ∧
      room.curRoundCount = 0 ∧ room.listMatchUser.length = n ∧ (∀ user ∈ room.listMatchUser, user.isAndroid = true) ∧
      Reports room ∧ room.listUsedTable = [] := by
  induction n with
  | zero => exact ⟨[], _, .nil _, rfl, rfl, rfl, by simp [MatchRoom.fresh], by simp [Reports, MatchRoom.fresh], rfl⟩
  | succ n ih =>
    obtain ⟨events, room, run, status, round, length, robots, reports, tables⟩ := ih (Nat.lt_of_succ_lt few)
    have taken : step manyUsers room (.joinMatch (n + 1) true true 0 []) = some { room with
        listMatchUser := room.listMatchUser ++ [⟨room.next, n + 1, true, 0, true, 1000⟩], next := room.next + 1
        log := room.log ++ [.admitted ⟨room.next, n + 1, true, 0, true, 1000⟩] } := by
      have positive : ¬(n + 1 : ℤ) ≤ 0 := by omega
      have space : ¬65536 ≤ n := by omega
      have space' : ¬65536 ≤ n + 1 := by omega
      simp [step, status, MatchRoom.joinMatch, MatchRoom.quota, MatchRoom.passUserNum, manyUsers, round, length, positive, space, space']
    have flag : SetsFlag room (.joinMatch (n + 1) true true 0 []) := rfl
    refine ⟨_, _, run.snoc flag taken, status, round, by rw [List.length_append, length]; rfl, ?_, ?_, tables⟩
    · intro user here
      rcases List.mem_append.mp here with here | last
      · exact robots user here
      · rw [List.mem_singleton.mp last]
    · intro user here
      rcases List.mem_append.mp here with here | last
      · exact reports user here
      · rw [List.mem_singleton.mp last]
        constructor
        · dsimp only
          omega
        · dsimp only
          omega

/-- When one table takes everybody, nobody waits any more. -/
theorem allocateRoom_all {n : ℕ} (room : MatchRoom) (length : room.vecWaitUser.length = n)
    (tables : room.listUsedTable ⊆ [0]) (once : room.listUsedTable.Nodup) :
    (MatchRoom.allocateRoom info (List.replicate n (some (0, true))) room).vecWaitUser = [] ∧
      (MatchRoom.allocateRoom info (List.replicate n (some (0, true))) room).listUsedTable.erase 0 = [] := by
  have clear {tables : List ℕ} (sub : tables ⊆ [0]) (once : tables.Nodup) : tables.erase 0 = [] := by
    rw [List.eq_nil_iff_forall_not_mem]
    intro table here
    obtain ⟨other, there⟩ := (List.Nodup.mem_erase_iff once).mp here
    exact other (List.mem_singleton.mp (sub there))
  induction n generalizing room with
  | zero =>
    have none_ := List.length_eq_zero_iff.mp length
    have done : MatchRoom.allocateRoom info (List.replicate 0 (some (0, true))) room = room := by
      rw [MatchRoom.allocateRoom, none_]
      rfl
    rw [done]
    exact ⟨none_, clear tables once⟩
  | succ n ih =>
    obtain ⟨ref, last⟩ : ∃ ref, room.vecWaitUser.getLast? = some ref := by
      rw [← Option.isSome_iff_exists, List.getLast?_isSome]
      exact List.ne_nil_of_length_eq_add_one length
    rw [List.replicate_succ, MatchRoom.allocateRoom, last]
    have used : ((room.raiseScore info ref).getSuitTable 0).listUsedTable ⊆ [0] ∧
        ((room.raiseScore info ref).getSuitTable 0).listUsedTable.Nodup := by
      rw [MatchRoom.getSuitTable]
      split
      · exact ⟨tables, once⟩
      next fresh =>
        refine ⟨List.append_subset.mpr ⟨tables, List.Subset.refl _⟩, ?_⟩
        exact List.nodup_append.mpr ⟨once, List.nodup_singleton _, fun a here b there => by
          rintro rfl
          rw [List.mem_singleton.mp there] at here
          exact fresh here⟩
    have queue : ((room.raiseScore info ref).getSuitTable 0).vecWaitUser = room.vecWaitUser := by
      rw [MatchRoom.getSuitTable]
      split <;> rfl
    apply ih
    · change ((room.raiseScore info ref).getSuitTable 0).vecWaitUser.dropLast.length = n
      rw [queue, List.length_dropLast, length, Nat.add_sub_cancel]
    · exact used.1
    · exact used.2

theorem exists_seated : ∃ events room before users, Lib.Run (step manyUsers) SetsFlag (.fresh (fun _ => 0) 0) events room ∧
    room.status = .gaming ∧ room.curRoundCount = 0 ∧ room.vecWaitUser = [] ∧ room.listUsedTable.erase 0 = [] ∧
    Reports room ∧ room.listMatchUser.length = 2 ^ 16 ∧ room.log = before ++ [.started users] ∧ users.length = 2 ^ 16 := by
  obtain ⟨events, room, run, status, round, length, robots, reports, tables⟩ := exists_robots 65535 (by decide)
  obtain ⟨seats, all⟩ : ∃ seats : Seats, seats = List.replicate (2 ^ 16) (some (0, true)) := ⟨_, rfl⟩
  have none_ : room.listMatchUser.countP (!·.isAndroid) = 0 := by
    rw [List.countP_eq_zero]
    intro user here
    rw [robots user here]
    decide
  let player : UserInfo := ⟨room.next, 65536, false, 0, true, 1000⟩
  let admitted : MatchRoom := { room.writeUserScoreToDB 65536 (toInt64 (-10)) with
    listMatchUser := room.listMatchUser ++ [player], next := room.next + 1, log := room.log ++ [.admitted player] }
  have taken : step manyUsers room (.joinMatch 65536 false true 0 seats) = some (admitted.startMatch manyUsers seats) := by
    simp [step, status, MatchRoom.joinMatch, MatchRoom.quota, MatchRoom.passUserNum, manyUsers, round, length, none_,
      MatchRoom.getPlayerCount, MatchRoom.writeUserScoreToDB, admitted, player]
  have flag : SetsFlag room (.joinMatch 65536 false true 0 seats) := rfl
  have many : admitted.listMatchUser.length = 2 ^ 16 := by rw [List.length_append, length]; rfl
  have empty := @allocateRoom_all manyUsers (2 ^ 16) { admitted with
      status := .gaming
      winlostScore := MatchRoom.addFees manyUsers admitted.winlostScore admitted.listMatchUser
      vecWaitUser := admitted.listMatchUser.map (·.ref)
      curRoundFinishCount := 0
      log := admitted.log ++ [.started admitted.listMatchUser] } (by rw [List.length_map, many])
    (by rw [show admitted.listUsedTable = [] from tables]; exact List.nil_subset _)
    (by rw [show admitted.listUsedTable = [] from tables]; exact List.nodup_nil)
  rw [← all] at empty
  obtain ⟨users, waiting, tables', result, same⟩ := @MatchRoom.startMatch_frame manyUsers seats admitted
  refine ⟨_, _, admitted.log, admitted.listMatchUser, run.snoc flag taken, ?_, ?_, empty.1, empty.2, ?_, ?_, ?_, many⟩
  · rw [result]
  · rw [result]
    exact round
  · have before : Reports admitted := by
      intro user here
      rcases List.mem_append.mp here with here | last
      · exact reports user here
      · rw [List.mem_singleton.mp last]
        exact (by decide : (0 : ℤ) ≤ 65536 ∧ (65536 : ℤ) < 2 ^ 32)
    apply before.congr
    rw [result]
    exact MatchRoom.map_person_of_identity same
  · have lengths := congrArg List.length same
    rw [List.length_map, List.length_map, many] at lengths
    rw [result, lengths]
  · rw [result]

/-- The users with one id leave their tables, and are through with a round of one game. -/
theorem exists_out {id_ : ℤ} (range : 0 ≤ id_ ∧ id_ < 2 ^ 32) (playing : Playing manyUsers room)
    (quota : room.quota manyUsers = some 1) (empty : room.vecWaitUser = []) :
    ∃ room', step manyUsers room (.userOutTable id_) = some room' ∧ Playing manyUsers room' ∧ room'.vecWaitUser = [] ∧
      (∃ users count, room' = { room with listMatchUser := users, vecWaitUser := [], curRoundFinishCount := count } ∧
        users.map MatchRoom.person = room.listMatchUser.map MatchRoom.person) ∧
      ∀ (done : ℤ → Prop), (∀ user ∈ room.listMatchUser, done user.userId → Finished manyUsers room user) →
        ∀ user ∈ room'.listMatchUser, user.userId = id_ ∨ done user.userId → Finished manyUsers room' user := by
  have same : id_ % 2 ^ 32 = id_ := Int.emod_eq_of_lt range.1 range.2
  have place (user : UserInfo) (here : user ∈ room.listMatchUser) :
      user.waitStart = false ∧ user.curGameCount = 0 ∨ user.waitStart = true ∧ user.curGameCount = 1 := by
    obtain ⟨q, known, place⟩ := playing.place user here
    obtain rfl := Option.some.inj (quota.symm.trans known)
    rw [empty] at place
    cases place with
    | waits queued => exact absurd queued List.not_mem_nil
    | seated _ down few => exact .inl ⟨down, by omega⟩
    | finished _ up all => exact .inr ⟨up, by omega⟩
  have one : (manyUsers.upgradeGameNum[room.curRoundCount]?) = some 1 := quota
  by_cases none_ : room.listMatchUser.filter (MatchRoom.outOfTable id_) = []
  · have taken : step manyUsers room (.userOutTable id_) = some room := by
      rw [step, MatchRoom.userOutTable, same, none_]
    refine ⟨room, taken, playing, empty, ⟨room.listMatchUser, _, by rw [← empty], rfl⟩,
      fun done before user here either => ?_⟩
    rcases either with rfl | old
    · have stays := List.filter_eq_nil_iff.mp none_ user here
      rcases place user here with ⟨down, -⟩ | ⟨-, all⟩
      · exact absurd (decide_eq_true ⟨rfl, down⟩) stays
      · rw [Finished, quota, all]
        rfl
    · exact before user here old
  · obtain ⟨first, rest, some_⟩ := List.exists_cons_of_ne_nil none_
    have taken : step manyUsers room (.userOutTable id_) = some { room with
        listMatchUser := room.listMatchUser.map fun user =>
          if MatchRoom.outOfTable id_ user then MatchRoom.userOut user else user
        vecWaitUser := room.vecWaitUser ++ ((room.listMatchUser.filter (MatchRoom.outOfTable id_)).filter fun user =>
          (MatchRoom.userOut user).curGameCount < (1 : ℤ)).map (·.ref)
        curRoundFinishCount := room.curRoundFinishCount +
          (room.listMatchUser.filter (MatchRoom.outOfTable id_)).countP fun user =>
            (1 : ℤ) ≤ (MatchRoom.userOut user).curGameCount } := by
      rw [step, MatchRoom.userOutTable, same, some_, quota]
      rfl
    have back : (room.listMatchUser.filter (MatchRoom.outOfTable id_)).filter (fun user =>
        (MatchRoom.userOut user).curGameCount < (1 : ℤ)) = [] := by
      rw [List.filter_eq_nil_iff]
      intro user here
      obtain ⟨here, out⟩ := List.mem_filter.mp here
      rcases place user here with ⟨-, none_⟩ | ⟨up, -⟩
      · simp [MatchRoom.userOut, none_]
      · cases (of_decide_eq_true out).2.symm.trans up
    rw [back, empty] at taken
    refine ⟨_, taken, playing.userOutTable taken, rfl, ⟨_, _, rfl, ?_⟩, fun done before user' here either => ?_⟩
    · rw [List.map_map]
      apply List.map_congr_left
      intro user _
      dsimp only [Function.comp]
      split_ifs <;> rfl
    · obtain ⟨user, there, rfl⟩ := List.mem_map.mp here
      rw [Finished, MatchRoom.quota, one]
      split_ifs at either ⊢ with out
      · rcases place user there with ⟨-, none_⟩ | ⟨up, -⟩
        · rw [MatchRoom.userOut, none_]
          rfl
        · cases (of_decide_eq_true out).2.symm.trans up
      · rcases either with rfl | old
        · rcases place user there with ⟨down, -⟩ | ⟨-, all⟩
          · exact absurd (decide_eq_true ⟨rfl, down⟩) out
          · rw [all]
            rfl
        · have finished := before user there old
          rwa [Finished, quota] at finished

theorem exists_outs (ids : List ℤ) (range : ∀ id_ ∈ ids, 0 ≤ id_ ∧ id_ < 2 ^ 32) (playing : Playing manyUsers room)
    (quota : room.quota manyUsers = some 1) (empty : room.vecWaitUser = []) (done : ℤ → Prop)
    (before : ∀ user ∈ room.listMatchUser, done user.userId → Finished manyUsers room user) :
    ∃ events room', Lib.Run (step manyUsers) (fun _ _ => True) room events room' ∧ Playing manyUsers room' ∧
      (∃ users count, room' = { room with listMatchUser := users, vecWaitUser := [], curRoundFinishCount := count } ∧
        users.map MatchRoom.person = room.listMatchUser.map MatchRoom.person) ∧
      ∀ user ∈ room'.listMatchUser, user.userId ∈ ids ∨ done user.userId → Finished manyUsers room' user := by
  induction ids generalizing room done with
  | nil =>
    refine ⟨[], room, .nil _, playing, ⟨room.listMatchUser, _, by rw [← empty], rfl⟩, fun user here either => ?_⟩
    exact before user here (either.resolve_left List.not_mem_nil)
  | cons id_ ids ih =>
    obtain ⟨first, rest⟩ := List.forall_mem_cons.mp range
    obtain ⟨room₁, taken, playing₁, empty₁, ⟨users, count, eq, persons⟩, finished⟩ := exists_out first playing quota empty
    have quota₁ : room₁.quota manyUsers = some 1 := by rw [eq]; exact quota
    obtain ⟨events, room', run, playing', ⟨users', count', eq', persons'⟩, finished'⟩ :=
      ih rest playing₁ quota₁ empty₁ (fun i => i = id_ ∨ done i) (finished done before)
    refine ⟨_, room', .cons trivial taken run, playing', ⟨users', count', ?_, ?_⟩, fun user here either => ?_⟩
    · rw [eq', eq]
    · rw [persons', eq]
      exact persons
    · apply finished' user here
      rw [List.mem_cons] at either
      tauto

/-- A match of 65536 users is over with nobody ranked: their number is zero in sixteen bits. -/
theorem exists_unranked : ∃ events room before users, Lib.Run (step manyUsers) (fun _ _ => True) (.fresh (fun _ => 0) 0) events room ∧
    room.status = .matchEnd ∧ room.log = before ++ [.started users, .ended] ∧ users.length = 2 ^ 16 := by
  obtain ⟨events, room, before, users, run, gaming, round, empty, tables, reports, length, log, many⟩ :=
    exists_seated
  have positive : ∀ q ∈ manyUsers.upgradeGameNum, 1 ≤ q := by decide
  have playing := (sound_of_run positive run).playing gaming
  have quota : room.quota manyUsers = some 1 := by rw [MatchRoom.quota, round]; rfl
  have pass : room.passUserNum manyUsers = some 0 := by rw [MatchRoom.passUserNum, round]; rfl
  obtain ⟨events', room₁, run', playing₁, ⟨users₁, count, eq, persons⟩, finished⟩ :=
    exists_outs (room.listMatchUser.map (·.userId)) (fun id_ here => by
      obtain ⟨user, there, rfl⟩ := List.mem_map.mp here
      exact reports user there) playing quota empty (fun _ => False) (fun _ _ none_ => none_.elim)
  have through : room₁.curRoundFinishCount = room₁.listMatchUser.length := by
    apply playing₁.all_finished_iff.mpr
    intro user here
    apply finished user here
    have here' : user ∈ users₁ := by rwa [eq] at here
    obtain ⟨user', there, same⟩ := List.mem_map.mp (persons ▸ List.mem_map_of_mem (f := MatchRoom.person) here')
    rw [← (Prod.mk.inj (Prod.mk.inj same).2).1]
    exact .inl (List.mem_map_of_mem there)
  have length₁ : room₁.listMatchUser.length = 2 ^ 16 := by
    have lengths := congrArg List.length persons
    rw [List.length_map, List.length_map, length] at lengths
    rw [eq, lengths]
  -- the table is put back, and the check finds the round over
  let room₂ := room₁.tableFinish 0
  have tables₂ : room₂.listUsedTable = [] := by
    change room₁.listUsedTable.erase 0 = []
    rw [eq]
    exact tables
  have pass₂ : room₂.sortUser.passUserNum manyUsers = some 0 := by
    change room₁.passUserNum manyUsers = some 0
    rw [eq]
    exact pass
  have quota₂ : room₂.sortUser.quota manyUsers = some 1 := by
    change room₁.quota manyUsers = some 1
    rw [eq]
    exact quota
  have length₂ : room₂.sortUser.listMatchUser.length = 2 ^ 16 := by
    rw [(MatchRoom.sortUser_ranking room₂).1.length_eq]
    exact length₁
  have ranked : room₂.sortUser.updateRankInfo manyUsers = some () := by
    rw [MatchRoom.updateRankInfo, pass₂, quota₂]
    change (if _ then some () else some ()) = some ()
    rw [ite_self]
  have ended : room₂.endRound manyUsers = some room₂.sortUser.matchOver := by
    simp [MatchRoom.endRound, ranked, pass₂, length₂, MatchRoom.dismiss]
  have taken : step manyUsers room₂ (.allocateUser [] []) = some room₂.sortUser.matchOver := by
    have gaming₂ : room₂.status = .gaming := by
      change room₁.status = .gaming
      rw [eq]
      exact gaming
    have through₂ : room₂.curRoundFinishCount = room₂.listMatchUser.length := through
    rw [step, MatchRoom.allocateUser, if_neg (not_not.mpr gaming₂), if_neg (by omega), if_pos ⟨tables₂, through₂⟩, ended]
  have finish : step manyUsers room₁ (.tableFinish 0) = some room₂ := rfl
  have whole := (run.mono fun _ _ _ => trivial).append (run'.append (.cons trivial finish (.cons trivial taken (.nil _))))
  refine ⟨_, _, before, users, whole, rfl, ?_, many⟩
  change room₁.log ++ [.ended] = _
  rw [eq, log, List.append_assoc]
  rfl

/-- Without the bounds a match may end with nobody ranked. -/
theorem match_unranked : ¬∀ (info : MatchRoomInfo) (stored : ℤ → ℤ) (totalStock : ℤ) (events : List Event) (room : MatchRoom),
    Descending info → Lib.Run (step info) (fun _ _ => True) (.fresh stored totalStock) events room → Ranked info room := by
  intro all
  obtain ⟨events, room, before, users, run, concluded, log, many⟩ := exists_unranked
  have descending : Descending manyUsers := ⟨by decide, rfl⟩
  obtain ⟨before', users', finishes, log', number, -, standing⟩ := (all _ _ _ _ _ descending run).concluded concluded
  have same : before ++ [.started users] = before' ++ .started users' :: finishes.map Finish.deed := by
    rw [log, ← List.cons_append, ← List.append_assoc] at log'
    rw [List.append_cons] at log'
    exact List.append_cancel_right log'
  rcases List.eq_nil_or_concat finishes with rfl | ⟨others, last, rfl⟩
  · have none_ := standing.once.length_eq
    rw [List.map_nil, List.map_nil, List.append_nil, List.length_map, number] at none_
    cases none_
  · rw [List.concat_eq_append, List.map_append, List.map_singleton, ← List.cons_append, ← List.append_assoc] at same
    have ends := congrArg List.getLast? same
    rw [List.getLast?_concat, List.getLast?_concat, Option.some.injEq] at ends
    cases ends

end H5Server.MatchServer
