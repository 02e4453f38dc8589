import H5Server.MatchServer.MatchRoom
import Mathlib.Algebra.Order.Group.Int
import Mathlib.Data.List.Nodup
import Mathlib.Data.List.Perm.Basic

/-! # Who waits, plays and has played

While a match goes on, every user is waiting, seated, or through with the games of the round. A user's object is made
without a value for `waitStart`, so one who waits for his first seat may look seated.
-/

namespace H5Server.MatchServer

variable {info : MatchRoomInfo} {room room' : MatchRoom} {user : UserInfo} {q : ℤ} {waiting : List ℕ}

/-- The user has played the games of the round. -/
def Finished (info : MatchRoomInfo) (room : MatchRoom) (user : UserInfo) : Prop :=
  room.quota info = some (user.curGameCount : ℤ)

instance (info : MatchRoomInfo) (room : MatchRoom) (user : UserInfo) : Decidable (Finished info room user) :=
  inferInstanceAs (Decidable (_ = _))

def ExactlyOne (a b c : Prop) : Prop := a ∧ ¬b ∧ ¬c ∨ ¬a ∧ b ∧ ¬c ∨ ¬a ∧ ¬b ∧ c

/-- The round is over after the step. -/
def Ended (room room' : MatchRoom) : Prop := room'.curRoundCount ≠ room.curRoundCount ∨ room'.status = .matchEnd

/-- The books of a match that goes on. -/
structure Booked (info : MatchRoomInfo) (room : MatchRoom) : Prop where
  once : room.vecWaitUser.Nodup
  known : ∀ ref ∈ room.vecWaitUser, ∃ user ∈ room.listMatchUser, user.ref = ref
  place : ∀ user ∈ room.listMatchUser,
    ExactlyOne (user.ref ∈ room.vecWaitUser) (user.waitStart = false) (Finished info room user)
  count : room.curRoundFinishCount = room.listMatchUser.countP fun user => Finished info room user
  assertion : room.curRoundFinishCount ≤ room.listMatchUser.length
  concluded : ∀ event room', step info room event = some room' →
    (Ended room room' ↔
      event.IsTick ∧ room.listUsedTable = [] ∧ ∀ user ∈ room.listMatchUser, Finished info room user)

/-! ## The invariant -/

inductive Place (q : ℤ) (waiting : List ℕ) (user : UserInfo) : Prop
  | waits (queued : user.ref ∈ waiting) (up : user.waitStart = true) (few : (user.curGameCount : ℤ) < q)
  | seated (gone : user.ref ∉ waiting) (down : user.waitStart = false) (few : (user.curGameCount : ℤ) < q)
  | finished (gone : user.ref ∉ waiting) (up : user.waitStart = true) (all : (user.curGameCount : ℤ) = q)

structure Playing (info : MatchRoomInfo) (room : MatchRoom) : Prop where
  refs : (room.listMatchUser.map (·.ref)).Nodup
  once : room.vecWaitUser.Nodup
  known : room.vecWaitUser ⊆ room.listMatchUser.map (·.ref)
  place : ∀ user ∈ room.listMatchUser, ∃ q, room.quota info = some q ∧ Place q room.vecWaitUser user
  count : room.curRoundFinishCount = room.listMatchUser.countP fun user => Finished info room user

/-- What the books say of a user. -/
def entry (user : UserInfo) : ℕ × ℕ × Bool := (user.ref, user.curGameCount, user.waitStart)

theorem Place.congr {user' : UserInfo} {waiting' : List ℕ} (place : Place q waiting user) (same : entry user' = entry user)
    (queue : user.ref ∈ waiting' ↔ user.ref ∈ waiting) : Place q waiting' user' := by
  obtain ⟨ref, count, up_⟩ : user'.ref = user.ref ∧ user'.curGameCount = user.curGameCount ∧ user'.waitStart = user.waitStart := by
    simpa only [entry, Prod.mk.injEq] using same
  cases place with
  | waits queued up few => exact .waits (by rwa [ref, queue]) (by rwa [up_]) (by rwa [count])
  | seated gone down few => exact .seated (by rwa [ref, queue]) (by rwa [up_]) (by rwa [count])
  | finished gone up all => exact .finished (by rwa [ref, queue]) (by rwa [up_]) (by rwa [count])

theorem map_ref_eq (users : List UserInfo) : users.map (·.ref) = (users.map entry).map (·.1) := by
  rw [List.map_map]
  rfl

theorem countP_finished (users : List UserInfo) :
    (users.countP fun user => Finished info room user) =
      (users.map entry).countP fun e => decide (room.quota info = some (e.2.1 : ℤ)) := by
  rw [List.countP_map]
  rfl

/-- The order of the users and of those who wait does not matter, nor do the scores. -/
theorem Playing.congr (playing : Playing info room)
    (entries : (room'.listMatchUser.map entry).Perm (room.listMatchUser.map entry))
    (queue : room'.vecWaitUser.Perm room.vecWaitUser) (round : room'.curRoundCount = room.curRoundCount)
    (count : room'.curRoundFinishCount = room.curRoundFinishCount) : Playing info room' := by
  have quota : room'.quota info = room.quota info := by rw [MatchRoom.quota, MatchRoom.quota, round]
  have refs : (room'.listMatchUser.map (·.ref)).Perm (room.listMatchUser.map (·.ref)) := by
    rw [map_ref_eq, map_ref_eq]
    exact entries.map _
  refine ⟨refs.nodup_iff.mpr playing.refs, queue.nodup_iff.mpr playing.once, ?_, fun user' here => ?_, ?_⟩
  · exact fun ref queued => refs.mem_iff.mpr (playing.known (queue.mem_iff.mp queued))
  · obtain ⟨user, there, same⟩ := List.mem_map.mp (entries.mem_iff.mp (List.mem_map_of_mem here))
    obtain ⟨q, known, place⟩ := playing.place user there
    exact ⟨q, quota.trans known, place.congr same.symm queue.mem_iff⟩
  · rw [count, playing.count, countP_finished, countP_finished, quota]
    exact (entries.countP_eq _).symm

/-! ## Seats -/

theorem map_entry_modifyUser (room : MatchRoom) (ref : ℕ) {change : UserInfo → UserInfo}
    (same : ∀ user, entry (change user) = entry user) :
    (room.modifyUser ref change).listMatchUser.map entry = room.listMatchUser.map entry := by
  rw [MatchRoom.modifyUser, List.map_map]
  apply List.map_congr_left
  intro user _
  dsimp only [Function.comp]
  split_ifs
  · exact same user
  · rfl

theorem Playing.modifyUser (playing : Playing info room) (ref : ℕ) {change : UserInfo → UserInfo}
    (same : ∀ user, entry (change user) = entry user) : Playing info (room.modifyUser ref change) :=
  playing.congr (.of_eq (map_entry_modifyUser room ref same)) (.refl _) rfl rfl

theorem Playing.raiseScore (playing : Playing info room) (ref : ℕ) : Playing info (room.raiseScore info ref) := by
  apply playing.modifyUser
  intro user
  split_ifs <;> rfl

theorem Playing.getSuitTable (playing : Playing info room) (table : ℕ) : Playing info (room.getSuitTable table) := by
  rw [MatchRoom.getSuitTable]
  split_ifs
  · exact playing
  · exact playing.congr (.refl _) (.refl _) rfl rfl

/-- The last one who waits sits down. -/
theorem Playing.sit (playing : Playing info room) {ref : ℕ} (last : room.vecWaitUser.getLast? = some ref) :
    Playing info { room.modifyUser ref fun user => { user with waitStart := false } with
      vecWaitUser := room.vecWaitUser.dropLast } := by
  have split : room.vecWaitUser.dropLast ++ [ref] = room.vecWaitUser := List.dropLast_append_getLast? ref last
  have once := playing.once
  rw [← split, List.nodup_append] at once
  obtain ⟨front, -, apart⟩ := once
  have gone : ref ∉ room.vecWaitUser.dropLast := fun here => apart ref here ref (List.mem_singleton_self ref) rfl
  have refs : (room.modifyUser ref fun user => { user with waitStart := false }).listMatchUser.map (·.ref) =
      room.listMatchUser.map (·.ref) := by
    rw [MatchRoom.modifyUser, List.map_map]
    apply List.map_congr_left
    intro user _
    dsimp only [Function.comp]
    split_ifs <;> rfl
  refine ⟨by rw [refs]; exact playing.refs, front, ?_, fun user' here => ?_, ?_⟩
  · rw [refs]
    exact fun r queued => playing.known (List.dropLast_subset _ queued)
  · obtain ⟨user, there, rfl⟩ := List.mem_map.mp here
    obtain ⟨q, known, place⟩ := playing.place user there
    refine ⟨q, known, ?_⟩
    dsimp only
    split_ifs with it
    · have queued : user.ref ∈ room.vecWaitUser := by
        rw [it, ← split]
        exact List.mem_append_right _ (List.mem_singleton_self ref)
      cases place with
      | waits _ _ few => exact .seated (by rwa [it]) rfl few
      | seated gone' => exact absurd queued gone'
      | finished gone' => exact absurd queued gone'
    · apply place.congr rfl
      constructor
      · exact fun early => List.dropLast_subset _ early
      · intro queued
        rw [← split, List.mem_append, List.mem_singleton] at queued
        exact queued.resolve_right it
  · change room.curRoundFinishCount = _
    rw [playing.count, MatchRoom.modifyUser, List.countP_map]
    apply List.countP_congr
    intro user _
    dsimp only [Function.comp]
    split_ifs <;> exact Iff.rfl

theorem Playing.allocateRoom (seats : Seats) (playing : Playing info room) :
    Playing info (MatchRoom.allocateRoom info seats room) := by
  induction seats generalizing room with
  | nil =>
    rw [MatchRoom.allocateRoom]
    split
    · exact playing
    · exact playing.raiseScore _
  | cons seat seats ih =>
    rw [MatchRoom.allocateRoom]
    split
    · exact playing
    next ref last =>
      have raised := playing.raiseScore ref
      rcases seat with _ | ⟨table, sits⟩
      · exact raised
      · dsimp only
        have found := raised.getSuitTable table
        split
        · exact found
        · apply ih
          apply found.sit
          rw [MatchRoom.getSuitTable]
          split <;> exact last

/-! ## Games -/

theorem Playing.eq_of_ref (playing : Playing info room) {user other : UserInfo} (here : user ∈ room.listMatchUser)
    (there : other ∈ room.listMatchUser) (same : user.ref = other.ref) : user = other :=
  List.inj_on_of_nodup_map playing.refs here there same

theorem userOut_le {user : UserInfo} (few : (user.curGameCount : ℤ) < q) :
    ((MatchRoom.userOut user).curGameCount : ℤ) ≤ q := by
  have less : (user.curGameCount + 1) % 2 ^ 32 ≤ user.curGameCount + 1 := Nat.mod_le _ _
  change (((user.curGameCount + 1) % 2 ^ 32 : ℕ) : ℤ) ≤ q
  omega

theorem countP_add {users : List UserInfo} {all one other : UserInfo → Bool}
    (split : ∀ user ∈ users, (all user).toNat = (one user).toNat + (other user).toNat) :
    users.countP all = users.countP one + users.countP other := by
  induction users with
  | nil => rfl
  | cons user users ih =>
    obtain ⟨first, rest⟩ := List.forall_mem_cons.mp split
    have cons (p : UserInfo → Bool) : (user :: users).countP p = (p user).toNat + users.countP p := by
      rw [List.countP_cons, Nat.add_comm]
      cases p user <;> rfl
    rw [cons all, cons one, cons other, first, ih rest]
    omega

/-- A game more for everybody who leaves a table, who then waits again or is through with the round. -/
theorem Playing.userOutTable {userId : ℤ} (playing : Playing info room)
    (taken : room.userOutTable info userId = some room') : Playing info room' := by
  rw [MatchRoom.userOutTable] at taken
  generalize userId % 2 ^ 32 = id_ at taken
  split at taken
  · cases taken
    exact playing
  · obtain ⟨q, known, taken⟩ := Option.bind_eq_some_iff.mp taken
    obtain rfl := Option.some.inj taken
    clear taken
    have places (user : UserInfo) (here : user ∈ room.listMatchUser) : Place q room.vecWaitUser user := by
      obtain ⟨q', known', place⟩ := playing.place user here
      rwa [Option.some.inj (known.symm.trans known')]
    have seated (user : UserInfo) (here : user ∈ room.listMatchUser) (out : MatchRoom.outOfTable id_ user = true) :
        user.ref ∉ room.vecWaitUser ∧ (user.curGameCount : ℤ) < q := by
      obtain ⟨-, down⟩ := of_decide_eq_true out
      cases places user here with
      | waits _ up => cases down.symm.trans up
      | seated gone _ few => exact ⟨gone, few⟩
      | finished _ up => cases down.symm.trans up
    generalize joined : ((room.listMatchUser.filter (MatchRoom.outOfTable id_)).filter fun user =>
      (MatchRoom.userOut user).curGameCount < q).map (·.ref) = back
    have back_iff (user : UserInfo) (here : user ∈ room.listMatchUser) : user.ref ∈ back ↔
        MatchRoom.outOfTable id_ user = true ∧ ((MatchRoom.userOut user).curGameCount : ℤ) < q := by
      rw [← joined, List.mem_map]
      constructor
      · rintro ⟨other, there, same⟩
        obtain ⟨there, few⟩ := List.mem_filter.mp there
        obtain ⟨there, out⟩ := List.mem_filter.mp there
        obtain rfl := playing.eq_of_ref there here same
        exact ⟨out, of_decide_eq_true few⟩
      · rintro ⟨out, few⟩
        exact ⟨user, List.mem_filter.mpr ⟨List.mem_filter.mpr ⟨here, out⟩, decide_eq_true few⟩, rfl⟩
    have refs : (room.listMatchUser.map fun user =>
        if MatchRoom.outOfTable id_ user then MatchRoom.userOut user else user).map (·.ref) =
          room.listMatchUser.map (·.ref) := by
      rw [List.map_map]
      apply List.map_congr_left
      intro user _
      dsimp only [Function.comp]
      split_ifs <;> rfl
    have sub : back.Sublist (room.listMatchUser.map (·.ref)) := by
      rw [← joined]
      exact (List.filter_sublist.trans List.filter_sublist).map _
    refine ⟨by rw [refs]; exact playing.refs, ?_, ?_, fun user' here' => ⟨q, known, ?_⟩, ?_⟩
    · refine List.nodup_append.mpr ⟨playing.once, playing.refs.sublist sub, ?_⟩
      rintro ref queued _ returns rfl
      obtain ⟨user, here, rfl⟩ := List.mem_map.mp (sub.subset returns)
      exact (seated user here ((back_iff user here).mp returns).1).1 queued
    · rw [refs]
      exact List.append_subset.mpr ⟨playing.known, sub.subset⟩
    · obtain ⟨user, here, rfl⟩ := List.mem_map.mp here'
      split_ifs with out
      · obtain ⟨gone, few⟩ := seated user here out
        rcases (userOut_le few).lt_or_eq with less | all
        · exact .waits (List.mem_append_right _ ((back_iff user here).mpr ⟨out, less⟩)) rfl less
        · refine .finished ?_ rfl all
          intro queued
          rcases List.mem_append.mp queued with queued | returns
          · exact gone queued
          · exact ((back_iff user here).mp returns).2.ne all
      · apply (places user here).congr rfl
        rw [List.mem_append, or_iff_left fun returns => out ((back_iff user here).mp returns).1]
    · change room.curRoundFinishCount + _ = _
      rw [playing.count, List.countP_map, List.countP_filter]
      symm
      apply countP_add
      intro user here
      rw [MatchRoom.quota] at known
      simp only [Function.comp, Finished, MatchRoom.quota, known, Option.some.injEq]
      cases out : MatchRoom.outOfTable id_ user with
      | false => simp
      | true =>
        obtain ⟨-, few⟩ := seated user here out
        have most := userOut_le few
        have least : (q = ((MatchRoom.userOut user).curGameCount : ℤ)) ↔ q ≤ (MatchRoom.userOut user).curGameCount := by omega
        simp [few.ne', least]

/-! ## Rounds -/

theorem Playing.all_finished_iff (playing : Playing info room) :
    room.curRoundFinishCount = room.listMatchUser.length ↔ ∀ user ∈ room.listMatchUser, Finished info room user := by
  rw [playing.count, List.countP_eq_length]
  exact forall₂_congr fun user _ => decide_eq_true_iff

/-- Everybody waits for the first game of a round. -/
theorem playing_of_round {room : MatchRoom} (refs : (room.listMatchUser.map (·.ref)).Nodup)
    (queue : room.vecWaitUser = room.listMatchUser.map (·.ref)) (count : room.curRoundFinishCount = 0)
    (quota : room.listMatchUser ≠ [] → ∃ q, room.quota info = some q ∧ 1 ≤ q)
    (new : ∀ user ∈ room.listMatchUser, user.waitStart = true ∧ user.curGameCount = 0) : Playing info room := by
  have quota' (user : UserInfo) (here : user ∈ room.listMatchUser) : ∃ q, room.quota info = some q ∧ 1 ≤ q :=
    quota (List.ne_nil_of_mem here)
  refine ⟨refs, queue ▸ refs, by rw [queue]; exact List.Subset.refl _, fun user here => ?_, ?_⟩
  · obtain ⟨q, known, least⟩ := quota' user here
    obtain ⟨up, none_⟩ := new user here
    refine ⟨q, known, .waits ?_ up (by rw [none_]; exact least)⟩
    rw [queue]
    exact List.mem_map_of_mem here
  · rw [count, eq_comm, List.countP_eq_zero]
    intro user here all
    obtain ⟨q, known, least⟩ := quota' user here
    have same := known.symm.trans (of_decide_eq_true all)
    rw [(new user here).2, Option.some.injEq] at same
    omega

theorem nextRound_eq (taken : room.nextRound info = some room') :
    room' = { room with
      curRoundCount := (room.curRoundCount + 1) % 2 ^ 8
      listMatchUser := room.listMatchUser.map fun user => { user with curGameCount := 0 }
      curRoundFinishCount := 0
      vecWaitUser := room.listMatchUser.map (·.ref) } ∧
    (room'.listMatchUser ≠ [] → ∃ q, room'.quota info = some q) := by
  rw [MatchRoom.nextRound] at taken
  dsimp only at taken
  split at taken
  next none_ =>
    obtain rfl := Option.some.inj taken
    exact ⟨rfl, fun some_ => absurd none_ some_⟩
  · obtain ⟨q, known, taken⟩ := Option.bind_eq_some_iff.mp taken
    obtain ⟨-, -, taken⟩ := Option.bind_eq_some_iff.mp taken
    obtain rfl := Option.some.inj taken
    exact ⟨rfl, fun _ => ⟨q, known⟩⟩

variable (positive : ∀ q ∈ info.upgradeGameNum, 1 ≤ q)

include positive in
theorem positive_quota (known : room.quota info = some q) : 1 ≤ q := positive q (List.mem_of_getElem? known)

/-- What holds between the steps. New users have a set flag. -/
structure Sound (info : MatchRoomInfo) (room : MatchRoom) : Prop where
  refs : (room.listMatchUser.map (·.ref)).Nodup
  below : ∀ user ∈ room.listMatchUser, user.ref < room.next
  new : room.status ≠ .gaming → ∀ user ∈ room.listMatchUser, user.waitStart = true ∧ user.curGameCount = 0
  playing : room.status = .gaming → Playing info room

/-- The object of a user who is admitted holds a set flag. -/
def SetsFlag (_ : MatchRoom) : Event → Prop
  | .joinMatch _ _ waitStart _ _ => waitStart = true
  | _ => True

include positive in
theorem sound_endRound (sound : Sound info room) (gaming : room.status = .gaming)
    (concluded : room.curRoundFinishCount = room.listMatchUser.length) (taken : room.endRound info = some room') :
    Sound info room' := by
  have playing := sound.playing gaming
  obtain ⟨pass, stay, out, room₁, -, split, -, -, result, after⟩ := MatchRoom.endRound_cases taken
  have perm := (MatchRoom.sortUser_ranking room).1
  rw [split] at perm
  have sub : stay ⊆ room.listMatchUser := fun user here => perm.subset (List.mem_append_left _ here)
  have refs : (stay.map (·.ref)).Nodup := by
    have all := (perm.map (·.ref)).nodup_iff.mpr playing.refs
    rw [List.map_append] at all
    exact (List.nodup_append.mp all).1
  have up (user : UserInfo) (here : user ∈ stay) : user.waitStart = true := by
    obtain ⟨q, known, place⟩ := playing.place user (sub here)
    have all := playing.all_finished_iff.mp concluded user (sub here)
    rw [Finished, known, Option.some.injEq] at all
    cases place with
    | waits _ _ few => omega
    | seated _ _ few => omega
    | finished _ up => exact up
  split at after
  · subst after
    exact ⟨List.nodup_nil, by simp [MatchRoom.matchOver], by simp [MatchRoom.matchOver], by rintro ⟨⟩⟩
  · obtain ⟨eq, quota⟩ := nextRound_eq after
    have users : room'.listMatchUser = stay.map fun user => { user with curGameCount := 0 } := by rw [eq, result]
    have same : room'.listMatchUser.map (·.ref) = stay.map (·.ref) := by
      rw [users, List.map_map]
      rfl
    refine ⟨by rw [same]; exact refs, ?_, fun idle => absurd ?_ idle, fun _ => ?_⟩
    · intro user' here
      rw [users] at here
      obtain ⟨user, there, rfl⟩ := List.mem_map.mp here
      rw [eq, result]
      exact sound.below user (sub there)
    · rw [eq, result]
      exact gaming
    · apply playing_of_round
      · rw [same]
        exact refs
      · rw [same, eq, result]
      · rw [eq]
      · intro some_
        obtain ⟨q, known⟩ := quota some_
        exact ⟨q, known, positive_quota positive known⟩
      · intro user' here
        rw [users] at here
        obtain ⟨user, there, rfl⟩ := List.mem_map.mp here
        exact ⟨up user there, rfl⟩

theorem Sound.sublist {users : List UserInfo} {next : ℕ} (sound : Sound info room) (idle : room.status ≠ .gaming)
    (sub : users.Sublist room.listMatchUser) (later : room.next ≤ next) {room' : MatchRoom}
    (list : room'.listMatchUser = users) (idle' : room'.status ≠ .gaming) (count : room'.next = next) :
    Sound info room' := by
  refine ⟨?_, fun user here => ?_, fun _ user here => ?_, fun gaming => absurd gaming idle'⟩
  · rw [list]
    exact sound.refs.sublist (sub.map _)
  · rw [list] at here
    rw [count]
    exact (sound.below user (sub.subset here)).trans_le later
  · rw [list] at here
    exact sound.new idle user (sub.subset here)

include positive in
theorem sound_startMatch {seats : Seats} (sound : Sound info room) (idle : room.status ≠ .gaming)
    (quota : ∃ q, room.quota info = some q) : Sound info (room.startMatch info seats) := by
  obtain ⟨q, known⟩ := quota
  have playing : Playing info (room.startMatch info seats) := by
    apply Playing.allocateRoom
    exact playing_of_round sound.refs rfl rfl (fun _ => ⟨q, known, positive_quota positive known⟩) (sound.new idle)
  obtain ⟨users, waiting, tables, result, same⟩ := @MatchRoom.startMatch_frame info seats room
  refine ⟨playing.refs, fun user here => ?_, fun other => absurd ?_ other, fun _ => playing⟩
  · rw [result] at here ⊢
    obtain ⟨user', there, eq⟩ := List.mem_map.mp (same ▸ List.mem_map_of_mem (f := MatchRoom.identity) here)
    rw [← (Prod.mk.inj eq).1]
    exact sound.below user' there
  · rw [result]

include positive in
theorem sound_joinMatch {userId : ℤ} {isAndroid : Bool} {leftTime : ℤ} {seats : Seats} (sound : Sound info room)
    (idle : room.status ≠ .gaming) (taken : room.joinMatch info userId isAndroid true leftTime seats = some room') :
    Sound info room' := by
  rcases MatchRoom.joinMatch_cases taken with rfl | ⟨-, -, quota, charged, paid, user, made, room₁, admitted, after⟩
  · exact sound
  have status : room₁.status = room.status := by
    rw [admitted, paid]
    split <;> rfl
  have round : room₁.curRoundCount = room.curRoundCount := by
    rw [admitted, paid]
    split <;> rfl
  have sound₁ : Sound info room₁ := by
    refine ⟨?_, ?_, fun _ => ?_, fun gaming => absurd (status.symm.trans gaming) idle⟩
    all_goals rw [admitted, made]
    · rw [List.map_append]
      refine List.nodup_append.mpr ⟨sound.refs, List.nodup_singleton _, ?_⟩
      rintro _ here _ last rfl
      obtain ⟨user', there, same⟩ := List.mem_map.mp here
      have less := sound.below user' there
      rw [List.mem_singleton.mp last] at same
      exact less.ne same
    · intro user' here
      rcases List.mem_append.mp here with here | last
      · exact (sound.below user' here).trans (Nat.lt_succ_self _)
      · rw [List.mem_singleton.mp last]
        exact Nat.lt_succ_self _
    · intro user' here
      rcases List.mem_append.mp here with here | last
      · exact sound.new idle user' here
      · rw [List.mem_singleton.mp last]
        exact ⟨rfl, rfl⟩
  have idle₁ : room₁.status ≠ .gaming := by rwa [status]
  rcases after with rfl | ⟨-, rfl⟩ | ⟨-, rfl⟩
  · exact sound₁
  · exact sound₁.sublist idle₁ (List.take_sublist _ _) (Nat.le_refl _) rfl idle₁ rfl
  · refine sound_startMatch positive sound₁ idle₁ ?_
    rwa [MatchRoom.quota, round]

include positive in
theorem sound_step {event : Event} (sound : Sound info room) (flag : SetsFlag room event)
    (taken : step info room event = some room') : Sound info room' := by
  cases event with
  | joinMatch userId isAndroid waitStart leftTime seats =>
    rw [step] at taken
    split at taken
    · cases taken
    next idle =>
      obtain rfl : waitStart = true := flag
      have opened : Sound info { room with status := .waitStart } :=
        sound.sublist idle (.refl _) (Nat.le_refl _) rfl (by rintro ⟨⟩) rfl
      exact sound_joinMatch positive opened (by rintro ⟨⟩) taken
  | leftMatch userId =>
    obtain rfl := Option.some.inj taken
    rw [MatchRoom.leftMatch]
    split
    · exact sound
    next idle =>
      split
      · exact sound
      · exact sound.sublist idle List.eraseP_sublist (Nat.le_refl _) rfl idle rfl
  | userOutTable userId =>
    obtain ⟨users, waiting, count, result, same⟩ := MatchRoom.userOutTable_frame taken
    by_cases gaming : room.status = .gaming
    · have playing := (sound.playing gaming).userOutTable taken
      refine ⟨playing.refs, fun user here => ?_, fun idle => absurd ?_ idle, fun _ => playing⟩
      · rw [result] at here ⊢
        obtain ⟨user', there, eq⟩ := List.mem_map.mp (same ▸ List.mem_map_of_mem (f := MatchRoom.person) here)
        rw [← (Prod.mk.inj eq).1]
        exact sound.below user' there
      · rw [result]
        exact gaming
    · obtain rfl := MatchRoom.userOutTable_of_up (fun user here => (sound.new gaming user here).1) taken
      exact sound
  | tableFinish tableID =>
    obtain rfl := Option.some.inj taken
    exact ⟨sound.refs, sound.below, sound.new, fun gaming => (sound.playing gaming).congr (.refl _) (.refl _) rfl rfl⟩
  | allocateUser shuffled seats =>
    obtain ⟨gaming, -, ⟨-, concluded, ended⟩ | ⟨-, rfl | ⟨waiting, perm, rfl⟩⟩⟩ := MatchRoom.allocateUser_cases taken
    · exact sound_endRound positive sound gaming concluded ended
    · exact sound
    · have sorted := (MatchRoom.sortUser_ranking room).1
      have ranked : Playing info { room.sortUser with vecWaitUser := waiting } :=
        (sound.playing gaming).congr (sorted.map entry) perm rfl rfl
      have playing := ranked.allocateRoom seats
      obtain ⟨users, waiting', tables, result, same⟩ :=
        @MatchRoom.allocateRoom_frame info seats { room.sortUser with vecWaitUser := waiting }
      refine ⟨playing.refs, fun user here => ?_, fun idle => absurd ?_ idle, fun _ => playing⟩
      · rw [result] at here ⊢
        obtain ⟨user', there, eq⟩ := List.mem_map.mp (same ▸ List.mem_map_of_mem (f := MatchRoom.identity) here)
        rw [← (Prod.mk.inj eq).1]
        exact sound.below user' (sorted.subset there)
      · rw [result]
        exact gaming
  | setUserScore ref score =>
    obtain rfl := Option.some.inj taken
    have same : ∀ user, entry { user with userScore := score } = entry user := fun _ => rfl
    have entries := map_entry_modifyUser room ref same
    refine ⟨?_, fun user here => ?_, fun idle user here => ?_, fun gaming => (sound.playing gaming).modifyUser ref same⟩
    · rw [map_ref_eq, entries, ← map_ref_eq]
      exact sound.refs
    · obtain ⟨user', there, eq⟩ := List.mem_map.mp (entries ▸ List.mem_map_of_mem (f := entry) here)
      rw [← (Prod.mk.inj eq).1]
      exact sound.below user' there
    · obtain ⟨user', there, eq⟩ := List.mem_map.mp (entries ▸ List.mem_map_of_mem (f := entry) here)
      obtain ⟨-, count, up⟩ : user'.ref = user.ref ∧ user'.curGameCount = user.curGameCount ∧ user'.waitStart = user.waitStart := by
        simpa only [entry, Prod.mk.injEq] using eq
      rw [← count, ← up]
      exact sound.new idle user' there

/-! ## Runs -/

include positive in
theorem sound_of_run {stored : ℤ → ℤ} {totalStock : ℤ} {events : List Event}
    (run : Lib.Run (step info) SetsFlag (.fresh stored totalStock) events room) : Sound info room := by
  apply run.invariant fun _ _ _ sound flag taken => sound_step positive sound flag taken
  exact ⟨List.nodup_nil, by simp [MatchRoom.fresh], by simp [MatchRoom.fresh], by rintro ⟨⟩⟩

/-- A round ends with the check that finds everybody through with it and no table in use. -/
theorem Playing.ended_iff (playing : Playing info room) (gaming : room.status = .gaming) {event : Event}
    (taken : step info room event = some room') :
    Ended room room' ↔ event.IsTick ∧ room.listUsedTable = [] ∧ ∀ user ∈ room.listMatchUser, Finished info room user := by
  have goes (round : room'.curRoundCount = room.curRoundCount) (status : room'.status = .gaming) : ¬Ended room room' := by
    rintro (other | concluded)
    · exact other round
    · cases status.symm.trans concluded
  rw [← playing.all_finished_iff]
  cases event with
  | joinMatch =>
    rw [step, if_pos gaming] at taken
    cases taken
  | leftMatch userId =>
    obtain rfl := Option.some.inj taken
    rw [MatchRoom.leftMatch, if_pos gaming] at goes ⊢
    exact iff_of_false (goes rfl gaming) fun tick => tick.1
  | userOutTable userId =>
    obtain ⟨users, waiting, count, rfl, -⟩ := MatchRoom.userOutTable_frame taken
    exact iff_of_false (goes rfl gaming) fun tick => tick.1
  | tableFinish tableID =>
    obtain rfl := Option.some.inj taken
    exact iff_of_false (goes rfl gaming) fun tick => tick.1
  | setUserScore ref score =>
    obtain rfl := Option.some.inj taken
    exact iff_of_false (goes rfl gaming) fun tick => tick.1
  | allocateUser shuffled seats =>
    obtain ⟨-, -, ⟨tables, concluded, ended⟩ | ⟨going, rfl | ⟨waiting, perm, rfl⟩⟩⟩ := MatchRoom.allocateUser_cases taken
    · refine iff_of_true ?_ ⟨trivial, tables, concluded⟩
      obtain ⟨pass, stay, out, room₁, -, -, -, -, result, after⟩ := MatchRoom.endRound_cases ended
      split at after
      · rw [after]
        exact .inr rfl
      · obtain ⟨eq, -⟩ := nextRound_eq after
        rw [eq, result]
        refine .inl ?_
        change (room.curRoundCount + 1) % 2 ^ 8 ≠ room.curRoundCount
        omega
    · exact iff_of_false (goes rfl gaming) fun tick => going tick.2
    · obtain ⟨users, waiting', tables, result, -⟩ :=
        @MatchRoom.allocateRoom_frame info seats { room.sortUser with vecWaitUser := waiting }
      rw [result] at goes ⊢
      exact iff_of_false (goes rfl gaming) fun tick => going tick.2

/-- When every round has a game, and every user's flag is set from the first, the books are right whenever a match goes
on. -/
theorem booked_of_run {stored : ℤ → ℤ} {totalStock : ℤ} {events : List Event} (positive : ∀ q ∈ info.upgradeGameNum, 1 ≤ q)
    (run : Lib.Run (step info) SetsFlag (.fresh stored totalStock) events room) (gaming : room.status = .gaming) :
    Booked info room := by
  have playing := (sound_of_run positive run).playing gaming
  refine ⟨playing.once, fun ref queued => List.mem_map.mp (playing.known queued), fun user here => ?_, playing.count, ?_,
    fun event room' taken => playing.ended_iff gaming taken⟩
  · obtain ⟨q, known, place⟩ := playing.place user here
    rw [Finished, known, Option.some.injEq]
    cases place with
    | waits queued up few => exact .inl ⟨queued, by rw [up]; exact Bool.true_eq_false.mp, few.ne'⟩
    | seated gone down few => exact .inr (.inl ⟨gone, down, few.ne'⟩)
    | finished gone up all => exact .inr (.inr ⟨gone, by rw [up]; exact Bool.true_eq_false.mp, all.symm⟩)
  · rw [playing.count]
    exact List.countP_le_length

def nineUsers : MatchRoomInfo where
  initCoins := 1000
  maxPlayerNum := 9
  maxPlayerNum_lt := by decide
  joinNeedSore := 10
  fixedAllocate := true
  awards := [50]
  upgradeGameNum := [1]
  upGradeUserNum := [0]
  atLeastNeedScore := 0

/-- Eight robots and a player whose object holds `flag`. There is no table when the match begins. -/
def admissions (flag : Bool) : List Event :=
  (List.range 8).map (fun i => .joinMatch (i + 1) true true 0 []) ++ [.joinMatch 9 false flag 0 []]

theorem exists_started (flag : Bool) :
    ∃ room, Lib.replay (step nineUsers) (.fresh (fun _ => 0) 0) (admissions flag) = some room ∧ room.status = .gaming ∧
      room.vecWaitUser = List.range 9 ∧
      room.listMatchUser.map entry = (List.range 8).map (fun i => (i, 0, true)) ++ [(8, 0, flag)] := by
  have played : (Lib.replay (step nineUsers) (.fresh (fun _ => 0) 0) (admissions flag)).map (fun room =>
        (room.status, room.vecWaitUser, room.listMatchUser.map entry)) =
      some (.gaming, List.range 9, (List.range 8).map (fun i => (i, 0, true)) ++ [(8, 0, flag)]) := by
    cases flag <;> decide +kernel
  obtain ⟨room, done, state⟩ := Option.map_eq_some_iff.mp played
  obtain ⟨status, rest⟩ := Prod.mk.inj state
  exact ⟨room, done, status, Prod.mk.inj rest⟩

theorem booked_of_run_admissions :
    ∃ room, Lib.Run (step nineUsers) SetsFlag (.fresh (fun _ => 0) 0) (admissions true) room ∧ room.status = .gaming ∧
      Booked nineUsers room := by
  obtain ⟨room, done, gaming, -⟩ := exists_started true
  have flags : ∀ event ∈ admissions true, ∀ s, SetsFlag s event := by
    intro event present s
    rcases List.mem_append.mp present with robot | player
    · obtain ⟨i, -, rfl⟩ := List.mem_map.mp robot
      exact rfl
    · obtain rfl := List.mem_singleton.mp player
      exact rfl
  have run := Lib.run_of_replay_of flags done
  exact ⟨room, run, gaming, booked_of_run (by decide) run gaming⟩

/-- A user who waits for his first seat looks seated when his object happens to hold `false`. -/
theorem waiting_looks_seated :
    ¬∀ (info : MatchRoomInfo) (stored : ℤ → ℤ) (totalStock : ℤ) (events : List Event) (room : MatchRoom),
      (∀ q ∈ info.upgradeGameNum, 1 ≤ q) → Lib.Run (step info) (fun _ _ => True) (.fresh stored totalStock) events room →
        room.status = .gaming → Booked info room := by
  intro all
  obtain ⟨room, done, gaming, queue, entries⟩ := exists_started false
  have booked := all nineUsers _ _ _ room (by decide) (Lib.run_of_replay done) gaming
  have last : ((8, 0, false) : ℕ × ℕ × Bool) ∈ room.listMatchUser.map entry := by
    rw [entries]
    exact List.mem_append_right _ (List.mem_singleton_self _)
  obtain ⟨user, here, same⟩ := List.mem_map.mp last
  obtain ⟨ref, -, down⟩ : user.ref = 8 ∧ user.curGameCount = 0 ∧ user.waitStart = false := by
    simpa only [entry, Prod.mk.injEq] using same
  have queued : user.ref ∈ room.vecWaitUser := by
    rw [queue, ref]
    decide
  rcases booked.place user here with ⟨-, up, -⟩ | ⟨gone, -, -⟩ | ⟨gone, -, -⟩
  · exact up down
  · exact gone queued
  · exact gone queued

end H5Server.MatchServer
