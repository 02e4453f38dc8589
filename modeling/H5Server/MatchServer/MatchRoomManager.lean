import H5Server.MatchServer.Ranks

/-! # The rooms of a match server (`MatchRoomManager`)

A room is free or used. Users and robots go to the first used room that waits; only when none waits, the first free room is
used from then on, until its match is over. What a room adds to the users' scores and to the stock is counted for each room
on its own.
-/

namespace H5Server.MatchServer

structure MatchRoomManager where
  vecMatchRoom : List MatchRoom
  listFreeMatchRoom : List ℕ
  listUsedMatchRoom : List ℕ

/-- `matchId_` of a room. -/
def matchId (idx : ℕ) : ℕ := idx % 2 ^ 16

variable (info : MatchRoomInfo)

namespace MatchRoomManager

def initAllMatchRoom (roomCount : ℕ) : MatchRoomManager where
  vecMatchRoom := List.replicate roomCount (.fresh (fun _ => 0) 0)
  listFreeMatchRoom := List.range roomCount
  listUsedMatchRoom := []

variable (m : MatchRoomManager)

def setRoom (i : ℕ) (room : MatchRoom) : MatchRoomManager := { m with vecMatchRoom := m.vecMatchRoom.set i room }

/-- `CanJoinMatch` of a room. -/
def canJoinMatch (i : ℕ) : Bool := m.vecMatchRoom[i]?.any (·.status = .waitStart)

def findNormalSuitMatch : Option ℕ × MatchRoomManager :=
  match m.listUsedMatchRoom.find? m.canJoinMatch, m.listFreeMatchRoom with
  | some i, _ => (some i, m)
  | none, [] => (none, m)
  | none, i :: free =>
    (some i, { m with
      vecMatchRoom := m.vecMatchRoom.modify i fun room => { room with status := .waitStart }
      listFreeMatchRoom := free
      listUsedMatchRoom := m.listUsedMatchRoom ++ [i] })

def freeNormalMatch (id_ : ℕ) : MatchRoomManager :=
  match m.listUsedMatchRoom.find? (matchId · = id_) with
  | none => m
  | some i => { m with
      listFreeMatchRoom := m.listFreeMatchRoom ++ [i]
      listUsedMatchRoom := m.listUsedMatchRoom.eraseP (matchId · = id_) }

def joinRoom (i : ℕ) (userId : ℤ) (isAndroid waitStart : Bool) (leftTime : ℤ) (seats : Seats) :
    Option MatchRoomManager := do
  let room ← m.vecMatchRoom[i]?
  let room ← room.joinMatch info userId isAndroid waitStart leftTime seats
  some (m.setRoom i room)

/-- The part of `cmd_enter_match` that looks for a room. -/
def enterMatch (userId : ℤ) (waitStart : Bool) (leftTime : ℤ) (seats : Seats) : Option MatchRoomManager :=
  match m.findNormalSuitMatch with
  | (none, m) => some m
  | (some i, m) => m.joinRoom info i userId false waitStart leftTime seats

/-- Whether `OnTimerCheckUserIn` sends a robot to a room. -/
def needsRobot (bEnableAndroid : Bool) (i : ℕ) : Bool :=
  m.vecMatchRoom[i]?.any fun room =>
    room.status = .waitStart && bEnableAndroid && room.listMatchUser.length % 2 ^ 16 < info.maxPlayerNum

/-- `OnTimerCheckUserIn` with a free robot. -/
def onTimerCheckUserIn (bEnableAndroid : Bool) (userId : ℤ) (waitStart : Bool) (seats : Seats) : Option MatchRoomManager :=
  match m.listUsedMatchRoom.find? (m.needsRobot info bEnableAndroid) with
  | some i => m.joinRoom info i userId true waitStart 0 seats
  | none => some m.findNormalSuitMatch.2

/-- Something happens in a room; the room is free when its match is over. -/
def inRoom (i : ℕ) (event : Event) : Option MatchRoomManager := do
  let room ← m.vecMatchRoom[i]?
  let room' ← step info room event
  let m := m.setRoom i room'
  some (if room.status = .gaming ∧ room'.status = .matchEnd then m.freeNormalMatch (matchId i) else m)

end MatchRoomManager

inductive ManagerEvent
  | start
  | enterMatch (userId : ℤ) (waitStart : Bool) (leftTime : ℤ) (seats : Seats)
  | checkUserIn (bEnableAndroid : Bool) (userId : ℤ) (waitStart : Bool) (seats : Seats)
  | inRoom (i : ℕ) (event : Event)

def Event.IsJoin : Event → Bool
  | .joinMatch .. => true
  | _ => false

/-- Nobody joins but through the manager. -/
def managerStep (m : MatchRoomManager) : ManagerEvent → Option MatchRoomManager
  | .start => some m.findNormalSuitMatch.2
  | .enterMatch userId waitStart leftTime seats => m.enterMatch info userId waitStart leftTime seats
  | .checkUserIn bEnableAndroid userId waitStart seats => m.onTimerCheckUserIn info bEnableAndroid userId waitStart seats
  | .inRoom i event => if event.IsJoin then none else m.inRoom info i event

/-! ## What holds of the rooms -/

variable {info} {room room' : MatchRoom} {m m' : MatchRoomManager}

/-- The room came about by its own steps alone. -/
def OnItsOwn (info : MatchRoomInfo) (room : MatchRoom) : Prop :=
  ∃ events, Lib.Run (step info) (fun _ _ => True) (.fresh (fun _ => 0) 0) events room

inductive Kept (m : MatchRoomManager) (i : ℕ) (room : MatchRoom) : Prop
  | free (listed : i ∈ m.listFreeMatchRoom) (idle : room.status ≠ .gaming) (empty : room.listMatchUser = [])
  | used (listed : i ∈ m.listUsedMatchRoom) (status : room.status ≠ .matchEnd)

/-- Every room is on one of the lists, once. A free room is empty, and of the used ones at most one waits. -/
structure Managed (info : MatchRoomInfo) (roomCount : ℕ) (m : MatchRoomManager) : Prop where
  rooms : m.vecMatchRoom.length = roomCount
  lists : (m.listFreeMatchRoom ++ m.listUsedMatchRoom).Perm (List.range roomCount)
  kept : ∀ (i : ℕ) (room : MatchRoom), m.vecMatchRoom[i]? = some room → Kept m i room
  waiting : ∀ (i j : ℕ) (room room' : MatchRoom), m.vecMatchRoom[i]? = some room → m.vecMatchRoom[j]? = some room' →
    i ∈ m.listUsedMatchRoom → j ∈ m.listUsedMatchRoom → room.status = .waitStart → room'.status = .waitStart → i = j
  onItsOwn : ∀ (i : ℕ) (room : MatchRoom), m.vecMatchRoom[i]? = some room → OnItsOwn info room

/-! ## Steps of a room -/

theorem OnItsOwn.step {event : Event} (own : OnItsOwn info room) (taken : step info room event = some room') :
    OnItsOwn info room' := by
  obtain ⟨events, run⟩ := own
  exact ⟨_, run.snoc trivial taken⟩

theorem OnItsOwn.opened (own : OnItsOwn info room) (idle : room.status ≠ .gaming) :
    OnItsOwn info { room with status := .waitStart } := by
  have taken : MatchServer.step info room (.joinMatch 0 true true 0 []) = some { room with status := .waitStart } := by
    rw [MatchServer.step, if_neg idle, MatchRoom.joinMatch, if_pos le_rfl]
  exact own.step taken

theorem OnItsOwn.joinMatch {userId leftTime : ℤ} {isAndroid waitStart : Bool} {seats : Seats} (own : OnItsOwn info room)
    (waits : room.status = .waitStart) (taken : room.joinMatch info userId isAndroid waitStart leftTime seats = some room') :
    OnItsOwn info room' := by
  refine @OnItsOwn.step info room room' (.joinMatch userId isAndroid waitStart leftTime seats) own ?_
  have idle : room.status ≠ .gaming := by rw [waits]; rintro ⟨⟩
  have same : { room with status := .waitStart } = room := by rw [← waits]
  rw [MatchServer.step, if_neg idle, same, taken]

/-- Unless its match ends, a room keeps its status. -/
theorem status_of_step {event : Event} (other : event.IsJoin = false) (taken : step info room event = some room') :
    room'.status = room.status ∨ room.status = .gaming ∧ room'.status = .matchEnd ∧ room'.listMatchUser = [] := by
  cases event with
  | joinMatch => cases other
  | leftMatch userId =>
    obtain rfl := Option.some.inj taken
    rw [MatchRoom.leftMatch]
    split
    · exact .inl rfl
    · split <;> exact .inl rfl
  | userOutTable userId =>
    obtain ⟨users, waiting, count, rfl, -⟩ := MatchRoom.userOutTable_frame taken
    exact .inl rfl
  | tableFinish tableID =>
    obtain rfl := Option.some.inj taken
    exact .inl rfl
  | allocateUser shuffled seats =>
    obtain ⟨gaming, -, ⟨-, -, ended⟩ | ⟨-, rfl | ⟨waiting, -, rfl⟩⟩⟩ := MatchRoom.allocateUser_cases taken
    · obtain ⟨pass, stay, out, room₁, -, -, -, -, result, after⟩ := MatchRoom.endRound_cases ended
      split at after
      · subst after
        exact .inr ⟨gaming, rfl, rfl⟩
      · obtain ⟨eq, -⟩ := nextRound_eq after
        rw [eq, result]
        exact .inl rfl
    · exact .inl rfl
    · obtain ⟨users, waiting', tables, result, -⟩ :=
        @MatchRoom.allocateRoom_frame info seats { room.sortUser with vecWaitUser := waiting }
      rw [result]
      exact .inl rfl
  | setUserScore ref score =>
    obtain rfl := Option.some.inj taken
    exact .inl rfl

/-- Nobody comes back to a room that is empty. -/
theorem empty_of_step {event : Event} (other : event.IsJoin = false) (taken : step info room event = some room')
    (empty : room.listMatchUser = []) (idle : room.status ≠ .gaming) : room'.listMatchUser = [] := by
  cases outcome_of_step taken with
  | quiet same status =>
    have persons := same.persons
    rw [empty, List.map_nil, List.perm_nil, List.map_eq_nil_iff] at persons
    exact persons
  | refused idle eq => rw [eq, empty]
  | admitted idle message =>
    subst message
    cases other
  | withdrew idle message found eq =>
    rw [empty] at found
    cases found
  | ended gaming => exact absurd gaming idle

theorem status_of_joinMatch {userId leftTime : ℤ} {isAndroid waitStart : Bool} {seats : Seats}
    (taken : room.joinMatch info userId isAndroid waitStart leftTime seats = some room') (waits : room.status = .waitStart) :
    room'.status ≠ .matchEnd := by
  rcases MatchRoom.joinMatch_cases taken with rfl | ⟨-, -, -, charged, paid, user, -, room₁, admitted, after⟩
  · rw [waits]
    rintro ⟨⟩
  · have status : room₁.status = .waitStart := by
      rw [admitted, paid, ← waits]
      split <;> rfl
    rcases after with rfl | ⟨-, rfl⟩ | ⟨-, rfl⟩
    · rw [status]
      rintro ⟨⟩
    · change room₁.status ≠ .matchEnd
      rw [status]
      rintro ⟨⟩
    · obtain ⟨users, waiting, tables, result, -⟩ := @MatchRoom.startMatch_frame info seats room₁
      rw [result]
      rintro ⟨⟩

/-! ## Steps of the manager -/

variable {roomCount : ℕ}

theorem getElem?_setRoom {i j : ℕ} {new : MatchRoom} (found : (m.setRoom i new).vecMatchRoom[j]? = some room') :
    j = i ∧ room' = new ∨ j ≠ i ∧ m.vecMatchRoom[j]? = some room' := by
  rw [MatchRoomManager.setRoom, List.getElem?_set] at found
  split at found
  next same =>
    split at found
    · exact .inl ⟨same.symm, (Option.some.inj found).symm⟩
    · cases found
  next other => exact .inr ⟨Ne.symm other, found⟩

theorem Managed.disjoint (managed : Managed info roomCount m) :
    m.listFreeMatchRoom.Nodup ∧ m.listUsedMatchRoom.Nodup ∧ ∀ i ∈ m.listFreeMatchRoom, i ∉ m.listUsedMatchRoom := by
  have nodup := managed.lists.nodup_iff.mpr List.nodup_range
  obtain ⟨free, used, apart⟩ := List.nodup_append.mp nodup
  exact ⟨free, used, fun i here there => apart i here i there rfl⟩

theorem canJoinMatch_iff {i : ℕ} :
    m.canJoinMatch i = true ↔ ∃ room, m.vecMatchRoom[i]? = some room ∧ room.status = .waitStart := by
  rw [MatchRoomManager.canJoinMatch, Option.any_eq_true]
  simp only [decide_eq_true_eq]

/-- A used room goes on. -/
theorem Managed.setUsed {i : ℕ} (managed : Managed info roomCount m) (here : m.vecMatchRoom[i]? = some room)
    (used : i ∈ m.listUsedMatchRoom) (own : OnItsOwn info room') (status : room'.status ≠ .matchEnd)
    (waits : room'.status = .waitStart → room.status = .waitStart) : Managed info roomCount (m.setRoom i room') where
  rooms := (List.length_set ..).trans managed.rooms
  lists := managed.lists
  kept j new found := by
    rcases getElem?_setRoom found with ⟨rfl, rfl⟩ | ⟨-, found⟩
    · exact .used used status
    · cases managed.kept j new found with
      | free listed idle empty => exact .free listed idle empty
      | used listed status => exact .used listed status
  waiting j k first second found found' listed listed' opened opened' := by
    rcases getElem?_setRoom found with ⟨rfl, rfl⟩ | ⟨-, one⟩ <;>
      rcases getElem?_setRoom found' with ⟨rfl, rfl⟩ | ⟨-, two⟩
    · rfl
    · exact managed.waiting _ _ _ _ here two listed listed' (waits opened) opened'
    · exact managed.waiting _ _ _ _ one here listed listed' opened (waits opened')
    · exact managed.waiting _ _ _ _ one two listed listed' opened opened'
  onItsOwn j new found := by
    rcases getElem?_setRoom found with ⟨rfl, rfl⟩ | ⟨-, found⟩
    · exact own
    · exact managed.onItsOwn j new found

/-- A free room stays as empty as it was. -/
theorem Managed.setFree {i : ℕ} (managed : Managed info roomCount m) (free : i ∈ m.listFreeMatchRoom)
    (own : OnItsOwn info room') (idle : room'.status ≠ .gaming) (empty : room'.listMatchUser = []) :
    Managed info roomCount (m.setRoom i room') where
  rooms := (List.length_set ..).trans managed.rooms
  lists := managed.lists
  kept j new found := by
    rcases getElem?_setRoom found with ⟨rfl, rfl⟩ | ⟨-, found⟩
    · exact .free free idle empty
    · cases managed.kept j new found with
      | free listed idle empty => exact .free listed idle empty
      | used listed status => exact .used listed status
  waiting j k first second found found' listed listed' opened opened' := by
    rcases getElem?_setRoom found with ⟨rfl, rfl⟩ | ⟨-, found⟩
    · exact absurd listed (managed.disjoint.2.2 j free)
    · rcases getElem?_setRoom found' with ⟨rfl, rfl⟩ | ⟨-, found'⟩
      · exact absurd listed' (managed.disjoint.2.2 k free)
      · exact managed.waiting _ _ _ _ found found' listed listed' opened opened'
  onItsOwn j new found := by
    rcases getElem?_setRoom found with ⟨rfl, rfl⟩ | ⟨-, found⟩
    · exact own
    · exact managed.onItsOwn j new found

/-- The match of a used room is over. -/
theorem Managed.setOver {i : ℕ} (few : roomCount ≤ 2 ^ 16) (managed : Managed info roomCount m)
    (used : i ∈ m.listUsedMatchRoom) (own : OnItsOwn info room') (status : room'.status = .matchEnd)
    (empty : room'.listMatchUser = []) : Managed info roomCount ((m.setRoom i room').freeNormalMatch (matchId i)) := by
  obtain ⟨distinct, distinct', apart⟩ := managed.disjoint
  have small (j : ℕ) (listed : j ∈ m.listUsedMatchRoom) : matchId j = j := by
    have inside := List.mem_range.mp (managed.lists.subset (List.mem_append_right _ listed))
    exact Nat.mod_eq_of_lt (inside.trans_le few)
  obtain ⟨before, after, split⟩ := List.append_of_mem used
  have others : ∀ j ∈ before, ¬decide (matchId j = matchId i) = true := by
    intro j listed same
    rw [split] at distinct'
    obtain rfl : j = i := by
      rw [← small j (by rw [split]; exact List.mem_append_left _ listed), of_decide_eq_true same, small i used]
    exact (List.nodup_append.mp distinct').2.2 j listed j List.mem_cons_self rfl
  have found : (m.setRoom i room').listUsedMatchRoom.find? (matchId · = matchId i) = some i := by
    change m.listUsedMatchRoom.find? _ = _
    rw [split, List.find?_append, List.find?_eq_none.mpr others, Option.none_or,
      List.find?_cons_of_pos (p := (matchId · = matchId i)) (decide_eq_true rfl)]
  have erased : (m.setRoom i room').listUsedMatchRoom.eraseP (matchId · = matchId i) = before ++ after := by
    change m.listUsedMatchRoom.eraseP _ = _
    rw [split, List.eraseP_append_right _ others, List.eraseP_cons_of_pos (p := (matchId · = matchId i)) (decide_eq_true rfl)]
  rw [MatchRoomManager.freeNormalMatch, found]
  dsimp only
  rw [erased]
  have stays {j : ℕ} (other : j ≠ i) (listed : j ∈ m.listUsedMatchRoom) : j ∈ before ++ after := by
    rw [split] at listed
    rcases List.mem_append.mp listed with early | late
    · exact List.mem_append_left _ early
    · exact List.mem_append_right _ ((List.mem_cons.mp late).resolve_left other)
  have was {j : ℕ} (listed : j ∈ before ++ after) : j ∈ m.listUsedMatchRoom := by
    rw [split]
    exact (List.Sublist.append_left (List.sublist_cons_self i after) before).subset listed
  refine ⟨(List.length_set ..).trans managed.rooms, ?_, fun j new found => ?_, fun j k first second found found' => ?_,
    fun j new found => ?_⟩
  · refine List.Perm.trans ?_ managed.lists
    rw [split]
    change (m.listFreeMatchRoom ++ [i] ++ (before ++ after)).Perm _
    rw [List.append_assoc, List.singleton_append]
    exact List.Perm.append_left _ List.perm_middle.symm
  · rcases getElem?_setRoom found with ⟨rfl, rfl⟩ | ⟨other, found⟩
    · exact .free (List.mem_append_right _ (List.mem_singleton_self _)) (by rw [status]; rintro ⟨⟩) empty
    · cases managed.kept j new found with
      | free listed idle empty => exact .free (List.mem_append_left _ listed) idle empty
      | used listed status => exact .used (stays other listed) status
  · intro listed listed' opened opened'
    rcases getElem?_setRoom found with ⟨rfl, rfl⟩ | ⟨-, found⟩
    · cases status.symm.trans opened
    · rcases getElem?_setRoom found' with ⟨rfl, rfl⟩ | ⟨-, found'⟩
      · cases status.symm.trans opened'
      · exact managed.waiting _ _ _ _ found found' (was listed) (was listed') opened opened'
  · rcases getElem?_setRoom found with ⟨rfl, rfl⟩ | ⟨-, found⟩
    · exact own
    · exact managed.onItsOwn j new found

/-- The room that is found waits. -/
theorem Managed.find (managed : Managed info roomCount m) :
    Managed info roomCount m.findNormalSuitMatch.2 ∧ ∀ i, m.findNormalSuitMatch.1 = some i →
      i ∈ m.findNormalSuitMatch.2.listUsedMatchRoom ∧ m.findNormalSuitMatch.2.canJoinMatch i = true := by
  rw [MatchRoomManager.findNormalSuitMatch]
  split
  next i found =>
    refine ⟨managed, ?_⟩
    rintro _ ⟨rfl⟩
    exact ⟨List.mem_of_find?_eq_some found, List.find?_some found⟩
  · exact ⟨managed, by rintro _ ⟨⟩⟩
  next i free nobody list =>
    have inside : i < m.vecMatchRoom.length := by
      rw [managed.rooms]
      apply List.mem_range.mp
      apply managed.lists.subset
      rw [list]
      exact List.mem_append_left _ List.mem_cons_self
    obtain ⟨room, here⟩ : ∃ room, m.vecMatchRoom[i]? = some room := ⟨_, List.getElem?_eq_getElem inside⟩
    have unused : i ∉ m.listUsedMatchRoom := managed.disjoint.2.2 i (by rw [list]; exact List.mem_cons_self)
    have idle : room.status ≠ .gaming := by
      cases managed.kept i room here with
      | free listed idle empty => exact idle
      | used listed status => exact absurd listed unused
    have changed {j : ℕ} {new : MatchRoom}
        (found : (m.vecMatchRoom.modify i fun room => { room with status := .waitStart })[j]? = some new) :
        j = i ∧ new = { room with status := .waitStart } ∨ j ≠ i ∧ m.vecMatchRoom[j]? = some new := by
      rw [List.getElem?_modify] at found
      split at found
      next same =>
        subst same
        rw [here] at found
        exact .inl ⟨rfl, (Option.some.inj found).symm⟩
      next other =>
        refine .inr ⟨Ne.symm other, ?_⟩
        rwa [id_map'] at found
    -- a used room that waits would have been found
    have busy {j : ℕ} {other : MatchRoom} (listed : j ∈ m.listUsedMatchRoom) (there : m.vecMatchRoom[j]? = some other) :
        other.status ≠ .waitStart := fun waits =>
      List.find?_eq_none.mp nobody j listed (canJoinMatch_iff.mpr ⟨other, there, waits⟩)
    refine ⟨⟨(List.length_modify ..).trans managed.rooms, ?_, fun j new found => ?_, fun j k first second found found' => ?_,
      fun j new found => ?_⟩, ?_⟩
    · refine List.Perm.trans ?_ managed.lists
      rw [list, ← List.append_assoc, List.cons_append]
      exact List.perm_append_singleton i _
    · rcases changed found with ⟨rfl, rfl⟩ | ⟨other, found⟩
      · exact .used (List.mem_append_right _ (List.mem_singleton_self _)) (by rintro ⟨⟩)
      · cases managed.kept j new found with
        | free listed idle empty =>
          rw [list] at listed
          exact .free ((List.mem_cons.mp listed).resolve_left other) idle empty
        | used listed status => exact .used (List.mem_append_left _ listed) status
    · intro listed listed' opened opened'
      have new_ {j : ℕ} {first : MatchRoom} (listed : j ∈ m.listUsedMatchRoom ++ [i]) (opened : first.status = .waitStart)
          (found : (m.vecMatchRoom.modify i fun room => { room with status := .waitStart })[j]? = some first) : j = i := by
        rcases changed found with ⟨same, -⟩ | ⟨other, there⟩
        · exact same
        · rcases List.mem_append.mp listed with old | last
          · exact absurd opened (busy old there)
          · exact List.mem_singleton.mp last
      rw [new_ listed opened found, new_ listed' opened' found']
    · rcases changed found with ⟨rfl, rfl⟩ | ⟨-, found⟩
      · exact (managed.onItsOwn j room here).opened idle
      · exact managed.onItsOwn j new found
    · rintro _ ⟨rfl⟩
      refine ⟨List.mem_append_right _ (List.mem_singleton_self _), canJoinMatch_iff.mpr ⟨{ room with status := .waitStart }, ?_, rfl⟩⟩
      dsimp only
      rw [List.getElem?_modify_eq, here]
      rfl

theorem Managed.join {i : ℕ} {userId leftTime : ℤ} {isAndroid waitStart : Bool} {seats : Seats}
    (managed : Managed info roomCount m) (used : i ∈ m.listUsedMatchRoom) (waits : m.canJoinMatch i = true)
    (taken : m.joinRoom info i userId isAndroid waitStart leftTime seats = some m') : Managed info roomCount m' := by
  obtain ⟨room, here, status⟩ := canJoinMatch_iff.mp waits
  obtain ⟨_, there, taken⟩ := Option.bind_eq_some_iff.mp taken
  obtain rfl := Option.some.inj (here.symm.trans there)
  obtain ⟨room', joined, taken⟩ := Option.bind_eq_some_iff.mp taken
  obtain rfl := Option.some.inj taken
  exact managed.setUsed here used ((managed.onItsOwn i room here).joinMatch status joined)
    (status_of_joinMatch joined status) fun _ => status

theorem managed_step {event : ManagerEvent} (few : roomCount ≤ 2 ^ 16) (managed : Managed info roomCount m)
    (taken : managerStep info m event = some m') : Managed info roomCount m' := by
  cases event with
  | start =>
    obtain rfl := Option.some.inj taken
    exact managed.find.1
  | enterMatch userId waitStart leftTime seats =>
    obtain ⟨kept, waits⟩ := managed.find
    rw [managerStep, MatchRoomManager.enterMatch] at taken
    split at taken
    next m₁ found =>
      obtain rfl := Option.some.inj taken
      rwa [found] at kept
    next i m₁ found =>
      rw [found] at kept waits
      obtain ⟨used, waiting⟩ := waits i rfl
      exact kept.join used waiting taken
  | checkUserIn bEnableAndroid userId waitStart seats =>
    rw [managerStep, MatchRoomManager.onTimerCheckUserIn] at taken
    split at taken
    next i found =>
      have needs := List.find?_some found
      rw [MatchRoomManager.needsRobot, Option.any_eq_true] at needs
      obtain ⟨room, here, needs⟩ := needs
      simp only [Bool.and_eq_true, decide_eq_true_eq] at needs
      exact managed.join (List.mem_of_find?_eq_some found) (canJoinMatch_iff.mpr ⟨room, here, needs.1.1⟩) taken
    · obtain rfl := Option.some.inj taken
      exact managed.find.1
  | inRoom i event =>
    rw [managerStep] at taken
    split at taken
    · cases taken
    next other =>
      obtain ⟨room, here, taken⟩ := Option.bind_eq_some_iff.mp taken
      obtain ⟨room', moved, taken⟩ := Option.bind_eq_some_iff.mp taken
      obtain rfl := Option.some.inj taken
      have other := Bool.eq_false_iff.mpr other
      have own := (managed.onItsOwn i room here).step moved
      rcases status_of_step other moved with same | ⟨gaming, concluded, empty⟩
      · rw [if_neg (fun both => by cases (same.trans both.1).symm.trans both.2)]
        cases managed.kept i room here with
        | free listed idle empty =>
          exact managed.setFree listed own (by rw [same]; exact idle) (empty_of_step other moved empty idle)
        | used listed status => exact managed.setUsed here listed own (by rw [same]; exact status) same.symm.trans
      · rw [if_pos ⟨gaming, concluded⟩]
        cases managed.kept i room here with
        | free listed idle empty => exact absurd gaming idle
        | used listed status => exact managed.setOver few listed own concluded empty

/-- The rooms play their matches side by side, each as if it were alone. -/
theorem managed_of_run {events : List ManagerEvent} (few : roomCount ≤ 2 ^ 16)
    (run : Lib.Run (managerStep info) (fun _ _ => True) (.initAllMatchRoom roomCount) events m) :
    Managed info roomCount m := by
  apply run.invariant (fun _ _ _ managed _ taken => managed_step few managed taken)
  have fresh {i : ℕ} {room : MatchRoom}
      (found : (List.replicate roomCount (MatchRoom.fresh (fun _ => 0) 0))[i]? = some room) :
      i < roomCount ∧ room = .fresh (fun _ => 0) 0 := by
    obtain ⟨inside, rfl⟩ := List.getElem?_eq_some_iff.mp found
    rw [List.length_replicate] at inside
    exact ⟨inside, List.getElem_replicate ..⟩
  refine ⟨List.length_replicate, ?_, fun i room found => ?_, fun _ _ _ _ _ _ listed => absurd listed List.not_mem_nil,
    fun i room found => ?_⟩
  · rw [MatchRoomManager.initAllMatchRoom, List.append_nil]
  · obtain ⟨inside, rfl⟩ := fresh found
    exact .free (List.mem_range.mpr inside) (by rintro ⟨⟩) rfl
  · obtain ⟨-, rfl⟩ := fresh found
    exact ⟨[], .nil _⟩

/-- A match is played to its end while the next users wait in another room. -/
def twoMatches : List ManagerEvent :=
  .start :: (List.range 8).map (fun i => .checkUserIn true (i + 1) true []) ++
    .enterMatch 9 true 0 (List.replicate 9 (some (0, true))) :: .enterMatch 10 true 0 [] ::
      ((List.range 9).map (fun i => .inRoom 0 (.userOutTable (i + 1))) ++
        [.inRoom 0 (.tableFinish 0), .checkUserIn true 11 true [], .inRoom 0 (.allocateUser [] [])])

theorem managed_of_run_twoMatches :
    ∃ m, Lib.Run (managerStep nineUsers) (fun _ _ => True) (.initAllMatchRoom 3) twoMatches m ∧
      m.listFreeMatchRoom = [2, 0] ∧ m.listUsedMatchRoom = [1] ∧ Managed nineUsers 3 m := by
  have played : (Lib.replay (managerStep nineUsers) (.initAllMatchRoom 3) twoMatches).map
      (fun m => (m.listFreeMatchRoom, m.listUsedMatchRoom)) = some ([2, 0], [1]) := by
    decide +kernel
  obtain ⟨m, done, lists⟩ := Option.map_eq_some_iff.mp played
  have run := Lib.run_of_replay done
  exact ⟨m, run, (Prod.mk.inj lists).1, (Prod.mk.inj lists).2, managed_of_run (by decide) run⟩

end H5Server.MatchServer
