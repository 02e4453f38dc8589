import H5Server.Lib.Runs
import H5Server.Lib.StableSort
import Mathlib.Algebra.Group.Nat.Defs
import Mathlib.Algebra.Ring.Int.Defs
import Mathlib.Data.Int.DivMod
import Mathlib.Logic.Function.Basic

/-! # A tournament (`MatchRoom`)

Users are admitted until the room is full. They play a number of games in each round, and the last of the ranking are out
when the round is over. The tables are not modelled: whether one is found and takes a user, who leaves one, and the scores
of the games come from outside. A user's object is known by the number it was made with. Integers wrap around at the
widths of the source, and a step has no result where an assertion fails or an array is read outside.
-/

namespace H5Server.MatchServer

inductive RoomState
  | waitStart | gaming | matchEnd
  deriving DecidableEq, Repr

structure MatchRoomInfo where
  initCoins : ℤ
  maxPlayerNum : ℕ
  maxPlayerNum_lt : maxPlayerNum < 2 ^ 32
  joinNeedSore : ℤ
  fixedAllocate : Bool
  awards : List ℤ
  upgradeGameNum : List ℤ
  upGradeUserNum : List ℤ
  atLeastNeedScore : ℤ

structure UserInfo where
  /-- which of the objects it is -/
  ref : ℕ
  userId : ℤ
  isAndroid : Bool
  curGameCount : ℕ
  /-- left as the memory was, until the user is seated -/
  waitStart : Bool
  userScore : ℤ
  deriving DecidableEq, Repr

/-- What happens to the users of the room. -/
inductive Deed
  | admitted (user : UserInfo)
  | withdrew (user : UserInfo)
  | started (users : List UserInfo)
  | finished (user : UserInfo) (rank : ℕ) (award : ℤ)
  | ended
  deriving DecidableEq, Repr

structure MatchRoom where
  status : RoomState
  listMatchUser : List UserInfo
  vecWaitUser : List ℕ
  listUsedTable : List ℕ
  curRoundCount : ℕ
  curRoundFinishCount : ℕ
  winlostScore : ℤ
  /-- `score` in `game_user` -/
  stored : ℤ → ℤ
  /-- `totalstock` in `match_kind` -/
  totalStock : ℤ
  /-- the number of the next object -/
  next : ℕ
  log : List Deed

def toInt32 (x : ℤ) : ℤ := x.bmod (2 ^ 32)

def toInt64 (x : ℤ) : ℤ := x.bmod (2 ^ 64)

/-- For each user who is to be seated: the table that is found, and whether he can sit down there. -/
abbrev Seats := List (Option (ℕ × Bool))

variable (info : MatchRoomInfo)

namespace MatchRoom

variable (room : MatchRoom)

/-- `upgradeGameNum[cur_round_count_]` -/
def quota : Option ℤ := info.upgradeGameNum[room.curRoundCount]?

/-- `upGradeUserNum[cur_round_count_]` -/
def passUserNum : Option ℤ := info.upGradeUserNum[room.curRoundCount]?

def writeUserScoreToDB (userId score : ℤ) : MatchRoom :=
  { room with stored := Function.update room.stored (toInt32 userId) (room.stored (toInt32 userId) + score) }

def modifyUser (ref : ℕ) (change : UserInfo → UserInfo) : MatchRoom :=
  { room with listMatchUser := room.listMatchUser.map fun user => if user.ref = ref then change user else user }

def sortUser : MatchRoom :=
  { room with listMatchUser := Lib.takeMost (·.userScore) room.listMatchUser.length room.listMatchUser }

/-- The arrays that `updateRankInfo` reads. -/
def updateRankInfo : Option Unit := do
  let _ ← room.passUserNum info
  if room.listMatchUser.all (·.isAndroid) then some () else (room.quota info).map fun _ => ()

/-! ## Seats -/

/-- `getSuitTable`, with the table that is found. -/
def getSuitTable (table : ℕ) : MatchRoom :=
  if table ∈ room.listUsedTable then room else { room with listUsedTable := room.listUsedTable ++ [table] }

/-- The user whom the next round of `AllocateRoom` seats gets the least score. -/
def raiseScore (ref : ℕ) : MatchRoom :=
  room.modifyUser ref fun user =>
    if info.atLeastNeedScore ≠ 0 ∧ user.userScore < info.atLeastNeedScore then
      { user with userScore := info.atLeastNeedScore }
    else user

def allocateRoom : Seats → MatchRoom → MatchRoom
  | seats, room =>
    match room.vecWaitUser.getLast? with
    | none => room
    | some ref =>
      let room := room.raiseScore info ref
      match seats with
      | [] => room
      | none :: _ => room
      | some (table, sits) :: seats =>
        let room := room.getSuitTable table
        if !sits then room
        else
          let room := room.modifyUser ref fun user => { user with waitStart := false }
          allocateRoom seats { room with vecWaitUser := room.vecWaitUser.dropLast }

/-! ## Admission -/

/-- The loop of `StartMatch` over the users. -/
def addFees (winlost : ℤ) (users : List UserInfo) : ℤ :=
  users.foldl (fun winlost user => if user.isAndroid then winlost else toInt32 (winlost + info.joinNeedSore)) winlost

def startMatch (seats : Seats) : MatchRoom :=
  allocateRoom info seats { room with
    status := .gaming
    winlostScore := addFees info room.winlostScore room.listMatchUser
    vecWaitUser := room.listMatchUser.map (·.ref)
    curRoundFinishCount := 0
    log := room.log ++ [.started room.listMatchUser] }

/-- `GetPlayerCount(true)` -/
def getPlayerCount : ℕ := room.listMatchUser.countP (!·.isAndroid) % 2 ^ 16

def clearAllUser : MatchRoom :=
  { room with
    listMatchUser := room.listMatchUser.take (room.listMatchUser.length - room.listMatchUser.length % 2 ^ 16) }

/-- `JoinMatch`, with what the new object holds and the time that Redis gives. -/
def joinMatch (userId : ℤ) (isAndroid waitStart : Bool) (leftTime : ℤ) (seats : Seats) : Option MatchRoom :=
  let maxRealPlayerNum := (info.maxPlayerNum + 2 ^ 32 - 8) % 2 ^ 32
  if userId ≤ 0 then some room
  else if info.maxPlayerNum ≤ room.listMatchUser.length then some room
  else if !isAndroid && (decide (maxRealPlayerNum ≤ room.listMatchUser.countP (!·.isAndroid)) || decide (0 < leftTime)) then
    some room
  else do
    let user : UserInfo :=
      { ref := room.next, userId, isAndroid, curGameCount := 0, waitStart, userScore := info.initCoins }
    let room := { room with
      listMatchUser := room.listMatchUser ++ [user], next := room.next + 1, log := room.log ++ [.admitted user] }
    -- `SendMatchScene` reads both arrays
    let _ ← room.quota info
    let _ ← room.passUserNum info
    let room := if isAndroid then room else room.writeUserScoreToDB userId (toInt64 (-info.joinNeedSore))
    if info.maxPlayerNum ≤ room.listMatchUser.length then
      some (if room.getPlayerCount = 0 then room.clearAllUser else room.startMatch info seats)
    else some room

def leftMatch (userId : ℤ) : MatchRoom :=
  let userId := userId % 2 ^ 32
  if room.status = .gaming then room
  else
    match room.listMatchUser.find? (·.userId = userId) with
    | none => room
    | some user =>
      let room : MatchRoom := { room with
        listMatchUser := room.listMatchUser.eraseP (·.userId = userId), log := room.log ++ [.withdrew user] }
      room.writeUserScoreToDB userId info.joinNeedSore

/-! ## Games -/

def tableFinish (tableID : ℕ) : MatchRoom := { room with listUsedTable := room.listUsedTable.erase tableID }

/-- The users whom `UserOutTable` looks for. -/
def outOfTable (userId : ℤ) (user : UserInfo) : Bool := user.userId = userId ∧ user.waitStart = false

def userOut (user : UserInfo) : UserInfo :=
  { user with curGameCount := (user.curGameCount + 1) % 2 ^ 32, waitStart := true }

def userOutTable (userId : ℤ) : Option MatchRoom :=
  let userId := userId % 2 ^ 32
  match room.listMatchUser.filter (outOfTable userId) with
  | [] => some room
  | out => do
    let quota ← room.quota info
    some { room with
      listMatchUser := room.listMatchUser.map fun user => if outOfTable userId user then userOut user else user
      vecWaitUser := room.vecWaitUser ++ (out.filter fun user => (userOut user).curGameCount < quota).map (·.ref)
      curRoundFinishCount := room.curRoundFinishCount + out.countP fun user => quota ≤ (userOut user).curGameCount }

/-! ## The end of a round -/

/-- `OnUserFinish` -/
def onUserFinish (user : UserInfo) (awardScore : ℤ) : MatchRoom :=
  if awardScore = 0 then room
  else { room with winlostScore := toInt32 (room.winlostScore - awardScore) }.writeUserScoreToDB user.userId awardScore

/-- The loop of `AllocateUser` over the users who are out, from the end of the list. -/
def dismiss : ℕ → ℕ → MatchRoom → Option MatchRoom
  | 0, _, room => some room
  | i + 1, rank, room =>
    match room.listMatchUser.getLast? with
    | none => none
    | some user =>
      let award := info.awards.getD (rank - 1) 0
      let room := if user.isAndroid then room else room.onUserFinish user award
      dismiss i (rank - 1) { room with
        listMatchUser := room.listMatchUser.dropLast
        log := room.log ++ [.finished user rank award] }

/-- The match is over: the stock is settled, and `resetMatch` empties the room. -/
def matchOver : MatchRoom :=
  { room with
    totalStock := room.totalStock + room.winlostScore
    status := .matchEnd
    curRoundCount := 0
    winlostScore := 0
    listUsedTable := []
    listMatchUser := []
    vecWaitUser := []
    log := room.log ++ [.ended] }

/-- The next round begins; `OnUserUpgrade` reads both arrays for everybody who is still there. -/
def nextRound : Option MatchRoom := do
  let room := { room with
    curRoundCount := (room.curRoundCount + 1) % 2 ^ 8
    listMatchUser := room.listMatchUser.map fun user => { user with curGameCount := 0 }
    curRoundFinishCount := 0
    vecWaitUser := room.listMatchUser.map (·.ref) }
  if room.listMatchUser = [] then some room
  else do
    let _ ← room.quota info
    let _ ← room.passUserNum info
    some room

def endRound : Option MatchRoom := do
  let room := room.sortUser
  room.updateRankInfo info
  let passCount := ((← room.passUserNum info) % 2 ^ 32).toNat
  let rank := room.listMatchUser.length
  let outCount := (rank + 2 ^ 32 - passCount) % 2 ^ 32
  let room ← dismiss info (outCount % 2 ^ 16) rank room
  if passCount = 0 then some room.matchOver else room.nextRound info

/-- `AllocateUser`, with the order that `random_shuffle` makes. -/
def allocateUser (shuffled : List ℕ) (seats : Seats) : Option MatchRoom :=
  if room.status ≠ .gaming then none
  else if room.listMatchUser.length < room.curRoundFinishCount then none
  else if room.listUsedTable = [] ∧ room.curRoundFinishCount = room.listMatchUser.length then room.endRound info
  else if room.vecWaitUser = [] then some room
  else if info.fixedAllocate then do
    let room := room.sortUser
    room.updateRankInfo info
    some (allocateRoom info seats room)
  else if room.listUsedTable = [] ∧ room.listMatchUser.length = room.vecWaitUser.length then do
    let room := room.sortUser
    room.updateRankInfo info
    if shuffled.isPerm room.vecWaitUser then some (allocateRoom info seats { room with vecWaitUser := shuffled }) else none
  else some room

/-! ## What the parts leave alone -/

variable {info} {room} {room' : MatchRoom}

/-- What stays of a user while he is seated. -/
def identity (user : UserInfo) : ℕ × ℤ × Bool × ℕ := (user.ref, user.userId, user.isAndroid, user.curGameCount)

theorem map_identity_modifyUser (room : MatchRoom) (ref : ℕ) {change : UserInfo → UserInfo}
    (same : ∀ user, identity (change user) = identity user) :
    (room.modifyUser ref change).listMatchUser.map identity = room.listMatchUser.map identity := by
  rw [modifyUser, List.map_map]
  apply List.map_congr_left
  intro user _
  dsimp only [Function.comp]
  split_ifs
  · exact same user
  · rfl

theorem identity_raiseScore (ref : ℕ) :
    (room.raiseScore info ref).listMatchUser.map identity = room.listMatchUser.map identity := by
  apply map_identity_modifyUser
  intro user
  split_ifs <;> rfl

/-- Only the users' scores, their seats, the queue and the tables change. -/
theorem allocateRoom_frame (seats : Seats) (room : MatchRoom) :
    ∃ users waiting tables, allocateRoom info seats room =
        { room with listMatchUser := users, vecWaitUser := waiting, listUsedTable := tables } ∧
      users.map identity = room.listMatchUser.map identity := by
  induction seats generalizing room with
  | nil =>
    rw [allocateRoom]
    split
    · exact ⟨_, _, _, rfl, rfl⟩
    · exact ⟨_, _, _, rfl, identity_raiseScore _⟩
  | cons seat seats ih =>
    rw [allocateRoom]
    split
    · exact ⟨_, _, _, rfl, rfl⟩
    next ref last =>
      rcases seat with _ | ⟨table, sits⟩
      · exact ⟨_, _, _, rfl, identity_raiseScore _⟩
      · dsimp only
        have found : ∃ tables, (room.raiseScore info ref).getSuitTable table =
            { room.raiseScore info ref with listUsedTable := tables } := by
          rw [getSuitTable]
          split
          · exact ⟨_, rfl⟩
          · exact ⟨_, rfl⟩
        obtain ⟨tables, found⟩ := found
        rw [found]
        split
        · exact ⟨_, _, _, rfl, identity_raiseScore _⟩
        · obtain ⟨users, waiting, tables', result, same⟩ := ih
            { ({ room.raiseScore info ref with listUsedTable := tables } : MatchRoom).modifyUser ref
                fun user => { user with waitStart := false } with vecWaitUser := room.vecWaitUser.dropLast }
          refine ⟨users, waiting, tables', result, same.trans ?_⟩
          refine (map_identity_modifyUser { room.raiseScore info ref with listUsedTable := tables } ref ?_).trans
            (identity_raiseScore ref)
          exact fun _ => rfl

theorem startMatch_frame (seats : Seats) (room : MatchRoom) :
    ∃ users waiting tables, room.startMatch info seats = { room with
        status := .gaming
        listMatchUser := users
        vecWaitUser := waiting
        listUsedTable := tables
        winlostScore := addFees info room.winlostScore room.listMatchUser
        curRoundFinishCount := 0
        log := room.log ++ [.started room.listMatchUser] } ∧
      users.map identity = room.listMatchUser.map identity := by
  rw [startMatch]
  obtain ⟨users, waiting, tables, result, same⟩ := @allocateRoom_frame info seats { room with
    status := .gaming
    winlostScore := addFees info room.winlostScore room.listMatchUser
    vecWaitUser := room.listMatchUser.map (·.ref)
    curRoundFinishCount := 0
    log := room.log ++ [.started room.listMatchUser] }
  exact ⟨users, waiting, tables, result, same⟩

/-- Who a user is. -/
def person (user : UserInfo) : ℕ × ℤ × Bool := (user.ref, user.userId, user.isAndroid)

theorem map_person_of_identity {users users' : List UserInfo} (same : users'.map identity = users.map identity) :
    users'.map person = users.map person := by
  have split (users : List UserInfo) : users.map person = (users.map identity).map fun e => (e.1, e.2.1, e.2.2.1) := by
    rw [List.map_map]
    rfl
  rw [split, split, same]

theorem userOutTable_frame {userId : ℤ} (taken : room.userOutTable info userId = some room') :
    ∃ users waiting count, room' = { room with
        listMatchUser := users, vecWaitUser := waiting, curRoundFinishCount := count } ∧
      users.map person = room.listMatchUser.map person := by
  rw [userOutTable] at taken
  split at taken
  · obtain rfl := Option.some.inj taken
    exact ⟨_, _, _, rfl, rfl⟩
  · obtain ⟨q, -, taken⟩ := Option.bind_eq_some_iff.mp taken
    obtain rfl := Option.some.inj taken
    refine ⟨_, _, _, rfl, ?_⟩
    rw [List.map_map]
    apply List.map_congr_left
    intro user _
    dsimp only [Function.comp]
    split_ifs <;> rfl

/-- Nobody is looked for while everybody waits. -/
theorem userOutTable_of_up {userId : ℤ} (up : ∀ user ∈ room.listMatchUser, user.waitStart = true)
    (taken : room.userOutTable info userId = some room') : room' = room := by
  have none_ : room.listMatchUser.filter (outOfTable (userId % 2 ^ 32)) = [] := by
    rw [List.filter_eq_nil_iff]
    intro user here out
    cases (of_decide_eq_true out).2.symm.trans (up user here)
  rw [userOutTable, none_] at taken
  exact (Option.some.inj taken).symm

/-- The users who are out, the last one first, with their ranks and awards. -/
def dismissed (info : MatchRoomInfo) : ℕ → List UserInfo → List Deed
  | _, [] => []
  | rank, user :: rest => .finished user rank (info.awards.getD (rank - 1) 0) :: dismissed info (rank - 1) rest

/-- A user is refused, or admitted and charged; then the room may be emptied or the match begin. -/
theorem joinMatch_cases {userId : ℤ} {isAndroid waitStart : Bool} {leftTime : ℤ} {seats : Seats}
    (taken : room.joinMatch info userId isAndroid waitStart leftTime seats = some room') :
    room' = room ∨ 0 < userId ∧ room.listMatchUser.length < info.maxPlayerNum ∧ (∃ q, room.quota info = some q) ∧
      ∃ charged, charged = (if isAndroid then room else room.writeUserScoreToDB userId (toInt64 (-info.joinNeedSore))) ∧
      ∃ user : UserInfo, user = ⟨room.next, userId, isAndroid, 0, waitStart, info.initCoins⟩ ∧
      ∃ room₁ : MatchRoom, room₁ = { charged with
          listMatchUser := room.listMatchUser ++ [user], next := room.next + 1, log := room.log ++ [.admitted user] } ∧
        (room' = room₁ ∨ room₁.getPlayerCount = 0 ∧ room' = room₁.clearAllUser ∨
          info.maxPlayerNum ≤ room₁.listMatchUser.length ∧ room' = room₁.startMatch info seats) := by
  rw [joinMatch] at taken
  split at taken
  · exact .inl (Option.some.inj taken).symm
  next id_ =>
    split at taken
    · exact .inl (Option.some.inj taken).symm
    next room_ =>
      split at taken
      · exact .inl (Option.some.inj taken).symm
      · obtain ⟨q, known, taken⟩ := Option.bind_eq_some_iff.mp taken
        obtain ⟨-, -, taken⟩ := Option.bind_eq_some_iff.mp taken
        refine .inr ⟨not_le.mp id_, not_le.mp room_, ⟨q, known⟩, _, rfl, _, rfl, _, rfl, ?_⟩
        cases isAndroid <;>
        · simp only [Bool.false_eq_true, ↓reduceIte] at taken ⊢
          split at taken
          next full =>
            obtain rfl := Option.some.inj taken
            refine .inr ?_
            split
            next nobody => exact .inl ⟨nobody, rfl⟩
            · exact .inr ⟨full, rfl⟩
          · exact .inl (Option.some.inj taken).symm

theorem sortUser_ranking (room : MatchRoom) :
    Lib.Ranking UserInfo.userScore room.listMatchUser room.sortUser.listMatchUser :=
  Lib.takeMost_ranking UserInfo.userScore rfl

theorem exists_payAward (room : MatchRoom) (user : UserInfo) (award : ℤ) :
    ∃ winlost stored, (if user.isAndroid then room else room.onUserFinish user award) =
      { room with winlostScore := winlost, stored := stored } := by
  split
  · exact ⟨_, _, rfl⟩
  · rw [onUserFinish]
    split
    · exact ⟨_, _, rfl⟩
    · exact ⟨_, _, rfl⟩

theorem dismiss_spec {i rank : ℕ} (done : dismiss info i rank room = some room') :
    ∃ stay out, room.listMatchUser = stay ++ out ∧ out.length = i ∧
      room' = { room with
        listMatchUser := stay, winlostScore := room'.winlostScore, stored := room'.stored
        log := room.log ++ dismissed info rank out.reverse } := by
  induction i generalizing rank room with
  | zero =>
    rw [dismiss] at done
    obtain rfl := Option.some.inj done
    refine ⟨room.listMatchUser, [], by rw [List.append_nil], rfl, ?_⟩
    rw [List.reverse_nil, dismissed, List.append_nil]
  | succ i ih =>
    rw [dismiss] at done
    split at done
    · cases done
    next user last =>
      dsimp only at done
      obtain ⟨winlost, stored, paid⟩ := exists_payAward room user (info.awards.getD (rank - 1) 0)
      rw [paid] at done
      obtain ⟨stay, out, split, length, result⟩ := ih done
      have users : room.listMatchUser.dropLast ++ [user] = room.listMatchUser :=
        List.dropLast_append_getLast? user last
      refine ⟨stay, out ++ [user], ?_, by rw [List.length_append, length]; rfl, ?_⟩
      · rw [← users, ← List.append_assoc]
        exact congrArg (· ++ [user]) split
      · rw [List.reverse_append, List.reverse_singleton, List.singleton_append, dismissed, List.append_cons]
        exact result

theorem allocateUser_cases {shuffled : List ℕ} {seats : Seats} (taken : room.allocateUser info shuffled seats = some room') :
    room.status = .gaming ∧ room.curRoundFinishCount ≤ room.listMatchUser.length ∧
      ((room.listUsedTable = [] ∧ room.curRoundFinishCount = room.listMatchUser.length ∧
          room.endRound info = some room') ∨
        ¬(room.listUsedTable = [] ∧ room.curRoundFinishCount = room.listMatchUser.length) ∧
          (room' = room ∨ ∃ waiting, waiting.Perm room.vecWaitUser ∧
            room' = allocateRoom info seats { room.sortUser with vecWaitUser := waiting })) := by
  rw [allocateUser] at taken
  split at taken
  · cases taken
  next gaming =>
    split at taken
    · cases taken
    next holds =>
      refine ⟨not_not.mp gaming, not_lt.mp holds, ?_⟩
      split at taken
      next concluded => exact .inl ⟨concluded.1, concluded.2, taken⟩
      next going =>
        refine .inr ⟨going, ?_⟩
        split at taken
        · cases taken
          exact .inl rfl
        · split at taken
          · obtain ⟨-, -, taken⟩ := Option.bind_eq_some_iff.mp taken
            cases taken
            exact .inr ⟨room.vecWaitUser, .refl _, rfl⟩
          · split at taken
            · obtain ⟨-, -, taken⟩ := Option.bind_eq_some_iff.mp taken
              split at taken
              next perm =>
                cases taken
                exact .inr ⟨shuffled, List.isPerm_iff.mp perm, rfl⟩
              · cases taken
            · cases taken
              exact .inl rfl

/-- The end of a round: the ranking is split into those who stay and those who are out. -/
theorem endRound_cases (taken : room.endRound info = some room') :
    ∃ pass stay out room₁, room.passUserNum info = some pass ∧
      room.sortUser.listMatchUser = stay ++ out ∧
      out.length = (room.listMatchUser.length + 2 ^ 32 - (pass % 2 ^ 32).toNat) % 2 ^ 32 % 2 ^ 16 ∧
      dismiss info out.length room.sortUser.listMatchUser.length room.sortUser = some room₁ ∧
      room₁ = { room with
        listMatchUser := stay, winlostScore := room₁.winlostScore, stored := room₁.stored
        log := room.log ++ dismissed info room.sortUser.listMatchUser.length out.reverse } ∧
      (if (pass % 2 ^ 32).toNat = 0 then room' = room₁.matchOver else room₁.nextRound info = some room') := by
  rw [endRound] at taken
  obtain ⟨-, -, taken⟩ := Option.bind_eq_some_iff.mp taken
  obtain ⟨pass, known, taken⟩ := Option.bind_eq_some_iff.mp taken
  obtain ⟨room₁, done, taken⟩ := Option.bind_eq_some_iff.mp taken
  obtain ⟨stay, out, split, length, result⟩ := dismiss_spec done
  have same := (sortUser_ranking room).1.length_eq
  refine ⟨pass, stay, out, room₁, known, split, by rw [length, same], by rw [length]; exact done, result, ?_⟩
  split at taken
  next none_ => rw [if_pos none_, Option.some.inj taken]
  next some_ => rw [if_neg some_, taken]

end MatchRoom

/-! ## Steps -/

inductive Event
  | joinMatch (userId : ℤ) (isAndroid waitStart : Bool) (leftTime : ℤ) (seats : Seats)
  | leftMatch (userId : ℤ)
  | userOutTable (userId : ℤ)
  | tableFinish (tableID : ℕ)
  | allocateUser (shuffled : List ℕ) (seats : Seats)
  /-- the score of a user in the match changes -/
  | setUserScore (ref : ℕ) (score : ℤ)

def Event.IsTick : Event → Prop
  | .allocateUser .. => True
  | _ => False

/-- A room whose match is over is found for the next users, one whose match goes on is not. -/
def step (room : MatchRoom) : Event → Option MatchRoom
  | .joinMatch userId isAndroid waitStart leftTime seats =>
    if room.status = .gaming then none
    else { room with status := .waitStart }.joinMatch info userId isAndroid waitStart leftTime seats
  | .leftMatch userId => some (room.leftMatch info userId)
  | .userOutTable userId => room.userOutTable info userId
  | .tableFinish tableID => some (room.tableFinish tableID)
  | .allocateUser shuffled seats => room.allocateUser info shuffled seats
  | .setUserScore ref score => some (room.modifyUser ref fun user => { user with userScore := score })

/-- The room when the server starts. -/
def MatchRoom.fresh (stored : ℤ → ℤ) (totalStock : ℤ) : MatchRoom where
  status := .waitStart
  listMatchUser := []
  vecWaitUser := []
  listUsedTable := []
  curRoundCount := 0
  curRoundFinishCount := 0
  winlostScore := 0
  stored
  totalStock
  next := 0
  log := []

/-! ## What a step can do -/

variable {info} {room room' : MatchRoom} {event : Event}

/-- The users are the same, in whatever order, and no money moves. -/
structure Rearranged (room room' : MatchRoom) : Prop where
  persons : (room'.listMatchUser.map MatchRoom.person).Perm (room.listMatchUser.map MatchRoom.person)
  curRoundCount : room'.curRoundCount = room.curRoundCount
  winlostScore : room'.winlostScore = room.winlostScore
  stored : room'.stored = room.stored
  totalStock : room'.totalStock = room.totalStock
  next : room'.next = room.next
  log : room'.log = room.log

/-- A user is admitted, and charged when he is no robot. -/
structure Admission (info : MatchRoomInfo) (room : MatchRoom) (userId : ℤ) (isAndroid waitStart : Bool)
    (room₁ : MatchRoom) : Prop where
  positive : 0 < userId
  space : room.listMatchUser.length < info.maxPlayerNum
  eq : room₁ = { room with
    status := .waitStart
    listMatchUser := room.listMatchUser ++ [⟨room.next, userId, isAndroid, 0, waitStart, info.initCoins⟩]
    stored := if isAndroid then room.stored else (room.writeUserScoreToDB userId (toInt64 (-info.joinNeedSore))).stored
    next := room.next + 1
    log := room.log ++ [.admitted ⟨room.next, userId, isAndroid, 0, waitStart, info.initCoins⟩] }

inductive Outcome (info : MatchRoomInfo) (room : MatchRoom) (event : Event) (room' : MatchRoom) : Prop
  | quiet (rearranged : Rearranged room room') (status : room'.status = room.status)
  | refused (idle : room.status ≠ .gaming) (eq : room' = { room with status := .waitStart })
  | admitted (idle : room.status ≠ .gaming) {userId leftTime : ℤ} {isAndroid waitStart : Bool} {seats : Seats}
      (message : event = .joinMatch userId isAndroid waitStart leftTime seats) {room₁ : MatchRoom}
      (admission : Admission info room userId isAndroid waitStart room₁)
      (after : room' = room₁ ∨ room₁.getPlayerCount = 0 ∧ room' = room₁.clearAllUser ∨
        info.maxPlayerNum ≤ room₁.listMatchUser.length ∧ room' = room₁.startMatch info seats)
  | withdrew (idle : room.status ≠ .gaming) {userId : ℤ} (message : event = .leftMatch userId) {user : UserInfo}
      (found : room.listMatchUser.find? (·.userId = userId % 2 ^ 32) = some user)
      (eq : room' = ({ room with
        listMatchUser := room.listMatchUser.eraseP (·.userId = userId % 2 ^ 32)
        log := room.log ++ [.withdrew user] } : MatchRoom).writeUserScoreToDB (userId % 2 ^ 32) info.joinNeedSore)
  | ended (gaming : room.status = .gaming) (tick : event.IsTick) (tables : room.listUsedTable = [])
      (count : room.curRoundFinishCount = room.listMatchUser.length) (taken : room.endRound info = some room')

theorem outcome_of_step (taken : step info room event = some room') : Outcome info room event room' := by
  cases event with
  | joinMatch userId isAndroid waitStart leftTime seats =>
    rw [step] at taken
    split at taken
    · cases taken
    next idle =>
      rcases MatchRoom.joinMatch_cases taken with rfl | ⟨positive, space, -, charged, paid, user, rfl, room₁, admitted, after⟩
      · exact .refused idle rfl
      · refine .admitted idle rfl ⟨positive, space, ?_⟩ after
        rw [admitted, paid]
        split <;> rfl
  | leftMatch userId =>
    obtain rfl := Option.some.inj taken
    rw [MatchRoom.leftMatch]
    split
    · exact .quiet ⟨.refl _, rfl, rfl, rfl, rfl, rfl, rfl⟩ rfl
    next idle =>
      split
      · exact .quiet ⟨.refl _, rfl, rfl, rfl, rfl, rfl, rfl⟩ rfl
      next user found => exact .withdrew idle rfl found rfl
  | userOutTable userId =>
    obtain ⟨users, waiting, count, rfl, same⟩ := MatchRoom.userOutTable_frame taken
    exact .quiet ⟨.of_eq same, rfl, rfl, rfl, rfl, rfl, rfl⟩ rfl
  | tableFinish tableID =>
    obtain rfl := Option.some.inj taken
    exact .quiet ⟨.refl _, rfl, rfl, rfl, rfl, rfl, rfl⟩ rfl
  | allocateUser shuffled seats =>
    obtain ⟨gaming, -, ⟨tables, count, ended⟩ | ⟨-, rfl | ⟨waiting, -, rfl⟩⟩⟩ := MatchRoom.allocateUser_cases taken
    · exact .ended gaming trivial tables count ended
    · exact .quiet ⟨.refl _, rfl, rfl, rfl, rfl, rfl, rfl⟩ rfl
    · obtain ⟨users, waiting', tables, result, same⟩ :=
        @MatchRoom.allocateRoom_frame info seats { room.sortUser with vecWaitUser := waiting }
      rw [result]
      refine .quiet ⟨?_, rfl, rfl, rfl, rfl, rfl, rfl⟩ rfl
      refine (List.Perm.of_eq (MatchRoom.map_person_of_identity same)).trans ?_
      exact (MatchRoom.sortUser_ranking room).1.map _
  | setUserScore ref score =>
    obtain rfl := Option.some.inj taken
    refine .quiet ⟨.of_eq ?_, rfl, rfl, rfl, rfl, rfl, rfl⟩ rfl
    exact MatchRoom.map_person_of_identity (MatchRoom.map_identity_modifyUser room ref fun _ => rfl)

end H5Server.MatchServer
