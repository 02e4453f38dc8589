import H5Server.Framework.ServerUserManager

/-! # The pool of the robots (`CAndroidUserManager`)

A timer takes robots from the free list and seats them at the tables. What the tables and the robots answer comes with
the event, and so does the product of the number of robots with the percentages of the hour and the table. The scores
of the robots are left out. `seated` says who has been seated and not been deleted since; nothing reads it.
-/

namespace H5Server.Framework

open Lib

structure AndroidUserManager where
  usedList : List ℕ
  freeList : List ℕ
  userIds : ℕ → ℤ
  created : ℕ
  seated : ℕ → Bool

/-- What is answered when a robot is to be seated: its own `isPlaying`, and `CanJoinTable` and `RoomSitChair`. -/
structure Answer where
  isPlaying : Bool
  canJoinTable : Bool
  roomSitChair : Bool

/-- The robot of an attempt gets a seat. -/
def Answer.Seats (sgj : Bool) (a : Answer) : Prop :=
  a.isPlaying = false ∧ (sgj = true → a.canJoinTable = true) ∧ a.roomSitChair = true

/-- A table as the timer finds it, with the answers to one attempt after the other. -/
structure TableVisit where
  tableId : ℕ
  realPlayerCount : ℕ
  androidPlayerCount : ℕ
  scaledAndroidCount : ℤ
  started : Bool
  canJoinTable : Bool
  answers : ℕ → Answer

/-- `bairen` for a table of hundreds, `sgj` for the fruit machine. -/
structure GameRoomInfo where
  stopped : Bool
  bairen : Bool
  sgj : Bool
  maxPlayerNum : ℕ
  bEnableAndroid : Bool
  realChangeAndroid : ℕ

inductive PoolCall where
  | addAndroid (userId : ℤ)
  | onTimerCheckUserIn (room : GameRoomInfo) (chooseTableID : ℕ) (tables : List TableVisit)
  | deleteAndroidUserItem (userId : ℤ)

/-- The conversion to `uint32_t`. -/
def toUint32 (n : ℤ) : ℤ := n % 2 ^ 32

namespace TableVisit

variable (room : GameRoomInfo) (v : TableVisit)

def curPlayerCount : ℤ := toUint32 (v.realPlayerCount + v.androidPlayerCount)

/-- Both numbers are compared without a sign. -/
def admitsBairen : Bool :=
  v.canJoinTable && room.bEnableAndroid && v.curPlayerCount < room.maxPlayerNum
    && v.androidPlayerCount < toUint32 v.scaledAndroidCount

/-- `wNeedCount` at a table of hundreds. -/
def needBairen : ℤ :=
  let maxAndroidCount :=
    if 0 < room.realChangeAndroid then
      toInt32 (v.scaledAndroidCount - (v.realPlayerCount / room.realChangeAndroid : ℕ))
    else v.scaledAndroidCount
  let count :=
    if toUint32 maxAndroidCount ≤ v.androidPlayerCount then 0 else toInt32 (maxAndroidCount - v.androidPlayerCount)
  min count 5

def admits : Bool :=
  !(v.realPlayerCount == 0 || v.started) && v.canJoinTable && room.bEnableAndroid
    && v.curPlayerCount < room.maxPlayerNum

end TableVisit

namespace AndroidUserManager

def empty : AndroidUserManager := ⟨[], [], fun _ => -1, 0, fun _ => false⟩

variable (m : AndroidUserManager)

def addAndroid (userId : ℤ) : AndroidUserManager :=
  { m with
    freeList := m.freeList ++ [m.created]
    userIds := Function.update m.userIds m.created userId
    created := m.created + 1 }

def getFreeAndroidUserItem : Option (ℕ × AndroidUserManager) :=
  match m.freeList with
  | [] => none
  | item :: free => some (item, { m with usedList := m.usedList ++ [item], freeList := free })

/-- The first robot with the id goes to the end of the free list. -/
def deleteAndroidUserItem (userId : ℤ) : AndroidUserManager :=
  match m.usedList.find? (m.userIds · == userId) with
  | none => m
  | some item =>
    { m with
      freeList := m.freeList ++ [item]
      usedList := m.usedList.erase item
      seated := Function.update m.seated item false }

/-- `RoomSitChair`, whose result is not looked at. -/
def sit (item : ℕ) (done : Bool) : AndroidUserManager :=
  { m with seated := if done then Function.update m.seated item true else m.seated }

/-- The loop at a table of hundreds, with `n` rounds to go. -/
def enterBairen (sgj : Bool) (answers : ℕ → Answer) : ℕ → ℕ → AndroidUserManager → AndroidUserManager
  | 0, _, m => m
  | n + 1, i, m =>
    match m.getFreeAndroidUserItem with
    | none => enterBairen sgj answers n (i + 1) m
    | some (item, m) =>
      if (answers i).isPlaying then enterBairen sgj answers n (i + 1) m
      else if sgj ∧ ¬(answers i).canJoinTable then m
      else enterBairen sgj answers n (i + 1) (m.sit item (answers i).roomSitChair)

/-- The loop at another table, which ends with the first robot. -/
def enter (answers : ℕ → Answer) : ℕ → ℕ → AndroidUserManager → AndroidUserManager
  | 0, _, m => m
  | n + 1, i, m =>
    match m.getFreeAndroidUserItem with
    | none => enter answers n (i + 1) m
    | some (item, m) => m.sit item (answers i).roomSitChair

/-- The loop over the tables. At tables of hundreds only the one chosen is visited, and none after it if it admits
robots. -/
def visit (room : GameRoomInfo) (chooseTableID : ℕ) : List TableVisit → AndroidUserManager → AndroidUserManager
  | [], m => m
  | v :: tables, m =>
    if room.bairen then
      if chooseTableID = v.tableId ∧ v.admitsBairen room then
        enterBairen room.sgj v.answers (v.needBairen room).toNat 0 m
      else visit room chooseTableID tables m
    else if v.admits room then
      visit room chooseTableID tables (enter v.answers (room.maxPlayerNum - v.curPlayerCount).toNat 0 m)
    else visit room chooseTableID tables m

def onTimerCheckUserIn (room : GameRoomInfo) (chooseTableID : ℕ) (tables : List TableVisit) : AndroidUserManager :=
  if room.stopped then m else if m.freeList = [] then m else visit room chooseTableID tables m

def step : PoolCall → AndroidUserManager
  | .addAndroid userId => m.addAndroid userId
  | .onTimerCheckUserIn room chooseTableID tables => m.onTimerCheckUserIn room chooseTableID tables
  | .deleteAndroidUserItem userId => m.deleteAndroidUserItem userId

/-! ## Accounting -/

/-- Every robot is in one of the lists once, and who is in use has a seat. -/
structure Accounted : Prop where
  once : (m.usedList ++ m.freeList).Perm (List.range m.created)
  seats : ∀ item ∈ m.usedList, m.seated item = true

/-- Every robot that a call takes from the free list gets a seat: at a table of hundreds as many as it needs and there
are, elsewhere one at each table that admits robots, as long as there are some. -/
def TakesSeats : PoolCall → Prop
  | .onTimerCheckUserIn room chooseTableID tables =>
    room.stopped = false →
      if room.bairen then
        ∀ v ∈ tables.find? fun v => chooseTableID = v.tableId ∧ v.admitsBairen room,
          ∀ i < min (v.needBairen room).toNat m.freeList.length, Answer.Seats room.sgj (v.answers i)
      else ∀ v ∈ (tables.filter (·.admits room)).take m.freeList.length, (v.answers 0).roomSitChair = true
  | _ => True

variable {m}

/-- Every robot is in one of the lists once, and who has a seat is in use. -/
structure Pool (m : AndroidUserManager) : Prop where
  once : (m.usedList ++ m.freeList).Perm (List.range m.created)
  used : ∀ item, m.seated item = true → item ∈ m.usedList

/-- Who is in use has a seat. -/
def Seated (m : AndroidUserManager) : Prop := ∀ item ∈ m.usedList, m.seated item = true

theorem accounted_iff : m.Accounted ↔ (m.usedList ++ m.freeList).Perm (List.range m.created) ∧ m.Seated :=
  ⟨fun accounted => ⟨accounted.once, accounted.seats⟩, fun ⟨once, seats⟩ => ⟨once, seats⟩⟩

theorem Pool.nodup (pool : m.Pool) : (m.usedList ++ m.freeList).Nodup := pool.once.nodup_iff.mpr List.nodup_range

theorem pool_empty : empty.Pool ∧ empty.Seated := ⟨⟨.refl _, fun _ => (absurd · Bool.false_ne_true)⟩, nofun⟩

theorem Pool.addAndroid (pool : m.Pool) (userId : ℤ) : (m.addAndroid userId).Pool := by
  refine ⟨?_, pool.used⟩
  show (m.usedList ++ (m.freeList ++ [m.created])).Perm (List.range (m.created + 1))
  rw [← List.append_assoc, List.range_succ]
  exact pool.once.append_right _

theorem Pool.deleteAndroidUserItem (pool : m.Pool) (seats : m.Seated) (userId : ℤ) :
    (m.deleteAndroidUserItem userId).Pool ∧ (m.deleteAndroidUserItem userId).Seated := by
  rw [AndroidUserManager.deleteAndroidUserItem]
  cases found : m.usedList.find? (m.userIds · == userId) with
  | none => exact ⟨pool, seats⟩
  | some item =>
    have there := List.mem_of_find?_eq_some found
    have once : m.usedList.Nodup := (List.nodup_append.mp pool.nodup).1
    refine ⟨⟨?_, fun other seat => ?_⟩, fun other inside => ?_⟩
    · refine (List.perm_append_comm.append_left _).trans ?_
      rw [← List.append_assoc]
      exact (((List.perm_append_singleton item _).trans (List.perm_cons_erase there).symm).append_right _).trans pool.once
    · have seat : Function.update m.seated item false other = true := seat
      rcases eq_or_ne other item with rfl | differ
      · rw [Function.update_self] at seat
        exact absurd seat Bool.false_ne_true
      · rw [Function.update_of_ne differ] at seat
        exact once.mem_erase_iff.mpr ⟨differ, pool.used other seat⟩
    · obtain ⟨differ, used⟩ := once.mem_erase_iff.mp inside
      show Function.update m.seated item false other = true
      rw [Function.update_of_ne differ, seats other used]

/-! ## The timer -/

/-- The first robot of the free list is taken. -/
def taken (m : AndroidUserManager) (item : ℕ) (free : List ℕ) : AndroidUserManager :=
  { m with usedList := m.usedList ++ [item], freeList := free }

theorem getFreeAndroidUserItem_cons {item : ℕ} {free : List ℕ} (here : m.freeList = item :: free) :
    m.getFreeAndroidUserItem = some (item, m.taken item free) := by
  rw [getFreeAndroidUserItem, here]
  rfl

theorem getFreeAndroidUserItem_nil (here : m.freeList = []) : m.getFreeAndroidUserItem = none := by
  rw [getFreeAndroidUserItem, here]

/-- A robot that is taken has no seat yet. -/
theorem Pool.taken {item : ℕ} {free : List ℕ} (pool : m.Pool) (here : m.freeList = item :: free) :
    (m.taken item free).Pool ∧ item ∉ m.usedList ∧ m.seated item = false := by
  have fresh : item ∉ m.usedList := fun used =>
    (List.nodup_append.mp pool.nodup).2.2 item used item (here ▸ List.mem_cons_self) rfl
  refine ⟨⟨?_, fun other seat => List.mem_append_left _ (pool.used other seat)⟩, fresh, ?_⟩
  · show (m.usedList ++ [item] ++ free).Perm (List.range m.created)
    rw [List.append_assoc, List.singleton_append, ← here]
    exact pool.once
  · exact Bool.eq_false_iff.mpr fun seat => fresh (pool.used item seat)

theorem not_seated_taken {item : ℕ} {free : List ℕ} (idle : m.seated item = false) : ¬(m.taken item free).Seated :=
  fun seats => Bool.false_ne_true (idle.symm.trans (seats item (List.mem_append_right _ (List.mem_singleton_self item))))

theorem Pool.sit {item : ℕ} (pool : m.Pool) (used : item ∈ m.usedList) (done : Bool) : (m.sit item done).Pool := by
  refine ⟨pool.once, fun other seat => ?_⟩
  cases done with
  | false => exact pool.used other seat
  | true =>
    have seat : Function.update m.seated item true other = true := seat
    rcases eq_or_ne other item with rfl | differ
    · exact used
    · rw [Function.update_of_ne differ] at seat
      exact pool.used other seat

theorem seated_sit_iff {item : ℕ} {free : List ℕ} (fresh : item ∉ m.usedList) (idle : m.seated item = false)
    {done : Bool} :
    ((m.taken item free).sit item done).Seated ↔ m.Seated ∧ done = true := by
  cases done with
  | false => exact iff_of_false (not_seated_taken idle) fun both => Bool.false_ne_true both.2
  | true =>
    rw [and_iff_left rfl]
    show (∀ other ∈ m.usedList ++ [item], Function.update m.seated item true other = true) ↔ _
    constructor
    · intro seats other used
      have differ : other ≠ item := by
        rintro rfl
        exact fresh used
      have := seats other (List.mem_append_left _ used)
      rwa [Function.update_of_ne differ] at this
    · intro seats other there
      rcases eq_or_ne other item with rfl | differ
      · exact Function.update_self ..
      · rw [Function.update_of_ne differ]
        refine seats other ?_
        rcases List.mem_append.mp there with used | same
        · exact used
        · exact absurd (List.mem_singleton.mp same) differ

theorem enterBairen_spec (sgj : Bool) (answers : ℕ → Answer) (n i : ℕ) (pool : m.Pool) :
    (enterBairen sgj answers n i m).Pool
      ∧ ((enterBairen sgj answers n i m).Seated
        ↔ m.Seated ∧ ∀ j < min n m.freeList.length, (answers (i + j)).Seats sgj) := by
  induction n generalizing i m with
  | zero =>
    refine ⟨pool, ?_⟩
    rw [Nat.zero_min]
    exact (and_iff_left nofun).symm
  | succ n ih =>
    cases here : m.freeList with
    | nil =>
      rw [enterBairen, getFreeAndroidUserItem_nil here]
      have rest := ih (i + 1) pool
      rw [here, List.length_nil, Nat.min_zero] at rest
      rw [List.length_nil, Nat.min_zero]
      exact ⟨rest.1, rest.2.trans (and_congr_right fun _ => iff_of_true nofun nofun)⟩
    | cons item free =>
      obtain ⟨pool', fresh, idle⟩ := pool.taken here
      rw [enterBairen, getFreeAndroidUserItem_cons here, List.length_cons, Nat.succ_min_succ, Nat.forall_lt_succ_left]
      dsimp only
      have shift : (∀ j < min n free.length, (answers (i + (j + 1))).Seats sgj)
          ↔ ∀ j < min n free.length, (answers (i + 1 + j)).Seats sgj := by
        simp only [Nat.add_right_comm i, Nat.add_assoc]
      rw [shift, show answers (i + 0) = answers i from rfl]
      split_ifs with playing refused
      · -- A robot that is playing stays among those in use.
        obtain ⟨kept, exactly⟩ := ih (i + 1) pool'
        refine ⟨kept, iff_of_false (fun seats => not_seated_taken idle (exactly.mp seats).1) ?_⟩
        rintro ⟨-, first, -⟩
        exact Bool.false_ne_true (first.1.symm.trans playing)
      · refine ⟨pool', iff_of_false (not_seated_taken idle) ?_⟩
        rintro ⟨-, first, -⟩
        exact refused.2 (first.2.1 refused.1)
      · obtain ⟨kept, exactly⟩ := ih (i + 1) (pool'.sit (List.mem_append_right _ (List.mem_singleton_self item))
          (answers i).roomSitChair)
        refine ⟨kept, exactly.trans ?_⟩
        have first : (answers i).Seats sgj ↔ (answers i).roomSitChair = true := by
          refine ⟨fun all => all.2.2, fun sits => ⟨Bool.not_eq_true _ ▸ playing, fun fruit => ?_, sits⟩⟩
          by_contra no
          exact refused ⟨fruit, no⟩
        rw [seated_sit_iff fresh idle, first, and_assoc]
        rfl

theorem enter_of_nil (answers : ℕ → Answer) (n i : ℕ) (here : m.freeList = []) : enter answers n i m = m := by
  induction n generalizing i with
  | zero => rfl
  | succ n ih =>
    rw [enter, getFreeAndroidUserItem_nil here]
    exact ih (i + 1)

/-- The tables that admit robots get one each while there are some. -/
theorem visit_spec {room : GameRoomInfo} (other : room.bairen = false) (chooseTableID : ℕ) (tables : List TableVisit)
    (pool : m.Pool) :
    (visit room chooseTableID tables m).Pool
      ∧ ((visit room chooseTableID tables m).Seated
        ↔ m.Seated ∧ ∀ v ∈ (tables.filter (·.admits room)).take m.freeList.length, (v.answers 0).roomSitChair = true) := by
  induction tables generalizing m with
  | nil => exact ⟨pool, (and_iff_left (by simp)).symm⟩
  | cons v tables ih =>
    rw [visit, if_neg (by rw [other]; exact Bool.false_ne_true)]
    split_ifs with admitted
    · rw [List.filter_cons_of_pos admitted]
      have need : ∃ n, (room.maxPlayerNum - v.curPlayerCount).toNat = n + 1 := by
        have := (Bool.and_eq_true_iff.mp admitted).2
        have := of_decide_eq_true this
        exact ⟨(room.maxPlayerNum - v.curPlayerCount).toNat - 1, by omega⟩
      obtain ⟨n, need⟩ := need
      cases here : m.freeList with
      | nil =>
        obtain ⟨kept, exactly⟩ := ih pool
        rw [enter_of_nil _ _ _ here]
        rw [here] at exactly
        exact ⟨kept, exactly⟩
      | cons item free =>
        obtain ⟨pool', fresh, idle⟩ := pool.taken here
        obtain ⟨kept, exactly⟩ := ih (pool'.sit (List.mem_append_right _ (List.mem_singleton_self item))
          (v.answers 0).roomSitChair)
        rw [need, enter, getFreeAndroidUserItem_cons here, List.length_cons, List.take_succ_cons, List.forall_mem_cons]
        refine ⟨kept, exactly.trans ?_⟩
        rw [seated_sit_iff fresh idle, and_assoc]
        rfl
    · rw [List.filter_cons_of_neg admitted]
      exact ih pool

/-- At tables of hundreds the first one that is chosen and admits robots gets all. -/
theorem visit_bairen {room : GameRoomInfo} (hundreds : room.bairen = true) (chooseTableID : ℕ) (tables : List TableVisit) :
    visit room chooseTableID tables m =
      match tables.find? fun v => chooseTableID = v.tableId ∧ v.admitsBairen room with
      | none => m
      | some v => enterBairen room.sgj v.answers (v.needBairen room).toNat 0 m := by
  induction tables with
  | nil => rfl
  | cons v tables ih =>
    rw [visit, if_pos hundreds]
    split_ifs with chosen
    · rw [List.find?_cons_of_pos (by simpa using chosen)]
    · rw [List.find?_cons_of_neg (by simpa using chosen), ih]

theorem onTimerCheckUserIn_spec (room : GameRoomInfo) (chooseTableID : ℕ) (tables : List TableVisit) (pool : m.Pool)
    (seats : m.Seated) :
    (m.onTimerCheckUserIn room chooseTableID tables).Pool
      ∧ ((m.onTimerCheckUserIn room chooseTableID tables).Seated
        ↔ m.TakesSeats (.onTimerCheckUserIn room chooseTableID tables)) := by
  rw [onTimerCheckUserIn, TakesSeats]
  cases stopped : room.stopped with
  | true => exact ⟨pool, iff_of_true seats nofun⟩
  | false =>
    rw [forall_prop_of_true rfl, if_neg Bool.false_ne_true]
    cases hundreds : room.bairen with
    | true =>
      rw [visit_bairen hundreds, if_pos rfl]
      cases chosen : tables.find? fun v => chooseTableID = v.tableId ∧ v.admitsBairen room with
      | none =>
        dsimp only
        rw [ite_self]
        exact ⟨pool, iff_of_true seats nofun⟩
      | some v =>
        simp only [Option.mem_some_iff, forall_eq']
        split_ifs with empty_
        · refine ⟨pool, iff_of_true seats fun i few => ?_⟩
          rw [empty_, List.length_nil, Nat.min_zero] at few
          exact absurd few (Nat.not_lt_zero i)
        · obtain ⟨kept, exactly⟩ := enterBairen_spec room.sgj v.answers (v.needBairen room).toNat 0 pool
          refine ⟨kept, exactly.trans ((and_iff_right seats).trans ?_)⟩
          simp only [Nat.zero_add]
    | false =>
      rw [if_neg Bool.false_ne_true]
      split_ifs with empty_
      · refine ⟨pool, iff_of_true seats ?_⟩
        rw [empty_]
        exact nofun
      · obtain ⟨kept, exactly⟩ := visit_spec hundreds chooseTableID tables pool
        exact ⟨kept, exactly.trans (and_iff_right seats)⟩

/-! ## Runs -/

theorem poolCall_iff (call : PoolCall) (inv : m.Pool ∧ m.Seated) :
    (m.step call).Pool ∧ ((m.step call).Seated ↔ m.TakesSeats call) := by
  obtain ⟨pool, seats⟩ := inv
  cases call with
  | addAndroid userId => exact ⟨pool.addAndroid userId, iff_of_true seats trivial⟩
  | onTimerCheckUserIn room chooseTableID tables => exact onTimerCheckUserIn_spec room chooseTableID tables pool seats
  | deleteAndroidUserItem userId =>
    obtain ⟨pool, seats⟩ := pool.deleteAndroidUserItem seats userId
    exact ⟨pool, iff_of_true seats trivial⟩

/-- The robots are accounted for in every state of a run exactly if every robot taken from the free list gets a seat. -/
theorem accounted_iff_takesSeats (calls : List PoolCall) :
    Each step (fun m call => (m.step call).Accounted) empty calls ↔ Each step TakesSeats empty calls := by
  have one (m : AndroidUserManager) (call : PoolCall) (inv : m.Pool ∧ m.Seated) :
      (m.step call).Accounted ↔ m.TakesSeats call := by
    obtain ⟨pool, exactly⟩ := poolCall_iff call inv
    exact accounted_iff.trans ((and_iff_right pool.once).trans exactly)
  refine each_iff (fun m => m.Pool ∧ m.Seated) (fun m call inv _ => one m call inv) (fun m call inv _ takes => ?_)
    pool_empty (each_of_forall (fun _ _ => trivial) empty calls)
  obtain ⟨pool, exactly⟩ := poolCall_iff call inv
  exact ⟨pool, exactly.mpr takes⟩

/-- A table of hundreds that turns its only robot away. -/
def turnedAway : List PoolCall :=
  [.addAndroid 7, .onTimerCheckUserIn ⟨false, true, false, 100, true, 0⟩ 0 [⟨0, 1, 0, 10, false, true, fun _ => ⟨false, true, false⟩⟩]]

/-- A robot that `RoomSitChair` does not seat is in use without a seat. -/
theorem robot_turned_away : ¬Each step (fun m call => (m.step call).Accounted) empty turnedAway := by
  rintro ⟨-, accounted, -⟩
  exact absurd (accounted.seats 0 (by decide)) (by decide)

end AndroidUserManager

end H5Server.Framework
