import Mathlib.Data.List.Nodup
import Mathlib.Data.Nat.Basic
import Mathlib.Logic.Basic

/-! # The banker queue of Ebg (`bankemanager.cpp`)

Players apply to be the banker and stand in a queue. Before each round the table checks the banker it has, takes the
first in the queue whose score is high enough, and copies what is shown of him.
-/

namespace H5Server.Ebg

/-- What is shown of a user; his score changes and is kept apart. -/
structure UserInfo where
  userId : Int
  chairId : Int
  headerId : Int
  nickName : String
deriving DecidableEq, Repr

/-- `BankeManager`, with users in place of pointers to them. -/
structure BankeManager (User : Type) where
  wCurrentBanker : Int := 1000000
  wCurrentBankerChairID : Int
  wBankerTimes : Int := 0
  lBankerScore : Int := 1000000
  lBankerCurrGameScore : Int := 1000000
  headId : Int := -1
  bankNickName : String := ""
  enableSysBanker : Bool := true
  maxMultiplier : Int := 1
  isSysBanker : Bool := true
  continueBanker : Bool := true
  minBankerScore : Nat
  mpCurrentBanker : Option User := none
  vctBankerList : List User := []

namespace BankeManager

variable {User : Type} [DecidableEq User] (info : User → UserInfo) (scores : User → BitVec 64)

/-- `GetUserScore() >= m_minBankerScore`: an `int64_t` against a `uint64_t`, so both as unsigned numbers. -/
def scoreEnough (manager : BankeManager User) (user : User) : Bool := manager.minBankerScore ≤ (scores user).toNat

def cancelBanker (manager : BankeManager User) (user : User) : BankeManager User × Bool :=
  if user ∈ manager.vctBankerList then
    ({ manager with vctBankerList := manager.vctBankerList.erase user }, true)
  else (manager, false)

def applyBanker (manager : BankeManager User) (user : User) : BankeManager User × Bool :=
  if manager.enableSysBanker = false then (manager, false)
  else if user ∈ manager.vctBankerList then (manager, false)
  else if ¬manager.scoreEnough scores user then (manager, false)
  else ({ manager with vctBankerList := manager.vctBankerList ++ [user] }, true)

/-- `UpdateBankerData`: the banker is cleared with the rest before it is looked at. -/
def updateBankerData (manager : BankeManager User) : BankeManager User :=
  let manager := { manager with
    wCurrentBanker := -1
    lBankerCurrGameScore := 1000000
    lBankerScore := 1000000
    maxMultiplier := 1
    enableSysBanker := true
    mpCurrentBanker := none
    wBankerTimes := 0
    bankNickName := "财神系统庄"
    isSysBanker := true
    wCurrentBankerChairID := -1
    headId := -1 }
  match manager.mpCurrentBanker with
  | none => manager
  | some user => { manager with
    lBankerCurrGameScore := (scores user).toInt
    lBankerScore := (scores user).toInt
    wCurrentBanker := (info user).userId
    wCurrentBankerChairID := (info user).chairId
    bankNickName := (info user).nickName
    headId := (info user).headerId
    isSysBanker := false
    continueBanker := true }

/-- The loop of `TryToBeBanker`. -/
def takeBanker (manager : BankeManager User) : BankeManager User :=
  match manager.vctBankerList.find? (manager.scoreEnough scores) with
  | some user =>
    { manager with mpCurrentBanker := some user, vctBankerList := manager.vctBankerList.erase user }
  | none => manager

def tryToBeBanker (manager : BankeManager User) : BankeManager User :=
  let manager := if manager.vctBankerList ≠ [] then takeBanker scores { manager with wBankerTimes := 0 } else manager
  updateBankerData info scores manager

def updateBankerTimes (manager : BankeManager User) : BankeManager User :=
  { manager with wBankerTimes := manager.wBankerTimes + 1 }

def checkBanker (manager : BankeManager User) : BankeManager User × Nat :=
  match manager.mpCurrentBanker with
  | some user =>
    if manager.continueBanker = false then ({ manager with mpCurrentBanker := none }, 3)
    else if 20 < manager.wBankerTimes then ({ manager with mpCurrentBanker := none }, 1)
    else if ¬manager.scoreEnough scores user then ({ manager with mpCurrentBanker := none }, 2)
    else (manager, 0)
  | none => if manager.vctBankerList ≠ [] then (manager, 4) else (manager, 0)

def setContinueBanker (manager : BankeManager User) (continueBanker : Bool) : BankeManager User :=
  { manager with continueBanker }

/-- The banker change of `GameTimerStart`. -/
def gameTimerStart (manager : BankeManager User) : BankeManager User :=
  let (manager, cause) := manager.checkBanker scores
  if cause ≠ 0 then updateBankerData info scores (tryToBeBanker info scores manager) else manager

end BankeManager

/-! ## Runs -/

/-- A call of the manager, by the timer or a message handler, or a change of the scores. -/
inductive Call (User : Type) where
  | cancelBanker (user : User)
  | applyBanker (user : User)
  | tryToBeBanker
  | updateBankerData
  | updateBankerTimes
  | checkBanker
  | setContinueBanker (continueBanker : Bool)
  | setScores (scores : User → BitVec 64)

/-- The manager with the scores of the users. -/
structure Table (User : Type) where
  manager : BankeManager User
  scores : User → BitVec 64

variable {User : Type} [DecidableEq User] (info : User → UserInfo)

def Table.call (table : Table User) : Call User → Table User
  | .cancelBanker user => { table with manager := (table.manager.cancelBanker user).1 }
  | .applyBanker user => { table with manager := (table.manager.applyBanker table.scores user).1 }
  | .tryToBeBanker => { table with manager := table.manager.tryToBeBanker info table.scores }
  | .updateBankerData => { table with manager := table.manager.updateBankerData info table.scores }
  | .updateBankerTimes => { table with manager := table.manager.updateBankerTimes }
  | .checkBanker => { table with manager := (table.manager.checkBanker table.scores).1 }
  | .setContinueBanker continueBanker => { table with manager := table.manager.setContinueBanker continueBanker }
  | .setScores scores => { table with scores }

def Table.run (table : Table User) (calls : List (Call User)) : Table User := calls.foldl (Table.call info) table

/-- What the constructor leaves, which says nothing of the chair. -/
def Table.start (minBankerScore : Nat) (chairId : Int) (scores : User → BitVec 64) : Table User :=
  ⟨{ minBankerScore, wCurrentBankerChairID := chairId }, scores⟩

/-- Nobody is queued twice, or queued while he is the banker. -/
structure Table.Orderly (table : Table User) : Prop where
  nodup : table.manager.vctBankerList.Nodup
  apart : ∀ user, table.manager.mpCurrentBanker = some user → user ∉ table.manager.vctBankerList

/-- Who is queued stays there until he cancels or becomes the banker, and who is accepted is queued. -/
structure Keeps (table : Table User) (call : Call User) : Prop where
  stays : ∀ user ∈ table.manager.vctBankerList, user ∈ (table.call info call).manager.vctBankerList ∨
    call = .cancelBanker user ∨ (table.call info call).manager.mpCurrentBanker = some user
  accepted : ∀ user, call = .applyBanker user → (table.manager.applyBanker table.scores user).2 = true →
    user ∈ (table.call info call).manager.vctBankerList

/-- After `TryToBeBanker` the first in the queue with a score high enough is the banker that the fields describe. -/
def Promotes (table : Table User) (call : Call User) : Prop :=
  call = .tryToBeBanker → ∀ front user back, table.manager.vctBankerList = front ++ user :: back →
    (∀ other ∈ front, (table.scores other).toInt < table.manager.minBankerScore) →
    (table.manager.minBankerScore : Int) ≤ (table.scores user).toInt →
    let manager := (table.call info call).manager
    manager.mpCurrentBanker = some user ∧ manager.wCurrentBanker = (info user).userId ∧
      manager.isSysBanker = false ∧ manager.wCurrentBankerChairID = (info user).chairId

/-- A run in which every state is orderly and every call does what it should. -/
inductive LawfulRun : Table User → List (Call User) → Prop
  | nil {table : Table User} (orderly : table.Orderly) : LawfulRun table []
  | cons {table : Table User} {call : Call User} {calls : List (Call User)} (orderly : table.Orderly)
      (keeps : Keeps info table call) (promotes : Promotes info table call)
      (rest : LawfulRun (table.call info call) calls) : LawfulRun table (call :: calls)

/-- No call of `TryToBeBanker` finds anyone in the queue whose score it takes for high enough. -/
inductive NobodyTaken : Table User → List (Call User) → Prop
  | nil {table : Table User} : NobodyTaken table []
  | cons {table : Table User} {call : Call User} {calls : List (Call User)}
      (none_ : call = .tryToBeBanker → ∀ user ∈ table.manager.vctBankerList,
        table.manager.scoreEnough table.scores user = false)
      (rest : NobodyTaken (table.call info call) calls) : NobodyTaken table (call :: calls)

/-! ## One call -/

variable {info} {table : Table User}

omit [DecidableEq User] in
theorem updateBankerData_mpCurrentBanker (manager : BankeManager User) (scores : User → BitVec 64) :
    (manager.updateBankerData info scores).mpCurrentBanker = none ∧
      (manager.updateBankerData info scores).vctBankerList = manager.vctBankerList := ⟨rfl, rfl⟩

/-- `TryToBeBanker` ends without a banker; who was taken is out of the queue. -/
theorem tryToBeBanker_eq (manager : BankeManager User) (scores : User → BitVec 64) :
    (manager.tryToBeBanker info scores).mpCurrentBanker = none ∧
      (manager.tryToBeBanker info scores).vctBankerList =
        match manager.vctBankerList.find? (manager.scoreEnough scores) with
        | some user => manager.vctBankerList.erase user
        | none => manager.vctBankerList := by
  refine ⟨rfl, ?_⟩
  rw [BankeManager.tryToBeBanker, (updateBankerData_mpCurrentBanker _ _).2]
  split_ifs with queued
  · have same : BankeManager.scoreEnough scores { manager with wBankerTimes := 0 } = manager.scoreEnough scores := rfl
    rw [BankeManager.takeBanker, same]
    cases manager.vctBankerList.find? (manager.scoreEnough scores) <;> rfl
  · rw [not_not.mp queued]
    rfl

omit [DecidableEq User] in
theorem checkBanker_vctBankerList (manager : BankeManager User) (scores : User → BitVec 64) :
    (manager.checkBanker scores).1.vctBankerList = manager.vctBankerList := by
  rw [BankeManager.checkBanker]
  split
  · split_ifs <;> rfl
  · split_ifs <;> rfl

/-- There never is a banker. -/
theorem mpCurrentBanker_call (none_ : table.manager.mpCurrentBanker = none) (call : Call User) :
    (table.call info call).manager.mpCurrentBanker = none := by
  cases call with
  | cancelBanker user =>
    dsimp only [Table.call, BankeManager.cancelBanker]
    split_ifs <;> exact none_
  | applyBanker user =>
    dsimp only [Table.call, BankeManager.applyBanker]
    split_ifs <;> exact none_
  | tryToBeBanker => rfl
  | updateBankerData => rfl
  | updateBankerTimes => exact none_
  | checkBanker =>
    dsimp only [Table.call, BankeManager.checkBanker]
    rw [none_]
    dsimp only
    split_ifs <;> exact none_
  | setContinueBanker continueBanker => exact none_
  | setScores scores => exact none_

/-- Nobody is queued twice after a call. -/
theorem nodup_call (nodup : table.manager.vctBankerList.Nodup) (call : Call User) :
    (table.call info call).manager.vctBankerList.Nodup := by
  cases call with
  | cancelBanker user =>
    dsimp only [Table.call, BankeManager.cancelBanker]
    split_ifs
    · exact nodup.erase user
    · exact nodup
  | applyBanker user =>
    dsimp only [Table.call, BankeManager.applyBanker]
    split_ifs with enabled queued enough
    · exact nodup
    · exact nodup
    · exact List.nodup_append.mpr ⟨nodup, List.nodup_singleton user, by
        intro other present last same
        rw [List.mem_singleton.mp same]
        rintro rfl
        exact queued present⟩
    · exact nodup
  | tryToBeBanker =>
    change (table.manager.tryToBeBanker info table.scores).vctBankerList.Nodup
    rw [(tryToBeBanker_eq _ _).2]
    split
    · exact nodup.erase _
    · exact nodup
  | updateBankerData => exact nodup
  | updateBankerTimes => exact nodup
  | checkBanker =>
    change ((table.manager.checkBanker table.scores).1).vctBankerList.Nodup
    rw [checkBanker_vctBankerList]
    exact nodup
  | setContinueBanker continueBanker => exact nodup
  | setScores scores => exact nodup

/-- A queued user leaves the queue when he cancels, and when he is taken. -/
theorem stays_call (call : Call User) {user : User} (queued : user ∈ table.manager.vctBankerList)
    (nobody : call = .tryToBeBanker → ∀ other ∈ table.manager.vctBankerList,
      table.manager.scoreEnough table.scores other = false) :
    user ∈ (table.call info call).manager.vctBankerList ∨ call = .cancelBanker user := by
  cases call with
  | cancelBanker other =>
    dsimp only [Table.call, BankeManager.cancelBanker]
    rcases eq_or_ne other user with rfl | different
    · exact .inr rfl
    · apply Or.inl
      split_ifs
      · exact (List.mem_erase_of_ne different.symm).mpr queued
      · exact queued
  | applyBanker other =>
    apply Or.inl
    dsimp only [Table.call, BankeManager.applyBanker]
    split_ifs
    · exact queued
    · exact queued
    · exact List.mem_append_left _ queued
    · exact queued
  | tryToBeBanker =>
    apply Or.inl
    change user ∈ (table.manager.tryToBeBanker info table.scores).vctBankerList
    have none_ : table.manager.vctBankerList.find? (table.manager.scoreEnough table.scores) = none :=
      List.find?_eq_none.mpr fun other present => by rw [nobody rfl other present]; exact Bool.false_ne_true
    rw [(tryToBeBanker_eq _ _).2, none_]
    exact queued
  | updateBankerData => exact .inl queued
  | updateBankerTimes => exact .inl queued
  | checkBanker =>
    apply Or.inl
    change user ∈ ((table.manager.checkBanker table.scores).1).vctBankerList
    rw [checkBanker_vctBankerList]
    exact queued
  | setContinueBanker continueBanker => exact .inl queued
  | setScores scores => exact .inl queued

theorem accepted_call {user : User} (accepted : (table.manager.applyBanker table.scores user).2 = true) :
    user ∈ (table.call info (.applyBanker user)).manager.vctBankerList := by
  dsimp only [Table.call, BankeManager.applyBanker] at *
  split_ifs at *
  exact List.mem_append_right _ (List.mem_singleton_self user)

/-- Whoever `TryToBeBanker` takes is lost. -/
theorem not_keeps_of_taken (nodup : table.manager.vctBankerList.Nodup) {user : User}
    (queued : user ∈ table.manager.vctBankerList) (enough : table.manager.scoreEnough table.scores user = true) :
    ¬Keeps info table .tryToBeBanker := by
  rintro ⟨stays, -⟩
  obtain ⟨first, found⟩ := Option.isSome_iff_exists.mp (List.find?_isSome.mpr ⟨user, queued, enough⟩)
  obtain inside | cancelled | banker := stays first (List.mem_of_find?_eq_some found)
  · change first ∈ (table.manager.tryToBeBanker info table.scores).vctBankerList at inside
    rw [(tryToBeBanker_eq _ _).2, found] at inside
    exact nodup.not_mem_erase inside
  · exact absurd cancelled nofun
  · exact absurd banker nofun

omit [DecidableEq User] in
/-- A score that is high enough as a signed number is so as an unsigned one. -/
theorem scoreEnough_of_toInt (manager : BankeManager User) {scores : User → BitVec 64} {user : User}
    (enough : (manager.minBankerScore : Int) ≤ (scores user).toInt) : manager.scoreEnough scores user = true := by
  rw [BankeManager.scoreEnough, decide_eq_true_eq]
  rw [BitVec.toInt] at enough
  split_ifs at enough <;> omega

/-! ## Whole runs -/

theorem lawfulRun_iff_of_orderly (nodup : table.manager.vctBankerList.Nodup)
    (none_ : table.manager.mpCurrentBanker = none) (calls : List (Call User)) :
    LawfulRun info table calls ↔ NobodyTaken info table calls := by
  have orderly : table.Orderly :=
    ⟨nodup, fun user banker => absurd (none_.symm.trans banker) (Option.some_ne_none _).symm⟩
  induction calls generalizing table with
  | nil => exact iff_of_true (.nil orderly) .nil
  | cons call calls ih =>
    have nodup' : (table.call info call).manager.vctBankerList.Nodup := nodup_call nodup call
    have none' : (table.call info call).manager.mpCurrentBanker = none := mpCurrentBanker_call none_ call
    have rest_iff := ih nodup' none'
      ⟨nodup', fun user banker => absurd (none'.symm.trans banker) (Option.some_ne_none _).symm⟩
    constructor
    · rintro (_ | ⟨-, keeps, -, rest⟩)
      refine .cons ?_ (rest_iff.mp rest)
      rintro rfl user queued
      by_contra enough
      exact not_keeps_of_taken nodup queued (eq_true_of_ne_false enough) keeps
    · rintro (_ | ⟨nobody, rest⟩)
      refine .cons orderly ⟨?_, ?_⟩ ?_ (rest_iff.mpr rest)
      · intro user queued
        exact (stays_call call queued nobody).imp_right .inl
      · rintro user rfl accepted
        exact accepted_call accepted
      · rintro rfl front user back split_ - enough
        have queued : user ∈ table.manager.vctBankerList := by
          rw [split_]
          exact List.mem_append_right _ List.mem_cons_self
        exact absurd (scoreEnough_of_toInt _ enough) (ne_true_of_eq_false (nobody rfl user queued))

/-- A run from the start is as it should be exactly when `TryToBeBanker` never finds anyone to take. -/
theorem lawfulRun_iff (minBankerScore : Nat) (chairId : Int) (scores : User → BitVec 64) (calls : List (Call User)) :
    LawfulRun info (Table.start minBankerScore chairId scores) calls ↔
      NobodyTaken info (Table.start minBankerScore chairId scores) calls :=
  lawfulRun_iff_of_orderly List.nodup_nil rfl calls

/-- One round start after an application the applicant is not queued any more, and nobody is the banker. -/
theorem applicant_lost :
    let info : Unit → UserInfo := fun _ => ⟨1, 0, 0, ""⟩
    let table := (Table.start 100 0 fun _ => 100#64).run info [.applyBanker ()]
    table.manager.vctBankerList = [()] ∧
      (table.manager.gameTimerStart info table.scores).vctBankerList = [] ∧
      (table.manager.gameTimerStart info table.scores).mpCurrentBanker = none ∧
      ¬LawfulRun info (Table.start 100 0 fun _ => 100#64) [.applyBanker (), .checkBanker, .tryToBeBanker] := by
  refine ⟨rfl, rfl, rfl, ?_⟩
  rintro (_ | ⟨-, -, -, _ | ⟨-, -, -, _ | ⟨-, ⟨stays, -⟩, -, -⟩⟩⟩)
  obtain inside | cancelled | banker := stays () List.mem_cons_self
  · exact absurd inside List.not_mem_nil
  · exact absurd cancelled nofun
  · exact absurd banker nofun

end H5Server.Ebg
