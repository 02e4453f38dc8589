import H5Server.Lib.Runs
import H5Server.Order.Amount
import Mathlib.Algebra.Ring.Int.Defs
import Mathlib.Data.Int.DivMod
import Mathlib.Logic.Function.Basic

/-! # Orders (`AddOrderScore`, `SubOrderScore`)

Order servers share a database, and each handles many requests at once. A request goes from one command to the next, and
anything may happen in between. A command may be refused, or throw; it may also be carried out and throw all the same. The
transactions are left out: no command is given the session, so that nothing is rolled back. Whether the locks of a user are
obtained is not modelled but comes from outside.
-/

namespace H5Server.Order

/-- `eApiErrorCode`, as far as an order sets it -/
inductive ApiErrorCode
  | noError
  | insideErrorOrNonExcutive
  | addScoreHandleUserNotExistsError
  | addScoreHandleInsertDataError
  | addScoreHandleInsertDataOrderIDExists
  | addScoreHandleInsertDataOverScore
  | addScoreHandleInsertDataOutTime
  | subScoreTooLargeError
  | subScoreHandleUserNotExistsError
  | subScoreHandleInsertDataError
  | subScoreHandleInsertOrderIDExists
  | subScoreHandleInsertDataUserInGaming
  | subScoreHandleInsertDataOverScore
  | subScoreHandleInsertDataOutTime
  | subScoreHandleUserOpScore
  deriving DecidableEq, Repr

namespace OpType

def userNotExistsError : OpType → ApiErrorCode
  | opAddScore => .addScoreHandleUserNotExistsError
  | opSubScore => .subScoreHandleUserNotExistsError

def insertDataError : OpType → ApiErrorCode
  | opAddScore => .addScoreHandleInsertDataError
  | opSubScore => .subScoreHandleInsertDataError

def orderIDExists : OpType → ApiErrorCode
  | opAddScore => .addScoreHandleInsertDataOrderIDExists
  | opSubScore => .subScoreHandleInsertOrderIDExists

def outTime : OpType → ApiErrorCode
  | opAddScore => .addScoreHandleInsertDataOutTime
  | opSubScore => .subScoreHandleInsertDataOutTime

end OpType

/-- What becomes of a command. -/
inductive Answer
  | done
  | refused
  /-- an exception, and nothing is done -/
  | thrown
  /-- an exception, though the command is carried out -/
  | lost
  deriving DecidableEq, Repr

/-- `eAuditType` -/
inductive AuditType
  | pass | auditOK | error | auditNo
  deriving DecidableEq, Repr

structure Config where
  /-- `_USE_SCORE_ORDERS_`: one table for both kinds of orders -/
  useScoreOrders : Bool
  addtime : ℤ
  auditThreshold : ℤ
  minscore : ℤ

structure GameUser where
  score : ℤ
  addscoretimes : ℤ
  alladdscore : ℤ
  subscoretimes : ℤ
  allsubscore : ℤ
  currency : ℤ
  deriving DecidableEq, Repr

structure ScoreOrder where
  opType : OpType
  orderId : String
  userId : ℤ
  agentId : ℤ
  score : ℤ
  deriving DecidableEq, Repr

structure ScoreRecord where
  userId : ℤ
  changetype : ℤ
  changemoney : ℤ
  beforechange : ℤ
  afterchange : ℤ
  deriving DecidableEq, Repr

/-- The command that comes next. -/
inductive Stage
  | entering | started | found | allowed | locked | guarded | fresh | admitted
  | inserted | paid | recorded | noted | settled
  | leaving (errcode : ApiErrorCode)
  | left (errcode : ApiErrorCode)
  deriving DecidableEq, Repr

structure Task where
  server : ℕ
  opType : OpType
  account : String
  agentId : ℤ
  /-- `cooperationtype` is `buyScore` -/
  buyScore : Bool
  score : ℤ
  orderId : String
  stage : Stage
  userId : ℤ
  beforeScore : ℤ
  deriving DecidableEq, Repr

structure World where
  gameUser : ℤ → GameUser
  /-- the user of an agent with an account -/
  findOne : ℤ → String → Option ℤ
  proxyInfo : ℤ → ℤ
  scoreOrders : List ScoreOrder
  userScoreRecord : List ScoreRecord
  userScoreAddLast : ℤ → Option ℤ
  auditForm : ℤ → Option AuditType
  /-- the orders whose keys are in Redis -/
  cachedOrders : List (OpType × String)
  online : ℤ → Bool
  /-- the agents' scores, as each server has read them -/
  agentInfo : ℕ → ℤ → ℤ
  updateScoreMutex : ℕ → Option ℕ
  tasks : List Task
  /-- the orders booked with the users, and with the agents -/
  payments : List ScoreOrder
  agentPayments : List ScoreOrder
  /-- what a user's games have changed -/
  won : ℤ → ℤ
  /-- how often a user's withdrawals were approved, and how often one passed that needed it -/
  approvals : ℤ → ℕ
  passed : ℤ → ℕ

namespace ScoreOrder

def signed (order : ScoreOrder) : ℤ :=
  match order.opType with
  | .opAddScore => order.score
  | .opSubScore => -order.score

/-- What an index of the table holds once. -/
def key (cfg : Config) (order : ScoreOrder) : Option OpType × String :=
  (if cfg.useScoreOrders then none else some order.opType, order.orderId)

end ScoreOrder

def GameUser.book (user : GameUser) (opType : OpType) (score : ℤ) : GameUser :=
  match opType with
  | .opAddScore => { user with
      score := user.score + score, addscoretimes := user.addscoretimes + 1, alladdscore := user.alladdscore + score }
  | .opSubScore => { user with
      score := user.score + -score, subscoretimes := user.subscoretimes + 1, allsubscore := user.allsubscore + score }

namespace Task

variable (t : Task)

def order : ScoreOrder := ⟨t.opType, t.orderId, t.userId, t.agentId, t.score⟩

def goOn (stage : Stage) : Task := { t with stage }

def leave (errcode : ApiErrorCode) : Task := { t with stage := .leaving errcode }

def record : ScoreRecord :=
  { userId := t.userId
    changetype := match t.opType with
      | .opAddScore => 1
      | .opSubScore => 2
    changemoney := t.order.signed
    beforechange := t.beforeScore
    afterchange := t.beforeScore + t.order.signed }

end Task

/-! ## Withdrawals that need an approval -/

variable (cfg : Config)

def needAudit (curscore lastAddScoreValue : ℤ) : Bool :=
  let tempScore := curscore - lastAddScoreValue
  let addtime := (tempScore.tdiv lastAddScoreValue).bmod (2 ^ 32)
  cfg.auditThreshold ≤ tempScore || (cfg.addtime ≤ addtime && cfg.minscore ≤ curscore)

/-- `hugeProfitCheck`, with the row of the audit table. A division by zero ends the server. -/
def hugeProfitCheck (curscore : ℤ) (lastAddScore : Option ℤ) (audit : Option AuditType) : Option (Bool × Option AuditType) :=
  if curscore < cfg.minscore then some (true, audit)
  else
    match lastAddScore with
    | none => some (true, audit)
    | some lastAddScoreValue =>
      if lastAddScoreValue = 0 then none
      else
        match audit with
        | none => some (if needAudit cfg curscore lastAddScoreValue then (false, some .error) else (true, none))
        | some .pass => some (if needAudit cfg curscore lastAddScoreValue then (false, some .error) else (true, some .pass))
        | some .auditOK => some (true, some .pass)
        | some .error | some .auditNo => some (false, some .error)

/-- The check looked at the user's last deposit, and asked for an approval. -/
def asksAudit (curscore : ℤ) (lastAddScore : Option ℤ) : Bool :=
  cfg.minscore ≤ curscore && lastAddScore.any (needAudit cfg curscore)

/-! ## Commands -/

namespace World

variable (w : World) (t : Task) (answer : Answer)

/-- A command that leaves the database as it is. -/
def ask (refusal : ApiErrorCode) (next : Task) : World × Task :=
  match answer with
  | .done => (w, next)
  | .refused => (w, t.leave refusal)
  | .thrown | .lost => (w, t.leave .insideErrorOrNonExcutive)

/-- A command that makes `w'` of the database when it is carried out. -/
def tell (w' : World) (refusal : ApiErrorCode) (next : Task) : World × Task :=
  match answer with
  | .done => (w', next)
  | .refused => (w, t.leave refusal)
  | .thrown => (w, t.leave .insideErrorOrNonExcutive)
  | .lost => (w', t.leave .insideErrorOrNonExcutive)

def findUser : World × Task :=
  match w.findOne t.agentId t.account with
  | none => w.ask t answer .insideErrorOrNonExcutive (t.leave t.opType.userNotExistsError)
  | some userId =>
    w.ask t answer .insideErrorOrNonExcutive { t with
      userId
      beforeScore := (w.gameUser userId).score
      stage := match t.opType with
        | .opAddScore => .locked
        | .opSubScore => .found }

/-- The checks of a withdrawal before its lock is taken. -/
def checkScore : Option (World × Task) :=
  if t.beforeScore < 0 then some (w, t.leave .subScoreHandleInsertDataError)
  else do
    let (ok, audit) ← hugeProfitCheck cfg t.beforeScore (w.userScoreAddLast t.userId) (w.auditForm t.userId)
    let asked := asksAudit cfg t.beforeScore (w.userScoreAddLast t.userId)
    let checked := { w with
      auditForm := Function.update w.auditForm t.userId audit
      passed := if ok && asked then Function.update w.passed t.userId (w.passed t.userId + 1) else w.passed }
    some (w.tell t answer checked .insideErrorOrNonExcutive
      (if !ok && (w.gameUser t.userId).currency = 0 then t.leave .subScoreTooLargeError else t.goOn .allowed))

/-- It catches what is thrown. -/
def lockUserScore : World × Task :=
  match answer with
  | .done => (w, t.goOn .locked)
  | _ => (w, t.leave .subScoreHandleUserOpScore)

def redisLock : World × Task := w.ask t answer t.opType.outTime (t.goOn .guarded)

def existsOrder : World × Task :=
  w.ask t answer .insideErrorOrNonExcutive <|
    if (t.opType, t.orderId) ∈ w.cachedOrders then t.leave t.opType.orderIDExists
    else
      match t.opType with
      | .opAddScore =>
        if t.buyScore && w.agentInfo t.server t.agentId < t.score then t.leave .addScoreHandleInsertDataOverScore
        else t.goOn .admitted
      | .opSubScore => t.goOn .fresh

def existsUserOnlineInfo : World × Task :=
  w.ask t answer .insideErrorOrNonExcutive <|
    if w.online t.userId then t.leave .subScoreHandleInsertDataUserInGaming
    else if t.beforeScore < t.score then t.leave .subScoreHandleInsertDataOverScore
    else t.goOn .admitted

/-- The index of the table refuses an order id that is there. -/
def insertOrder : World × Task :=
  if w.scoreOrders.any (fun order => decide (order.key cfg = t.order.key cfg)) then
    w.ask t answer t.opType.insertDataError (t.leave t.opType.orderIDExists)
  else
    w.tell t answer { w with scoreOrders := w.scoreOrders ++ [t.order] } t.opType.insertDataError (t.goOn .inserted)

def updateUser : World × Task :=
  w.tell t answer { w with
    gameUser := Function.update w.gameUser t.userId ((w.gameUser t.userId).book t.opType t.score)
    payments := w.payments ++ [t.order] } t.opType.insertDataError (t.goOn .paid)

def insertRecord : World × Task :=
  w.tell t answer { w with userScoreRecord := w.userScoreRecord ++ [t.record] } t.opType.insertDataError (t.goOn .recorded)

/-- The last deposit is noted; that it is not is only logged. -/
def updateAddLast : World × Task :=
  match t.opType with
  | .opSubScore => (w, t.goOn .noted)
  | .opAddScore =>
    let noted := { w with
      userScoreAddLast := Function.update w.userScoreAddLast t.userId (some (t.beforeScore + t.score)) }
    match answer with
    | .refused => (w, t.goOn .noted)
    | answer => w.tell t answer noted .insideErrorOrNonExcutive (t.goOn .noted)

/-- A deposit gets the agent's new score back, a withdrawal the old one. -/
def updateAgent : World × Task :=
  if t.buyScore then
    let before := w.proxyInfo t.agentId
    let after := before - t.order.signed
    let moved := { w with
      proxyInfo := Function.update w.proxyInfo t.agentId after, agentPayments := w.agentPayments ++ [t.order] }
    let seen := match t.opType with
      | .opAddScore => after
      | .opSubScore => before
    match answer with
    | .done => ({ moved with
        agentInfo := Function.update w.agentInfo t.server (Function.update (w.agentInfo t.server) t.agentId seen) },
        t.goOn .settled)
    | answer => w.tell t answer moved t.opType.insertDataError (t.goOn .settled)
  else (w, t.goOn .settled)

/-- The key is set in Redis; that it is not goes unnoticed. -/
def setOrder : World × Task :=
  match answer with
  | .refused => (w, t.leave .noError)
  | answer =>
    w.tell t answer { w with cachedOrders := (t.opType, t.orderId) :: w.cachedOrders } .insideErrorOrNonExcutive
      (t.leave .noError)

/-- The next command of a request. A withdrawal waits for the mutex of its server first, and gives it back at the end. -/
def perform (i : ℕ) : Option (World × Task) :=
  match t.stage with
  | .entering =>
    match w.updateScoreMutex t.server with
    | none => some ({ w with updateScoreMutex := Function.update w.updateScoreMutex t.server (some i) }, t.goOn .started)
    | some _ => none
  | .started => some (w.findUser t answer)
  | .found => w.checkScore cfg t answer
  | .allowed => some (w.lockUserScore t answer)
  | .locked => some (w.redisLock t answer)
  | .guarded => some (w.existsOrder t answer)
  | .fresh => some (w.existsUserOnlineInfo t answer)
  | .admitted => some (w.insertOrder cfg t answer)
  | .inserted => some (w.updateUser t answer)
  | .paid => some (w.insertRecord t answer)
  | .recorded => some (w.updateAddLast t answer)
  | .noted => some (w.updateAgent t answer)
  | .settled => some (w.setOrder t answer)
  | .leaving errcode =>
    match t.opType with
    | .opAddScore => some (w, t.goOn (.left errcode))
    | .opSubScore =>
      some ({ w with updateScoreMutex := Function.update w.updateScoreMutex t.server none }, t.goOn (.left errcode))
  | .left _ => none

end World

/-! ## Steps -/

inductive Event
  | request (server : ℕ) (opType : OpType) (account : String) (agentId : ℤ) (buyScore : Bool) (score : ℤ) (orderId : String)
  | perform (i : ℕ) (answer : Answer)
  | game (userId delta : ℤ)
  | setOnline (userId : ℤ) (online : Bool)
  /-- somebody decides about a user's withdrawals -/
  | audit (userId : ℤ) (status : AuditType)
  /-- the key of an order runs out -/
  | expire (cached : OpType × String)
  | refreshAgentInfo (server : ℕ)

def step (w : World) : Event → Option World
  | .request server opType account agentId buyScore score orderId =>
    let stage := match opType with
      | .opAddScore => .started
      | .opSubScore => .entering
    some { w with tasks := w.tasks ++ [⟨server, opType, account, agentId, buyScore, score, orderId, stage, 0, 0⟩] }
  | .perform i answer => do
    let t ← w.tasks[i]?
    let (w', t') ← w.perform cfg t answer i
    some { w' with tasks := w.tasks.set i t' }
  | .game userId delta => some { w with
      gameUser := Function.update w.gameUser userId
        { w.gameUser userId with score := (w.gameUser userId).score + delta }
      won := Function.update w.won userId (w.won userId + delta) }
  | .setOnline userId online => some { w with online := Function.update w.online userId online }
  | .audit userId status => some { w with
      auditForm := Function.update w.auditForm userId (some status)
      approvals := if status = .auditOK then Function.update w.approvals userId (w.approvals userId + 1) else w.approvals }
  | .expire cached => some { w with cachedOrders := w.cachedOrders.filter (· ≠ cached) }
  | .refreshAgentInfo server => some { w with agentInfo := Function.update w.agentInfo server w.proxyInfo }

/-- No order has been made. -/
def World.start (gameUser : ℤ → GameUser) (findOne : ℤ → String → Option ℤ) (proxyInfo : ℤ → ℤ)
    (userScoreAddLast : ℤ → Option ℤ) : World where
  gameUser
  findOne
  proxyInfo
  scoreOrders := []
  userScoreRecord := []
  userScoreAddLast
  auditForm := fun _ => none
  cachedOrders := []
  online := fun _ => false
  agentInfo := fun _ => proxyInfo
  updateScoreMutex := fun _ => none
  tasks := []
  payments := []
  agentPayments := []
  won := fun _ => 0
  approvals := fun _ => 0
  passed := fun _ => 0

end H5Server.Order
