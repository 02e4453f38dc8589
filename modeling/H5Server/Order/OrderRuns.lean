import H5Server.Order.OrderScore

/-! # What is booked for an order

However the requests of all servers are interleaved, whatever fails and whatever answer is lost, an order is booked with its
user at most once and with the agent at most once, and no score changes otherwise but in games.
-/

namespace H5Server.Order

variable {cfg : Config} {w w' : World} {t t' : Task}

/-- What the orders that meet `p` add. -/
def booked (p : ScoreOrder → Bool) (orders : List ScoreOrder) : ℤ := ((orders.filter p).map ScoreOrder.signed).sum

def bookedFor (userId : ℤ) (orders : List ScoreOrder) : ℤ := booked (·.userId = userId) orders

def bookedBy (agentId : ℤ) (orders : List ScoreOrder) : ℤ := booked (·.agentId = agentId) orders

/-- The books of `w`, which began as `w₀`. -/
structure Books (cfg : Config) (w₀ w : World) : Prop where
  orders : (w.scoreOrders.map (ScoreOrder.key cfg)).Nodup
  once : (w.payments.map (ScoreOrder.key cfg)).Nodup
  backed : w.payments ⊆ w.scoreOrders
  agentOnce : (w.agentPayments.map (ScoreOrder.key cfg)).Nodup
  agentBacked : w.agentPayments ⊆ w.payments
  score : ∀ u, (w.gameUser u).score = (w₀.gameUser u).score + bookedFor u w.payments + w.won u
  total : ∀ u, (w.gameUser u).alladdscore - (w.gameUser u).allsubscore =
    (w₀.gameUser u).alladdscore - (w₀.gameUser u).allsubscore + bookedFor u w.payments
  agents : ∀ a, w.proxyInfo a = w₀.proxyInfo a - bookedBy a w.agentPayments
  cached : ∀ c ∈ w.cachedOrders, ∃ order ∈ w.payments, (order.opType, order.orderId) = c

/-- The books are kept, and what is reported as done is booked with both. -/
structure Accounted (cfg : Config) (w₀ w : World) : Prop extends Books cfg w₀ w where
  success : ∀ t ∈ w.tasks, t.stage = .left .noError →
    t.order ∈ w.payments ∧ (t.buyScore = true → t.order ∈ w.agentPayments)

/-! ## What a command can do -/

namespace Stage

/-- The request has put its order into the table. -/
def owns : Stage → Bool
  | inserted | paid | recorded | noted | settled => true
  | _ => false

/-- The agent has not been asked yet. -/
def isOpen : Stage → Bool
  | inserted | paid | recorded | noted => true
  | _ => false

def hasPaid : Stage → Bool
  | paid | recorded | noted | settled => true
  | leaving errcode | left errcode => errcode = .noError
  | _ => false

def hasSettled : Stage → Bool
  | settled => true
  | leaving errcode | left errcode => errcode = .noError
  | _ => false

end Stage

/-- Nothing is booked. -/
structure Unbooked (w w' : World) : Prop where
  gameUser : w'.gameUser = w.gameUser
  proxyInfo : w'.proxyInfo = w.proxyInfo
  scoreOrders : w'.scoreOrders = w.scoreOrders
  payments : w'.payments = w.payments
  agentPayments : w'.agentPayments = w.agentPayments
  won : w'.won = w.won
  cachedOrders : w'.cachedOrders = w.cachedOrders

/-- The request goes on, and gains nothing that it did not have. -/
structure Calm (t t' : Task) : Prop where
  order : t'.stage.owns = true ∨ t'.stage.hasPaid = true → t'.order = t.order ∧ t'.buyScore = t.buyScore
  owns : t'.stage.owns = true → t.stage.owns = true
  inserted : t'.stage ≠ .inserted
  isOpen : t'.stage.isOpen = true → t.stage.isOpen = true
  hasPaid : t'.stage.hasPaid = true → t.stage.hasPaid = true
  hasSettled : t'.stage.hasSettled = true → t.stage.hasSettled = true ∨ t.stage.hasPaid = true ∧ t.buyScore = false

/-- A request that gives up. -/
def GivesUp (t t' : Task) : Prop := ∃ errcode, errcode ≠ .noError ∧ t' = t.leave errcode

inductive Effect (cfg : Config) (w : World) (t : Task) (w' : World) (t' : Task) : Prop
  | quiet (same : Unbooked w w') (calm : Calm t t')
  | inserted (stage : t.stage = .admitted) (new : ∀ order ∈ w.scoreOrders, order.key cfg ≠ t.order.key cfg)
      (eq : w' = { w with scoreOrders := w.scoreOrders ++ [t.order] }) (after : t' = t.goOn .inserted ∨ GivesUp t t')
  | paid (stage : t.stage = .inserted)
      (eq : w' = { w with
        gameUser := Function.update w.gameUser t.userId ((w.gameUser t.userId).book t.opType t.score)
        payments := w.payments ++ [t.order] })
      (after : t' = t.goOn .paid ∨ GivesUp t t')
  | settled (stage : t.stage = .noted) (buy : t.buyScore = true) {agentInfo : ℕ → ℤ → ℤ}
      (eq : w' = { w with
        proxyInfo := Function.update w.proxyInfo t.agentId (w.proxyInfo t.agentId - t.order.signed)
        agentPayments := w.agentPayments ++ [t.order]
        agentInfo := agentInfo })
      (after : t' = t.goOn .settled ∨ GivesUp t t')
  | cached (stage : t.stage = .settled)
      (eq : w' = { w with cachedOrders := (t.opType, t.orderId) :: w.cachedOrders })
      (after : t' = t.leave .noError ∨ GivesUp t t')

/-- A request that goes from one stage to the next, and gains nothing. -/
theorem calm_goOn {old new : Stage} (here : t.stage = old)
    (less : ((!new.owns || old.owns) && (new != .inserted) && (!new.isOpen || old.isOpen) && (!new.hasPaid || old.hasPaid) &&
      (!new.hasSettled || old.hasSettled)) = true) : Calm t (t.goOn new) := by
  subst here
  simp only [Bool.and_eq_true, Bool.or_eq_true, Bool.not_eq_true', bne_iff_ne, ne_eq] at less
  obtain ⟨⟨⟨⟨owns, inserted⟩, isOpen⟩, hasPaid⟩, hasSettled⟩ := less
  have imp {a b : Bool} (either : a = false ∨ b = true) (holds : a = true) : b = true :=
    either.resolve_left (by rw [holds]; decide)
  exact ⟨fun _ => ⟨rfl, rfl⟩, imp owns, inserted, imp isOpen, imp hasPaid, fun settled => .inl (imp hasSettled settled)⟩

theorem GivesUp.calm (up : GivesUp t t') : Calm t t' := by
  obtain ⟨errcode, other, rfl⟩ := up
  have none_ : (Stage.leaving errcode).hasPaid = false := decide_eq_false other
  have none' : (Stage.leaving errcode).hasSettled = false := decide_eq_false other
  refine @calm_goOn t t.stage (.leaving errcode) rfl ?_
  rw [none_, none']
  rfl

theorem unbooked_refl (w : World) : Unbooked w w := ⟨rfl, rfl, rfl, rfl, rfl, rfl, rfl⟩

/-- A command that books nothing. -/
theorem effect_ask {answer : Answer} {refusal : ApiErrorCode} {next : Task} (other : refusal ≠ .noError)
    (calm : Calm t next) : Effect cfg w t (w.ask t answer refusal next).1 (w.ask t answer refusal next).2 := by
  cases answer with
  | done => exact .quiet (unbooked_refl w) calm
  | refused => exact .quiet (unbooked_refl w) (GivesUp.calm ⟨_, other, rfl⟩)
  | thrown => exact .quiet (unbooked_refl w) (GivesUp.calm ⟨_, by decide, rfl⟩)
  | lost => exact .quiet (unbooked_refl w) (GivesUp.calm ⟨_, by decide, rfl⟩)

/-- A command whose answer may be lost. -/
theorem effect_tell {answer : Answer} {refusal : ApiErrorCode} {next : Task} (other : refusal ≠ .noError)
    (effect : ∀ after, after = next ∨ GivesUp t after → Effect cfg w t w' after) :
    Effect cfg w t (w.tell t answer w' refusal next).1 (w.tell t answer w' refusal next).2 := by
  cases answer with
  | done => exact effect _ (.inl rfl)
  | refused => exact .quiet (unbooked_refl w) (GivesUp.calm ⟨_, other, rfl⟩)
  | thrown => exact .quiet (unbooked_refl w) (GivesUp.calm ⟨_, by decide, rfl⟩)
  | lost => exact effect _ (.inr ⟨_, by decide, rfl⟩)

theorem insertDataError_ne (opType : OpType) : opType.insertDataError ≠ .noError := by cases opType <;> decide

/-- Before the order is in the table there is nothing to lose. -/
theorem calm_early {next : Task} (owns : next.stage.owns = false) (paid : next.stage.hasPaid = false)
    (settled : next.stage.hasSettled = false) (closed : next.stage.isOpen = false) (inserted : next.stage ≠ .inserted) :
    Calm t next := by
  refine ⟨?_, ?_, inserted, ?_, ?_, ?_⟩
  · rintro (owned | done)
    · cases owns.symm.trans owned
    · cases paid.symm.trans done
  · exact fun owned => by cases owns.symm.trans owned
  · exact fun opened => by cases closed.symm.trans opened
  · exact fun done => by cases paid.symm.trans done
  · exact fun done => by cases settled.symm.trans done

theorem effect_findUser {answer : Answer} :
    Effect cfg w t (w.findUser t answer).1 (w.findUser t answer).2 := by
  rw [World.findUser]
  split
  · apply effect_ask (by decide)
    apply GivesUp.calm
    exact ⟨_, by cases t.opType <;> decide, rfl⟩
  · apply effect_ask (by decide)
    cases t.opType <;> exact calm_early rfl rfl rfl rfl (by rintro ⟨⟩)

theorem effect_checkScore {answer : Answer} (taken : w.checkScore cfg t answer = some (w', t')) : Effect cfg w t w' t' := by
  rw [World.checkScore] at taken
  split at taken
  · cases taken
    exact .quiet (unbooked_refl w) (GivesUp.calm ⟨_, by decide, rfl⟩)
  · obtain ⟨⟨ok, audit⟩, -, taken⟩ := Option.bind_eq_some_iff.mp taken
    dsimp only at taken
    obtain ⟨rfl, rfl⟩ := Prod.mk.inj (Option.some.inj taken)
    apply effect_tell (by decide)
    rintro after (rfl | up)
    · refine .quiet ⟨rfl, rfl, rfl, rfl, rfl, rfl, rfl⟩ ?_
      split
      · exact GivesUp.calm ⟨_, by decide, rfl⟩
      · exact calm_early rfl rfl rfl rfl (by rintro ⟨⟩)
    · exact .quiet ⟨rfl, rfl, rfl, rfl, rfl, rfl, rfl⟩ up.calm

theorem effect_existsOrder {answer : Answer} :
    Effect cfg w t (w.existsOrder t answer).1 (w.existsOrder t answer).2 := by
  apply effect_ask (by decide)
  split
  · exact GivesUp.calm ⟨_, by cases t.opType <;> decide, rfl⟩
  · split
    · split
      · exact GivesUp.calm ⟨_, by decide, rfl⟩
      · exact calm_early rfl rfl rfl rfl (by rintro ⟨⟩)
    · exact calm_early rfl rfl rfl rfl (by rintro ⟨⟩)

theorem effect_existsUserOnlineInfo {answer : Answer} :
    Effect cfg w t (w.existsUserOnlineInfo t answer).1 (w.existsUserOnlineInfo t answer).2 := by
  apply effect_ask (by decide)
  split
  · exact GivesUp.calm ⟨_, by decide, rfl⟩
  · split
    · exact GivesUp.calm ⟨_, by decide, rfl⟩
    · exact calm_early rfl rfl rfl rfl (by rintro ⟨⟩)

theorem effect_insertOrder {answer : Answer} (here : t.stage = .admitted) :
    Effect cfg w t (w.insertOrder cfg t answer).1 (w.insertOrder cfg t answer).2 := by
  rw [World.insertOrder]
  split
  · apply effect_ask (insertDataError_ne _)
    exact GivesUp.calm ⟨_, by cases t.opType <;> decide, rfl⟩
  next new =>
    apply effect_tell (insertDataError_ne _)
    refine fun after either => .inserted here (fun order there same => new ?_) rfl either
    exact List.any_eq_true.mpr ⟨order, there, decide_eq_true same⟩

theorem effect_updateUser {answer : Answer} (here : t.stage = .inserted) :
    Effect cfg w t (w.updateUser t answer).1 (w.updateUser t answer).2 :=
  effect_tell (insertDataError_ne _) fun _ either => .paid here rfl either

theorem effect_insertRecord {answer : Answer} (here : t.stage = .paid) :
    Effect cfg w t (w.insertRecord t answer).1 (w.insertRecord t answer).2 := by
  apply effect_tell (insertDataError_ne _)
  rintro after (rfl | up)
  · exact .quiet ⟨rfl, rfl, rfl, rfl, rfl, rfl, rfl⟩ (calm_goOn here rfl)
  · exact .quiet ⟨rfl, rfl, rfl, rfl, rfl, rfl, rfl⟩ up.calm

theorem effect_updateAddLast {answer : Answer} (here : t.stage = .recorded) :
    Effect cfg w t (w.updateAddLast t answer).1 (w.updateAddLast t answer).2 := by
  rw [World.updateAddLast]
  split
  · exact .quiet (unbooked_refl w) (calm_goOn here rfl)
  · dsimp only
    split
    · exact .quiet (unbooked_refl w) (calm_goOn here rfl)
    · apply effect_tell (by decide)
      rintro after (rfl | up)
      · exact .quiet ⟨rfl, rfl, rfl, rfl, rfl, rfl, rfl⟩ (calm_goOn here rfl)
      · exact .quiet ⟨rfl, rfl, rfl, rfl, rfl, rfl, rfl⟩ up.calm

theorem effect_updateAgent {answer : Answer} (here : t.stage = .noted) :
    Effect cfg w t (w.updateAgent t answer).1 (w.updateAgent t answer).2 := by
  rw [World.updateAgent]
  split
  next buy =>
    dsimp only
    split
    · exact .settled here buy rfl (.inl rfl)
    · apply effect_tell (insertDataError_ne _)
      exact fun after either => .settled here buy rfl either
  next own =>
    refine .quiet (unbooked_refl w) ⟨fun _ => ⟨rfl, rfl⟩, ?_, by rintro ⟨⟩, by rintro ⟨⟩, ?_, ?_⟩
    · exact fun _ => by rw [here]; rfl
    · exact fun _ => by rw [here]; rfl
    · exact fun _ => .inr ⟨by rw [here]; rfl, Bool.eq_false_iff.mpr own⟩

theorem effect_setOrder {answer : Answer} (here : t.stage = .settled) :
    Effect cfg w t (w.setOrder t answer).1 (w.setOrder t answer).2 := by
  cases answer with
  | done => exact .cached here rfl (.inl rfl)
  | refused => exact .quiet (unbooked_refl w) (@calm_goOn t _ (.leaving .noError) here rfl)
  | thrown => exact .quiet (unbooked_refl w) (GivesUp.calm ⟨_, by decide, rfl⟩)
  | lost => exact .cached here rfl (.inr ⟨_, by decide, rfl⟩)

theorem effect_of_perform {answer : Answer} {i : ℕ} (taken : w.perform cfg t answer i = some (w', t')) :
    Effect cfg w t w' t' := by
  have pair {p : World × Task} (effect : Effect cfg w t p.1 p.2) (same : some p = some (w', t')) : Effect cfg w t w' t' := by
    cases same
    exact effect
  rw [World.perform] at taken
  cases here : t.stage with
  | entering =>
    rw [here] at taken
    dsimp only at taken
    split at taken
    · cases taken
      exact .quiet ⟨rfl, rfl, rfl, rfl, rfl, rfl, rfl⟩ (calm_goOn here rfl)
    · cases taken
  | started => rw [here] at taken; exact pair effect_findUser taken
  | found => rw [here] at taken; exact effect_checkScore taken
  | allowed =>
    rw [here] at taken
    refine pair ?_ taken
    cases answer with
    | done => exact .quiet (unbooked_refl w) (calm_goOn here rfl)
    | refused | thrown | lost => exact .quiet (unbooked_refl w) (GivesUp.calm ⟨_, by decide, rfl⟩)
  | locked =>
    rw [here] at taken
    exact pair (effect_ask (by cases t.opType <;> decide) (calm_goOn here rfl)) taken
  | guarded => rw [here] at taken; exact pair effect_existsOrder taken
  | fresh => rw [here] at taken; exact pair effect_existsUserOnlineInfo taken
  | admitted => rw [here] at taken; exact pair (effect_insertOrder here) taken
  | inserted => rw [here] at taken; exact pair (effect_updateUser here) taken
  | paid => rw [here] at taken; exact pair (effect_insertRecord here) taken
  | recorded => rw [here] at taken; exact pair (effect_updateAddLast here) taken
  | noted => rw [here] at taken; exact pair (effect_updateAgent here) taken
  | settled => rw [here] at taken; exact pair (effect_setOrder here) taken
  | leaving errcode =>
    rw [here] at taken
    have less : Calm t (t.goOn (.left errcode)) := by
      apply calm_goOn here
      cases errcode <;> rfl
    dsimp only at taken
    split at taken
    · cases taken
      exact .quiet (unbooked_refl w) less
    · cases taken
      exact .quiet ⟨rfl, rfl, rfl, rfl, rfl, rfl, rfl⟩ less
  | left errcode =>
    rw [here] at taken
    cases taken

/-! ## The books -/

variable {w₀ : World}

theorem booked_concat (p : ScoreOrder → Bool) (orders : List ScoreOrder) (order : ScoreOrder) :
    booked p (orders ++ [order]) = booked p orders + if p order then order.signed else 0 := by
  rw [booked, List.filter_append, List.map_append, List.sum_append, List.filter_singleton]
  cases p order with
  | true => rw [cond_true, List.map_singleton, List.sum_singleton]; rfl
  | false => rw [cond_false, List.map_nil, List.sum_nil]; rfl

theorem bookedFor_concat (u : ℤ) (orders : List ScoreOrder) (order : ScoreOrder) :
    bookedFor u (orders ++ [order]) = bookedFor u orders + if order.userId = u then order.signed else 0 := by
  rw [bookedFor, booked_concat]
  simp only [decide_eq_true_eq]
  rfl

theorem bookedBy_concat (a : ℤ) (orders : List ScoreOrder) (order : ScoreOrder) :
    bookedBy a (orders ++ [order]) = bookedBy a orders + if order.agentId = a then order.signed else 0 := by
  rw [bookedBy, booked_concat]
  simp only [decide_eq_true_eq]
  rfl

@[simp] theorem Task.order_userId (t : Task) : t.order.userId = t.userId := rfl

@[simp] theorem Task.order_agentId (t : Task) : t.order.agentId = t.agentId := rfl

theorem book_score (user : GameUser) (t : Task) :
    (user.book t.opType t.score).score = user.score + t.order.signed ∧
      (user.book t.opType t.score).alladdscore - (user.book t.opType t.score).allsubscore =
        user.alladdscore - user.allsubscore + t.order.signed := by
  rw [ScoreOrder.signed, Task.order]
  cases t.opType with
  | opAddScore => exact ⟨rfl, by dsimp only [GameUser.book]; omega⟩
  | opSubScore => exact ⟨rfl, by dsimp only [GameUser.book]; omega⟩

theorem nodup_concat {orders : List ScoreOrder} {order : ScoreOrder} (nodup : (orders.map (ScoreOrder.key cfg)).Nodup)
    (new : order.key cfg ∉ orders.map (ScoreOrder.key cfg)) : ((orders ++ [order]).map (ScoreOrder.key cfg)).Nodup := by
  rw [List.map_append, List.map_singleton]
  refine List.nodup_append.mpr ⟨nodup, List.nodup_singleton _, ?_⟩
  rintro key here _ last rfl
  rw [List.mem_singleton.mp last] at here
  exact new here

theorem Books.unbooked (books : Books cfg w₀ w) (same : Unbooked w w') : Books cfg w₀ w' := by
  obtain ⟨gameUser, proxyInfo, scoreOrders, payments, agentPayments, won, cachedOrders⟩ := same
  constructor
  · rw [scoreOrders]; exact books.orders
  · rw [payments]; exact books.once
  · rw [payments, scoreOrders]; exact books.backed
  · rw [agentPayments]; exact books.agentOnce
  · rw [agentPayments, payments]; exact books.agentBacked
  · rw [gameUser, payments, won]; exact books.score
  · rw [gameUser, payments]; exact books.total
  · rw [proxyInfo, agentPayments]; exact books.agents
  · rw [cachedOrders, payments]; exact books.cached

theorem Books.insert (books : Books cfg w₀ w) {order : ScoreOrder}
    (new : ∀ other ∈ w.scoreOrders, other.key cfg ≠ order.key cfg) :
    Books cfg w₀ { w with scoreOrders := w.scoreOrders ++ [order] } := by
  refine { books with orders := nodup_concat books.orders ?_, backed := List.subset_append_of_subset_left _ books.backed }
  intro here
  obtain ⟨other, there, same⟩ := List.mem_map.mp here
  exact new other there same

theorem Books.pay (books : Books cfg w₀ w) (backed : t.order ∈ w.scoreOrders)
    (new : t.order.key cfg ∉ w.payments.map (ScoreOrder.key cfg)) :
    Books cfg w₀ { w with
      gameUser := Function.update w.gameUser t.userId ((w.gameUser t.userId).book t.opType t.score)
      payments := w.payments ++ [t.order] } := by
  obtain ⟨score, total⟩ := book_score (w.gameUser t.userId) t
  refine { books with
    once := nodup_concat books.once new
    backed := List.append_subset.mpr ⟨books.backed, by rintro _ last; rwa [List.mem_singleton.mp last]⟩
    agentBacked := List.subset_append_of_subset_left _ books.agentBacked
    score := fun u => ?_
    total := fun u => ?_
    cached := fun c here => ?_ }
  · dsimp only
    rw [bookedFor_concat, Task.order_userId]
    by_cases same : t.userId = u
    · subst same
      rw [if_pos rfl, Function.update_self, score, books.score t.userId]
      omega
    · rw [if_neg same, Function.update_of_ne (Ne.symm same), books.score u, add_zero]
  · dsimp only
    rw [bookedFor_concat, Task.order_userId]
    by_cases same : t.userId = u
    · subst same
      rw [if_pos rfl, Function.update_self, total, books.total t.userId, add_assoc]
    · rw [if_neg same, Function.update_of_ne (Ne.symm same), books.total u, add_zero]
  · obtain ⟨order, there, same⟩ := books.cached c here
    exact ⟨order, List.mem_append_left _ there, same⟩

theorem Books.payAgent (books : Books cfg w₀ w) {agentInfo : ℕ → ℤ → ℤ} (paid : t.order ∈ w.payments)
    (new : t.order.key cfg ∉ w.agentPayments.map (ScoreOrder.key cfg)) :
    Books cfg w₀ { w with
      proxyInfo := Function.update w.proxyInfo t.agentId (w.proxyInfo t.agentId - t.order.signed)
      agentPayments := w.agentPayments ++ [t.order]
      agentInfo := agentInfo } := by
  refine { books with
    agentOnce := nodup_concat books.agentOnce new
    agentBacked := List.append_subset.mpr ⟨books.agentBacked, by rintro _ last; rwa [List.mem_singleton.mp last]⟩
    agents := fun a => ?_ }
  dsimp only
  rw [bookedBy_concat, Task.order_agentId]
  by_cases same : t.agentId = a
  · subst same
    rw [if_pos rfl, Function.update_self, books.agents t.agentId, sub_sub]
  · rw [if_neg same, Function.update_of_ne (Ne.symm same), books.agents a, add_zero]

/-! ## The requests -/

/-- What a request may rely on. -/
structure TaskSound (cfg : Config) (w : World) (t : Task) : Prop where
  backed : t.stage.owns = true → t.order ∈ w.scoreOrders
  unpaid : t.stage = .inserted → t.order.key cfg ∉ w.payments.map (ScoreOrder.key cfg)
  unasked : t.stage.isOpen = true → t.order.key cfg ∉ w.agentPayments.map (ScoreOrder.key cfg)
  paid : t.stage.hasPaid = true → t.order ∈ w.payments
  settled : t.stage.hasSettled = true → t.buyScore = true → t.order ∈ w.agentPayments

structure Sound (cfg : Config) (w₀ w : World) : Prop where
  books : Books cfg w₀ w
  tasks : ∀ (i : ℕ) (t : Task), w.tasks[i]? = some t → TaskSound cfg w t
  owners : ∀ (i j : ℕ) (t s : Task), w.tasks[i]? = some t → w.tasks[j]? = some s →
    t.stage.owns = true → s.stage.owns = true → t.order.key cfg = s.order.key cfg → i = j

theorem owns_of_isOpen {stage : Stage} (opened : stage.isOpen = true) : stage.owns = true := by
  cases stage <;> first | rfl | cases opened

/-- A request goes on in a database that only grows. -/
theorem Sound.advance {i : ℕ} (sound : Sound cfg w₀ w) (here : w.tasks[i]? = some t) (books : Books cfg w₀ w')
    (orders : w.scoreOrders ⊆ w'.scoreOrders)
    (payments : w'.payments = w.payments ∨ t.stage.owns = true ∧ w'.payments = w.payments ++ [t.order])
    (agentPayments : w'.agentPayments = w.agentPayments ∨
      t.stage.owns = true ∧ w'.agentPayments = w.agentPayments ++ [t.order])
    (self : TaskSound cfg w' t')
    (owner : t'.stage.owns = true → t.stage.owns = true ∧ t'.order = t.order ∨
      ∀ order ∈ w.scoreOrders, order.key cfg ≠ t'.order.key cfg) :
    Sound cfg w₀ { w' with tasks := w.tasks.set i t' } := by
  have get {j : ℕ} {s : Task} (found : (w.tasks.set i t')[j]? = some s) :
      j = i ∧ s = t' ∨ j ≠ i ∧ w.tasks[j]? = some s := by
    rw [List.getElem?_set] at found
    split at found
    next same =>
      split at found
      · exact .inl ⟨same.symm, (Option.some.inj found).symm⟩
      · cases found
    next other => exact .inr ⟨Ne.symm other, found⟩
  -- nobody else has the key of the request that goes on
  have apart {j : ℕ} {s : Task} (other : j ≠ i) (there : w.tasks[j]? = some s) (owns : s.stage.owns = true)
      (mine : t'.stage.owns = true) : s.order.key cfg ≠ t'.order.key cfg := by
    intro same
    rcases owner mine with ⟨owned, eq⟩ | new
    · rw [eq] at same
      exact other (sound.owners _ _ _ _ there here owns owned same)
    · exact new s.order ((sound.tasks j s there).backed owns) same
  refine ⟨{ books with }, fun j s found => ?_, fun j k s r found found' owns owns' same => ?_⟩
  · rcases get found with ⟨rfl, rfl⟩ | ⟨other, there⟩
    · exact { self with }
    · have old := sound.tasks j s there
      refine ⟨fun owns => orders (old.backed owns), fun stage => ?_, fun opened => ?_, fun paid => ?_, fun done buy => ?_⟩
      · rcases payments with eq | ⟨owned, eq⟩
        · change _ ∉ w'.payments.map _
          rw [eq]
          exact old.unpaid stage
        · change _ ∉ w'.payments.map _
          rw [eq, List.map_append, List.map_singleton, List.mem_append, List.mem_singleton, not_or]
          exact ⟨old.unpaid stage, fun same => other (sound.owners _ _ _ _ there here (by rw [stage]; rfl) owned same)⟩
      · rcases agentPayments with eq | ⟨owned, eq⟩
        · change _ ∉ w'.agentPayments.map _
          rw [eq]
          exact old.unasked opened
        · change _ ∉ w'.agentPayments.map _
          rw [eq, List.map_append, List.map_singleton, List.mem_append, List.mem_singleton, not_or]
          exact ⟨old.unasked opened, fun same => other (sound.owners _ _ _ _ there here (owns_of_isOpen opened) owned same)⟩
      · change _ ∈ w'.payments
        rcases payments with eq | ⟨-, eq⟩ <;> rw [eq]
        · exact old.paid paid
        · exact List.mem_append_left _ (old.paid paid)
      · change _ ∈ w'.agentPayments
        rcases agentPayments with eq | ⟨-, eq⟩ <;> rw [eq]
        · exact old.settled done buy
        · exact List.mem_append_left _ (old.settled done buy)
  · rcases get found with ⟨rfl, rfl⟩ | ⟨other, there⟩
    · rcases get found' with ⟨rfl, -⟩ | ⟨other', there'⟩
      · rfl
      · exact absurd same.symm (apart other' there' owns' owns)
    · rcases get found' with ⟨rfl, rfl⟩ | ⟨other', there'⟩
      · exact absurd same (apart other there owns owns')
      · exact sound.owners _ _ _ _ there there' owns owns' same

/-- A request that gives up claims nothing. -/
theorem GivesUp.sound (up : GivesUp t t') : TaskSound cfg w t' := by
  obtain ⟨errcode, other, rfl⟩ := up
  have none_ : (Stage.leaving errcode).hasPaid = false := decide_eq_false other
  have none' : (Stage.leaving errcode).hasSettled = false := decide_eq_false other
  refine ⟨by rintro ⟨⟩, by rintro ⟨⟩, by rintro ⟨⟩, fun paid => ?_, fun settled => ?_⟩
  · cases none_.symm.trans paid
  · cases none'.symm.trans settled

theorem GivesUp.not_owns (up : GivesUp t t') : t'.stage.owns = false := by
  obtain ⟨errcode, -, rfl⟩ := up
  rfl

theorem Sound.quiet {i : ℕ} (sound : Sound cfg w₀ w) (here : w.tasks[i]? = some t) (same : Unbooked w w')
    (calm : Calm t t') : Sound cfg w₀ { w' with tasks := w.tasks.set i t' } := by
  have old := sound.tasks i t here
  refine sound.advance here (sound.books.unbooked same) (by rw [same.scoreOrders]; exact List.Subset.refl _)
    (.inl same.payments) (.inl same.agentPayments) ?_ fun owns => .inl ⟨calm.owns owns, (calm.order (.inl owns)).1⟩
  constructor
  · intro owns
    rw [same.scoreOrders, (calm.order (.inl owns)).1]
    exact old.backed (calm.owns owns)
  · exact fun stage => absurd stage calm.inserted
  · intro opened
    rw [same.agentPayments, (calm.order (.inl (owns_of_isOpen opened))).1]
    exact old.unasked (calm.isOpen opened)
  · intro paid
    rw [same.payments, (calm.order (.inr paid)).1]
    exact old.paid (calm.hasPaid paid)
  · intro settled buy
    have paid : t'.stage.hasPaid = true := by
      cases stage : t'.stage with
      | settled => rfl
      | leaving errcode | left errcode => rw [stage] at settled; exact settled
      | _ => rw [stage] at settled; cases settled
    obtain ⟨order, buy'⟩ := calm.order (.inr paid)
    rw [same.agentPayments, order]
    rcases calm.hasSettled settled with before | ⟨-, none_⟩
    · exact old.settled before (buy' ▸ buy)
    · cases (buy'.symm.trans buy).symm.trans none_

theorem Sound.perform {i : ℕ} (sound : Sound cfg w₀ w) (here : w.tasks[i]? = some t) (effect : Effect cfg w t w' t') :
    Sound cfg w₀ { w' with tasks := w.tasks.set i t' } := by
  have old := sound.tasks i t here
  cases effect with
  | quiet same calm => exact sound.quiet here same calm
  | inserted stage new eq after =>
    subst eq
    refine sound.advance here (sound.books.insert new) (List.subset_append_left _ _) (.inl rfl) (.inl rfl) ?_ ?_
    · rcases after with rfl | up
      · refine ⟨fun _ => List.mem_append_right _ (List.mem_singleton_self _), fun _ here => ?_, fun _ here => ?_,
          by rintro ⟨⟩, by rintro ⟨⟩⟩
        · obtain ⟨order, there, same⟩ := List.mem_map.mp here
          exact new order (sound.books.backed there) same
        · obtain ⟨order, there, same⟩ := List.mem_map.mp here
          exact new order (sound.books.backed (sound.books.agentBacked there)) same
      · exact up.sound
    · intro owns
      rcases after with rfl | up
      · exact .inr new
      · cases up.not_owns.symm.trans owns
  | paid stage eq after =>
    subst eq
    have owned : t.stage.owns = true := by rw [stage]; rfl
    refine sound.advance here (sound.books.pay (old.backed owned) (old.unpaid stage)) (List.Subset.refl _)
      (.inr ⟨owned, rfl⟩) (.inl rfl) ?_ ?_
    · rcases after with rfl | up
      · exact ⟨fun _ => old.backed owned, by rintro ⟨⟩, fun _ => old.unasked (by rw [stage]; rfl),
          fun _ => List.mem_append_right _ (List.mem_singleton_self _), by rintro ⟨⟩⟩
      · exact up.sound
    · intro owns
      rcases after with rfl | up
      · exact .inl ⟨owned, rfl⟩
      · cases up.not_owns.symm.trans owns
  | @settled stage buy agentInfo eq after =>
    subst eq
    have owned : t.stage.owns = true := by rw [stage]; rfl
    have paid := old.paid (by rw [stage]; rfl)
    refine sound.advance here (sound.books.payAgent paid (old.unasked (by rw [stage]; rfl))) (List.Subset.refl _)
      (.inl rfl) (.inr ⟨owned, rfl⟩) ?_ ?_
    · rcases after with rfl | up
      · exact ⟨fun _ => old.backed owned, by rintro ⟨⟩, by rintro ⟨⟩, fun _ => paid,
          fun _ _ => List.mem_append_right _ (List.mem_singleton_self _)⟩
      · exact up.sound
    · intro owns
      rcases after with rfl | up
      · exact .inl ⟨owned, rfl⟩
      · cases up.not_owns.symm.trans owns
  | cached stage eq after =>
    subst eq
    have paid := old.paid (by rw [stage]; rfl)
    have books : Books cfg w₀ { w with cachedOrders := (t.opType, t.orderId) :: w.cachedOrders } :=
      { sound.books with cached := List.forall_mem_cons.mpr ⟨⟨t.order, paid, rfl⟩, sound.books.cached⟩ }
    refine sound.advance here books (List.Subset.refl _) (.inl rfl) (.inl rfl) ?_ ?_
    · rcases after with rfl | up
      · exact ⟨by rintro ⟨⟩, by rintro ⟨⟩, by rintro ⟨⟩, fun _ => paid, fun _ => old.settled (by rw [stage]; rfl)⟩
      · exact up.sound
    · intro owns
      rcases after with rfl | up
      · cases owns
      · cases up.not_owns.symm.trans owns

/-! ## Runs -/

/-- What is said of the requests does not depend on the scores. -/
theorem Sound.congr (sound : Sound cfg w₀ w) (books : Books cfg w₀ w') (orders : w'.scoreOrders = w.scoreOrders)
    (payments : w'.payments = w.payments) (agentPayments : w'.agentPayments = w.agentPayments)
    (tasks : w'.tasks = w.tasks) : Sound cfg w₀ w' := by
  refine ⟨books, fun i t here => ?_, fun i j t s here there => ?_⟩
  · obtain ⟨backed, unpaid, unasked, paid, settled⟩ := sound.tasks i t (tasks ▸ here)
    exact ⟨orders ▸ backed, payments ▸ unpaid, agentPayments ▸ unasked, payments ▸ paid, agentPayments ▸ settled⟩
  · exact sound.owners i j t s (tasks ▸ here) (tasks ▸ there)

theorem Sound.game (sound : Sound cfg w₀ w) (userId delta : ℤ) : Sound cfg w₀ { w with
    gameUser := Function.update w.gameUser userId { w.gameUser userId with score := (w.gameUser userId).score + delta }
    won := Function.update w.won userId (w.won userId + delta) } := by
  refine sound.congr { sound.books with score := fun u => ?_, total := fun u => ?_ } rfl rfl rfl rfl
  · dsimp only
    by_cases same : u = userId
    · subst same
      rw [Function.update_self, Function.update_self, sound.books.score u]
      exact add_assoc _ _ _
    · rw [Function.update_of_ne same, Function.update_of_ne same, sound.books.score u]
  · dsimp only
    by_cases same : u = userId
    · subst same
      rw [Function.update_self]
      exact sound.books.total u
    · rw [Function.update_of_ne same, sound.books.total u]

theorem Sound.request (sound : Sound cfg w₀ w) (none_ : t.stage.owns = false ∧ t.stage.hasPaid = false)
    (settled : t.stage.hasSettled = false) : Sound cfg w₀ { w with tasks := w.tasks ++ [t] } := by
  have get {j : ℕ} {s : Task} (found : (w.tasks ++ [t])[j]? = some s) : w.tasks[j]? = some s ∨ s = t := by
    rw [List.getElem?_append] at found
    split at found
    · exact .inl found
    · exact .inr (List.mem_singleton.mp (List.mem_of_getElem? found))
  refine ⟨{ sound.books with }, fun i s found => ?_, fun i j s r found found' owns owns' => ?_⟩
  · rcases get found with old | rfl
    · exact { sound.tasks i s old with }
    · refine ⟨fun owns => ?_, fun stage => ?_, fun opened => ?_, fun paid => ?_, fun done => ?_⟩
      · cases none_.1.symm.trans owns
      · rw [stage] at none_
        cases none_.1
      · cases none_.1.symm.trans (owns_of_isOpen opened)
      · cases none_.2.symm.trans paid
      · cases settled.symm.trans done
  · rcases get found with old | rfl
    · rcases get found' with old' | rfl
      · exact sound.owners i j s r old old' owns owns'
      · cases none_.1.symm.trans owns'
    · cases none_.1.symm.trans owns

theorem sound_step {event : Event} (sound : Sound cfg w₀ w) (taken : step cfg w event = some w') : Sound cfg w₀ w' := by
  cases event with
  | request server opType account agentId buyScore score orderId =>
    obtain rfl := Option.some.inj taken
    cases opType with
    | opAddScore => exact sound.request ⟨rfl, rfl⟩ rfl
    | opSubScore => exact sound.request ⟨rfl, rfl⟩ rfl
  | perform i answer =>
    obtain ⟨t, here, taken⟩ := Option.bind_eq_some_iff.mp taken
    obtain ⟨⟨w₁, t'⟩, performed, taken⟩ := Option.bind_eq_some_iff.mp taken
    obtain rfl := Option.some.inj taken
    exact sound.perform here (effect_of_perform performed)
  | game userId delta =>
    obtain rfl := Option.some.inj taken
    exact sound.game userId delta
  | setOnline userId online =>
    obtain rfl := Option.some.inj taken
    exact sound.congr { sound.books with } rfl rfl rfl rfl
  | audit userId status =>
    obtain rfl := Option.some.inj taken
    exact sound.congr { sound.books with } rfl rfl rfl rfl
  | expire cached =>
    obtain rfl := Option.some.inj taken
    refine sound.congr { sound.books with cached := fun c here => ?_ } rfl rfl rfl rfl
    exact sound.books.cached c (List.mem_of_mem_filter here)
  | refreshAgentInfo server =>
    obtain rfl := Option.some.inj taken
    exact sound.congr { sound.books with } rfl rfl rfl rfl

theorem sound_start {gameUser : ℤ → GameUser} {findOne : ℤ → String → Option ℤ} {proxyInfo : ℤ → ℤ}
    {userScoreAddLast : ℤ → Option ℤ} : Sound cfg (.start gameUser findOne proxyInfo userScoreAddLast)
      (.start gameUser findOne proxyInfo userScoreAddLast) := by
  refine ⟨⟨List.nodup_nil, List.nodup_nil, List.Subset.refl _, List.nodup_nil, List.Subset.refl _, fun u => ?_, fun u => ?_,
    fun a => ?_, fun c here => absurd here List.not_mem_nil⟩, ?_, ?_⟩
  · exact ((add_zero _).trans (add_zero _)).symm
  · exact (add_zero _).symm
  · exact (sub_zero _).symm
  · rintro i t ⟨⟩
  · rintro i j t s ⟨⟩

/-- Whatever is interleaved and whatever fails, the books are kept. -/
theorem accounted_of_run {gameUser : ℤ → GameUser} {findOne : ℤ → String → Option ℤ} {proxyInfo : ℤ → ℤ}
    {userScoreAddLast : ℤ → Option ℤ} {events : List Event}
    (run : Lib.Run (step cfg) (fun _ _ => True) (.start gameUser findOne proxyInfo userScoreAddLast) events w) :
    Accounted cfg (.start gameUser findOne proxyInfo userScoreAddLast) w := by
  have sound : Sound cfg (.start gameUser findOne proxyInfo userScoreAddLast) w :=
    run.invariant (fun _ _ _ sound _ taken => sound_step sound taken) sound_start
  refine { sound.books with success := fun t here stage => ?_ }
  obtain ⟨i, found⟩ := List.mem_iff_getElem?.mp here
  have task := sound.tasks i t found
  exact ⟨task.paid (by rw [stage]; rfl), task.settled (by rw [stage]; rfl)⟩

/-- Two servers make the same deposit at once, and the user takes a part of it back. -/
def twoServers : List Event :=
  [.request 0 .opAddScore "a" 1 true 100 "o", .request 1 .opAddScore "a" 1 true 100 "o"] ++
    (List.replicate 3 [.perform 0 .done, .perform 1 .done]).flatten ++
    List.replicate 7 (.perform 0 .done) ++ List.replicate 2 (.perform 1 .done) ++
    .request 1 .opSubScore "a" 1 true 40 "p" :: List.replicate 14 (.perform 2 .done)

def oneTable : Config := ⟨true, 10, 100000, 100⟩

theorem accounted_of_run_twoServers :
    ∃ w, Lib.Run (step oneTable) (fun _ _ => True)
        (.start (fun _ => ⟨0, 0, 0, 0, 0, 0⟩) (fun _ _ => some 7) (fun _ => 1000) fun _ => none) twoServers w ∧
      (w.gameUser 7).score = 60 ∧ w.proxyInfo 1 = 940 ∧
      w.tasks.map (·.stage) = [.left .noError, .left .addScoreHandleInsertDataOrderIDExists, .left .noError] ∧
      Accounted oneTable (.start (fun _ => ⟨0, 0, 0, 0, 0, 0⟩) (fun _ _ => some 7) (fun _ => 1000) fun _ => none) w := by
  have played : (Lib.replay (step oneTable)
        (.start (fun _ => ⟨0, 0, 0, 0, 0, 0⟩) (fun _ _ => some 7) (fun _ => 1000) fun _ => none) twoServers).map
        (fun w => ((w.gameUser 7).score, w.proxyInfo 1, w.tasks.map (·.stage))) =
      some (60, 940, [.left .noError, .left .addScoreHandleInsertDataOrderIDExists, .left .noError]) := by
    decide +kernel
  obtain ⟨w, done, books⟩ := Option.map_eq_some_iff.mp played
  obtain ⟨score, rest⟩ := Prod.mk.inj books
  have run := Lib.run_of_replay done
  exact ⟨w, run, score, (Prod.mk.inj rest).1, (Prod.mk.inj rest).2, accounted_of_run run⟩

end H5Server.Order
