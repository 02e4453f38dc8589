import H5Server.Order.OrderRuns

/-! # Withdrawals

One server makes its withdrawals one after the other. It reads the user's score before it takes any lock of the user, and
that score is what the withdrawal is checked against. A huge withdrawal needs an approval, and uses it up.
-/

namespace H5Server.Order

variable {cfg : Config} {w w' : World} {t t' : Task} {server : ℕ}

namespace Stage

/-- The score has been read, and nothing is booked yet. -/
def isReading : Stage → Bool
  | found | allowed | locked | guarded | fresh | admitted | inserted => true
  | _ => false

/-- The amount has been compared with the score. -/
def isCovered : Stage → Bool
  | admitted | inserted => true
  | _ => false

/-- The request runs. -/
def isInside : Stage → Bool
  | entering | left _ => false
  | _ => true

end Stage

/-- No amount is negative, withdrawals are made by one server, and no user loses in a game while a withdrawal of his is on
the way. -/
def Careful (server : ℕ) (w : World) : Event → Prop
  | .request server' opType _ _ _ score _ => 0 ≤ score ∧ (opType = .opSubScore → server' = server)
  | .game userId delta => 0 ≤ (w.gameUser userId).score + delta ∧
      (delta < 0 → ∀ t ∈ w.tasks, t.opType = .opSubScore → t.stage.isReading = true → t.userId ≠ userId)
  | _ => True

/-! ## What a command can touch -/

structure SameUsers (w w' : World) : Prop where
  gameUser : w'.gameUser = w.gameUser
  updateScoreMutex : w'.updateScoreMutex = w.updateScoreMutex

structure SameAudit (w w' : World) : Prop where
  auditForm : w'.auditForm = w.auditForm
  approvals : w'.approvals = w.approvals
  passed : w'.passed = w.passed

/-- A request goes on to `new` without reading a score. -/
structure Moves (t : Task) (new : Stage) : Prop where
  reading : new.isReading = true → t.stage.isReading = true
  covered : new.isCovered = true → t.stage.isCovered = true ∨ (t.opType = .opSubScore → t.score ≤ t.beforeScore)
  inside : new.isInside = true → t.stage.isInside = true

inductive Touch (cfg : Config) (w : World) (t : Task) (i : ℕ) (w' : World) (t' : Task) : Prop
  | entered (stage : t.stage = .entering) (free : w.updateScoreMutex t.server = none)
      (eq : w' = { w with updateScoreMutex := Function.update w.updateScoreMutex t.server (some i) })
      (after : t' = t.goOn .started)
  | found (stage : t.stage = .started) (eq : w' = w) {userId : ℤ} {new : Stage} (running : new.isInside = true)
      (uncovered : new.isCovered = false)
      (after : t' = { t with userId, beforeScore := (w.gameUser userId).score, stage := new })
  | checked (stage : t.stage = .found) {ok : Bool} {audit : Option AuditType}
      (check : hugeProfitCheck cfg t.beforeScore (w.userScoreAddLast t.userId) (w.auditForm t.userId) = some (ok, audit))
      (eq : w' = { w with
        auditForm := Function.update w.auditForm t.userId audit
        passed := if ok && asksAudit cfg t.beforeScore (w.userScoreAddLast t.userId) then
          Function.update w.passed t.userId (w.passed t.userId + 1) else w.passed })
      {new : Stage} (moves : Moves t new) (after : t' = t.goOn new)
  | booked (stage : t.stage = .inserted)
      (eq : w' = { w with
        gameUser := Function.update w.gameUser t.userId ((w.gameUser t.userId).book t.opType t.score)
        payments := w.payments ++ [t.order] })
      {new : Stage} (running : new.isInside = true) (done : new.isReading = false) (after : t' = t.goOn new)
  | left {errcode : ApiErrorCode} (stage : t.stage = .leaving errcode) (sub : t.opType = .opSubScore)
      (eq : w' = { w with updateScoreMutex := Function.update w.updateScoreMutex t.server none })
      (after : t' = t.goOn (.left errcode))
  | moved (users : SameUsers w w') (audit : SameAudit w w') {new : Stage} (moves : Moves t new) (after : t' = t.goOn new)

theorem sameUsers_refl (w : World) : SameUsers w w := ⟨rfl, rfl⟩

theorem sameAudit_refl (w : World) : SameAudit w w := ⟨rfl, rfl, rfl⟩

/-- A request that runs may always give up. -/
theorem moves_leaving (errcode : ApiErrorCode) (running : t.stage.isInside = true) : Moves t (.leaving errcode) :=
  ⟨by rintro ⟨⟩, by rintro ⟨⟩, fun _ => running⟩

theorem moves_goOn {old new : Stage} (here : t.stage = old)
    (less : ((!new.isReading || old.isReading) && (!new.isCovered || old.isCovered) && (!new.isInside || old.isInside)) = true) :
    Moves t new := by
  subst here
  simp only [Bool.and_eq_true, Bool.or_eq_true, Bool.not_eq_true'] at less
  obtain ⟨⟨reading, covered⟩, inside⟩ := less
  have imp {a b : Bool} (either : a = false ∨ b = true) (holds : a = true) : b = true :=
    either.resolve_left (by rw [holds]; decide)
  exact ⟨imp reading, fun done => .inl (imp covered done), imp inside⟩

theorem touch_ask {i : ℕ} {answer : Answer} {refusal : ApiErrorCode} {new : Stage} (running : t.stage.isInside = true)
    (moves : Moves t new) :
    Touch cfg w t i (w.ask t answer refusal (t.goOn new)).1 (w.ask t answer refusal (t.goOn new)).2 := by
  cases answer with
  | done => exact .moved (sameUsers_refl w) (sameAudit_refl w) moves rfl
  | refused | thrown | lost => exact .moved (sameUsers_refl w) (sameAudit_refl w) (moves_leaving _ running) rfl

theorem touch_tell {i : ℕ} {answer : Answer} {refusal : ApiErrorCode} {new : Stage} (running : t.stage.isInside = true)
    (users : SameUsers w w') (audit : SameAudit w w') (moves : Moves t new) :
    Touch cfg w t i (w.tell t answer w' refusal (t.goOn new)).1 (w.tell t answer w' refusal (t.goOn new)).2 := by
  cases answer with
  | done => exact .moved users audit moves rfl
  | refused | thrown => exact .moved (sameUsers_refl w) (sameAudit_refl w) (moves_leaving _ running) rfl
  | lost => exact .moved users audit (moves_leaving _ running) rfl

theorem touch_findUser {i : ℕ} {answer : Answer} (here : t.stage = .started) :
    Touch cfg w t i (w.findUser t answer).1 (w.findUser t answer).2 := by
  have running : t.stage.isInside = true := by rw [here]; rfl
  rw [World.findUser]
  split
  · exact touch_ask running (moves_leaving _ running)
  · cases answer with
    | done =>
      refine .found here rfl ?_ ?_ rfl
      · cases t.opType <;> rfl
      · cases t.opType <;> rfl
    | refused | thrown | lost => exact .moved (sameUsers_refl w) (sameAudit_refl w) (moves_leaving _ running) rfl

theorem touch_checkScore {i : ℕ} {answer : Answer} (here : t.stage = .found)
    (taken : w.checkScore cfg t answer = some (w', t')) : Touch cfg w t i w' t' := by
  have running : t.stage.isInside = true := by rw [here]; rfl
  rw [World.checkScore] at taken
  split at taken
  · cases taken
    exact .moved (sameUsers_refl w) (sameAudit_refl w) (moves_leaving _ running) rfl
  · obtain ⟨⟨ok, audit⟩, check, taken⟩ := Option.bind_eq_some_iff.mp taken
    dsimp only at taken
    obtain ⟨rfl, rfl⟩ := Prod.mk.inj (Option.some.inj taken)
    cases answer with
    | done =>
      have next : ∃ new, Moves t new ∧ (if !ok && (w.gameUser t.userId).currency = 0 then t.leave .subScoreTooLargeError
          else t.goOn .allowed) = t.goOn new := by
        split
        · exact ⟨_, moves_leaving _ running, rfl⟩
        · exact ⟨_, moves_goOn here rfl, rfl⟩
      obtain ⟨new, moves, after⟩ := next
      exact .checked here check rfl moves after
    | refused | thrown => exact .moved (sameUsers_refl w) (sameAudit_refl w) (moves_leaving _ running) rfl
    | lost => exact .checked here check rfl (moves_leaving _ running) rfl

theorem touch_existsOrder {i : ℕ} {answer : Answer} (here : t.stage = .guarded) :
    Touch cfg w t i (w.existsOrder t answer).1 (w.existsOrder t answer).2 := by
  have running : t.stage.isInside = true := by rw [here]; rfl
  rw [World.existsOrder]
  split
  · exact touch_ask running (moves_leaving _ running)
  · split
    next add =>
      split
      · exact touch_ask running (moves_leaving _ running)
      · refine touch_ask running ⟨fun _ => by rw [here]; rfl, fun _ => .inr fun sub => ?_, fun _ => running⟩
        cases add.symm.trans sub
    · exact touch_ask running (moves_goOn here rfl)

theorem touch_existsUserOnlineInfo {i : ℕ} {answer : Answer} (here : t.stage = .fresh) :
    Touch cfg w t i (w.existsUserOnlineInfo t answer).1 (w.existsUserOnlineInfo t answer).2 := by
  have running : t.stage.isInside = true := by rw [here]; rfl
  rw [World.existsUserOnlineInfo]
  split
  · exact touch_ask running (moves_leaving _ running)
  · split
    · exact touch_ask running (moves_leaving _ running)
    next enough =>
      exact touch_ask running ⟨fun _ => by rw [here]; rfl, fun _ => .inr fun _ => not_lt.mp enough, fun _ => running⟩

theorem touch_of_perform {answer : Answer} {i : ℕ} (taken : w.perform cfg t answer i = some (w', t')) :
    Touch cfg w t i w' t' := by
  have pair {p : World × Task} (touch : Touch cfg w t i p.1 p.2) (same : some p = some (w', t')) : Touch cfg w t i w' t' := by
    cases same
    exact touch
  rw [World.perform] at taken
  cases here : t.stage with
  | entering =>
    rw [here] at taken
    dsimp only at taken
    split at taken
    next free =>
      cases taken
      exact .entered here free rfl rfl
    · cases taken
  | started => rw [here] at taken; exact pair (touch_findUser here) taken
  | found => rw [here] at taken; exact touch_checkScore here taken
  | allowed =>
    rw [here] at taken
    refine pair ?_ taken
    have running : t.stage.isInside = true := by rw [here]; rfl
    cases answer with
    | done => exact .moved (sameUsers_refl w) (sameAudit_refl w) (moves_goOn here rfl) rfl
    | refused | thrown | lost => exact .moved (sameUsers_refl w) (sameAudit_refl w) (moves_leaving _ running) rfl
  | locked => rw [here] at taken; exact pair (touch_ask (by rw [here]; rfl) (moves_goOn here rfl)) taken
  | guarded => rw [here] at taken; exact pair (touch_existsOrder here) taken
  | fresh => rw [here] at taken; exact pair (touch_existsUserOnlineInfo here) taken
  | admitted =>
    rw [here] at taken
    refine pair ?_ taken
    have running : t.stage.isInside = true := by rw [here]; rfl
    rw [World.insertOrder]
    split
    · exact touch_ask running (moves_leaving _ running)
    · exact touch_tell running ⟨rfl, rfl⟩ ⟨rfl, rfl, rfl⟩ (moves_goOn here rfl)
  | inserted =>
    rw [here] at taken
    refine pair ?_ taken
    have running : t.stage.isInside = true := by rw [here]; rfl
    cases answer with
    | done => exact .booked here rfl rfl rfl rfl
    | refused | thrown => exact .moved (sameUsers_refl w) (sameAudit_refl w) (moves_leaving _ running) rfl
    | lost => exact .booked here rfl rfl rfl rfl
  | paid =>
    rw [here] at taken
    refine pair ?_ taken
    rw [World.insertRecord]
    exact touch_tell (by rw [here]; rfl) ⟨rfl, rfl⟩ ⟨rfl, rfl, rfl⟩ (moves_goOn here rfl)
  | recorded =>
    rw [here] at taken
    refine pair ?_ taken
    rw [World.updateAddLast]
    split
    · exact .moved (sameUsers_refl w) (sameAudit_refl w) (moves_goOn here rfl) rfl
    · dsimp only
      split
      · exact .moved (sameUsers_refl w) (sameAudit_refl w) (moves_goOn here rfl) rfl
      · exact touch_tell (by rw [here]; rfl) ⟨rfl, rfl⟩ ⟨rfl, rfl, rfl⟩ (moves_goOn here rfl)
  | noted =>
    rw [here] at taken
    refine pair ?_ taken
    rw [World.updateAgent]
    split
    · dsimp only
      split
      · exact .moved ⟨rfl, rfl⟩ ⟨rfl, rfl, rfl⟩ (moves_goOn here rfl) rfl
      · exact touch_tell (by rw [here]; rfl) ⟨rfl, rfl⟩ ⟨rfl, rfl, rfl⟩ (moves_goOn here rfl)
    · exact .moved (sameUsers_refl w) (sameAudit_refl w) (moves_goOn here rfl) rfl
  | settled =>
    rw [here] at taken
    refine pair ?_ taken
    have running : t.stage.isInside = true := by rw [here]; rfl
    cases answer with
    | done | lost => exact .moved ⟨rfl, rfl⟩ ⟨rfl, rfl, rfl⟩ (moves_leaving _ running) rfl
    | refused | thrown => exact .moved (sameUsers_refl w) (sameAudit_refl w) (moves_leaving _ running) rfl
  | leaving errcode =>
    rw [here] at taken
    dsimp only at taken
    split at taken
    · cases taken
      exact .moved (sameUsers_refl w) (sameAudit_refl w) (moves_goOn here rfl) rfl
    next sub =>
      cases taken
      exact .left here sub rfl rfl
  | left errcode =>
    rw [here] at taken
    cases taken

/-! ## A user's score -/

/-- What the withdrawals of one server know of the scores. -/
structure Solvent (server : ℕ) (w : World) : Prop where
  score : ∀ u, 0 ≤ (w.gameUser u).score
  amount : ∀ (i : ℕ) (t : Task), w.tasks[i]? = some t → 0 ≤ t.score
  alone : ∀ (i : ℕ) (t : Task), w.tasks[i]? = some t → t.opType = .opSubScore →
    t.server = server ∧ (t.stage.isInside = true → w.updateScoreMutex server = some i)
  reading : ∀ (i : ℕ) (t : Task), w.tasks[i]? = some t → t.opType = .opSubScore → t.stage.isReading = true →
    t.beforeScore ≤ (w.gameUser t.userId).score
  covered : ∀ (i : ℕ) (t : Task), w.tasks[i]? = some t → t.opType = .opSubScore → t.stage.isCovered = true →
    t.score ≤ t.beforeScore

theorem inside_of_reading {stage : Stage} (reading : stage.isReading = true) : stage.isInside = true := by
  cases stage <;> first | rfl | cases reading

theorem reading_of_covered {stage : Stage} (covered : stage.isCovered = true) : stage.isReading = true := by
  cases stage <;> first | rfl | cases covered

/-- What a request relies on that is a withdrawal. -/
structure Withdrawal (server : ℕ) (w : World) (i : ℕ) (t : Task) : Prop where
  place : t.server = server
  alone : t.stage.isInside = true → w.updateScoreMutex server = some i
  reading : t.stage.isReading = true → t.beforeScore ≤ (w.gameUser t.userId).score
  covered : t.stage.isCovered = true → t.score ≤ t.beforeScore

theorem Solvent.withdrawal {i : ℕ} (solvent : Solvent server w) (here : w.tasks[i]? = some t)
    (sub : t.opType = .opSubScore) : Withdrawal server w i t :=
  ⟨(solvent.alone i t here sub).1, (solvent.alone i t here sub).2, solvent.reading i t here sub, solvent.covered i t here sub⟩

/-- One request goes on; the other withdrawals may rely on what they did. -/
theorem Solvent.advance {i : ℕ} (solvent : Solvent server w) (here : w.tasks[i]? = some t)
    (score : ∀ u, 0 ≤ (w'.gameUser u).score) (amount : t'.score = t.score)
    (self : t'.opType = .opSubScore → Withdrawal server w' i t')
    (others : ∀ j s, j ≠ i → w.tasks[j]? = some s → s.opType = .opSubScore → Withdrawal server w j s →
      Withdrawal server w' j s) : Solvent server { w' with tasks := w.tasks.set i t' } := by
  have get {j : ℕ} {s : Task} (found : (w.tasks.set i t')[j]? = some s) :
      j = i ∧ s = t' ∨ j ≠ i ∧ w.tasks[j]? = some s := by
    rw [List.getElem?_set] at found
    split at found
    next same =>
      split at found
      · exact .inl ⟨same.symm, (Option.some.inj found).symm⟩
      · cases found
    next other => exact .inr ⟨Ne.symm other, found⟩
  have all {j : ℕ} {s : Task} (found : (w.tasks.set i t')[j]? = some s) (sub : s.opType = .opSubScore) :
      Withdrawal server w' j s := by
    rcases get found with ⟨rfl, rfl⟩ | ⟨other, there⟩
    · exact self sub
    · exact others j s other there sub (solvent.withdrawal there sub)
  refine ⟨score, fun j s found => ?_, fun j s found sub => ⟨(all found sub).place, (all found sub).alone⟩,
    fun j s found sub => (all found sub).reading, fun j s found sub => (all found sub).covered⟩
  rcases get found with ⟨rfl, rfl⟩ | ⟨-, there⟩
  · rw [amount]
    exact solvent.amount j t here
  · exact solvent.amount j s there

theorem Withdrawal.users {i : ℕ} (withdrawal : Withdrawal server w i t) (users : SameUsers w w') :
    Withdrawal server w' i t := by
  obtain ⟨place, alone, reading, covered⟩ := withdrawal
  exact ⟨place, by rwa [users.updateScoreMutex], by rwa [users.gameUser], covered⟩

theorem Withdrawal.moves {i : ℕ} {new : Stage} (withdrawal : Withdrawal server w i t) (moves : Moves t new)
    (sub : t.opType = .opSubScore) : Withdrawal server w i (t.goOn new) := by
  obtain ⟨place, alone, reading, covered⟩ := withdrawal
  exact ⟨place, fun inside => alone (moves.inside inside), fun read => reading (moves.reading read),
    fun done => (moves.covered done).elim covered fun enough => enough sub⟩

theorem Solvent.perform {i : ℕ} (solvent : Solvent server w) (here : w.tasks[i]? = some t)
    (touch : Touch cfg w t i w' t') : Solvent server { w' with tasks := w.tasks.set i t' } := by
  cases touch with
  | entered stage free eq after =>
    subst eq after
    refine solvent.advance here solvent.score rfl (fun sub => ?_) fun j s other there sub old => ?_
    · have mine := (solvent.withdrawal here sub).place
      refine ⟨mine, fun _ => ?_, by rintro ⟨⟩, by rintro ⟨⟩⟩
      dsimp only
      rw [mine, Function.update_self]
    · refine ⟨old.place, fun inside => ?_, old.reading, old.covered⟩
      dsimp only
      by_cases same : server = t.server
      · rw [← same, old.alone inside] at free
        cases free
      · rw [Function.update_of_ne same]
        exact old.alone inside
  | found stage eq running uncovered after =>
    subst eq after
    refine solvent.advance here solvent.score rfl (fun sub => ?_) fun j s _ _ _ old => old
    have old := solvent.withdrawal here sub
    refine ⟨old.place, fun _ => old.alone (by rw [stage]; rfl), fun _ => le_rfl, fun covered => ?_⟩
    cases uncovered.symm.trans covered
  | checked stage check eq moves after =>
    subst after
    have same : SameUsers w w' := by
      rw [eq]
      exact ⟨rfl, rfl⟩
    exact solvent.advance here (by rw [eq]; exact solvent.score) rfl
      (fun sub => ((solvent.withdrawal here sub).moves moves sub).users same) fun j s _ _ _ old => old.users same
  | booked stage eq running done after =>
    subst eq after
    have inside : t.stage.isInside = true := by rw [stage]; rfl
    have amount := solvent.amount i t here
    -- a withdrawal is covered by the score it has read
    have enough (sub : t.opType = .opSubScore) : t.score ≤ (w.gameUser t.userId).score := by
      have old := solvent.withdrawal here sub
      exact (old.covered (by rw [stage]; rfl)).trans (old.reading (by rw [stage]; rfl))
    have booked := (book_score (w.gameUser t.userId) t).1
    have kind : t.order.signed = t.score ∨ t.opType = .opSubScore ∧ t.order.signed = -t.score := by
      rw [ScoreOrder.signed, Task.order]
      cases t.opType with
      | opAddScore => exact .inl rfl
      | opSubScore => exact .inr ⟨rfl, rfl⟩
    refine solvent.advance here (fun u => ?_) rfl (fun sub => ?_) fun j s other there sub old => ?_
    · dsimp only
      by_cases same : u = t.userId
      · rw [same, Function.update_self, booked]
        have before := solvent.score t.userId
        rcases kind with add | ⟨sub, take⟩
        · omega
        · have := enough sub
          omega
      · rw [Function.update_of_ne same]
        exact solvent.score u
    · have old := solvent.withdrawal here sub
      refine ⟨old.place, fun _ => old.alone inside, fun reading => ?_, fun covered => ?_⟩
      · cases done.symm.trans reading
      · cases done.symm.trans (reading_of_covered covered)
    · refine ⟨old.place, old.alone, fun reading => ?_, old.covered⟩
      dsimp only
      by_cases same : s.userId = t.userId
      · rw [same, Function.update_self, booked]
        have before := old.reading reading
        rw [same] at before
        rcases kind with add | ⟨take, -⟩
        · omega
        · -- no other withdrawal runs
          have mine := (solvent.withdrawal here take).alone inside
          have others := old.alone (inside_of_reading reading)
          exact absurd (Option.some.inj (others.symm.trans mine)) other
      · rw [Function.update_of_ne same]
        exact old.reading reading
  | left stage sub eq after =>
    subst eq after
    have mine := solvent.withdrawal here sub
    have holds := mine.alone (by rw [stage]; rfl)
    refine solvent.advance here solvent.score rfl (fun _ => ⟨mine.place, by rintro ⟨⟩, by rintro ⟨⟩, by rintro ⟨⟩⟩)
      fun j s other there sub' old => ⟨old.place, fun inside => ?_, old.reading, old.covered⟩
    exact absurd (Option.some.inj ((old.alone inside).symm.trans holds)) other
  | moved users audit moves after =>
    subst after
    exact solvent.advance here (by rw [users.gameUser]; exact solvent.score) rfl
      (fun sub => ((solvent.withdrawal here sub).moves moves sub).users users) fun j s _ _ _ old => old.users users

theorem Solvent.congr (solvent : Solvent server w) (gameUser : w'.gameUser = w.gameUser)
    (mutex : w'.updateScoreMutex = w.updateScoreMutex) (tasks : w'.tasks = w.tasks) : Solvent server w' := by
  refine ⟨?_, ?_, ?_, ?_, ?_⟩
  · rw [gameUser]; exact solvent.score
  · rw [tasks]; exact solvent.amount
  · rw [tasks, mutex]; exact solvent.alone
  · rw [tasks, gameUser]; exact solvent.reading
  · rw [tasks]; exact solvent.covered

theorem Solvent.game {userId delta : ℤ} (solvent : Solvent server w) (careful : Careful server w (.game userId delta)) :
    Solvent server { w with
      gameUser := Function.update w.gameUser userId
        { w.gameUser userId with score := (w.gameUser userId).score + delta }
      won := Function.update w.won userId (w.won userId + delta) } := by
  obtain ⟨positive, nobody⟩ := careful
  refine ⟨fun u => ?_, solvent.amount, solvent.alone, fun i t here sub reading => ?_, solvent.covered⟩
  · dsimp only
    by_cases same : u = userId
    · rw [same, Function.update_self]
      exact positive
    · rw [Function.update_of_ne same]
      exact solvent.score u
  · have before := solvent.reading i t here sub reading
    dsimp only
    by_cases same : t.userId = userId
    · rw [same] at before
      rw [same, Function.update_self]
      rcases lt_or_ge delta 0 with loses | wins
      · exact absurd same (nobody loses t (List.mem_of_getElem? here) sub reading)
      · exact before.trans (le_add_of_nonneg_right wins)
    · rw [Function.update_of_ne same]
      exact before

theorem Solvent.request (solvent : Solvent server w) (amount : 0 ≤ t.score)
    (place : t.opType = .opSubScore → t.server = server ∧ t.stage.isInside = false) (early : t.stage.isReading = false) :
    Solvent server { w with tasks := w.tasks ++ [t] } := by
  have get {j : ℕ} {s : Task} (found : (w.tasks ++ [t])[j]? = some s) : w.tasks[j]? = some s ∨ s = t := by
    rw [List.getElem?_append] at found
    split at found
    · exact .inl found
    · exact .inr (List.mem_singleton.mp (List.mem_of_getElem? found))
  refine ⟨solvent.score, fun j s found => ?_, fun j s found sub => ?_, fun j s found sub reading => ?_,
    fun j s found sub covered => ?_⟩
  · rcases get found with old | rfl
    · exact solvent.amount j s old
    · exact amount
  · rcases get found with old | rfl
    · exact solvent.alone j s old sub
    · refine ⟨(place sub).1, fun inside => ?_⟩
      cases (place sub).2.symm.trans inside
  · rcases get found with old | rfl
    · exact solvent.reading j s old sub reading
    · cases early.symm.trans reading
  · rcases get found with old | rfl
    · exact solvent.covered j s old sub covered
    · cases early.symm.trans (reading_of_covered covered)

theorem solvent_step {event : Event} (solvent : Solvent server w) (careful : Careful server w event)
    (taken : step cfg w event = some w') : Solvent server w' := by
  cases event with
  | request server' opType account agentId buyScore score orderId =>
    obtain rfl := Option.some.inj taken
    obtain ⟨amount, place⟩ := careful
    cases opType with
    | opAddScore => exact solvent.request amount (by rintro ⟨⟩) rfl
    | opSubScore => exact solvent.request amount (fun sub => ⟨place sub, rfl⟩) rfl
  | perform i answer =>
    obtain ⟨t, here, taken⟩ := Option.bind_eq_some_iff.mp taken
    obtain ⟨⟨w₁, t'⟩, performed, taken⟩ := Option.bind_eq_some_iff.mp taken
    obtain rfl := Option.some.inj taken
    exact solvent.perform here (touch_of_perform performed)
  | game userId delta =>
    obtain rfl := Option.some.inj taken
    exact solvent.game careful
  | setOnline userId online =>
    obtain rfl := Option.some.inj taken
    exact solvent.congr rfl rfl rfl
  | audit userId status =>
    obtain rfl := Option.some.inj taken
    exact solvent.congr rfl rfl rfl
  | expire cached =>
    obtain rfl := Option.some.inj taken
    exact solvent.congr rfl rfl rfl
  | refreshAgentInfo server' =>
    obtain rfl := Option.some.inj taken
    exact solvent.congr rfl rfl rfl

/-- While one server makes all withdrawals, no score becomes negative. -/
theorem solvent_of_run {gameUser : ℤ → GameUser} {findOne : ℤ → String → Option ℤ} {proxyInfo : ℤ → ℤ}
    {userScoreAddLast : ℤ → Option ℤ} {events : List Event} (start : ∀ u, 0 ≤ (gameUser u).score)
    (run : Lib.Run (step cfg) (Careful server) (.start gameUser findOne proxyInfo userScoreAddLast) events w) :
    ∀ u, 0 ≤ (w.gameUser u).score := by
  have solvent : Solvent server w := by
    refine run.invariant (fun _ _ _ solvent careful taken => solvent_step solvent careful taken) ⟨start, ?_, ?_, ?_, ?_⟩
    · rintro i t ⟨⟩
    · rintro i t ⟨⟩
    · rintro i t ⟨⟩
    · rintro i t ⟨⟩
  exact solvent.score

/-- Two withdrawals, each of all that the user has, arrive together. -/
def twoWithdrawals (server : ℕ) : List Event :=
  [.request 0 .opSubScore "a" 1 false 100 "o", .request server .opSubScore "a" 1 false 100 "p"]

theorem solvent_of_run_twoWithdrawals :
    ∃ w, Lib.Run (step oneTable) (Careful 0)
        (.start (fun _ => ⟨100, 0, 0, 0, 0, 0⟩) (fun _ _ => some 7) (fun _ => 1000) fun _ => none)
        (twoWithdrawals 0 ++ List.replicate 14 (.perform 0 .done) ++ List.replicate 4 (.perform 1 .done)) w ∧
      (w.gameUser 7).score = 0 ∧ ∀ u, 0 ≤ (w.gameUser u).score := by
  have played : (Lib.replay (step oneTable)
        (.start (fun _ => ⟨100, 0, 0, 0, 0, 0⟩) (fun _ _ => some 7) (fun _ => 1000) fun _ => none)
        (twoWithdrawals 0 ++ List.replicate 14 (.perform 0 .done) ++ List.replicate 4 (.perform 1 .done))).map
        (fun w => (w.gameUser 7).score) = some 0 := by
    decide +kernel
  obtain ⟨w, done, score⟩ := Option.map_eq_some_iff.mp played
  have careful : ∀ event ∈ twoWithdrawals 0 ++ List.replicate 14 (.perform 0 .done) ++ List.replicate 4 (.perform 1 .done),
      ∀ s, Careful 0 s event := by
    intro event present s
    rcases List.mem_append.mp present with present | second
    · rcases List.mem_append.mp present with request | first
      · rcases List.mem_pair.mp request with rfl | rfl
        · exact ⟨by decide, fun _ => rfl⟩
        · exact ⟨by decide, fun _ => rfl⟩
      · rw [List.eq_of_mem_replicate first]
        trivial
    · rw [List.eq_of_mem_replicate second]
      trivial
  have run := Lib.run_of_replay_of careful done
  exact ⟨w, run, score, solvent_of_run (fun _ => by decide) run⟩

/-- Two servers read the score at the same time, and both pay it out. -/
theorem overdrawn : ∃ w, Lib.Run (step oneTable) (fun _ _ => True)
      (.start (fun _ => ⟨100, 0, 0, 0, 0, 0⟩) (fun _ _ => some 7) (fun _ => 1000) fun _ => none)
      (twoWithdrawals 1 ++ List.replicate 2 (.perform 0 .done) ++ List.replicate 2 (.perform 1 .done) ++
        List.replicate 12 (.perform 0 .done) ++ List.replicate 12 (.perform 1 .done)) w ∧
    (w.gameUser 7).score = -100 := by
  have played : (Lib.replay (step oneTable)
        (.start (fun _ => ⟨100, 0, 0, 0, 0, 0⟩) (fun _ _ => some 7) (fun _ => 1000) fun _ => none)
        (twoWithdrawals 1 ++ List.replicate 2 (.perform 0 .done) ++ List.replicate 2 (.perform 1 .done) ++
          List.replicate 12 (.perform 0 .done) ++ List.replicate 12 (.perform 1 .done))).map
        (fun w => (w.gameUser 7).score) = some (-100) := by
    decide +kernel
  obtain ⟨w, done, score⟩ := Option.map_eq_some_iff.mp played
  exact ⟨w, Lib.run_of_replay done, score⟩

/-! ## Approvals -/

/-- The approvals that have not been used. -/
def pending : Option AuditType → ℕ
  | some .auditOK => 1
  | _ => 0

def Approved (w : World) : Prop := ∀ u, w.passed u + pending (w.auditForm u) ≤ w.approvals u

/-- A check that asks for an approval and passes has found one. -/
theorem auditOK_of_passed {curscore : ℤ} {lastAddScore : Option ℤ} {audit audit' : Option AuditType}
    (check : hugeProfitCheck cfg curscore lastAddScore audit = some (true, audit'))
    (asked : asksAudit cfg curscore lastAddScore = true) : audit = some .auditOK ∧ audit' = some .pass := by
  rw [asksAudit, Bool.and_eq_true, decide_eq_true_eq] at asked
  obtain ⟨much, asked⟩ := asked
  cases lastAddScore with
  | none => cases asked
  | some last =>
    change needAudit cfg curscore last = true at asked
    unfold hugeProfitCheck at check
    rw [if_neg (not_lt.mpr much)] at check
    dsimp only at check
    split at check
    · cases check
    · cases audit with
      | none => cases check
      | some status =>
        cases status with
        | auditOK =>
          cases check
          exact ⟨rfl, rfl⟩
        | pass | error | auditNo => cases check

/-- No check gives an approval. -/
theorem pending_of_check {curscore : ℤ} {lastAddScore : Option ℤ} {ok : Bool} {audit audit' : Option AuditType}
    (check : hugeProfitCheck cfg curscore lastAddScore audit = some (ok, audit')) : pending audit' ≤ pending audit := by
  unfold hugeProfitCheck at check
  split at check
  · cases check
    exact le_rfl
  · split at check
    · cases check
      exact le_rfl
    · split at check
      · cases check
      · split at check
        · split at check <;> cases check <;> exact le_rfl
        · split at check <;> cases check <;> exact le_rfl
        · cases check
          exact Nat.zero_le _
        · cases check
          exact le_rfl
        · cases check
          exact le_rfl

theorem approved_step {event : Event} (approved : Approved w) (taken : step cfg w event = some w') : Approved w' := by
  cases event with
  | request server' opType account agentId buyScore score orderId =>
    obtain rfl := Option.some.inj taken
    exact approved
  | perform i answer =>
    obtain ⟨t, here, taken⟩ := Option.bind_eq_some_iff.mp taken
    obtain ⟨⟨w₁, t'⟩, performed, taken⟩ := Option.bind_eq_some_iff.mp taken
    obtain rfl := Option.some.inj taken
    cases touch_of_perform performed with
    | @checked stage ok audit check eq new moves after =>
      subst eq
      intro u
      have before := approved u
      dsimp only
      by_cases same : u = t.userId
      · subst same
        rw [Function.update_self]
        split
        next counts =>
          obtain ⟨rfl, asked⟩ := Bool.and_eq_true_iff.mp counts
          obtain ⟨was, rfl⟩ := auditOK_of_passed check asked
          rw [was] at before
          rw [Function.update_self]
          exact before
        · exact (Nat.add_le_add_left (pending_of_check check) _).trans before
      · rw [Function.update_of_ne same]
        split
        · rw [Function.update_of_ne same]
          exact before
        · exact before
    | moved users audit moves after =>
      intro u
      have before := approved u
      change w₁.passed u + pending (w₁.auditForm u) ≤ w₁.approvals u
      rwa [audit.auditForm, audit.approvals, audit.passed]
    | entered stage free eq after => subst eq; exact approved
    | found stage eq running uncovered after => subst eq; exact approved
    | booked stage eq running done after => subst eq; exact approved
    | left stage sub eq after => subst eq; exact approved
  | game userId delta =>
    obtain rfl := Option.some.inj taken
    exact approved
  | setOnline userId online =>
    obtain rfl := Option.some.inj taken
    exact approved
  | audit userId status =>
    obtain rfl := Option.some.inj taken
    intro u
    have before := approved u
    dsimp only
    by_cases same : u = userId
    · subst same
      rw [Function.update_self]
      by_cases given : status = .auditOK
      · rw [given, if_pos rfl, Function.update_self]
        exact Nat.succ_le_succ ((Nat.le_add_right _ _).trans before)
      · rw [if_neg given]
        refine le_trans (Nat.add_le_add_left ?_ _) before
        cases status with
        | auditOK => exact absurd rfl given
        | pass | error | auditNo => exact Nat.zero_le _
    · rw [Function.update_of_ne same]
      split
      · rw [Function.update_of_ne same]
        exact before
      · exact before
  | expire cached =>
    obtain rfl := Option.some.inj taken
    exact approved
  | refreshAgentInfo server' =>
    obtain rfl := Option.some.inj taken
    exact approved

/-- A withdrawal is held up, approved, and made. -/
def approval : List Event :=
  .request 0 .opSubScore "a" 1 false 3000 "o" :: List.replicate 4 (.perform 0 .done) ++ .audit 7 .auditOK ::
    .request 0 .opSubScore "a" 1 false 3000 "p" :: List.replicate 14 (.perform 1 .done)

end H5Server.Order
