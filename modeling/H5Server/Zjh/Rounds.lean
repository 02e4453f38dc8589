import H5Server.Zjh.Actions

/-! # The runs of a round

The ledger holds in every reachable state and at the settlement. A message that is rejected after its handler has
cancelled the timer freezes the round; where that does not happen, the timer alone ends it.
-/

namespace H5Server.Zjh

open Lib

variable {r : Round} {t t' : Table} {draw : Draw} {c i : Chair} {s : Settlement} {event : Event} {result : Option Table}

/-- The round goes on or has been settled. -/
def Sound (r : Round) (t : Table) : Prop := (∃ c, Playing r t c) ∨ ∃ s, Settled r t s

/-- The round has been concluded, or the timer runs for a player who is in. -/
def Live (t : Table) : Prop :=
  t.settlement.isSome = true ∨ t.armed = true ∧ ∃ c, t.currentUser = some c ∧ t.isIn c = true

/-- A message that is not rejected after its handler has cancelled the timer, and breaks no assertion. -/
def Harmless (r : Round) (t : Table) (event : Event) : Prop :=
  match event.message with
  | .giveUp i => t.isIn i = true → r.isAndroid i = true → t.isLooked i = true
  | .addScore i index => hasTurn t i = true →
      ¬(r.jettonList = [] ∧ index = -1) ∧
        (Raises r t i index ∨ r.jettonList.length ≤ index
          ∨ index = (r.jettonList.length : ℤ) - 1 ∧ r.jettonList.getLast? = some t.followScore)
  | .compareCard i peerUser => hasTurn t i = true → peerUser ≠ i.val
  | .allIn i => hasTurn t i = true → scoreByChairId r t i ≤ t.currentCompareScore i + t.tableScore i
  | _ => True

/-- A step does not stop the timer of a player who has the turn. -/
def Advances (r : Round) (t : Table) (result : Option Table) : Prop :=
  (r.jettonList.Pairwise (· < ·) → t.armed = true → result.isSome = true) ∧
    ∀ t', result = some t' → Keeps t t' ∧
      ((∃ c, Playing r t' c ∧ (t.armed = true → t'.armed = true)) ∨ ∃ s, Settled r t' s)

theorem Ends.advances {bound : ℕ} (ends : Ends r t bound result) : Advances r t result := by
  refine ⟨fun rises _ => ends.1 rises, fun t' made => ?_⟩
  obtain ⟨keeps, outcome⟩ := ends.2 t' made
  refine ⟨keeps, ?_⟩
  rcases outcome with ⟨c, playing, armed, -⟩ | settled
  · exact Or.inl ⟨c, playing, fun _ => armed⟩
  · exact Or.inr settled

theorem advances_some (keeps : Keeps t t') (playing : Playing r t' c) (armed : t'.armed = t.armed) :
    Advances r t (some t') := by
  refine ⟨fun _ _ => rfl, fun last made => ?_⟩
  cases made
  exact ⟨keeps, Or.inl ⟨c, playing, fun running => armed.trans running⟩⟩

theorem advances_self (playing : Playing r t c) : Advances r t (some t) := advances_some (Keeps.refl t) playing rfl

/-- The assertions of `GetCurrentAddStart` are checked while the clients are told. -/
theorem advances_map (keeps : Keeps t t') (playing : Playing r t' c) (armed : t'.armed = t.armed)
    (follow : 0 < t.followScore) : Advances r t ((getCurrentAddStart r.jettonList t.followScore).map fun _ => t') := by
  constructor
  · intro rises _
    obtain ⟨start, started⟩ := exists_getCurrentAddStart rises follow
    rw [started]
    rfl
  · intro last made
    obtain ⟨_, -, rfl⟩ := Option.map_eq_some_iff.mp made
    exact ⟨keeps, Or.inl ⟨c, playing, fun running => armed.trans running⟩⟩

/-! ## Messages -/

theorem eq_of_hasTurn (playing : Playing r t c) (turn : hasTurn t i = true) : i = c := by
  rw [hasTurn, Bool.and_eq_true, decide_eq_true_iff, playing.current] at turn
  exact (Option.some_inj.mp turn.2).symm

theorem advances_onUserLookCard (playing : Playing r t c) (i : Chair) : Advances r t (onUserLookCard r t i) := by
  rw [onUserLookCard, playing.current]
  dsimp only
  split
  · exact advances_self playing
  split
  · exact advances_self playing
  have playing' : Playing r { t with isLooked := Function.update t.isLooked i true, currentUser := some c } c :=
    { playing with current := rfl }
  exact advances_map (fun i outs => ⟨outs, rfl⟩) playing' rfl playing.follow

theorem advances_onUserTimeoutGiveUpSetting (playing : Playing r t c) (i : Chair) (giveup : Bool) :
    Advances r t (some (onUserTimeoutGiveUpSetting t i giveup)) := by
  rw [onUserTimeoutGiveUpSetting, playing.current]
  dsimp only
  split
  · exact advances_self playing
  · have playing' : Playing r { t with
        noGiveUpTimeout := Function.update t.noGiveUpTimeout i giveup, currentUser := some c } c :=
      { playing with current := rfl }
    exact advances_some (fun i outs => ⟨outs, rfl⟩) playing' rfl

theorem advances_onUserGiveUp (cell : 0 < r.cellScore) (playing : Playing r t c)
    (looked : t.isIn i = true → r.isAndroid i = true → t.isLooked i = true) :
    Advances r t (onUserGiveUp r t draw i false) := by
  cases here : t.isIn i
  · have unchanged : onUserGiveUp r t draw i false = some t := by
      rw [onUserGiveUp, playing.current]
      dsimp only
      rw [here, Bool.not_false, Bool.true_or, if_pos rfl]
    rw [unchanged]
    exact advances_self playing
  have allowed : ¬(r.isAndroid i = true ∧ (false = true ∨ (!t.isLooked i) = true)) := by
    rintro ⟨robot, timeout | unseen⟩
    · cases timeout
    · rw [looked here robot] at unseen
      cases unseen
  rcases eq_or_ne i c with rfl | other
  · exact (ends_onUserGiveUp cell playing false allowed).advances
  · rcases onUserGiveUp_other cell playing false here other allowed with ⟨t', keeps, playing', armed, same⟩ | ends
    · rw [same]
      exact advances_map keeps playing' armed playing.follow
    · exact ends.advances

theorem advances_messageAddScore (cell : 0 < r.cellScore) (playing : Playing r t c) {index : ℤ}
    (harmless : Harmless r t ⟨.addScore i index, draw⟩) : Advances r t (messageAddScore r t draw i index) := by
  rw [messageAddScore]
  cases turn : hasTurn t i
  · exact advances_self playing
  obtain ⟨inside, accepts⟩ := harmless turn
  obtain rfl := eq_of_hasTurn playing turn
  rw [Bool.not_true, if_neg Bool.false_ne_true]
  split
  · rename_i last
    cases most : r.jettonList.getLast? with
    | none =>
      rw [List.getLast?_eq_none_iff] at most
      rw [most] at last
      exact absurd ⟨most, last⟩ inside
    | some score =>
      dsimp only
      split
      · exact advances_self playing
      · rename_i lower
        rcases accepts with raises | outside | ⟨-, same⟩
        · exact (ends_onUserAddScore cell playing (by omega) raises).advances
        · omega
        · rw [most] at same
          exact absurd (Option.some_inj.mp same).symm lower
  · rename_i other
    split
    · exact advances_self playing
    · rename_i asks
      rcases accepts with raises | outside | ⟨same, -⟩
      · exact (ends_onUserAddScore cell playing (by omega) raises).advances
      · exact absurd (Or.inr outside) asks
      · exact absurd same other

theorem advances_messageCompareCard (cell : 0 < r.cellScore) (playing : Playing r t c) {peerUser : ℕ}
    (harmless : Harmless r t ⟨.compareCard i peerUser, draw⟩) : Advances r t (messageCompareCard r t draw i peerUser) := by
  rw [messageCompareCard]
  cases turn : hasTurn t i
  · exact advances_self playing
  have other := harmless turn
  obtain rfl := eq_of_hasTurn playing turn
  have compare {from_ nextUser : Chair} (found : t.getNextUser from_ true = some nextUser) :
      Advances r t (onUserCompareCard r t draw i nextUser) := by
    obtain ⟨next, found', here, apart⟩ := exists_opponent playing from_
    obtain rfl := Option.some.inj (found.symm.trans found')
    exact (ends_onUserCompareCard cell playing here apart).advances
  rw [Bool.not_true, if_neg Bool.false_ne_true]
  split
  · rename_i seated
    dsimp only
    split
    · split
      · exact advances_self playing
      · split
        · exact advances_self playing
        · next found => exact compare found
    · rename_i stays
      have here : t.isIn (Fin.ofNat 5 peerUser) = true :=
        isIn_iff.mpr ⟨seated.2, Bool.eq_false_iff.mpr stays⟩
      have apart : i ≠ Fin.ofNat 5 peerUser := by
        rintro same
        apply other
        rw [same]
        exact (Nat.mod_eq_of_lt seated.1).symm
      exact (ends_onUserCompareCard cell playing here apart).advances
  · split
    · split
      · exact advances_self playing
      · next found => exact compare found
    · exact advances_self playing

theorem advances_messageAllIn (cell : 0 < r.cellScore) (playing : Playing r t c)
    (harmless : Harmless r t ⟨.allIn i, draw⟩) : Advances r t (messageAllIn r t draw i) := by
  rw [messageAllIn]
  cases turn : hasTurn t i
  · exact advances_self playing
  have covers := harmless turn
  obtain rfl := eq_of_hasTurn playing turn
  exact (ends_allInNext cell playing covers).advances

/-! ## The timer -/

theorem isAndroid_of_giveup (operate : timeoutOperate r t c = .giveup) : r.isAndroid c = false := by
  by_contra robot
  rw [timeoutOperate, if_pos (Bool.not_eq_false _ ▸ robot)] at operate
  cases operate

theorem lt_of_allin (operate : timeoutOperate r t c = .allin) :
    scoreByChairId r t c < t.currentCompareScore c + t.tableScore c := by
  rw [timeoutOperate] at operate
  split at operate
  · cases operate
  split at operate
  · split at operate
    · cases operate
    split at operate
    · split at operate <;> cases operate
    split at operate
    · assumption
    · cases operate
  · cases operate

/-- The timer acts for the player with the turn. -/
theorem ends_onTimerWaitingOver (cell : 0 < r.cellScore) (playing : Playing r t c) (random : Chair) :
    Ends r t (progress t c) (onTimerWaitingOver r t draw random) := by
  have playing₁ : Playing r { t with armed := false } c := { playing with }
  have ends : Ends r { t with armed := false } (progress { t with armed := false } c)
      (onTimerWaitingOver r t draw random) := by
    rw [onTimerWaitingOver]
    generalize ({ t with armed := false } : Table) = t₁ at playing₁ ⊢
    rw [playing₁.current]
    dsimp only
    rw [playing₁.here, Bool.not_true, if_neg Bool.false_ne_true]
    cases operate : timeoutOperate r t₁ c with
    | giveup =>
      apply ends_onUserGiveUp cell playing₁ true
      rintro ⟨robot, -⟩
      rw [isAndroid_of_giveup operate] at robot
      cases robot
    | follow =>
      apply ends_onUserAddScore cell playing₁
      · omega
      · exact Or.inl (by decide)
    | compare =>
      obtain ⟨next, found, here, apart⟩ := exists_opponent playing₁ random
      dsimp only
      rw [found]
      exact ends_onUserCompareCard cell playing₁ here apart
    | allin =>
      obtain ⟨next, found, here, apart⟩ := exists_opponent playing₁ (seatAfter c 1)
      dsimp only
      rw [found]
      exact ends_onUserAllIn cell playing₁ here apart (lt_of_allin operate).le
  exact ends.of_keeps (fun i outs => ⟨outs, rfl⟩) le_rfl

/-! ## Steps -/

/-- Who is out takes nothing with him. -/
theorem isIn_of_left (outs : t.out i = true) :
    Table.isIn { t with existUser := Function.update t.existUser i false } = t.isIn := by
  funext j
  show (Function.update t.existUser i false j && !t.out j) = (t.existUser j && !t.out j)
  rcases eq_or_ne j i with rfl | other
  · rw [outs, Bool.not_true, Bool.and_false, Bool.and_false]
  · rw [Function.update_of_ne other]

theorem Ledger.left (ledger : Ledger r t) (outs : t.out i = true) :
    Ledger r { t with existUser := Function.update t.existUser i false } := by
  refine ⟨fun j => ?_, ledger.2⟩
  show Seat r j (Function.update t.existUser i false j) _ _ _ _
  have seat := ledger.1 j
  rcases eq_or_ne j i with rfl | other
  · rw [outs] at seat
    rw [Function.update_self]
    exact outs.symm ▸ seat.leave
  · rw [Function.update_of_ne other]
    exact seat

theorem Playing.left (playing : Playing r t c) (outs : t.out i = true) :
    Playing r { t with existUser := Function.update t.existUser i false } c :=
  have same := isIn_of_left outs
  { playing with
    ledger := playing.ledger.left outs
    banker := (congrFun same _).trans playing.banker
    here := (congrFun same _).trans playing.here
    two := by
      rw [Table.leftPlayerCount, same]
      exact playing.two }

/-- Every harmless step of a round that goes on keeps the timer running. -/
theorem advances_step (cell : 0 < r.cellScore) (playing : Playing r t c) (harmless : Harmless r t event) :
    Advances r t (step r t event) := by
  obtain ⟨message, draw⟩ := event
  cases message with
  | lookCard i => exact advances_onUserLookCard playing i
  | giveUp i => exact advances_onUserGiveUp cell playing harmless
  | addScore i index => exact advances_messageAddScore cell playing harmless
  | compareCard i peerUser => exact advances_messageCompareCard cell playing harmless
  | allIn i => exact advances_messageAllIn cell playing harmless
  | giveUpTimeout i giveup => exact advances_onUserTimeoutGiveUpSetting playing i giveup
  | timer random =>
    rw [step]
    dsimp only
    cases armed : t.armed
    · rw [if_neg Bool.false_ne_true]
      constructor
      · intro _ running
        rw [armed] at running
        cases running
      · intro t' made
        cases made
    · exact (ends_onTimerWaitingOver cell playing random).advances
  | left i =>
    rw [step]
    dsimp only
    split
    · rename_i outs
      exact advances_some (fun j gone => ⟨gone, rfl⟩) (playing.left outs) rfl
    · exact advances_self playing

theorem eq_of_onUserAddScore_of_not_raises (playing : Playing r t c) {index : ℤ} (refused : ¬Raises r t c index)
    (taken : onUserAddScore r t draw c index = some t') : t' = { t with armed := false } := by
  have positive : ¬index ≤ 0 := fun small => refused (Or.inl small)
  have real : ¬r.isAndroid c = true := fun robot => refused (Or.inr (Or.inl robot))
  have turn : ¬(!hasTurn { t with armed := false } c) = true := by
    show ¬(!hasTurn t c) = true
    rw [hasTurn_of_playing playing]
    exact Bool.false_ne_true
  have asked : onUserAddScore r t draw c index =
      (getCurrentAddStart r.jettonList t.followScore).bind fun start =>
        if start ≤ 0 ∨ index < start then some { t with armed := false }
        else if r.jettonList.length ≤ index then some { t with armed := false }
        else
          let t := { t with armed := false, followScore := r.jettonList.getD index.toNat 0 }
          betOrAllIn r t draw c (t.currentAddScore c) := by
    rw [onUserAddScore]
    refine (if_neg turn).trans ((if_neg positive).trans ?_)
    simp only [if_neg real]
  rw [asked] at taken
  obtain ⟨start, found, taken⟩ := Option.bind_eq_some_iff.mp taken
  rw [if_pos] at taken
  · cases taken
    rfl
  · by_contra accepts
    push Not at accepts
    exact refused (Or.inr (Or.inr ⟨start, found, accepts.1, accepts.2⟩))

theorem onUserCompareCard_self (playing : Playing r t c) :
    onUserCompareCard r t draw c c = some { t with armed := false } := by
  have turn : ¬(!hasTurn { t with armed := false } c || !Table.isIn { t with armed := false } c) = true := by
    show ¬(!hasTurn t c || !t.isIn c) = true
    rw [hasTurn_of_playing playing, playing.here]
    exact Bool.false_ne_true
  exact (if_neg turn).trans (if_pos rfl)

theorem allInNext_of_lt (playing : Playing r t c)
    (affordable : t.currentCompareScore c + t.tableScore c < scoreByChairId r t c) :
    allInNext r t draw c = some { t with armed := false } := by
  obtain ⟨next, found, here, apart⟩ := exists_opponent playing (seatAfter c 1)
  have turn : ¬(!hasTurn { t with armed := false } c || !Table.isIn { t with armed := false } next) = true := by
    show ¬(!hasTurn t c || !t.isIn next) = true
    rw [hasTurn_of_playing playing, here]
    exact Bool.false_ne_true
  rw [allInNext, found]
  exact (if_neg turn).trans ((if_neg apart).trans (if_pos affordable))

theorem eq_of_messageAddScore (playing : Playing r t c) {index : ℤ} (turn : hasTurn t c = true)
    (refused : ¬(¬(r.jettonList = [] ∧ index = -1) ∧ (Raises r t c index ∨ r.jettonList.length ≤ index
      ∨ index = (r.jettonList.length : ℤ) - 1 ∧ r.jettonList.getLast? = some t.followScore)))
    (taken : messageAddScore r t draw c index = some t') : t' = { t with armed := false } := by
  rw [messageAddScore, turn, Bool.not_true, if_neg Bool.false_ne_true] at taken
  rcases Classical.em (r.jettonList = [] ∧ index = -1) with ⟨empty, last⟩ | inside
  · rw [empty, last, if_pos (by rfl)] at taken
    cases taken
  obtain ⟨lower, others⟩ := not_or.mp fun accepts => refused ⟨inside, accepts⟩
  obtain ⟨within, apart⟩ := not_or.mp others
  have positive : ¬index ≤ 0 := fun small => lower (Or.inl small)
  split at taken
  · rename_i last
    cases most : r.jettonList.getLast? with
    | none =>
      rw [most] at taken
      cases taken
    | some score =>
      have different : ¬t.followScore = score := fun same => apart ⟨last, by rw [most, same]⟩
      rw [most] at taken
      dsimp only at taken
      rw [if_neg different] at taken
      exact eq_of_onUserAddScore_of_not_raises playing lower taken
  · rw [if_neg (by omega)] at taken
    exact eq_of_onUserAddScore_of_not_raises playing lower taken

/-- A step that is not harmless stops the timer, or breaks an assertion. -/
theorem eq_of_step_of_not_harmless (playing : Playing r t c) (harmful : ¬Harmless r t event)
    (taken : step r t event = some t') : t' = { t with armed := false } := by
  obtain ⟨message, draw⟩ := event
  cases message with
  | giveUp i =>
    have refused : ¬(t.isIn i = true → r.isAndroid i = true → t.isLooked i = true) := harmful
    push Not at refused
    obtain ⟨here, robot, unseen⟩ := refused
    have failed : onUserGiveUp r t draw i false = none := by
      rw [onUserGiveUp, playing.current]
      dsimp only
      rw [here, playing.here, if_neg (show ¬(!true || !true) = true from Bool.false_ne_true), if_pos]
      exact ⟨robot, Or.inr ((Bool.not_eq_true' _).mpr (Bool.eq_false_iff.mpr unseen))⟩
    cases failed.symm.trans taken
  | addScore i index =>
    have refused : ¬(hasTurn t i = true → ¬(r.jettonList = [] ∧ index = -1) ∧ (Raises r t i index
      ∨ r.jettonList.length ≤ index
      ∨ index = (r.jettonList.length : ℤ) - 1 ∧ r.jettonList.getLast? = some t.followScore)) := harmful
    obtain ⟨turn, refused⟩ := Classical.not_imp.mp refused
    obtain rfl := eq_of_hasTurn playing turn
    exact eq_of_messageAddScore playing turn refused taken
  | compareCard i peerUser =>
    have refused : ¬(hasTurn t i = true → peerUser ≠ i.val) := harmful
    push Not at refused
    obtain ⟨turn, rfl⟩ := refused
    obtain rfl := eq_of_hasTurn playing turn
    have asked : messageCompareCard r t draw i i.val = some t' := taken
    obtain ⟨exist, stays⟩ := isIn_iff.mp playing.here
    have same : Fin.ofNat 5 i.val = i := Fin.ext (Nat.mod_eq_of_lt i.isLt)
    rw [messageCompareCard, turn, Bool.not_true, if_neg Bool.false_ne_true, same, if_pos ⟨i.isLt, exist⟩] at asked
    dsimp only at asked
    rw [stays, if_neg Bool.false_ne_true, onUserCompareCard_self playing] at asked
    cases asked
    rfl
  | allIn i =>
    have refused : ¬(hasTurn t i = true → scoreByChairId r t i ≤ t.currentCompareScore i + t.tableScore i) := harmful
    push Not at refused
    obtain ⟨turn, covered⟩ := refused
    obtain rfl := eq_of_hasTurn playing turn
    have asked : messageAllIn r t draw i = some t' := taken
    rw [messageAllIn, turn, Bool.not_true, if_neg Bool.false_ne_true, allInNext_of_lt playing covered] at asked
    cases asked
    rfl
  | lookCard i => exact absurd trivial harmful
  | giveUpTimeout i giveup => exact absurd trivial harmful
  | timer random => exact absurd trivial harmful
  | left i => exact absurd trivial harmful

/-- Nothing is left to do after the settlement, but players who are out may leave. -/
theorem eq_of_step_of_settled (settled : Settled r t s) (taken : step r t event = some t') :
    t' = t ∨ ∃ i, t.out i = true ∧ t' = { t with existUser := Function.update t.existUser i false } := by
  have turn : ∀ i, hasTurn t i = false := by
    intro i
    rw [hasTurn, settled.current]
    exact Bool.and_false _
  have unchanged : some t = some t' → t' = t ∨ ∃ i, t.out i = true
      ∧ t' = { t with existUser := Function.update t.existUser i false } := by
    intro same
    exact Or.inl (Option.some_inj.mp same).symm
  obtain ⟨message, draw⟩ := event
  cases message with
  | lookCard i =>
    have asked : onUserLookCard r t i = some t' := taken
    rw [onUserLookCard, settled.current] at asked
    exact unchanged asked
  | giveUp i =>
    have asked : onUserGiveUp r t draw i false = some t' := taken
    rw [onUserGiveUp, settled.current] at asked
    exact unchanged asked
  | addScore i index =>
    have asked : messageAddScore r t draw i index = some t' := taken
    rw [messageAddScore, turn] at asked
    exact unchanged asked
  | compareCard i peerUser =>
    have asked : messageCompareCard r t draw i peerUser = some t' := taken
    rw [messageCompareCard, turn] at asked
    exact unchanged asked
  | allIn i =>
    have asked : messageAllIn r t draw i = some t' := taken
    rw [messageAllIn, turn] at asked
    exact unchanged asked
  | giveUpTimeout i giveup =>
    have asked : some (onUserTimeoutGiveUpSetting t i giveup) = some t' := taken
    rw [onUserTimeoutGiveUpSetting, settled.current] at asked
    exact unchanged asked
  | timer random =>
    rw [step] at taken
    dsimp only at taken
    rw [settled.armed] at taken
    cases taken
  | left i =>
    rw [step] at taken
    dsimp only at taken
    split at taken
    · rename_i outs
      cases taken
      exact Or.inr ⟨i, outs, rfl⟩
    · exact unchanged taken

theorem settled_step (settled : Settled r t s) (taken : step r t event = some t') : Keeps t t' ∧ Settled r t' s := by
  rcases eq_of_step_of_settled settled taken with rfl | ⟨i, outs, rfl⟩
  · exact ⟨Keeps.refl t', settled⟩
  · refine ⟨fun j gone => ⟨gone, rfl⟩, { settled with only := fun j => ?_ }⟩
    rw [isIn_of_left outs]
    exact settled.only j

theorem sound_step (cell : 0 < r.cellScore) (sound : Sound r t) (taken : step r t event = some t') :
    Keeps t t' ∧ Sound r t' := by
  rcases sound with ⟨c, playing⟩ | ⟨s, settled⟩
  · rcases Classical.em (Harmless r t event) with harmless | harmful
    · obtain ⟨keeps, outcome⟩ := (advances_step cell playing harmless).2 t' taken
      exact ⟨keeps, outcome.imp_left fun ⟨c, playing, _⟩ => ⟨c, playing⟩⟩
    · rw [eq_of_step_of_not_harmless playing harmful taken]
      exact ⟨fun i gone => ⟨gone, rfl⟩, Or.inl ⟨c, { playing with }⟩⟩
  · obtain ⟨keeps, settled'⟩ := settled_step settled taken
    exact ⟨keeps, Or.inr ⟨s, settled'⟩⟩

theorem Sound.stakes (sound : Sound r t) :
    t.tableAllScore = ∑ i with r.players i = true, t.tableScore i
      ∧ ∀ i, r.players i = true → r.cellScore ≤ t.tableScore i ∧ t.tableScore i ≤ r.userScore i := by
  rcases sound with ⟨c, playing⟩ | ⟨s, settled⟩
  · exact ⟨playing.ledger.total, fun i => (playing.ledger.1 i).bounds⟩
  · exact ⟨settled.total, settled.stakes⟩

theorem Sound.settled (sound : Sound r t) (ended : t.settlement = some s) : Settled r t s := by
  rcases sound with ⟨c, playing⟩ | ⟨s', settled⟩
  · rw [playing.open_] at ended
    cases ended
  · cases settled.settlement.symm.trans ended
    exact settled

/-! ## The start -/

theorem pos_of_getCurrentAddStart {jettonList : List ℤ} {followScore start : ℤ}
    (found : getCurrentAddStart jettonList followScore = some start) : 0 < followScore := by
  by_contra low
  rw [getCurrentAddStart, if_pos low] at found
  cases found

/-- The player after the banker begins. -/
theorem playing_of_start {bankerUser : Chair} {deal : Deal} (plays : r.players bankerUser = true)
    (enough : ∀ i, r.players i = true → r.cellScore ≤ r.userScore i) (start : onGameStart r bankerUser deal = some t) :
    0 < r.cellScore ∧ t.armed = true ∧ ∃ c, Playing r t c := by
  obtain ⟨firstUser, found, start⟩ := Option.bind_eq_some_iff.mp start
  obtain ⟨_, started, same⟩ := Option.map_eq_some_iff.mp start
  have cell := pos_of_getCurrentAddStart started
  have first : r.players firstUser = true := List.find?_some found
  obtain ⟨k, small, after⟩ := List.mem_map.mp (List.mem_of_find?_eq_some found)
  have other : firstUser ≠ bankerUser := by
    rw [← after]
    exact seatAfter_ne (by omega) (by have := List.mem_range.mp small; omega)
  have isIn : ∀ i, t.isIn i = r.players i := by
    intro i
    rw [← same]
    exact Bool.and_true _
  have ledger : Ledger r t := by
    subst same
    refine ⟨fun i => ?_, rfl⟩
    constructor
    · intro away
      refine ⟨away, rfl, ?_⟩
      show (if r.players i = true then r.cellScore else 0) = 0
      rw [away, if_neg Bool.false_ne_true]
    · intro here
      show r.cellScore ≤ (if r.players i = true then r.cellScore else 0) ∧ (if r.players i = true then r.cellScore else 0) ≤ _
      rw [if_pos here]
      exact ⟨le_rfl, enough i here⟩
    · intro here _
      refine ⟨here, ?_⟩
      show (if r.players i = true then r.cellScore else 0) = r.cellScore + 0
      rw [if_pos here, add_zero]
    · intro s absent
      cases absent
    · rfl
  have two : 2 ≤ t.leftPlayerCount := by
    by_contra few
    have only := only_of_lt few ((isIn bankerUser).trans plays)
    exact other ((only firstUser).mp ((isIn firstUser).trans first))
  have here : t.isIn firstUser = true := (isIn firstUser).trans first
  have banker : t.isIn bankerUser = true := (isIn bankerUser).trans plays
  subst same
  refine ⟨cell, rfl, firstUser, ?_⟩
  exact ⟨⟨ledger, rfl, banker, first, show (0 : ℕ) < 20 by decide, cell⟩, rfl, here, two⟩

/-! ## The timer alone -/

/-- The expiry of the timer. -/
def expiry (random : Chair × Draw) : Event := ⟨.timer random.1, random.2⟩

/-- Every expiry of the timer brings the round nearer to its end, up to the settlement. -/
theorem settles (cell : 0 < r.cellScore) (rises : r.jettonList.Pairwise (· < ·)) (playing : Playing r t c)
    (armed : t.armed = true) {expiries : List (Chair × Draw)} (many : progress t c ≤ expiries.length) :
    ∃ k ≤ progress t c, ∃ t', replay (step r) t ((expiries.take k).map expiry) = some t'
      ∧ t'.settlement.isSome = true := by
  induction expiries generalizing t c with
  | nil =>
    have two := playing.two
    rw [progress, List.length_nil] at many
    omega
  | cons random rest ih =>
    have ends : Ends r t (progress t c) (step r t (expiry random)) := by
      have fires : step r t (expiry random) = onTimerWaitingOver r t random.2 random.1 := if_pos armed
      rw [fires]
      exact ends_onTimerWaitingOver cell playing random.1
    obtain ⟨t', taken⟩ := Option.isSome_iff_exists.mp (ends.1 rises)
    obtain ⟨-, outcome⟩ := ends.2 t' taken
    rcases outcome with ⟨c', playing', armed', nearer⟩ | ⟨s, settled⟩
    · obtain ⟨k, bound, last, replayed, ended⟩ := ih playing' armed' (by rw [List.length_cons] at many; omega)
      refine ⟨k + 1, by omega, last, ?_, ended⟩
      rw [List.take_succ_cons, List.map_cons, replay, taken]
      exact replayed
    · refine ⟨1, ?_, t', ?_, by rw [settled.settlement]; rfl⟩
      · have two := playing.two
        rw [progress]
        omega
      · rw [List.take_succ_cons, List.take_zero, List.map_cons, List.map_nil, replay, taken]
        rfl

/-- A step keeps the round alive exactly when it is harmless. -/
theorem live_step_iff (cell : 0 < r.cellScore) (rises : r.jettonList.Pairwise (· < ·)) (playing : Playing r t c)
    (armed : t.armed = true) : (∃ t', step r t event = some t' ∧ Live t') ↔ Harmless r t event := by
  constructor
  · rintro ⟨t', taken, live⟩
    by_contra harmful
    rw [eq_of_step_of_not_harmless playing harmful taken] at live
    rcases live with ended | ⟨running, -⟩
    · rw [playing.open_] at ended
      cases ended
    · cases running
  · intro harmless
    have advances := advances_step cell playing harmless
    obtain ⟨t', taken⟩ := Option.isSome_iff_exists.mp (advances.1 rises armed)
    refine ⟨t', taken, ?_⟩
    rcases (advances.2 t' taken).2 with ⟨c', playing', running⟩ | ⟨s, settled⟩
    · exact Or.inr ⟨running armed, c', playing'.current, playing'.here⟩
    · exact Or.inl (by rw [settled.settlement]; rfl)

theorem progress_bound (t : Table) (c : Chair) : progress t c ≤ 109 := by
  have players : t.leftPlayerCount ≤ 5 := List.countP_le_length.trans (List.length_finRange).le
  have seats := ahead_le t.firstUser c
  rw [progress]
  omega

/-! ## Runs -/

section Runs

variable {bankerUser : Chair} {deal : Deal} {start : Table} {events : List Event}
  (plays : r.players bankerUser = true) (enough : ∀ i, r.players i = true → r.cellScore ≤ r.userScore i)
  (starts : onGameStart r bankerUser deal = some start)

include plays enough starts

theorem sound_of_run (run : Run (step r) (fun _ _ => True) start events t) : 0 < r.cellScore ∧ Sound r t := by
  obtain ⟨cell, -, playing⟩ := playing_of_start plays enough starts
  refine ⟨cell, ?_⟩
  apply run.invariant
  · intro t event t' sound _ taken
    exact (sound_step cell sound taken).2
  · exact Or.inl playing

/-- In every reachable state the stakes add up and are covered, and who is out keeps his stake; at the settlement
one player is in, and every real player has been paid once. -/
theorem ledger_of_run (run : Run (step r) (fun _ _ => True) start events t) :
    t.tableAllScore = ∑ i with r.players i = true, t.tableScore i
      ∧ (∀ i, r.players i = true → r.cellScore ≤ t.tableScore i ∧ t.tableScore i ≤ r.userScore i)
      ∧ (∀ event t', step r t event = some t' →
          ∀ i, t.out i = true → t'.out i = true ∧ t'.tableScore i = t.tableScore i)
      ∧ ∀ s, t.settlement = some s →
          (∀ i, t.isIn i = true ↔ i = s.winUser) ∧ t.bankerUser = s.winUser
          ∧ (∀ i, r.players i = true → i ≠ s.winUser → r.isAndroid i = false → t.writes i = [-t.tableScore i])
          ∧ (r.isAndroid s.winUser = false → ∃ score, t.writes s.winUser = [score])
          ∧ ∑ i with r.players i = true, s.userWinScore i = 0 := by
  obtain ⟨cell, sound⟩ := sound_of_run plays enough starts run
  obtain ⟨total, stakes⟩ := sound.stakes
  refine ⟨total, stakes, fun event t' taken => (sound_step cell sound taken).1, fun s ended => ?_⟩
  have settled := sound.settled ended
  exact ⟨settled.only, settled.banker, settled.losers, settled.winner, settled.sum⟩

/-- In every run of harmless messages the timer runs for a player who is in until the round has been concluded.
While it goes on a message keeps it alive exactly when it is harmless, and the timer alone ends it. -/
theorem live_of_run (rises : r.jettonList.Pairwise (· < ·)) (run : Run (step r) (Harmless r) start events t) :
    Live t ∧ (t.settlement = none →
      t.currentTurn < 20
        ∧ (∀ event, (∃ t', step r t event = some t' ∧ Live t') ↔ Harmless r t event)
        ∧ ∀ expiries : List (Chair × Draw), 109 ≤ expiries.length → ∃ k ≤ 109, ∃ t',
          replay (step r) t ((expiries.take k).map expiry) = some t' ∧ t'.settlement.isSome = true) := by
  obtain ⟨cell, armed, c, playing⟩ := playing_of_start plays enough starts
  have invariant : (∃ c, Playing r t c ∧ t.armed = true) ∨ ∃ s, Settled r t s := by
    apply run.invariant
    · rintro t event t' (⟨c, playing, armed⟩ | ⟨s, settled⟩) harmless taken
      · rcases ((advances_step cell playing harmless).2 t' taken).2 with ⟨c', playing', running⟩ | settled
        · exact Or.inl ⟨c', playing', running armed⟩
        · exact Or.inr settled
      · exact Or.inr ⟨s, (settled_step settled taken).2⟩
    · exact Or.inl ⟨c, playing, armed⟩
  rcases invariant with ⟨c, playing, armed⟩ | ⟨s, settled⟩
  · refine ⟨Or.inr ⟨armed, c, playing.current, playing.here⟩, fun _ => ⟨playing.turn, ?_, ?_⟩⟩
    · exact fun event => live_step_iff cell rises playing armed
    · intro expiries many
      have bound := progress_bound t c
      obtain ⟨k, few, settled⟩ := settles cell rises playing armed (bound.trans many)
      exact ⟨k, few.trans bound, settled⟩
  · refine ⟨Or.inl (by rw [settled.settlement]; rfl), fun goes => ?_⟩
    rw [settled.settlement] at goes
    cases goes

end Runs

/-- Two real players with a hundred times the lowest score. -/
def twoPlayers : Round where
  cellScore := 10
  jettonList := [10, 20, 50]
  players i := i = 0 || i = 1
  userScore _ := 1000
  isAndroid _ := false
  special235 := false
  calculateRevenue score := score / 20

def pairAgainstHigh : Deal where
  handCards i := if i = 0 then [0x02, 0x12, 0x05] else [0x0E, 0x19, 0x27]
  handCardsType i := if i = 0 then .ty20 else .tysp
  madeMaxCards := [0, 0, 0]
  madeMaxCardsType := .tyNil

/-- Player 1 begins. -/
def opening : Table := (onGameStart twoPlayers 0 pairAgainstHigh).get (by decide)

theorem twoPlayers_starts : onGameStart twoPlayers 0 pairAgainstHigh = some opening := (Option.some_get _).symm

theorem twoPlayers_enough (i : Chair) (_ : twoPlayers.players i = true) :
    twoPlayers.cellScore ≤ twoPlayers.userScore i :=
  show (10 : ℤ) ≤ 1000 by decide

def sent (message : Message) : Event := ⟨message, fun _ _ => false⟩

/-- Player 1 raises, and player 0 looks at his hand and gives up. -/
def givenUp : List Event := [sent (.addScore 1 1), sent (.lookCard 0), sent (.giveUp 0)]

/-- The raise is on the table: the winner has 20 more in it, and the other has paid the lowest score. -/
theorem givenUp_ledger : ∃ t s, replay (step twoPlayers) opening givenUp = some t ∧ t.settlement = some s
    ∧ t.tableScore 1 = 30 ∧ t.bankerUser = 1 ∧ t.writes 0 = [-10]
    ∧ ∑ i with twoPlayers.players i = true, s.userWinScore i = 0 := by
  obtain ⟨t, replayed⟩ : ∃ t, replay (step twoPlayers) opening givenUp = some t :=
    Option.isSome_iff_exists.mp (by decide)
  obtain ⟨s, ended⟩ : ∃ s, t.settlement = some s := by
    apply Option.isSome_iff_exists.mp
    have settled : (replay (step twoPlayers) opening givenUp).any (·.settlement.isSome) = true := by decide
    rwa [replayed] at settled
  have values : (replay (step twoPlayers) opening givenUp).map
      (fun t => (t.tableScore 1, t.bankerUser, t.writes 0)) = some (30, 1, [-10]) := by decide
  rw [replayed, Option.map_some, Option.some_inj, Prod.mk.injEq, Prod.mk.injEq] at values
  have ledger := (ledger_of_run rfl twoPlayers_enough twoPlayers_starts (run_of_replay replayed)).2.2.2 s ended
  exact ⟨t, s, replayed, ended, values.1, values.2.1, values.2.2, ledger.2.2.2.2⟩

/-- The table after the raise of player 1. -/
def raised : Table := (step twoPlayers opening (sent (.addScore 1 1))).get (by decide)

theorem run_raised : Run (step twoPlayers) (Harmless twoPlayers) opening [sent (.addScore 1 1)] raised := by
  have harmless : Harmless twoPlayers opening (sent (.addScore 1 1)) := by
    intro _
    refine ⟨fun both => List.cons_ne_nil _ _ both.1, Or.inl (Or.inr (Or.inr ⟨1, ?_, by decide, le_rfl⟩))⟩
    decide
  exact .cons harmless (Option.some_get _).symm (.nil _)

/-- After a raise player 0 may look, and the timer ends the round. -/
theorem raised_live : Live raised ∧ (∃ t', step twoPlayers raised (sent (.lookCard 0)) = some t' ∧ Live t') := by
  have live := live_of_run rfl twoPlayers_enough twoPlayers_starts
    (show [(10 : ℤ), 20, 50].Pairwise (· < ·) by decide) run_raised
  have goes : raised.settlement = none := Option.isNone_iff_eq_none.mp (by decide)
  exact ⟨live.1, ((live.2 goes).2.1 _).mpr trivial⟩

/-- Going all in with enough for a comparison, comparing with oneself and raising by less than the last raise: each
of these messages stops the timer of the player who sends it. -/
theorem raised_frozen : Run (step twoPlayers) (fun _ _ => True) opening [sent (.addScore 1 1)] raised
    ∧ ∀ message ∈ [Message.allIn 0, .compareCard 0 0, .addScore 0 1],
        ∃ t', step twoPlayers raised (sent message) = some t' ∧ ¬Live t' := by
  refine ⟨run_raised.mono fun _ _ _ => trivial, fun message present => ?_⟩
  have stops : ∀ message ∈ [Message.allIn 0, .compareCard 0 0, .addScore 0 1],
      (step twoPlayers raised (sent message)).map (fun t => (t.armed, t.settlement.isSome)) = some (false, false) := by
    decide
  obtain ⟨t', taken, stopped⟩ := Option.map_eq_some_iff.mp (stops message present)
  rw [Prod.mk.injEq] at stopped
  refine ⟨t', taken, ?_⟩
  rintro (ended | ⟨armed, -⟩)
  · rw [stopped.2] at ended
    cases ended
  · rw [stopped.1] at armed
    cases armed

end H5Server.Zjh
