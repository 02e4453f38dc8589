import H5Server.Bbqznn.Calls

/-! # Every phase of a round ends

When the timer of a phase expires it takes the default action for those who have not acted. A default call and
an opened hand are always accepted, but a default bet is rejected if the player or the banker cannot afford the
lowest jetton. The timer is armed once, so that the round then stays in the phase of the bets.
-/

namespace H5Server.Bbqznn

open Lib

variable (g : Game)

/-- What the expiry of the timer needs. -/
def DefaultsAccepted (t : Table) : Prop :=
  match t.status with
  | .call => Electable g t.callBanker
  | .score => ∀ b, t.bankerUser = some b → ∀ i, Wagers g t i → Affordable g (t.callBanker b) (g.score b) (g.score i)
  | _ => True

/-- A call that `OnUserCallBanker` records and that is the last one. -/
def LastCall (t : Table) (i : Chair) (callFlag : ℤ) : Prop :=
  t.status = .call ∧ t.callBanker i = -1 ∧ 0 ≤ callFlag ∧ (callFlag = 0 ∨ ∃ j, g.callable i j = callFlag)
    ∧ ∀ j, g.playStatus j = true → j ≠ i → t.callBanker j ≠ -1

/-- The condition on a step: a phase ends with accepted actions. -/
def Allowed (t : Table) : Event → Prop
  | .callBanker i callFlag =>
    g.playStatus i = true → LastCall g t i callFlag → Electable g (Function.update t.callBanker i callFlag)
  | .timer => DefaultsAccepted g t
  | _ => True

/-- The expiry of the timer moves the table on; an ended round has been concluded once. -/
def MovesOn (t : Table) : Prop :=
  match t.status with
  | .call => ∃ t', gameTimer g t = some t' ∧ t'.status = .score
      ∧ ∃ b, t'.bankerUser = some b ∧ g.playStatus b = true
  | .score => ∃ t', gameTimer g t = some t' ∧ t'.status = .open_
      ∧ ∀ i, g.playStatus i = true → t'.bankerUser ≠ some i → ∃ k : Fin 5, t'.addScore i = k.val ∧ 0 < t'.jettonable i k
  | .open_ => ∃ t', gameTimer g t = some t' ∧ t'.status = .end_ ∧ t'.concluded.length = 1
  | .end_ => t.concluded.length = 1

structure Opening (t : Table) (b : Chair) : Prop extends Banked g t b where
  status : t.status = .open_
  all : ∀ i, ¬Wagers g t i
  cards : ∀ i, g.playStatus i = true → t.cardType i = -1 ∨ 0 ≤ t.cardType i

/-- The states that a run reaches. -/
def Sound (t : Table) : Prop :=
  match t.status with
  | .call => t.armed = true ∧ Calling g t ∧ ∃ i, Waiting g Table.callBanker t i
  | .score => t.armed = true ∧ ∃ b, Betting g t b ∧ ∃ i, Wagers g t i
  | .open_ => t.armed = true ∧ ∃ b, Opening g t b ∧ ∃ i, Waiting g Table.cardType t i
  | .end_ => ∃ last b, t.concluded = [conclusion g last b] ∧ Banked g last b ∧ ∀ i, ¬Wagers g last i

variable {g} {t t' : Table} {b i : Chair}

/-! ## Betting -/

def Table.withBet (t : Table) (i : Chair) (jettonIndex : ℤ) : Table :=
  { t with addScore := Function.update t.addScore i jettonIndex }

theorem withBet_self (jettonIndex : ℤ) : (t.withBet i jettonIndex).addScore i = jettonIndex := Function.update_self _ _ _

theorem withBet_of_ne {j : Chair} (jettonIndex : ℤ) (other : j ≠ i) :
    (t.withBet i jettonIndex).addScore j = t.addScore j := Function.update_of_ne other _ _

/-- The table when all have bet. -/
def Table.dealt (g : Game) (t : Table) : Table :=
  { t with status := .open_, armed := true, maxCardType := g.analyseCard t.maxCardType }

/-- The bets are complete when all but the banker have bet. -/
theorem bets_complete_iff (banker : t.bankerUser = some b) (plays : g.playStatus b = true) :
    (g.playing.filter fun i => t.bankerUser ≠ some i ∧ t.addScore i ≠ -1).length + 1 = g.playCount
      ↔ ∀ i, ¬Wagers g t i := by
  have present : b ∈ g.playing := mem_playing.mpr plays
  have others : (g.playing.filter fun i => t.bankerUser ≠ some i ∧ t.addScore i ≠ -1)
      = (g.playing.erase b).filter fun i => t.addScore i ≠ -1 := by
    rw [nodup_playing.erase_eq_filter, List.filter_filter]
    apply List.filter_congr
    intro i _
    rw [banker, Bool.eq_iff_iff]
    simp only [ne_eq, Option.some.injEq, decide_not, Bool.and_eq_true, Bool.not_eq_true', decide_eq_false_iff_not,
      bne_iff_ne, decide_eq_true_iff, eq_comm (a := b)]
    exact and_comm
  have positive : 0 < g.playing.length := List.length_pos_of_mem present
  have count : (g.playing.erase b).length + 1 = g.playCount := by
    rw [List.length_erase_of_mem present, Game.playCount]
    omega
  rw [others, ← count, Nat.add_right_cancel_iff, List.length_filter_eq_length_iff]
  constructor
  · rintro all i ⟨plays', other, open_⟩
    have apart : i ≠ b := fun same => other (same ▸ banker)
    exact of_decide_eq_true (all i ((List.mem_erase_of_ne apart).mpr (mem_playing.mpr plays'))) open_
  · intro none_ i inside
    obtain ⟨apart, inside⟩ := nodup_playing.mem_erase_iff.mp inside
    refine decide_eq_true fun open_ => none_ i ⟨mem_playing.mp inside, fun same => ?_, open_⟩
    exact apart (Option.some_inj.mp (same.symm.trans banker))

/-- A bet that is not rejected is recorded, and the last one deals. -/
theorem onUserAddScore_cases (banker : t.bankerUser = some b) (plays : g.playStatus b = true) (i : Chair)
    (jettonIndex : ℤ) :
    (onUserAddScore g t i jettonIndex = some t)
      ∨ (i ≠ b ∧ t.addScore i = -1 ∧ ∃ k : Fin 5, jettonIndex = k.val ∧ 0 < t.jettonable i k)
        ∧ onUserAddScore g t i jettonIndex =
          some (if ∀ j, ¬Wagers g (t.withBet i jettonIndex) j then (t.withBet i jettonIndex).dealt g
            else t.withBet i jettonIndex) := by
  rw [onUserAddScore]
  split
  · exact .inl rfl
  next other =>
    split
    · exact .inl rfl
    next fresh =>
      split
      · exact .inl rfl
      next inside =>
        split
        · exact .inl rfl
        next allowed =>
          refine .inr ⟨⟨fun same => other (same ▸ banker), not_not.mp fresh, _, ?_, Int.not_le.mp allowed⟩, ?_⟩
          · have small : jettonIndex.toNat % 5 = jettonIndex.toNat := Nat.mod_eq_of_lt (by omega)
            rw [Fin.val_ofNat, small]
            omega
          · rw [apply_ite some]
            exact if_congr (bets_complete_iff (t := t.withBet i jettonIndex) banker plays) rfl rfl

theorem wagers_withBet {jettonIndex : ℤ} (nonneg : 0 ≤ jettonIndex) (j : Chair) :
    Wagers g (t.withBet i jettonIndex) j ↔ j ≠ i ∧ Wagers g t j := by
  rw [Wagers, Wagers]
  rcases eq_or_ne j i with rfl | other
  · rw [withBet_self]
    exact ⟨fun all => by have := all.2.2; omega, fun both => absurd rfl both.1⟩
  · rw [withBet_of_ne _ other]
    exact ⟨fun waits => ⟨other, waits⟩, fun both => both.2⟩

theorem Betting.withBet (betting : Betting g t b) {k : Fin 5} (allowed : 0 < t.jettonable i k) :
    Betting g (t.withBet i k.val) b where
  banker := betting.banker
  plays := betting.plays
  call := betting.call
  bets j plays other := by
    rcases eq_or_ne j i with rfl | apart
    · exact .inr ⟨k, withBet_self _, allowed⟩
    · rw [withBet_of_ne _ apart]
      exact betting.bets j plays other
  concluded := betting.concluded
  status := betting.status
  cardType := betting.cardType
  default_ := betting.default_

theorem Betting.dealt (betting : Betting g t b) (complete : ∀ i, ¬Wagers g t i) : Opening g (t.dealt g) b where
  banker := betting.banker
  plays := betting.plays
  call := betting.call
  bets := betting.bets
  concluded := betting.concluded
  status := rfl
  all := complete
  cards i _ := .inl (betting.cardType i)

/-- The timer asks the banker too, whose bet is rejected. -/
private theorem autoUserAddScore_eq (t : Table) :
    autoUserAddScore g t = sweep (Wagers g) (onUserAddScore g · · 0) (List.finRange 4) t := by
  rw [autoUserAddScore, sweep, sweep]
  congr 1
  funext s i
  rcases em (s.bankerUser = some i) with banker | player
  · rw [if_neg fun wagers : Wagers g s i => wagers.2.1 banker, onUserAddScore, if_pos banker, ite_self]
  · exact if_congr ⟨fun waits => ⟨waits.1, player, waits.2⟩, fun wagers => ⟨wagers.1, wagers.2.2⟩⟩ rfl rfl

/-- If all can bet the lowest jetton, the loop of the timer adds the bets that are missing and deals. -/
theorem autoUserAddScore_deals (betting : Betting g t b) (pending : ∃ i, Wagers g t i)
    (affordable : ∀ i, Wagers g t i → 0 < t.jettonable i 0) :
    ∃ last, Betting g last b ∧ (∀ i, ¬Wagers g last i) ∧ autoUserAddScore g t = some (last.dealt g) := by
  have completes : Completes (Wagers g) (onUserAddScore g · · 0)
      (fun a => Betting g a b ∧ ∀ i, Wagers g a i → 0 < a.jettonable i 0)
      (fun a i => a.withBet i 0) (fun a => some (a.dealt g)) := by
    have recorded : ∀ a i, Betting g a b → Wagers g a i → 0 < a.jettonable i 0 → onUserAddScore g a i 0 =
        some (if ∀ j, ¬Wagers g (a.withBet i 0) j then (a.withBet i 0).dealt g else a.withBet i 0) := by
      intro a i betting' wagers allowed
      rw [onUserAddScore, if_neg wagers.2.1, if_neg (not_not.mpr wagers.2.2), if_neg (by omega),
        if_neg (c := a.jettonable i (Fin.ofNat 5 (0 : ℤ).toNat) ≤ 0) (Int.not_le.mpr allowed), apply_ite some]
      exact if_congr (bets_complete_iff (t := a.withBet i 0) betting'.banker betting'.plays) rfl rfl
    constructor
    · rintro a i j ⟨betting', all⟩ wagers still
      rw [recorded a i betting' wagers (all i wagers), if_neg fun none_ => none_ j still]
    · rintro a i ⟨betting', all⟩ wagers none_
      rw [recorded a i betting' wagers (all i wagers), if_pos none_]
    · rintro a i ⟨betting', all⟩ wagers
      refine ⟨betting'.withBet (k := 0) (all i wagers), fun j wagers' => ?_⟩
      exact all j ((wagers_withBet (Int.le_refl 0) j).mp wagers').2
    · intro a i j _ _ still
      exact (wagers_withBet (Int.le_refl 0) j).mp still
    · rintro a a' - idle dealt j
      cases dealt
      exact idle j
  obtain ⟨last, ⟨betting', _⟩, idle, done⟩ := completes.sweep_eq (List.finRange 4)
    ⟨betting, affordable⟩ pending fun j _ => List.mem_finRange j
  exact ⟨last, betting', idle, (autoUserAddScore_eq t).trans done⟩

/-- A player who cannot bet the lowest jetton keeps the table in the phase. -/
theorem autoUserAddScore_blocked (betting : Betting g t b) (blocked : Wagers g t i) (poor : ¬0 < t.jettonable i 0)
    (done : autoUserAddScore g t = some t') : t'.status = .score := by
  rw [autoUserAddScore_eq] at done
  have kept : Betting g t' b ∧ Wagers g t' i ∧ ¬0 < t'.jettonable i 0 := by
    refine sweep_invariant (fun a => Betting g a b ∧ Wagers g a i ∧ ¬0 < a.jettonable i 0) ?_ done
      ⟨betting, blocked, poor⟩
    rintro a j a' ⟨betting', blocked', poor'⟩ _ taken
    rcases onUserAddScore_cases betting'.banker betting'.plays j 0 with same | ⟨⟨_, _, k, index, allowed⟩, recorded⟩
    · cases same.symm.trans taken
      exact ⟨betting', blocked', poor'⟩
    · have lowest : k = 0 := Fin.ext (by have := index; simp only [Fin.val_zero]; omega)
      subst lowest
      have apart : i ≠ j := fun same => poor' (same ▸ allowed)
      have still : Wagers g (a.withBet j 0) i := (wagers_withBet (Int.le_refl 0) i).mpr ⟨apart, blocked'⟩
      rw [if_neg fun none_ => none_ i still] at recorded
      cases recorded.symm.trans taken
      exact ⟨betting'.withBet (k := 0) allowed, still, poor'⟩
  exact kept.1.status

/-! ## Opening -/

def Table.withCard (t : Table) (i : Chair) : Table :=
  { t with cardType := Function.update t.cardType i (t.maxCardType i) }

theorem withCard_self : (t.withCard i).cardType i = t.maxCardType i := Function.update_self _ _ _

theorem withCard_of_ne {j : Chair} (other : j ≠ i) : (t.withCard i).cardType j = t.cardType j :=
  Function.update_of_ne other _ _

theorem waiting_withCard (j : Chair) :
    Waiting g Table.cardType (t.withCard i) j ↔ j ≠ i ∧ Waiting g Table.cardType t j := by
  rw [Waiting, Waiting]
  rcases eq_or_ne j i with rfl | other
  · rw [withCard_self]
    exact ⟨fun both => by have := both.2; omega, fun both => absurd rfl both.1⟩
  · rw [withCard_of_ne other]
    exact ⟨fun waits => ⟨other, waits⟩, fun both => both.2⟩

theorem Opening.withCard (opening : Opening g t b) : Opening g (t.withCard i) b where
  banker := opening.banker
  plays := opening.plays
  call := opening.call
  bets := opening.bets
  concluded := opening.concluded
  status := opening.status
  all := opening.all
  cards j plays := by
    rcases eq_or_ne j i with rfl | other
    · exact .inr (by rw [withCard_self]; exact Int.natCast_nonneg _)
    · rw [withCard_of_ne other]
      exact opening.cards j plays

/-- The round is over. -/
def Table.ended (g : Game) (t : Table) (b : Chair) : Table :=
  { t with status := .end_, armed := false, concluded := t.concluded ++ [conclusion g t b] }

theorem onEventGameConclude_eq (banker : t.bankerUser = some b) : onEventGameConclude g t = some (t.ended g b) := by
  rw [onEventGameConclude, banker, Option.map_some, Table.ended, banker]

/-- An opened hand is recorded, and the last one concludes the round. -/
theorem onUserOpenCard_cases (opening : Opening g t b) (i : Chair) :
    onUserOpenCard g t i = some t ∧ ¬Waiting g Table.cardType t i
      ∨ onUserOpenCard g t i =
          some (if ∀ j, ¬Waiting g Table.cardType (t.withCard i) j then (t.withCard i).ended g b else t.withCard i) := by
  rw [onUserOpenCard]
  split
  next opened => exact .inl ⟨rfl, fun waits => opened.1 waits.2⟩
  · right
    dsimp only
    rw [apply_ite some]
    apply if_congr
    · apply filter_length_eq_iff.trans
      exact ⟨fun all j waits => all j waits.1 waits.2, fun none_ j plays open_ => none_ j ⟨plays, open_⟩⟩
    · exact onEventGameConclude_eq (t := t.withCard i) opening.banker
    · rfl

/-- The loop of the timer opens the hands that are missing and concludes the round. -/
theorem autoUserOpenCard_ends (opening : Opening g t b) (pending : ∃ i, Waiting g Table.cardType t i) :
    ∃ last, Opening g last b ∧ autoUserOpenCard g t = some (last.ended g b) := by
  have completes : Completes (Waiting g Table.cardType) (onUserOpenCard g) (Opening g · b)
      Table.withCard (fun a => some (a.ended g b)) := by
    have recorded : ∀ a i, Opening g a b → Waiting g Table.cardType a i → onUserOpenCard g a i =
        some (if ∀ j, ¬Waiting g Table.cardType (a.withCard i) j then (a.withCard i).ended g b else a.withCard i) := by
      intro a i opening' waits
      exact (onUserOpenCard_cases opening' i).resolve_left fun refused => refused.2 waits
    constructor
    · intro a i j opening' waits still
      rw [recorded a i opening' waits, if_neg fun none_ => none_ j still]
    · intro a i opening' waits none_
      rw [recorded a i opening' waits, if_pos none_]
    · intro a i opening' _
      exact opening'.withCard
    · intro a i j _ _ still
      exact (waiting_withCard j).mp still
    · rintro a a' - idle ended j
      cases ended
      exact idle j
  obtain ⟨last, opening', _, done⟩ := completes.sweep_eq (List.finRange 4)
    opening pending fun j _ => List.mem_finRange j
  exact ⟨last, opening', done⟩

/-! ## The timer -/

section Phases

variable (armed : t.armed = true)
include armed

theorem Calling.gameTimer_eq (calling : Calling g t) (pending : ∃ i, Waiting g Table.callBanker t i) :
    ∃ last, Calling g last ∧ (∀ i, ¬Waiting g Table.callBanker last i)
      ∧ (Electable g last.callBanker ↔ Electable g t.callBanker) ∧ gameTimer g t = chooseBanker g last := by
  have unarmed : Calling g { t with armed := false } :=
    ⟨calling.status, calling.calls, calling.addScore, calling.cardType, calling.concluded⟩
  obtain ⟨last, calling', idle, same, done⟩ := autoUserCallBanker_eq unarmed pending
  refine ⟨last, calling', idle, same, ?_⟩
  rw [gameTimer, if_pos armed, ← done]
  simp only [calling.status]

theorem Betting.gameTimer_eq (betting : Betting g t b) :
    Betting g { t with armed := false } b ∧ gameTimer g t = autoUserAddScore g { t with armed := false } := by
  refine ⟨⟨⟨betting.banker, betting.plays, betting.call, betting.bets, betting.concluded⟩, betting.status,
    betting.cardType, betting.default_⟩, ?_⟩
  rw [gameTimer, if_pos armed]
  simp only [betting.status]

theorem Opening.gameTimer_eq (opening : Opening g t b) (pending : ∃ i, Waiting g Table.cardType t i) :
    ∃ last, Opening g last b ∧ gameTimer g t = some (last.ended g b) := by
  have unarmed : Opening g { t with armed := false } b :=
    ⟨⟨opening.banker, opening.plays, opening.call, opening.bets, opening.concluded⟩, opening.status,
      opening.all, opening.cards⟩
  obtain ⟨last, opening', done⟩ := autoUserOpenCard_ends unarmed pending
  refine ⟨last, opening', ?_⟩
  rw [gameTimer, if_pos armed, ← done]
  simp only [opening.status]

/-- The default bets are accepted exactly if the players who have not bet can afford them. -/
theorem Betting.deals_iff (betting : Betting g t b) (pending : ∃ i, Wagers g t i) :
    (∃ last, Betting g last b ∧ (∀ i, ¬Wagers g last i) ∧ gameTimer g t = some (last.dealt g))
      ↔ ∀ i, Wagers g t i → Affordable g (t.callBanker b) (g.score b) (g.score i) := by
  obtain ⟨unarmed, fires⟩ := betting.gameTimer_eq armed
  have default_ : ∀ i, Wagers g t i →
      (0 < t.jettonable i 0 ↔ Affordable g (t.callBanker b) (g.score b) (g.score i)) := fun i wagers =>
    betting.default_ i wagers.1 fun same => wagers.2.1 (same ▸ betting.banker)
  rw [fires]
  constructor
  · rintro ⟨last, _, _, done⟩ i wagers
    by_contra poor
    have stays := autoUserAddScore_blocked unarmed wagers (fun allowed => poor ((default_ i wagers).mp allowed)) done
    cases stays
  · intro accepted
    exact autoUserAddScore_deals unarmed pending fun i wagers => (default_ i wagers).mpr (accepted i wagers)

/-- A timer that does not deal leaves the table in the phase of the bets. -/
theorem Betting.stays (betting : Betting g t b) {i : Chair} (wagers : Wagers g t i)
    (poor : ¬Affordable g (t.callBanker b) (g.score b) (g.score i)) (done : gameTimer g t = some t') :
    t'.status = .score := by
  obtain ⟨unarmed, fires⟩ := betting.gameTimer_eq armed
  have apart : i ≠ b := fun same => wagers.2.1 (same ▸ betting.banker)
  exact autoUserAddScore_blocked unarmed wagers (fun allowed => poor ((betting.default_ i wagers.1 apart).mp allowed))
    (fires ▸ done)

end Phases

section Runs

variable (playable : Playable g)
include playable

/-- The timer moves a table on exactly when the default actions are accepted. -/
theorem movesOn_iff (sound : Sound g t) : MovesOn g t ↔ DefaultsAccepted g t := by
  rw [MovesOn, DefaultsAccepted]
  rw [Sound] at sound
  cases phase : t.status with
  | call =>
    rw [phase] at sound
    obtain ⟨armed, calling, pending⟩ := sound
    obtain ⟨last, calling', idle, same, fires⟩ := calling.gameTimer_eq armed pending
    dsimp only
    rw [fires]
    constructor
    · rintro ⟨t', chosen, _, b, banker, plays⟩
      exact same.mp (electable_of_chooseBanker calling' idle chosen banker plays)
    · intro electable
      obtain ⟨t', b, chosen, _, betting, _⟩ := chooseBanker_eq_some playable calling' idle (same.mpr electable)
      exact ⟨t', chosen, betting.status, b, betting.banker, betting.plays⟩
  | score =>
    rw [phase] at sound
    obtain ⟨armed, b, betting, pending⟩ := sound
    constructor
    · rintro ⟨t', done, ended, _⟩ b' banker i wagers
      cases betting.banker.symm.trans banker
      by_contra poor
      rw [betting.stays armed wagers poor done] at ended
      cases ended
    · intro accepted
      obtain ⟨last, betting', idle, done⟩ := (betting.deals_iff armed pending).mpr (accepted b betting.banker)
      refine ⟨last.dealt g, done, rfl, fun i plays other => ?_⟩
      have apart : i ≠ b := fun same => other (same ▸ betting'.banker)
      exact (betting'.bets i plays apart).resolve_left fun open_ => idle i ⟨plays, other, open_⟩
  | open_ =>
    rw [phase] at sound
    obtain ⟨armed, b, opening, pending⟩ := sound
    obtain ⟨last, opening', done⟩ := opening.gameTimer_eq armed pending
    refine iff_of_true ⟨last.ended g b, done, rfl, ?_⟩ trivial
    rw [Table.ended, opening'.concluded]
    rfl
  | end_ =>
    rw [phase] at sound
    obtain ⟨last, b, once, _⟩ := sound
    exact iff_of_true (by rw [once]; rfl) trivial

omit playable in
theorem Betting.sound (betting : Betting g t b) (armed : t.armed = true) (pending : ∃ i, Wagers g t i) : Sound g t := by
  rw [Sound, betting.status]
  exact ⟨armed, b, betting, pending⟩

omit playable in
theorem Opening.sound (opening : Opening g t b) (armed : t.armed = true)
    (pending : ∃ i, Waiting g Table.cardType t i) : Sound g t := by
  rw [Sound, opening.status]
  exact ⟨armed, b, opening, pending⟩

omit playable in
theorem Betting.sound_dealt (betting : Betting g t b) (complete : ∀ i, ¬Wagers g t i) : Sound g (t.dealt g) :=
  (betting.dealt complete).sound rfl ⟨b, betting.plays, betting.cardType b⟩

omit playable in
theorem Opening.sound_ended (opening : Opening g t b) : Sound g (t.ended g b) :=
  ⟨t, b, by rw [Table.ended, opening.concluded]; rfl, opening.toBanked, opening.all⟩

theorem exists_player (b : Chair) : ∃ i, g.playStatus i = true ∧ i ≠ b := by
  by_contra none_
  have only : g.playing ⊆ [b] := by
    intro i present
    rw [List.mem_singleton]
    by_contra other
    exact none_ ⟨i, mem_playing.mp present, other⟩
  have short := (nodup_playing.subperm only).length_le
  have two : 2 ≤ g.playing.length := playable.two
  rw [List.length_singleton] at short
  omega

/-- The table after the banker is chosen. -/
theorem sound_of_chooseBanker (calling : Calling g t) (called : ∀ i, ¬Waiting g Table.callBanker t i)
    (electable : Electable g t.callBanker) (chosen : chooseBanker g t = some t') : Sound g t' := by
  obtain ⟨t'', b, chosen', armed, betting, bets⟩ := chooseBanker_eq_some playable calling called electable
  cases chosen'.symm.trans chosen
  obtain ⟨i, plays, other⟩ := exists_player playable b
  refine betting.sound armed ⟨i, plays, fun same => ?_, by rw [bets]; exact calling.addScore i⟩
  exact other (Option.some_inj.mp (same.symm.trans betting.banker))

theorem sound_timer (sound : Sound g t) (accepted : DefaultsAccepted g t) (done : gameTimer g t = some t') :
    Sound g t' := by
  rw [DefaultsAccepted] at accepted
  rw [Sound] at sound
  cases phase : t.status with
  | call =>
    rw [phase] at sound accepted
    obtain ⟨armed, calling, pending⟩ := sound
    obtain ⟨last, calling', idle, same, fires⟩ := calling.gameTimer_eq armed pending
    exact sound_of_chooseBanker playable calling' idle (same.mpr accepted) (fires.symm.trans done)
  | score =>
    rw [phase] at sound accepted
    obtain ⟨armed, b, betting, pending⟩ := sound
    obtain ⟨last, betting', idle, fires⟩ := (betting.deals_iff armed pending).mpr (accepted b betting.banker)
    cases fires.symm.trans done
    exact betting'.sound_dealt idle
  | open_ =>
    rw [phase] at sound
    obtain ⟨armed, b, opening, pending⟩ := sound
    obtain ⟨last, opening', fires⟩ := opening.gameTimer_eq armed pending
    cases fires.symm.trans done
    exact opening'.sound_ended
  | end_ =>
    rw [gameTimer, phase] at done
    dsimp only at done
    rw [ite_self] at done
    cases done

theorem sound_callBanker {callFlag : ℤ} (sound : Sound g t) (phase : t.status = .call)
    (electable : LastCall g t i callFlag → Electable g (Function.update t.callBanker i callFlag))
    (done : onUserCallBanker g t i callFlag = some t') : Sound g t' := by
  rcases onUserCallBanker_cases (g := g) t i callFlag with same | ⟨⟨fresh, nonneg, correct⟩, recorded⟩
  · cases same.symm.trans done
    exact sound
  rw [Sound, phase] at sound
  obtain ⟨armed, calling, _⟩ := sound
  have calling' := calling.withCall (i := i) nonneg
  rw [recorded] at done
  split at done
  next all =>
    have called := filter_length_eq_iff.mp all
    refine sound_of_chooseBanker playable calling' (fun j waits => called j waits.1 waits.2) ?_ done
    refine electable ⟨phase, fresh, nonneg, correct, fun j plays' other open_ => called j plays' ?_⟩
    rw [withCall_of_ne _ other]
    exact open_
  next some_ =>
    cases done
    rw [filter_length_eq_iff] at some_
    obtain ⟨j, open_⟩ := not_forall.mp some_
    obtain ⟨plays', open_⟩ := Classical.not_imp.mp open_
    rw [Sound, calling'.status]
    exact ⟨armed, calling', j, plays', not_not.mp open_⟩

omit playable in
theorem sound_addScore {jettonIndex : ℤ} (sound : Sound g t) (phase : t.status = .score)
    (done : onUserAddScore g t i jettonIndex = some t') : Sound g t' := by
  have before := sound
  rw [Sound, phase] at before
  obtain ⟨armed, b, betting, _⟩ := before
  rcases onUserAddScore_cases betting.banker betting.plays i jettonIndex with
    same | ⟨⟨_, _, k, rfl, allowed⟩, recorded⟩
  · cases same.symm.trans done
    exact sound
  have betting' := betting.withBet allowed
  cases recorded.symm.trans done
  split
  next complete => exact betting'.sound_dealt complete
  next some_ => exact betting'.sound armed (by simpa only [not_forall, not_not] using some_)

omit playable in
theorem sound_openCard (sound : Sound g t) (phase : t.status = .open_) (done : onUserOpenCard g t i = some t') :
    Sound g t' := by
  have before := sound
  rw [Sound, phase] at before
  obtain ⟨armed, b, opening, _⟩ := before
  rcases onUserOpenCard_cases opening i with ⟨same, _⟩ | recorded
  · cases same.symm.trans done
    exact sound
  cases recorded.symm.trans done
  split
  · exact (opening.withCard (i := i)).sound_ended
  next some_ => exact (opening.withCard (i := i)).sound armed (by simpa only [not_forall, not_not] using some_)

/-- An allowed step keeps the state of the round. -/
theorem sound_step (event : Event) (sound : Sound g t) (allowed : Allowed g t event) (done : step g t event = some t') :
    Sound g t' := by
  cases event with
  | callBanker i callFlag =>
    rw [step] at done
    split at done
    · cases done; exact sound
    next phase =>
      split at done
      · cases done; exact sound
      next plays =>
        exact sound_callBanker playable sound (not_not.mp phase) (allowed (not_not.mp plays)) done
  | addScore i jettonIndex =>
    rw [step] at done
    split at done
    · cases done; exact sound
    next phase =>
      split at done
      · cases done; exact sound
      · exact sound_addScore sound (not_not.mp phase) done
  | openCard i =>
    rw [step] at done
    split at done
    · cases done; exact sound
    · split at done
      · cases done; exact sound
      next phase =>
        split at done
        · cases done; exact sound
        · exact sound_openCard sound (not_not.mp phase) done
  | timer => exact sound_timer playable sound allowed done

theorem sound_onGameStart : Sound g (onGameStart g) := by
  obtain ⟨i, plays, _⟩ := exists_player playable 0
  exact ⟨rfl, ⟨rfl, fun _ _ => .inl rfl, fun _ => rfl, fun _ => rfl, rfl⟩, i, plays, rfl⟩

variable {events : List Event}

theorem sound_of_run (run : Run (step g) (Allowed g) (onGameStart g) events t) : Sound g t :=
  run.invariant (fun _ event _ sound allowed done => sound_step playable event sound allowed done)
    (sound_onGameStart playable)

/-- What a run settles is a proper settlement. -/
theorem proper_of_run (types : ∀ k, 0 < g.typeMultiple k) (solvent : ∀ i, g.playStatus i = true → 0 ≤ g.score i)
    (run : Run (step g) (Allowed g) (onGameStart g) events t) : ∀ c ∈ t.concluded, c.Proper := by
  have sound := sound_of_run playable run
  rw [Sound] at sound
  intro c present
  cases phase : t.status with
  | call =>
    rw [phase] at sound
    rw [sound.2.1.concluded] at present
    exact absurd present List.not_mem_nil
  | score =>
    rw [phase] at sound
    obtain ⟨_, b, betting, _⟩ := sound
    rw [betting.concluded] at present
    exact absurd present List.not_mem_nil
  | open_ =>
    rw [phase] at sound
    obtain ⟨_, b, opening, _⟩ := sound
    rw [opening.concluded] at present
    exact absurd present List.not_mem_nil
  | end_ =>
    rw [phase] at sound
    obtain ⟨last, b, once, banked, all⟩ := sound
    rw [once, List.mem_singleton] at present
    subst present
    refine ⟨banked.plays, playable.floorScore, banked.call, ?_, fun i _ => types _, solvent⟩
    rintro i ⟨plays, _, other⟩
    rcases banked.bets i plays other with open_ | ⟨k, index, positive⟩
    · exact absurd ⟨plays, fun same => other (Option.some_inj.mp (same.symm.trans banked.banker)), open_⟩ (all i)
    · have same : Fin.ofNat 5 (last.addScore i).toNat = k := by
        rw [index, Int.toNat_natCast]
        exact Fin.ext (Nat.mod_eq_of_lt k.isLt)
      rw [conclusion]
      dsimp only
      rw [same]
      exact positive

/-- In every run whose phases end with accepted actions the timer is armed until the round has been concluded
once, and its expiry moves the table on exactly when the default actions are accepted. -/
theorem movesOn_of_run (run : Run (step g) (Allowed g) (onGameStart g) events t) :
    (t.armed = true ∨ t.status = .end_) ∧ t.concluded.length = (if t.status = .end_ then 1 else 0)
      ∧ (MovesOn g t ↔ DefaultsAccepted g t) := by
  have sound := sound_of_run playable run
  have moves := movesOn_iff playable sound
  rw [Sound] at sound
  cases phase : t.status with
  | call =>
    rw [phase] at sound
    exact ⟨.inl sound.1, by rw [sound.2.1.concluded]; rfl, moves⟩
  | score =>
    rw [phase] at sound
    obtain ⟨armed, b, betting, _⟩ := sound
    exact ⟨.inl armed, by rw [betting.concluded]; rfl, moves⟩
  | open_ =>
    rw [phase] at sound
    obtain ⟨armed, b, opening, _⟩ := sound
    exact ⟨.inl armed, by rw [opening.concluded]; rfl, moves⟩
  | end_ =>
    rw [phase] at sound
    obtain ⟨last, b, once, _⟩ := sound
    exact ⟨.inr rfl, by rw [once]; rfl, moves⟩

end Runs

/-- Three seats play with the same balance; a bet of one costs a hundred for each opponent. -/
def threeSeats (balance : ℤ) : Game where
  floorScore := 100
  enterMinScore := 100
  jettons := [1, 5, 8, 11, 15]
  bankerMultiple := ![1, 2, 3]
  typeMultiple _ := 1
  playSixChooseFive := false
  playStatus i := i ≠ 3
  userScore i := if i = 3 then none else some balance
  maxCardType _ := 0
  analyseCard types := types
  compareCard _ := true
  seated := by
    intro i plays
    rw [if_neg (of_decide_eq_true plays)]
    rfl

theorem playable_threeSeats (balance : ℤ) : Playable (threeSeats balance) where
  two := show 2 ≤ ((List.finRange 4).filter fun i => decide (i ≠ 3)).length by decide
  floorScore := show (0 : ℤ) < 100 by decide
  bankerMultiple := show ∀ j : Fin 3, 0 < ![1, 2, 3] j by decide
  positive := show ∀ jetton ∈ [(1 : ℤ), 5, 8, 11, 15], 0 < jetton by decide
  increasing := show [(1 : ℤ), 5, 8, 11, 15].Pairwise (· < ·) by decide
  loads := show 5 % 256 ≤ 5 by decide

/-- The table of `threeSeats` when the timer has called for everybody. -/
def calledTable (balance : ℤ) : Table :=
  (gameTimer (threeSeats balance) (onGameStart (threeSeats balance))).getD (onGameStart (threeSeats balance))

theorem run_calledTable {balance : ℤ} (positive : 0 < balance)
    (fires : (gameTimer (threeSeats balance) (onGameStart (threeSeats balance))).isSome) :
    Run (step (threeSeats balance)) (Allowed (threeSeats balance)) (onGameStart (threeSeats balance)) [.timer]
      (calledTable balance) := by
  have electable : Electable (threeSeats balance) fun _ => -1 :=
    ⟨fun _ _ => show (-1 : ℤ) < 5 by decide, show 5 % 256 ≠ 0 by decide, .inl ⟨0, rfl, positive⟩⟩
  have taken : gameTimer (threeSeats balance) (onGameStart (threeSeats balance)) = some (calledTable balance) := by
    rw [calledTable, ← Option.get_eq_getD (h := fires), Option.some_get]
  exact .cons electable taken (.nil _)

/-- With a balance of a hundred every player may enter, but the banker can afford no bet of two opponents. -/
theorem bets_unaffordable : Playable (threeSeats 100)
    ∧ (∀ i, (threeSeats 100).playStatus i = true → (threeSeats 100).enterMinScore ≤ (threeSeats 100).score i)
    ∧ ∃ t, Run (step (threeSeats 100)) (fun _ _ => True) (onGameStart (threeSeats 100)) [.timer] t
      ∧ ¬MovesOn (threeSeats 100) t := by
  have run := run_calledTable (show (0 : ℤ) < 100 by decide) (by decide)
  refine ⟨playable_threeSeats 100, by decide, calledTable 100, run.mono fun _ _ _ => trivial, ?_⟩
  have playable := playable_threeSeats 100
  have phase : (calledTable 100).status = .score := by decide
  rw [movesOn_iff playable (sound_of_run playable run), DefaultsAccepted, phase]
  intro accepted
  exact absurd (accepted 0 (by decide) 1 (by decide)).2.2 (by decide)

/-- With a balance of a thousand all bets are made. -/
theorem bets_affordable : MovesOn (threeSeats 1000) (calledTable 1000) := by
  have run := run_calledTable (show (0 : ℤ) < 1000 by decide) (by decide)
  apply (movesOn_of_run (playable_threeSeats 1000) run).2.2.mpr
  have phase : (calledTable 1000).status = .score := by decide
  rw [DefaultsAccepted, phase]
  intro b banker i
  have first : b = 0 := Option.some_inj.mp (banker.symm.trans (by decide))
  subst first
  revert i
  unfold Affordable
  decide

end H5Server.Bbqznn
