import H5Server.Bbqznn.TableFrameSink
import Mathlib.Data.Fin.Basic
import Mathlib.Data.List.GetD

/-! # The calls for the bank

Among the highest callers the richest becomes banker, and without a caller the richest of all. When a playing
seat is banker, a player may bet the lowest jetton exactly if he and the banker can afford it.
-/

namespace H5Server.Bbqznn

open Lib

variable (g : Game)

/-- A game as it is configured, with at least two seats that play. -/
structure Playable : Prop where
  two : 2 ≤ g.playCount
  floorScore : 0 < g.floorScore
  bankerMultiple : ∀ j, 0 < g.bankerMultiple j
  positive : ∀ jetton ∈ g.jettons, 0 < jetton
  increasing : g.jettons.Pairwise (· < ·)
  loads : g.Loads

/-- A single highest call. -/
def SingleTop (callBanker : Chair → ℤ) (i : Chair) : Prop :=
  g.playStatus i = true ∧ 0 < callBanker i ∧ ∀ j, g.playStatus j = true → j ≠ i → callBanker j < callBanker i

/-- The calls lead to a playing banker. -/
def Electable (callBanker : Chair → ℤ) : Prop :=
  (∀ i, g.playStatus i = true → callBanker i < 5) ∧ g.jsize ≠ 0
    ∧ ((∃ i, g.playStatus i = true ∧ 0 < g.score i) ∨ g.playStatus 0 = true
      ∨ ∃ i, SingleTop g callBanker i)

/-- The lowest jetton is a positive number of 32 bits, and the player and the banker have it. -/
def Affordable (callBanker banker player : ℤ) : Prop :=
  0 < (g.jettonMultiple 0).bmod (2 ^ 32) ∧ g.jettonMultiple 0 * (g.floorScore * callBanker) ≤ player
    ∧ g.jettonMultiple 0 * (g.floorScore * (g.playCount - 1) * callBanker) ≤ banker

/-- A player who has not bet. -/
def Wagers (t : Table) (i : Chair) : Prop := g.playStatus i ∧ t.bankerUser ≠ some i ∧ t.addScore i = -1

instance (t : Table) (i : Chair) : Decidable (Wagers g t i) :=
  inferInstanceAs (Decidable (g.playStatus i ∧ t.bankerUser ≠ some i ∧ t.addScore i = -1))

/-! ## The states while the seats call and bet -/

structure Calling (t : Table) : Prop where
  status : t.status = .call
  calls : ∀ i, g.playStatus i = true → t.callBanker i = -1 ∨ 0 ≤ t.callBanker i
  addScore : ∀ i, t.addScore i = -1
  cardType : ∀ i, t.cardType i = -1
  concluded : t.concluded = []

/-- A playing banker, whose call is positive, and bets with a positive multiplier. -/
structure Banked (t : Table) (b : Chair) : Prop where
  banker : t.bankerUser = some b
  plays : g.playStatus b = true
  call : 0 < t.callBanker b
  bets : ∀ i, g.playStatus i = true → i ≠ b → t.addScore i = -1 ∨ ∃ k : Fin 5, t.addScore i = k.val ∧ 0 < t.jettonable i k
  concluded : t.concluded = []

structure Betting (t : Table) (b : Chair) : Prop extends Banked g t b where
  status : t.status = .score
  cardType : ∀ i, t.cardType i = -1
  default_ : ∀ i, g.playStatus i = true → i ≠ b →
    (0 < t.jettonable i 0 ↔ Affordable g (t.callBanker b) (g.score b) (g.score i))

variable {g} {t t' : Table} {b i : Chair}

theorem mem_playing : i ∈ g.playing ↔ g.playStatus i = true := by
  rw [Game.playing, List.mem_filter]
  exact ⟨fun both => both.2, fun plays => ⟨List.mem_finRange i, plays⟩⟩

theorem nodup_playing : g.playing.Nodup := (List.nodup_finRange 4).filter _

/-! ## The bank -/

private theorem richest_fold (users : List Chair) (best : Option Chair × ℤ) :
    let last := users.foldl (fun (best : Option Chair × ℤ) i => if best.2 < g.score i then (some i, g.score i) else best) best
    (last = best ∧ ∀ i ∈ users, g.score i ≤ best.2) ∨ ∃ b ∈ users, last.1 = some b ∧ best.2 < g.score b := by
  induction users generalizing best with
  | nil => exact .inl ⟨rfl, nofun⟩
  | cons i rest ih =>
    rw [List.foldl_cons]
    rcases em (best.2 < g.score i) with more | less
    · rw [if_pos more]
      rcases ih (some i, g.score i) with ⟨same, _⟩ | ⟨b, present, found, greater⟩
      · exact .inr ⟨i, List.mem_cons_self, by rw [same], more⟩
      · exact .inr ⟨b, List.mem_cons_of_mem _ present, found, more.trans greater⟩
    · rw [if_neg less]
      rcases ih best with ⟨same, bound⟩ | ⟨b, present, found, greater⟩
      · exact .inl ⟨same, List.forall_mem_cons.mpr ⟨Int.not_lt.mp less, bound⟩⟩
      · exact .inr ⟨b, List.mem_cons_of_mem _ present, found, greater⟩

/-- The richest user has something, or nobody has. -/
theorem richest_cases (users : List Chair) :
    (g.richest users = none ∧ ∀ i ∈ users, g.score i ≤ 0) ∨ ∃ b ∈ users, g.richest users = some b ∧ 0 < g.score b := by
  rcases richest_fold (g := g) users (none, 0) with ⟨same, bound⟩ | found
  · exact .inl ⟨congrArg Prod.fst same, bound⟩
  · exact .inr found

theorem mem_callBankerUser {level : ℕ} :
    i ∈ callBankerUser g t level ↔ g.playStatus i = true ∧ t.callBanker i ≠ 0 ∧ t.callBanker i = level := by
  rw [callBankerUser, List.mem_filter, mem_playing, decide_eq_true_iff]

theorem nodup_topCallers (level : ℕ) : (topCallers g t level).Nodup := by
  induction level with
  | zero => exact nodup_playing.filter _
  | succ level ih =>
    rw [topCallers]
    split
    · exact nodup_playing.filter _
    · exact ih

/-- The users with the highest call. -/
theorem mem_topCallers {level : ℕ} (nonneg : ∀ i, g.playStatus i = true → 0 ≤ t.callBanker i)
    (bound : ∀ i, g.playStatus i = true → t.callBanker i ≤ level) :
    i ∈ topCallers g t level ↔ g.playStatus i = true ∧ t.callBanker i ≠ 0
      ∧ ∀ j, g.playStatus j = true → t.callBanker j ≤ t.callBanker i := by
  induction level with
  | zero =>
    rw [topCallers, mem_callBankerUser]
    constructor
    · rintro ⟨_, some_, none_⟩
      exact absurd none_ some_
    · rintro ⟨plays, some_, _⟩
      exact absurd (Int.le_antisymm (bound i plays) (nonneg i plays)) some_
  | succ level ih =>
    rw [topCallers]
    split
    next nonempty =>
      obtain ⟨k, present⟩ := List.exists_mem_of_ne_nil _ nonempty
      obtain ⟨plays', _, top⟩ := mem_callBankerUser.mp present
      rw [mem_callBankerUser]
      constructor
      · rintro ⟨plays, some_, highest⟩
        exact ⟨plays, some_, fun j other => highest ▸ bound j other⟩
      · rintro ⟨plays, some_, highest⟩
        exact ⟨plays, some_, Int.le_antisymm (bound i plays) (top ▸ highest k plays')⟩
    next empty =>
      apply ih
      intro j plays
      have none_ : j ∉ callBankerUser g t (level + 1) := by
        rw [not_not.mp empty]
        exact List.not_mem_nil
      have below : t.callBanker j ≠ ((level + 1 : ℕ) : ℤ) := by
        intro top
        exact none_ (mem_callBankerUser.mpr ⟨plays, by omega, top⟩)
      have := bound j plays
      omega

section Called

variable (nonneg : ∀ i, g.playStatus i = true → 0 ≤ t.callBanker i) (small : ∀ i, g.playStatus i = true → t.callBanker i < 5)
include nonneg small

theorem topCallers_eq_singleton : topCallers g t 4 = [i] ↔ SingleTop g t.callBanker i := by
  have member : ∀ {k}, k ∈ topCallers g t 4 ↔ _ := mem_topCallers nonneg fun j plays => by have := small j plays; omega
  constructor
  · intro single
    obtain ⟨plays, some_, highest⟩ := member.mp (single ▸ List.mem_singleton_self i)
    have := nonneg i plays
    refine ⟨plays, by omega, fun j plays' other => ?_⟩
    have less := highest j plays'
    rcases Int.lt_or_eq_of_le less with lower | tie
    · exact lower
    · have also : j ∈ topCallers g t 4 := member.mpr ⟨plays', tie ▸ some_, fun k plays'' => tie ▸ highest k plays''⟩
      rw [single] at also
      exact absurd (List.mem_singleton.mp also) other
  · rintro ⟨plays, positive, lower⟩
    apply List.perm_singleton.mp
    apply (List.perm_ext_iff_of_nodup (nodup_topCallers 4) (List.nodup_singleton i)).mpr
    intro k
    rw [member, List.mem_singleton]
    constructor
    · rintro ⟨plays', _, highest⟩
      by_contra other
      have := highest i plays
      have := lower k plays' other
      omega
    · rintro rfl
      refine ⟨plays, by omega, fun j plays' => ?_⟩
      rcases eq_or_ne j k with rfl | other
      · exact Int.le_refl _
      · exact Int.le_of_lt (lower j plays' other)

/-- The banker by the calls is one of the highest, and if there are several he has something. -/
theorem calledBanker_cases :
    (calledBanker g t = none ∧ ¬∃ i, SingleTop g t.callBanker i)
      ∨ ∃ b, calledBanker g t = some b ∧ g.playStatus b = true ∧ 0 < t.callBanker b
        ∧ (SingleTop g t.callBanker b ∨ 0 < g.score b) := by
  have member : ∀ {k}, k ∈ topCallers g t 4 ↔ _ := mem_topCallers nonneg fun j plays => by have := small j plays; omega
  have called : ∀ {k}, k ∈ topCallers g t 4 → g.playStatus k = true ∧ 0 < t.callBanker k := by
    intro k present
    obtain ⟨plays, some_, _⟩ := member.mp present
    have := nonneg k plays
    exact ⟨plays, by omega⟩
  rcases em (∃ i, topCallers g t 4 = [i]) with ⟨b, single⟩ | several
  · have top := (topCallers_eq_singleton nonneg small).mp single
    exact .inr ⟨b, by rw [calledBanker, single], top.1, top.2.1, .inl top⟩
  · have same : calledBanker g t = g.richest (topCallers g t 4) := by
      rw [calledBanker]
      split
      next user single => exact absurd ⟨user, single⟩ several
      · rfl
    rcases richest_cases (g := g) (topCallers g t 4) with ⟨nobody, _⟩ | ⟨b, present, found, rich⟩
    · refine .inl ⟨same.trans nobody, ?_⟩
      rintro ⟨i, top⟩
      exact several ⟨i, (topCallers_eq_singleton nonneg small).mpr top⟩
    · exact .inr ⟨b, same.trans found, (called present).1, (called present).2, .inr rich⟩

omit nonneg small in
/-- Without a banker by the calls, the richest seat is the banker, or the first one. -/
theorem randBanker_plays_iff :
    g.playStatus g.randBanker = true ↔ (∃ i, g.playStatus i = true ∧ 0 < g.score i) ∨ g.playStatus 0 = true := by
  rw [Game.randBanker]
  rcases richest_cases (g := g) g.playing with ⟨nobody, poor⟩ | ⟨b, present, found, rich⟩
  · rw [nobody, Option.getD_none]
    refine ⟨.inr, ?_⟩
    rintro (⟨i, plays, rich⟩ | plays)
    · exact absurd rich (Int.not_lt.mpr (poor i (mem_playing.mpr plays)))
    · exact plays
  · have plays := mem_playing.mp present
    rw [found, Option.getD_some]
    exact ⟨fun _ => .inl ⟨b, plays, rich⟩, fun _ => plays⟩

/-- A playing seat is banker exactly if the calls allow it. -/
theorem banker_plays_iff (jettons : g.jsize ≠ 0) :
    g.playStatus ((calledBanker g t).getD g.randBanker) = true ↔ Electable g t.callBanker := by
  rcases calledBanker_cases nonneg small with ⟨nobody, several⟩ | ⟨b, found, plays, _, reason⟩
  · rw [nobody, Option.getD_none, randBanker_plays_iff]
    refine ⟨fun either => ⟨small, jettons, or_assoc.mp (.inl either)⟩, ?_⟩
    rintro ⟨_, _, rich | first | single⟩
    · exact .inl rich
    · exact .inr first
    · exact absurd single several
  · rw [found, Option.getD_some]
    refine ⟨fun _ => ⟨small, jettons, ?_⟩, fun _ => plays⟩
    rcases reason with single | rich
    · exact .inr (.inr ⟨b, single⟩)
    · exact .inl ⟨b, plays, rich⟩

end Called

/-- Calls that are still open do not matter for the banker. -/
theorem electable_congr {calls calls' : Chair → ℤ}
    (same : ∀ i, g.playStatus i = true → calls' i = calls i ∨ (calls i = -1 ∧ calls' i = 0)) :
    Electable g calls' ↔ Electable g calls := by
  have single : ∀ i, SingleTop g calls' i ↔ SingleTop g calls i := by
    intro i
    constructor
    · rintro ⟨plays, positive, lower⟩
      have := same i plays
      refine ⟨plays, by omega, fun j plays' other => ?_⟩
      have := same j plays'
      have := lower j plays' other
      omega
    · rintro ⟨plays, positive, lower⟩
      have := same i plays
      refine ⟨plays, by omega, fun j plays' other => ?_⟩
      have := same j plays'
      have := lower j plays' other
      omega
  have small : (∀ i, g.playStatus i = true → calls' i < 5) ↔ ∀ i, g.playStatus i = true → calls i < 5 := by
    apply forall₂_congr
    intro i plays
    have := same i plays
    omega
  rw [Electable, Electable, small]
  simp only [single]

/-! ## The jettons -/

private theorem le_tdiv_iff {m a d : ℤ} (positive : 0 < m) (divisor : 0 < d) : m ≤ a.tdiv d ↔ m * d ≤ a := by
  rcases Int.lt_or_le a 0 with negative | nonneg
  · have quotient := Int.tdiv_nonneg (Int.neg_nonneg_of_nonpos negative.le) divisor.le
    rw [Int.neg_tdiv] at quotient
    have product : 0 < m * d := Int.mul_pos positive divisor
    omega
  · rw [Int.tdiv_eq_ediv_of_nonneg nonneg]
    exact Int.le_ediv_iff_mul_le divisor

private theorem jetton_pos_iff {lowest top callMaxTimes value : ℤ} (least : lowest ≤ top) :
    0 < (if top ≤ callMaxTimes then value else if lowest ≤ callMaxTimes then value else 0)
      ↔ 0 < value ∧ lowest ≤ callMaxTimes := by
  split
  · omega
  · split <;> omega

section Playable

variable (playable : Playable g)
include playable

theorem jettonMultiple_zero (jettons : g.jsize ≠ 0) :
    0 < g.jettonMultiple 0 ∧ g.jettonMultiple 0 ≤ g.jettonMultiple (Fin.ofNat 5 ((if 5 < g.jsize then 5 else g.jsize) - 1)) := by
  have loads : g.jsize ≤ 5 := playable.loads
  have short : g.jsize ≤ g.jettons.length := Nat.mod_le _ _
  have last : (Fin.ofNat 5 (g.jsize - 1)).val = g.jsize - 1 := Nat.mod_eq_of_lt (by omega)
  have entry : ∀ i : Fin 5, ∀ inside : i.val < g.jsize, g.jettonMultiple i = g.jettons[i.val] := by
    intro i inside
    rw [Game.jettonMultiple, if_pos inside, List.getD_eq_getElem]
  rw [if_neg (by omega), entry 0 (Nat.pos_of_ne_zero jettons), entry _ (by omega)]
  refine ⟨playable.positive _ (List.getElem_mem _), ?_⟩
  simp only [last]
  rcases Nat.eq_zero_or_pos (g.jsize - 1) with only | more
  · simp only [only]
    exact Int.le_refl _
  · exact Int.le_of_lt (List.pairwise_iff_getElem.mp playable.increasing 0 (g.jsize - 1) _ _ more)

/-- The lowest jetton may be bet exactly if both can afford it. -/
theorem jettonableOf_pos_iff (jettons : g.jsize ≠ 0) {callBanker banker player : ℤ} (call : 0 < callBanker) :
    0 < jettonableOf g callBanker banker player 0 ↔ Affordable g callBanker banker player := by
  obtain ⟨positive, least⟩ := jettonMultiple_zero playable jettons
  have others : (0 : ℤ) < g.playCount - 1 := by have := playable.two; omega
  have unit : 0 < g.floorScore * callBanker := Int.mul_pos playable.floorScore call
  have unit' : 0 < g.floorScore * (g.playCount - 1) * callBanker :=
    Int.mul_pos (Int.mul_pos playable.floorScore others) call
  rw [jettonableOf, Affordable, ← le_tdiv_iff positive unit, ← le_tdiv_iff positive unit']
  apply (jetton_pos_iff least).trans
  apply and_congr_right
  intro _
  split <;> omega

/-! ## Calling -/

/-- When all have called, the betting begins if the calls lead to a playing banker. -/
theorem chooseBanker_eq_some (calling : Calling g t) (called : ∀ i, ¬Waiting g Table.callBanker t i)
    (electable : Electable g t.callBanker) :
    ∃ t' b, chooseBanker g t = some t' ∧ t'.armed = true ∧ Betting g t' b ∧ t'.addScore = t.addScore := by
  have nonneg : ∀ i, g.playStatus i = true → 0 ≤ t.callBanker i := fun i plays =>
    (calling.calls i plays).resolve_left fun waits => called i ⟨plays, waits⟩
  have plays := (banker_plays_iff nonneg electable.1 electable.2.1).mpr electable
  have inside : ¬((∃ i ∈ g.playing, 5 ≤ t.callBanker i) ∨ g.jsize = 0) := by
    rintro (⟨i, present, large⟩ | none_)
    · exact absurd (electable.1 i (mem_playing.mp present)) (Int.not_lt.mpr large)
    · exact electable.2.1 none_
  obtain ⟨score, seat⟩ := Option.isSome_iff_exists.mp (g.seated _ plays)
  have balance : g.score ((calledBanker g t).getD g.randBanker) = score := by rw [Game.score, seat, Option.getD_some]
  have call : 0 < (if calledBanker g t = none then
      Function.update t.callBanker ((calledBanker g t).getD g.randBanker) (g.bankerMultiple 0)
      else t.callBanker) ((calledBanker g t).getD g.randBanker) := by
    rcases calledBanker_cases nonneg electable.1 with ⟨nobody, _⟩ | ⟨b, found, _, positive, _⟩
    · rw [if_pos nobody, Function.update_self]
      exact_mod_cast playable.bankerMultiple 0
    · rw [found, if_neg (Option.some_ne_none b), Option.getD_some]
      exact positive
  rw [chooseBanker, if_neg inside]
  dsimp only
  rw [seat, Option.map_some]
  refine ⟨_, _, rfl, rfl, ⟨⟨rfl, plays, call, fun i _ _ => .inl (calling.addScore i), calling.concluded⟩, rfl,
    calling.cardType, fun i plays' other => ?_⟩, rfl⟩
  dsimp only
  rw [if_pos ⟨plays', other⟩, jettonableOf_pos_iff playable electable.2.1 call, balance]

omit playable in
/-- A playing banker is chosen only if the calls lead to one. -/
theorem electable_of_chooseBanker (calling : Calling g t) (called : ∀ i, ¬Waiting g Table.callBanker t i)
    (chosen : chooseBanker g t = some t') (banker : t'.bankerUser = some b) (plays : g.playStatus b = true) :
    Electable g t.callBanker := by
  have nonneg : ∀ i, g.playStatus i = true → 0 ≤ t.callBanker i := fun i plays =>
    (calling.calls i plays).resolve_left fun waits => called i ⟨plays, waits⟩
  rw [chooseBanker] at chosen
  split at chosen
  · cases chosen
  next inside =>
    obtain ⟨score, _, rfl⟩ := Option.map_eq_some_iff.mp chosen
    cases banker
    have small : ∀ i, g.playStatus i = true → t.callBanker i < 5 := fun i plays' =>
      Int.not_le.mp fun large => inside (.inl ⟨i, mem_playing.mpr plays', large⟩)
    exact (banker_plays_iff nonneg small fun none_ => inside (.inr none_)).mp plays

end Playable

theorem filter_length_eq_iff {p : Chair → Prop} [DecidablePred p] :
    (g.playing.filter fun i => p i).length = g.playCount ↔ ∀ i, g.playStatus i = true → p i := by
  rw [Game.playCount, List.length_filter_eq_length_iff]
  simp only [mem_playing, decide_eq_true_iff]

def Table.withCall (t : Table) (i : Chair) (callFlag : ℤ) : Table :=
  { t with callBanker := Function.update t.callBanker i callFlag }

theorem withCall_self (callFlag : ℤ) : (t.withCall i callFlag).callBanker i = callFlag := Function.update_self _ _ _

theorem withCall_of_ne {j : Chair} (callFlag : ℤ) (other : j ≠ i) :
    (t.withCall i callFlag).callBanker j = t.callBanker j := Function.update_of_ne other _ _

/-- A call that is not rejected is recorded, and the last one chooses the banker. -/
theorem onUserCallBanker_cases (t : Table) (i : Chair) (callFlag : ℤ) :
    onUserCallBanker g t i callFlag = some t
      ∨ (t.callBanker i = -1 ∧ 0 ≤ callFlag ∧ (callFlag = 0 ∨ ∃ j, g.callable i j = callFlag))
        ∧ onUserCallBanker g t i callFlag =
          if (g.playing.filter fun j => (t.withCall i callFlag).callBanker j ≠ -1).length = g.playCount then
            chooseBanker g (t.withCall i callFlag)
          else some (t.withCall i callFlag) := by
  rw [onUserCallBanker]
  split
  · exact .inl rfl
  next fresh =>
    split
    · exact .inl rfl
    next nonneg =>
      split
      · exact .inl rfl
      next correct =>
        refine .inr ⟨⟨not_not.mp fresh, Int.not_lt.mp nonneg, ?_⟩, rfl⟩
        rcases eq_or_ne callFlag 0 with none_ | some_
        · exact .inl none_
        · right
          by_contra wrong
          exact correct ⟨some_, fun j same => wrong ⟨j, same⟩⟩

theorem waiting_withCall {callFlag : ℤ} (nonneg : 0 ≤ callFlag) (j : Chair) :
    Waiting g Table.callBanker (t.withCall i callFlag) j ↔ j ≠ i ∧ Waiting g Table.callBanker t j := by
  rw [Waiting, Waiting]
  rcases eq_or_ne j i with rfl | other
  · rw [withCall_self]
    exact ⟨fun both => by have := both.2; omega, fun both => absurd rfl both.1⟩
  · rw [withCall_of_ne _ other]
    exact ⟨fun waits => ⟨other, waits⟩, fun both => both.2⟩

theorem Calling.withCall {callFlag : ℤ} (calling : Calling g t) (nonneg : 0 ≤ callFlag) : Calling g (t.withCall i callFlag) where
  status := calling.status
  calls j plays := by
    rcases eq_or_ne j i with rfl | other
    · exact .inr (by rw [withCall_self]; exact nonneg)
    · rw [withCall_of_ne _ other]
      exact calling.calls j plays
  addScore := calling.addScore
  cardType := calling.cardType
  concluded := calling.concluded

/-- The choice of the banker leaves no call open. -/
theorem chooseBanker_calls (chosen : chooseBanker g t = some t') (j : Chair) :
    t'.callBanker j = t.callBanker j ∨ 0 ≤ t'.callBanker j := by
  rw [chooseBanker] at chosen
  split at chosen
  · cases chosen
  · obtain ⟨score, _, rfl⟩ := Option.map_eq_some_iff.mp chosen
    dsimp only
    split
    · rcases eq_or_ne j ((calledBanker g t).getD g.randBanker) with rfl | other
      · right
        rw [Function.update_self]
        exact Int.natCast_nonneg _
      · exact .inl (Function.update_of_ne other _ _)
    · exact .inl rfl

/-- The loop of the timer adds the calls that are missing and chooses the banker. -/
theorem autoUserCallBanker_eq (calling : Calling g t) (pending : ∃ i, Waiting g Table.callBanker t i) :
    ∃ last, Calling g last ∧ (∀ i, ¬Waiting g Table.callBanker last i)
      ∧ (Electable g last.callBanker ↔ Electable g t.callBanker) ∧ autoUserCallBanker g t = chooseBanker g last := by
  have completes : Completes (Waiting g Table.callBanker) (onUserCallBanker g · · 0)
      (fun a => Calling g a ∧ ∀ i, g.playStatus i = true →
        a.callBanker i = t.callBanker i ∨ (t.callBanker i = -1 ∧ a.callBanker i = 0))
      (fun a i => a.withCall i 0) (chooseBanker g) := by
    have recorded : ∀ a i, Waiting g Table.callBanker a i → onUserCallBanker g a i 0 =
        if (g.playing.filter fun j => (a.withCall i 0).callBanker j ≠ -1).length = g.playCount then
          chooseBanker g (a.withCall i 0)
        else some (a.withCall i 0) := by
      intro a i waits
      rw [onUserCallBanker, if_neg (not_not.mpr waits.2), if_neg (by omega), if_neg fun both => both.1 rfl]
      rfl
    constructor
    · intro a i j _ waits still
      rw [recorded a i waits, if_neg]
      rw [filter_length_eq_iff]
      exact fun all => all j still.1 still.2
    · intro a i _ waits none_
      rw [recorded a i waits, if_pos]
      rw [filter_length_eq_iff]
      exact fun j plays open_ => none_ j ⟨plays, open_⟩
    · rintro a i ⟨calling', same⟩ waits
      refine ⟨calling'.withCall (Int.le_refl 0), fun j plays => ?_⟩
      rcases eq_or_ne j i with rfl | other
      · rw [withCall_self]
        have := same j plays
        have := waits.2
        omega
      · rw [withCall_of_ne _ other]
        exact same j plays
    · intro a i j _ _ still
      exact (waiting_withCall (Int.le_refl 0) j).mp still
    · rintro a a' - idle chosen j ⟨plays, open_⟩
      have := chooseBanker_calls chosen j
      have closed : a.callBanker j ≠ -1 := fun open_ => idle j ⟨plays, open_⟩
      omega
  obtain ⟨last, ⟨calling', same⟩, idle, done⟩ := completes.sweep_eq (List.finRange 4)
    ⟨calling, fun i _ => .inl rfl⟩ pending fun j _ => List.mem_finRange j
  exact ⟨last, calling', idle, electable_congr same, done⟩

end H5Server.Bbqznn
