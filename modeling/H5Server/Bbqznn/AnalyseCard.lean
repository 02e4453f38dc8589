import H5Server.Bbqznn.Showdown
import H5Server.Bbqznn.TableFrameSink
import H5Server.Lib.Selection

/-! # Redealing by the stock (`AnalyseCardEx`, `AnalyseForBlacklist`)

The hands are put in order of their strength, and the playing seats take them one by one: the favoured ones from the
front, the others from the back. What a seat holds is rewritten from copies of what all held before.
-/

namespace H5Server.Bbqznn

open Lib

/-- What a seat holds. -/
structure UserCards where
  cardData : List ℕ
  handCardData : List ℕ
  kingChangCard : ℕ × ℕ
  maxCardType : ℕ
deriving DecidableEq, Repr

/-- The table when the hands may be dealt again. -/
structure Seats where
  haveKing : Bool
  playStatus : Chair → Bool
  isAndroidUser : Chair → Bool
  androidPlayerCount : ℕ
  bankerUser : Option Chair

namespace Seats

variable (s : Seats)

def playing : List Chair := (List.finRange 4).filter fun i => s.playStatus i

/-- `m_wPlayCount`, which counts the seats as they start to play. -/
def playCount : ℕ := s.playing.length

/-- `CompareCard` of what a seat holds and what the winner so far does. -/
def compareUsers (cards : Chair → UserCards) (i wWinUser : Chair) : Bool :=
  compareCard s.haveKing (cards i).cardData (cards wWinUser).cardData (cards i).kingChangCard
    (cards wWinUser).kingChangCard false (s.bankerUser = some i)

/-- `vecCardVal`; without a seat that is not in it yet `INVALID_CHAIR` is pushed. -/
def vecCardVal (cards : Chair → UserCards) (bSteal : Bool) : List (Option Chair) :=
  selections (fun i wWinUser => s.compareUsers cards i wWinUser == bSteal) s.playing s.playCount

end Seats

/-- The loop that rewrites the seats. There is no result where the source would take from an empty vector or use
`INVALID_CHAIR`. -/
def exchange (tmp : Chair → UserCards) (front : Chair → Bool) :
    List Chair → List (Option Chair) → (Chair → UserCards) → Option (Chair → UserCards)
  | [], _, cards => some cards
  | i :: chairs, vec, cards =>
    match takeEnd (front i) vec with
    | some (some cbTmpValue, vec) =>
      exchange tmp front chairs vec
        (if cbTmpValue ≠ i then Function.update cards i (tmp cbTmpValue) else cards)
    | _ => none

/-! ## By the stock -/

/-- The stock of the room, and what is drawn. -/
structure Storage where
  storageControl : ℤ
  storageLowerLimit : ℤ
  storageHighLimit : ℤ
  /-- `systemKillAllRatio` -/
  difficulty : ℤ
  randomRet : ℤ
  /-- the two `rand() % 100` -/
  randHigh : ℕ
  randLower : ℕ

/-- `bSteal`, if the hands are dealt again. -/
def steals (s : Seats) (st : Storage) : Option Bool :=
  if s.androidPlayerCount = 0 then none
  else if st.randomRet < st.difficulty then some true
  else if st.storageLowerLimit ≤ st.storageControl ∧ st.storageControl ≤ st.storageHighLimit then none
  else if st.storageHighLimit < st.storageControl ∧ st.randHigh ≤ 30 then none
  else if st.storageControl < st.storageLowerLimit ∧ st.randLower ≤ 20 then none
  else some (decide ¬st.storageHighLimit < st.storageControl)

def analyseCardEx (s : Seats) (st : Storage) (cards : Chair → UserCards) : Option (Chair → UserCards) :=
  match steals s st with
  | none => some cards
  | some bSteal => exchange cards s.isAndroidUser s.playing (s.vecCardVal cards bSteal) cards

/-! ## By the blacklist -/

structure Blacklist where
  blacklist : Chair → Bool
  /-- `GetBlacklistInfo().weight` -/
  weight : Chair → ℤ
  /-- `rand() % 100` of the round of a chair -/
  rand : Chair → ℕ

/-- `winnerSeat` and `winnerWeight` after the round of one chair. -/
def winnerRound (s : Seats) (b : Blacklist) (winner : Option Chair × ℤ) (j : Chair) : Option Chair × ℤ :=
  let (winnerSeat, winnerWeight) := winner
  if ¬s.playStatus j then winner
  else if s.androidPlayerCount = 0 then
    if s.isAndroidUser j then winner
    else if ¬b.blacklist j then
      if winnerWeight = 0 then (if b.rand j > 50 then some j else winnerSeat, winnerWeight) else (some j, 0)
    else if b.weight j < winnerWeight then (some j, b.weight j)
    else winner
  else if s.isAndroidUser j ∧ (winnerSeat = none ∨ b.rand j > 50) then (some j, winnerWeight)
  else winner

/-- `winnerSeat`; the rounds are as many as seats play, whichever these are. -/
def winnerSeat (s : Seats) (b : Blacklist) : Option Chair :=
  (((List.finRange 4).take s.playCount).foldl (winnerRound s b) (none, 10000)).1

def analyseForBlacklist (s : Seats) (b : Blacklist) (cards : Chair → UserCards) : Option (Chair → UserCards) :=
  exchange cards (fun i => s.isAndroidUser i ∨ winnerSeat s b = some i) s.playing (s.vecCardVal cards true) cards

/-! ## The seats take what was held before -/

variable {s : Seats} {tmp cards after : Chair → UserCards} {front : Chair → Bool}

theorem Seats.mem_playing {i : Chair} : i ∈ s.playing ↔ s.playStatus i = true := by
  rw [Seats.playing, List.mem_filter]
  exact and_iff_right (List.mem_finRange i)

theorem Seats.nodup_playing : s.playing.Nodup := (List.nodup_finRange 4).filter _

/-- Whom each of some chairs takes from. -/
structure Takes (front : Chair → Bool) (chairs vec : List Chair) (given : Chair → Chair) : Prop where
  perm : (chairs.map given).Perm vec
  ends : ∀ {R : Chair → Chair → Prop}, vec.Pairwise R → ∀ i ∈ chairs, ∀ j ∈ chairs, front i = true → front j = false →
    R (given i) (given j)

theorem update_of_mem {γ : Type} {chairs : List Chair} {i j : Chair} (other : i ∉ chairs) (inside : j ∈ chairs)
    (f : Chair → γ) (a : γ) : Function.update f i a j = f j := by
  apply Function.update_of_ne
  rintro rfl
  exact other inside

theorem Takes.cons {chairs rest : List Chair} {i : Chair} {given : Chair → Chair} (takes : Takes front chairs rest given)
    (other : i ∉ chairs) (a : Chair) :
    Takes front (i :: chairs) (joinEnd (front i) a rest) (Function.update given i a) := by
  have same (j : Chair) (inside : j ∈ chairs) := update_of_mem other inside given a
  have within (j : Chair) (inside : j ∈ chairs) : given j ∈ rest := takes.perm.subset (List.mem_map_of_mem inside)
  constructor
  · rw [List.map_cons, Function.update_self, List.map_congr_left same]
    exact (takes.perm.cons a).trans (joinEnd_perm (front i) a rest).symm
  · intro R sorted j inside k inside' first last
    rw [joinEnd] at sorted
    rcases List.mem_cons.mp inside with rfl | here
    · rw [if_pos first] at sorted
      rcases List.mem_cons.mp inside' with rfl | there
      · exact absurd (first.symm.trans last) (by decide)
      · rw [Function.update_self, same k there]
        exact (List.pairwise_cons.mp sorted).1 _ (within k there)
    · rw [same j here]
      rcases List.mem_cons.mp inside' with rfl | there
      · rw [if_neg (by rw [last]; exact Bool.false_ne_true)] at sorted
        rw [Function.update_self]
        exact (List.pairwise_append.mp sorted).2.2 _ (within j here) a (List.mem_singleton_self a)
      · rw [same k there]
        refine takes.ends ?_ j here k there first last
        split_ifs at sorted
        · exact (List.pairwise_cons.mp sorted).2
        · exact (List.pairwise_append.mp sorted).1

/-- The loop gives every seat what some seat held before. -/
theorem exists_exchange {chairs vec : List Chair} (nodup : chairs.Nodup) (enough : vec.length = chairs.length)
    (same : ∀ i ∈ chairs, cards i = tmp i) :
    ∃ given, Takes front chairs vec given ∧ ∃ after, exchange tmp front chairs (vec.map some) cards = some after ∧
      ∀ i, after i = if i ∈ chairs then tmp (given i) else cards i := by
  induction chairs generalizing vec cards with
  | nil =>
    refine ⟨id, ⟨?_, fun _ i inside => absurd inside List.not_mem_nil⟩, cards, rfl, fun i => rfl⟩
    rw [List.eq_nil_of_length_eq_zero enough]
    exact .refl _
  | cons i chairs ih =>
    obtain ⟨other, rest⟩ := List.nodup_cons.mp nodup
    obtain ⟨a, vec, rfl⟩ := exists_joinEnd (front i) (List.ne_nil_of_length_eq_add_one enough)
    rw [(joinEnd_perm _ _ _).length_eq] at enough
    have now : (if a ≠ i then Function.update cards i (tmp a) else cards) = Function.update cards i (tmp a) := by
      split_ifs with moved
      · rfl
      · rw [not_not.mp moved, ← same i List.mem_cons_self, Function.update_eq_self]
    have later (j : Chair) (inside : j ∈ chairs) : Function.update cards i (tmp a) j = tmp j := by
      rw [update_of_mem other inside]
      exact same j (List.mem_cons_of_mem _ inside)
    obtain ⟨given, takes, after, result, all⟩ := ih rest (Nat.succ.inj enough) later
    refine ⟨_, takes.cons other a, after, ?_, fun j => ?_⟩
    · rw [exchange, map_joinEnd, takeEnd_joinEnd, ← result, ← now]
    · rw [all j]
      rcases eq_or_ne j i with rfl | else_
      · rw [if_neg other, if_pos List.mem_cons_self, Function.update_self, Function.update_self]
      · rw [Function.update_of_ne else_, Function.update_of_ne else_]
        simp only [List.mem_cons, else_, false_or]

/-- The seats that play hold together what they held before, and the others what they held. -/
structure Permuted (s : Seats) (before after : Chair → UserCards) : Prop where
  playing : (s.playing.map after).Perm (s.playing.map before)
  others : ∀ i ∉ s.playing, after i = before i

theorem Permuted.refl (s : Seats) (cards : Chair → UserCards) : Permuted s cards cards := ⟨.refl _, fun _ _ => rfl⟩

theorem exists_vecCardVal (s : Seats) (cards : Chair → UserCards) (bSteal : Bool) :
    ∃ vec : List Chair, s.vecCardVal cards bSteal = vec.map some ∧ vec.Perm s.playing :=
  selections_perm _ Seats.nodup_playing

theorem exists_given (s : Seats) (cards : Chair → UserCards) (bSteal : Bool) (front : Chair → Bool) :
    ∃ vec given after, s.vecCardVal cards bSteal = vec.map some ∧ vec.Perm s.playing ∧ Takes front s.playing vec given ∧
      exchange cards front s.playing (s.vecCardVal cards bSteal) cards = some after ∧
      ∀ i, after i = if i ∈ s.playing then cards (given i) else cards i := by
  obtain ⟨vec, result, perm⟩ := exists_vecCardVal s cards bSteal
  have here : ∀ i ∈ s.playing, cards i = cards i := fun _ _ => rfl
  obtain ⟨given, takes, after, exchanged, all⟩ := @exists_exchange _ _ front _ _ Seats.nodup_playing perm.length_eq here
  exact ⟨vec, given, after, result, perm, takes, result ▸ exchanged, all⟩

theorem exchange_permuted (s : Seats) (cards : Chair → UserCards) (bSteal : Bool) (front : Chair → Bool) :
    ∃ after, exchange cards front s.playing (s.vecCardVal cards bSteal) cards = some after ∧ Permuted s cards after := by
  obtain ⟨vec, given, after, -, perm, takes, result, all⟩ := exists_given s cards bSteal front
  refine ⟨after, result, ?_, fun i other => by rw [all i, if_neg other]⟩
  have same : s.playing.map after = (s.playing.map given).map cards := by
    rw [List.map_map]
    exact List.map_congr_left fun i inside => by rw [all i, if_pos inside, Function.comp_apply]
  rw [same]
  exact (takes.perm.trans perm).map cards

theorem exists_analyseCardEx (s : Seats) (st : Storage) (cards : Chair → UserCards) :
    ∃ after, analyseCardEx s st cards = some after ∧ Permuted s cards after := by
  rw [analyseCardEx]
  cases steals s st with
  | none => exact ⟨cards, rfl, .refl s cards⟩
  | some bSteal => exact exchange_permuted s cards bSteal s.isAndroidUser

theorem exists_analyseForBlacklist (s : Seats) (b : Blacklist) (cards : Chair → UserCards) :
    ∃ after, analyseForBlacklist s b cards = some after ∧ Permuted s cards after :=
  exchange_permuted s cards true _

/-! ## The favoured seats win -/

/-- The seats that play hold cards of one deck, and five small cards at most once. -/
structure Dealt (s : Seats) (cards : Chair → UserCards) : Prop where
  hand : ∀ i ∈ s.playing, Hand s.haveKing 5 (cards i).cardData
  apart : ∀ i ∈ s.playing, ∀ j ∈ s.playing, i ≠ j → (cards i).cardData.Disjoint (cards j).cardData
  small : ∀ i ∈ s.playing, ∀ j ∈ s.playing, i ≠ j →
    ¬(handType s.haveKing (cards i).cardData = ctFivesmallNiu ∧ handType s.haveKing (cards j).cardData = ctFivesmallNiu)

/-- One hand beats another whoever is banker. -/
def Wins (haveKing : Bool) (winner loser : UserCards) : Prop :=
  ∀ firstBanker,
    compareCard haveKing winner.cardData loser.cardData winner.kingChangCard loser.kingChangCard false firstBanker = true ∧
    compareCard haveKing loser.cardData winner.cardData loser.kingChangCard winner.kingChangCard false firstBanker = false

def userStrength (s : Seats) (cards : Chair → UserCards) (i : Chair) : Strength :=
  strength s.haveKing (cards i).cardData (cards i).kingChangCard

theorem Dealt.compareCard_eq (dealt : Dealt s cards) {i j : Chair} (here : i ∈ s.playing) (there : j ∈ s.playing)
    (other : i ≠ j) (firstBanker : Bool) :
    compareCard s.haveKing (cards i).cardData (cards j).cardData (cards i).kingChangCard (cards j).kingChangCard false
      firstBanker = decide (userStrength s cards j < userStrength s cards i) :=
  (dealt.hand i here).compareCard_eq (dealt.hand j there) (dealt.apart i here j there other)
    (.inr (dealt.small i here j there other))

theorem Dealt.strength_ne (dealt : Dealt s cards) {i j : Chair} (here : i ∈ s.playing) (there : j ∈ s.playing)
    (other : i ≠ j) : userStrength s cards i ≠ userStrength s cards j :=
  (dealt.hand i here).strength_ne (dealt.hand j there) (dealt.apart i here j there other)

theorem Dealt.wins (dealt : Dealt s cards) {i j : Chair} (here : i ∈ s.playing) (there : j ∈ s.playing)
    (other : i ≠ j) (le : userStrength s cards j ≤ userStrength s cards i) : Wins s.haveKing (cards i) (cards j) := by
  intro firstBanker
  rw [dealt.compareCard_eq here there other, dealt.compareCard_eq there here other.symm, decide_eq_true_eq,
    decide_eq_false_iff_not, not_lt]
  exact ⟨lt_of_le_of_ne le (dealt.strength_ne there here other.symm), le⟩

theorem Dealt.ranks_true (dealt : Dealt s cards) :
    Ranks (fun i wWinUser => s.compareUsers cards i wWinUser == true) (userStrength s cards) s.playing := by
  intro i here j there other
  dsimp only
  rw [Seats.compareUsers, dealt.compareCard_eq here there other, beq_true, decide_eq_true_eq]

theorem Dealt.ranks_false (dealt : Dealt s cards) :
    Ranks (fun i wWinUser => s.compareUsers cards i wWinUser == false)
      (fun i => OrderDual.toDual (userStrength s cards i)) s.playing := by
  intro i here j there other
  have distinct := dealt.strength_ne here there other
  dsimp only
  rw [Seats.compareUsers, dealt.compareCard_eq here there other, beq_false, Bool.not_eq_true', decide_eq_false_iff_not,
    not_lt, OrderDual.toDual_lt_toDual]
  exact ⟨fun le => lt_of_le_of_ne le distinct, le_of_lt⟩

theorem Dealt.sorted (dealt : Dealt s cards) {bSteal : Bool} {vec : List Chair}
    (result : s.vecCardVal cards bSteal = vec.map some) :
    vec.Pairwise fun i j => if bSteal then userStrength s cards j ≤ userStrength s cards i
      else userStrength s cards i ≤ userStrength s cards j := by
  cases bSteal with
  | true => exact (selections_sorted Seats.nodup_playing dealt.ranks_true result).1
  | false => exact (selections_sorted Seats.nodup_playing dealt.ranks_false result).1

/-- The hands are dealt again so that either all robots beat all players or the other way round. -/
theorem Dealt.robots_win (dealt : Dealt s cards) {st : Storage} {bSteal : Bool} (steal : steals s st = some bSteal)
    (result : analyseCardEx s st cards = some after) {robot real : Chair} (here : robot ∈ s.playing)
    (there : real ∈ s.playing) (android : s.isAndroidUser robot = true) (human : s.isAndroidUser real = false) :
    if bSteal then Wins s.haveKing (after robot) (after real) else Wins s.haveKing (after real) (after robot) := by
  obtain ⟨vec, given, after', ranking, perm, takes, exchanged, all⟩ := exists_given s cards bSteal s.isAndroidUser
  rw [analyseCardEx, steal] at result
  obtain rfl : after' = after := Option.some.inj (exchanged.symm.trans result)
  have distinct : given robot ≠ given real := by
    intro same
    have once : (s.playing.map given).Nodup := (takes.perm.trans perm).nodup_iff.mpr Seats.nodup_playing
    obtain rfl := List.inj_on_of_nodup_map once here there same
    exact absurd (android.symm.trans human) (by decide)
  have within (i : Chair) (inside : i ∈ s.playing) : given i ∈ s.playing :=
    (takes.perm.trans perm).subset (List.mem_map_of_mem inside)
  have order := takes.ends (dealt.sorted ranking) robot here real there android human
  rw [all robot, all real, if_pos here, if_pos there]
  split_ifs at order ⊢
  · exact dealt.wins (within robot here) (within real there) distinct order
  · exact dealt.wins (within real there) (within robot here) distinct.symm order

/-- A robot and a player, with a better hand for the player at first. -/
def twoSeats : Seats := ⟨false, (· ≤ 1), (· = 0), 1, some 1⟩

def twoHands (i : Chair) : UserCards :=
  if i = 0 then ⟨[0x05, 0x15, 0x0A, 0x1A, 0x09], [], (0, 0), 9⟩ else ⟨[0x12, 0x13, 0x25, 0x2A, 0x1B], [], (0, 0), 10⟩

theorem dealt_twoHands : Dealt twoSeats twoHands where
  hand i inside :=
    ⟨(by decide : ∀ i ∈ twoSeats.playing, (twoHands i).cardData.length = 5) i inside,
      (by decide : ∀ i ∈ twoSeats.playing, (twoHands i).cardData.Nodup) i inside,
      (by decide : ∀ i ∈ twoSeats.playing, ∀ card ∈ (twoHands i).cardData, card ∈ deck false) i inside⟩
  apart i here j there other := List.disjoint_left.mpr
    ((by decide : ∀ i ∈ twoSeats.playing, ∀ j ∈ twoSeats.playing, i ≠ j →
      ∀ card ∈ (twoHands i).cardData, card ∉ (twoHands j).cardData) i here j there other)
  small := by decide

end H5Server.Bbqznn
