import H5Server.Qhb.Conservation
import H5Server.Qhb.Packets
import Mathlib.Data.List.Perm.Subperm

/-! # Winner of the red packets

The controls may draw the packets again, and each flags the best of its own draw. In the end those who grabbed hold
different packets and the one banker has the largest. A loop that wants a robot to be best comes to an end if a robot
grabbed.
-/

namespace H5Server.Qhb

/-- The packets of those who grabbed. -/
def grabs (users : List UserInfo) : List ℤ := (users.filter (·.haveGrab)).map (·.endWinScore)

/-- Different grabbers hold different packets. -/
def Dealt (packets : List ℤ) (users : List UserInfo) : Prop := (grabs users).Subperm packets

/-- Nobody who grabbed has more. -/
def Most (users : List UserInfo) (u : UserInfo) : Prop :=
  u ∈ users ∧ u.haveGrab = true ∧ ∀ v ∈ users, v.haveGrab = true → v.endWinScore ≤ u.endWinScore

/-- One of those who grabbed is banker, and he has the largest packet. -/
def Winner (users : List UserInfo) : Prop :=
  ∃ u, Most users u ∧ u.isBanker = true ∧ ∀ v ∈ users, v.haveGrab = true → v.isBanker = true → v = u

/-- What a settlement that returns has done. -/
structure Awarded (packets : List ℤ) (users users' : List UserInfo) : Prop where
  same : Same users users'
  dealt : Dealt packets users'
  winner : Winner users'

/-- The exit condition of the loop over the random packets that `Settlement` enters, if it enters one. -/
def redraws (d : Draws) (users : List UserInfo) : Option (List UserInfo → Bool) :=
  if realPlayer users = 0 ∨ realPlayer users = users.length + realPlayer users then none
  else if d.kill then some fun users => !bestIsAndroid users
  else
    match d.storage, d.hit with
    | .upper, true => some bestIsAndroid
    | .lower, true => some fun users => !bestIsAndroid users
    | _, _ => none

/-- Whatever the blacklist has handed out, the loop that is entered can be left. -/
def CanFinish (d : Draws) (packets : List ℤ) (users : List UserInfo) : Prop :=
  ∀ given accepted, blackControl d packets users = some given → redraws d given = some accepted →
    ∃ indices drawn, give (·.haveGrab) indices packets given = some drawn ∧ accepted drawn = true

/-- `Draws` with other places for the packets. -/
def Draws.places (d : Draws) (blackIndices indices : List ℕ) : Draws :=
  { d with blackIndices := blackIndices, indices := indices }

/-- The loop wants a robot to be best, and only real players grabbed. -/
def RobotMissing (d : Draws) (users : List UserInfo) : Prop :=
  d.kill = false ∧ d.storage = .upper ∧ d.hit = true ∧ ∀ u ∈ users, u.haveGrab = true → u.isAndroid = false

/-- Users with ids and seats of their own, without anything of the round before, of whom some grabbed. -/
structure Grabbers (users : List UserInfo) : Prop where
  ids : (users.map (·.userId)).Nodup
  seats : (users.map (·.chairId)).Nodup
  cleared : Cleared users
  some_ : ∃ u ∈ users, u.haveGrab = true

section Settlement

variable {d : Draws} {takes : UserInfo → Bool} {indices : List ℕ} {temlist packets : List ℤ}
  {users users' : List UserInfo}

/-! ## Packets -/

theorem grabs_noFlag (same : users'.map UserInfo.noFlag = users.map UserInfo.noFlag) : grabs users' = grabs users := by
  have through (users : List UserInfo) : grabs users = grabs (users.map UserInfo.noFlag) := by
    rw [grabs, grabs, List.filter_map, List.map_map]
    rfl
  rw [through, same, ← through]

/-- One pass hands out different packets. -/
theorem give_subperm (blind : ∀ u : UserInfo, takes u.noScore = takes u)
    (done : give takes indices temlist users = some users') :
    ((users'.filter takes).map (·.endWinScore)).Subperm temlist := by
  induction users generalizing indices temlist users' with
  | nil =>
    cases done
    exact List.nil_subperm
  | cons u users ih =>
    rw [give.eq_def] at done
    dsimp only at done
    split at done
    next takes_ =>
      cases indices with
      | nil => cases done
      | cons index indices =>
        obtain ⟨money, found, done⟩ := Option.bind_eq_some_iff.mp done
        obtain ⟨rest, given, done⟩ := Option.bind_eq_some_iff.mp done
        cases done
        have still : takes { u with endWinScore := money } = true :=
          (blind { u with endWinScore := money }).symm.trans ((blind u).trans takes_)
        obtain ⟨within, rfl⟩ := List.getElem?_eq_some_iff.mp found
        rw [List.filter_cons_of_pos still, List.map_cons]
        exact ((List.subperm_cons _).mpr (ih given)).trans (List.getElem_cons_eraseIdx_perm within).subperm
    next passes =>
      obtain ⟨rest, given, rfl⟩ := Option.map_eq_some_iff.mp done
      rw [List.filter_cons_of_neg passes]
      exact ih given

theorem same_give (given : give takes indices temlist users = some users')
    (blind : ∀ u : UserInfo, takes u.noScore = takes u) : Same users users' :=
  same_of_noScore (give_spec blind given).1

theorem Same.ids (same : Same users users') (ids : (users.map (·.userId)).Nodup) : (users'.map (·.userId)).Nodup := by
  rwa [same.map fun _ => rfl]

theorem Same.exists_grab (same : Same users users') (some_ : ∃ u ∈ users, u.haveGrab = true) :
    ∃ u ∈ users', u.haveGrab = true := by
  have count : users'.countP (·.haveGrab) = users.countP (·.haveGrab) := same.countP fun _ => rfl
  rw [← List.countP_pos_iff] at some_ ⊢
  exact count ▸ some_

/-! ## The best -/

/-- Whatever the comparison does with equal packets, nobody has more than who is picked. -/
theorem most_of_pickFrom {better : ℤ → ℤ → Bool} {money : ℤ} {found : Option UserInfo} {u : UserInfo}
    (up : ∀ x y, better x y = true → x ≤ y) (down : ∀ x y, better x y = false → y ≤ x)
    (picked : pickFrom better money found users = some u) (start : ∀ w ∈ found, w.endWinScore = money) :
    money ≤ u.endWinScore ∧ ∀ v ∈ users, v.haveGrab = true → v.endWinScore ≤ u.endWinScore := by
  induction users generalizing money found with
  | nil => exact ⟨(start u picked).ge, fun _ impossible => absurd impossible List.not_mem_nil⟩
  | cons v users ih =>
    rw [pickFrom] at picked
    split at picked
    next better_ =>
      obtain ⟨least, others⟩ := ih picked fun w same => by rw [Option.some.inj same]
      refine ⟨(up _ _ (Bool.and_eq_true_iff.mp better_).2).trans least, List.forall_mem_cons.mpr ⟨fun _ => least, others⟩⟩
    next worse =>
      obtain ⟨least, others⟩ := ih picked start
      refine ⟨least, List.forall_mem_cons.mpr ⟨fun grab => ?_, others⟩⟩
      rw [grab, Bool.true_and, Bool.not_eq_true] at worse
      exact (down _ _ worse).trans least

theorem most_of_best {u : UserInfo} (picked : best users = some u) : Most users u :=
  ⟨(mem_of_best picked).1, (mem_of_best picked).2,
    (most_of_pickFrom (fun _ _ less => (of_decide_eq_true less).le) (fun _ _ other => not_lt.mp (of_decide_eq_false other))
      picked fun _ impossible => absurd impossible (Option.not_mem_none _)).2⟩

theorem most_of_bigOne {u : UserInfo} (picked : bigOne users = some u) : Most users u :=
  ⟨(mem_of_bigOne picked).1, (mem_of_bigOne picked).2,
    (most_of_pickFrom (fun _ _ less => of_decide_eq_true less) (fun _ _ other => (not_le.mp (of_decide_eq_false other)).le)
      picked fun _ impossible => absurd impossible (Option.not_mem_none _)).2⟩

/-- Packets are worth something, so somebody is best. -/
theorem exists_best (dealt : Dealt packets users) (positive : ∀ x ∈ packets, 0 < x)
    (some_ : ∃ u ∈ users, u.haveGrab = true) : ∃ u, best users = some u := by
  cases picked : best users with
  | some u => exact ⟨u, rfl⟩
  | none =>
    obtain ⟨u, there, grab⟩ := some_
    have worth := positive u.endWinScore
      (dealt.subset (List.mem_map_of_mem (List.mem_filter.mpr ⟨there, grab⟩)))
    exact absurd worth (of_decide_eq_false (not_better_of_pickFrom picked there grab))

/-! ## Flags -/

/-- Nobody who grabbed is flagged, or somebody with the largest packet is. -/
def Flagged (users : List UserInfo) : Prop :=
  (∀ u ∈ users, u.haveGrab = true → u.isBanker = false) ∨ ∃ u, Most users u ∧ u.isBanker = true

theorem Most.setBanker {u : UserInfo} (most : Most users u) : Most (setBanker u.userId users) { u with isBanker := true } := by
  obtain ⟨present, grab, larger⟩ := most
  refine ⟨List.mem_map.mpr ⟨u, present, if_pos rfl⟩, grab, fun v' changed grab' => ?_⟩
  obtain ⟨v, there, rfl⟩ := List.mem_map.mp changed
  rcases eq_or_ne v.userId u.userId with same | other
  · rw [if_pos same] at grab' ⊢
    exact larger v there grab'
  · rw [if_neg other] at grab' ⊢
    exact larger v there grab'

/-- The one flag among those who grabbed. -/
theorem winner_setBanker {b : UserInfo} (ids : (users.map (·.userId)).Nodup)
    (clear : ∀ u ∈ users, u.haveGrab = true → u.isBanker = false) (most : Most users b) :
    Winner (setBanker b.userId users) := by
  refine ⟨{ b with isBanker := true }, most.setBanker, rfl, ?_⟩
  intro v' changed grab banker
  obtain ⟨v, there, rfl⟩ := List.mem_map.mp changed
  rcases eq_or_ne v.userId b.userId with same | other
  · rw [if_pos same, eq_of_userId ids there most.1 same]
  · rw [if_neg other] at grab banker
    exact absurd ((clear v there grab).symm.trans banker) Bool.false_ne_true

/-- If there is one flag, it is at the largest packet; otherwise it is put there. -/
theorem winner_chooseBanker (ids : (users.map (·.userId)).Nodup) (flagged : Flagged users)
    (done : chooseBanker users = some users') : Same users users' ∧ grabs users' = grabs users ∧ Winner users' := by
  rw [chooseBanker] at done
  split at done
  next one =>
    cases done
    refine ⟨.refl _, rfl, ?_⟩
    rcases flagged with clear | ⟨u, most, banker⟩
    · have none_ : users.countP (fun u => u.haveGrab && u.isBanker) = 0 := by
        rw [List.countP_eq_zero]
        intro u there both
        rw [Bool.and_eq_true] at both
        exact absurd ((clear u there both.1).symm.trans both.2) Bool.false_ne_true
      exact absurd (none_.symm.trans one) Nat.zero_ne_one
    · refine ⟨u, most, banker, fun v there grab banker' => ?_⟩
      rw [List.countP_eq_length_filter] at one
      obtain ⟨w, eq⟩ := List.length_eq_one_iff.mp one
      have inside {x : UserInfo} (there : x ∈ users) (grab : x.haveGrab = true) (banker : x.isBanker = true) : x = w := by
        rw [← List.mem_singleton, ← eq]
        exact List.mem_filter.mpr ⟨there, by rw [grab, banker]; rfl⟩
      exact (inside there grab banker').trans (inside most.1 most.2.1 banker).symm
  · obtain ⟨big, found, rfl⟩ := Option.map_eq_some_iff.mp done
    obtain ⟨present, grab, larger⟩ := most_of_bigOne found
    generalize cleared_ : (users.map fun u => if u.haveGrab then { u with isBanker := false } else u) = cleared
    have flags : cleared.map UserInfo.noFlag = users.map UserInfo.noFlag := by
      rw [← cleared_, List.map_map]
      refine List.map_congr_left fun u _ => ?_
      rw [Function.comp_apply]
      split <;> rfl
    have inside {v' : UserInfo} (changed : v' ∈ cleared) (grab' : v'.haveGrab = true) :
        ∃ v ∈ users, v.haveGrab = true ∧ v' = { v with isBanker := false } := by
      rw [← cleared_] at changed
      obtain ⟨v, there, rfl⟩ := List.mem_map.mp changed
      split at grab'
      next grabbed => exact ⟨v, there, grabbed, if_pos grabbed⟩
      next other => exact absurd grab' other
    have most : Most cleared { big with isBanker := false } := by
      refine ⟨?_, grab, fun v' changed grab' => ?_⟩
      · rw [← cleared_]
        exact List.mem_map.mpr ⟨big, present, if_pos grab⟩
      · obtain ⟨v, there, grabbed, rfl⟩ := inside changed grab'
        exact larger v there grabbed
    have clear : ∀ v' ∈ cleared, v'.haveGrab = true → v'.isBanker = false := by
      intro v' changed grab'
      obtain ⟨v, -, -, rfl⟩ := inside changed grab'
      rfl
    refine ⟨(same_of_noFlag flags).trans (same_of_noFlag (setBanker_noFlag _ _)), ?_, ?_⟩
    · rw [grabs_noFlag (setBanker_noFlag _ _), grabs_noFlag flags]
    · exact winner_setBanker (b := { big with isBanker := false }) ((same_of_noFlag flags).ids ids) clear most

/-! ## Controls -/

/-- What a control leaves behind. -/
structure Controlled (packets : List ℤ) (users users' : List UserInfo) : Prop where
  same : Same users users'
  dealt : Dealt packets users'
  flagged : Flagged users'

section Random

variable {accepted : List UserInfo → Bool}

theorem controlled_giveRandom (positive : ∀ x ∈ packets, 0 < x) (some_ : ∃ u ∈ users, u.haveGrab = true)
    (done : giveRandom accepted indices packets users = some users') :
    Controlled packets users users' ∧ ((users.map (·.userId)).Nodup → NoBanker users → Winner users') := by
  obtain ⟨given, pass, done⟩ := Option.bind_eq_some_iff.mp done
  split at done
  · cases done
    have same := (give_spec (fun _ => rfl) pass).1
    have dealt : Dealt packets given := give_subperm (fun _ => rfl) pass
    obtain ⟨u, picked⟩ := exists_best dealt positive ((same_of_noScore same).exists_grab some_)
    have most := most_of_best picked
    refine ⟨⟨(same_of_noScore same).trans (same_of_noFlag (flagBest_noFlag given)), ?_, .inr ?_⟩, fun ids nobody => ?_⟩
    · rw [Dealt, grabs_noFlag (flagBest_noFlag given)]
      exact dealt
    · rw [flagBest, picked]
      exact ⟨_, most.setBanker, rfl⟩
    · rw [flagBest, picked]
      exact winner_setBanker ((same_of_noScore same).ids ids) (fun v there _ => nobody.of_noScore same v there) most
  · cases done

end Random

/-- One entry is changed, and it is the only one that counts. -/
theorem filter_modify {p : UserInfo → Bool} {f : UserInfo → UserInfo} {x : ℤ} (one : users.countP p = 1)
    (keeps : ∀ u, p u = true → p (f u) = true) (gets : ∀ u, (f u).endWinScore = x) :
    ((users.modify (users.findIdx p) f).filter p).map (·.endWinScore) = [x] := by
  induction users with
  | nil => exact absurd one Nat.zero_ne_one
  | cons u users ih =>
    rw [List.findIdx_cons]
    cases found : p u with
    | true =>
      rw [List.countP_cons_of_pos found, Nat.add_eq_right, List.countP_eq_zero] at one
      rw [cond_true, List.modify_zero_cons, List.filter_cons_of_pos (keeps u found), List.filter_eq_nil_iff.mpr one,
        List.map_singleton, gets]
    | false =>
      rw [List.countP_cons_of_neg (Bool.eq_false_iff.mp found)] at one
      rw [cond_false, List.modify_succ_cons, List.filter_cons_of_neg (Bool.eq_false_iff.mp found)]
      exact ih one

theorem NoBanker.modify (nobody : NoBanker users) (money : ℤ) (i : ℕ) :
    NoBanker (users.modify i fun u => { u with endWinScore := money, isBanker := false }) := by
  induction users generalizing i with
  | nil =>
    rw [List.modify_nil]
    exact nobody
  | cons u users ih =>
    have inside := List.forall_mem_cons.mp nobody
    cases i with
    | zero => exact List.forall_mem_cons.mpr ⟨rfl, inside.2⟩
    | succ i => exact List.forall_mem_cons.mpr ⟨inside.1, ih inside.2 i⟩

/-- Seats tell those who grabbed apart. -/
theorem countP_seat (seats : (users.map (·.chairId)).Nodup) {chairId : ℕ}
    (seated : ∃ u ∈ users, (u.haveGrab && u.chairId == chairId) = true) :
    users.countP (fun u => u.haveGrab && u.chairId == chairId) = 1 := by
  apply Nat.le_antisymm
  · have fewer : users.countP (fun u => u.haveGrab && u.chairId == chairId) ≤ users.countP (·.chairId == chairId) :=
      List.countP_mono_left fun u _ both => (Bool.and_eq_true_iff.mp both).2
    have same : users.countP (·.chairId == chairId) = (users.map (·.chairId)).count chairId := by
      rw [List.count, List.countP_map]
      rfl
    exact fewer.trans (same.trans_le (List.nodup_iff_count_le_one.mp seats chairId))
  · exact List.countP_pos_iff.mpr seated

/-- The chosen seat has the best packet, and the others draw from the rest. -/
theorem controlled_giveBlack {chairId : ℕ} (nobody : NoBanker users) (some_ : packets ≠ [])
    (one : users.countP (fun u => u.haveGrab && u.chairId == chairId) = 1)
    (given : giveBlack chairId indices packets users = some users') : Controlled packets users users' := by
  rw [giveBlack] at given
  obtain ⟨top, rest, rfl⟩ := List.exists_cons_of_ne_nil some_
  dsimp only [List.headD_cons, List.tail_cons] at given
  obtain ⟨same, -⟩ := stage_modify nobody.grabbed top (users.findIdx fun u => u.haveGrab && u.chairId == chairId)
  have first := filter_modify (p := fun u => u.haveGrab && u.chairId == chairId)
    (f := fun u => { u with endWinScore := top, isBanker := false }) one (fun _ counts => counts) fun _ => rfl
  obtain ⟨same', -, others⟩ := give_spec (fun _ => rfl) given
  have drawn_ := give_subperm (fun _ => rfl) given
  have takers : (users'.filter (·.haveGrab)).filter (fun u => u.haveGrab && u.chairId != chairId)
      = users'.filter fun u => u.haveGrab && u.chairId != chairId := by
    rw [List.filter_filter]
    exact List.filter_congr fun u _ => by cases u.haveGrab <;> simp
  have chosen : (users'.filter (·.haveGrab)).filter (fun u => !(u.haveGrab && u.chairId != chairId))
      = (users'.filter fun u => !(u.haveGrab && u.chairId != chairId)).filter fun u =>
        u.haveGrab && u.chairId == chairId := by
    rw [List.filter_filter, List.filter_filter]
    refine List.filter_congr fun u _ => ?_
    cases u.haveGrab <;> cases eq : u.chairId == chairId <;> simp [bne, eq]
  have already (l : List UserInfo) : (l.filter fun u => !(u.haveGrab && u.chairId != chairId)).filter
      (fun u => u.haveGrab && u.chairId == chairId) = l.filter fun u => u.haveGrab && u.chairId == chairId := by
    rw [List.filter_filter]
    refine List.filter_congr fun u _ => ?_
    cases u.haveGrab <;> cases eq : u.chairId == chairId <;> simp [bne, eq]
  have all := (List.filter_append_perm (fun u => u.haveGrab && u.chairId != chairId) (users'.filter (·.haveGrab))).map
    UserInfo.endWinScore
  rw [List.map_append, takers, chosen, others, already, first] at all
  refine ⟨same.trans (same_of_noScore same'), ?_, .inl ?_⟩
  · exact all.symm.subperm.trans ((List.perm_append_comm.subperm).trans ((List.subperm_cons top).mpr drawn_))
  · exact fun u there _ => (nobody.modify top _).of_noScore same' u there

theorem controlled_blackControl (grabbers : Grabbers users) (positive : ∀ x ∈ packets, 0 < x) (some_ : packets ≠ [])
    (done : blackControl d packets users = some users') :
    Same users users' ∧ Flagged users' ∧ (hasBlackPlayer d users = true → Dealt packets users') := by
  have nobody := grabbers.cleared.nobody
  rw [blackControl] at done
  split at done
  · cases chosen : blackChair d users with
    | some chairId =>
      rw [chosen] at done
      have one := countP_seat grabbers.seats (seated_of_blackChair chosen)
      obtain ⟨same, dealt, flagged⟩ := controlled_giveBlack nobody some_ one done
      exact ⟨same, flagged, fun _ => dealt⟩
    | none =>
      rw [chosen] at done
      obtain ⟨same, dealt, flagged⟩ := (controlled_giveRandom positive grabbers.some_ done).1
      exact ⟨same, flagged, fun _ => dealt⟩
  next clean =>
    cases done
    exact ⟨.refl _, .inl fun u there _ => nobody u there, fun black => absurd black clean⟩

theorem controlled_stockControl {black : Bool} (positive : ∀ x ∈ packets, 0 < x) (some_ : ∃ u ∈ users, u.haveGrab = true)
    (flagged : Flagged users) (dealt : black = true → Dealt packets users)
    (done : stockControl d black packets users = some users') : Controlled packets users users' := by
  have random {accepted : List UserInfo → Bool} (done : giveRandom accepted d.indices packets users = some users') :
      Controlled packets users users' := (controlled_giveRandom positive some_ done).1
  have left_ (black_ : black = true) (done : some users = some users') : Controlled packets users users' := by
    cases done
    exact ⟨.refl _, dealt black_, flagged⟩
  rw [stockControl] at done
  split at done
  · exact random done
  · split at done
    · split at done
      · exact random done
      · exact random done
    · split at done
      · exact random done
      · split at done
        next black_ => exact left_ black_ done
        · exact random done
    · split at done
      next black_ => exact left_ black_ done
      · exact random done

/-- The count of all players never equals that of the real ones. -/
theorem guard_iff : (realPlayer users = 0 ∨ realPlayer users = users.length + realPlayer users) ↔ realPlayer users = 0 := by
  have fewer : realPlayer users ≤ users.length := List.countP_le_length
  omega

theorem Same.realPlayer (same : Same users users') : realPlayer users' = realPlayer users :=
  same.countP (p := fun u => u.haveGrab && !u.isAndroid) fun _ => rfl

/-- What returns has one winner, whatever was drawn. -/
theorem awarded_of_settlement (grabbers : Grabbers users) (positive : ∀ x ∈ packets, 0 < x) (some_ : packets ≠ [])
    (done : settlement d packets users = some users') : Awarded packets users users' := by
  have same := (settles_of_settlement grabbers.ids grabbers.cleared.zero grabbers.cleared.nobody done).same
  obtain ⟨given, first, done⟩ := Option.bind_eq_some_iff.mp done
  obtain ⟨same₁, flagged, dealt⟩ := controlled_blackControl grabbers positive some_ first
  split at done
  next robots =>
    split at done
    next black =>
      -- Somebody in the blacklist is real, so this is not reached.
      rw [guard_iff, same₁.realPlayer] at robots
      exact absurd robots (realPlayer_pos_of_hasBlackPlayer black).ne'
    next clean =>
      rw [blackControl, if_neg clean] at first
      cases first
      obtain ⟨controlled, winner⟩ := controlled_giveRandom positive grabbers.some_ done
      exact ⟨same, controlled.dealt, winner grabbers.ids grabbers.cleared.nobody⟩
  · obtain ⟨stocked, second, done⟩ := Option.bind_eq_some_iff.mp done
    have grab := same₁.exists_grab grabbers.some_
    have controlled := controlled_stockControl positive grab flagged dealt second
    obtain ⟨-, grabs_, winner⟩ := winner_chooseBanker ((same₁.trans controlled.same).ids grabbers.ids) controlled.flagged done
    refine ⟨same, ?_, winner⟩
    rw [Dealt, grabs_]
    exact controlled.dealt

/-! ## Loops -/

/-- The loop that is entered is the one that gives the packets out. -/
theorem settlement_of_redraws {accepted : List UserInfo → Bool} {given : List UserInfo}
    (first : blackControl d packets users = some given) (entered : redraws d given = some accepted) :
    settlement d packets users = (giveRandom accepted d.indices packets given).bind chooseBanker := by
  rw [redraws] at entered
  rw [settlement, first, Option.bind_eq_bind, Option.bind_some]
  split at entered
  · cases entered
  next past =>
    rw [if_neg past, stockControl]
    split at entered
    next kill =>
      cases entered
      rw [if_pos kill]
    next alive =>
      rw [if_neg alive]
      split at entered
      next upper hit =>
        cases entered
        rw [upper, hit]
        rfl
      next lower hit =>
        cases entered
        rw [lower, hit]
        rfl
      · cases entered

/-- There are enough packets for a pass. -/
theorem exists_give (enough : users.countP takes ≤ temlist.length) :
    ∃ indices drawn, give takes indices temlist users = some drawn := by
  induction users generalizing temlist with
  | nil => exact ⟨[], [], rfl⟩
  | cons u users ih =>
    cases takes_ : takes u with
    | true =>
      rw [List.countP_cons_of_pos takes_] at enough
      cases temlist with
      | nil => exact absurd enough (Nat.not_succ_le_zero _)
      | cons money temlist =>
        obtain ⟨indices, drawn, given⟩ := ih (Nat.le_of_succ_le_succ enough)
        refine ⟨0 :: indices, { u with endWinScore := money } :: drawn, ?_⟩
        simp [give, takes_, given]
    | false =>
      rw [List.countP_cons_of_neg (Bool.eq_false_iff.mp takes_)] at enough
      obtain ⟨indices, drawn, given⟩ := ih enough
      refine ⟨indices, u :: drawn, ?_⟩
      rw [give.eq_def]
      simp [takes_, given]

/-- Whoever takes a packet can be the one who draws the first of them. -/
theorem exists_give_top {top : ℤ} {g : UserInfo} (blind : ∀ u : UserInfo, takes u.noScore = takes u)
    (enough : users.countP takes ≤ (top :: temlist).length) (present : g ∈ users) (takes_ : takes g = true) :
    ∃ indices drawn, give takes indices (top :: temlist) users = some drawn ∧ { g with endWinScore := top } ∈ drawn
      ∧ ∀ v ∈ drawn, takes v = true → v = { g with endWinScore := top } ∨ v.endWinScore ∈ temlist := by
  induction users generalizing temlist with
  | nil => exact absurd present List.not_mem_nil
  | cons u users ih =>
    rcases List.mem_cons.mp present with rfl | later
    · rw [List.countP_cons_of_pos takes_] at enough
      obtain ⟨indices, drawn, given⟩ := exists_give (Nat.le_of_succ_le_succ enough)
      refine ⟨0 :: indices, { g with endWinScore := top } :: drawn, ?_, List.mem_cons_self, ?_⟩
      · simp [give, takes_, given]
      · intro v there takes'
        rcases List.mem_cons.mp there with rfl | there
        · exact .inl rfl
        · exact .inr ((give_subperm blind given).subset (List.mem_map_of_mem (List.mem_filter.mpr ⟨there, takes'⟩)))
    · cases first : takes u with
      | true =>
        -- Another packet is left for `u`, for there is one more to take one.
        have more : 0 < users.countP takes := List.countP_pos_iff.mpr ⟨g, later, takes_⟩
        rw [List.countP_cons_of_pos first] at enough
        cases temlist with
        | nil =>
          rw [List.length_singleton] at enough
          omega
        | cons money temlist =>
          obtain ⟨indices, drawn, given, inside, others⟩ := ih (Nat.le_of_succ_le_succ enough) later
          refine ⟨1 :: indices, { u with endWinScore := money } :: drawn, ?_, List.mem_cons_of_mem _ inside, ?_⟩
          · simp [give, first, given]
          · intro v there takes'
            rcases List.mem_cons.mp there with rfl | there
            · exact .inr List.mem_cons_self
            · exact (others v there takes').imp_right (List.mem_cons_of_mem _)
      | false =>
        rw [List.countP_cons_of_neg (Bool.eq_false_iff.mp first)] at enough
        obtain ⟨indices, drawn, given, inside, others⟩ := ih enough later
        refine ⟨indices, u :: drawn, ?_, List.mem_cons_of_mem _ inside, ?_⟩
        · rw [give.eq_def]
          simp [first, given]
        · intro v there takes'
          rcases List.mem_cons.mp there with rfl | there
          · exact absurd (first.symm.trans takes') Bool.false_ne_true
          · exact others v there takes'

theorem bestIsAndroid_eq {b : UserInfo} (seats : (users.map (·.chairId)).Nodup) (picked : best users = some b) :
    bestIsAndroid users = b.isAndroid := by
  have present := (mem_of_best picked).1
  rw [bestIsAndroid, picked, Option.elim_some, isAndroidUser, Bool.eq_iff_iff, List.any_eq_true]
  constructor
  · rintro ⟨u, there, both⟩
    rw [Bool.and_eq_true, beq_iff_eq] at both
    exact List.inj_on_of_nodup_map seats there present both.1 ▸ both.2
  · exact fun robot => ⟨b, present, by rw [robot, beq_self_eq_true]; rfl⟩

/-- A robot can be best if one grabbed, and so can a real player. -/
theorem exists_accepted {g : UserInfo} (seats : (users.map (·.chairId)).Nodup) (positive : ∀ x ∈ packets, 0 < x)
    (top : ∀ x ∈ packets.tail, x < packets.headD 0) (some_ : packets ≠ [])
    (enough : users.countP (·.haveGrab) ≤ packets.length) (present : g ∈ users) (grab : g.haveGrab = true) :
    ∃ indices drawn, give (·.haveGrab) indices packets users = some drawn ∧ bestIsAndroid drawn = g.isAndroid := by
  obtain ⟨money, rest, rfl⟩ := List.exists_cons_of_ne_nil some_
  obtain ⟨indices, drawn, given, inside, others⟩ := exists_give_top (fun _ => rfl) enough present grab
  refine ⟨indices, drawn, given, ?_⟩
  have seats' : (drawn.map (·.chairId)).Nodup := by rwa [(same_give given fun _ => rfl).map fun _ => rfl]
  obtain ⟨b, picked⟩ := exists_best (give_subperm (fun _ => rfl) given) positive ⟨_, inside, grab⟩
  obtain ⟨there, grab', larger⟩ := most_of_best picked
  rw [bestIsAndroid_eq seats' picked]
  rcases others b there grab' with rfl | smaller
  · rfl
  · exact absurd (larger _ inside grab) (not_le.mpr (top b.endWinScore smaller))

/-! ## Result -/

/-- The blacklist can hand its packets out. -/
theorem exists_blackControl (grabbers : Grabbers users) (enough : users.countP (·.haveGrab) ≤ packets.length)
    (indices : List ℕ) : ∃ blackIndices given, blackControl (d.places blackIndices indices) packets users = some given := by
  have seat (blackIndices : List ℕ) : blackChair (d.places blackIndices indices) users = blackChair d users := rfl
  have black (blackIndices : List ℕ) :
      hasBlackPlayer (d.places blackIndices indices) users = hasBlackPlayer d users := rfl
  simp only [blackControl, seat, black]
  split
  · cases chosen : blackChair d users with
    | some chairId =>
      obtain ⟨same, -⟩ := stage_modify grabbers.cleared.nobody.grabbed (packets.headD 0)
        (users.findIdx fun u => u.haveGrab && u.chairId == chairId)
      have one := countP_seat grabbers.seats (seated_of_blackChair chosen)
      have all : users.countP (·.haveGrab) = users.countP (fun u => u.haveGrab && u.chairId != chairId)
          + users.countP (fun u => u.haveGrab && u.chairId == chairId) := by
        rw [List.countP_eq_countP_filter_add users (·.haveGrab) (·.chairId != chairId), List.countP_filter,
          List.countP_filter]
        congr 1
        refine List.countP_congr fun u _ => ?_
        simp [bne]
      have few : (users.modify (users.findIdx fun u => u.haveGrab && u.chairId == chairId)
          fun u => { u with endWinScore := packets.headD 0, isBanker := false }).countP
          (fun u => u.haveGrab && u.chairId != chairId) ≤ packets.tail.length := by
        rw [same.countP fun _ => rfl, List.length_tail]
        omega
      obtain ⟨places, given, done⟩ := exists_give few
      exact ⟨places, given, done⟩
    | none =>
      obtain ⟨places, given, done⟩ := exists_give enough
      refine ⟨places, flagBest given, ?_⟩
      exact Option.bind_eq_some_iff.mpr ⟨given, done, if_pos rfl⟩
  · exact ⟨[], users, rfl⟩

theorem exists_of_same {users' : List UserInfo} (same : Same users users') {u : UserInfo} (there : u ∈ users) :
    ∃ v ∈ users', v.haveGrab = u.haveGrab ∧ v.isAndroid = u.isAndroid := by
  have image : u.noScore.noFlag ∈ users'.map fun u => u.noScore.noFlag := same ▸ List.mem_map_of_mem there
  obtain ⟨v, there', eq⟩ := List.mem_map.mp image
  have grab : v.noScore.noFlag.haveGrab = u.noScore.noFlag.haveGrab := congrArg UserInfo.haveGrab eq
  have android : v.noScore.noFlag.isAndroid = u.noScore.noFlag.isAndroid := congrArg UserInfo.isAndroid eq
  exact ⟨v, there', grab, android⟩

theorem canFinish (grabbers : Grabbers users) (positive : ∀ x ∈ packets, 0 < x)
    (top : ∀ x ∈ packets.tail, x < packets.headD 0) (some_ : packets ≠ [])
    (enough : users.countP (·.haveGrab) ≤ packets.length) (robots : ¬RobotMissing d users) : CanFinish d packets users := by
  intro given accepted first entered
  obtain ⟨same, -⟩ := controlled_blackControl grabbers positive some_ first
  have seats : (given.map (·.chairId)).Nodup := by
    rw [same.map fun _ => rfl]
    exact grabbers.seats
  have few : given.countP (·.haveGrab) ≤ packets.length := (same.countP fun _ => rfl).trans_le enough
  rw [redraws] at entered
  split at entered
  · cases entered
  next past =>
    have real : ¬realPlayer given = 0 := fun none_ => past (guard_iff.mpr none_)
    have human : ∃ indices drawn, give (·.haveGrab) indices packets given = some drawn ∧ (!bestIsAndroid drawn) = true := by
      obtain ⟨g, present, both⟩ := List.countP_pos_iff.mp (Nat.pos_of_ne_zero real)
      rw [Bool.and_eq_true, Bool.not_eq_true'] at both
      obtain ⟨indices, drawn, done, best_⟩ := exists_accepted seats positive top some_ few present both.1
      exact ⟨indices, drawn, done, by rw [best_, both.2]; rfl⟩
    split at entered
    · cases entered
      exact human
    next alive =>
      split at entered
      next upper hit =>
        cases entered
        have robot : ∃ u ∈ users, u.haveGrab = true ∧ u.isAndroid = true := by
          by_contra none_
          refine robots ⟨Bool.not_eq_true _ ▸ alive, upper, hit, fun u there grab => ?_⟩
          exact Bool.eq_false_iff.mpr fun android => none_ ⟨u, there, grab, android⟩
        obtain ⟨u, there, grab, android⟩ := robot
        obtain ⟨v, present, grab', android'⟩ := exists_of_same same there
        obtain ⟨indices, drawn, done, best_⟩ := exists_accepted seats positive top some_ few present (grab'.trans grab)
        exact ⟨indices, drawn, done, best_.trans (android'.trans android)⟩
      · cases entered
        exact human
      · cases entered

/-- Without a robot, no draw ends the loop. -/
theorem not_canFinish {given : List UserInfo} (grabbers : Grabbers users) (positive : ∀ x ∈ packets, 0 < x)
    (some_ : packets ≠ []) (missing : RobotMissing d users) (first : blackControl d packets users = some given) :
    ¬CanFinish d packets users := by
  intro finish
  obtain ⟨alive, upper, hit, humans⟩ := missing
  obtain ⟨same, -⟩ := controlled_blackControl grabbers positive some_ first
  obtain ⟨u, there, grab⟩ := grabbers.some_
  have real : ¬realPlayer given = 0 := by
    rw [same.realPlayer]
    exact (List.countP_pos_iff.mpr ⟨u, there, by rw [grab, humans u there grab]; rfl⟩).ne'
  have entered : redraws d given = some bestIsAndroid := by
    rw [redraws, if_neg (guard_iff.not.mpr real), alive, upper, hit]
    rfl
  obtain ⟨indices, drawn, done, robot⟩ := finish given bestIsAndroid first entered
  have same' := same.trans (same_give done fun _ => rfl)
  obtain ⟨b, picked⟩ := exists_best (give_subperm (fun _ => rfl) done) positive (same'.exists_grab grabbers.some_)
  obtain ⟨present, grab', -⟩ := most_of_best picked
  rw [bestIsAndroid_eq (by rw [same'.map fun _ => rfl]; exact grabbers.seats) picked] at robot
  obtain ⟨v, there', grab'', android⟩ := exists_of_same (Eq.symm same') present
  exact absurd ((humans v there' (grab''.trans grab')).symm.trans (android.trans robot)) Bool.false_ne_true

end Settlement

/-- A settlement can be finished, and has one winner, unless its loop wants a robot that did not grab. -/
theorem settlement_iff {cfg : Config} {d : Draws} {packets : List ℤ} {users : List UserInfo}
    (two : 2 ≤ cfg.sendEnvelopeNum)
    (enough : (cfg.sendEnvelopeNum - 1 : ℤ) * (100 * (cfg.sendEnvelopeNum - 1) + 1) < cfg.sendEnvelopeScore)
    (small : cfg.sendEnvelopeScore < 2 ^ 31) (returned : getResultArr cfg d.weights = some packets)
    (grabbers : Grabbers users) (few : users.countP (·.haveGrab) ≤ cfg.sendEnvelopeNum) :
    (∀ blackIndices indices, CanFinish (d.places blackIndices indices) packets users
      ∧ ∀ users', settlement (d.places blackIndices indices) packets users = some users' → Awarded packets users users')
    ↔ ¬RobotMissing d users := by
  obtain ⟨length, positive, -, -, top⟩ := getResultArr_spec two enough small returned
  have some_ : packets ≠ [] := by
    rintro rfl
    rw [List.length_nil] at length
    omega
  have few' : users.countP (·.haveGrab) ≤ packets.length := few.trans_eq length.symm
  constructor
  · intro holds missing
    obtain ⟨blackIndices, given, first⟩ := exists_blackControl (d := d) grabbers few' []
    exact not_canFinish (d := d.places blackIndices []) grabbers positive some_ missing first (holds blackIndices []).1
  · intro robots blackIndices indices
    exact ⟨canFinish grabbers positive top some_ few' robots, fun users' done =>
      awarded_of_settlement grabbers positive some_ done⟩

/-- Two at the table, both with a packet. -/
private def twoGrabbers (second : Bool) : List UserInfo :=
  [{ userId := 1, chairId := 0, isAndroid := false, userScore := 5000, haveGrab := true },
    { userId := 2, chairId := 1, isAndroid := second, userScore := 5000, haveGrab := true }]

/-- The stock is above its limit, and the draw says that it is to be lowered. -/
private def upperHit : Draws where
  weights := [10, 20, 70]
  blackWeight := fun _ => 0
  blackHit := false
  probabilityWeight := 0
  blackIndices := []
  kill := false
  storage := .upper
  hit := true
  indices := []
  serverRunning := true

private theorem grabbers_two (second : Bool) : Grabbers (twoGrabbers second) where
  ids := by simp [twoGrabbers]
  seats := by simp [twoGrabbers]
  cleared := by refine ⟨?_, ?_, ?_⟩ <;> simp [NoBanker, twoGrabbers]
  some_ := ⟨_, List.mem_cons_self, rfl⟩

/-- With a robot beside the real player, the loop can be left. -/
theorem settlement_iff_robot :
    getResultArr ⟨1000, 3⟩ upperHit.weights = some [698, 201, 101] ∧ CanFinish upperHit [698, 201, 101] (twoGrabbers true)
      ∧ ¬RobotMissing upperHit (twoGrabbers true) := by
  have returned : getResultArr ⟨1000, 3⟩ upperHit.weights = some [698, 201, 101] := by decide +kernel
  have robot : ¬RobotMissing upperHit (twoGrabbers true) := fun missing =>
    absurd (missing.2.2.2 _ (List.mem_cons_of_mem _ List.mem_cons_self) rfl) nofun
  exact ⟨returned, ((settlement_iff (by decide) (by decide) (by decide) returned (grabbers_two true) (by decide)).mpr
    robot [] []).1, robot⟩

/-- Two real players: the loop is entered, and no packets end it. -/
theorem realPlayers_hang :
    getResultArr ⟨1000, 3⟩ upperHit.weights = some [698, 201, 101] ∧ Grabbers (twoGrabbers false)
      ∧ redraws upperHit (twoGrabbers false) = some bestIsAndroid
      ∧ ¬CanFinish upperHit [698, 201, 101] (twoGrabbers false) := by
  refine ⟨by decide +kernel, grabbers_two false, rfl, ?_⟩
  exact not_canFinish (grabbers_two false) (by decide) nofun ⟨rfl, rfl, rfl, by decide⟩ rfl

end H5Server.Qhb
