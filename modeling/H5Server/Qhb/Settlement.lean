import H5Server.Qhb.TableFrameSink
import Mathlib.Data.List.Nodup

/-! # Settlement of the red packets

Whatever the branch, those who grabbed are given the packets that are drawn last, and one of them becomes banker,
if one of them is a real player or drew more than nothing.
-/

namespace H5Server.Qhb

/-- What is drawn from `temlist`, one packet after the other. -/
def drawn : ℕ → List ℕ → List ℤ → List ℤ
  | count + 1, index :: indices, temlist =>
    temlist.getD index 0 :: drawn count indices (temlist.eraseIdx index)
  | _, _, _ => []

/-- The packets that the blacklist hands out. -/
def blackHandedOut (d : Draws) (packets : List ℤ) (users : List UserInfo) : List ℤ :=
  match blackChair d users with
  | some chairId =>
    packets.headD 0 :: drawn (users.countP fun u => u.haveGrab && u.chairId != chairId) d.blackIndices packets.tail
  | none => drawn (users.countP (·.haveGrab)) d.blackIndices packets

/-- Neither difficulty nor stock draws again. -/
def BlackDecides (d : Draws) : Prop := d.kill = false ∧ (d.storage = .lower ∧ d.hit = false ∨ d.storage = .normal)

instance (d : Draws) : Decidable (BlackDecides d) := inferInstanceAs (Decidable (_ ∧ _))

/-- The packets of those who grabbed, by the draws. -/
def handedOut (d : Draws) (packets : List ℤ) (users : List UserInfo) : List ℤ :=
  if hasBlackPlayer d users ∧ BlackDecides d then blackHandedOut d packets users
  else drawn (users.countP (·.haveGrab)) d.indices packets

/-- `allGrapMoney` -/
def allGrapMoney (users : List UserInfo) : ℤ := ((users.filter (·.haveGrab)).map (·.endWinScore)).sum

/-! ## What stays -/

def UserInfo.noScore (u : UserInfo) : UserInfo := { u with endWinScore := 0 }

def UserInfo.noFlag (u : UserInfo) : UserInfo := { u with isBanker := false }

/-- Only packets and flags are changed. -/
def Same (users users' : List UserInfo) : Prop :=
  users'.map (fun u => u.noScore.noFlag) = users.map fun u => u.noScore.noFlag

section Passes

variable {takes : UserInfo → Bool} {indices : List ℕ} {temlist packets : List ℤ} {users users' : List UserInfo}

theorem Same.refl (users : List UserInfo) : Same users users := rfl

theorem Same.trans {users'' : List UserInfo} (first : Same users users') (second : Same users' users'') :
    Same users users'' := Eq.trans second first

theorem same_of_noScore (same : users'.map UserInfo.noScore = users.map UserInfo.noScore) : Same users users' := by
  rw [Same, ← Function.comp_def, List.comp_map, List.comp_map, same]

theorem same_of_noFlag (same : users'.map UserInfo.noFlag = users.map UserInfo.noFlag) : Same users users' := by
  have swap : (fun u : UserInfo => u.noScore.noFlag) = UserInfo.noScore ∘ UserInfo.noFlag := rfl
  rw [Same, swap, List.comp_map, List.comp_map, same]

/-- What does not look at packets and flags counts the same. -/
theorem Same.countP (same : Same users users') {p : UserInfo → Bool} (blind : ∀ u, p u.noScore.noFlag = p u) :
    users'.countP p = users.countP p := by
  have through (users : List UserInfo) : users.countP p = (users.map fun u => u.noScore.noFlag).countP p := by
    rw [List.countP_map]
    exact List.countP_congr fun u _ => by rw [Function.comp_apply, blind]
  rw [through, same, ← through]

theorem Same.map {β : Type*} (same : Same users users') {f : UserInfo → β} (blind : ∀ u, f u.noScore.noFlag = f u) :
    users'.map f = users.map f := by
  have through (users : List UserInfo) : users.map f = (users.map fun u => u.noScore.noFlag).map f := by
    rw [List.map_map]
    exact List.map_congr_left fun u _ => (blind u).symm
  rw [through, same, ← through]

/-- One pass gives each who takes one packet, in the order of the draws. -/
theorem give_spec (blind : ∀ u : UserInfo, takes u.noScore = takes u)
    (done : give takes indices temlist users = some users') :
    users'.map UserInfo.noScore = users.map UserInfo.noScore
      ∧ (users'.filter takes).map (·.endWinScore) = drawn (users.countP takes) indices temlist
      ∧ (users'.filter fun u => !takes u) = users.filter fun u => !takes u := by
  induction users generalizing indices temlist users' with
  | nil =>
    cases done
    exact ⟨rfl, rfl, rfl⟩
  | cons u users ih =>
    rw [give.eq_def] at done
    dsimp only at done
    split at done
    next takes_ =>
      cases indices with
      | nil => cases done
      | cons index indices =>
        obtain ⟨money, found, done⟩ := Option.bind_eq_some_iff.mp done
        obtain ⟨rest, given, done⟩ := Option.bind_eq_some_iff.mp done
        cases done
        obtain ⟨same, packets, others⟩ := ih given
        have still : takes { u with endWinScore := money } = true :=
          (blind { u with endWinScore := money }).symm.trans ((blind u).trans takes_)
        refine ⟨?_, ?_, ?_⟩
        · rw [List.map_cons, List.map_cons, same]
          rfl
        · rw [List.filter_cons_of_pos still, List.countP_cons_of_pos takes_, List.map_cons, packets, drawn,
            List.getD_eq_getElem?_getD, found]
          rfl
        · rw [List.filter_cons_of_neg (by simp [still]), List.filter_cons_of_neg (by simp [takes_]), others]
    next passes =>
      obtain ⟨rest, given, rfl⟩ := Option.map_eq_some_iff.mp done
      obtain ⟨same, packets, others⟩ := ih given
      refine ⟨?_, ?_, ?_⟩
      · rw [List.map_cons, List.map_cons, same]
      · rw [List.filter_cons_of_neg passes, List.countP_cons_of_neg passes, packets]
      · rw [List.filter_cons_of_pos (by simp [passes]), List.filter_cons_of_pos (by simp [passes]), others]

/-! ## Flags -/

/-- Only who grabbed can be banker. -/
def Grabbed (users : List UserInfo) : Prop := ∀ u ∈ users, u.isBanker = true → u.haveGrab = true

def NoBanker (users : List UserInfo) : Prop := ∀ u ∈ users, u.isBanker = false

/-- The ids of those who are charged. -/
def bankers (users : List UserInfo) : List ℤ := (users.filter fun u => u.haveGrab && u.isBanker).map (·.userId)

theorem NoBanker.grabbed (none_ : NoBanker users) : Grabbed users := fun u present banker =>
  absurd ((none_ u present).symm.trans banker) Bool.false_ne_true

theorem Grabbed.of_noScore (grabbed : Grabbed users) (same : users'.map UserInfo.noScore = users.map UserInfo.noScore) :
    Grabbed users' := by
  intro u' present banker
  have image : u'.noScore ∈ users.map UserInfo.noScore := same ▸ List.mem_map_of_mem present
  obtain ⟨u, there, eq⟩ := List.mem_map.mp image
  have flag : u.noScore.isBanker = u'.noScore.isBanker := congrArg UserInfo.isBanker eq
  have grab : u.noScore.haveGrab = u'.noScore.haveGrab := congrArg UserInfo.haveGrab eq
  exact grab.symm.trans (grabbed u there (flag.trans banker))

theorem NoBanker.of_noScore (none_ : NoBanker users) (same : users'.map UserInfo.noScore = users.map UserInfo.noScore) :
    NoBanker users' := by
  intro u' present
  have image : u'.noScore ∈ users.map UserInfo.noScore := same ▸ List.mem_map_of_mem present
  obtain ⟨u, there, eq⟩ := List.mem_map.mp image
  have flag : u.noScore.isBanker = u'.noScore.isBanker := congrArg UserInfo.isBanker eq
  exact flag.symm.trans (none_ u there)

section Pick

variable {better : ℤ → ℤ → Bool} {money : ℤ} {found : Option UserInfo} {u : UserInfo}

/-- Who is picked grabbed. -/
theorem mem_of_pickFrom (picked : pickFrom better money found users = some u) :
    found = some u ∨ u ∈ users ∧ u.haveGrab = true := by
  induction users generalizing money found with
  | nil => exact .inl picked
  | cons v users ih =>
    rw [pickFrom] at picked
    split at picked
    next better_ =>
      rcases ih picked with same | ⟨later, grab⟩
      · obtain rfl := Option.some.inj same
        exact .inr ⟨List.mem_cons_self, (Bool.and_eq_true_iff.mp better_).1⟩
      · exact .inr ⟨List.mem_cons_of_mem v later, grab⟩
    · exact (ih picked).imp_right fun there => ⟨List.mem_cons_of_mem v there.1, there.2⟩

theorem found_of_pickFrom (nobody : pickFrom better money found users = none) : found = none := by
  induction users generalizing money found with
  | nil => exact nobody
  | cons v users ih =>
    rw [pickFrom] at nobody
    split at nobody
    · exact absurd (ih nobody) nofun
    · exact ih nobody

/-- If nobody is picked, nobody who grabbed is better. -/
theorem not_better_of_pickFrom (nobody : pickFrom better money found users = none) (present : u ∈ users)
    (grab : u.haveGrab = true) : better money u.endWinScore = false := by
  induction users generalizing money found with
  | nil => exact absurd present List.not_mem_nil
  | cons v users ih =>
    rw [pickFrom] at nobody
    split at nobody
    · exact absurd (found_of_pickFrom nobody) nofun
    next other =>
      rcases List.mem_cons.mp present with rfl | later
      · rw [grab, Bool.true_and, Bool.not_eq_true] at other
        exact other
      · exact ih nobody later

theorem mem_of_best (picked : best users = some u) : u ∈ users ∧ u.haveGrab = true :=
  (mem_of_pickFrom picked).resolve_left nofun

theorem mem_of_bigOne (picked : bigOne users = some u) : u ∈ users ∧ u.haveGrab = true :=
  (mem_of_pickFrom picked).resolve_left nofun

end Pick

theorem setBanker_noFlag (userId : ℤ) (users : List UserInfo) :
    (setBanker userId users).map UserInfo.noFlag = users.map UserInfo.noFlag := by
  rw [setBanker, List.map_map]
  refine List.map_congr_left fun u _ => ?_
  rw [Function.comp_apply]
  split <;> rfl

theorem flagBest_noFlag (users : List UserInfo) :
    (flagBest users).map UserInfo.noFlag = users.map UserInfo.noFlag := by
  rw [flagBest]
  split
  · exact setBanker_noFlag _ users
  · rfl

/-- Ids tell the users apart. -/
theorem eq_of_userId (ids : (users.map (·.userId)).Nodup) {u v : UserInfo} (there : u ∈ users) (there' : v ∈ users)
    (same : u.userId = v.userId) : u = v :=
  List.inj_on_of_nodup_map ids there there' same

theorem Grabbed.setBanker (grabbed : Grabbed users) (ids : (users.map (·.userId)).Nodup) {v : UserInfo}
    (present : v ∈ users) (grab : v.haveGrab = true) : Grabbed (setBanker v.userId users) := by
  intro u' changed banker
  obtain ⟨u, there, rfl⟩ := List.mem_map.mp changed
  rcases eq_or_ne u.userId v.userId with same | other
  · rw [if_pos same, eq_of_userId ids there present same]
    exact grab
  · rw [if_neg other] at banker ⊢
    exact grabbed u there banker

theorem Grabbed.flagBest (grabbed : Grabbed users) (ids : (users.map (·.userId)).Nodup) : Grabbed (flagBest users) := by
  rw [Qhb.flagBest]
  split
  next v found =>
    obtain ⟨present, grab⟩ := mem_of_best found
    exact grabbed.setBanker ids present grab
  · exact grabbed

/-- The one flag among none. -/
theorem bankers_setBanker (none_ : NoBanker users) (ids : (users.map (·.userId)).Nodup) {v : UserInfo}
    (present : v ∈ users) (grab : v.haveGrab = true) : bankers (setBanker v.userId users) = [v.userId] := by
  have holds : ∀ u ∈ users, ((fun u : UserInfo => u.haveGrab && u.isBanker) ∘ fun u =>
      if u.userId = v.userId then { u with isBanker := true } else u) u = decide (u.userId = v.userId) := by
    intro u there
    rw [Function.comp_apply]
    split
    next same =>
      rw [eq_of_userId ids there present same]
      simp [grab]
    next other => simp [none_ u there, other]
  have ids_ : (fun u : UserInfo => u.userId) ∘ (fun u => if u.userId = v.userId then { u with isBanker := true } else u)
      = fun u => u.userId := by
    funext u
    rw [Function.comp_apply]
    split <;> rfl
  rw [bankers, Qhb.setBanker, List.filter_map, List.filter_congr holds, List.map_map, ids_]
  have comp : (fun u : UserInfo => decide (u.userId = v.userId)) = (fun id => decide (id = v.userId)) ∘ (·.userId) := rfl
  rw [comp, ← List.filter_map, List.filter_eq, List.count_eq_one_of_mem ids (List.mem_map_of_mem present)]
  rfl

/-! ## Passes -/

theorem allGrapMoney_noFlag (same : users'.map UserInfo.noFlag = users.map UserInfo.noFlag) :
    allGrapMoney users' = allGrapMoney users := by
  have through (users : List UserInfo) : allGrapMoney users = allGrapMoney (users.map UserInfo.noFlag) := by
    rw [allGrapMoney, allGrapMoney, List.filter_map, List.map_map]
    rfl
  rw [through, same, ← through]

/-- A pass over all who grabbed. -/
theorem allGrapMoney_give (given : give (·.haveGrab) indices packets users = some users') :
    allGrapMoney users' = (drawn (users.countP (·.haveGrab)) indices packets).sum :=
  congrArg List.sum (give_spec (fun _ => rfl) given).2.1

/-- What one stage does: packets and flags change, and flags only where a packet was grabbed. -/
structure Stage (users users' : List UserInfo) : Prop where
  same : Same users users'
  grabbed : Grabbed users'

theorem stage_giveRandom {accepted : List UserInfo → Bool} (ids : (users.map (·.userId)).Nodup) (grabbed : Grabbed users)
    (done : giveRandom accepted indices packets users = some users') :
    Stage users users' ∧ allGrapMoney users' = (drawn (users.countP (·.haveGrab)) indices packets).sum := by
  obtain ⟨given, pass, done⟩ := Option.bind_eq_some_iff.mp done
  split at done
  · cases done
    have same := (give_spec (fun _ => rfl) pass).1
    have ids_ : (given.map (·.userId)).Nodup := by rwa [(same_of_noScore same).map fun _ => rfl]
    refine ⟨⟨(same_of_noScore same).trans (same_of_noFlag (flagBest_noFlag given)), ?_⟩, ?_⟩
    · exact (grabbed.of_noScore same).flagBest ids_
    · rw [allGrapMoney_noFlag (flagBest_noFlag given), allGrapMoney_give pass]
  · cases done

/-- If a packet is worth something, somebody is best. -/
theorem bankers_giveRandom {accepted : List UserInfo → Bool} (ids : (users.map (·.userId)).Nodup) (none_ : NoBanker users)
    (done : giveRandom accepted indices packets users = some users')
    (worth : ∃ x ∈ drawn (users.countP (·.haveGrab)) indices packets, 0 < x) : ∃ b, bankers users' = [b] := by
  obtain ⟨given, pass, done⟩ := Option.bind_eq_some_iff.mp done
  split at done
  · cases done
    obtain ⟨same, drawn_, -⟩ := give_spec (fun _ => rfl) pass
    have ids_ : (given.map (·.userId)).Nodup := by rwa [(same_of_noScore same).map fun _ => rfl]
    rw [← drawn_] at worth
    obtain ⟨x, present, positive⟩ := worth
    obtain ⟨u, there, rfl⟩ := List.mem_map.mp present
    obtain ⟨there, grab⟩ := List.mem_filter.mp there
    rw [flagBest]
    split
    next v found =>
      obtain ⟨present, grab⟩ := mem_of_best found
      exact ⟨v.userId, bankers_setBanker (none_.of_noScore same) ids_ present grab⟩
    next nobody =>
      have worse := not_better_of_pickFrom nobody there grab
      exact absurd positive (decide_eq_false_iff_not.mp worse)
  · cases done

/-- One entry is changed, and the others count nothing. -/
theorem sum_modify {p q : UserInfo → Bool} {f : UserInfo → UserInfo} {x : ℤ} (zero : ∀ u ∈ users, u.endWinScore = 0)
    (some_ : ∃ u ∈ users, p u = true) (counts : ∀ u, p u = true → q (f u) = true) (gets : ∀ u, (f u).endWinScore = x) :
    (((users.modify (users.findIdx p) f).filter q).map (·.endWinScore)).sum = x := by
  induction users with
  | nil =>
    obtain ⟨u, impossible, -⟩ := some_
    exact absurd impossible List.not_mem_nil
  | cons u users ih =>
    rw [List.forall_mem_cons] at zero
    rw [List.findIdx_cons]
    cases found : p u with
    | true =>
      have rest : ((users.filter q).map (·.endWinScore)).sum = 0 := by
        apply List.sum_eq_zero
        intro y present
        obtain ⟨v, there, rfl⟩ := List.mem_map.mp present
        exact zero.2 v (List.mem_of_mem_filter there)
      rw [cond_true, List.modify_zero_cons, List.filter_cons_of_pos (counts u found), List.map_cons, List.sum_cons,
        rest, gets, add_zero]
    | false =>
      have later : ∃ v ∈ users, p v = true := by
        obtain ⟨v, there, holds⟩ := some_
        rcases List.mem_cons.mp there with rfl | later
        · exact absurd (found.symm.trans holds) Bool.false_ne_true
        · exact ⟨v, later, holds⟩
      rw [cond_false, List.modify_succ_cons, List.filter_cons]
      split
      · rw [List.map_cons, List.sum_cons, zero.1, zero_add, ih zero.2 later]
      · exact ih zero.2 later

theorem sum_filter_split (p : UserInfo → Bool) (users : List UserInfo) :
    ((users.filter p).map (·.endWinScore)).sum + ((users.filter fun u => !p u).map (·.endWinScore)).sum
      = (users.map (·.endWinScore)).sum := by
  rw [← List.sum_append, ← List.map_append]
  exact ((List.filter_append_perm p users).map _).sum_eq

/-- One entry loses its flag. -/
theorem stage_modify (grabbed : Grabbed users) (money : ℤ) (i : ℕ) :
    Stage users (users.modify i fun u => { u with endWinScore := money, isBanker := false }) := by
  induction users generalizing i with
  | nil =>
    rw [List.modify_nil]
    exact ⟨rfl, grabbed⟩
  | cons u users ih =>
    have inside := List.forall_mem_cons.mp grabbed
    cases i with
    | zero => exact ⟨rfl, List.forall_mem_cons.mpr ⟨fun impossible => absurd impossible nofun, inside.2⟩⟩
    | succ i =>
      obtain ⟨same, kept⟩ := ih inside.2 i
      exact ⟨congrArg (u.noScore.noFlag :: ·) same, List.forall_mem_cons.mpr ⟨inside.1, kept⟩⟩

/-- The chosen seat has the first packet, and the others draw from what is left. -/
theorem stage_giveBlack {chairId : ℕ} (zero : ∀ u ∈ users, u.endWinScore = 0)
    (seated : ∃ u ∈ users, (u.haveGrab && u.chairId == chairId) = true) (grabbed : Grabbed users)
    (given : giveBlack chairId indices packets users = some users') :
    Stage users users' ∧ allGrapMoney users' = packets.headD 0
      + (drawn (users.countP fun u => u.haveGrab && u.chairId != chairId) indices packets.tail).sum := by
  rw [giveBlack] at given
  generalize packets.headD 0 = top at given ⊢
  obtain ⟨same, kept⟩ := stage_modify grabbed top (users.findIdx fun u => u.haveGrab && u.chairId == chairId)
  have first := sum_modify (q := fun u => u.haveGrab && !(u.haveGrab && u.chairId != chairId))
    (f := fun u => { u with endWinScore := top, isBanker := false }) zero seated
    (fun u chosen => by
      rw [Bool.and_eq_true, beq_iff_eq] at chosen
      simp [chosen.1, chosen.2]) fun _ => rfl
  obtain ⟨same', packets_, others⟩ := give_spec (fun _ => rfl) given
  refine ⟨⟨same.trans (same_of_noScore same'), kept.of_noScore same'⟩, ?_⟩
  have takers : (users'.filter (·.haveGrab)).filter (fun u => u.haveGrab && u.chairId != chairId)
      = users'.filter fun u => u.haveGrab && u.chairId != chairId := by
    rw [List.filter_filter]
    exact List.filter_congr fun u _ => by cases u.haveGrab <;> simp
  have rest : (users'.filter (·.haveGrab)).filter (fun u => !(u.haveGrab && u.chairId != chairId))
      = (users'.filter fun u => !(u.haveGrab && u.chairId != chairId)).filter (·.haveGrab) := by
    rw [List.filter_filter, List.filter_filter]
    exact List.filter_congr fun u _ => Bool.and_comm _ _
  have split_ := sum_filter_split (fun u => u.haveGrab && u.chairId != chairId) (users'.filter (·.haveGrab))
  rw [takers, rest, others, List.filter_filter, first, packets_, same.countP fun _ => rfl] at split_
  rw [allGrapMoney, ← split_, add_comm]

/-! ## Controls -/

theorem weight_of_blackChairId {weight : ℕ → ℕ} {target : ℤ} {current i : ℕ} {chairs : List ℕ}
    (found : blackChairId weight target current chairs = some i) : 0 < weight i := by
  induction chairs generalizing current with
  | nil => exact absurd found nofun
  | cons j chairs ih =>
    rw [blackChairId] at found
    split at found
    next enough =>
      obtain rfl := Option.some.inj found
      exact enough.1
    · exact ih found

variable {d : Draws}

/-- The chosen seat is one of who grabbed. -/
theorem seated_of_blackChair {chairId : ℕ} (chosen : blackChair d users = some chairId) :
    ∃ u ∈ users, (u.haveGrab && u.chairId == chairId) = true := by
  rw [blackChair] at chosen
  split at chosen
  · have positive := weight_of_blackChairId chosen
    cases found : users.find? (·.chairId == chairId) with
    | none =>
      rw [found] at positive
      exact absurd positive (Nat.lt_irrefl 0)
    | some u =>
      rw [found, Option.elim_some, blackOf] at positive
      split at positive
      next real =>
        have seat : (u.chairId == chairId) = true := List.find?_some (p := fun u : UserInfo => u.chairId == chairId) found
        exact ⟨u, List.mem_of_find?_eq_some found, by rw [(Bool.and_eq_true_iff.mp real).2, seat]; rfl⟩
      · exact absurd positive (Nat.lt_irrefl 0)
  · exact absurd chosen nofun

theorem stage_blackControl (ids : (users.map (·.userId)).Nodup) (zero : ∀ u ∈ users, u.endWinScore = 0)
    (grabbed : Grabbed users) (done : blackControl d packets users = some users') :
    Stage users users' ∧ (hasBlackPlayer d users = true → allGrapMoney users' = (blackHandedOut d packets users).sum) := by
  rw [blackControl] at done
  split at done
  · cases chosen : blackChair d users with
    | some chairId =>
      rw [chosen] at done
      obtain ⟨stage, money⟩ := stage_giveBlack zero (seated_of_blackChair chosen) grabbed done
      refine ⟨stage, fun _ => ?_⟩
      rw [blackHandedOut, chosen, money]
      exact List.sum_cons.symm
    | none =>
      rw [chosen] at done
      obtain ⟨stage, money⟩ := stage_giveRandom ids grabbed done
      refine ⟨stage, fun _ => ?_⟩
      rw [blackHandedOut, chosen, money]
  next clean =>
    cases done
    exact ⟨⟨.refl _, grabbed⟩, fun black => absurd black clean⟩

theorem stage_stockControl {black : Bool} (ids : (users.map (·.userId)).Nodup) (grabbed : Grabbed users)
    (done : stockControl d black packets users = some users') :
    Stage users users' ∧ allGrapMoney users' =
      if black = true ∧ BlackDecides d then allGrapMoney users
      else (drawn (users.countP (·.haveGrab)) d.indices packets).sum := by
  have random {accepted : List UserInfo → Bool} (again : ¬(black = true ∧ BlackDecides d))
      (done : giveRandom accepted d.indices packets users = some users') :
      Stage users users' ∧ allGrapMoney users' =
        if black = true ∧ BlackDecides d then allGrapMoney users
        else (drawn (users.countP (·.haveGrab)) d.indices packets).sum := by
    rw [if_neg again]
    exact stage_giveRandom ids grabbed done
  have left_ (decides : BlackDecides d) (black_ : black = true) (done : some users = some users') :
      Stage users users' ∧ allGrapMoney users' =
        if black = true ∧ BlackDecides d then allGrapMoney users
        else (drawn (users.countP (·.haveGrab)) d.indices packets).sum := by
    rw [if_pos ⟨black_, decides⟩]
    cases done
    exact ⟨⟨.refl _, grabbed⟩, rfl⟩
  rw [stockControl] at done
  split at done
  next kill => exact random (fun decides => by simp [decides.2.1] at kill) done
  next alive =>
    rw [Bool.not_eq_true] at alive
    split at done
    next upper =>
      have again : ¬(black = true ∧ BlackDecides d) := fun decides => by
        have := decides.2.2
        simp [upper] at this
      split at done
      · exact random again done
      · exact random again done
    next lower =>
      split at done
      next hit =>
        exact random (fun decides => by have := decides.2.2; simp [lower, hit] at this) done
      next miss =>
        split at done
        next black_ => exact left_ ⟨alive, .inl ⟨lower, Bool.not_eq_true _ ▸ miss⟩⟩ black_ done
        next clean => exact random (fun decides => clean decides.1) done
    next normal =>
      split at done
      next black_ => exact left_ ⟨alive, .inr normal⟩ black_ done
      next clean => exact random (fun decides => clean decides.1) done

/-- There is one banker in the end. -/
theorem stage_chooseBanker (ids : (users.map (·.userId)).Nodup) (grabbed : Grabbed users)
    (done : chooseBanker users = some users') :
    Stage users users' ∧ allGrapMoney users' = allGrapMoney users ∧ ∃ b, bankers users' = [b] := by
  rw [chooseBanker] at done
  split at done
  next one =>
    cases done
    refine ⟨⟨.refl _, grabbed⟩, rfl, ?_⟩
    rw [List.countP_eq_length_filter] at one
    obtain ⟨u, eq⟩ := List.length_eq_one_iff.mp one
    exact ⟨u.userId, by rw [bankers, eq]; rfl⟩
  · obtain ⟨big, found, rfl⟩ := Option.map_eq_some_iff.mp done
    obtain ⟨present, grab⟩ := mem_of_bigOne found
    generalize cleared_ : (users.map fun u => if u.haveGrab then { u with isBanker := false } else u) = cleared
    have flags : cleared.map UserInfo.noFlag = users.map UserInfo.noFlag := by
      rw [← cleared_, List.map_map]
      refine List.map_congr_left fun u _ => ?_
      rw [Function.comp_apply]
      split <;> rfl
    have nobody : NoBanker cleared := by
      rw [← cleared_]
      intro u' changed
      obtain ⟨u, there, rfl⟩ := List.mem_map.mp changed
      split
      · rfl
      next kept => exact Bool.eq_false_iff.mpr fun banker => kept (grabbed u there banker)
    have ids_ : (cleared.map (·.userId)).Nodup := by rwa [(same_of_noFlag flags).map fun _ => rfl]
    have present_ : { big with isBanker := false } ∈ cleared := by
      rw [← cleared_]
      exact List.mem_map.mpr ⟨big, present, if_pos grab⟩
    refine ⟨⟨(same_of_noFlag flags).trans (same_of_noFlag (setBanker_noFlag _ _)), ?_⟩, ?_, big.userId, ?_⟩
    · exact nobody.grabbed.setBanker (v := { big with isBanker := false }) ids_ present_ grab
    · rw [allGrapMoney_noFlag (setBanker_noFlag _ _), allGrapMoney_noFlag flags]
    · exact bankers_setBanker (v := { big with isBanker := false }) nobody ids_ present_ grab

/-! ## Settlement -/

/-- What a settlement comes to. -/
structure Settles (d : Draws) (packets : List ℤ) (users users' : List UserInfo) : Prop extends Stage users users' where
  money : allGrapMoney users' = (handedOut d packets users).sum
  banker : (∃ u ∈ users, u.haveGrab = true ∧ u.isAndroid = false) ∨ (∃ x ∈ handedOut d packets users, 0 < x) →
    ∃ b, bankers users' = [b]

theorem realPlayer_pos_of_hasBlackPlayer (black : hasBlackPlayer d users = true) : 0 < realPlayer users := by
  obtain ⟨u, there, positive⟩ := List.any_eq_true.mp black
  rw [decide_eq_true_eq, blackOf] at positive
  split at positive
  next real =>
    rw [Bool.and_comm] at real
    exact List.countP_pos_iff.mpr ⟨u, there, real⟩
  · exact absurd positive (Nat.lt_irrefl 0)

theorem settles_of_settlement (ids : (users.map (·.userId)).Nodup) (zero : ∀ u ∈ users, u.endWinScore = 0)
    (nobody : NoBanker users) (done : settlement d packets users = some users') : Settles d packets users users' := by
  obtain ⟨given, first, done⟩ := Option.bind_eq_some_iff.mp done
  obtain ⟨stage, money⟩ := stage_blackControl ids zero nobody.grabbed first
  have ids_ : (given.map (·.userId)).Nodup := by rwa [stage.same.map fun _ => rfl]
  have count : given.countP (·.haveGrab) = users.countP (·.haveGrab) := stage.same.countP fun _ => rfl
  have real : realPlayer given = realPlayer users := stage.same.countP fun _ => rfl
  have length : given.length = users.length := by simpa using congrArg List.length stage.same
  rw [real, length] at done
  split at done
  next robots =>
    -- Nobody real grabbed, so the blacklist did nothing.
    have none_ : realPlayer users = 0 := by
      rcases robots with none_ | all
      · exact none_
      · have empty := List.eq_nil_of_length_eq_zero (show users.length = 0 by omega)
        rw [empty]
        rfl
    have clean : hasBlackPlayer d users = false := Bool.eq_false_iff.mpr fun black =>
      Nat.ne_of_gt (realPlayer_pos_of_hasBlackPlayer black) none_
    rw [blackControl, clean, if_neg Bool.false_ne_true] at first
    cases first
    rw [clean, if_neg Bool.false_ne_true] at done
    obtain ⟨stage, money⟩ := stage_giveRandom ids nobody.grabbed done
    have out : handedOut d packets users = drawn (users.countP (·.haveGrab)) d.indices packets := by
      rw [handedOut, clean, if_neg fun impossible => absurd impossible.1 Bool.false_ne_true]
    refine ⟨stage, by rw [out]; exact money, fun worth => ?_⟩
    rw [out] at worth
    rcases worth with ⟨u, there, grab, human⟩ | worth
    · have positive : 0 < realPlayer users := List.countP_pos_iff.mpr ⟨u, there, by rw [grab, human]; rfl⟩
      exact absurd none_ (Nat.ne_of_gt positive)
    · exact bankers_giveRandom ids nobody done worth
  · obtain ⟨stocked, second, done⟩ := Option.bind_eq_some_iff.mp done
    obtain ⟨stage₂, money₂⟩ := stage_stockControl ids_ stage.grabbed second
    have ids₂ : (stocked.map (·.userId)).Nodup := by rwa [stage₂.same.map fun _ => rfl]
    obtain ⟨stage₃, money₃, banker⟩ := stage_chooseBanker ids₂ stage₂.grabbed done
    refine ⟨⟨(stage.same.trans stage₂.same).trans stage₃.same, stage₃.grabbed⟩, ?_, fun _ => banker⟩
    rw [money₃, money₂, handedOut, count]
    split
    next decides => exact money decides.1
    · rfl

end Passes

end H5Server.Qhb
