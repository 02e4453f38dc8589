import H5Server.S13s.Shooting

/-! # The scores of thirteen water

A duel counts equally often from both sides, so what all players win and lose adds up to zero. The
scores added up by dun, with what the shooting brings on top, give the same totals.
-/

namespace H5Server.S13s

open Lib

/-! ## How often a duel counts -/

theorem pureWeight_eq (c : CompareCards) (d : Duel) : pureWeight c d = (weight c d).map (· - 1) := by
  rw [pureWeight, weight]
  split_ifs <;> rfl

theorem shootOf_cases (special : Bool) (items : List CompareItem) :
    shootOf special items = 1 ∨ shootOf special items = -1 ∨ shootOf special items = 0 := by
  rw [shootOf]
  split_ifs <;> simp

namespace Showdown

variable {s : Showdown}

/-- A shot counts twice, and four times when the player who gave it shot everybody. -/
def times (s : Showdown) (a b : ℕ) : ℤ :=
  if (s.judgement a b).result.shoot = 0 then 1
  else if s.shooter s.chairIDs = some (if (s.judgement a b).result.shoot = 1 then a else b) then 4
  else 2

theorem shoot_cases (s : Showdown) (a b : ℕ) :
    (s.judgement a b).result.shoot = 1 ∨ (s.judgement a b).result.shoot = -1 ∨ (s.judgement a b).result.shoot = 0 :=
  shootOf_cases _ _

section Pair

variable (all : s.AllComparable) {a b : ℕ} (first : a ∈ s.chairIDs) (second : b ∈ s.chairIDs) (apart : a ≠ b)

include all first second apart

theorem times_comm : s.times b a = s.times a b := by
  have opposite := judgement_shoot all first second apart
  rw [times, times, opposite]
  rcases s.shoot_cases a b with given | received | neither
  · rw [given]
    rfl
  · rw [received]
    rfl
  · rw [neither]
    rfl

omit all in
/-- No assertion stops the counting. -/
theorem weight_judgedTable :
    weight (s.judgedTable s.chairIDs a) (s.judgement a b) = some (s.times a b) := by
  have peer : (s.judgement a b).chairid = b := rfl
  rw [weight, times, peer]
  rcases s.shoot_cases a b with given | received | neither
  · rw [given]
    rcases found : s.shooter s.chairIDs with _ | x
    · simp [judgedTable, found]
    · rcases eq_or_ne a x with rfl | other
      · simp [judgedTable, found]
      · simp [judgedTable, found, other, first, other.symm]
  · rw [received]
    rcases found : s.shooter s.chairIDs with _ | x
    · simp [judgedTable, found]
    · rcases eq_or_ne a x with rfl | other
      · simp [judgedTable, found, apart]
      · rcases eq_or_ne x b with rfl | third
        · simp [judgedTable, found, other, first]
        · simp [judgedTable, found, other, first, third, third.symm]
  · rw [neither]
    rcases found : s.shooter s.chairIDs with _ | x
    · simp [judgedTable, found]
    · rcases eq_or_ne a x with rfl | other
      · have shot := shoot_of_shootsAll first (mem_of_shooter found).2 second apart.symm
        rw [neither] at shot
        contradiction
      · simp [judgedTable, found, other, first]

/-- Where a special type takes part no dun is scored. -/
theorem itemScore_special
    (special : ((s.selected a).specialTy.special || (s.selected b).specialTy.special) = true) (dt : ℕ) :
    itemScore (s.judgement a b) dt = 0 := by
  have items := record_items all first second apart
  rw [if_pos special] at items
  show ((s.record a b).items.map CompareItem.score).getD dt 0 = 0
  rw [items]
  rfl

/-- The score of a duel is that of its duns. -/
theorem score_eq : (s.judgement a b).result.score =
    itemScore (s.judgement a b) 0 + itemScore (s.judgement a b) 1 + itemScore (s.judgement a b) 2 := by
  have items := record_items all first second apart
  show ((s.record a b).items.map CompareItem.score).sum = ((s.record a b).items.map CompareItem.score).getD 0 0 +
    ((s.record a b).items.map CompareItem.score).getD 1 0 + ((s.record a b).items.map CompareItem.score).getD 2 0
  split_ifs at items
  · rw [items]
    rfl
  · obtain ⟨x, y, z, three⟩ := List.length_eq_three.mp items
    rw [three]
    simp [add_assoc]

end Pair

/-! ## Adding up -/

theorem foldlM_total {duels : List Duel} {f : Duel → Option ℤ} {g : Duel → ℤ} (known : ∀ d ∈ duels, f d = some (g d))
    (start : ℤ) :
    duels.foldlM (fun sum d => (f d).map fun w => sum + w * d.result.score) start =
      some (start + (duels.map fun d => g d * d.result.score).sum) := by
  induction duels generalizing start with
  | nil => simp
  | cons d rest ih =>
    rw [List.foldlM_cons, known d List.mem_cons_self]
    refine (ih (fun e later => known e (List.mem_cons_of_mem d later)) _).trans ?_
    rw [List.map_cons, List.sum_cons, add_assoc]

/-- The sums of a dun; a duel with a special type has no dun to add. -/
theorem foldlM_dun {duels : List Duel} {f : Duel → Option ℤ} {g : Duel → ℤ} {dt : ℕ}
    (known : ∀ d ∈ duels, f d = some (g d)) (none_ : ∀ d ∈ duels, d.specialty.special = true → itemScore d dt = 0)
    (start : ℤ × ℤ) :
    duels.foldlM (fun sums d =>
        if d.specialty.special then some sums
        else (f d).map fun w => (sums.1 + itemScore d dt, sums.2 + w * itemScore d dt)) start =
      some (start.1 + (duels.map fun d => itemScore d dt).sum, start.2 + (duels.map fun d => g d * itemScore d dt).sum) := by
  induction duels generalizing start with
  | nil => simp
  | cons d rest ih =>
    have later := ih (fun e inside => known e (List.mem_cons_of_mem d inside))
      (fun e inside => none_ e (List.mem_cons_of_mem d inside))
    rw [List.foldlM_cons]
    rcases special : d.specialty.special with _ | _
    · rw [if_neg Bool.false_ne_true, known d List.mem_cons_self]
      refine (later _).trans ?_
      simp only [List.map_cons, List.sum_cons, add_assoc]
    · have zero := none_ d List.mem_cons_self special
      rw [if_pos rfl]
      refine (later _).trans ?_
      simp only [List.map_cons, List.sum_cons, zero, zero_add, mul_zero]

/-- A loop over the chairs gives each its own record. -/
theorem foldlM_update {chairs : List ℕ} (distinct : chairs.Nodup) {body : ℕ → CompareCards → Option CompareCards}
    {g t : ℕ → CompareCards} (known : ∀ i ∈ chairs, body i (t i) = some (g i)) :
    chairs.foldlM (fun t i => (body i (t i)).map fun c => Function.update t i c) t =
      some fun k => if k ∈ chairs then g k else t k := by
  induction chairs generalizing t with
  | nil => simp
  | cons i rest ih =>
    obtain ⟨fresh, distinct⟩ := List.nodup_cons.mp distinct
    rw [List.foldlM_cons, known i List.mem_cons_self]
    refine (ih distinct ?_).trans ?_
    · intro j later
      have other : j ≠ i := fun same => fresh (same ▸ later)
      show body j (Function.update t i (g i) j) = some (g j)
      rw [Function.update_of_ne other]
      exact known j (List.mem_cons_of_mem i later)
    · apply congrArg some
      funext k
      rcases eq_or_ne k i with rfl | other
      · simp [fresh]
      · simp [other]

variable (s) in
/-- What a chair gets from its duels, in all and by dun, and through the shooting. -/
def duelSum (a : ℕ) : ℤ := ((opponents a s.pairs).map fun b => s.times a b * (s.judgement a b).result.score).sum

variable (s) in
def dunSum (a dt : ℕ) : ℤ := ((opponents a s.pairs).map fun b => itemScore (s.judgement a b) dt).sum

variable (s) in
def shotSum (a dt : ℕ) : ℤ :=
  ((opponents a s.pairs).map fun b => (s.times a b - 1) * itemScore (s.judgement a b) dt).sum

variable (s) in
def specSum (a : ℕ) : ℤ :=
  ((opponents a s.pairs).map fun b => ((s.record a b).specitem.map CompareItem.score).getD 0).sum

variable (s) in
/-- The records at the end. -/
def outcome (a : ℕ) : CompareCards :=
  if a ∈ s.chairIDs then
    { s.judgedTable s.chairIDs a with
      itemscores := [s.dunSum a 0, s.dunSum a 1, s.dunSum a 2, s.specSum a]
      itemscorepure := [s.shotSum a 0, s.shotSum a 1, s.shotSum a 2,
        s.shotSum a 0 + s.shotSum a 1 + s.shotSum a 2 + s.specSum a]
      deltascore := s.duelSum a + s.specSum a }
  else s.judgedTable s.chairIDs a

theorem judgedTable_chairIDs {a : ℕ} (chair : a ∈ s.chairIDs) : (s.judgedTable s.chairIDs a).duels = s.judged a := by
  simp only [judgedTable, if_pos chair]

theorem weight_judged {a : ℕ} (chair : a ∈ s.chairIDs) {d : Duel} (member : d ∈ s.judged a) :
    weight (s.judgedTable s.chairIDs a) d = some (s.times a d.chairid) := by
  obtain ⟨b, met, rfl⟩ := List.mem_map.mp member
  obtain ⟨apart, second⟩ := (mem_opponents chair).mp met
  exact weight_judgedTable chair second apart.symm

theorem total_judgedTable {a : ℕ} (chair : a ∈ s.chairIDs) :
    total (s.judgedTable s.chairIDs a) = some { s.judgedTable s.chairIDs a with deltascore := s.duelSum a } := by
  have sum : (s.judgedTable s.chairIDs a).duels.foldlM
      (fun sum d => (weight (s.judgedTable s.chairIDs a) d).map fun w => sum + w * d.result.score) 0 =
        some (s.duelSum a) := by
    rw [judgedTable_chairIDs chair, foldlM_total (fun d member => weight_judged chair member), zero_add, judged,
      List.map_map]
    rfl
  rw [total, sum]
  rfl

section Itemized

variable (all : s.AllComparable) {a : ℕ} (chair : a ∈ s.chairIDs)

include all chair

/-- A player with a special type scores nothing by dun. -/
private theorem sums_special (special : (s.selected a).specialTy.special = true) (dt : ℕ) :
    s.dunSum a dt = 0 ∧ s.shotSum a dt = 0 := by
  have zero : ∀ b ∈ opponents a s.pairs, itemScore (s.judgement a b) dt = 0 := by
    intro b met
    obtain ⟨apart, second⟩ := (mem_opponents chair).mp met
    exact itemScore_special all chair second apart.symm (by rw [special, Bool.true_or]) dt
  constructor
  · apply List.sum_eq_zero
    intro x member
    obtain ⟨b, met, rfl⟩ := List.mem_map.mp member
    exact zero b met
  · apply List.sum_eq_zero
    intro x member
    obtain ⟨b, met, rfl⟩ := List.mem_map.mp member
    rw [zero b met, mul_zero]

theorem dunScores_judgedTable (score : ℤ) (dt : ℕ) :
    dunScores (s.selected a).specialTy { s.judgedTable s.chairIDs a with deltascore := score } dt =
      some (s.dunSum a dt, s.shotSum a dt) := by
  rw [dunScores]
  rcases special : (s.selected a).specialTy.special with _ | _
  · have known : ∀ d ∈ s.judged a, pureWeight { s.judgedTable s.chairIDs a with deltascore := score } d =
        some (s.times a d.chairid - 1) := by
      intro d member
      rw [pureWeight_eq]
      exact congrArg (Option.map (· - 1)) (weight_judged chair member)
    have none_ : ∀ d ∈ s.judged a, d.specialty.special = true → itemScore d dt = 0 := by
      intro d member peer
      obtain ⟨b, met, rfl⟩ := List.mem_map.mp member
      obtain ⟨apart, second⟩ := (mem_opponents chair).mp met
      apply itemScore_special all chair second apart.symm
      have peer : (s.selected b).specialTy.special = true := peer
      rw [peer, Bool.or_true]
    rw [if_neg Bool.false_ne_true]
    show (s.judgedTable s.chairIDs a).duels.foldlM _ _ = _
    rw [judgedTable_chairIDs chair, foldlM_dun known none_, judged, List.map_map, List.map_map, zero_add, zero_add]
    rfl
  · obtain ⟨items, shots⟩ := sums_special all chair special dt
    rw [if_pos rfl, items, shots]

theorem itemize_judgedTable :
    itemize (s.selected a).specialTy { s.judgedTable s.chairIDs a with deltascore := s.duelSum a } = some (s.outcome a) := by
  have spec : specScore { s.judgedTable s.chairIDs a with deltascore := s.duelSum a } = s.specSum a := by
    show ((s.judgedTable s.chairIDs a).duels.map _).sum = _
    rw [judgedTable_chairIDs chair, judged, List.map_map]
    rfl
  rw [itemize, dunScores_judgedTable all chair, dunScores_judgedTable all chair, dunScores_judgedTable all chair,
    outcome, if_pos chair, spec]
  rfl

end Itemized

theorem startCompareCards_eq (all : s.AllComparable) (players : 2 ≤ s.chairIDs.length) :
    s.startCompareCards = some s.outcome := by
  have records : s.comparePairs s.pairs (fun _ => ⟨[], 0, 0, 0, [], []⟩) = some (s.judgedTable []) := by
    rw [comparePairs_eq all fun p member => lt_of_mem_pairs member]
    rfl
  have totals : s.onChairs (fun _ => total) (s.judgedTable s.chairIDs) = some fun k =>
      if k ∈ s.chairIDs then { s.judgedTable s.chairIDs k with deltascore := s.duelSum k }
      else s.judgedTable s.chairIDs k :=
    foldlM_update s.chairIDs_nodup fun i chair => total_judgedTable chair
  have items : s.onChairs (fun i => itemize (s.selected i).specialTy) (fun k =>
      if k ∈ s.chairIDs then { s.judgedTable s.chairIDs k with deltascore := s.duelSum k }
      else s.judgedTable s.chairIDs k) = some s.outcome := by
    refine (foldlM_update s.chairIDs_nodup (g := s.outcome) fun i chair => ?_).trans ?_
    · rw [if_pos chair]
      exact itemize_judgedTable all chair
    · apply congrArg some
      funext k
      split_ifs with chair
      · rfl
      · rw [outcome, if_neg chair]
  rw [startCompareCards, if_neg players.not_gt]
  simp only [foldlM_compareTwo, records, Option.bind_eq_bind, Option.bind_some]
  rw [foldl_judge all s.chairIDs rfl, totals]
  exact items

end Showdown

/-! ## Arrangements that can be compared -/

/-- Three and twice five cards of ordinary types, of which the front takes only those of three cards. -/
structure GroupDun.Arranged (g : GroupDun) : Prop where
  sizes : ∀ dt, (g.duns dt).cards.length = dt.needC
  ordinary : ∀ dt, (g.duns dt).ty.special = false
  front : (g.duns .dunFirst).ty ∉ [.ty22, .ty32, .ty40]

theorem dunScore_isSome {ty : HandTy} (ordinary : ty.special = false) {dt : DunTy} (back : dt ≠ .dunFirst) :
    (dunScore dt ty).isSome := by
  cases dt with
  | dunFirst => contradiction
  | dunSecond => cases ty <;> first | rfl | contradiction
  | dunLast => cases ty <;> first | rfl | contradiction

theorem dunScore_headTy_isSome {ty : HandTy} (ordinary : ty.special = false) (front : ty ∉ [.ty22, .ty32, .ty40]) :
    (dunScore .dunFirst (headTy ty)).isSome := by
  cases ty <;> first | rfl | contradiction

theorem GroupDun.Arranged.dun_isSome {g : GroupDun} (arranged : g.Arranged) (dt : DunTy) :
    (dunScore dt (g.dun dt).ty).isSome ∧ (g.dun dt).cards.length = dt.needC := by
  cases dt with
  | dunFirst => exact ⟨dunScore_headTy_isSome (arranged.ordinary _) arranged.front, arranged.sizes .dunFirst⟩
  | dunSecond => exact ⟨dunScore_isSome (arranged.ordinary _) (by decide), arranged.sizes .dunSecond⟩
  | dunLast => exact ⟨dunScore_isSome (arranged.ordinary _) (by decide), arranged.sizes .dunLast⟩

theorem compareDun_isSome {compareCards : List ℕ → List ℕ → HandTy → ℤ} {src dst : GroupDun} (mine : src.Arranged)
    (yours : dst.Arranged) (dt : DunTy) : (compareDun compareCards dt (src.dun dt) (dst.dun dt)).isSome := by
  obtain ⟨first, sizes⟩ := mine.dun_isSome dt
  obtain ⟨second, sizes'⟩ := yours.dun_isSome dt
  rw [compareDun]
  dsimp only
  split_ifs with _ _ wrong
  · rwa [Option.isSome_map]
  · rwa [Option.isSome_map]
  · exact absurd wrong (not_or.mpr ⟨not_not.mpr sizes, not_not.mpr sizes'⟩)
  · rwa [Option.isSome_map]
  · rwa [Option.isSome_map]
  · rfl

theorem comparePair_isSome {compareCards : List ℕ → List ℕ → HandTy → ℤ} {src dst : GroupDun}
    (mine : src.specialTy.special ∨ src.Arranged) (yours : dst.specialTy.special ∨ dst.Arranged) :
    (comparePair compareCards src dst).isSome := by
  rw [comparePair]
  split_ifs with special
  · rfl
  · rw [Bool.or_eq_true, not_or] at special
    have mine := mine.resolve_left special.1
    have yours := yours.resolve_left special.2
    obtain ⟨first, one⟩ := Option.isSome_iff_exists.mp (compareDun_isSome mine yours .dunFirst)
    obtain ⟨second, two⟩ := Option.isSome_iff_exists.mp (compareDun_isSome mine yours .dunSecond)
    obtain ⟨last, three⟩ := Option.isSome_iff_exists.mp (compareDun_isSome mine yours .dunLast)
    rw [one, two, three]
    rfl

/-! ## The balance of a table -/

/-- What one wins the other loses, only one player shoots all, and both ways of adding up agree. -/
structure Balanced (s : Showdown) (t : ℕ → CompareCards) : Prop where
  zero : ∑ i ∈ s.chairIDs.toFinset, (t i).deltascore = 0
  peers : ∀ i ∈ s.chairIDs, ((t i).duels.map Duel.chairid).Perm (s.chairIDs.erase i)
  opposite : ∀ i ∈ s.chairIDs, ∀ d ∈ (t i).duels, ∃ e ∈ (t d.chairid).duels, e.chairid = i ∧
    e.result.shoot = -d.result.shoot ∧ e.result.items.map CompareItem.score = d.result.items.map (-·.score) ∧
      e.result.specitem.map CompareItem.score = d.result.specitem.map (-·.score)
  allshoot : ∀ i ∈ s.chairIDs, (t i).allshoot = 1 → ∀ k ∈ s.chairIDs, k ≠ i →
    (t k).allshoot = -1 ∧ (t k).fromchairid = i
  ledger : ∀ i ∈ s.chairIDs, (t i).deltascore = (t i).itemscores.getD 0 0 + (t i).itemscores.getD 1 0 +
    (t i).itemscores.getD 2 0 + (t i).itemscorepure.getD 3 0

namespace Showdown

variable {s : Showdown}

section Outcome

variable (all : s.AllComparable)

include all

theorem ledger_outcome {a : ℕ} (chair : a ∈ s.chairIDs) :
    s.duelSum a + s.specSum a = s.dunSum a 0 + s.dunSum a 1 + s.dunSum a 2 +
      (s.shotSum a 0 + s.shotSum a 1 + s.shotSum a 2 + s.specSum a) := by
  have once : s.duelSum a = ((opponents a s.pairs).map fun b =>
      itemScore (s.judgement a b) 0 + itemScore (s.judgement a b) 1 + itemScore (s.judgement a b) 2 +
        ((s.times a b - 1) * itemScore (s.judgement a b) 0 + (s.times a b - 1) * itemScore (s.judgement a b) 1 +
          (s.times a b - 1) * itemScore (s.judgement a b) 2)).sum := by
    rw [duelSum]
    apply congrArg List.sum
    apply List.map_congr_left
    intro b met
    obtain ⟨apart, second⟩ := (mem_opponents chair).mp met
    rw [score_eq all chair second apart.symm]
    ring
  rw [once, List.sum_map_add, List.sum_map_add, List.sum_map_add, List.sum_map_add, List.sum_map_add, dunSum, dunSum,
    dunSum, shotSum, shotSum, shotSum]
  ring

/-- What a duel brings to one side, special types included. -/
private theorem gain_opposite {a b : ℕ} (first : a ∈ s.chairIDs) (second : b ∈ s.chairIDs) (apart : a ≠ b) :
    s.times b a * (s.judgement b a).result.score + ((s.record b a).specitem.map CompareItem.score).getD 0 =
      -(s.times a b * (s.judgement a b).result.score + ((s.record a b).specitem.map CompareItem.score).getD 0) := by
  have spec : ((s.record b a).specitem.map CompareItem.score).getD 0 =
      -((s.record a b).specitem.map CompareItem.score).getD 0 := by
    rw [(record_opposite all first second apart).specitem]
    rcases (s.record a b).specitem with _ | item
    · rfl
    · rfl
  rw [times_comm all first second apart, judgement_score all first second apart, spec]
  ring

theorem zero_outcome : ∑ i ∈ s.chairIDs.toFinset, (s.duelSum i + s.specSum i) = 0 := by
  have distinct := List.nodup_reverse.mpr s.chairIDs_nodup
  have gains : ∀ i ∈ s.chairIDs.toFinset, s.duelSum i + s.specSum i = ∑ b ∈ s.chairIDs.toFinset.erase i,
      (s.times i b * (s.judgement i b).result.score + ((s.record i b).specitem.map CompareItem.score).getD 0) := by
    intro i chair
    have member := List.mem_reverse.mpr (List.mem_toFinset.mp chair)
    rw [duelSum, specSum, pairs, sum_opponents distinct member, sum_opponents distinct member, List.toFinset_reverse,
      Finset.sum_add_distrib]
  rw [Finset.sum_congr rfl gains]
  apply sum_erase_eq_zero
  intro a first b second apart
  exact gain_opposite all (List.mem_toFinset.mp first) (List.mem_toFinset.mp second) apart

omit all in
theorem outcome_of_mem {a : ℕ} (chair : a ∈ s.chairIDs) :
    (s.outcome a).duels = s.judged a ∧ (s.outcome a).allshoot = (s.judgedTable s.chairIDs a).allshoot ∧
      (s.outcome a).fromchairid = (s.judgedTable s.chairIDs a).fromchairid := by
  rw [outcome, if_pos chair]
  exact ⟨judgedTable_chairIDs chair, rfl, rfl⟩

theorem balanced_outcome : Balanced s s.outcome where
  zero := by
    rw [← zero_outcome all]
    apply Finset.sum_congr rfl
    intro i chair
    rw [outcome, if_pos (List.mem_toFinset.mp chair)]
  peers i chair := by
    have met := opponents_pairings (List.nodup_reverse.mpr s.chairIDs_nodup) (List.mem_reverse.mpr chair)
    have names : (s.judged i).map Duel.chairid = opponents i s.pairs := by
      rw [judged, List.map_map]
      exact List.map_id _
    rw [(outcome_of_mem chair).1, names]
    exact met.trans (s.chairIDs.reverse_perm.erase i)
  opposite i chair d member := by
    rw [(outcome_of_mem chair).1] at member
    obtain ⟨b, met, rfl⟩ := List.mem_map.mp member
    obtain ⟨apart, second⟩ := (mem_opponents chair).mp met
    refine ⟨s.judgement b i, ?_, rfl, judgement_shoot all chair second apart.symm, ?_, ?_⟩
    · show s.judgement b i ∈ (s.outcome b).duels
      rw [(outcome_of_mem second).1]
      exact List.mem_map_of_mem ((mem_opponents second).mpr ⟨apart.symm, chair⟩)
    · show (s.record b i).items.map _ = (s.record i b).items.map _
      rw [(record_opposite all chair second apart.symm).items, List.map_map]
      rfl
    · show (s.record b i).specitem.map _ = (s.record i b).specitem.map _
      rw [(record_opposite all chair second apart.symm).specitem, Option.map_map]
      rfl
  allshoot i chair all_ k other apart := by
    rw [(outcome_of_mem chair).2.1] at all_
    rw [(outcome_of_mem other).2.1, (outcome_of_mem other).2.2]
    have found : s.shooter s.chairIDs = some i := by
      rcases found : s.shooter s.chairIDs with _ | x
      · simp [judgedTable, found] at all_
      · rcases eq_or_ne i x with rfl | away
        · rfl
        · simp [judgedTable, found, away, chair] at all_
    simp [judgedTable, found, apart, other]
  ledger i chair := by
    have sum := ledger_outcome all chair
    rw [outcome, if_pos chair]
    exact sum

end Outcome

/-- The scoring balances for any number of players and any arrangements, and it ends whenever there
are two players and their arrangements are special or complete. -/
theorem startCompareCards_balanced (s : Showdown) :
    (∀ t, s.startCompareCards = some t → Balanced s t) ∧
      (2 ≤ s.chairIDs.length →
        (∀ i ∈ s.chairIDs, (s.selected i).specialTy.special ∨ (s.selected i).Arranged) →
          ∃ t, s.startCompareCards = some t) := by
  constructor
  · intro t done
    have parts := done
    rw [startCompareCards] at parts
    split_ifs at parts with few
    simp only [Option.bind_eq_bind, Option.bind_eq_some_iff, foldlM_compareTwo] at parts
    obtain ⟨records, compared, -⟩ := parts
    have players : 2 ≤ s.chairIDs.length := not_lt.mp few
    have all := comparable_of_comparePairs compared
    rw [startCompareCards_eq all players] at done
    obtain rfl := Option.some.inj done
    exact balanced_outcome all
  · intro players arranged
    have all : s.AllComparable := by
      intro p member
      have inside := mem_of_mem_pairings member
      exact comparePair_isSome (arranged _ (List.mem_reverse.mp inside.1)) (arranged _ (List.mem_reverse.mp inside.2))
    exact ⟨s.outcome, startCompareCards_eq all players⟩

end Showdown

end H5Server.S13s
