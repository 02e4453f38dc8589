import H5Server.S13s.DunRuns
import H5Server.S13s.Records

/-! # The type of a dun is the strongest its cards have

`EnumCards` has combinations of a kind exactly when the cards have the type, apart from flushes, of which those that
are straights count as such.
-/

namespace H5Server.S13s

open Lib

/-- The cards have a type, whatever stronger types they have. -/
def HasType (cards : List ℕ) : HandTy → Prop
  | .tysp => True
  | .ty20 => ∃ v, 2 ≤ number cards v
  | .ty22 => ∃ v w, v ≠ w ∧ 2 ≤ number cards v ∧ 2 ≤ number cards w
  | .ty30 => ∃ v, 3 ≤ number cards v
  | .ty123 => Straight cards
  | .tysc => OneColor cards
  | .ty32 => ∃ v w, v ≠ w ∧ 3 ≤ number cards v ∧ 2 ≤ number cards w
  | .ty40 => ∃ v, 4 ≤ number cards v
  | .ty123sc => Straight cards ∧ OneColor cards
  | _ => False

variable {dt : DunTy} {cards : List ℕ} {n : ℕ}

/-! ## Combinations -/

section Combinations

theorem foldl_keep_eq_nil {l : List (List ℕ)} : l.foldl keep [] = [] ↔ l = [] := by
  have kept (found l : List (List ℕ)) (some_ : found ≠ []) : l.foldl keep found ≠ [] := by
    induction l generalizing found with
    | nil => exact some_
    | cons cards l ih =>
      refine ih _ ?_
      rw [keep]
      split_ifs
      · exact some_
      · exact List.append_ne_nil_of_right_ne_nil _ (List.cons_ne_nil _ _)
  cases l with
  | nil => exact iff_of_true rfl rfl
  | cons cards l => exact iff_of_false (kept [cards] l (List.cons_ne_nil _ _)) (List.cons_ne_nil _ _)

theorem flatMap_ne_nil {α β : Type*} {l : List α} {f : α → List β} : l.flatMap f ≠ [] ↔ ∃ x ∈ l, f x ≠ [] := by
  rw [ne_eq, List.flatMap_eq_nil_iff]
  push Not
  rfl

theorem staC_ne_nil {k : ℕ} : staC n (k + 1) ≠ [] ↔ k + 1 ≤ n := by
  rw [staC, flatMap_ne_nil]
  constructor
  · rintro ⟨i, there, -⟩
    rw [List.mem_reverse, List.mem_range'_1] at there
    omega
  · intro many
    refine ⟨k + 1, List.mem_reverse.mpr (List.mem_range'_1.mpr (by omega)), ?_⟩
    cases k with
    | zero => exact List.cons_ne_nil _ _
    | succ k =>
      rw [if_neg k.succ_ne_zero, Nat.add_sub_cancel, staC_self]
      exact List.cons_ne_nil _ _

theorem choose_ne_nil {k : ℕ} {group : List ℕ} : choose (k + 1) group ≠ [] ↔ k + 1 ≤ group.length := by
  rw [choose, ne_eq, List.map_eq_nil_iff]
  exact staC_ne_nil

theorem combine_ne_nil {second first : List (List ℕ)} : combine second first ≠ [] ↔ second ≠ [] ∧ first ≠ [] := by
  rw [combine, flatMap_ne_nil]
  constructor
  · rintro ⟨cards, there, some_⟩
    refine ⟨List.ne_nil_of_mem there, ?_⟩
    rintro rfl
    exact some_ rfl
  · rintro ⟨some_, some_'⟩
    obtain ⟨cards, there⟩ := List.exists_mem_of_ne_nil _ some_
    exact ⟨cards, there, mt List.map_eq_nil_iff.mp some_'⟩

theorem groupPairs_eq (groups : List (List ℕ)) : groupPairs groups = pairings groups.reverse := by
  have all : (List.range groups.length).map (groups.getD · []) = groups := by
    refine List.ext_getElem (by simp) fun k here there => ?_
    rw [List.getElem_map, List.getElem_range, List.getD_eq_getElem?_getD, List.getElem?_eq_getElem there, Option.getD_some]
  conv_rhs => rw [← all, ← List.map_reverse, pairings_map]
  rw [groupPairs, staC_two, List.map_map]
  rfl

variable {groups : List (List ℕ)}

theorem enumCards30_ne_nil : enumCards30 groups ≠ [] ↔ ∃ g ∈ groups, 3 ≤ g.length := by
  rw [enumCards30, ne_eq, foldl_keep_eq_nil, ← ne_eq, flatMap_ne_nil]
  refine exists_congr fun g => and_congr List.mem_reverse ?_
  split_ifs with three
  · exact iff_of_true (choose_ne_nil.mpr three) three
  · exact iff_of_false (not_not_intro rfl) three

theorem enumCards20_ne_nil : enumCards20 groups ≠ [] ↔ ∃ g ∈ groups, 2 ≤ g.length := by
  rw [enumCards20, ne_eq, foldl_keep_eq_nil, ← ne_eq, flatMap_ne_nil]
  exact exists_congr fun g => and_congr List.mem_reverse choose_ne_nil

theorem enumCards22_ne_nil (nodup : groups.Nodup) (two : ∀ g ∈ groups, 2 ≤ g.length) :
    enumCards22 groups ≠ [] ↔ ∃ g ∈ groups, ∃ g' ∈ groups, g ≠ g' := by
  rw [enumCards22, ne_eq, foldl_keep_eq_nil, ← ne_eq, flatMap_ne_nil, groupPairs_eq]
  have every {pair : List ℕ × List ℕ} (there : pair ∈ pairings groups.reverse) :
      combine (choose 2 pair.2) (choose 2 pair.1) ≠ [] := by
    obtain ⟨first, second⟩ := mem_of_mem_pairings there
    exact combine_ne_nil.mpr ⟨choose_ne_nil.mpr (two _ (List.mem_reverse.mp second)),
      choose_ne_nil.mpr (two _ (List.mem_reverse.mp first))⟩
  constructor
  · rintro ⟨pair, there, -⟩
    obtain ⟨first, second⟩ := mem_of_mem_pairings there
    exact ⟨_, List.mem_reverse.mp first, _, List.mem_reverse.mp second,
      rel_of_mem_pairings (List.nodup_reverse.mpr nodup) there⟩
  · rintro ⟨g, here, g', there, differ⟩
    rcases mem_pairings_or (List.mem_reverse.mpr here) (List.mem_reverse.mpr there) differ with pair | pair
    · exact ⟨_, pair, every pair⟩
    · exact ⟨_, pair, every pair⟩

theorem enumCards32_ne_nil (nodup : groups.Nodup) (two : ∀ g ∈ groups, 2 ≤ g.length) :
    enumCards32 groups ≠ [] ↔ ∃ g ∈ groups, ∃ g' ∈ groups, g ≠ g' ∧ 3 ≤ g.length := by
  rw [enumCards32, ne_eq, foldl_keep_eq_nil, ← ne_eq, flatMap_ne_nil, groupPairs_eq]
  have every {pair : List ℕ × List ℕ} (there : pair ∈ pairings groups.reverse) :
      ((if 3 ≤ pair.1.length then combine (choose 2 pair.2) (choose 3 pair.1) else [])
        ++ if 3 ≤ pair.2.length then combine (choose 3 pair.2) (choose 2 pair.1) else []) ≠ []
      ↔ 3 ≤ pair.1.length ∨ 3 ≤ pair.2.length := by
    obtain ⟨first, second⟩ := mem_of_mem_pairings there
    have pair1 := choose_ne_nil.mpr (two _ (List.mem_reverse.mp first))
    have pair2 := choose_ne_nil.mpr (two _ (List.mem_reverse.mp second))
    rw [ne_eq, List.append_eq_nil_iff, Classical.not_and_iff_not_or_not]
    refine or_congr ?_ ?_
    · split_ifs with three
      · exact iff_of_true (combine_ne_nil.mpr ⟨pair2, choose_ne_nil.mpr three⟩) three
      · exact iff_of_false (not_not_intro rfl) three
    · split_ifs with three
      · exact iff_of_true (combine_ne_nil.mpr ⟨choose_ne_nil.mpr three, pair1⟩) three
      · exact iff_of_false (not_not_intro rfl) three
  constructor
  · rintro ⟨pair, there, some_⟩
    obtain ⟨first, second⟩ := mem_of_mem_pairings there
    have differ := rel_of_mem_pairings (List.nodup_reverse.mpr nodup) there
    rcases (every there).mp some_ with three | three
    · exact ⟨_, List.mem_reverse.mp first, _, List.mem_reverse.mp second, differ, three⟩
    · exact ⟨_, List.mem_reverse.mp second, _, List.mem_reverse.mp first, differ.symm, three⟩
  · rintro ⟨g, here, g', there, differ, three⟩
    rcases mem_pairings_or (List.mem_reverse.mpr here) (List.mem_reverse.mpr there) differ with pair | pair
    · exact ⟨_, pair, (every pair).mpr (.inl three)⟩
    · exact ⟨_, pair, (every pair).mpr (.inr three)⟩

end Combinations

/-! ## Types -/

section Types

variable (nodup : cards.Nodup) (deck : ∀ card ∈ cards, card ∈ cardListData)

include nodup deck

theorem groups_nodup : (removeRepeatCards (sortCards cards)).groups.Nodup := by
  rw [removeRepeatCards_blocks nodup deck, Classify.groups]
  have once := (blocks_grouped cards).nodup
  have apart {k k' : ℕ} (differ : k ≠ k') :
      ∀ g ∈ (blocks cards).filter (·.length = k), ∀ g' ∈ (blocks cards).filter (·.length = k'), g ≠ g' := by
    rintro g there _ there' rfl
    have := of_decide_eq_true (List.mem_filter.mp there).2
    have := of_decide_eq_true (List.mem_filter.mp there').2
    omega
  refine List.nodup_append.mpr ⟨List.nodup_append.mpr ⟨once.filter _, once.filter _, apart (by norm_num)⟩,
    once.filter _, fun g there g' there' => ?_⟩
  rcases List.mem_append.mp there with there | there
  · exact apart (by norm_num) g there g' there'
  · exact apart (by norm_num) g there g' there'

/-- Groups of some length are values of some number. -/
theorem exists_group {k : ℕ} (two : 2 ≤ k) :
    (∃ g ∈ (removeRepeatCards (sortCards cards)).groups, k ≤ g.length) ↔ ∃ v, k ≤ number cards v := by
  constructor
  · rintro ⟨g, there, many⟩
    obtain ⟨value, -, rfl⟩ := (mem_blocks deck).mp ((mem_groups nodup deck).mp there).1
    exact ⟨value, length_block cards value ▸ many⟩
  · rintro ⟨value, many⟩
    refine ⟨block cards value, (mem_groups nodup deck).mpr ⟨(mem_blocks deck).mpr ⟨value, by omega, rfl⟩, ?_⟩, ?_⟩
    · rw [length_block]
      omega
    · rwa [length_block]

theorem exists_groups {k : ℕ} (two : 2 ≤ k) :
    (∃ g ∈ (removeRepeatCards (sortCards cards)).groups, ∃ g' ∈ (removeRepeatCards (sortCards cards)).groups,
        g ≠ g' ∧ k ≤ g.length) ↔ ∃ v w, v ≠ w ∧ k ≤ number cards v ∧ 2 ≤ number cards w := by
  constructor
  · rintro ⟨g, here, g', there, differ, many⟩
    obtain ⟨here, -⟩ := (mem_groups nodup deck).mp here
    obtain ⟨there, many'⟩ := (mem_groups nodup deck).mp there
    obtain ⟨v, -, rfl⟩ := (mem_blocks deck).mp here
    obtain ⟨w, -, rfl⟩ := (mem_blocks deck).mp there
    rw [length_block] at many many'
    exact ⟨v, w, fun same => differ (congrArg _ same), many, many'⟩
  · rintro ⟨v, w, differ, many, many'⟩
    have present {u : ℕ} (some_ : 2 ≤ number cards u) :
        block cards u ∈ (removeRepeatCards (sortCards cards)).groups := by
      refine (mem_groups nodup deck).mpr ⟨(mem_blocks deck).mpr ⟨u, by omega, rfl⟩, ?_⟩
      rwa [length_block]
    refine ⟨_, present (two.trans many), _, present many', fun same => ?_, length_block cards v ▸ many⟩
    obtain ⟨card, there⟩ := List.exists_mem_of_length_pos (show 0 < (block cards v).length by rw [length_block]; omega)
    exact differ ((mem_block.mp there).2.symm.trans (mem_block.mp (same ▸ there)).2)

end Types

theorem number_add_le (cards : List ℕ) {v w : ℕ} (differ : v ≠ w) : number cards v + number cards w ≤ cards.length := by
  induction cards with
  | nil => exact le_rfl
  | cons card cards ih =>
    simp only [number, List.countP_cons, decide_eq_true_eq, List.length_cons] at ih ⊢
    split_ifs <;> omega

theorem number_add_add_le (cards : List ℕ) {v w u : ℕ} (vw : v ≠ w) (vu : v ≠ u) (wu : w ≠ u) :
    number cards v + number cards w + number cards u ≤ cards.length := by
  induction cards with
  | nil => exact le_rfl
  | cons card cards ih =>
    simp only [number, List.countP_cons, decide_eq_true_eq, List.length_cons] at ih ⊢
    split_ifs <;> omega

theorem sameColor_iff {run : List ℕ} (perm : cards.Perm run) : sameColor run = true ↔ OneColor cards := by
  have members : OneColor cards ↔ OneColor run := by
    simp only [OneColor, perm.mem_iff]
  rw [members, sameColor, List.all_eq_true]
  simp only [beq_iff_eq]
  constructor
  · exact fun all x there y there' => (all x there).trans (all y there').symm
  · intro one x there
    cases run with
    | nil => exact absurd there List.not_mem_nil
    | cons y run => exact one x there y List.mem_cons_self

section Tree

variable (nodup : cards.Nodup) (deck : ∀ card ∈ cards, card ∈ cardListData)
  (size : cards.length = 3 ∨ cards.length = 5)

include nodup deck

theorem sortGroups_nodup : (sortGroups (removeRepeatCards (sortCards cards)).groups).Nodup :=
  (List.perm_insertionSort _ _).nodup_iff.mpr (groups_nodup nodup deck)

omit nodup deck in
theorem mem_sortGroups {g : List ℕ} :
    g ∈ sortGroups (removeRepeatCards (sortCards cards)).groups ↔ g ∈ (removeRepeatCards (sortCards cards)).groups :=
  List.mem_insertionSort _

theorem two_le_length : ∀ g ∈ sortGroups (removeRepeatCards (sortCards cards)).groups, 2 ≤ g.length := fun _ there =>
  ((mem_groups nodup deck).mp ((mem_sortGroups).mp there)).2

theorem v40_iff : (enumCards (sortCards cards) cards.length).v40 ≠ [] ↔ HasType cards .ty40 := by
  show (if 4 ≤ cards.length then (removeRepeatCards (sortCards cards)).dst4 else []) ≠ [] ↔ ∃ v, 4 ≤ number cards v
  rw [removeRepeatCards_blocks nodup deck]
  constructor
  · intro found
    split_ifs at found
    · obtain ⟨g, found⟩ := List.exists_mem_of_ne_nil _ found
      obtain ⟨there, four⟩ := List.mem_filter.mp found
      obtain ⟨v, -, rfl⟩ := (mem_blocks deck).mp there
      exact ⟨v, length_block cards v ▸ (of_decide_eq_true four).ge⟩
    · exact absurd rfl found
  · rintro ⟨v, four⟩
    have few : number cards v ≤ cards.length := List.countP_le_length
    have most := number_le_four nodup deck v
    have there := (mem_blocks deck).mpr ⟨v, by omega, rfl⟩
    rw [if_pos (four.trans few)]
    refine List.ne_nil_of_mem (List.mem_filter.mpr ⟨there, decide_eq_true ?_⟩)
    rw [length_block]
    omega

theorem v32_iff : (enumCards (sortCards cards) cards.length).v32 ≠ [] ↔ HasType cards .ty32 := by
  show (if 5 ≤ cards.length then enumCards32 (sortGroups (removeRepeatCards (sortCards cards)).groups) else []) ≠ [] ↔ _
  rw [HasType, ← exists_groups nodup deck (by norm_num)]
  have all := enumCards32_ne_nil (sortGroups_nodup nodup deck) (two_le_length nodup deck)
  simp only [mem_sortGroups] at all
  split_ifs with five
  · exact all
  · refine iff_of_false (not_not_intro rfl) fun found => five ?_
    obtain ⟨v, w, differ, three, two⟩ := (exists_groups nodup deck (by norm_num)).mp found
    have := number_add_le cards differ
    omega

theorem v22_iff : (enumCards (sortCards cards) cards.length).v22 ≠ [] ↔ HasType cards .ty22 := by
  show (if 4 ≤ cards.length then enumCards22 (sortGroups (removeRepeatCards (sortCards cards)).groups) else []) ≠ [] ↔ _
  rw [HasType, ← exists_groups nodup deck le_rfl]
  have two := two_le_length nodup deck
  have all := enumCards22_ne_nil (sortGroups_nodup nodup deck) two
  simp only [mem_sortGroups] at all two
  split_ifs with four
  · rw [all]
    refine exists_congr fun g => and_congr_right fun here => exists_congr fun g' => and_congr_right fun _ => ?_
    exact (and_iff_left (two g here)).symm
  · refine iff_of_false (not_not_intro rfl) fun found => four ?_
    obtain ⟨v, w, differ, many, many'⟩ := (exists_groups nodup deck le_rfl).mp found
    have := number_add_le cards differ
    omega

include size

theorem v123sc_iff : (enumCards (sortCards cards) cards.length).v123sc ≠ [] ↔ HasType cards .ty123sc := by
  obtain ⟨runs, straight⟩ := enumConsecCards_dun nodup deck rfl (by omega) (by omega)
  constructor
  · intro found
    obtain ⟨run, found⟩ := List.exists_mem_of_ne_nil _ found
    obtain ⟨there, color⟩ := List.mem_filter.mp found
    obtain ⟨perm, here⟩ := runs run there
    exact ⟨here, (sameColor_iff perm).mp color⟩
  · rintro ⟨here, color⟩
    obtain ⟨run, there⟩ := straight here
    exact List.ne_nil_of_mem (List.mem_filter.mpr ⟨there, (sameColor_iff (runs run there).1).mpr color⟩)

theorem v123_iff :
    (enumCards (sortCards cards) cards.length).v123 ≠ [] ↔ HasType cards .ty123 ∧ ¬HasType cards .tysc := by
  obtain ⟨runs, straight⟩ := enumConsecCards_dun nodup deck rfl (by omega) (by omega)
  have differ {run : List ℕ} (perm : cards.Perm run) : (!sameColor run) = true ↔ ¬OneColor cards := by
    rw [← sameColor_iff perm, Bool.not_eq_true', Bool.not_eq_true]
  constructor
  · intro found
    obtain ⟨run, found⟩ := List.exists_mem_of_ne_nil _ found
    obtain ⟨there, colors⟩ := List.mem_filter.mp found
    obtain ⟨perm, here⟩ := runs run there
    exact ⟨here, (differ perm).mp colors⟩
  · rintro ⟨here, colors⟩
    obtain ⟨run, there⟩ := straight here
    exact List.ne_nil_of_mem (List.mem_filter.mpr ⟨there, (differ (runs run there).1).mpr colors⟩)

theorem v30_iff : (enumCards (sortCards cards) cards.length).v30 ≠ [] ↔ HasType cards .ty30 := by
  show (if 3 ≤ cards.length then enumCards30 (sortGroups (removeRepeatCards (sortCards cards)).groups) else []) ≠ [] ↔ _
  rw [if_pos (by omega), enumCards30_ne_nil, HasType, ← exists_group nodup deck (by norm_num)]
  simp only [mem_sortGroups]

theorem v20_iff : (enumCards (sortCards cards) cards.length).v20 ≠ [] ↔ HasType cards .ty20 := by
  show (if 2 ≤ cards.length then enumCards20 (sortGroups (removeRepeatCards (sortCards cards)).groups) else []) ≠ [] ↔ _
  rw [if_pos (by omega), enumCards20_ne_nil, HasType, ← exists_group nodup deck le_rfl]
  simp only [mem_sortGroups]

end Tree

/-- Types of duns that the cards lack need not be compared. -/
theorem HasType.rank_le {ty : HandTy} {r : ℕ} (there : HasType cards ty) (straightFlush : HasType cards .ty123sc → 8 ≤ r)
    (four : HasType cards .ty40 → 7 ≤ r) (full : HasType cards .ty32 → 6 ≤ r) (color : HasType cards .tysc → 5 ≤ r)
    (straight : HasType cards .ty123 → 4 ≤ r) (three : HasType cards .ty30 → 3 ≤ r)
    (pairs : HasType cards .ty22 → 2 ≤ r) (pair : HasType cards .ty20 → 1 ≤ r) : ty.rank ≤ r := by
  cases ty with
  | tysp => exact Nat.zero_le r
  | ty20 => exact pair there
  | ty22 => exact pairs there
  | ty30 => exact three there
  | ty123 => exact straight there
  | tysc => exact color there
  | ty32 => exact full there
  | ty40 => exact four there
  | ty123sc => exact straightFlush there
  | _ => exact False.elim there

/-- `getDunCardHandTy` finds the strongest type. -/
theorem getDunCardHandTy_strongest (dun : IsDun dt cards) :
    ∃ ty, getDunCardHandTy dt cards = some ty ∧ HasType cards ty ∧ ∀ ty', HasType cards ty' → ty'.rank ≤ ty.rank := by
  obtain ⟨length, nodup, deck⟩ := dun
  have size : cards.length = 3 ∨ cards.length = 5 := by
    rw [length]
    cases dt
    · exact .inl rfl
    · exact .inr rfl
    · exact .inr rfl
  obtain ⟨flush, flush'⟩ : ((enumCards (sortCards cards) cards.length).vsc ≠ [] → HasType cards .tysc)
      ∧ (HasType cards .tysc → ¬HasType cards .ty123 → (enumCards (sortCards cards) cards.length).vsc ≠ []) :=
    enumSameColorCards_dun nodup deck rfl (by omega) (by omega)
  have is123sc := v123sc_iff nodup deck size
  have is123 := v123_iff nodup deck size
  have is40 := v40_iff nodup deck
  have is32 := v32_iff nodup deck
  have is30 := v30_iff nodup deck size
  have is22 := v22_iff nodup deck
  have is20 := v20_iff nodup deck size
  rw [getDunCardHandTy, if_neg (not_not_intro length)]
  dsimp only
  rcases Classical.em (HasType cards .ty123sc) with straightFlush | straightFlush
  · exact ⟨_, congrArg some (if_pos (is123sc.mpr straightFlush)), straightFlush, fun _ there => there.rank_le
      (fun _ => by decide) (fun _ => by decide) (fun _ => by decide) (fun _ => by decide) (fun _ => by decide)
      (fun _ => by decide) (fun _ => by decide) fun _ => by decide⟩
  rw [if_neg (mt is123sc.mp straightFlush)]
  rcases Classical.em (HasType cards .ty40) with four | four
  · exact ⟨_, congrArg some (if_pos (is40.mpr four)), four, fun _ there => there.rank_le (absurd · straightFlush)
      (fun _ => by decide) (fun _ => by decide) (fun _ => by decide) (fun _ => by decide) (fun _ => by decide)
      (fun _ => by decide) fun _ => by decide⟩
  rw [if_neg (mt is40.mp four)]
  rcases Classical.em (HasType cards .ty32) with full | full
  · exact ⟨_, congrArg some (if_pos (is32.mpr full)), full, fun _ there => there.rank_le (absurd · straightFlush)
      (absurd · four) (fun _ => by decide) (fun _ => by decide) (fun _ => by decide) (fun _ => by decide)
      (fun _ => by decide) fun _ => by decide⟩
  rw [if_neg (mt is32.mp full)]
  rcases Classical.em (HasType cards .tysc) with color | color
  · -- A flush is found, as it is no straight.
    have found := flush' color fun straight => straightFlush ⟨straight, color⟩
    exact ⟨_, congrArg some (if_pos found), color, fun _ there => there.rank_le (absurd · straightFlush) (absurd · four)
      (absurd · full) (fun _ => by decide) (fun _ => by decide) (fun _ => by decide) (fun _ => by decide)
      fun _ => by decide⟩
  rw [if_neg (mt flush color)]
  rcases Classical.em (HasType cards .ty123) with straight | straight
  · exact ⟨_, congrArg some (if_pos (is123.mpr ⟨straight, color⟩)), straight, fun _ there => there.rank_le
      (absurd · straightFlush) (absurd · four) (absurd · full) (absurd · color) (fun _ => by decide)
      (fun _ => by decide) (fun _ => by decide) fun _ => by decide⟩
  rw [if_neg fun found => straight (is123.mp found).1]
  rcases Classical.em (HasType cards .ty30) with three | three
  · exact ⟨_, congrArg some (if_pos (is30.mpr three)), three, fun _ there => there.rank_le (absurd · straightFlush)
      (absurd · four) (absurd · full) (absurd · color) (absurd · straight) (fun _ => by decide) (fun _ => by decide)
      fun _ => by decide⟩
  rw [if_neg (mt is30.mp three)]
  rcases Classical.em (HasType cards .ty22) with pairs | pairs
  · exact ⟨_, congrArg some (if_pos (is22.mpr pairs)), pairs, fun _ there => there.rank_le (absurd · straightFlush)
      (absurd · four) (absurd · full) (absurd · color) (absurd · straight) (absurd · three) (fun _ => by decide)
      fun _ => by decide⟩
  rw [if_neg (mt is22.mp pairs)]
  rcases Classical.em (HasType cards .ty20) with pair | pair
  · exact ⟨_, congrArg some (if_pos (is20.mpr pair)), pair, fun _ there => there.rank_le (absurd · straightFlush)
      (absurd · four) (absurd · full) (absurd · color) (absurd · straight) (absurd · three) (absurd · pairs)
      fun _ => by decide⟩
  exact ⟨_, congrArg some (if_neg (mt is20.mp pair)), trivial, fun _ there => there.rank_le (absurd · straightFlush)
    (absurd · four) (absurd · full) (absurd · color) (absurd · straight) (absurd · three) (absurd · pairs)
    (absurd · pair)⟩

end H5Server.S13s
