import H5Server.Erqs.Offers

/-! # Option bits and the melds taken on them

`UpdateOption` announces every stored offer by its bit. A chi, peng or gang message takes the
stored meld it picks: the tiles leave the hand and the meld is added, if the hand still has them.
-/

namespace H5Server.Erqs

/-! ## Bits -/

@[simp] theorem hasType_or (option other : Nat) (type : MjType) :
    hasType (option ||| other) type = (hasType option type || hasType other type) :=
  Nat.testBit_or ..

@[simp] theorem hasType_zero (type : MjType) : hasType 0 type = false := Nat.zero_testBit _

@[simp] theorem hasType_bit (type other : MjType) : hasType type.bit other = (type == other) := by
  cases type <;> cases other <;> rfl

theorem hasType_foldl_bits (cpgs : List CPG) (bits : Nat) (type : MjType) :
    hasType (cpgs.foldl (fun bits cpg => bits ||| cpg.type.bit) bits) type =
      (hasType bits type || cpgs.any fun cpg => cpg.type == type) := by
  induction cpgs generalizing bits with
  | nil => simp
  | cons cpg rest ih => simp only [List.foldl_cons, ih, hasType_or, hasType_bit, List.any_cons, Bool.or_assoc]

namespace GamePlayer

section UpdateOption

variable (player : GamePlayer) (chair : Fin 2) (targetCard : Int) (targetChair : Option (Fin 2))
  (canGang : Bool) (update : Nat)

theorem updateOption_found {cpg : CPG}
    (stored : cpg ∈ (player.updateOption chair targetCard targetChair canGang update).optionalCpgs) :
    FoundFrom player.handCards player.cpgs targetCard cpg := offeredCpgs_found stored

/-- Every stored offer has its bit. -/
theorem updateOption_hasOptionType {cpg : CPG}
    (offered : cpg ∈ player.offeredCpgs chair targetCard targetChair canGang update) :
    (player.updateOption chair targetCard targetChair canGang update).hasOptionType cpg.type = true := by
  have announced : ((player.offeredCpgs chair targetCard targetChair canGang update).any
      fun other => other.type == cpg.type) = true := List.any_eq_true.mpr ⟨cpg, offered, beq_self_eq_true _⟩
  simp only [hasOptionType, updateOption, hasType_or, hasType_foldl_bits, announced, Bool.or_true, Bool.true_or]

/-- Stored ready-hand offers have the bit of ting. -/
theorem updateOption_hasOptionType_ting
    (offered : (player.updateOption chair targetCard targetChair canGang update).tingOptInfos ≠ []) :
    (player.updateOption chair targetCard targetChair canGang update).hasOptionType .ting = true := by
  have filled : List.isEmpty (if (!player.ting) = true ∧ hasType update .ting = true then
      findTingOptInfos player.handCards else []) = false :=
    Bool.eq_false_iff.mpr (mt List.isEmpty_iff.mp offered)
  simp only [hasOptionType, updateOption, hasType_or, filled, Bool.false_eq_true, ↓reduceIte, hasType_bit,
    beq_self_eq_true, Bool.or_true]

/-- Without a mask for ting no ready-hand offer is stored. -/
theorem updateOption_tingOptInfos_nil (mask : hasType update .ting = false) :
    (player.updateOption chair targetCard targetChair canGang update).tingOptInfos = [] := by
  simp only [updateOption, mask, Bool.false_eq_true, and_false, ↓reduceIte]

theorem updateOption_claim (noAn : hasType update .anGang = false) (noJia : hasType update .jiaGang = false)
    {cpg : CPG}
    (stored : cpg ∈ (player.updateOption chair targetCard targetChair canGang update).optionalCpgs) :
    isClaimType cpg.type = true := by
  obtain ⟨found, present, rfl⟩ := offeredCpgs_mem stored
  have claim : isClaimType found.type = true := findOptionalCpgs_claim noAn noJia present
  exact claim

/-- A search for hu or ting alone finds no meld. -/
theorem updateOption_optionalCpgs_nil {type : MjType} (kind : type = .hu ∨ type = .ting) :
    (player.updateOption chair targetCard targetChair canGang type.bit).optionalCpgs = [] := by
  refine List.eq_nil_iff_forall_not_mem.mpr fun cpg stored => ?_
  obtain ⟨found, present, -⟩ := offeredCpgs_mem stored
  obtain rfl | rfl := kind <;> simp [findOptionalCpgs] at present

/-- A search for hu alone offers nothing else. -/
theorem updateOption_hu_of_offered
    (offered : (player.updateOption chair targetCard targetChair canGang MjType.hu.bit).option ≠ 0) :
    (player.updateOption chair targetCard targetChair canGang MjType.hu.bit).hasOptionType .hu = true := by
  have noMelds : player.offeredCpgs chair targetCard targetChair canGang MjType.hu.bit = [] :=
    player.updateOption_optionalCpgs_nil chair targetCard targetChair canGang (.inl rfl)
  have noTing : hasType MjType.hu.bit .ting = false := by decide
  simp only [hasOptionType, updateOption, noMelds, noTing, List.foldl_nil, Bool.false_eq_true, and_false, ↓reduceIte,
    List.isEmpty_nil, Nat.zero_or, Nat.or_zero] at offered ⊢
  split
  · exact hasType_bit .hu .hu
  · next none => exact absurd (if_neg none) offered

end UpdateOption

/-! ## Picked melds -/

theorem getOptionalCpgIdx_some {player : GamePlayer} {cards : List Int} {cpg : CPG}
    (picked : player.getOptionalCpgIdx cards = some cpg) :
    cpg ∈ player.optionalCpgs ∧ sortCards cpg.cards = sortCards cards :=
  ⟨List.mem_of_find?_eq_some picked, beq_iff_eq.mp (List.find?_some picked :)⟩

theorem getOptionalCpgIdxByType_some {player : GamePlayer} {type : MjType} {cpg : CPG}
    (picked : player.getOptionalCpgIdxByType type = some cpg) :
    cpg ∈ player.optionalCpgs ∧ cpg.type = type :=
  ⟨List.mem_of_find?_eq_some picked, beq_iff_eq.mp (List.find?_some picked :)⟩

theorem chi_success {player : GamePlayer} {cards : List Int} {cpg : CPG}
    (picked : player.getOptionalCpgIdx cards = some cpg) (chi : isChiType cpg.type = true)
    (there : ∀ tile, cpg.taken.count tile ≤ player.handCards.count tile) :
    ∃ player', Spends player cpg.taken player' ∧ player.chi cards = (player'.addCpg cpg, true) := by
  obtain ⟨player', spends, done⟩ := removeEach_success there
  refine ⟨player', spends, ?_⟩
  have taken : cpg.taken = cpg.cards.filter (· ≠ cpg.targetCard) := by
    unfold CPG.taken
    generalize cpg.type = type at chi
    cases type <;> first | rfl | cases chi
  simp only [GamePlayer.chi, picked, ← taken, done]

theorem peng_success {player : GamePlayer} {cpg : CPG}
    (picked : player.getOptionalCpgIdxByType .peng = some cpg)
    (there : ∀ tile, cpg.taken.count tile ≤ player.handCards.count tile) :
    ∃ player', Spends player cpg.taken player' ∧ player.peng = (player'.addCpg cpg, true) := by
  have taken : cpg.taken = List.replicate 2 cpg.targetCard := by
    simp only [CPG.taken, (getOptionalCpgIdxByType_some picked).2]
  have enough := there cpg.targetCard
  rw [taken, List.count_replicate_self] at enough
  obtain ⟨player', spends, done⟩ := removeHandCards_success enough
  exact ⟨player', taken ▸ spends, by simp only [GamePlayer.peng, picked, done]⟩

theorem gang_success {player : GamePlayer} {cards : List Int} {cpg : CPG}
    (picked : player.getOptionalCpgIdx cards = some cpg) (type : cpg.type = .anGang ∨ cpg.type = .dianGang)
    (there : ∀ tile, cpg.taken.count tile ≤ player.handCards.count tile) :
    ∃ player', Spends player cpg.taken player' ∧ player.gang cards = (player'.addCpg cpg, true) := by
  have taken : cpg.taken = List.replicate (if cpg.type = .anGang then 4 else 3) cpg.targetCard := by
    obtain type | type := type <;> simp only [CPG.taken, type, reduceCtorEq, ↓reduceIte]
  have enough := there cpg.targetCard
  rw [taken, List.count_replicate_self] at enough
  obtain ⟨player', spends, done⟩ := removeHandCards_success enough
  exact ⟨player', taken ▸ spends, by simp only [GamePlayer.gang, picked, if_pos type, done]⟩

/-- A kong added to a peng: the tile leaves the hand, then the peng is looked for. -/
theorem gang_jiaGang {player : GamePlayer} {cards : List Int} {cpg : CPG}
    (picked : player.getOptionalCpgIdx cards = some cpg) (type : cpg.type = .jiaGang)
    (there : 1 ≤ player.handCards.count cpg.targetCard) :
    ∃ player', Spends player [cpg.targetCard] player' ∧
      player.gang cards = player'.changePengToJiaGang cpg.targetCard := by
  obtain ⟨player', spends, done⟩ := removeHandCards_success there
  exact ⟨player', spends, by simp only [GamePlayer.gang, picked, type, reduceCtorEq, or_self, ↓reduceIte, done]⟩

/-- A gang message without effect: nothing is picked, or none of the tiles is in the hand. -/
theorem gang_idle {player : GamePlayer} {cards : List Int}
    (absent : ∀ cpg, player.getOptionalCpgIdx cards = some cpg → isGangType cpg.type = true →
      player.handCards.count cpg.targetCard = 0) : player.gang cards = (player, false) := by
  cases picked : player.getOptionalCpgIdx cards with
  | none => simp only [GamePlayer.gang, picked]
  | some cpg =>
    have none := absent cpg picked
    simp only [GamePlayer.gang, picked]
    generalize cpg.type = type at none
    cases type <;> first
      | rfl
      | simp only [removeHandCards_absent (none rfl), reduceCtorEq, or_self, or_true, true_or, ↓reduceIte,
          Nat.lt_add_one, Nat.reduceLT]

end GamePlayer

/-! ## Pengs that become kongs, and kongs that become pengs -/

theorem pengToJiaGang_some {targetCard : Int} {cpgs : List CPG}
    (there : ∃ meld ∈ cpgs, meld.type = .peng ∧ meld.targetCard = targetCard) :
    ∃ before peng after, cpgs = before ++ peng :: after ∧ peng.type = .peng ∧ peng.targetCard = targetCard ∧
      GamePlayer.pengToJiaGang targetCard cpgs =
        some (before ++ { peng with type := .jiaGang, cards := List.replicate 4 targetCard } :: after) := by
  induction cpgs with
  | nil => obtain ⟨meld, present, -⟩ := there; cases present
  | cons head rest ih =>
    by_cases here : head.targetCard = targetCard ∧ head.type = .peng
    · exact ⟨[], head, rest, rfl, here.2, here.1, by simp only [GamePlayer.pengToJiaGang, if_pos here, List.nil_append]⟩
    · obtain ⟨meld, present, peng, target⟩ := there
      have later : meld ∈ rest := by
        obtain rfl | later := List.mem_cons.mp present
        · exact absurd ⟨target, peng⟩ here
        · exact later
      obtain ⟨before, found, after, split, foundType, foundTarget, done⟩ := ih ⟨meld, later, peng, target⟩
      exact ⟨head :: before, found, after, by rw [split]; rfl, foundType, foundTarget, by
        simp only [GamePlayer.pengToJiaGang, if_neg here, done, Option.map_some, List.cons_append]⟩

/-- The added kongs of `card` among the melds. -/
def jiaGangs (card : Int) (cpgs : List CPG) : Nat :=
  cpgs.countP fun cpg => decide (cpg.targetCard = card ∧ cpg.type = .jiaGang)

theorem four_mul_jiaGangs_le (card : Int) {cpgs : List CPG} (formed : ∀ meld ∈ cpgs, meld.WellFormed) :
    4 * jiaGangs card cpgs ≤ (cpgs.flatMap (·.cards)).count card := by
  induction cpgs with
  | nil => exact Nat.le_refl _
  | cons head rest ih =>
    have later := ih fun meld present => formed meld (List.mem_cons_of_mem _ present)
    rw [jiaGangs, List.countP_cons, List.flatMap_cons, List.count_append]
    rw [jiaGangs] at later
    split
    · next kong =>
      obtain ⟨target, type⟩ := of_decide_eq_true kong
      have cards := formed head List.mem_cons_self
      rw [CPG.WellFormed, type] at cards
      rw [cards, target, List.count_replicate_self]
      omega
    · omega

/-- Each added kong of `card` turned back gives up one tile. -/
theorem count_changeJiaGangToPeng {player : GamePlayer} (card : Int)
    (formed : ∀ meld ∈ player.cpgs, meld.WellFormed) (tile : Int) :
    (player.changeJiaGangToPeng card).held tile + (if tile = card then jiaGangs card player.cpgs else 0) =
      player.held tile := by
  simp only [GamePlayer.held_eq, GamePlayer.changeJiaGangToPeng, List.flatMap_map]
  suffices melds : (player.cpgs.flatMap fun cpg => (if cpg.targetCard = card ∧ cpg.type = .jiaGang then
      { cpg with cards := List.replicate 3 card } else cpg).cards).count tile +
      (if tile = card then jiaGangs card player.cpgs else 0) = (player.cpgs.flatMap (·.cards)).count tile by
    omega
  generalize player.cpgs = cpgs at formed
  induction cpgs with
  | nil => simp [jiaGangs]
  | cons head rest ih =>
    have later := ih fun meld present => formed meld (List.mem_cons_of_mem _ present)
    simp only [jiaGangs, List.countP_cons, List.flatMap_cons, List.count_append, decide_eq_true_eq] at later ⊢
    split
    · next kong =>
      have cards := formed head List.mem_cons_self
      rw [CPG.WellFormed, kong.2] at cards
      simp only at cards
      rw [cards, kong.1, List.count_replicate, List.count_replicate]
      simp only [beq_iff_eq, eq_comm (a := card)]
      by_cases same : tile = card <;> simp only [same, ↓reduceIte] at later ⊢ <;> omega
    · by_cases same : tile = card <;> simp only [same, ↓reduceIte] at later ⊢ <;> omega

theorem count_add_count_le {cpgs : List CPG} {meld other : CPG} (present : meld ∈ cpgs)
    (otherPresent : other ∈ cpgs) (ne : other ≠ meld) (tile : Int) :
    meld.cards.count tile + other.cards.count tile ≤ (cpgs.flatMap (·.cards)).count tile := by
  have first := (List.perm_cons_erase present).flatMap_right (·.cards) |>.count_eq tile
  have later : other ∈ cpgs.erase meld := (List.mem_erase_of_ne ne).mpr otherPresent
  have second := (List.perm_cons_erase later).flatMap_right (·.cards) |>.count_eq tile
  simp only [List.flatMap_cons, List.count_append] at first second
  omega

/-- Four tiles of one value identify the meld that holds them. -/
theorem getCpgIdx_kong (player : GamePlayer) {cards : List Int} {meld : CPG} {card : Int}
    (present : meld ∈ player.cpgs) (four : meld.cards = List.replicate 4 card)
    (same : GamePlayer.sortCards meld.cards = GamePlayer.sortCards cards) (few : player.held card < 8) :
    player.getCpgIdx cards = some meld := by
  obtain ⟨found, picked⟩ : ∃ found, player.getCpgIdx cards = some found :=
    Option.isSome_iff_exists.mp (List.find?_isSome.mpr ⟨meld, present, beq_iff_eq.mpr same⟩)
  have foundPresent := List.mem_of_find?_eq_some picked
  have foundSame : GamePlayer.sortCards found.cards = GamePlayer.sortCards cards :=
    beq_iff_eq.mp (List.find?_some picked :)
  rw [picked]
  by_contra other
  have perm : found.cards.Perm meld.cards := by
    have sorted := (List.perm_insertionSort (· ≤ ·) found.cards).symm
    rw [show found.cards.insertionSort (· ≤ ·) = meld.cards.insertionSort (· ≤ ·) from
      foundSame.trans same.symm] at sorted
    exact sorted.trans (List.perm_insertionSort (· ≤ ·) meld.cards)
  have eight := count_add_count_le present foundPresent (fun eq => other (congrArg some eq)) card
  rw [perm.count_eq, four, List.count_replicate_self] at eight
  rw [GamePlayer.held_eq] at few
  omega

end H5Server.Erqs
